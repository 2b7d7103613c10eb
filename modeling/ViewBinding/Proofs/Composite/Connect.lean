import ViewBinding.Proofs.Composite.Steady

/-!
# Composite — connecting parts

In a furnished world the locator hands out a direct leaf for every property that is there
(`Furnished.objectObserver`), so connecting a plain expression is steady and gives what a part may
watch, or nothing (`Furnished.connectPlain`).  Connecting an expression whose parts are plain makes a
composite without followers, and parts that keep nothing yet (`honest_connect`).
-/

namespace ViewBinding

namespace World

variable {η : Type} {w w' : World η} {P : Ref .object → String → Prop} {o : Ref .object} {n : String}
  {c : Ref .composite} {scope : Scope} {part : Part} {e : Expr}

/-! ### The locator -/

theorem steady_withLocator (w : World η) (locator : Locator)
    (properties : ∀ p ∈ locator.properties, p ∈ w.locator.properties ∨ w.Rooted p.2)
    (dispatchers : ∀ p ∈ locator.dispatchers, p ∈ w.locator.dispatchers ∨
      ∃ cell, w.dispatchers.get? p.2 = some cell ∧ cell.object = p.1) :
    w.Steady P { w with locator } where
  outline _ := rfl
  directVoice? _ := rfl
  audience l := by cases l <;> rfl
  place? l := by cases l <;> exact id
  collectors _ := rfl
  nextToken := Nat.le_refl _
  furnished F :=
    { there := F.there
      cached := fun p m => by
        have rooted := (properties p m).elim (F.cached p) id
        exact ⟨rooted.1, by cases e : p.2 <;> exact e ▸ rooted.2⟩
      dispatcher := fun p m => (dispatchers p m).elim (F.dispatcher p) id
      handed := fun d cell p get m => by
        have rooted := F.handed d cell p get m
        exact ⟨rooted.1, by cases e : p.2 <;> exact e ▸ rooted.2⟩ }

theorem steady_afterCreation (w : World η) : w.Steady P w.afterCreation := by
  unfold afterCreation
  split
  · exact .refl w
  · exact steady_withLocator w _ (fun p m => .inl (List.mem_filter.1 m).1)
      fun p m => .inl (List.mem_filter.1 m).1

theorem steady_newSetter (w : World η) (o : Ref .object) (n : String) :
    w.Steady P (w.newSetter o n).2 ∧ (w.newSetter o n).2.Rooted (.setter (w.newSetter o n).1) := by
  refine ⟨.of_settings (fun _ => rfl) (fun _ => rfl) (fun l => ?_) (fun _ => rfl) (Nat.le_refl _)
    ⟨rfl, rfl, fun _ => rfl, fun l => ?_, fun _ _ _ => id⟩, trivial, ?_⟩
  · cases l with
    | setter r =>
      simp only [audience, newSetter, Store.get?_alloc]
      split
      next same => simp [same, Listeners.empty]
      · rfl
    | _ => rfl
  · cases l with
    | setter r =>
      simp only [place?, newSetter, Store.get?_alloc]
      split
      · simp
      · exact id
    | _ => exact id
  · simp [place?, newSetter]

theorem steady_newPoll (w : World η) (o : Ref .object) (n : String) :
    w.Steady P (w.newPoll o n).2 ∧ (w.newPoll o n).2.Rooted (.poll (w.newPoll o n).1) := by
  refine ⟨.of_settings (fun _ => rfl) (fun _ => rfl) (fun l => ?_) (fun _ => rfl) (Nat.le_refl _)
    ⟨rfl, rfl, fun _ => rfl, fun l => ?_, fun _ _ _ => id⟩, trivial, ?_⟩
  · cases l with
    | poll r =>
      simp only [audience, newPoll, Store.get?_alloc]
      split
      next same => simp [same, Listeners.empty]
      · rfl
    | _ => rfl
  · cases l with
    | poll r =>
      simp only [place?, newPoll, Store.get?_alloc]
      split
      · simp
      · exact id
    | _ => exact id
  · simp [place?, newPoll]

theorem Furnished.cachedProperty (F : w.Furnished P) (o : Ref .object) (n : String)
    {make : World η → Leaf × World η}
    (made : w.Steady P (make w).2 ∧ (make w).2.Rooted (make w).1) :
    w.Steady P (w.cachedProperty o n make).2 ∧
      (w.cachedProperty o n make).2.Rooted (w.cachedProperty o n make).1 := by
  unfold World.cachedProperty
  split
  next leaf found => exact ⟨.refl w, F.cached _ (Entries.mem_of_get? found)⟩
  · obtain ⟨steady, rooted⟩ := made
    dsimp only
    have kept := (steady_withLocator (P := P) (make w).2 { (make w).2.locator with
      properties := Entries.put (o, n) (make w).1 (make w).2.locator.properties }
      (fun p m => (Entries.mem_put m).elim (fun same => .inr (same ▸ rooted)) .inl)
      fun p m => .inl m).trans (steady_afterCreation _)
    exact ⟨steady.trans kept, kept.rooted rooted⟩

/-! ### Dispatchers -/

theorem steady_newDispatcher (w : World η) (o : Ref .object) :
    w.Steady P (w.newDispatcher o).2 where
  outline _ := rfl
  directVoice? _ := rfl
  audience l := by cases l <;> rfl
  place? l := by cases l <;> exact id
  collectors _ := rfl
  nextToken := Nat.le_refl _
  furnished F :=
    { there := F.there
      cached := fun p m => by
        have rooted := F.cached p m
        exact ⟨rooted.1, by cases e : p.2 <;> exact e ▸ rooted.2⟩
      dispatcher := fun p m => by
        obtain ⟨cell, get, of⟩ := F.dispatcher p m
        exact ⟨cell, (Store.get?_alloc_of_ne _ (Store.ne_next_of_get? get)).trans get, of⟩
      handed := fun d cell p get m => by
        rw [newDispatcher, Store.get?_alloc] at get
        split at get
        · cases get
          cases m
        · have rooted := F.handed d cell p get m
          exact ⟨rooted.1, by cases e : p.2 <;> exact e ▸ rooted.2⟩ }

theorem Furnished.objectDispatcher (F : w.Furnished P) (o : Ref .object) :
    w.Steady P (w.objectDispatcher o).2 ∧ (w.objectDispatcher o).2.objects = w.objects ∧
      ∃ cell, (w.objectDispatcher o).2.dispatchers.get? (w.objectDispatcher o).1 = some cell ∧
        cell.object = o := by
  unfold World.objectDispatcher
  split
  next d found => exact ⟨.refl w, rfl, F.dispatcher _ (Entries.mem_of_get? found)⟩
  · dsimp only
    have new : ∃ cell, (w.newDispatcher o).2.dispatchers.get? (w.newDispatcher o).1 = some cell ∧
        cell.object = o := ⟨_, Store.get?_alloc_next _ _, rfl⟩
    have kept := (steady_withLocator (P := P) (w.newDispatcher o).2 { w.locator with
      dispatchers := Entries.put o (w.newDispatcher o).1 w.locator.dispatchers } (fun p m => .inl m)
      fun p m => (Entries.mem_put m).elim (fun same => .inr (same ▸ new)) .inl).trans
        (steady_afterCreation _)
    refine ⟨(steady_newDispatcher w o).trans kept, (objects_afterCreation _).trans rfl, ?_⟩
    · unfold afterCreation
      split <;> exact new

theorem Furnished.dispatcherObserver (F : w.Furnished P) {d : Ref .dispatcher}
    {cell : DispatcherCell} (get : w.dispatchers.get? d = some cell)
    (has : w.has cell.object n = true) : w.Steady P (w.dispatcherObserver d n).2 ∧
      (w.dispatcherObserver d n).2.Rooted (w.dispatcherObserver d n).1 := by
  unfold World.dispatcherObserver
  simp only [get]
  split
  next leaf found => exact ⟨.refl w, F.handed d cell _ get (Entries.mem_of_get? found)⟩
  simp only [if_pos has]
  have grows : ∀ l, w.place? l ≠ none → place? { w with
      properties := w.properties.alloc { dispatcher := d, object := cell.object, property := n } }
        l ≠ none := by
    intro l
    cases l with
    | property r =>
      simp only [place?, Store.get?_alloc]
      split
      · simp
      · exact id
    | _ => exact id
  have rooted : Rooted { w with
      properties := w.properties.alloc { dispatcher := d, object := cell.object, property := n } }
        (.property w.properties.next) := ⟨trivial, by simp [place?]⟩
  refine ⟨?_, rooted.1, rooted.2⟩
  exact
    { outline := fun _ => rfl
      directVoice? := fun _ => rfl
      audience := fun l => by
        cases l with
        | property r =>
          simp only [audience, modifyDispatcher, Store.get?_alloc]
          split
          next same => simp [same, Listeners.empty]
          · rfl
        | _ => rfl
      place? := grows
      collectors := fun _ => rfl
      nextToken := Nat.le_refl _
      furnished := fun _ =>
        { there := F.there
          cached := fun p m => ⟨(F.cached p m).1, grows _ (F.cached p m).2⟩
          dispatcher := fun p m => by
            obtain ⟨cell', get', of⟩ := F.dispatcher p m
            simp only [modifyDispatcher, Store.get?_modify]
            split
            next same =>
              rw [same] at get'
              exact ⟨_, congrArg (Option.map _) get', of⟩
            · exact ⟨cell', get', of⟩
          handed := fun d' cell' p get' m => by
            simp only [modifyDispatcher, Store.get?_modify] at get'
            split at get'
            · rw [get, Option.map_some, Option.some.injEq] at get'
              subst get'
              rcases Entries.mem_put m with rfl | m
              · exact rooted
              · exact ⟨(F.handed d cell p get m).1, grows _ (F.handed d cell p get m).2⟩
            · exact ⟨(F.handed d' cell' p get' m).1, grows _ (F.handed d' cell' p get' m).2⟩ } }

/-! ### Properties and names -/

/-- **The locator hands out direct leaves** for properties that are there. -/
theorem Furnished.objectObserver (F : w.Furnished P) (has : w.has o n = true) :
    w.Steady P (w.objectObserver o n).2 ∧
      (w.objectObserver o n).2.Rooted (w.objectObserver o n).1 := by
  unfold World.objectObserver
  split
  · exact F.cachedProperty o n (steady_newPoll w o n)
  · split
    · obtain ⟨steady, objects, cell, get, rfl⟩ := F.objectDispatcher o
      have has' : (w.objectDispatcher cell.object).2.has cell.object n = true := by
        simpa only [World.has, slot?, objects] using has
      obtain ⟨steady', rooted⟩ := (steady.furnished F).dispatcherObserver get has'
      exact ⟨steady.trans steady', rooted⟩
    · exact F.cachedProperty o n (steady_newSetter w o n)

/-- **Connecting a plain expression** is steady, and gives what a part may watch. -/
theorem Furnished.connectPlain (F : w.Furnished P) (plain : e.IsPlain P scope) (env : Env η)
    (provider : Provider) : ∃ info w', e.connect env provider scope w = (.ok info, w') ∧
      w.Steady P w' ∧ w'.Admits info := by
  have nothing : ∀ v, w.Admits ⟨v, none⟩ := fun _ _ none => by cases none
  cases e with
  | name n =>
    obtain ⟨o, owner, has⟩ := F.exists_owner plain
    obtain ⟨steady, rooted⟩ := F.objectObserver has
    rw [Expr.connect]
    refine ⟨_, _, rfl, ?_⟩
    rw [owner]
    refine ⟨steady, fun ob watched => ⟨_, ?_, rooted⟩⟩
    exact (Option.some.inj watched).symm
  | primitive _ | string _ | chain _ | assign _ _ =>
    rw [Expr.connect]
    exact ⟨_, w, rfl, .refl w, nothing _⟩
  | _ => exact plain.elim

/-! ### New composites and their parts -/

theorem part?_newComposite (w : World η) (e : Expr) (provider : Provider) (scope : Scope)
    (v : Value) (c : Ref .composite) (i : Nat) :
    (w.newComposite e provider scope v).2.part? c i = w.part? c i := by
  simp only [part?, newComposite, Store.get?_alloc]
  split
  next same => simp [same]
  · rfl

theorem followersOf_newComposite (w : World η) (e : Expr) (provider : Provider) (scope : Scope)
    (v : Value) (c : Ref .composite) :
    (w.newComposite e provider scope v).2.followersOf c = w.followersOf c := by
  simp only [followersOf, newComposite, Store.get?_alloc]
  split
  next same => simp [same, Listeners.empty]
  · rfl

theorem rearranges_newComposite (w : World η) (e : Expr) (provider : Provider) (scope : Scope)
    (v : Value) : w.Rearranges (w.newComposite e provider scope v).2 [] where
  directVoice? _ := rfl
  audience l := by cases l <;> rfl
  place? l := by cases l <;> exact id
  collectors _ := rfl
  nextToken := Nat.le_refl _
  followers c p m := .inl (followersOf_newComposite w e provider scope v c ▸ m)
  fits c i part info is some :=
    .inl ⟨part, part?_newComposite w e provider scope v c i ▸ is, some⟩
  watches c i part l is watched :=
    ⟨part, (part?_newComposite w e provider scope v c i).trans is, watched⟩
  retains c i s := by
    simp only [Retains, part?_newComposite, List.not_mem_nil, not_false_eq_true, and_true]
  lost s m := absurd m List.not_mem_nil
  apart := List.nodup_nil
  idle c alone := .inl (followersOf_newComposite w e provider scope v c ▸ alone)

/-- **A new composite** has no parts and no followers. -/
theorem Accounted.newComposite (A : w.Accounted P []) (e : Expr) (provider : Provider) (scope : Scope)
    (v : Value) : (w.newComposite e provider scope v).2.Accounted P [] where
  furnished := A.furnished.settings
    ⟨rfl, rfl, fun _ => rfl, fun l => by cases l <;> exact id, fun _ _ _ => id⟩
  plain c i part scope' is unconnected at' := by
    rw [part?_newComposite] at is
    have there : c ≠ w.composites.next := by
      rintro rfl
      simp [World.part?] at is
    refine A.plain c i part scope' is unconnected ?_
    rwa [scopeOf?, World.newComposite, Store.get?_alloc_of_ne _ there] at at'
  accounts := A.accounts.rearranges (rearranges_newComposite w e provider scope v)

theorem scopeOf?_modifyComposite (w : World η) (c c' : Ref .composite)
    {f : CompositeCell → CompositeCell} (same : ∀ cell, (f cell).scope = cell.scope) :
    (w.modifyComposite c f).scopeOf? c' = w.scopeOf? c' :=
  Store.map_get?_modify _ _ _ same

/-- What a composite keeps beside its scope, its followers and its parts is not in the account. -/
theorem steady_modifyComposite (w : World η) (c : Ref .composite) {f : CompositeCell → CompositeCell}
    (same : ∀ cell, ((f cell).scope, (f cell).callbacks.entries, (f cell).parts) =
      (cell.scope, cell.callbacks.entries, cell.parts)) : w.Steady P (w.modifyComposite c f) :=
  .of_settings (fun _ => Store.map_get?_modify _ _ _ same) (fun _ => rfl)
    (fun l => by cases l <;> rfl) (fun _ => rfl) (Nat.le_refl _)
    ⟨rfl, rfl, fun _ => rfl, fun l => by cases l <;> exact id, fun _ _ _ => id⟩

theorem part?_pushPart {cell : CompositeCell} (get : w.composites.get? c = some cell) (part : Part)
    (c' : Ref .composite) (i : Nat) : (w.pushPart c part).part? c' i =
      if c' = c ∧ i = cell.parts.size then some part else w.part? c' i := by
  rw [pushPart, part?_modifyComposite]
  by_cases same : c' = c
  · subst same
    simp only [if_true, true_and, World.part?, get, Option.bind_eq_bind, Option.bind_some,
      Array.getElem?_push]
  · simp [same]

theorem rearranges_pushPart (at' : w.scopeOf? c = some scope)
    (unsubscribed : part.subscription = none) (admits : ∀ info, part.info = some info → w.Admits info) :
    w.Rearranges (w.pushPart c part) [] := by
  obtain ⟨cell, get, -⟩ := Option.map_eq_some_iff.1 at'
  have parts := part?_pushPart get part
  have old : ∀ {c' i part'}, w.part? c' i = some part' →
      (w.pushPart c part).part? c' i = some part' := fun {c' i part'} is => by
    rw [parts, if_neg, is]
    rintro ⟨rfl, rfl⟩
    simp [World.part?, get] at is
  have followers : ∀ c', (w.pushPart c part).followersOf c' = w.followersOf c' := fun c' =>
    followersOf_modifyComposite w c c' fun _ => rfl
  exact
    { directVoice? := fun _ => rfl
      audience := fun l => by cases l <;> rfl
      place? := fun l => by cases l <;> exact id
      collectors := fun _ => rfl
      nextToken := Nat.le_refl _
      followers := fun c' p m => .inl (followers c' ▸ m)
      fits := fun c' i part' info is some => by
        rw [parts] at is
        split at is
        · cases is
          exact .inr ((admits info some).mono fun l rooted =>
            ⟨rooted.1, by cases l <;> exact rooted.2⟩)
        · exact .inl ⟨part', is, some⟩
      watches := fun c' i part' l is watched => ⟨part', old is, watched⟩
      retains := fun c' i s => by
        simp only [List.not_mem_nil, not_false_eq_true, and_true]
        constructor
        · rintro ⟨part', is, keeps⟩
          rw [parts] at is
          split at is
          · cases is
            cases unsubscribed.symm.trans keeps
          · exact ⟨part', is, keeps⟩
        · rintro ⟨part', is, keeps⟩
          exact ⟨part', old is, keeps⟩
      lost := fun s m => absurd m List.not_mem_nil
      apart := List.nodup_nil
      idle := fun c' alone => .inl (followers c' ▸ alone) }

theorem scopeOf?_pushPart (w : World η) (c c' : Ref .composite) (part : Part) :
    (w.pushPart c part).scopeOf? c' = w.scopeOf? c' :=
  scopeOf?_modifyComposite w c c' fun _ => rfl

/-- **A part more**, which keeps nothing yet. -/
theorem Accounted.pushPart (A : w.Accounted P []) (at' : w.scopeOf? c = some scope)
    (unsubscribed : part.subscription = none)
    (admits : ∀ info, part.info = some info → w.Admits info)
    (plain : part.info = none → part.expression.IsPlain P scope) :
    (w.pushPart c part).Accounted P [] where
  furnished := A.furnished.settings
    ⟨rfl, rfl, fun _ => rfl, fun l => by cases l <;> exact id, fun _ _ _ => id⟩
  plain c' i part' scope' is unconnected there := by
    obtain ⟨cell, get, -⟩ := Option.map_eq_some_iff.1 at'
    rw [scopeOf?_pushPart] at there
    rw [part?_pushPart get] at is
    split at is
    next same =>
      cases is
      cases (same.1 ▸ there).symm.trans at'
      exact plain unconnected
    · exact A.plain c' i part' scope' is unconnected there
  accounts := A.accounts.rearranges (rearranges_pushPart at' unsubscribed admits)

/-- The world is accounted for, and has a composite of this scope. -/
structure Builds (P : Ref .object → String → Prop) (w : World η) (c : Ref .composite)
    (scope : Scope) : Prop where
  accounted : w.Accounted P []
  within : w.scopeOf? c = some scope

end World

/-- An expression whose parts are plain. -/
def Expr.IsFlat (P : Ref .object → String → Prop) (scope : Scope) : Expr → Prop
  | .conditional condition yes no =>
    condition.IsPlain P scope ∧ yes.IsPlain P scope ∧ no.IsPlain P scope
  | .keyed left right | .binary _ left right => left.IsPlain P scope ∧ right.IsPlain P scope
  | .negate _ operand => operand.IsPlain P scope
  | .callName n args => scope.Provides P n ∧ ∀ e ∈ args, e.IsPlain P scope
  | .call callee args => callee.IsPlain P scope ∧ ∀ e ∈ args, e.IsPlain P scope
  | .array parts | .object _ parts | .pipe _ _ _ parts => ∀ e ∈ parts, e.IsPlain P scope
  | e => e.IsPlain P scope

namespace Run

open World

variable {η : Type} {w : World η} {P : Ref .object → String → Prop} {c : Ref .composite}
  {scope : Scope} {e : Expr} {env : Env η} {provider : Provider}

theorem Ends.meets {α : Type} {x : Run η α} {post : α → World η → Prop} {fin : World η → Prop}
    (h : x.Ends False w post) : x.Meets w post fin := by
  obtain ⟨a, w', ran, there⟩ := h.exists_eq_ok
  exact (meets_of_eq_ok ran).2 there

theorem ends_addPart (B : w.Builds P c scope) (plain : e.IsPlain P scope) (env : Env η)
    (provider : Provider) (condition : Condition) :
    (addPart c e condition (e.connect env provider scope)).Ends False w
      fun _ w' => w'.Builds P c scope := by
  rw [addPart, ends_bind, ends_read]
  split
  · obtain ⟨info, w', ran, steady, admits⟩ := B.accounted.furnished.connectPlain plain env provider
    have within : w'.scopeOf? c = some scope := (steady.scopeOf? c).trans B.within
    rw [ends_bind, ends_of_eq_ok ran]
    split
    · refine ⟨(B.accounted.steady steady).pushPart within rfl (fun info' some => ?_)
        (fun none => by cases none), (scopeOf?_pushPart w' c c _).trans within⟩
      exact Option.some.inj some ▸ admits
    · exact ⟨B.accounted.steady steady, within⟩
  · exact ⟨B.accounted.pushPart B.within rfl (fun _ none => by cases none) fun _ => plain,
      (scopeOf?_pushPart w c c _).trans B.within⟩

theorem ends_addPrimary (B : w.Builds P c scope) (plain : e.IsPlain P scope) (env : Env η)
    (provider : Provider) : (addPrimary c e (e.connect env provider scope)).Ends False w
      fun _ w' => w'.Builds P c scope := by
  rw [addPrimary, ends_bind]
  refine (ends_addPart B plain env provider .always).mono fun info w' B => ?_
  have steady : w'.Steady P (w'.modifyComposite c fun cell => { cell with primary := some info }) :=
    steady_modifyComposite w' c fun _ => rfl
  exact ⟨B.accounted.steady steady, (steady.scopeOf? c).trans B.within⟩

theorem ends_connectParts (env : Env η) (provider : Provider) (condition : Condition) :
    ∀ (parts : List Expr) {w : World η}, w.Builds P c scope → (∀ e ∈ parts, e.IsPlain P scope) →
      (Expr.connectParts env provider scope c condition parts).Ends False w
        fun _ w' => w'.Builds P c scope
  | [], _, B, _ => by
    rw [Expr.connectParts]
    exact B
  | e :: rest, _, B, plain => by
    rw [Expr.connectParts, ends_bind, ends_discard]
    exact (ends_addPart B (plain e List.mem_cons_self) env provider condition).mono
      fun _ _ B => ends_connectParts env provider condition rest B
        fun e m => plain e (List.mem_cons_of_mem _ m)

theorem meets_openComposite (E : env.Honest P) (A : w.Accounted P []) (e : Expr) :
    (openComposite env provider scope e).Meets w (fun c w' => w'.Builds P c scope)
      (·.Accounted P []) := by
  rw [openComposite, meets_bind, meets_read, meets_bind]
  refine (((Evaluates.eval _ scope e).honest E).meets A).mono (fun v w' A => ?_) fun _ A => A
  refine ⟨A.newComposite e provider scope v, ?_⟩
  simp only [scopeOf?, Store.get?_alloc_next, Option.map_some]

/-- A composite that is opened and gets its parts. -/
theorem honest_compose (E : env.Honest P) {build : Ref .composite → Run η ConnectInfo}
    (builds : ∀ c (w : World η), w.Builds P c scope →
      (build c).Ends False w fun _ w' => w'.Builds P c scope) :
    (openComposite env provider scope e >>= build).Honest P :=
  honest_of_meets fun _ A => meets_bind.2 ((meets_openComposite E A e).mono
    (fun c w' B => ((builds c w' B).mono fun _ _ B => B.accounted).meets) fun _ A => A)

/-- **Connecting a flat expression is honest.** -/
theorem honest_connect (E : env.Honest P) (flat : e.IsFlat P scope) (provider : Provider) :
    (e.connect env provider scope).Honest P := by
  have plain : e.IsPlain P scope → (e.connect env provider scope).Honest P := fun plain w A => by
    obtain ⟨info, w', ran, steady, -⟩ := A.furnished.connectPlain plain env provider
    rw [ran]
    exact A.steady steady
  cases e with
  | conditional condition yes no =>
    rw [Expr.connect]
    refine honest_compose E fun c w B => ?_
    simp only [ends_bind, ends_discard]
    exact (ends_addPrimary B flat.1 env provider).mono fun _ _ B =>
      (ends_addPart B flat.2.1 env provider _).mono fun _ _ B =>
        (ends_addPart B flat.2.2 env provider _).mono fun _ _ B => B
  | keyed owner key =>
    rw [Expr.connect]
    refine honest_compose E fun c w B => ?_
    simp only [ends_bind, ends_discard]
    exact (ends_addPart B flat.1 env provider _).mono fun _ _ B =>
      (ends_addPart B flat.2 env provider _).mono fun _ _ B => B
  | binary operator left right =>
    rw [Expr.connect]
    refine honest_compose E fun c w B => ?_
    split
    · simp only [ends_bind, ends_discard]
      exact (ends_addPrimary B flat.1 env provider).mono fun _ _ B =>
        (ends_addPart B flat.2 env provider _).mono fun _ _ B => B
    · simp only [ends_bind, ends_discard]
      exact (ends_addPart B flat.1 env provider _).mono fun _ _ B =>
        (ends_addPart B flat.2 env provider _).mono fun _ _ B => B
  | negate operator operand =>
    rw [Expr.connect]
    refine honest_compose E fun c w B => ?_
    simp only [ends_bind, ends_discard]
    exact (ends_addPart B flat env provider _).mono fun _ _ B => B
  | callName n args =>
    rw [Expr.connect]
    refine honest_compose E fun c w B => ?_
    have name : Expr.IsPlain P scope (.name n) := flat.1
    have first := ends_addPrimary B name env provider
    rw [Expr.connect] at first
    simp only [ends_bind, ends_discard]
    exact first.mono fun _ _ B =>
      (ends_connectParts env provider _ args B flat.2).mono fun _ _ B => B
  | call callee args =>
    rw [Expr.connect]
    refine honest_compose E fun c w B => ?_
    simp only [ends_bind, ends_discard]
    exact (ends_addPrimary B flat.1 env provider).mono fun _ _ B =>
      (ends_connectParts env provider _ args B flat.2).mono fun _ _ B => B
  | array parts | object _ parts | pipe _ _ _ parts =>
    rw [Expr.connect]
    refine honest_compose E fun c w B => ?_
    simp only [ends_bind]
    exact (ends_connectParts env provider _ parts B flat).mono fun _ _ B => B
  | _ => exact plain flat

end Run

end ViewBinding
