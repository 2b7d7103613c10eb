import ViewBinding.Proofs.Leaf.Place

/-!
# Leaf — asking for an observer

The locator makes a leaf at the first request and hands out the same one ever after.  Asking changes
no value and no registration, so `w.Grows w'` says all there is to say about the worlds before and
after: what was there still is.

`objectObserver_spec` is the contract of the locator: the leaf that it hands out for a property of
an object is the one at that property, and the wiring stays intact.
-/

namespace ViewBinding

namespace World

variable {η : Type} {w w' w'' : World η}

/-! ### Looking at leaves -/

theorem exists_place?_of_audience {l : Leaf} {p : Token × Subscriber} (h : p ∈ w.audience l) :
    ∃ o n, w.place? l = some (o, n) := by
  cases l with
  | setter r =>
      cases e : w.setters.get? r with
      | none => simp [audience, e] at h
      | some c => exact ⟨c.object, c.property, by simp [place?, e]⟩
  | property r =>
      cases e : w.properties.get? r with
      | none => simp [audience, e] at h
      | some c => exact ⟨c.object, c.property, by simp [place?, e]⟩
  | placeholder r =>
      cases e : w.placeholders.get? r with
      | none => simp [audience, e] at h
      | some c => exact ⟨c.object, c.property, by simp [place?, e]⟩
  | poll r =>
      cases e : w.polls.get? r with
      | none => simp [audience, e] at h
      | some c => exact ⟨c.object, c.property, by simp [place?, e]⟩
  | _ => simp [audience] at h

/-- The value of the leaf of a property is the property. -/
theorem leafValue_of_place? (h : w.Attentive) {l : Leaf} {o : Ref .object} {n : String}
    (p : w.place? l = some (o, n)) : w.leafValue l = w.get o n := by
  cases l with
  | setter r =>
      simp only [place?, Option.map_eq_some_iff, Prod.mk.injEq] at p
      obtain ⟨c, e, rfl, rfl⟩ := p
      simp only [leafValue, e]
      split
      next ob =>
        have := (h.trap c.object c.property r).2 ⟨c, e, rfl, rfl, ob⟩
        simp [World.get, this, slotValue, e]
      · rfl
  | property r | placeholder r | poll r =>
      simp only [place?, Option.map_eq_some_iff, Prod.mk.injEq] at p
      obtain ⟨c, e, rfl, rfl⟩ := p
      simp [leafValue, e]
  | _ => simp [place?] at p

/-! ### Growth -/

/-- `w'` has new leaves beside those of `w`, and is the same otherwise. -/
structure Grows (w w' : World η) : Prop where
  backdrop : w'.backdrop = w.backdrop
  objects : w'.objects = w.objects
  setters : ∀ r c, w.setters.get? r = some c → w'.setters.get? r = some c
  newSetters : ∀ r c, w'.setters.get? r = some c → w.setters.get? r = some c ∨
    w.setters.get? r = none ∧ c.callbacks.entries = [] ∧ c.observing = false ∧ c.queued = false
      ∧ c.refused = false
  dispatchers : ∀ d c, w.dispatchers.get? d = some c →
    ∃ c', w'.dispatchers.get? d = some c' ∧ c'.object = c.object ∧ c'.listener = c.listener
  newDispatchers : ∀ d c', w'.dispatchers.get? d = some c' → c'.listener = none ∨
    ∃ c, w.dispatchers.get? d = some c ∧ c'.object = c.object ∧ c'.listener = c.listener
  subscriptions : w'.subscriptions = w.subscriptions
  nextToken : w'.nextToken = w.nextToken
  place? : ∀ l p, w.place? l = some p → w'.place? l = some p
  leafAt? : ∀ o n l, w.leafAt? o n = some l → w'.leafAt? o n = some l
  audience : ∀ l, w'.audience l = w.audience l
  successor? : ∀ l, w'.successor? l = w.successor? l
  movedTo? : ∀ u t, w'.movedTo? u t = w.movedTo? u t

theorem Grows.refl (w : World η) : w.Grows w :=
  ⟨rfl, rfl, fun _ _ h => h, fun _ _ h => .inl h, fun _ c h => ⟨c, h, rfl, rfl⟩,
    fun _ c h => .inr ⟨c, h, rfl, rfl⟩, rfl, rfl, fun _ _ h => h, fun _ _ _ h => h, fun _ => rfl,
    fun _ => rfl, fun _ _ => rfl⟩

theorem Grows.trans (h : w.Grows w') (h' : w'.Grows w'') : w.Grows w'' where
  backdrop := h'.backdrop.trans h.backdrop
  objects := h'.objects.trans h.objects
  setters r c e := h'.setters r c (h.setters r c e)
  newSetters r c e := by
    rcases h'.newSetters r c e with e | ⟨e, rest⟩
    · exact h.newSetters r c e
    · refine .inr ⟨?_, rest⟩
      cases e' : w.setters.get? r with
      | none => rfl
      | some c => rw [h.setters r c e'] at e; cases e
  dispatchers d c e := by
    obtain ⟨c₁, e₁, o₁, l₁⟩ := h.dispatchers d c e
    obtain ⟨c₂, e₂, o₂, l₂⟩ := h'.dispatchers d c₁ e₁
    exact ⟨c₂, e₂, o₂.trans o₁, l₂.trans l₁⟩
  newDispatchers d c₂ e := by
    rcases h'.newDispatchers d c₂ e with e | ⟨c₁, e₁, o₂, l₂⟩
    · exact .inl e
    · rcases h.newDispatchers d c₁ e₁ with e | ⟨c, e, o₁, l₁⟩
      · exact .inl (l₂.trans e)
      · exact .inr ⟨c, e, o₂.trans o₁, l₂.trans l₁⟩
  subscriptions := h'.subscriptions.trans h.subscriptions
  nextToken := h'.nextToken.trans h.nextToken
  place? l p e := h'.place? l p (h.place? l p e)
  leafAt? o n l e := h'.leafAt? o n l (h.leafAt? o n l e)
  audience l := (h'.audience l).trans (h.audience l)
  successor? l := (h'.successor? l).trans (h.successor? l)
  movedTo? u t := (h'.movedTo? u t).trans (h.movedTo? u t)

theorem Grows.voice? (h : w.Grows w') : w'.voice? = w.voice? := by
  have direct : w'.directVoice? = w.directVoice? := by
    funext s
    simp only [directVoice?, disposal?, h.subscriptions]
  funext s
  simp only [World.voice?, throughSuccessor?, direct, h.successor?, h.movedTo?]

theorem Grows.isMoved (h : w.Grows w') (s : Ref .subscription) : w'.IsMoved s ↔ w.IsMoved s := by
  simp only [IsMoved, h.movedTo?]

theorem Grows.enrolled (h : w.Grows w') {s : Ref .subscription} {o : Ref .object} {n : String}
    {sub : Subscriber} (e : w.Enrolled s o n sub) : w'.Enrolled s o n sub := by
  obtain ⟨own, l, t, voice, at', mem⟩ := e
  exact ⟨fun m => own ((h.isMoved s).1 m), l, t, h.voice? ▸ voice, h.leafAt? _ _ _ at',
    h.audience l ▸ mem⟩

/-- A registration is at the same place before and after. -/
theorem Grows.leafAt?_of_audience (h : w.Grows w') (wired : w.Located) (wired' : w'.Located)
    {o : Ref .object} {n : String} {l : Leaf} (at' : w'.leafAt? o n = some l)
    {p : Token × Subscriber} (mem : p ∈ w.audience l) : w.leafAt? o n = some l := by
  obtain ⟨o₀, n₀, place⟩ := exists_place?_of_audience mem
  obtain ⟨place', unresolved, -⟩ := wired'.current o n l at'
  obtain ⟨rfl, rfl⟩ : o₀ = o ∧ n₀ = n := by
    simpa using (h.place? l _ place).symm.trans place'
  rcases wired.unique o₀ n₀ l place with e | ⟨r, e, -⟩
  · exact e
  · rw [h.successor?, e] at unresolved
    cases unresolved

theorem Grows.registered (h : w.Grows w') (wired : w.Located) (wired' : w'.Located)
    (r : w.Registered) : w'.Registered where
  issued s ob t e := by
    rw [h.nextToken]
    exact r.issued s ob t (by simpa only [disposal?, h.subscriptions] using e)
  alone s s' ob ob' t e e' := by
    simp only [disposal?, h.subscriptions] at e e'
    exact r.alone s s' ob ob' t e e'
  sorted l := h.audience l ▸ r.sorted l
  heard l t sub m := by
    rw [h.nextToken]
    exact r.heard l t sub (h.audience l ▸ m)
  unmoved u t e := by
    rw [h.movedTo?]
    exact r.unmoved u t (h.successor? _ ▸ e)
  moved u t s e := by
    rw [h.subscriptions]
    exact r.moved u t s (h.movedTo? u t ▸ e)
  movedKind u t s d e v := by
    simp only [disposal?, h.subscriptions] at v
    exact r.movedKind u t s d (h.movedTo? u t ▸ e) v
  movedAlone u u' t t' s e e' :=
    r.movedAlone u u' t t' s (h.movedTo? u t ▸ e) (h.movedTo? u' t' ▸ e')
  voiced o n l t sub at' m := by
    rw [h.audience] at m
    obtain ⟨s, own, v⟩ := r.voiced o n l t sub (h.leafAt?_of_audience wired wired' at' m) m
    exact ⟨s, fun e => own ((h.isMoved s).1 e), h.voice? ▸ v⟩

theorem Grows.isDispatched (h : w.Grows w') (o : Ref .object) :
    w'.isDispatched o = w.isDispatched o := by
  have strategy : w'.config = w.config := congrArg Backdrop.config h.backdrop
  simp only [World.isDispatched, isFrozen, h.objects, strategy]

theorem Grows.attentive (h : w.Grows w') (wired : w.Located) (wired' : w'.Located)
    (a : w.Attentive) : w'.Attentive where
  listener o c t l e m := by
    rw [h.objects] at e
    obtain ⟨d, dc, rfl, ed, rfl, el⟩ := a.listener o c t l e m
    obtain ⟨dc', ed', eo, el'⟩ := h.dispatchers d dc ed
    exact ⟨d, dc', rfl, ed', eo, el'.trans el⟩
  listens d dc t e el := by
    rcases h.newDispatchers d dc e with none | ⟨c, e', eo, el'⟩
    · rw [none] at el
      cases el
    · rw [h.objects, eo]
      exact a.listens d c t e' (el' ▸ el)
  hearing o n l at' some dispatched := by
    rw [h.audience] at some
    obtain ⟨p, m⟩ := List.exists_mem_of_ne_nil _ some
    obtain ⟨d, dc, e, eo, el⟩ := a.hearing o n l (h.leafAt?_of_audience wired wired' at' m) some
      (h.isDispatched o ▸ dispatched)
    obtain ⟨dc', e', eo', el'⟩ := h.dispatchers d dc e
    exact ⟨d, dc', e', eo'.trans eo, el' ▸ el⟩
  trapping r c e some := by
    rcases h.newSetters r c e with e | ⟨-, none, -⟩
    · exact a.trapping r c e some
    · exact absurd none some
  willing r c e := by
    rcases h.newSetters r c e with e | ⟨-, -, -, -, willing⟩
    · exact a.willing r c e
    · exact willing
  trap o n r := by
    have slot : w'.slot? o n = w.slot? o n := by simp only [slot?, h.objects]
    rw [slot, a.trap o n r]
    constructor
    · rintro ⟨c, e, rest⟩
      exact ⟨c, h.setters r c e, rest⟩
    · rintro ⟨c, e, eo, en, observing⟩
      rcases h.newSetters r c e with e | ⟨-, -, idle, -⟩
      · exact ⟨c, e, eo, en, observing⟩
      · rw [idle] at observing
        cases observing
  scheduled o c e := by
    rw [h.objects] at e
    have tasks : w'.tasks.microtasks = w.tasks.microtasks :=
      congrArg Backdrop.microtasks h.backdrop
    rw [tasks]
    exact a.scheduled o c e
  pending o c e := a.pending o c (h.objects ▸ e)
  queued r c e := by
    have tasks : w'.tasks.microtasks = w.tasks.microtasks :=
      congrArg Backdrop.microtasks h.backdrop
    rw [tasks]
    rcases h.newSetters r c e with e | ⟨none, -, -, idle, -⟩
    · exact a.queued r c e
    · rw [idle]
      refine ⟨fun e => (by cases e), fun m => ?_⟩
      rcases a.known _ m with ⟨_, e, -⟩ | ⟨r', c', e, some⟩
      · cases e
      · cases e
        rw [none] at some
        cases some
  tasks := by
    have tasks : w'.tasks.microtasks = w.tasks.microtasks :=
      congrArg Backdrop.microtasks h.backdrop
    rw [tasks]
    exact a.tasks
  known task m := by
    have tasks : w'.tasks.microtasks = w.tasks.microtasks :=
      congrArg Backdrop.microtasks h.backdrop
    rw [tasks] at m
    rcases a.known task m with ⟨o, e, live⟩ | ⟨r, c, e, some⟩
    · exact .inl ⟨o, e, h.objects ▸ live⟩
    · exact .inr ⟨r, c, e, h.setters r c some⟩

/-- Growth keeps the wiring intact if it keeps the locator in order. -/
theorem Grows.wired (h : w.Grows w') (wired : w.Wired) (located : w'.Located) : w'.Wired where
  toLocated := located
  toRegistered := h.registered wired.toLocated located wired.toRegistered
  toAttentive := h.attentive wired.toLocated located wired.toAttentive

/-! ### Pruning -/

/-- Pruning drops nothing while everything that is cached lives. -/
theorem Located.dropStale (h : w.Located) : w.dropStale = w := by
  have all : ∀ {κ α : Type} {p : κ × α → Bool} (entries : List (κ × α)),
      (∀ e ∈ entries, p e = true) → entries.filter p = entries :=
    fun entries live => List.filter_eq_self.2 live
  unfold World.dropStale
  rw [all _ h.liveDispatchers, all _ h.liveProperties, all _ h.liveElements, all _ h.liveContents]

/-- A world whose caches are pruned at another size. -/
def withPruneAt (w : World η) (size : Nat) : World η :=
  { w with locator := { w.locator with pruneAt := size } }

theorem Located.afterCreation (h : w.Located) : ∃ size, w.afterCreation = w.withPruneAt size := by
  unfold World.afterCreation
  split
  · exact ⟨w.locator.pruneAt, rfl⟩
  · rw [h.dropStale]
    exact ⟨_, rfl⟩

theorem Located.withPruneAt (h : w.Located) (size : Nat) : (w.withPruneAt size).Located :=
  ⟨h.liveDispatchers, h.liveProperties, h.liveElements, h.liveContents, h.dispatcher, h.found,
    h.current, h.unique, h.propertyHome, h.placeholderHome⟩

theorem Grows.withPruneAt (w : World η) (size : Nat) : w.Grows (w.withPruneAt size) :=
  ⟨rfl, rfl, fun _ _ h => h, fun _ _ h => .inl h, fun _ c h => ⟨c, h, rfl, rfl⟩,
    fun _ c h => .inr ⟨c, h, rfl, rfl⟩, rfl, rfl, fun _ _ h => h, fun _ _ _ h => h, fun _ => rfl,
    fun _ => rfl, fun _ _ => rfl⟩

/-- What a lookup that made something leaves behind. -/
theorem Grows.afterCreation (h : w.Grows w') (located : w'.Located) :
    w.Grows w'.afterCreation ∧ w'.afterCreation.Located := by
  obtain ⟨size, e⟩ := located.afterCreation
  rw [e]
  exact ⟨h.trans (.withPruneAt w' size), located.withPruneAt size⟩

/-! ### Dispatchers -/

/-- A world in which an object has a dispatcher. -/
def withDispatcher (w : World η) (o : Ref .object) : World η :=
  { w with
    dispatchers := w.dispatchers.alloc { object := o }
    locator := { w.locator with
      dispatchers := Entries.put o w.dispatchers.next w.locator.dispatchers } }

section
variable {o : Ref .object}

theorem leafAt?_withDispatcher (h : w.Located) (none : Entries.get? o w.locator.dispatchers = none)
    (o' : Ref .object) (n : String) : (w.withDispatcher o).leafAt? o' n = w.leafAt? o' n := by
  have old : ∀ d, Entries.get? o' w.locator.dispatchers = some d → d ≠ w.dispatchers.next := by
    intro d e
    obtain ⟨c, e', -⟩ := h.dispatcher o' d e
    exact Store.ne_next_of_get? e'
  unfold leafAt?
  change (if w.isDispatched o' then _ else _) = _
  simp only [withDispatcher, Entries.get?_put, Store.get?_alloc]
  by_cases e : o' = o
  · simp [e, none, Entries.get?]
  · grind

theorem Grows.withDispatcher (h : w.Located)
    (none : Entries.get? o w.locator.dispatchers = none) : w.Grows (w.withDispatcher o) where
  backdrop := rfl
  objects := rfl
  setters _ _ e := e
  newSetters _ _ e := .inl e
  dispatchers d c e := by
    refine ⟨c, ?_, rfl, rfl⟩
    rw [World.withDispatcher, Store.get?_alloc_of_ne _ (Store.ne_next_of_get? e)]
    exact e
  newDispatchers d c e := by
    simp only [World.withDispatcher, Store.get?_alloc] at e
    split at e
    · cases e
      exact .inl rfl
    · exact .inr ⟨c, e, rfl, rfl⟩
  subscriptions := rfl
  nextToken := rfl
  place? _ _ e := e
  leafAt? o' n l e := by rwa [leafAt?_withDispatcher h none]
  audience _ := rfl
  successor? _ := rfl
  movedTo? _ _ := rfl

theorem Located.withDispatcher (h : w.Located) (live : w.objects.contains o = true)
    (dispatched : w.isDispatched o = true)
    (none : Entries.get? o w.locator.dispatchers = none) : (w.withDispatcher o).Located where
  liveDispatchers p m := by
    have : p.1 ∈ Entries.keys (Entries.put o w.dispatchers.next w.locator.dispatchers) :=
      List.mem_map_of_mem m
    rcases Entries.mem_keys_put.1 this with e | m
    · exact e ▸ live
    · obtain ⟨q, m, e⟩ := List.mem_map.1 m
      exact e ▸ h.liveDispatchers q m
  liveProperties := h.liveProperties
  liveElements := h.liveElements
  liveContents := h.liveContents
  dispatcher o' d e := by
    simp only [World.withDispatcher, Entries.get?_put] at e ⊢
    split at e
    next eo =>
      cases e
      exact ⟨_, Store.get?_alloc_next _ _, eo.symm⟩
    · obtain ⟨c, e', eo⟩ := h.dispatcher o' d e
      exact ⟨c, (Store.get?_alloc_of_ne _ (Store.ne_next_of_get? e')).trans e', eo⟩
  found d c e := by
    change _ ∧ _ ∧ w.isDispatched c.object = true
    simp only [World.withDispatcher, Entries.get?_put, Store.get?_alloc] at e ⊢
    have := h.found d c
    have := @Entries.distinct_nil String Leaf
    grind
  current o' n l e := by
    rw [leafAt?_withDispatcher h none] at e
    exact h.current o' n l e
  unique o' n l e := by
    simp only [leafAt?_withDispatcher h none]
    exact h.unique o' n l e
  propertyHome r c e := by
    have := h.propertyHome r c e
    simp only [World.withDispatcher, Entries.get?_put]
    grind
  placeholderHome r c e := by
    have := h.placeholderHome r c e
    simp only [World.withDispatcher, Entries.get?_put]
    grind

/-- The locator finds or makes the dispatcher of an object. -/
theorem objectDispatcher_spec (h : w.Located) (live : w.objects.contains o = true)
    (dispatched : w.isDispatched o = true) :
    w.Grows (w.objectDispatcher o).2 ∧ (w.objectDispatcher o).2.Located ∧
      Entries.get? o (w.objectDispatcher o).2.locator.dispatchers
        = some (w.objectDispatcher o).1 := by
  unfold objectDispatcher
  split
  next d e => exact ⟨.refl w, h, e⟩
  next none =>
    have grown : w.Grows (w.withDispatcher o) := .withDispatcher h none
    have located := h.withDispatcher live dispatched none
    obtain ⟨size, e⟩ := located.afterCreation
    obtain ⟨grown', located'⟩ := grown.afterCreation located
    refine ⟨grown', located', ?_⟩
    change Entries.get? o (w.withDispatcher o).afterCreation.locator.dispatchers = _
    rw [e]
    exact Entries.get?_put_self _ _ _

end

/-! ### Observers of a dispatcher -/

/-- A world in which a dispatcher hands out a leaf for a property. -/
def withObserver (w : World η) (d : Ref .dispatcher) (n : String) (l : Leaf) : World η :=
  w.modifyDispatcher d fun cell => { cell with observers := Entries.put n l cell.observers }

/-- `w'` has one leaf more than `w`, which watches `n` of `o` and is not handed out yet. -/
structure Makes (w w' : World η) (l : Leaf) (o : Ref .object) (n : String) : Prop where
  backdrop : w'.backdrop = w.backdrop
  objects : w'.objects = w.objects
  locator : w'.locator = w.locator
  dispatchers : w'.dispatchers = w.dispatchers
  setters : ∀ r c, w.setters.get? r = some c → w'.setters.get? r = some c
  newSetters : ∀ r c, w'.setters.get? r = some c → w.setters.get? r = some c ∨
    w.setters.get? r = none ∧ c.callbacks.entries = [] ∧ c.observing = false ∧ c.queued = false
      ∧ c.refused = false
  subscriptions : w'.subscriptions = w.subscriptions
  nextToken : w'.nextToken = w.nextToken
  fresh : w.place? l = none
  place? : ∀ l', w'.place? l' = if l' = l then some (o, n) else w.place? l'
  audience : ∀ l', w'.audience l' = w.audience l'
  successor? : ∀ l', w'.successor? l' = w.successor? l'
  movedTo? : ∀ u t, w'.movedTo? u t = w.movedTo? u t
  propertyHome : ∀ r c, w'.properties.get? r = some c → w.properties.get? r = some c ∨
    Entries.get? c.object w.locator.dispatchers = some c.dispatcher
  placeholderHome : ∀ r c, w'.placeholders.get? r = some c → w.placeholders.get? r = some c ∨
    Entries.get? c.object w.locator.dispatchers = some c.dispatcher

section
variable {o : Ref .object} {n : String} {l : Leaf}
  {handed : Ref .object → String → Option Leaf}

/-- What is handed out once the new leaf is, watches what it is handed out for. -/
theorem Makes.current (h : w.Located) (made : w.Makes w' l o n)
    (at' : ∀ o' n', handed o' n' = if o' = o ∧ n' = n then some l else w.leafAt? o' n')
    (unresolved : w.successor? l = none) (fits : w.Fits o l) {o' : Ref .object} {n' : String}
    {l' : Leaf} (e : handed o' n' = some l') :
    w'.place? l' = some (o', n') ∧ w'.successor? l' = none ∧ w.Fits o' l' := by
  rw [at'] at e
  rw [made.place?, made.successor?]
  split at e
  next both =>
    cases e
    obtain ⟨rfl, rfl⟩ := both
    exact ⟨if_pos rfl, unresolved, fits⟩
  · obtain ⟨p, rest⟩ := h.current o' n' l' e
    refine ⟨?_, rest⟩
    rw [if_neg, p]
    rintro rfl
    rw [made.fresh] at p
    cases p

/-- Once the new leaf is handed out, a leaf that watches a property is handed out for it. -/
theorem Makes.unique (h : w.Located) (made : w.Makes w' l o n)
    (at' : ∀ o' n', handed o' n' = if o' = o ∧ n' = n then some l else w.leafAt? o' n')
    (none : w.leafAt? o n = none) {o' : Ref .object} {n' : String} {l' : Leaf}
    (p : w'.place? l' = some (o', n')) :
    handed o' n' = some l' ∨
      ∃ r, w'.successor? l' = some r ∧ handed o' n' = some (.property r) := by
  rw [made.place?] at p
  rw [made.successor?]
  split at p
  next el =>
    cases p
    exact .inl (by rw [at', if_pos ⟨rfl, rfl⟩, el])
  · by_cases both : o' = o ∧ n' = n
    · obtain ⟨rfl, rfl⟩ := both
      rcases h.unique _ _ l' p with e' | ⟨r, -, e'⟩ <;>
      · rw [none] at e'
        cases e'
    · rw [at', if_neg both]
      exact h.unique o' n' l' p

end

section
variable {d : Ref .dispatcher} {c : DispatcherCell} {n : String} {l : Leaf}

theorem leafAt?_withObserver (h : w.Located) (made : w.Makes w' l c.object n)
    (e : w.dispatchers.get? d = some c) (o' : Ref .object) (n' : String) :
    (w'.withObserver d n l).leafAt? o' n' =
      if o' = c.object ∧ n' = n then some l else w.leafAt? o' n' := by
  obtain ⟨found, -, dispatched⟩ := h.found d c e
  have config : w'.config = w.config := congrArg Backdrop.config made.backdrop
  have same : (w'.withObserver d n l).isDispatched o' = w.isDispatched o' := by
    simp only [World.isDispatched, isFrozen, withObserver, modifyDispatcher, made.objects, config]
  unfold leafAt?
  rw [same]
  simp only [withObserver, modifyDispatcher, Store.get?_modify, made.locator, made.dispatchers]
  by_cases eo : o' = c.object
  · subst eo
    by_cases en : n' = n
    · simp [dispatched, found, e, en]
    · simp [dispatched, found, e, en, Entries.get?_put_of_ne]
  · rw [if_neg (c := o' = c.object ∧ n' = n) fun both => eo both.1]
    split
    · cases e' : Entries.get? o' w.locator.dispatchers with
      | none => rfl
      | some d' =>
        have : d' ≠ d := by
          rintro rfl
          obtain ⟨c', e₁, e₂⟩ := h.dispatcher o' d' e'
          rw [e] at e₁
          cases e₁
          exact eo e₂.symm
        simp only [if_neg this]
    · rfl

theorem Makes.grows (h : w.Located) (made : w.Makes w' l c.object n)
    (e : w.dispatchers.get? d = some c) (none : w.leafAt? c.object n = none) :
    w.Grows (w'.withObserver d n l) where
  backdrop := made.backdrop
  objects := made.objects
  setters := made.setters
  newSetters := made.newSetters
  dispatchers d' c' e' := by
    simp only [withObserver, modifyDispatcher, Store.get?_modify, made.dispatchers]
    split
    next ed =>
      rw [← ed, e']
      exact ⟨_, rfl, rfl, rfl⟩
    · exact ⟨c', e', rfl, rfl⟩
  newDispatchers d' c' e' := by
    simp only [withObserver, modifyDispatcher, Store.get?_modify, made.dispatchers] at e'
    split at e'
    next ed =>
      rw [e] at e'
      cases e'
      exact .inr ⟨c, ed ▸ e, rfl, rfl⟩
    · exact .inr ⟨c', e', rfl, rfl⟩
  subscriptions := made.subscriptions
  nextToken := made.nextToken
  place? l' p e' := by
    refine (made.place? l').trans ?_
    rw [if_neg, e']
    rintro rfl
    rw [made.fresh] at e'
    cases e'
  leafAt? o' n' l' e' := by
    rw [leafAt?_withObserver h made e, if_neg, e']
    rintro ⟨rfl, rfl⟩
    rw [none] at e'
    cases e'
  audience := made.audience
  successor? := made.successor?
  movedTo? := made.movedTo?

theorem Located.withObserver (h : w.Located) (made : w.Makes w' l c.object n)
    (e : w.dispatchers.get? d = some c) (none : w.leafAt? c.object n = none)
    (unresolved : w.successor? l = Option.none) (fits : w.Fits c.object l) : (w'.withObserver d n l).Located := by
  have config : w'.config = w.config := congrArg Backdrop.config made.backdrop
  have same : ∀ o, (w'.withObserver d n l).isDispatched o = w.isDispatched o := fun o => by
    simp only [World.isDispatched, isFrozen, World.withObserver, modifyDispatcher, made.objects,
      config]
  have frozen : ∀ o, (w'.withObserver d n l).isFrozen o = w.isFrozen o := fun o => by
    simp only [isFrozen, World.withObserver, modifyDispatcher, made.objects]
  have sameFits : ∀ o l', (w'.withObserver d n l).Fits o l' ↔ w.Fits o l' := fun o l' => by
    have config : (w'.withObserver d n l).config = w.config := config
    cases l' <;> simp only [Fits, same, frozen, config]
  refine ⟨?_, ?_, ?_, ?_, ?_, ?_, ?_, ?_, ?_, ?_⟩
  · have := h.liveDispatchers
    simpa only [World.withObserver, modifyDispatcher, made.locator, made.objects] using this
  · have := h.liveProperties
    simpa only [World.withObserver, modifyDispatcher, made.locator, made.objects] using this
  · have elements : w'.elements = w.elements := congrArg Backdrop.elements made.backdrop
    have := h.liveElements
    simpa only [World.withObserver, modifyDispatcher, made.locator, elements] using this
  · have arrays : w'.arrays = w.arrays := congrArg Backdrop.arrays made.backdrop
    have := h.liveContents
    simpa only [World.withObserver, modifyDispatcher, made.locator, arrays] using this
  · intro o' d' e'
    simp only [World.withObserver, modifyDispatcher, made.locator, made.dispatchers,
      Store.get?_modify] at e' ⊢
    obtain ⟨c', e₁, e₂⟩ := h.dispatcher o' d' e'
    split
    next ed =>
      rw [← ed, e₁]
      exact ⟨_, rfl, e₂⟩
    · exact ⟨c', e₁, e₂⟩
  · intro d' c' e'
    rw [same]
    simp only [World.withObserver, modifyDispatcher, made.locator, made.dispatchers,
      Store.get?_modify] at e' ⊢
    split at e'
    next ed =>
      rw [e] at e'
      cases e'
      obtain ⟨found, distinct, dispatched⟩ := h.found d c e
      exact ⟨ed ▸ found, distinct.put, dispatched⟩
    · exact h.found d' c' e'
  · intro o' n' l' e'
    rw [sameFits]
    exact made.current h (leafAt?_withObserver h made e) unresolved fits e'
  · intro o' n' l' p
    exact made.unique h (leafAt?_withObserver h made e) none p
  · intro r c' e'
    change Entries.get? c'.object w'.locator.dispatchers = _
    rw [made.locator]
    exact (made.propertyHome r c' e').elim (h.propertyHome r c') id
  · intro r c' e'
    change Entries.get? c'.object w'.locator.dispatchers = _
    rw [made.locator]
    exact (made.placeholderHome r c' e').elim (h.placeholderHome r c') id

/-- What a world with one leaf more hands out. -/
theorem Makes.spec (h : w.Located) (made : w.Makes w' l c.object n)
    (e : w.dispatchers.get? d = some c) (none : w.leafAt? c.object n = none)
    (unresolved : w.successor? l = Option.none) (fits : w.Fits c.object l) :
    w.Grows (w'.withObserver d n l) ∧ (w'.withObserver d n l).Located ∧
      (w'.withObserver d n l).leafAt? c.object n = some l :=
  ⟨made.grows h e none, h.withObserver made e none unresolved fits,
    by rw [leafAt?_withObserver h made e, if_pos ⟨rfl, rfl⟩]⟩

theorem makes_property (h : w.Located) (e : w.dispatchers.get? d = some c) :
    w.Makes { w with
      properties := w.properties.alloc { dispatcher := d, object := c.object, property := n } }
      (.property w.properties.next) c.object n where
  backdrop := rfl
  objects := rfl
  locator := rfl
  dispatchers := rfl
  setters _ _ e := e
  newSetters _ _ e := .inl e
  subscriptions := rfl
  nextToken := rfl
  fresh := by simp [place?]
  place? l' := by
    cases l' <;> simp only [place?, Store.get?_alloc] <;> grind
  audience l' := by
    cases l' <;> simp only [audience, Store.get?_alloc]
    split
    next e => simp [e, Listeners.empty]
    · rfl
  successor? _ := rfl
  movedTo? _ _ := rfl
  propertyHome r c' e' := by
    rw [Store.get?_alloc] at e'
    split at e'
    · cases e'
      exact .inr (h.found d c e).1
    · exact .inl e'
  placeholderHome _ _ e' := .inl e'

theorem makes_placeholder (h : w.Located) (e : w.dispatchers.get? d = some c) :
    w.Makes { w with
      placeholders := w.placeholders.alloc { dispatcher := d, object := c.object, property := n } }
      (.placeholder w.placeholders.next) c.object n where
  backdrop := rfl
  objects := rfl
  locator := rfl
  dispatchers := rfl
  setters _ _ e := e
  newSetters _ _ e := .inl e
  subscriptions := rfl
  nextToken := rfl
  fresh := by simp [place?]
  place? l' := by
    cases l' <;> simp only [place?, Store.get?_alloc] <;> grind
  audience l' := by
    cases l' <;> simp only [audience, Store.get?_alloc]
    split
    next e => simp [e]
    · rfl
  successor? l' := by
    cases l' <;> simp only [successor?, Store.get?_alloc]
    split
    next e => simp [e]
    · rfl
  movedTo? u t := by
    simp only [movedTo?, Store.get?_alloc]
    by_cases eu : u = w.placeholders.next <;> simp [eu]
  propertyHome _ _ e' := .inl e'
  placeholderHome r c' e' := by
    rw [Store.get?_alloc] at e'
    split at e'
    · cases e'
      exact .inr (h.found d c e).1
    · exact .inl e'

/-- A dispatcher hands out the leaf at a property. -/
theorem dispatcherObserver_spec (h : w.Located) (e : w.dispatchers.get? d = some c) (n : String) :
    w.Grows (w.dispatcherObserver d n).2 ∧ (w.dispatcherObserver d n).2.Located ∧
      (w.dispatcherObserver d n).2.leafAt? c.object n = some (w.dispatcherObserver d n).1 := by
  obtain ⟨found, -, dispatched⟩ := h.found d c e
  have at' : w.leafAt? c.object n = Entries.get? n c.observers := by
    simp only [leafAt?, dispatched, found, e, if_true]
  unfold dispatcherObserver
  simp only [e]
  cases observer : Entries.get? n c.observers with
  | some l => exact ⟨.refl w, h, at'.trans observer⟩
  | none =>
    rw [observer] at at'
    by_cases present : w.has c.object n = true
    · simp only [if_pos present]
      exact (makes_property h e).spec h e at' rfl dispatched
    · simp only [if_neg present]
      exact (makes_placeholder h e).spec h e at' (by simp [successor?]) dispatched

end

/-! ### Cached observers -/

/-- A world whose locator keeps a leaf for a property. -/
def withCached (w : World η) (o : Ref .object) (n : String) (l : Leaf) : World η :=
  { w with locator := { w.locator with
      properties := Entries.put (o, n) l w.locator.properties } }

section
variable {o : Ref .object} {n : String} {l : Leaf}

theorem leafAt?_withCached (made : w.Makes w' l o n) (cached : w.isDispatched o = false)
    (o' : Ref .object) (n' : String) :
    (w'.withCached o n l).leafAt? o' n' =
      if o' = o ∧ n' = n then some l else w.leafAt? o' n' := by
  have config : w'.config = w.config := congrArg Backdrop.config made.backdrop
  have same : (w'.withCached o n l).isDispatched o' = w.isDispatched o' := by
    simp only [World.isDispatched, isFrozen, withCached, made.objects, config]
  unfold leafAt?
  rw [same]
  simp only [withCached, Entries.get?_put, made.locator, made.dispatchers, Prod.mk.injEq]
  by_cases both : o' = o ∧ n' = n
  · obtain ⟨rfl, rfl⟩ := both
    simp [cached]
  · simp only [if_neg both]

/-- A leaf of a world with one leaf more is kept by the locator. -/
theorem Located.withCached (h : w.Located) (live : w.objects.contains o = true)
    (cached : w.isDispatched o = false) (made : w.Makes w' l o n)
    (none : w.leafAt? o n = Option.none) (unresolved : w.successor? l = Option.none)
    (fits : w.Fits o l) : (w'.withCached o n l).Located := by
  have config : w'.config = w.config := congrArg Backdrop.config made.backdrop
  have frozen : ∀ o', (w'.withCached o n l).isFrozen o' = w.isFrozen o' := fun o' => by
    simp only [isFrozen, World.withCached, made.objects]
  have same : ∀ o', (w'.withCached o n l).isDispatched o' = w.isDispatched o' := fun o' => by
    have config : (w'.withCached o n l).config = w.config := config
    simp only [World.isDispatched, frozen, config]
  have sameFits : ∀ o' l', (w'.withCached o n l).Fits o' l' ↔ w.Fits o' l' := fun o' l' => by
    have config : (w'.withCached o n l).config = w.config := config
    cases l' <;> simp only [Fits, same, frozen, config]
  refine ⟨?_, ?_, ?_, ?_, ?_, ?_, ?_, ?_, ?_, ?_⟩
  · have := h.liveDispatchers
    simpa only [World.withCached, made.locator, made.objects] using this
  · intro p m
    simp only [World.withCached, made.locator, made.objects] at m ⊢
    rcases Entries.mem_keys_put.1 (List.mem_map_of_mem m) with e | m
    · exact e ▸ live
    · obtain ⟨q, m, e⟩ := List.mem_map.1 m
      exact e ▸ h.liveProperties q m
  · have elements : w'.elements = w.elements := congrArg Backdrop.elements made.backdrop
    have := h.liveElements
    simpa only [World.withCached, made.locator, elements] using this
  · have arrays : w'.arrays = w.arrays := congrArg Backdrop.arrays made.backdrop
    have := h.liveContents
    simpa only [World.withCached, made.locator, arrays] using this
  · have := h.dispatcher
    simpa only [World.withCached, made.locator, made.dispatchers] using this
  · intro d c e
    rw [same]
    simp only [World.withCached, made.locator, made.dispatchers] at e ⊢
    exact h.found d c e
  · intro o' n' l' e
    rw [sameFits]
    exact made.current h (leafAt?_withCached made cached) unresolved fits e
  · intro o' n' l' p
    exact made.unique h (leafAt?_withCached made cached) none p
  · intro r c' e'
    change Entries.get? c'.object w'.locator.dispatchers = _
    rw [made.locator]
    exact (made.propertyHome r c' e').elim (h.propertyHome r c') id
  · intro r c' e'
    change Entries.get? c'.object w'.locator.dispatchers = _
    rw [made.locator]
    exact (made.placeholderHome r c' e').elim (h.placeholderHome r c') id

theorem Makes.grows_withCached (made : w.Makes w' l o n) (cached : w.isDispatched o = false)
    (none : w.leafAt? o n = none) : w.Grows (w'.withCached o n l) where
  backdrop := made.backdrop
  objects := made.objects
  setters := made.setters
  newSetters := made.newSetters
  dispatchers d c e := ⟨c, made.dispatchers ▸ e, rfl, rfl⟩
  newDispatchers d c e := .inr ⟨c, made.dispatchers ▸ e, rfl, rfl⟩
  subscriptions := made.subscriptions
  nextToken := made.nextToken
  place? l' p e := by
    refine (made.place? l').trans ?_
    rw [if_neg, e]
    rintro rfl
    rw [made.fresh] at e
    cases e
  leafAt? o' n' l' e := by
    rw [leafAt?_withCached made cached, if_neg, e]
    rintro ⟨rfl, rfl⟩
    rw [none] at e
    cases e
  audience := made.audience
  successor? := made.successor?
  movedTo? := made.movedTo?

theorem makes_poll (w : World η) (o : Ref .object) (n : String) :
    w.Makes (w.newPoll o n).2 (.poll w.polls.next) o n where
  backdrop := rfl
  objects := rfl
  locator := rfl
  dispatchers := rfl
  setters _ _ e := e
  newSetters _ _ e := .inl e
  subscriptions := rfl
  nextToken := rfl
  fresh := by simp [place?]
  place? l' := by
    cases l' <;> simp only [place?, newPoll, Store.get?_alloc] <;> grind
  audience l' := by
    cases l' <;> simp only [audience, newPoll, Store.get?_alloc]
    split
    next e => simp [e, Listeners.empty]
    · rfl
  successor? _ := rfl
  movedTo? _ _ := rfl
  propertyHome _ _ e' := .inl e'
  placeholderHome _ _ e' := .inl e'

theorem makes_setter (w : World η) (o : Ref .object) (n : String) :
    w.Makes (w.newSetter o n).2 (.setter w.setters.next) o n where
  backdrop := rfl
  objects := rfl
  locator := rfl
  dispatchers := rfl
  setters r c e := (Store.get?_alloc_of_ne _ (Store.ne_next_of_get? e)).trans e
  newSetters r c e := by
    simp only [newSetter, Store.get?_alloc] at e
    split at e
    next new =>
      cases e
      exact .inr ⟨new ▸ Store.get?_next _, rfl, rfl, rfl, rfl⟩
    · exact .inl e
  subscriptions := rfl
  nextToken := rfl
  fresh := by simp [place?]
  place? l' := by
    cases l' <;> simp only [place?, newSetter, Store.get?_alloc] <;> grind
  audience l' := by
    cases l' <;> simp only [audience, newSetter, Store.get?_alloc]
    split
    next e => simp [e, Listeners.empty]
    · rfl
  successor? _ := rfl
  movedTo? _ _ := rfl
  propertyHome _ _ e' := .inl e'
  placeholderHome _ _ e' := .inl e'

/-- A cached leaf is found, or made by `make`. -/
theorem cachedProperty_spec (h : w.Located) (live : w.objects.contains o = true)
    (cached : w.isDispatched o = false) (make : World η → Leaf × World η)
    (made : w.Makes (make w).2 (make w).1 o n) (unresolved : w.successor? (make w).1 = none)
    (fits : w.Fits o (make w).1) :
    w.Grows (w.cachedProperty o n make).2 ∧ (w.cachedProperty o n make).2.Located ∧
      (w.cachedProperty o n make).2.leafAt? o n = some (w.cachedProperty o n make).1 := by
  have at' : w.leafAt? o n = Entries.get? (o, n) w.locator.properties := by simp [leafAt?, cached]
  unfold cachedProperty
  cases e : Entries.get? (o, n) w.locator.properties with
  | some l => exact ⟨.refl w, h, at'.trans e⟩
  | none =>
    rw [e] at at'
    have located := h.withCached live cached made at' unresolved fits
    have grown := made.grows_withCached cached at'
    have handed : ((make w).2.withCached o n (make w).1).leafAt? o n = some (make w).1 := by
      rw [leafAt?_withCached made cached, if_pos ⟨rfl, rfl⟩]
    obtain ⟨grown', located'⟩ := grown.afterCreation located
    obtain ⟨size, e'⟩ := located.afterCreation
    refine ⟨grown', located', ?_⟩
    change ((make w).2.withCached o n (make w).1).afterCreation.leafAt? o n = _
    rw [e']
    exact handed

/-- **The contract of the locator.**  It hands out the leaf at a property of an object, and changes
nothing but its own caches. -/
theorem objectObserver_spec (h : w.Wired) (live : w.objects.contains o = true) (n : String) :
    w.Grows (w.objectObserver o n).2 ∧ (w.objectObserver o n).2.Wired ∧
      (w.objectObserver o n).2.leafAt? o n = some (w.objectObserver o n).1 := by
  have spec : w.Grows (w.objectObserver o n).2 ∧ (w.objectObserver o n).2.Located ∧
      (w.objectObserver o n).2.leafAt? o n = some (w.objectObserver o n).1 := by
    unfold objectObserver
    cases frozen : w.isFrozen o with
    | true =>
      exact cachedProperty_spec h.toLocated live (by simp [World.isDispatched, frozen])
        (fun w => (.poll (w.newPoll o n).1, (w.newPoll o n).2)) (makes_poll w o n) rfl frozen
    | false =>
      cases strategy : w.config.strategy with
      | setter =>
        exact cachedProperty_spec h.toLocated live (by simp [World.isDispatched, strategy])
          (fun w => (.setter (w.newSetter o n).1, (w.newSetter o n).2)) (makes_setter w o n) rfl
          ⟨frozen, strategy⟩
      | changeRecords =>
        have dispatched : w.isDispatched o = true := by
          simp [World.isDispatched, frozen, strategy]
        obtain ⟨grown, located, e⟩ := objectDispatcher_spec h.toLocated live dispatched
        obtain ⟨c, e', rfl⟩ := located.dispatcher o _ e
        obtain ⟨grown', located', at'⟩ := dispatcherObserver_spec located e' n
        exact ⟨grown.trans grown', located', at'⟩
  exact ⟨spec.1, spec.1.wired h spec.2.1, spec.2.2⟩

end

end World

end ViewBinding
