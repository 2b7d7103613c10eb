import ViewBinding.Proofs.Composite.Connect

/-!
# Composite — parts that subscribe and let go, and a pass over them

Subscribing a part to a direct leaf enters one registration (`enlist`) and makes the leaf attentive,
which is steady (`subscribeLeaf_eq`).  So there is one registration more, and its subscription is
loose (`Accounted.subscribes`).  Disposing a loose subscription takes one registration back, and
leaves composites alone (`Accounted.drop`).

A pass over the parts of a composite subscribes to those that its value demands and ends the
subscriptions with the others.  It calls nobody back: a part that is not connected yet is plain, and
subscribing to a direct leaf tells no one.  So a pass does not fail, and the composite has the
followers that it had (`Passing`); what the pass subscribes to is kept by a part of a composite that
is followed (`proceeds_reconnect`).
-/

namespace ViewBinding

namespace World

variable {η : Type} {w w' : World η} {P : Ref .object → String → Prop} {l : Leaf} {t : Token}
  {c : Ref .composite} {i : Nat} {part : Part} {s : Ref .subscription}
  {loose : List (Ref .subscription)}

/-! ### One registration more -/

/-- A world with one registration more at a direct leaf. -/
def enlist (w : World η) (l : Leaf) (t : Token) (subscriber : Subscriber) : World η :=
  match l with
  | .setter r => w.modifySetter r fun cell =>
      { cell with callbacks := cell.callbacks.add t subscriber }
  | .property r => w.modifyProperty r fun cell =>
      { cell with callbacks := cell.callbacks.add t subscriber }
  | .poll r => w.modifyPoll r fun cell =>
      { cell with callbacks := cell.callbacks.add t subscriber }
  | _ => w

theorem audience_enlist (rooted : w.Rooted l) (subscriber : Subscriber) (l' : Leaf) :
    (w.enlist l t subscriber).audience l' =
      if l' = l then w.audience l ++ [(t, subscriber)] else w.audience l' := by
  obtain ⟨direct, place⟩ := rooted
  cases l with
  | setter r =>
    obtain ⟨cell, get⟩ : ∃ cell, w.setters.get? r = some cell :=
      Option.ne_none_iff_exists'.1 fun none => place (by simp [place?, none])
    cases l' with
    | setter r' =>
      simp only [audience, enlist, modifySetter, Store.get?_modify, Leaf.setter.injEq]
      split
      next same => simp [get, Listeners.add]
      · rfl
    | _ => rfl
  | property r =>
    obtain ⟨cell, get⟩ : ∃ cell, w.properties.get? r = some cell :=
      Option.ne_none_iff_exists'.1 fun none => place (by simp [place?, none])
    cases l' with
    | property r' =>
      simp only [audience, enlist, modifyProperty, Store.get?_modify, Leaf.property.injEq]
      split
      next same => simp [get, Listeners.add]
      · rfl
    | _ => rfl
  | poll r =>
    obtain ⟨cell, get⟩ : ∃ cell, w.polls.get? r = some cell :=
      Option.ne_none_iff_exists'.1 fun none => place (by simp [place?, none])
    cases l' with
    | poll r' =>
      simp only [audience, enlist, modifyPoll, Store.get?_modify, Leaf.poll.injEq]
      split
      next same => simp [get, Listeners.add]
      · rfl
    | _ => rfl
  | _ => exact direct.elim

theorem place?_enlist (w : World η) (l : Leaf) (t : Token) (subscriber : Subscriber) (l' : Leaf) :
    (w.enlist l t subscriber).place? l' = w.place? l' := by
  cases l <;> cases l' <;> first | rfl | exact Store.map_get?_modify _ _ _ fun _ => rfl

theorem settings_enlist (w : World η) (l : Leaf) (t : Token) (subscriber : Subscriber) :
    w.Settings P (w.enlist l t subscriber) := by
  refine ⟨?_, ?_, fun d => ?_, fun l' => (place?_enlist w l t subscriber l').symm ▸ id,
    fun o n _ => ?_⟩
  all_goals cases l <;> first | rfl | exact id

/-! ### Becoming attentive -/

theorem steady_installTrap (w : World η) (r : Ref .setter) : w.Steady P (w.installTrap r) := by
  unfold installTrap
  split
  · exact .refl w
  next cell _ =>
    split
    · have defined : w.Steady P (w.defineSlot cell.object cell.property (.trap r)).2 := by
        unfold defineSlot
        split
        · exact .refl w
        · exact steady_putSlot w _ _ _
      exact defined.trans (steady_modifySetter _ r (fun _ => rfl) fun _ => rfl)
    · exact .refl w

theorem steady_freshToken (w : World η) : w.Steady P w.freshToken.2 :=
  .of_settings (fun _ => rfl) (fun _ => rfl) (fun l => by cases l <;> rfl) (fun _ => rfl)
    (Nat.le_succ _) ⟨rfl, rfl, fun _ => rfl, fun l => by cases l <;> exact id, fun _ _ _ => id⟩

theorem steady_startObserving (w : World η) (d : Ref .dispatcher) :
    w.Steady P (w.startObserving d) := by
  unfold startObserving
  split
  · exact .refl w
  next cell _ =>
    split
    · exact .refl w
    · have listens : w.Steady P (w.listenRecords cell.object (.dispatcher d)).2 :=
        (steady_freshToken w).trans (steady_modifyObject _ _ fun _ => rfl)
      refine listens.trans (.of_settings (fun _ => rfl) (fun _ => rfl) (fun l => ?_) (fun _ => rfl)
        (Nat.le_refl _) ⟨rfl, rfl, fun d => Store.map_get?_modify _ _ _ fun _ => rfl, fun l => ?_,
          fun _ _ _ => id⟩)
      · cases l <;> rfl
      · cases l <;> exact id

/-- What a polling observer saw last is not in the account. -/
theorem steady_modifyPoll (w : World η) (r : Ref .poll) {f : PollCell → PollCell}
    (object : ∀ c, ((f c).object, (f c).property) = (c.object, c.property))
    (callbacks : ∀ c, (f c).callbacks.entries = c.callbacks.entries) :
    w.Steady P (w.modifyPoll r f) := by
  refine .of_settings (fun _ => rfl) (fun _ => rfl) (fun l => ?_) (fun _ => rfl) (Nat.le_refl _)
    ⟨rfl, rfl, fun _ => rfl, fun l => ?_, fun _ _ _ => id⟩
  · cases l with
    | poll r' => exact congrArg (Option.getD · []) (Store.map_get?_modify _ _ _ callbacks)
    | _ => rfl
  · cases l with
    | poll r' =>
      have same := Store.map_get?_modify (g := fun c => (c.object, c.property)) w.polls r r' object
      exact fun there gone => there (same.symm.trans gone)
    | _ => exact id

theorem steady_schedulePolling (w : World η) : w.Steady P w.schedulePolling := by
  unfold schedulePolling
  split
  · exact .refl w
  · exact .of_registry rfl fun _ _ _ => id

theorem steady_track (w : World η) (r : Ref .poll) : w.Steady P (w.track r) := by
  have tracked : w.Steady P { w with
      polling := { w.polling with tracked := w.polling.tracked ++ [r] } } :=
    .of_registry rfl fun _ _ _ => id
  exact tracked.trans (steady_schedulePolling _)

/-- **Subscribing to a direct leaf** enters one registration, and is steady after that but for the
subscription. -/
theorem subscribeLeaf_eq (w : World η) (direct : l.IsDirect) (subscriber : Subscriber) :
    ∃ w₂ : World η, (w.freshToken.2.enlist l ⟨w.nextToken⟩ subscriber).Steady P w₂ ∧
      Run.subscribeLeaf l subscriber w =
        (.ok w₂.subscriptions.next, (w₂.callbackSubscription (.leaf l) ⟨w.nextToken⟩).2) := by
  cases l with
  | setter r =>
    refine ⟨_, ?_, rfl⟩
    split
    · split
      · exact .refl _
      · exact steady_installTrap _ r
    · exact .refl _
  | property r =>
    refine ⟨_, ?_, rfl⟩
    split
    · exact steady_startObserving _ _
    · exact .refl _
  | poll r =>
    refine ⟨_, ?_, rfl⟩
    split
    · refine Steady.trans ?_ (steady_track _ r)
      exact steady_modifyPoll _ r (fun _ => rfl) fun _ => rfl
    · exact .refl _
  | _ => exact direct.elim

theorem registers_enlist (rooted : w.Rooted l) {w₂ : World η}
    (steady : (w.freshToken.2.enlist l ⟨w.nextToken⟩ (.part c)).Steady P w₂) :
    w.Registers (w₂.callbackSubscription (.leaf l) ⟨w.nextToken⟩).2 w₂.subscriptions.next l c
      ⟨w.nextToken⟩ := by
  have place := (steady_freshToken (P := P) w).rooted rooted
  have outline : ∀ c', w₂.outline c' = w.outline c' := fun c' =>
    (steady.outline c').trans (by cases l <;> rfl)
  have voices : ∀ s, w₂.directVoice? s = w.directVoice? s := fun s =>
    (steady.directVoice? s).trans (by cases l <;> rfl)
  have token : w.nextToken < w₂.nextToken :=
    Nat.lt_of_lt_of_le (Nat.lt_succ_self _)
      (Nat.le_trans (by cases l <;> exact Nat.le_refl _) steady.nextToken)
  refine
    { part? := fun c' i => ?_, followersOf := fun c' => ?_, new := ?_, directVoice? := fun s => ?_
      audience := fun l' => ?_, place? := fun l' there => ?_, collectors := fun c' => ?_
      drawn := Nat.le_refl _, token := token }
  · rw [part?_eq, part?_eq, ← outline]
    rfl
  · rw [followersOf_eq, followersOf_eq, ← outline]
    rfl
  · rw [← voices]
    simp [World.directVoice?, disposal?]
  · rw [← voices]
    simp only [World.directVoice?, disposal?, callbackSubscription, newSubscription, Store.get?_alloc]
    by_cases same : s = w₂.subscriptions.next <;> simp only [same, if_true, if_false]
    rfl
  · have entered := (steady.audience l').trans (audience_enlist place (.part c) l')
    have before : ∀ l, w.freshToken.2.audience l = w.audience l :=
      (steady_freshToken (P := P) w).audience
    rw [before, before] at entered
    rw [← entered]
    cases l' <;> rfl
  · have there' := steady.place? l' ((place?_enlist _ l _ _ l').symm ▸
      (steady_freshToken (P := P) w).place? l' there)
    cases l' <;> exact there'
  · exact (steady.collectors c').trans (by cases l <;> rfl)

theorem Accounted.registers (A : w.Accounted P loose) (rooted : w.Rooted l)
    (h : w.Registers w' s l c t) (furnished : w.Furnished P → w'.Furnished P)
    (scopes : ∀ c, w'.scopeOf? c = w.scopeOf? c) : w'.Accounted P (s :: loose) where
  furnished := furnished A.furnished
  plain c i part scope is unconnected at' :=
    A.plain c i part scope (h.part? c i ▸ is) unconnected (scopes c ▸ at')
  accounts := A.accounts.registers h rooted

/-- **A part subscribes to a direct leaf**: there is one registration more, and its subscription is
loose. -/
theorem Accounted.subscribes (A : w.Accounted P loose) (rooted : w.Rooted l) (c : Ref .composite) :
    ∃ s w' t, Run.subscribeLeaf l (.part c) w = (.ok s, w') ∧ w.Registers w' s l c t ∧
      w'.Accounted P (s :: loose) := by
  obtain ⟨w₂, steady, ran⟩ := subscribeLeaf_eq (P := P) w rooted.1 (.part c)
  have registers := registers_enlist rooted steady
  refine ⟨_, _, _, ran, registers, A.registers rooted registers (fun F => ?_) fun c' => ?_⟩
  · have F₂ := steady.furnished (((steady_freshToken w).furnished F).settings
      (settings_enlist _ l _ _))
    exact F₂.settings ⟨rfl, rfl, fun _ => rfl, fun l => by cases l <;> exact id, fun _ _ _ => id⟩
  · have same := steady.scopeOf? c'
    refine Eq.trans (b := w₂.scopeOf? c') rfl (same.trans ?_)
    cases l <;> rfl

/-! ### One registration less -/

/-- **A loose subscription is disposed.**  Composites are left alone. -/
theorem Accounted.drop (A : w.Accounted P (s :: loose)) (depth : Nat) :
    (disposeWithin (depth + 1) s w).Accounted P loose ∧
      (disposeWithin (depth + 1) s w).composites = w.composites := by
  have dropped := A.accounts.drop depth
  obtain ⟨l, t, voice, direct, place⟩ := A.accounts.leafy s List.mem_cons_self
  obtain ⟨quits, rests⟩ := quits_withoutCallback (s := s) (t := t) (.inl place)
  rw [disposeWithin_succ depth voice, undoCallback_fst_of_isDirect _ _ direct,
    List.foldl_nil] at dropped ⊢
  change (w.withoutCallback s l t).Accounts loose at dropped
  change (w.withoutCallback s l t).Accounted P loose ∧ (w.withoutCallback s l t).composites = _
  generalize w.withoutCallback s l t = w' at quits rests dropped ⊢
  have composites : w'.composites = w.composites := congrArg Backdrop.composites rests.backdrop
  refine ⟨⟨?_, fun c i part scope is unconnected at' => ?_, dropped⟩, composites⟩
  · refine A.furnished.settings ⟨?_, ?_, fun d => ?_, fun l => (quits.place? l).symm ▸ id,
      fun o n _ has => (rests.has o n).trans has⟩
    · rw [quits.locator]
    · rw [quits.locator]
    · exact quits.dispatchers d
  · rw [World.part?, composites] at is
    rw [scopeOf?, composites] at at'
    exact A.plain c i part scope is unconnected at'

/-- Several loose subscriptions are disposed. -/
theorem Accounted.dropAll (depth : Nat) :
    ∀ (more : List (Ref .subscription)) {w : World η}, w.Accounted P (more ++ loose) →
      (more.foldl (fun w s => disposeWithin (depth + 1) s w) w).Accounted P loose
  | [], _, A => A
  | _ :: more, _, A => Accounted.dropAll depth more (A.drop depth).1

theorem Accounted.dispose (A : w.Accounted P (s :: loose)) :
    (w.dispose s).Accounted P loose ∧ (w.dispose s).composites = w.composites := by
  obtain ⟨l, t, voice, -⟩ := A.accounts.leafy s List.mem_cons_self
  have room := index_lt_size_of_disposal? (disposal?_of_directVoice? voice)
  obtain ⟨depth, size⟩ : ∃ depth, w.subscriptions.size = depth + 1 :=
    ⟨w.subscriptions.size - 1, by omega⟩
  rw [World.dispose, size]
  exact A.drop depth

theorem Accounted.disposeOption {held : Option (Ref .subscription)}
    (A : w.Accounted P (held.toList ++ loose)) : (w.disposeOption held).Accounted P loose ∧
      (w.disposeOption held).composites = w.composites := by
  cases held with
  | none => exact ⟨A, rfl⟩
  | some s => exact A.dispose

/-! ### What a part keeps -/

theorem scopeOf?_modifyPart (w : World η) (c c' : Ref .composite) (i : Nat) (f : Part → Part) :
    (w.modifyPart c i f).scopeOf? c' = w.scopeOf? c' :=
  scopeOf?_modifyComposite w c c' fun _ => rfl

/-- What holds after a change of a part that leaves its expression alone, and does not forget what
connecting it gave. -/
theorem Accounted.modifyPart {loose' : List (Ref .subscription)} (A : w.Accounted P loose)
    {f : Part → Part} (expression : ∀ part, (f part).expression = part.expression)
    (info : ∀ part, (f part).info = none → part.info = none)
    (accounts : (w.modifyPart c i f).Accounts loose') : (w.modifyPart c i f).Accounted P loose' where
  furnished := A.furnished.settings
    ⟨rfl, rfl, fun _ => rfl, fun l => by cases l <;> exact id, fun _ _ _ => id⟩
  plain c' i' part scope is unconnected at' := by
    rw [scopeOf?_modifyPart] at at'
    rw [part?_modifyPart] at is
    split at is
    next same =>
      obtain ⟨part₀, is₀, rfl⟩ := Option.map_eq_some_iff.1 is
      obtain ⟨rfl, rfl⟩ := same
      exact expression part₀ ▸ A.plain c' i' part₀ scope is₀ (info part₀ unconnected) at'
    · exact A.plain c' i' part scope is unconnected at'
  accounts := accounts

end World

/-! ### A pass over the parts -/

namespace World

variable {η : Type} {w w' : World η} {P : Ref .object → String → Prop} {c : Ref .composite}
  {on : Bool}

/-- In the middle of a pass: a composite that subscribes to its parts has followers. -/
structure Passing (P : Ref .object → String → Prop) (w : World η) (c : Ref .composite) (on : Bool) :
    Prop where
  accounted : w.Accounted P []
  followed : on = true → w.followersOf c ≠ []

theorem Passing.steady (pass : w.Passing P c on) (h : w.Steady P w') : w'.Passing P c on :=
  ⟨pass.accounted.steady h, fun yes => h.followersOf c ▸ pass.followed yes⟩

end World

namespace Run

open World

variable {η α β : Type} {w : World η} {fin : World η → Prop}

/-! ### Computations that do not fail -/

/-- From `w` the computation gives a result and a world that satisfy `post`, or it is cut off in a
world that satisfies `fin`.  It does not fail. -/
def Proceeds (x : Run η α) (w : World η) (post : α → World η → Prop) (fin : World η → Prop) : Prop :=
  match x w with
  | (.ok a, w') => post a w'
  | (.exhausted, w') => fin w'
  | _ => False

theorem Proceeds.mono {x : Run η α} {post post' : α → World η → Prop} (h : x.Proceeds w post fin)
    (weaker : ∀ a w', post a w' → post' a w') : x.Proceeds w post' fin := by
  unfold Proceeds at *
  rcases e : x w with ⟨_ | _ | _ | _, w'⟩ <;> rw [e] at h
  · exact weaker _ _ h
  · exact h
  · exact h
  · exact h

theorem Proceeds.meets {x : Run η α} {post : α → World η → Prop} (h : x.Proceeds w post fin) :
    x.Meets w post fin := by
  unfold Proceeds at h
  unfold Meets
  rcases e : x w with ⟨_ | _ | _ | _, w'⟩ <;> rw [e] at h
  · exact h
  · exact h.elim
  · exact h.elim
  · exact h

/-- What does not fail is attempted with success. -/
theorem Proceeds.attempt {x : Run η α} {post : Except BindingError α → World η → Prop}
    (h : x.Proceeds w (fun a w' => post (.ok a) w') fin) : x.attempt.Proceeds w post fin := by
  unfold Proceeds Run.attempt at *
  rcases e : x w with ⟨_ | _ | _ | _, w'⟩ <;> rw [e] at h
  · exact h
  · exact False.elim h
  · exact h
  · exact h

theorem proceeds_of_eq_ok {x : Run η α} {post : α → World η → Prop} {a : α} {w' : World η}
    (e : x w = (.ok a, w')) : x.Proceeds w post fin ↔ post a w' := by
  unfold Proceeds
  rw [e]

@[simp] theorem proceeds_read {f : World η → α} {post : α → World η → Prop} :
    (read f).Proceeds w post fin ↔ post (f w) w := Iff.rfl

@[simp] theorem proceeds_bind {x : Run η α} {f : α → Run η β} {post : β → World η → Prop} :
    (x >>= f).Proceeds w post fin ↔ x.Proceeds w (fun a w' => (f a).Proceeds w' post fin) fin := by
  change (Run.bind x f).Proceeds w post fin ↔ _
  unfold Proceeds Run.bind
  rcases x w with ⟨_ | _ | _ | _, w'⟩ <;> rfl

/-- A loop keeps what every turn keeps. -/
theorem proceeds_forEach {f : α → Run η Unit} {inv : World η → Prop}
    (turn : ∀ a w, inv w → (f a).Proceeds w (fun _ w' => inv w') fin) :
    ∀ (items : List α) {w : World η}, inv w → (forEach items f).Proceeds w (fun _ w' => inv w') fin
  | [], _, h => h
  | a :: rest, w, h =>
    proceeds_bind.2 ((turn a w h).mono fun _ _ h' => proceeds_forEach turn rest h')

/-! ### One part -/

variable {P : Ref .object → String → Prop} {c : Ref .composite} {i : Nat} {part : Part} {on : Bool}
  {l : Leaf} {env : Env η}

theorem connectFor_plain {cell : CompositeCell} {e : Expr} (F : w.Furnished P)
    (plain : e.IsPlain P cell.scope) (env : Env η) : ∃ info w',
      connectFor env cell e w = (.ok info, w') ∧ w.Steady P w' ∧ w'.Admits info := by
  rw [connectFor, bind_read]
  split
  · exact F.connectPlain plain env cell.provider
  · exact ⟨_, w, rfl, .refl w, fun _ none => by cases none⟩

/-- What connecting the part gave, or gives now. -/
theorem proceeds_partInfo (pass : w.Passing P c on) (is : w.part? c i = some part) (env : Env η) :
    (partInfo env c i part).Proceeds w (fun info w' => w'.Passing P c on ∧
      ∃ part', w'.part? c i = some part' ∧ part'.info = some info ∧
        part'.subscription = part.subscription) fin := by
  unfold partInfo
  split
  next info some => exact ⟨pass, part, is, some, rfl⟩
  next unconnected =>
    obtain ⟨cell, get⟩ : ∃ cell, w.composites.get? c = some cell := by
      cases get : w.composites.get? c with
      | none => simp [World.part?, get] at is
      | some cell => exact ⟨cell, rfl⟩
    rw [proceeds_bind, proceeds_read, get]
    have A := pass.accounted
    obtain ⟨info, w₁, ran, steady, admits⟩ := connectFor_plain A.furnished
      (A.plain c i part cell.scope is unconnected (by rw [scopeOf?, get]; rfl)) env
    refine proceeds_bind.2 ((proceeds_of_eq_ok ran).2 ?_)
    have is₁ : w₁.part? c i = some part := (steady.part? c i).trans is
    have A₁ := A.steady steady
    refine ⟨⟨A₁.modifyPart (fun _ => rfl) (fun _ none => by cases none)
      (A₁.accounts.connects is₁ unconnected admits), fun yes => ?_⟩, ?_⟩
    · rw [followersOf_modifyPart, steady.followersOf]
      exact pass.followed yes
    · refine ⟨{ part with info := some info }, ?_, rfl, rfl⟩
      rw [part?_modifyPart, if_pos ⟨rfl, rfl⟩, is₁, Option.map_some]

/-- **A part subscribes** and keeps the subscription. -/
theorem proceeds_followPart (E : env.Honest P) (pass : w.Passing P c true)
    (is : w.part? c i = some part) (unsubscribed : part.subscription = none)
    (watches : part.Watches l) : (followPart env c i (.leaf l)).Proceeds w
      (fun _ w' => w'.Passing P c true) (·.Accounted P []) := by
  have A := pass.accounted
  rw [followPart, proceeds_bind]
  rcases E.leaf l (.part c) w with ran | ran
  · obtain ⟨s, w', t, ran', registers, A'⟩ := A.subscribes (A.accounts.rooted is watches) c
    rw [proceeds_of_eq_ok (ran.trans ran'), proceeds_bind, proceeds_read, registers.part?, is]
    have followed : w'.followersOf c ≠ [] := registers.followersOf c ▸ pass.followed rfl
    have kept := A'.accounts.keep ((registers.part? c i).trans is) unsubscribed watches
      registers.directVoice?_self (registers.mem_audience.2 (.inr ⟨rfl, rfl⟩)) followed
    obtain ⟨e, condition, info, held⟩ := part
    cases unsubscribed
    refine ⟨A'.modifyPart (fun _ => rfl) (fun _ none => none) kept, fun _ => ?_⟩
    rw [followersOf_modifyPart]
    exact followed
  · unfold Proceeds
    rw [ran]
    exact A

/-- **One part of a pass.** -/
theorem proceeds_reconnectPart (E : env.Honest P) (pass : w.Passing P c on)
    (primary : Option Value) (i : Nat) : (reconnectPart env c on primary i).Proceeds w
      (fun _ w' => w'.Passing P c on) (·.Accounted P []) := by
  rw [reconnectPart, proceeds_bind, proceeds_read]
  cases is : w.part? c i with
  | none => exact pass
  | some part =>
    dsimp only
    split
    next demanded =>
      obtain ⟨yes, -⟩ := Bool.and_eq_true_iff.1 demanded
      subst yes
      refine proceeds_bind.2 ((proceeds_partInfo pass is env).mono fun info w' h => ?_)
      obtain ⟨pass', part', is', some, same⟩ := h
      split
      next observer unsubscribed watched =>
        obtain ⟨l, rfl, -⟩ := pass'.accounted.accounts.fits c i part' info is' some observer watched
        exact proceeds_followPart E pass' is' (same.trans unsubscribed) ⟨info, some, watched⟩
      · exact pass'
    · have A := pass.accounted
      have loosened := A.modifyPart (f := fun part => { part with subscription := none })
        (fun _ => rfl) (fun _ none => none) (A.accounts.letGo is)
      obtain ⟨A', composites⟩ := loosened.disposeOption
      refine ⟨A', fun yes => ?_⟩
      have same : ∀ {w w' : World η}, w'.composites = w.composites →
          w'.followersOf c = w.followersOf c := fun composites => by
        simp only [followersOf, composites]
      rw [same composites, followersOf_modifyPart]
      exact pass.followed yes

/-- **A pass** over the parts of a composite does not fail, and keeps the account wherever it is cut
off. -/
theorem proceeds_reconnect (E : env.Honest P) (pass : w.Passing P c on) :
    (reconnect env c on).Proceeds w (fun _ w' => w'.Passing P c on) (·.Accounted P []) := by
  rw [reconnect, proceeds_bind, proceeds_read, proceeds_bind, proceeds_read]
  exact proceeds_forEach (fun i _ pass => proceeds_reconnectPart E pass _ i) _ pass

end Run

end ViewBinding
