import ViewBinding.Proofs.Leaf.Listen

/-!
# Leaf — subscribing to a leaf

`w.Joins w' l t sub` says of the worlds before and after a subscription with a leaf that they differ
by one registration at the leaf and by what the leaf does to become attentive.

`subscribeLeaf_spec` is the contract of all leaves of object properties: the subscriber is enrolled
with the property, everybody else stays enrolled as before, the newest last, and no value changes.
-/

namespace ViewBinding

namespace World

variable {η : Type} {w w' w'' : World η}

/-- Two subscriptions are registered at one leaf, the first one earlier. -/
def Before (w : World η) (s s' : Ref .subscription) : Prop :=
  ∃ l t t' sub sub', w.voice? s = some (l, t) ∧ w.voice? s' = some (l, t') ∧
    (t, sub) ∈ w.audience l ∧ (t', sub') ∈ w.audience l ∧ t.index < t'.index

/-- `w'` has one registration more than `w`, at a leaf that is attentive. -/
structure Joins (w w' : World η) (l : Leaf) (t : Token) (sub : Subscriber) : Prop where
  tuned : ∃ w₁, w.Tunes w₁ ∧ w₁.Enrols w' l t sub
  drawn : w.nextToken ≤ t.index
  wired : w'.Wired
  still : w.Still w'
  has : ∀ o n, w.has o n = true → w'.has o n = true
  hadOr : ∀ o n, w'.has o n = true →
    w.has o n = true ∨ w.config.strategy = .setter ∧ w.leafAt? o n = some l

/-! ### Properties -/

/-- A world with a registration at a property observer. -/
def withCallback (w : World η) (p : Ref .property) (t : Token) (sub : Subscriber) : World η :=
  { w.modifyProperty p fun cell => { cell with callbacks := cell.callbacks.add t sub } with
    subscriptions := w.subscriptions.alloc ⟨some (.callback (.leaf (.property p)) t)⟩ }

section
variable {p : Ref .property} {c : PropertyCell} {t : Token} {sub : Subscriber}
  {o : Ref .object} {n : String}

theorem enrols_withCallback (e : w.properties.get? p = some c)
    (issued : ∀ s ob t', w.disposal? s = some (.callback ob t') → t'.index < t.index)
    (heard : ∀ l' t' sub', (t', sub') ∈ w.audience l' → t'.index < t.index)
    (token : t.index < w.nextToken) : w.Enrols (w.withCallback p t sub) (.property p) t sub where
  config := rfl
  elements _ := rfl
  arrays := rfl
  locator := rfl
  contains _ := rfl
  isFrozen _ := rfl
  dispatchers _ := rfl
  properties _ := Store.map_get?_modify _ _ _ fun _ => rfl
  placeholders _ := rfl
  place? l := by
    cases l with
    | property r => exact Store.map_get?_modify _ _ _ fun _ => rfl
    | _ => rfl
  successor? _ := rfl
  audience l := by
    cases l with
    | property r =>
        simp only [audience, withCallback, modifyProperty, Store.get?_modify, Leaf.property.injEq]
        split
        next same => simp [e, Listeners.add]
        · rfl
    | _ => rfl
  movedTo? _ _ := rfl
  subscriptions := rfl
  issued := issued
  heard := heard
  token := token
  nextToken := Nat.le_refl _

theorem still_withCallback (w : World η) (p : Ref .property) (t : Token) (sub : Subscriber) :
    w.Still (w.withCallback p t sub) :=
  .of_eq rfl rfl rfl

theorem attentive_withCallback (a : w.Attentive) (enrols :
      w.Enrols (w.withCallback p t sub) (.property p) t sub)
    (listening : ∀ o n, w.leafAt? o n = some (.property p) →
      ∃ d dc, w.dispatchers.get? d = some dc ∧ dc.object = o ∧ dc.listener ≠ none) :
    (w.withCallback p t sub).Attentive := by
  refine ⟨a.listener, a.listens, ?_, a.trapping, a.willing, a.trap, a.scheduled, a.pending, a.queued,
    a.tasks, a.known⟩
  intro o n l at' some dispatched
  rw [enrols.leafAt?] at at'
  rw [enrols.isDispatched] at dispatched
  obtain ⟨q, m⟩ := List.exists_mem_of_ne_nil _ some
  rcases enrols.mem_audience.1 m with m | ⟨rfl, -⟩
  · exact a.hearing o n l at' (List.ne_nil_of_mem m) dispatched
  · exact listening o n at'

/-- The cell of the property observer at a property, with its dispatcher. -/
theorem Located.property (h : w.Located) (at' : w.leafAt? o n = some (.property p)) :
    ∃ c dc, w.properties.get? p = some c ∧ c.object = o ∧ c.property = n ∧
      w.dispatchers.get? c.dispatcher = some dc ∧ dc.object = o ∧
      w.objects.contains o = true := by
  obtain ⟨place, -, -⟩ := h.current o n _ at'
  simp only [place?, Option.map_eq_some_iff, Prod.mk.injEq] at place
  obtain ⟨c, e, rfl, rfl⟩ := place
  have home := h.propertyHome p c e
  obtain ⟨dc, e', eo⟩ := h.dispatcher _ _ home
  exact ⟨c, dc, e, rfl, rfl, e', eo, h.liveDispatchers _ (Entries.mem_of_get? home)⟩

theorem subscribeProperty_spec (h : w.Wired) (at' : w.leafAt? o n = some (.property p))
    (sub : Subscriber) : (w.subscribeProperty p sub).1 = w.subscriptions.next ∧
      (w.subscribeProperty p sub).2.placeholders = w.placeholders ∧
      w.Joins (w.subscribeProperty p sub).2 (.property p) ⟨w.nextToken⟩ sub := by
  obtain ⟨c, dc, e, rfl, rfl, e', eo, live⟩ := h.toLocated.property at'
  -- the token is drawn first, and the callback is added before the dispatcher starts to listen
  have drawn := tunes_drawToken w
  have wiredDrawn := h.drawToken
  obtain ⟨tunes, still, wired₁, dc', e₁, eo₁, listening⟩ :=
    startObserving_spec (d := c.dispatcher) (w := w.drawToken) wiredDrawn e' (eo ▸ live)
  have result : w.subscribeProperty p sub =
      (w.subscriptions.next,
        (w.drawToken.startObserving c.dispatcher).withCallback p ⟨w.nextToken⟩ sub) := by
    have live' : w.objects.contains dc.object = true := eo ▸ live
    simp only [subscribeProperty, freshToken, modifyProperty, Store.get?_modify_self, e,
      Option.map_some, startObserving, World.drawToken, e', live', Bool.not_true, Bool.or_false]
    split <;> rfl
  have callbackCell : (w.drawToken.startObserving c.dispatcher).properties.get? p = some c := by
    have live' : w.objects.contains dc.object = true := eo ▸ live
    rw [startObserving_eq (w := w.drawToken) e' live']
    split <;> exact e
  have tunes₁ := drawn.trans tunes
  have enrols : (w.drawToken.startObserving c.dispatcher).Enrols
      ((w.drawToken.startObserving c.dispatcher).withCallback p ⟨w.nextToken⟩ sub) (.property p)
      ⟨w.nextToken⟩ sub := by
    refine enrols_withCallback callbackCell (fun s ob t' e => ?_) (fun l' t' sub' m => ?_) ?_
    · exact h.issued s ob t' (tunes₁.disposal? s ▸ e)
    · exact h.heard l' t' sub' (tunes₁.audience l' ▸ m)
    · exact tunes.nextToken
  have attentive := attentive_withCallback wired₁.toAttentive enrols fun o n at' => by
    obtain ⟨place, -, -⟩ := wired₁.current o n _ at'
    simp only [place?, callbackCell, Option.map_some, Option.some.injEq, Prod.mk.injEq] at place
    exact ⟨_, dc', e₁, eo₁.trans (eo.trans place.1), listening⟩
  have has : ∀ o n, ((w.drawToken.startObserving c.dispatcher).withCallback p ⟨w.nextToken⟩
      sub).has o n = w.has o n := fun o n => (has_startObserving w.drawToken c.dispatcher o n)
  rw [result]
  refine ⟨rfl, ?_, ⟨_, tunes₁, enrols⟩, Nat.le_refl _, ⟨enrols.located wired₁.toLocated,
    enrols.registered wired₁.toLocated wired₁.toRegistered, attentive⟩, ?_,
    fun o n e => (has o n).trans e, fun o n e => .inl ((has o n).symm.trans e)⟩
  · have live' : w.objects.contains dc.object = true := eo ▸ live
    rw [startObserving_eq (w := w.drawToken) e' live']
    split <;> rfl
  · have first : w.Still w.drawToken := .of_eq rfl rfl rfl
    exact (first.trans still).trans (still_withCallback _ _ _ _)

end

/-! ### Traps -/

/-- A world with a registration at a trapping observer. -/
def withSetterCallback (w : World η) (r : Ref .setter) (t : Token) (sub : Subscriber) : World η :=
  { w.modifySetter r fun cell => { cell with callbacks := cell.callbacks.add t sub } with
    subscriptions := w.subscriptions.alloc ⟨some (.callback (.leaf (.setter r)) t)⟩ }

section
variable {r : Ref .setter} {c : SetterCell} {t : Token} {sub : Subscriber}
  {o : Ref .object} {n : String}

theorem enrols_withSetterCallback (e : w.setters.get? r = some c)
    (issued : ∀ s ob t', w.disposal? s = some (.callback ob t') → t'.index < t.index)
    (heard : ∀ l' t' sub', (t', sub') ∈ w.audience l' → t'.index < t.index)
    (token : t.index < w.nextToken) :
    w.Enrols (w.withSetterCallback r t sub) (.setter r) t sub where
  config := rfl
  elements _ := rfl
  arrays := rfl
  locator := rfl
  contains _ := rfl
  isFrozen _ := rfl
  dispatchers _ := rfl
  properties _ := rfl
  placeholders _ := rfl
  place? l := by
    cases l with
    | setter r => exact Store.map_get?_modify _ _ _ fun _ => rfl
    | _ => rfl
  successor? _ := rfl
  audience l := by
    cases l with
    | setter r' =>
        simp only [audience, withSetterCallback, modifySetter, Store.get?_modify,
          Leaf.setter.injEq]
        split
        next same => simp [e, Listeners.add]
        · rfl
    | _ => rfl
  movedTo? _ _ := rfl
  subscriptions := rfl
  issued := issued
  heard := heard
  token := token
  nextToken := Nat.le_refl _

/-- What one sees of a trapping observer apart from who is registered with it. -/
theorem setters_withSetterCallback (e : w.setters.get? r = some c) (r' : Ref .setter) :
    (w.withSetterCallback r t sub).setters.get? r' =
      if r' = r then some { c with callbacks := c.callbacks.add t sub }
      else w.setters.get? r' := by
  simp only [withSetterCallback, modifySetter, Store.get?_modify, e, Option.map_some]

theorem still_withSetterCallback (e : w.setters.get? r = some c) :
    w.Still (w.withSetterCallback r t sub) where
  get := get_congr (fun _ _ => rfl) fun slot => by
    cases slot with
    | trap r' =>
        simp only [slotValue, setters_withSetterCallback e]
        split
        next same => simp [same, e]
        · rfl
    | _ => rfl
  contains _ := rfl
  isFrozen _ := rfl
  backdrop := rfl
  due o n := by
    refine or_congr Iff.rfl ⟨?_, ?_⟩
    · rintro ⟨r', c', e', eo, en, queued⟩
      rw [setters_withSetterCallback e] at e'
      split at e'
      next same =>
        cases e'
        exact ⟨r, c, e, eo, en, queued⟩
      · exact ⟨r', c', e', eo, en, queued⟩
    · rintro ⟨r', c', e', eo, en, queued⟩
      by_cases same : r' = r
      · subst same
        rw [e] at e'
        cases e'
        exact ⟨r', _, (setters_withSetterCallback e r').trans (if_pos rfl), eo, en, queued⟩
      · exact ⟨r', c', (setters_withSetterCallback e r').trans ((if_neg same).trans e'), eo, en,
          queued⟩
  doubled _ _ h := h

theorem attentive_withSetterCallback (a : w.Attentive) (located : w.Located)
    (e : w.setters.get? r = some c) (observing : c.observing = true)
    (enrols : w.Enrols (w.withSetterCallback r t sub) (.setter r) t sub) :
    (w.withSetterCallback r t sub).Attentive := by
  have setters : ∀ r', (w.withSetterCallback r t sub).setters.get? r' = _ :=
    setters_withSetterCallback e
  refine ⟨a.listener, a.listens, ?_, ?_, ?_, ?_, a.scheduled, a.pending, ?_, a.tasks, ?_⟩
  · intro o n l at' some dispatched
    rw [enrols.leafAt?] at at'
    rw [enrols.isDispatched] at dispatched
    obtain ⟨q, m⟩ := List.exists_mem_of_ne_nil _ some
    rcases enrols.mem_audience.1 m with m | ⟨rfl, -⟩
    · exact a.hearing o n l at' (List.ne_nil_of_mem m) dispatched
    · obtain ⟨-, strategy⟩ := (located.current o n _ at').2.2
      simp [World.isDispatched, strategy] at dispatched
  · intro r' c' e' some
    rw [setters] at e'
    split at e'
    · cases e'
      exact observing
    · exact a.trapping r' c' e' some
  · intro r' c' e'
    rw [setters] at e'
    split at e'
    · cases e'
      exact a.willing r c e
    · exact a.willing r' c' e'
  · intro o n r'
    refine (a.trap o n r').trans ?_
    rw [setters]
    split
    next same =>
      rw [same, e]
      constructor
      · rintro ⟨c', e', rest⟩
        exact ⟨_, rfl, Option.some.inj e' ▸ rest⟩
      · rintro ⟨c', e', rest⟩
        exact ⟨c, rfl, by simpa [← Option.some.inj e'] using rest⟩
    · rfl
  · intro r' c' e'
    rw [setters] at e'
    split at e'
    next same =>
      cases e'
      exact same ▸ a.queued r c e
    · exact a.queued r' c' e'
  · intro task m
    rcases a.known task m with live | ⟨r', c', e', some⟩
    · exact .inl live
    · refine .inr ?_
      by_cases same : r' = r
      · exact ⟨r', _, e', (setters r').trans (if_pos same)⟩
      · exact ⟨r', c', e', (setters r').trans ((if_neg same).trans some)⟩

/-- The cell of the trapping observer at a property. -/
theorem Located.setter (h : w.Located) (at' : w.leafAt? o n = some (.setter r)) :
    ∃ c, w.setters.get? r = some c ∧ c.object = o ∧ c.property = n ∧ w.config.strategy = .setter ∧
      w.objects.contains o = true ∧ w.isFrozen o = false := by
  obtain ⟨place, -, unfrozen, strategy⟩ := h.current o n _ at'
  simp only [place?, Option.map_eq_some_iff, Prod.mk.injEq] at place
  obtain ⟨c, e, eo, en⟩ := place
  have cached : w.isDispatched o = false := by simp [World.isDispatched, strategy]
  simp only [leafAt?, cached, Bool.false_eq_true, if_false] at at'
  exact ⟨c, e, eo, en, strategy, h.liveProperties _ (Entries.mem_of_get? at'), unfrozen⟩

/-- Where the trap is there, or was refused, a subscription leaves it so. -/
theorem subscribeSetter_of_settled (e : w.setters.get? r = some c)
    (settled : c.observing = true ∨ c.refused = true) (sub : Subscriber) :
    w.subscribeSetter r sub =
      (w.subscriptions.next, w.drawToken.withSetterCallback r ⟨w.nextToken⟩ sub) := by
  have settled : (c.observing || c.refused) = true := by simpa using settled
  simp only [subscribeSetter, freshToken, modifySetter, Store.get?_modify_self, e, Option.map_some,
    settled, if_true]
  rfl

/-- Otherwise it installs the trap, where the object permits that. -/
theorem subscribeSetter_of_idle (e : w.setters.get? r = some c) (idle : c.observing = false)
    (willing : c.refused = false) (live : w.objects.contains c.object = true)
    (unfrozen : w.isFrozen c.object = false) (sub : Subscriber) :
    w.subscribeSetter r sub = (w.subscriptions.next,
      (w.drawToken.withTrap r c.object c.property).withSetterCallback r ⟨w.nextToken⟩ sub) := by
  let w₂ := w.drawToken.modifySetter r fun cell =>
    { cell with callbacks := cell.callbacks.add ⟨w.nextToken⟩ sub }
  have value : w₂.get c.object c.property = w.drawToken.get c.object c.property :=
    (still_withSetterCallback (w := w.drawToken) (t := ⟨w.nextToken⟩) e).get c.object c.property
  have e₂ : w₂.setters.get? r = some { c with callbacks := c.callbacks.add ⟨w.nextToken⟩ sub } := by
    simp only [w₂, modifySetter, Store.get?_modify_self]
    exact congrArg _ e
  have installed : w₂.installTrap r =
      w₂.withTrapOf r c.object c.property (w.drawToken.get c.object c.property) := by
    have := installTrap_eq e₂ live unfrozen
    rw [← value]
    exact this
  have result : w.subscribeSetter r sub = (w₂.installTrap r).callbackSubscription
      (.leaf (.setter r)) ⟨w.nextToken⟩ := by
    simp only [subscribeSetter, freshToken]
    split
    next cell get =>
      cases e₂.symm.trans get
      simp only [idle, willing, Bool.or_false, Bool.false_eq_true, if_false]
      rfl
    next none => cases e₂.symm.trans none
  rw [result, installed]
  refine Prod.ext rfl ?_
  -- the callback is added before the trap is installed
  simp only [withTrap, withTrapOf, withSetterCallback, callbackSubscription, newSubscription,
    modifySetter, putSlot, modifyObject, w₂, Store.modify_modify]

/-- The first subscription installs the trap. -/
theorem subscribeSetter_eq (h : w.Wired) (at' : w.leafAt? o n = some (.setter r))
    (e : w.setters.get? r = some c) (sub : Subscriber) :
    w.subscribeSetter r sub = (w.subscriptions.next,
      (if c.observing then w.drawToken else w.drawToken.withTrap r o n).withSetterCallback r
        ⟨w.nextToken⟩ sub) := by
  obtain ⟨c', e', rfl, rfl, -, live, unfrozen⟩ := h.toLocated.setter at'
  rw [e] at e'
  cases e'
  cases idle : c.observing with
  | true => exact subscribeSetter_of_settled e (.inl idle) sub
  | false => exact subscribeSetter_of_idle e idle (h.willing r c e) live unfrozen sub

theorem subscribeSetter_spec (h : w.Wired) (at' : w.leafAt? o n = some (.setter r))
    (sub : Subscriber) : (w.subscribeSetter r sub).1 = w.subscriptions.next ∧
      w.Joins (w.subscribeSetter r sub).2 (.setter r) ⟨w.nextToken⟩ sub := by
  obtain ⟨c, e, rfl, rfl, strategy, live, unfrozen⟩ := h.toLocated.setter at'
  have drawn := tunes_drawToken w
  have first : w.Still w.drawToken := .of_eq rfl rfl rfl
  -- the world in which the trap is there
  obtain ⟨w₁, c₁, eq, tunes, still, wired₁, e₁, observing, has, hadOr⟩ :
      ∃ w₁ c₁, (if c.observing then w.drawToken else w.drawToken.withTrap r c.object c.property) = w₁
        ∧ w.drawToken.Tunes w₁ ∧ w.drawToken.Still w₁ ∧ w₁.Wired ∧ w₁.setters.get? r = some c₁
        ∧ c₁.observing = true ∧ (∀ o n, w.has o n = true → w₁.has o n = true)
        ∧ ∀ o n, w₁.has o n = true → w.has o n = true ∨ o = c.object ∧ n = c.property := by
    split
    next observing =>
      exact ⟨w.drawToken, c, rfl, .refl _, .refl _, h.drawToken, e, observing, fun _ _ h => h,
        fun _ _ h => .inl h⟩
    · have tunes := tunes_withTrap w.drawToken r c.object c.property
      have attentive := attentive_withTrap (w := w.drawToken) h.drawToken.toAttentive
        h.drawToken.toLocated e live
      refine ⟨w.drawToken.withTrap r c.object c.property, _, rfl, tunes,
        still_withTrap (w := w.drawToken) h.drawToken.toAttentive e live,
        ⟨tunes.located h.drawToken.toLocated, tunes.registered h.drawToken.toRegistered, attentive⟩,
        (setters_withTrap (w := w.drawToken) e r).trans (if_pos rfl), rfl, ?_, ?_⟩
      · intro o n present
        rw [has_eq_isSome, slot?_withTrap (w := w.drawToken) live]
        split
        · rfl
        · exact present
      · intro o n present
        rw [has_eq_isSome, slot?_withTrap (w := w.drawToken) live] at present
        split at present
        next both => exact .inr both
        · exact .inl present
  have tunes₁ := drawn.trans tunes
  have enrols : w₁.Enrols (w₁.withSetterCallback r ⟨w.nextToken⟩ sub) (.setter r) ⟨w.nextToken⟩
      sub := enrols_withSetterCallback e₁
    (fun s ob t' e => h.issued s ob t' (tunes₁.disposal? s ▸ e))
    (fun l' t' sub' m => h.heard l' t' sub' (tunes₁.audience l' ▸ m)) tunes.nextToken
  rw [subscribeSetter_eq h at' e, eq]
  refine ⟨rfl, ⟨w₁, tunes₁, enrols⟩, Nat.le_refl _, ⟨enrols.located wired₁.toLocated,
    enrols.registered wired₁.toLocated wired₁.toRegistered,
    attentive_withSetterCallback wired₁.toAttentive wired₁.toLocated e₁ observing enrols⟩,
    (first.trans still).trans (still_withSetterCallback e₁), has, fun o n present => ?_⟩
  exact (hadOr o n present).imp id fun ⟨eo, en⟩ => ⟨strategy, eo ▸ en ▸ at'⟩

end

/-! ### Polling -/

/-- A world with a registration at a polling observer. -/
def withPollCallback (w : World η) (r : Ref .poll) (t : Token) (sub : Subscriber) : World η :=
  { w.modifyPoll r fun cell => { cell with callbacks := cell.callbacks.add t sub } with
    subscriptions := w.subscriptions.alloc ⟨some (.callback (.leaf (.poll r)) t)⟩ }

/-- A world in which a property is polled from now on. -/
def withTracked (w : World η) (r : Ref .poll) (v : Value) : World η :=
  (w.modifyPoll r fun cell => { cell with old := some v }).track r

section
variable {r : Ref .poll} {c : PollCell} {t : Token} {sub : Subscriber}
  {o : Ref .object} {n : String}

theorem enrols_withPollCallback (e : w.polls.get? r = some c)
    (issued : ∀ s ob t', w.disposal? s = some (.callback ob t') → t'.index < t.index)
    (heard : ∀ l' t' sub', (t', sub') ∈ w.audience l' → t'.index < t.index)
    (token : t.index < w.nextToken) :
    w.Enrols (w.withPollCallback r t sub) (.poll r) t sub where
  config := rfl
  elements _ := rfl
  arrays := rfl
  locator := rfl
  contains _ := rfl
  isFrozen _ := rfl
  dispatchers _ := rfl
  properties _ := rfl
  placeholders _ := rfl
  place? l := by
    cases l with
    | poll r => exact Store.map_get?_modify _ _ _ fun _ => rfl
    | _ => rfl
  successor? _ := rfl
  audience l := by
    cases l with
    | poll r' =>
        simp only [audience, withPollCallback, modifyPoll, Store.get?_modify, Leaf.poll.injEq]
        split
        next same => simp [e, Listeners.add]
        · rfl
    | _ => rfl
  movedTo? _ _ := rfl
  subscriptions := rfl
  issued := issued
  heard := heard
  token := token
  nextToken := Nat.le_refl _

/-- What is polled has no part in how changes are heard of. -/
theorem wired_withPollCallback (h : w.Wired)
    (enrols : w.Enrols (w.withPollCallback r t sub) (.poll r) t sub) :
    (w.withPollCallback r t sub).Wired where
  toLocated := enrols.located h.toLocated
  toRegistered := enrols.registered h.toLocated h.toRegistered
  toAttentive := by
    refine ⟨h.listener, h.listens, ?_, h.trapping, h.willing, h.trap, h.scheduled, h.pending,
      h.queued, h.tasks, h.known⟩
    intro o n l at' some dispatched
    rw [enrols.leafAt?] at at'
    rw [enrols.isDispatched] at dispatched
    obtain ⟨q, m⟩ := List.exists_mem_of_ne_nil _ some
    rcases enrols.mem_audience.1 m with m | ⟨rfl, -⟩
    · exact h.hearing o n l at' (List.ne_nil_of_mem m) dispatched
    · have frozen : w.isFrozen o = true := (h.current o n _ at').2.2
      simp [World.isDispatched, frozen] at dispatched

theorem schedulePolling_eq (w : World η) : ∃ polling frames, w.schedulePolling =
    { w with polling := polling, tasks := { w.tasks with frames := frames } } := by
  unfold schedulePolling
  split
  · exact ⟨w.polling, w.tasks.frames, rfl⟩
  · exact ⟨_, _, rfl⟩

theorem withTracked_eq (w : World η) (r : Ref .poll) (v : Value) : ∃ polling frames,
    w.withTracked r v = { w with
      polls := w.polls.modify r fun cell => { cell with old := some v }
      polling := polling
      tasks := { w.tasks with frames := frames } } := by
  obtain ⟨polling, frames, e⟩ := schedulePolling_eq
    { w.modifyPoll r fun cell => { cell with old := some v } with
      polling := { w.polling with tracked := w.polling.tracked ++ [r] } }
  exact ⟨polling, frames, e⟩

theorem tunes_withTracked (w : World η) (r : Ref .poll) (v : Value) :
    w.Tunes (w.withTracked r v) := by
  obtain ⟨polling, frames, e⟩ := withTracked_eq w r v
  rw [e]
  refine ⟨⟨rfl, fun _ => rfl, rfl, rfl, fun _ => rfl, fun _ => rfl, fun _ => rfl, fun _ => rfl, fun _ => rfl,
    fun l => ?_, fun _ => rfl⟩, fun l => ?_, fun _ _ => rfl, rfl, Nat.le_refl _⟩
  · cases l with
    | poll r' => exact Store.map_get?_modify _ _ _ fun _ => rfl
    | _ => rfl
  · cases l with
    | poll r' => exact congrArg (Option.getD · []) (Store.map_get?_modify _ _ _ fun _ => rfl)
    | _ => rfl

theorem still_withTracked (w : World η) (r : Ref .poll) (v : Value) :
    w.Still (w.withTracked r v) := by
  obtain ⟨polling, frames, e⟩ := withTracked_eq w r v
  rw [e]
  exact .of_eq rfl rfl rfl

theorem wired_withTracked (h : w.Wired) (r : Ref .poll) (v : Value) :
    (w.withTracked r v).Wired := by
  have tunes := tunes_withTracked w r v
  refine ⟨tunes.located h.toLocated, tunes.registered h.toRegistered, ?_⟩
  obtain ⟨polling, frames, e⟩ := withTracked_eq w r v
  rw [e] at tunes ⊢
  exact ⟨h.listener, h.listens, fun o n l at' some => h.hearing o n l (tunes.leafAt? o n ▸ at')
    (tunes.audience l ▸ some), h.trapping, h.willing, h.trap, h.scheduled, h.pending, h.queued,
    h.tasks, h.known⟩

/-- The first subscription makes the property be polled. -/
theorem subscribePoll_eq (e : w.polls.get? r = some c) (sub : Subscriber) : ∃ v,
    w.subscribePoll r sub = (w.subscriptions.next,
      (if c.callbacks.isEmpty then w.drawToken.withTracked r v else w.drawToken).withPollCallback r
        ⟨w.nextToken⟩ sub) := by
  cases first : c.callbacks.isEmpty with
  | false =>
    refine ⟨.undefined, ?_⟩
    simp only [subscribePoll, freshToken, e, Option.map_some, Option.getD_some, first,
      Bool.false_eq_true, if_false]
    rfl
  | true =>
    let w₂ := w.drawToken.modifyPoll r fun cell =>
      { cell with callbacks := cell.callbacks.add ⟨w.nextToken⟩ sub }
    refine ⟨w₂.leafValue (.poll r), ?_⟩
    have result : w.subscribePoll r sub = (w₂.withTracked r (w₂.leafValue (.poll r))).callbackSubscription
        (.leaf (.poll r)) ⟨w.nextToken⟩ := by
      simp only [subscribePoll, freshToken, e, Option.map_some, Option.getD_some, first, if_true]
      rfl
    rw [result, if_pos rfl]
    refine Prod.ext (congrArg Store.next (tunes_withTracked w₂ r _).subscriptions) ?_
    -- the callback is added before the property is polled
    simp only [withTracked, track, schedulePolling, withPollCallback, callbackSubscription,
      newSubscription, modifyPoll, requestFrame, w₂]
    split <;> simp only [Store.modify_modify]

/-- The cell of the polling observer at a property. -/
theorem Located.poll (h : w.Located) (at' : w.leafAt? o n = some (.poll r)) :
    ∃ c, w.polls.get? r = some c ∧ c.object = o ∧ c.property = n := by
  obtain ⟨place, -, -⟩ := h.current o n _ at'
  simp only [place?, Option.map_eq_some_iff, Prod.mk.injEq] at place
  exact place

theorem subscribePoll_spec (h : w.Wired) (at' : w.leafAt? o n = some (.poll r))
    (sub : Subscriber) : (w.subscribePoll r sub).1 = w.subscriptions.next ∧
      w.Joins (w.subscribePoll r sub).2 (.poll r) ⟨w.nextToken⟩ sub := by
  obtain ⟨c, e, rfl, rfl⟩ := h.toLocated.poll at'
  obtain ⟨v, eq⟩ := subscribePoll_eq e sub
  have drawn := tunes_drawToken w
  have first : w.Still w.drawToken := .of_eq rfl rfl rfl
  -- the world in which the property is polled
  obtain ⟨w₁, eq₁, tunes, still, wired₁, ⟨c₁, e₁⟩, has⟩ :
      ∃ w₁, (if c.callbacks.isEmpty then w.drawToken.withTracked r v else w.drawToken) = w₁
        ∧ w.drawToken.Tunes w₁ ∧ w.drawToken.Still w₁ ∧ w₁.Wired ∧ (∃ c₁, w₁.polls.get? r = some c₁)
        ∧ ∀ o n, w₁.has o n = w.has o n := by
    split
    · refine ⟨_, rfl, tunes_withTracked w.drawToken r v, still_withTracked w.drawToken r v,
        wired_withTracked h.drawToken r v, ?_, ?_⟩
      · obtain ⟨polling, frames, e'⟩ := withTracked_eq w.drawToken r v
        rw [e']
        exact ⟨_, (Store.get?_modify_self _ _ _).trans (congrArg _ e)⟩
      · obtain ⟨polling, frames, e'⟩ := withTracked_eq w.drawToken r v
        rw [e']
        exact fun _ _ => rfl
    · exact ⟨_, rfl, .refl _, .refl _, h.drawToken, ⟨c, e⟩, fun _ _ => rfl⟩
  have tunes₁ := drawn.trans tunes
  have enrols : w₁.Enrols (w₁.withPollCallback r ⟨w.nextToken⟩ sub) (.poll r) ⟨w.nextToken⟩ sub :=
    enrols_withPollCallback e₁
      (fun s ob t' e => h.issued s ob t' (tunes₁.disposal? s ▸ e))
      (fun l' t' sub' m => h.heard l' t' sub' (tunes₁.audience l' ▸ m)) tunes.nextToken
  rw [eq, eq₁]
  have still' : w₁.Still (w₁.withPollCallback r ⟨w.nextToken⟩ sub) := .of_eq rfl rfl rfl
  exact ⟨rfl, ⟨w₁, tunes₁, enrols⟩, Nat.le_refl _, wired_withPollCallback wired₁ enrols,
    (first.trans still).trans still', fun o n e => (has o n).trans e,
    fun o n e => .inl ((has o n).symm.trans e)⟩

end

/-! ### Following -/

/-- The subscriptions that `w'` has more than `w` were made with tokens that `w` had not drawn. -/
structure Draws (w w' : World η) : Prop where
  nextToken : w.nextToken ≤ w'.nextToken
  drawn : ∀ s ob t, w'.disposal? s = some (.callback ob t) →
    w.disposal? s = some (.callback ob t) ∨ w.nextToken ≤ t.index

theorem Draws.of_eq (subscriptions : w'.subscriptions = w.subscriptions)
    (nextToken : w.nextToken ≤ w'.nextToken) : w.Draws w' :=
  ⟨nextToken, fun s ob t e => .inl (by simpa only [disposal?, subscriptions] using e)⟩

theorem Draws.trans (h : w.Draws w') (h' : w'.Draws w'') : w.Draws w'' where
  nextToken := Nat.le_trans h.nextToken h'.nextToken
  drawn s ob t e := by
    rcases h'.drawn s ob t e with e | later
    · exact h.drawn s ob t e
    · exact .inr (Nat.le_trans h.nextToken later)

/-- `w'` has what `w` has: the values, the leaves with their places and the subscriptions, each
registered where it was, or at the successor of its leaf. -/
structure Keeps (w w' : World η) : Prop extends Draws w w' where
  wired : w'.Wired
  still : w.Still w'
  place? : ∀ l p, w.place? l = some p → w'.place? l = some p
  subscriptions : ∀ s c, w.subscriptions.get? s = some c → w'.subscriptions.get? s = some c
  heard : ∀ l t sub, (t, sub) ∈ w.audience l → (t, sub) ∈ w'.audience l
  before : ∀ s s', w.Before s s' → w'.Before s s'

theorem Keeps.refl (h : w.Wired) : w.Keeps w :=
  ⟨.of_eq rfl (Nat.le_refl _), h, .refl w, fun _ _ e => e, fun _ _ e => e, fun _ _ _ m => m,
    fun _ _ e => e⟩

theorem Keeps.trans (h : w.Keeps w') (h' : w'.Keeps w'') : w.Keeps w'' where
  toDraws := h.toDraws.trans h'.toDraws
  wired := h'.wired
  still := h.still.trans h'.still
  place? l p e := h'.place? l p (h.place? l p e)
  subscriptions s c e := h'.subscriptions s c (h.subscriptions s c e)
  heard l t sub m := h'.heard l t sub (h.heard l t sub m)
  before s s' e := h'.before s s' (h.before s s' e)

theorem Keeps.of_grows (h : w.Wired) (grows : w.Grows w') (wired : w'.Wired) : w.Keeps w' where
  toDraws := .of_eq grows.subscriptions (Nat.le_of_eq grows.nextToken.symm)
  wired := wired
  still := grows.still h.toAttentive
  place? := grows.place?
  subscriptions s c e := grows.subscriptions ▸ e
  heard l t sub m := grows.audience l ▸ m
  before s s' e := by simpa only [Before, grows.voice?, grows.audience] using e

/-- `w'` has what `w` has, and the same subscribers hear of the same properties. -/
structure Stays (w w' : World η) : Prop extends Keeps w w' where
  enrolled_iff : ∀ s o n sub, w'.Enrolled s o n sub ↔ w.Enrolled s o n sub
  has : ∀ o n, w'.has o n = w.has o n
  parked : ∀ u v, w.place? (.placeholder u) = some v →
    w'.audience (.placeholder u) = w.audience (.placeholder u)

theorem Stays.refl (h : w.Wired) : w.Stays w :=
  ⟨.refl h, fun _ _ _ _ => Iff.rfl, fun _ _ => rfl, fun _ _ _ => rfl⟩

theorem Stays.of_grows (h : w.Wired) (grows : w.Grows w') (wired : w'.Wired) : w.Stays w' where
  toKeeps := .of_grows h grows wired
  enrolled_iff s o n sub := by
    refine ⟨?_, grows.enrolled⟩
    rintro ⟨own, l, t, voice, at', m⟩
    rw [grows.audience] at m
    exact ⟨fun e => own ((grows.isMoved s).2 e), l, t, grows.voice? ▸ voice,
      grows.leafAt?_of_audience h.toLocated wired.toLocated at' m, m⟩
  has o n := by simp only [World.has, slot?, grows.objects]
  parked u _ _ := grows.audience (.placeholder u)

/-- `w'` is `w` with a subscription `s` more, which makes `sub` hear of changes of a property. -/
structure Follows (w w' : World η) (s : Ref .subscription) (o : Ref .object) (n : String)
    (sub : Subscriber) : Prop extends Keeps w w' where
  fresh : w.subscriptions.get? s = none
  enrolled_iff : ∀ s' o' n' sub', w'.Enrolled s' o' n' sub' ↔ w.Enrolled s' o' n' sub' ∨
    s' = s ∧ o' = o ∧ n' = n ∧ sub' = sub
  later : ∀ s' sub', w.Enrolled s' o n sub' → w'.Before s' s
  has : ∀ o' n', w.has o' n' = true → w'.has o' n' = true
  hadOr : ∀ o' n', w'.has o' n' = true →
    w.has o' n' = true ∨ w.config.strategy = .setter ∧ o' = o ∧ n' = n
  direct : ∃ l t, w'.directVoice? s = some (l, t) ∧ w'.place? l = some (o, n) ∧
    ∀ u, l = .placeholder u → w'.has o n = false
  parked : ∀ u o' n', w.place? (.placeholder u) = some (o', n') → w.has o' n' = true →
    w'.audience (.placeholder u) = w.audience (.placeholder u)

/-- What keeps every enrolment may come before a subscription. -/
theorem Stays.follows (stays : w.Stays w') {s : Ref .subscription} {o : Ref .object} {n : String}
    {sub : Subscriber} (h : w'.Follows w'' s o n sub) : w.Follows w'' s o n sub where
  toKeeps := stays.toKeeps.trans h.toKeeps
  fresh := by
    cases e : w.subscriptions.get? s with
    | none => rfl
    | some c =>
      rw [← h.fresh, stays.subscriptions s c e]
  enrolled_iff s' o' n' sub' := by rw [h.enrolled_iff, stays.enrolled_iff]
  later s' sub' e := h.later s' sub' ((stays.enrolled_iff s' o n sub').2 e)
  has o' n' e := h.has o' n' ((stays.has o' n').trans e)
  hadOr o' n' e := by
    have config : w'.config = w.config := congrArg Backdrop.config stays.still.backdrop
    rw [← stays.has, ← config]
    exact h.hadOr o' n' e
  direct := h.direct
  parked u o' n' e has :=
    (h.parked u o' n' (stays.place? _ _ e) ((stays.has o' n').trans has)).trans (stays.parked u _ e)

/-- A registration at the leaf of a property makes the subscriber hear of the property. -/
theorem Joins.follows (h : w.Wired) {l : Leaf} {t : Token} {sub : Subscriber} {o : Ref .object}
    {n : String} (at' : w.leafAt? o n = some l) (joins : w.Joins w' l t sub)
    (absent : ∀ u, l = .placeholder u → w.has o n = false) :
    w.Follows w' w.subscriptions.next o n sub := by
  obtain ⟨⟨w₁, tunes, enrols⟩, drawn, wired, still, has, hadOr⟩ := joins
  have located := tunes.located h.toLocated
  have registered := tunes.registered h.toRegistered
  have at₁ : w₁.leafAt? o n = some l := (tunes.leafAt? o n).trans at'
  have next : w₁.subscriptions.next = w.subscriptions.next := by rw [tunes.subscriptions]
  have old : ∀ {s l t}, w.voice? s = some (l, t) → w'.voice? s = some (l, t) := by
    intro s l t e
    have ne : s ≠ w₁.subscriptions.next := by
      rintro rfl
      rw [next, World.voice?_next] at e
      cases e
    rw [enrols.voice?_of_ne registered ne, tunes.voice?, e]
  have draws : w.Draws w' := by
    refine ⟨Nat.le_trans tunes.nextToken enrols.nextToken, fun s ob t' e => ?_⟩
    by_cases same : s = w₁.subscriptions.next
    · rw [same, enrols.disposal?_next, Option.some.injEq, Disposal.callback.injEq] at e
      exact .inr (e.2 ▸ drawn)
    · rw [enrols.disposal?_of_ne same, tunes.disposal?] at e
      exact .inl e
  refine ⟨⟨draws, wired, still, fun l p e => ?_, fun s c e => ?_, fun l' t' sub' m => ?_, ?_⟩,
    Store.get?_next _, ?_, ?_,
    has, fun o' n' e => (hadOr o' n' e).imp id fun ⟨strategy, at₂⟩ => ⟨strategy, ?_⟩,
    ⟨l, t, ?_, ?_, fun u is => ?_⟩, fun u o' n' place present => ?_⟩
  · rw [enrols.place?, tunes.place?, e]
  · rw [enrols.subscriptions, tunes.subscriptions,
      Store.get?_alloc_of_ne _ (Store.ne_next_of_get? e), e]
  · rw [← tunes.audience] at m
    exact enrols.mem_audience.2 (.inl m)
  · rintro s₁ s₂ ⟨l', t₁, t₂, sub₁, sub₂, e₁, e₂, m₁, m₂, lt⟩
    rw [← tunes.audience] at m₁ m₂
    exact ⟨l', t₁, t₂, sub₁, sub₂, old e₁, old e₂, enrols.mem_audience.2 (.inl m₁),
      enrols.mem_audience.2 (.inl m₂), lt⟩
  · intro s o' n' sub'
    rw [enrols.enrolled_iff located registered at₁, next, tunes.enrolled]
  · rintro s' sub' ⟨-, l', t', e, at₂, m⟩
    rw [at'] at at₂
    cases at₂
    rw [← tunes.audience] at m
    refine ⟨l, t', t, sub', sub, old e, ?_, enrols.mem_audience.2 (.inl m),
      enrols.mem_audience.2 (.inr ⟨rfl, rfl⟩), enrols.heard l t' sub' m⟩
    rw [← next]
    exact enrols.voice?_next (located.current o n l at₁).2.1
  · rw [← next]
    simp only [directVoice?, enrols.disposal?_next]
  · rw [enrols.place?, tunes.place?, (h.current o n l at').1]
  · -- a placeholder watches an object whose properties are not trapped
    subst is
    have dispatched : w.isDispatched o = true := (h.current o n _ at').2.2
    simp only [World.isDispatched, Bool.and_eq_true, decide_eq_true_eq] at dispatched
    refine Bool.eq_false_iff.2 fun there => ?_
    rcases hadOr o n there with had | ⟨strategy, -⟩
    · rw [absent u rfl] at had
      cases had
    · rw [dispatched.2] at strategy
      cases strategy
  · rw [enrols.audience, if_neg, tunes.audience]
    rintro rfl
    rw [(h.current o n _ at').1, Option.some.injEq, Prod.mk.injEq] at place
    rw [← place.1, ← place.2, absent u rfl] at present
    cases present
  · have place := (h.current o n l at').1
    rw [(h.current o' n' l at₂).1] at place
    exact Prod.mk.inj (Option.some.inj place)

end World

end ViewBinding
