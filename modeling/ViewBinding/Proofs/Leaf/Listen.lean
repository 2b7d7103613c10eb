import ViewBinding.Proofs.Leaf.Enrol

/-!
# Leaf — starting to listen

The first registration at a leaf makes it attentive: a dispatcher listens to the change records of
its object, a trapping observer puts a trap in place of the property.  Neither changes a value, and
no change becomes due by it; `w.Still w'` says so.
-/

namespace ViewBinding

namespace World

variable {η : Type} {w w' w'' : World η}

/-- A change of a property waits to be told. -/
def Due (w : World η) (o : Ref .object) (n : String) : Prop :=
  (∃ c, w.objects.get? o = some c ∧ ∃ record ∈ c.pending, record.name = n) ∨
    ∃ r c, w.setters.get? r = some c ∧ c.object = o ∧ c.property = n ∧ c.queued = true

/-- A property stores twice what is written to it. -/
def IsDoubled (w : World η) (o : Ref .object) (n : String) : Prop :=
  ∃ v, w.slot? o n = some (.doubled v)

/-- `w'` has the values of `w` and the same changes to tell, and differs in nothing that is not
about watching properties. -/
structure Still (w w' : World η) : Prop extends Holds w w' where
  backdrop : w'.backdrop = w.backdrop
  due : ∀ o n, w'.Due o n ↔ w.Due o n
  doubled : ∀ o n, w'.IsDoubled o n → w.IsDoubled o n

@[refl] theorem Still.refl (w : World η) : w.Still w :=
  ⟨.refl w, rfl, fun _ _ => Iff.rfl, fun _ _ h => h⟩

theorem Still.trans (h : w.Still w') (h' : w'.Still w'') : w.Still w'' :=
  ⟨h.toHolds.trans h'.toHolds, h'.backdrop.trans h.backdrop,
    fun o n => (h'.due o n).trans (h.due o n), fun o n e => h.doubled o n (h'.doubled o n e)⟩

/-- Where objects and traps are the same, the same changes are due. -/
theorem Still.of_eq (objects : w'.objects = w.objects) (setters : w'.setters = w.setters)
    (backdrop : w'.backdrop = w.backdrop) : w.Still w' :=
  ⟨.of_eq objects setters, backdrop, fun o n => by simp only [Due, objects, setters],
    fun o n => by simp only [IsDoubled, slot?, objects, imp_self]⟩

theorem Grows.still (h : w.Grows w') (a : w.Attentive) : w.Still w' where
  get o n := by
    simp only [World.get, slot?, h.objects]
    cases e : ((w.objects.get? o).bind fun c => Entries.get? n c.properties) with
    | none =>
        have : (do Entries.get? n (← w.objects.get? o).properties) = none := e
        simp only [this]
    | some s =>
        have e : (do Entries.get? n (← w.objects.get? o).properties) = some s := e
        simp only [e]
        cases s with
        | trap r =>
            obtain ⟨c, e', -⟩ := (a.trap o n r).1 e
            simp only [slotValue, e', h.setters r c e']
        | _ => rfl
  contains o := by simp only [h.objects]
  isFrozen o := by simp only [World.isFrozen, h.objects]
  backdrop := h.backdrop
  due o n := by
    simp only [Due, h.objects]
    refine or_congr Iff.rfl ⟨?_, ?_⟩
    · rintro ⟨r, c, e, eo, en, queued⟩
      rcases h.newSetters r c e with e | ⟨-, -, -, idle, -⟩
      · exact ⟨r, c, e, eo, en, queued⟩
      · rw [idle] at queued
        cases queued
    · rintro ⟨r, c, e, rest⟩
      exact ⟨r, c, h.setters r c e, rest⟩
  doubled o n := by simp only [IsDoubled, slot?, h.objects, imp_self]

/-! ### Tokens -/

/-- A world whose next token has been drawn. -/
def drawToken (w : World η) : World η := { w with nextToken := w.nextToken + 1 }

theorem tunes_drawToken (w : World η) : w.Tunes w.drawToken where
  config := rfl
  elements _ := rfl
  arrays := rfl
  locator := rfl
  contains _ := rfl
  isFrozen _ := rfl
  dispatchers _ := rfl
  properties _ := rfl
  placeholders _ := rfl
  place? l := by cases l <;> rfl
  successor? _ := rfl
  audience l := by cases l <;> rfl
  movedTo? _ _ := rfl
  subscriptions := rfl
  nextToken := Nat.le_succ _

theorem Wired.drawToken (h : w.Wired) : w.drawToken.Wired where
  toLocated := (tunes_drawToken w).located h.toLocated
  toRegistered := (tunes_drawToken w).registered h.toRegistered
  toAttentive :=
    ⟨h.listener, h.listens, fun o n l at' some => h.hearing o n l
      ((tunes_drawToken w).leafAt? o n ▸ at') ((tunes_drawToken w).audience l ▸ some), h.trapping,
      h.willing, h.trap, h.scheduled, h.pending, h.queued, h.tasks, h.known⟩

/-! ### Dispatchers -/

/-- A world in which a dispatcher listens to its object under a token. -/
def withListener (w : World η) (d : Ref .dispatcher) (o : Ref .object) : World η :=
  ({ w with nextToken := w.nextToken + 1 }.modifyObject o fun cell =>
    { cell with listeners := cell.listeners.add ⟨w.nextToken⟩ (.dispatcher d) }).modifyDispatcher d
      fun cell => { cell with listener := some ⟨w.nextToken⟩ }

section
variable {d : Ref .dispatcher} {dc : DispatcherCell}

theorem startObserving_eq (e : w.dispatchers.get? d = some dc)
    (live : w.objects.contains dc.object = true) :
    w.startObserving d =
      if dc.listener.isSome then w else w.withListener d dc.object := by
  unfold startObserving
  simp only [e, live, Bool.not_true, Bool.or_false]
  rfl

theorem tunes_withListener (w : World η) (d : Ref .dispatcher) (o : Ref .object) :
    w.Tunes (w.withListener d o) where
  config := rfl
  elements _ := rfl
  arrays := rfl
  locator := rfl
  contains o' := contains_modifyObject o o' _
  isFrozen _ := isFrozen_modifyObject fun _ => rfl
  dispatchers _ := Store.map_get?_modify _ _ _ fun _ => rfl
  properties _ := rfl
  placeholders _ := rfl
  place? l := by cases l <;> rfl
  successor? _ := rfl
  audience l := by cases l <;> rfl
  movedTo? _ _ := rfl
  subscriptions := rfl
  nextToken := Nat.le_succ _

theorem still_withListener (w : World η) (d : Ref .dispatcher) (o : Ref .object) :
    w.Still (w.withListener d o) where
  toHolds := by
    refine (Holds.modifyObject w o (f := fun cell =>
      { cell with listeners := cell.listeners.add ⟨w.nextToken⟩ (.dispatcher d) })
      (fun _ => rfl) fun _ => rfl).trans ?_
    exact .of_eq rfl rfl
  backdrop := rfl
  due o' n := by
    have pending := Store.map_get?_modify w.objects o o' (g := (·.pending)) (f := fun cell =>
      { cell with listeners := cell.listeners.add ⟨w.nextToken⟩ (.dispatcher d) }) fun _ => rfl
    refine or_congr ⟨?_, ?_⟩ Iff.rfl
    · rintro ⟨c, e, rest⟩
      change (w.objects.modify o _).get? o' = some c at e
      rw [e, Option.map_some, eq_comm, Option.map_eq_some_iff] at pending
      obtain ⟨c', e', same⟩ := pending
      exact ⟨c', e', same ▸ rest⟩
    · rintro ⟨c, e, rest⟩
      rw [e, Option.map_some, Option.map_eq_some_iff] at pending
      obtain ⟨c', e', same⟩ := pending
      exact ⟨c', e', same ▸ rest⟩
  doubled o' n := by
    rintro ⟨v, e⟩
    have same : (w.withListener d o).slot? o' n = w.slot? o' n :=
      slot?_modifyObject (o := o) n fun _ => rfl
    exact ⟨v, same.symm.trans e⟩

/-- An object to which its dispatcher does not listen yet has no listener. -/
theorem Attentive.listeners_eq_nil (a : w.Attentive) (located : w.Located)
    (e : w.dispatchers.get? d = some dc) (silent : dc.listener = none) {c : ObjectCell}
    (eo : w.objects.get? dc.object = some c) : c.listeners.entries = [] := by
  refine List.eq_nil_iff_forall_not_mem.2 ?_
  rintro ⟨t, l⟩ m
  obtain ⟨d', dc', -, e', same, listener⟩ := a.listener dc.object c t l eo m
  have : d' = d := by
    have found := (located.found d dc e).1
    have found' := (located.found d' dc' e').1
    rw [same, found] at found'
    exact (Option.some.inj found').symm
  subst this
  rw [e] at e'
  cases e'
  rw [silent] at listener
  cases listener

theorem attentive_withListener (a : w.Attentive) (located : w.Located)
    (e : w.dispatchers.get? d = some dc) (live : w.objects.contains dc.object = true)
    (silent : dc.listener = none) : (w.withListener d dc.object).Attentive := by
  obtain ⟨c, eo⟩ := Option.isSome_iff_exists.1 live
  have nil := a.listeners_eq_nil located e silent eo
  have objects : ∀ o' c', (w.withListener d dc.object).objects.get? o' = some c' →
      (o' = dc.object ∧ c'.listeners.entries = [(⟨w.nextToken⟩, .dispatcher d)]
        ∧ c'.scheduled = c.scheduled ∧ c'.pending = c.pending)
      ∨ (o' ≠ dc.object ∧ w.objects.get? o' = some c') := by
    intro o' c' e'
    simp only [withListener, modifyObject, modifyDispatcher, Store.get?_modify] at e'
    split at e'
    next same =>
      rw [eo] at e'
      cases e'
      exact .inl ⟨same, by simp [Listeners.add, nil], rfl, rfl⟩
    next ne => exact .inr ⟨ne, e'⟩
  have dispatchers : ∀ d', (w.withListener d dc.object).dispatchers.get? d' =
      if d' = d then some { dc with listener := some ⟨w.nextToken⟩ } else w.dispatchers.get? d' :=
    fun d' => by
      simp only [withListener, modifyObject, modifyDispatcher, Store.get?_modify, e, Option.map_some]
  have still := still_withListener w d dc.object
  have tunes := tunes_withListener w d dc.object
  refine ⟨?_, ?_, ?_, a.trapping, a.willing, ?_, ?_, ?_, a.queued, a.tasks, ?_⟩
  · intro o' c' t l e' m
    rcases objects o' c' e' with ⟨rfl, entries, -⟩ | ⟨ne, e'⟩
    · rw [entries, List.mem_singleton] at m
      cases m
      exact ⟨d, { dc with listener := some ⟨w.nextToken⟩ }, rfl, by rw [dispatchers, if_pos rfl],
        rfl, rfl⟩
    · obtain ⟨d', dc', rfl, e₁, eo', el⟩ := a.listener o' c' t l e' m
      have : d' ≠ d := by
        rintro rfl
        rw [e] at e₁
        cases e₁
        exact ne eo'.symm
      exact ⟨d', dc', rfl, by rw [dispatchers, if_neg this, e₁], eo', el⟩
  · intro d' dc' t e' el
    rw [dispatchers] at e'
    split at e'
    next same =>
      cases e'
      cases el
      refine ⟨{ c with listeners := c.listeners.add ⟨w.nextToken⟩ (.dispatcher d) }, ?_, ?_⟩
      · simp [withListener, modifyObject, modifyDispatcher, eo]
      · simp [Listeners.add, nil, same]
    next ne =>
      obtain ⟨c', e₁, entries⟩ := a.listens d' dc' t e' el
      have : dc'.object ≠ dc.object := by
        intro same
        have found := (located.found d dc e).1
        have found' := (located.found d' dc' e').1
        rw [same, found] at found'
        exact ne (Option.some.inj found').symm
      refine ⟨c', ?_, entries⟩
      simp only [withListener, modifyObject, modifyDispatcher, Store.get?_modify_of_ne _ this, e₁]
  · intro o n l at' some dispatched
    rw [tunes.leafAt?] at at'
    rw [tunes.audience] at some
    rw [tunes.isDispatched] at dispatched
    obtain ⟨d', dc', e', eo', el⟩ := a.hearing o n l at' some dispatched
    by_cases same : d' = d
    · subst same
      rw [e] at e'
      cases e'
      exact absurd silent el
    · exact ⟨d', dc', by rw [dispatchers, if_neg same, e'], eo', el⟩
  · intro o n r
    have slot : (w.withListener d dc.object).slot? o n = w.slot? o n :=
      slot?_modifyObject n fun _ => rfl
    rw [slot]
    exact a.trap o n r
  · intro o' c' e'
    rcases objects o' c' e' with ⟨rfl, -, scheduled, -⟩ | ⟨-, e'⟩
    · rw [scheduled]
      exact a.scheduled _ c eo
    · exact a.scheduled o' c' e'
  · intro o' c' e'
    rcases objects o' c' e' with ⟨rfl, entries, scheduled, pending⟩ | ⟨-, e'⟩
    · rw [scheduled, pending, entries]
      exact fun some => ⟨(a.pending _ c eo some).1, by simp⟩
    · exact a.pending o' c' e'
  · intro task m
    rcases a.known task m with ⟨o', e', live'⟩ | known
    · exact .inl ⟨o', e', (tunes.contains o').trans live'⟩
    · exact .inr known

theorem has_startObserving (w : World η) (d : Ref .dispatcher) (o : Ref .object) (n : String) :
    (w.startObserving d).has o n = w.has o n := by
  unfold startObserving
  split
  · rfl
  next dc _ =>
    split
    · rfl
    · rw [has_eq_isSome, has_eq_isSome]
      exact congrArg Option.isSome (slot?_modifyObject (w := w.drawToken) (o := dc.object)
        (f := fun cell => { cell with listeners := cell.listeners.add ⟨w.nextToken⟩ (.dispatcher d) })
        n fun _ => rfl)

/-- **A dispatcher that starts to listen.**  It changes no registration and no value. -/
theorem startObserving_spec (h : w.Wired) (e : w.dispatchers.get? d = some dc)
    (live : w.objects.contains dc.object = true) :
    w.Tunes (w.startObserving d) ∧ w.Still (w.startObserving d) ∧ (w.startObserving d).Wired ∧
      ∃ dc', (w.startObserving d).dispatchers.get? d = some dc' ∧ dc'.object = dc.object
        ∧ dc'.listener ≠ none := by
  rw [startObserving_eq e live]
  split
  next some =>
    exact ⟨.refl w, .refl w, h, dc, e, rfl, fun none => by simp [none] at some⟩
  next silent =>
    have silent : dc.listener = none := by simpa using silent
    have tunes := tunes_withListener w d dc.object
    refine ⟨tunes, still_withListener w d dc.object, ⟨tunes.located h.toLocated,
      tunes.registered h.toRegistered, attentive_withListener h.toAttentive h.toLocated e live
        silent⟩, { dc with listener := some ⟨w.nextToken⟩ }, ?_, rfl, fun e => by cases e⟩
    simp [withListener, modifyObject, modifyDispatcher, e]

end

/-! ### Traps -/

/-- A world with a trap in place of a property, which keeps a value. -/
def withTrapOf (w : World η) (r : Ref .setter) (o : Ref .object) (n : String) (v : Value) :
    World η :=
  (w.putSlot o n (.trap r)).modifySetter r fun cell => { cell with current := v, observing := true }

/-- A world with a trap in place of a property, which keeps the property's value. -/
def withTrap (w : World η) (r : Ref .setter) (o : Ref .object) (n : String) : World η :=
  w.withTrapOf r o n (w.get o n)

section
variable {r : Ref .setter} {c : SetterCell}

theorem tunes_withTrap (w : World η) (r : Ref .setter) (o : Ref .object) (n : String) :
    w.Tunes (w.withTrap r o n) where
  config := rfl
  elements _ := rfl
  arrays := rfl
  locator := rfl
  contains o' := contains_modifyObject o o' _
  isFrozen _ := isFrozen_modifyObject fun _ => rfl
  dispatchers _ := rfl
  properties _ := rfl
  placeholders _ := rfl
  place? l := by
    cases l with
    | setter r' => exact Store.map_get?_modify _ _ _ fun _ => rfl
    | _ => rfl
  successor? _ := rfl
  audience l := by
    cases l with
    | setter r' =>
        exact congrArg (Option.getD · []) (Store.map_get?_modify _ _ _ fun _ => rfl)
    | _ => rfl
  movedTo? _ _ := rfl
  subscriptions := rfl
  nextToken := Nat.le_refl _

theorem installTrap_eq (e : w.setters.get? r = some c) (live : w.objects.contains c.object = true)
    (unfrozen : w.isFrozen c.object = false) :
    w.installTrap r = w.withTrap r c.object c.property := by
  simp only [installTrap, e, live, if_true, defineSlot, unfrozen, Bool.false_eq_true, if_false]
  rfl

theorem setters_withTrap (e : w.setters.get? r = some c) (r' : Ref .setter) :
    (w.withTrap r c.object c.property).setters.get? r' =
      if r' = r then some { c with current := w.get c.object c.property, observing := true }
      else w.setters.get? r' := by
  simp only [withTrap, withTrapOf, modifySetter, putSlot, modifyObject, Store.get?_modify, e,
    Option.map_some]

theorem slot?_withTrap (live : w.objects.contains c.object = true) (o : Ref .object) (n : String) :
    (w.withTrap r c.object c.property).slot? o n =
      if o = c.object ∧ n = c.property then some (.trap r) else w.slot? o n := by
  have := slot?_putSlot w c.object o c.property n (.trap r)
  simp only [live, and_true] at this
  exact this

theorem pending_withTrap (o o' : Ref .object) (n : String) :
    ((w.withTrap r o n).objects.get? o').map (fun c => (c.pending, c.scheduled, c.listeners))
      = (w.objects.get? o').map fun c => (c.pending, c.scheduled, c.listeners) :=
  Store.map_get?_modify _ _ _ fun _ => rfl

theorem still_withTrap (a : w.Attentive) (e : w.setters.get? r = some c)
    (live : w.objects.contains c.object = true) :
    w.Still (w.withTrap r c.object c.property) where
  get o n := by
    by_cases both : o = c.object ∧ n = c.property
    · obtain ⟨rfl, rfl⟩ := both
      have slot : (w.withTrap r c.object c.property).slot? c.object c.property = some (.trap r) :=
        (slot?_withTrap live _ _).trans (if_pos ⟨rfl, rfl⟩)
      simp only [World.get, slot, slotValue, setters_withTrap e, if_true, Option.map_some,
        Option.getD_some]
    · have same := (slot?_withTrap (r := r) live o n).trans (if_neg both)
      simp only [World.get, same]
      cases slot : w.slot? o n with
      | none => rfl
      | some s =>
        cases s with
        | trap r' =>
            have : r' ≠ r := by
              rintro rfl
              obtain ⟨c', e', eo, en, -⟩ := (a.trap o n r').1 slot
              rw [e] at e'
              cases e'
              exact both ⟨eo.symm, en.symm⟩
            simp only [slotValue, setters_withTrap e, if_neg this]
        | _ => rfl
  contains o := (tunes_withTrap w r c.object c.property).contains o
  isFrozen o := (tunes_withTrap w r c.object c.property).isFrozen o
  backdrop := rfl
  due o n := by
    have pending := congrArg (Option.map Prod.fst)
      (pending_withTrap (w := w) (r := r) c.object o c.property)
    simp only [Option.map_map, Function.comp_def] at pending
    refine or_congr ⟨?_, ?_⟩ ⟨?_, ?_⟩
    · rintro ⟨c', e', rest⟩
      rw [e', Option.map_some, eq_comm, Option.map_eq_some_iff] at pending
      obtain ⟨c'', e'', same⟩ := pending
      exact ⟨c'', e'', same ▸ rest⟩
    · rintro ⟨c', e', rest⟩
      rw [e', Option.map_some, Option.map_eq_some_iff] at pending
      obtain ⟨c'', e'', same⟩ := pending
      exact ⟨c'', e'', same ▸ rest⟩
    · rintro ⟨r', c', e', eo, en, queued⟩
      rw [setters_withTrap e] at e'
      split at e'
      next same =>
        cases e'
        exact ⟨r, c, e, eo, en, queued⟩
      · exact ⟨r', c', e', eo, en, queued⟩
    · rintro ⟨r', c', e', eo, en, queued⟩
      by_cases same : r' = r
      · subst same
        rw [e] at e'
        cases e'
        exact ⟨r', _, (setters_withTrap e r').trans (if_pos rfl), eo, en, queued⟩
      · exact ⟨r', c', (setters_withTrap e r').trans ((if_neg same).trans e'), eo, en, queued⟩
  doubled o n := by
    rintro ⟨v, e'⟩
    rw [slot?_withTrap live] at e'
    split at e'
    · cases e'
    · exact ⟨v, e'⟩

theorem attentive_withTrap (a : w.Attentive) (located : w.Located) (e : w.setters.get? r = some c)
    (live : w.objects.contains c.object = true) :
    (w.withTrap r c.object c.property).Attentive := by
  have objects : ∀ o c', (w.withTrap r c.object c.property).objects.get? o = some c' →
      ∃ c₀, w.objects.get? o = some c₀ ∧ c₀.pending = c'.pending ∧ c₀.scheduled = c'.scheduled
        ∧ c₀.listeners = c'.listeners := by
    intro o c' e'
    have same := pending_withTrap (w := w) (r := r) c.object o c.property
    rw [e', Option.map_some, eq_comm, Option.map_eq_some_iff] at same
    obtain ⟨c₀, e₀, same⟩ := same
    simp only [Prod.mk.injEq] at same
    exact ⟨c₀, e₀, same⟩
  have objects' : ∀ o c₀, w.objects.get? o = some c₀ →
      ∃ c', (w.withTrap r c.object c.property).objects.get? o = some c'
        ∧ c'.listeners = c₀.listeners := by
    intro o c₀ e₀
    have same := pending_withTrap (w := w) (r := r) c.object o c.property
    rw [e₀, Option.map_some, Option.map_eq_some_iff] at same
    obtain ⟨c', e', same⟩ := same
    simp only [Prod.mk.injEq] at same
    exact ⟨c', e', same.2.2⟩
  have tunes := tunes_withTrap w r c.object c.property
  have setters := setters_withTrap e
  refine ⟨?_, ?_, ?_, ?_, ?_, ?_, ?_, ?_, ?_, a.tasks, ?_⟩
  · intro o c' t l e' m
    obtain ⟨c₀, e₀, -, -, same⟩ := objects o c' e'
    exact a.listener o c₀ t l e₀ (same ▸ m)
  · intro d dc t e' el
    obtain ⟨c₀, e₀, entries⟩ := a.listens d dc t e' el
    obtain ⟨c', e', same⟩ := objects' _ c₀ e₀
    exact ⟨c', e', same ▸ entries⟩
  · intro o n l at' some dispatched
    rw [tunes.leafAt?] at at'
    rw [tunes.audience] at some
    rw [tunes.isDispatched] at dispatched
    exact a.hearing o n l at' some dispatched
  · intro r' c' e' some
    rw [setters] at e'
    split at e'
    · cases e'
      rfl
    · exact a.trapping r' c' e' some
  · intro r' c' e'
    rw [setters] at e'
    split at e'
    · cases e'
      exact a.willing r c e
    · exact a.willing r' c' e'
  · intro o n r'
    rw [slot?_withTrap live, setters]
    by_cases same : r' = r
    · subst same
      rw [if_pos rfl]
      constructor
      · intro slot
        split at slot
        next both => exact ⟨_, rfl, both.1.symm, both.2.symm, rfl⟩
        next ne =>
          obtain ⟨c', e', eo, en, -⟩ := (a.trap o n r').1 slot
          rw [e] at e'
          cases e'
          exact absurd ⟨eo.symm, en.symm⟩ ne
      · rintro ⟨c', e', eo, en, -⟩
        cases e'
        rw [if_pos ⟨eo.symm, en.symm⟩]
    · rw [if_neg same, ← a.trap]
      by_cases both : o = c.object ∧ n = c.property
      · rw [if_pos both]
        refine ⟨fun e' => absurd (Slot.trap.inj (Option.some.inj e')).symm same, fun slot => ?_⟩
        -- two setters of one property are the same
        obtain ⟨c', e', eo, en, -⟩ := (a.trap o n r').1 slot
        have unique : ∀ r c', w.setters.get? r = some c' → c'.object = o → c'.property = n →
            w.leafAt? o n = some (.setter r) := by
          intro r c' e' eo en
          rcases located.unique o n (.setter r) (by simp [place?, e', eo, en]) with at' | ⟨_, e', -⟩
          · exact at'
          · cases e'
        have := (unique r' c' e' eo en).symm.trans (unique r c e both.1.symm both.2.symm)
        cases this
        exact absurd rfl same
      · rw [if_neg both]
  · intro o c' e'
    obtain ⟨c₀, e₀, -, same, -⟩ := objects o c' e'
    rw [← same]
    exact a.scheduled o c₀ e₀
  · intro o c' e' some
    obtain ⟨c₀, e₀, pending, scheduled, listeners⟩ := objects o c' e'
    rw [← scheduled, ← listeners]
    exact a.pending o c₀ e₀ (pending ▸ some)
  · intro r' c' e'
    rw [setters] at e'
    split at e'
    next same =>
      cases e'
      exact same ▸ a.queued r c e
    · exact a.queued r' c' e'
  · intro task m
    rcases a.known task m with ⟨o, e', live'⟩ | ⟨r', c', e', some⟩
    · exact .inl ⟨o, e', (tunes.contains o).trans live'⟩
    · refine .inr ?_
      by_cases same : r' = r
      · exact ⟨r', _, e', (setters r').trans (if_pos same)⟩
      · exact ⟨r', c', e', (setters r').trans ((if_neg same).trans some)⟩

end

end World

end ViewBinding
