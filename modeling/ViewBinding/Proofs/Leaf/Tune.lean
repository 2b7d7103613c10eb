import ViewBinding.Proofs.Leaf.Locate

/-!
# Leaf — changes beside the registrations

Writing to an object, delivering its changes and starting to listen to it all leave the leaves, who
is registered with them and the subscriptions as they are.  `w.Tunes w'` says that, and whatever
only speaks of leaves and registrations then stays true: the wiring of the locator, the
registrations, and every enrolment.
-/

namespace ViewBinding

namespace World

variable {η : Type} {w w' w'' : World η}

/-- `w'` has the leaves of `w`, and the locator hands them out as before. -/
structure Aligned (w w' : World η) : Prop where
  config : w'.config = w.config
  elements : ∀ e, w'.elements.contains e = w.elements.contains e
  arrays : w'.arrays = w.arrays
  locator : w'.locator = w.locator
  contains : ∀ o, w'.objects.contains o = w.objects.contains o
  isFrozen : ∀ o, w'.isFrozen o = w.isFrozen o
  dispatchers : ∀ d, (w'.dispatchers.get? d).map (fun c => (c.object, c.observers))
    = (w.dispatchers.get? d).map fun c => (c.object, c.observers)
  properties : ∀ r, (w'.properties.get? r).map (fun c => (c.object, c.dispatcher))
    = (w.properties.get? r).map fun c => (c.object, c.dispatcher)
  placeholders : ∀ r, (w'.placeholders.get? r).map (fun c => (c.object, c.dispatcher))
    = (w.placeholders.get? r).map fun c => (c.object, c.dispatcher)
  place? : ∀ l, w'.place? l = w.place? l
  successor? : ∀ l, w'.successor? l = w.successor? l

@[refl] theorem Aligned.refl (w : World η) : w.Aligned w :=
  ⟨rfl, fun _ => rfl, rfl, rfl, fun _ => rfl, fun _ => rfl, fun _ => rfl, fun _ => rfl, fun _ => rfl,
    fun _ => rfl, fun _ => rfl⟩

theorem Aligned.trans (h : w.Aligned w') (h' : w'.Aligned w'') : w.Aligned w'' where
  config := h'.config.trans h.config
  elements e := (h'.elements e).trans (h.elements e)
  arrays := h'.arrays.trans h.arrays
  locator := h'.locator.trans h.locator
  contains o := (h'.contains o).trans (h.contains o)
  isFrozen o := (h'.isFrozen o).trans (h.isFrozen o)
  dispatchers d := (h'.dispatchers d).trans (h.dispatchers d)
  properties r := (h'.properties r).trans (h.properties r)
  placeholders r := (h'.placeholders r).trans (h.placeholders r)
  place? l := (h'.place? l).trans (h.place? l)
  successor? l := (h'.successor? l).trans (h.successor? l)

namespace Aligned

theorem isDispatched (h : w.Aligned w') (o : Ref .object) :
    w'.isDispatched o = w.isDispatched o := by
  simp only [World.isDispatched, h.isFrozen, h.config]

/-- A dispatcher is still there, with its object and its observers. -/
theorem dispatcher (h : w.Aligned w') {d : Ref .dispatcher} {c : DispatcherCell}
    (e : w.dispatchers.get? d = some c) : ∃ c', w'.dispatchers.get? d = some c' ∧
      c'.object = c.object ∧ c'.observers = c.observers := by
  have same := h.dispatchers d
  rw [e, Option.map_some, Option.map_eq_some_iff] at same
  obtain ⟨c', e', same⟩ := same
  obtain ⟨eo, es⟩ := Prod.mk.inj same
  exact ⟨c', e', eo, es⟩

/-- A dispatcher was there before. -/
theorem dispatcher' (h : w.Aligned w') {d : Ref .dispatcher} {c' : DispatcherCell}
    (e : w'.dispatchers.get? d = some c') : ∃ c, w.dispatchers.get? d = some c ∧
      c'.object = c.object ∧ c'.observers = c.observers := by
  have same := (h.dispatchers d).symm
  rw [e, Option.map_some, Option.map_eq_some_iff] at same
  obtain ⟨c, e, same⟩ := same
  obtain ⟨eo, es⟩ := Prod.mk.inj same
  exact ⟨c, e, eo.symm, es.symm⟩

theorem leafAt? (h : w.Aligned w') (o : Ref .object) (n : String) :
    w'.leafAt? o n = w.leafAt? o n := by
  unfold World.leafAt?
  rw [h.isDispatched, h.locator]
  split
  · cases Entries.get? o w.locator.dispatchers with
    | none => rfl
    | some d =>
      have same := h.dispatchers d
      cases e : w.dispatchers.get? d with
      | none =>
        rw [e, Option.map_none, Option.map_eq_none_iff] at same
        simp only [same, e]
      | some c =>
        obtain ⟨c', e', -, es⟩ := h.dispatcher e
        simp only [e, e', es]
  · rfl

theorem fits (h : w.Aligned w') (o : Ref .object) (l : Leaf) : w'.Fits o l ↔ w.Fits o l := by
  cases l <;> simp only [Fits, h.isFrozen, h.config, h.isDispatched]

theorem located (h : w.Aligned w') (l : w.Located) : w'.Located where
  liveDispatchers := by simpa only [h.locator, h.contains] using l.liveDispatchers
  liveProperties := by simpa only [h.locator, h.contains] using l.liveProperties
  liveElements := by simpa only [h.locator, h.elements] using l.liveElements
  liveContents := by simpa only [h.locator, h.arrays] using l.liveContents
  dispatcher o d e := by
    rw [h.locator] at e
    obtain ⟨c, e₁, rfl⟩ := l.dispatcher o d e
    obtain ⟨c', e', eo, -⟩ := h.dispatcher e₁
    exact ⟨c', e', eo⟩
  found d c e := by
    obtain ⟨c₀, e₀, eo, es⟩ := h.dispatcher' e
    rw [h.locator, h.isDispatched, eo, es]
    exact l.found d c₀ e₀
  current o n leaf e := by
    rw [h.leafAt?] at e
    rw [h.place?, h.successor?, h.fits]
    exact l.current o n leaf e
  unique o n leaf e := by
    rw [h.place?] at e
    simp only [h.leafAt?, h.successor?]
    exact l.unique o n leaf e
  propertyHome r c e := by
    have same := (h.properties r).symm
    rw [e, Option.map_some, Option.map_eq_some_iff] at same
    obtain ⟨c₀, e₀, same⟩ := same
    obtain ⟨eo, ed⟩ := Prod.mk.inj same
    rw [h.locator, ← eo, ← ed]
    exact l.propertyHome r c₀ e₀
  placeholderHome r c e := by
    have same := (h.placeholders r).symm
    rw [e, Option.map_some, Option.map_eq_some_iff] at same
    obtain ⟨c₀, e₀, same⟩ := same
    obtain ⟨eo, ed⟩ := Prod.mk.inj same
    rw [h.locator, ← eo, ← ed]
    exact l.placeholderHome r c₀ e₀

end Aligned

/-! ### Tuning -/

/-- `w'` has the leaves, the registrations and the subscriptions of `w`. -/
structure Tunes (w w' : World η) : Prop extends Aligned w w' where
  audience : ∀ l, w'.audience l = w.audience l
  movedTo? : ∀ u t, w'.movedTo? u t = w.movedTo? u t
  subscriptions : w'.subscriptions = w.subscriptions
  nextToken : w.nextToken ≤ w'.nextToken

@[refl] theorem Tunes.refl (w : World η) : w.Tunes w :=
  ⟨.refl w, fun _ => rfl, fun _ _ => rfl, rfl, Nat.le_refl _⟩

theorem Tunes.trans (h : w.Tunes w') (h' : w'.Tunes w'') : w.Tunes w'' where
  toAligned := h.toAligned.trans h'.toAligned
  audience l := (h'.audience l).trans (h.audience l)
  movedTo? u t := (h'.movedTo? u t).trans (h.movedTo? u t)
  subscriptions := h'.subscriptions.trans h.subscriptions
  nextToken := Nat.le_trans h.nextToken h'.nextToken

namespace Tunes

theorem isMoved (h : w.Tunes w') (s : Ref .subscription) : w'.IsMoved s ↔ w.IsMoved s := by
  simp only [IsMoved, h.movedTo?]

theorem disposal? (h : w.Tunes w') (s : Ref .subscription) :
    w'.disposal? s = w.disposal? s := by
  simp only [World.disposal?, h.subscriptions]

theorem voice? (h : w.Tunes w') (s : Ref .subscription) : w'.voice? s = w.voice? s := by
  simp only [World.voice?, throughSuccessor?, directVoice?, h.disposal?, h.successor?, h.movedTo?]

theorem enrolled (h : w.Tunes w') {s : Ref .subscription} {o : Ref .object} {n : String}
    {sub : Subscriber} : w'.Enrolled s o n sub ↔ w.Enrolled s o n sub := by
  constructor <;> rintro ⟨own, heard⟩
  · refine ⟨fun m => own ((h.isMoved s).2 m), ?_⟩
    simpa only [h.voice?, h.leafAt?, h.audience] using heard
  · refine ⟨fun m => own ((h.isMoved s).1 m), ?_⟩
    simpa only [h.voice?, h.leafAt?, h.audience] using heard

theorem registered (h : w.Tunes w') (r : w.Registered) : w'.Registered where
  issued s ob t e := Nat.lt_of_lt_of_le (r.issued s ob t (h.disposal? s ▸ e)) h.nextToken
  alone s s' ob ob' t e e' := r.alone s s' ob ob' t (h.disposal? s ▸ e) (h.disposal? s' ▸ e')
  sorted l := h.audience l ▸ r.sorted l
  heard l t sub m := Nat.lt_of_lt_of_le (r.heard l t sub (h.audience l ▸ m)) h.nextToken
  unmoved u t e := (h.movedTo? u t).trans (r.unmoved u t (h.successor? _ ▸ e))
  moved u t s e := h.subscriptions ▸ r.moved u t s (h.movedTo? u t ▸ e)
  movedKind u t s d e v := r.movedKind u t s d (h.movedTo? u t ▸ e) (h.disposal? s ▸ v)
  movedAlone u u' t t' s e e' :=
    r.movedAlone u u' t t' s (h.movedTo? u t ▸ e) (h.movedTo? u' t' ▸ e')
  voiced o n l t sub e m := by
    obtain ⟨s, own, v⟩ := r.voiced o n l t sub (h.leafAt? o n ▸ e) (h.audience l ▸ m)
    exact ⟨s, fun e => own ((h.isMoved s).1 e), (h.voice? s).trans v⟩

end Tunes

end World

end ViewBinding
