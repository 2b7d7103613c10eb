import ViewBinding.Proofs.Leaf.Placeholder

/-!
# Leaf — the slots of an object

The properties of an object are changed by writing and removing them, and by the trap that the first
subscriber to a trapping observer installs.  Asking for observers, subscribing to any other observer
and disposing leave them alone, and more: whoever listens, an object is frozen or not as it was and the
same records wait (`substance`).  An object never has two properties of one name if it had none before
(`distinct_set`, `distinct_remove`).
-/

namespace ViewBinding

namespace World

variable {η : Type} {w : World η}

/-- The properties of an object with their slots, in the order of their making. -/
def slots (w : World η) (o : Ref .object) : List (String × Slot) :=
  ((w.objects.get? o).map (·.properties)).getD []

theorem slots_of_get? {o : Ref .object} {c : ObjectCell} (e : w.objects.get? o = some c) :
    w.slots o = c.properties := by
  simp only [slots, e, Option.map_some, Option.getD_some]

theorem slot?_eq (w : World η) (o : Ref .object) (n : String) :
    w.slot? o n = Entries.get? n (w.slots o) := by
  simp only [slot?, slots]
  cases w.objects.get? o <;> rfl

theorem names_eq (w : World η) (o : Ref .object) : w.names o = Entries.keys (w.slots o) := by
  simp only [names, slots]
  cases w.objects.get? o <;> rfl

/-- Where the slots are the same, so are the properties that are doubled. -/
theorem isDoubled_of_slots {w' : World η} {o : Ref .object} (same : w'.slots o = w.slots o)
    (n : String) : w'.IsDoubled o n ↔ w.IsDoubled o n := by
  simp only [IsDoubled, slot?_eq, same]

theorem slots_modifyObject (w : World η) (o o' : Ref .object) {f : ObjectCell → ObjectCell}
    (same : ∀ c, (f c).properties = c.properties) :
    (w.modifyObject o f).slots o' = w.slots o' := by
  simp only [slots, modifyObject, Store.get?_modify]
  split
  next is =>
    rw [is]
    cases w.objects.get? o <;> simp [same]
  · rfl

/-! ### Subscribing -/

/-- What an object is, whoever listens to it: its properties, whether it is frozen, and the records
that wait. -/
def substance (w : World η) (o : Ref .object) :
    Option (List (String × Slot) × Bool × List ChangeRecord) :=
  (w.objects.get? o).map fun c => (c.properties, c.frozen, c.pending)

theorem slots_of_substance {w' : World η} {o : Ref .object}
    (same : w'.substance o = w.substance o) : w'.slots o = w.slots o := by
  have eq : ∀ w : World η, w.slots o = ((w.substance o).map (·.1)).getD [] := fun w => by
    simp only [slots, substance, Option.map_map, Function.comp_def]
  rw [eq, eq, same]

theorem substance_startObserving (w : World η) (d : Ref .dispatcher) (o : Ref .object) :
    (w.startObserving d).substance o = w.substance o := by
  unfold startObserving
  split
  · rfl
  · split
    · rfl
    · exact Store.map_get?_modify _ _ _ fun _ => rfl

theorem substance_subscribeProperty (w : World η) (p : Ref .property) (sub : Subscriber)
    (o : Ref .object) : (w.subscribeProperty p sub).2.substance o = w.substance o := by
  unfold subscribeProperty
  dsimp only
  split
  · exact substance_startObserving _ _ o
  · rfl

theorem substance_foldl_moveParked (p : Ref .property) (u : Ref .placeholder) (o : Ref .object) :
    ∀ (parked : List Parked) (w : World η),
      (parked.foldl (moveParked p u) w).substance o = w.substance o
  | [], _ => rfl
  | q :: rest, w => (substance_foldl_moveParked p u o rest (moveParked p u w q)).trans
      (substance_subscribeProperty w p q.subscriber o)

theorem objects_afterCreation (w : World η) : w.afterCreation.objects = w.objects := by
  unfold afterCreation
  split <;> rfl

theorem objects_dispatcherObserver (w : World η) (d : Ref .dispatcher) (n : String) :
    (w.dispatcherObserver d n).2.objects = w.objects := by
  unfold dispatcherObserver
  split
  · rfl
  · split
    · rfl
    · dsimp only
      split <;> rfl

theorem substance_resolvePlaceholder (w : World η) (u : Ref .placeholder) (o : Ref .object) :
    (w.resolvePlaceholder u).substance o = w.substance o := by
  unfold resolvePlaceholder
  split
  · rfl
  next c _ =>
    split
    · rfl
    · have asked := congrArg (fun objects => Option.map
        (fun c : ObjectCell => (c.properties, c.frozen, c.pending)) (objects.get? o))
        (objects_dispatcherObserver (w.modifyDispatcher c.dispatcher fun d =>
          { d with observers := Entries.erase c.property d.observers }) c.dispatcher c.property)
      dsimp only
      split
      next e =>
        rw [e] at asked
        exact (substance_foldl_moveParked _ u o c.parked _).trans asked
      next e =>
        rw [e] at asked
        exact asked

theorem substance_park (w : World η) (u : Ref .placeholder) (sub : Subscriber) (o : Ref .object) :
    (w.park u sub).2.substance o = w.substance o := by
  unfold park
  split
  next c _ => exact substance_startObserving w c.dispatcher o
  · rfl

theorem substance_subscribePlaceholder (w : World η) (u : Ref .placeholder) (sub : Subscriber)
    (o : Ref .object) : (w.subscribePlaceholder u sub).2.substance o = w.substance o := by
  rw [subscribePlaceholder_eq]
  have resolved := substance_resolvePlaceholder w u o
  split
  · exact (substance_subscribeProperty _ _ sub o).trans resolved
  · exact (substance_park _ u sub o).trans resolved

theorem slots_subscribeProperty (w : World η) (p : Ref .property) (sub : Subscriber)
    (o : Ref .object) : (w.subscribeProperty p sub).2.slots o = w.slots o :=
  slots_of_substance (substance_subscribeProperty w p sub o)

theorem slots_resolvePlaceholder (w : World η) (u : Ref .placeholder) (o : Ref .object) :
    (w.resolvePlaceholder u).slots o = w.slots o :=
  slots_of_substance (substance_resolvePlaceholder w u o)

theorem slots_subscribePlaceholder (w : World η) (u : Ref .placeholder) (sub : Subscriber)
    (o : Ref .object) : (w.subscribePlaceholder u sub).2.slots o = w.slots o :=
  slots_of_substance (substance_subscribePlaceholder w u sub o)

/-! ### Disposing -/

/-- Ending a registration leaves objects alone, and no subscription is disposed by it. -/
theorem undoCallback_leaves (w : World η) (t : Token) (ob : Observer) :
    (w.undoCallback t ob).2.objects = w.objects ∧
      (w.undoCallback t ob).2.subscriptions = w.subscriptions := by
  cases ob with
  | leaf l =>
    cases l with
    | setter _ | property _ => exact ⟨rfl, rfl⟩
    | placeholder _ =>
      simp only [undoCallback]
      split <;> exact ⟨rfl, rfl⟩
    | contents _ =>
      simp only [undoCallback]
      split
      · exact ⟨rfl, rfl⟩
      · split
        · split <;> exact ⟨rfl, rfl⟩
        · exact ⟨rfl, rfl⟩
    | element _ | select _ | poll _ =>
      simp only [undoCallback]
      split
      · exact ⟨rfl, rfl⟩
      · split <;> exact ⟨rfl, rfl⟩
  | path _ | composite _ =>
    simp only [undoCallback]
    split
    · exact ⟨rfl, rfl⟩
    · split <;> exact ⟨rfl, rfl⟩

/-- What taking back keeps, disposing keeps if it survives the end of a subscription. -/
theorem disposeWithin_keeps {P : World η → Prop}
    (ended : ∀ w s, P w → P (w.modifySubscription s fun _ => ⟨none⟩))
    (undone : ∀ w d, P w → P (w.undo d).2) : ∀ (depth : Nat) (s : Ref .subscription) (w : World η),
      P w → P (disposeWithin depth s w)
  | 0, _, _, h => h
  | depth + 1, s, w, h => by
    unfold disposeWithin
    split
    · exact h
    next d _ =>
      dsimp only
      have taken := undone _ d (ended w s h)
      generalize ((w.modifySubscription s fun _ => ⟨none⟩).undo d).1 = more
      generalize ((w.modifySubscription s fun _ => ⟨none⟩).undo d).2 = w' at taken
      induction more generalizing w' with
      | nil => exact taken
      | cons s' rest ih => exact ih _ (disposeWithin_keeps ended undone depth s' w' taken)

theorem undo_keeps {P : World η → Prop} (callback : ∀ w t ob, P w → P (w.undoCallback t ob).2)
    (events : ∀ w e t, P w → P (w.unlistenEvents e t)) (w : World η) (d : Disposal) (h : P w) :
    P (w.undo d).2 := by
  cases d with
  | callback ob t => exact callback w t ob h
  | events e tokens =>
    change P (tokens.foldl (fun w t => w.unlistenEvents e t) w)
    induction tokens generalizing w with
    | nil => exact h
    | cons t rest ih => exact ih _ (events w e t h)

theorem slots_dispose (w : World η) (s : Ref .subscription) (o : Ref .object) :
    (w.dispose s).slots o = w.slots o := by
  have objects : (w.dispose s).objects = w.objects :=
    disposeWithin_keeps (P := fun w' => w'.objects = w.objects) (fun _ _ h => h)
      (undo_keeps (fun w' t ob h => (undoCallback_leaves w' t ob).1.trans h) fun _ _ _ h => h) _ s w rfl
  simp only [slots, objects]

/-- **A subscription that is disposed stays so**, whatever is disposed. -/
theorem disposed_dispose {s : Ref .subscription} (gone : w.subscriptions.get? s = some ⟨none⟩)
    (s' : Ref .subscription) : (w.dispose s').subscriptions.get? s = some ⟨none⟩ := by
  refine disposeWithin_keeps (P := fun w => w.subscriptions.get? s = some ⟨none⟩) (fun w s' h => ?_)
    (undo_keeps (fun w t ob h => ?_) fun _ _ _ h => h) _ s' w gone
  · simp only [modifySubscription, Store.get?_modify]
    split
    next is => rw [← is, h, Option.map_some]
    · exact h
  · exact (congrArg (·.get? s) (undoCallback_leaves w t ob).2).trans h

/-! ### Writing -/

/-- What nobody listens to is not recorded. -/
theorem record_of_unheard {o : Ref .object}
    (unheard : ∀ cell, w.objects.get? o = some cell → cell.listeners.isEmpty)
    (change : ChangeRecord) : w.record o change = w := by
  unfold record
  split
  · rfl
  next cell get => rw [if_pos (unheard cell get)]

theorem slots_record (w : World η) (o o' : Ref .object) (change : ChangeRecord) :
    (w.record o change).slots o' = w.slots o' := by
  unfold record
  split
  · rfl
  · split
    · rfl
    · dsimp only
      split <;> exact slots_modifyObject _ _ o' fun _ => rfl

/-- A write keeps what its parts keep: a write to the trap of the property, another slot in its place,
or a record. -/
theorem set_keeps {P : World η → Prop} {o : Ref .object} {n : String} {v : Value} (h : P w)
    (trap : ∀ r, w.slot? o n = some (.trap r) → P (w.writeTrap r v))
    (put : ∀ slot, (∀ r, w.slot? o n ≠ some (.trap r)) → (∀ r, slot ≠ .trap r) →
      P (w.putSlot o n slot))
    (record : ∀ w change, P w → P (w.record o change)) : P (w.set o n v) := by
  unfold set
  split
  · exact h
  · split
    next r slot => exact trap r slot
    next slot => exact put _ (by simp [slot]) nofun
    next slot =>
      split
      · exact h
      · exact record _ _ (put _ (by simp [slot]) nofun)
    next slot => exact record _ _ (put _ (by simp [slot]) nofun)

/-- So does a removal. -/
theorem remove_keeps {P : World η → Prop} {o : Ref .object} {n : String} (h : P w)
    (erase : P (w.modifyObject o fun c => { c with properties := Entries.erase n c.properties }))
    (record : ∀ w change, P w → P (w.record o change)) : P (w.remove o n).2 := by
  unfold remove
  split
  · exact h
  · split
    · exact h
    · exact record _ _ erase

theorem distinct_modifyObject {o : Ref .object} {f : List (String × Slot) → List (String × Slot)}
    (h : Entries.Distinct (w.slots o)) (o' : Ref .object)
    (kept : ∀ slots, Entries.Distinct slots → Entries.Distinct (f slots)) :
    Entries.Distinct ((w.modifyObject o' fun c => { c with properties := f c.properties }).slots o) := by
  simp only [slots, modifyObject, Store.get?_modify]
  split
  next same =>
    subst same
    cases e : w.objects.get? o with
    | none => exact List.nodup_nil
    | some c => exact kept _ (slots_of_get? e ▸ h)
  · exact h

theorem distinct_writeTrap {o : Ref .object} (h : Entries.Distinct (w.slots o)) (r : Ref .setter)
    (v : Value) : Entries.Distinct ((w.writeTrap r v).slots o) := by
  unfold writeTrap
  split
  · exact h
  · split
    · exact h
    · split <;> exact h

/-- Writing a property makes no second one of the name. -/
theorem distinct_set {o o' : Ref .object} (h : Entries.Distinct (w.slots o)) (n : String) (v : Value) :
    Entries.Distinct ((w.set o' n v).slots o) :=
  set_keeps (P := fun w => Entries.Distinct (w.slots o)) h (fun r _ => distinct_writeTrap h r v)
    (fun _ _ _ => distinct_modifyObject h o' fun _ => Entries.Distinct.put)
    fun w change h => by rwa [slots_record]

theorem distinct_remove {o o' : Ref .object} (h : Entries.Distinct (w.slots o)) (n : String) :
    Entries.Distinct ((w.remove o' n).2.slots o) :=
  remove_keeps (P := fun w => Entries.Distinct (w.slots o)) h
    (distinct_modifyObject h o' fun _ => Entries.Distinct.erase) fun w change h => by rwa [slots_record]

end World

end ViewBinding
