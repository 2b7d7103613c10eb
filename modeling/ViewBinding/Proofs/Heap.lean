import ViewBinding.Lookup

/-!
# Heap — the values that objects hold

`w.Holds w'` says that every object has the same values in `w'` as in `w`.  How a value is kept, in
a plain slot or behind a trap, does not matter for it.  Since the locations of values are named by
an object and a property, everything that a scope can see follows, provided that the objects have
the same properties too (`Holds.lookup`).
-/

namespace ViewBinding

namespace World

variable {η : Type} {w w' w'' : World η}

/-- The objects of `w'` have the values that they have in `w`. -/
structure Holds (w w' : World η) : Prop where
  get : ∀ o n, w'.get o n = w.get o n
  contains : ∀ o, w'.objects.contains o = w.objects.contains o
  isFrozen : ∀ o, w'.isFrozen o = w.isFrozen o

@[refl] theorem Holds.refl (w : World η) : w.Holds w :=
  ⟨fun _ _ => rfl, fun _ => rfl, fun _ => rfl⟩

theorem Holds.trans (h : w.Holds w') (h' : w'.Holds w'') : w.Holds w'' where
  get o n := (h'.get o n).trans (h.get o n)
  contains o := (h'.contains o).trans (h.contains o)
  isFrozen o := (h'.isFrozen o).trans (h.isFrozen o)

/-- Where objects and traps are the same, so are the values. -/
theorem Holds.of_eq (objects : w'.objects = w.objects) (setters : w'.setters = w.setters) :
    w.Holds w' := by
  refine ⟨fun o n => ?_, fun o => ?_, fun o => ?_⟩
  · have : ∀ s, w'.slotValue s = w.slotValue s := fun s => by cases s <;> simp [slotValue, setters]
    simp only [World.get, slot?, objects, this]
  all_goals simp only [World.isFrozen, objects]

/-- Where slots and what they stand for are the same, so are the values. -/
theorem get_congr (slots : ∀ o n, w'.slot? o n = w.slot? o n)
    (values : ∀ slot, w'.slotValue slot = w.slotValue slot) (o : Ref .object) (n : String) :
    w'.get o n = w.get o n := by
  simp only [World.get, slots, values]

/-- Where objects have the same properties, a name has the same owner. -/
theorem ownerOf_eq (has : ∀ o n, w'.has o n = w.has o n) (scope : Scope) (n : String) :
    w'.ownerOf scope n = w.ownerOf scope n := by
  have : w'.levelOwner? n = w.levelOwner? n := funext fun level => by
    simp only [World.levelOwner?, has]
  simp only [World.ownerOf, this]

theorem Holds.member (h : w.Holds w') (arrays : w'.arrays = w.arrays) (v : Value) (n : String) :
    w'.member v n = w.member v n := by
  cases v <;> simp only [World.member, h.get, World.length, World.item, arrays]

theorem Holds.lookup (h : w.Holds w') (has : ∀ o n, w'.has o n = w.has o n)
    (arrays : w'.arrays = w.arrays) (scope : Scope) (n : String) :
    w'.lookup scope n = w.lookup scope n := by
  simp only [World.lookup, ownerOf_eq has, h.member arrays]

/-! ### Objects that are changed in place -/

theorem has_eq_isSome (w : World η) (o : Ref .object) (n : String) :
    w.has o n = (w.slot? o n).isSome := rfl

theorem slot?_modifyObject_of_ne {o o' : Ref .object} (f : ObjectCell → ObjectCell) (n : String)
    (h : o' ≠ o) : (w.modifyObject o f).slot? o' n = w.slot? o' n := by
  simp [slot?, modifyObject, Store.get?_modify_of_ne f h]

/-- A change of an object that leaves its properties alone leaves every slot alone. -/
theorem slot?_modifyObject {o o' : Ref .object} {f : ObjectCell → ObjectCell} (n : String)
    (h : ∀ c, (f c).properties = c.properties) :
    (w.modifyObject o f).slot? o' n = w.slot? o' n := by
  by_cases e : o' = o
  · subst e
    simp only [slot?, modifyObject, Store.get?_modify_self]
    cases w.objects.get? o' <;> simp [h]
  · exact slot?_modifyObject_of_ne f n e

theorem slot?_putSlot (w : World η) (o o' : Ref .object) (n n' : String) (slot : Slot) :
    (w.putSlot o n slot).slot? o' n' =
      if o' = o ∧ n' = n ∧ w.objects.contains o then some slot else w.slot? o' n' := by
  by_cases e : o' = o
  · subst e
    simp only [slot?, putSlot, modifyObject, Store.get?_modify_self, Store.contains]
    cases w.objects.get? o' with
    | none => simp
    | some c =>
      by_cases m : n' = n
      · simp [m]
      · simp [m, Entries.get?_put_of_ne]
  · rw [if_neg fun h => e h.1]
    exact slot?_modifyObject_of_ne _ n' e

/-- What an object does not have is undefined. -/
theorem get_of_not_has {o : Ref .object} {n : String} (h : w.has o n = false) :
    w.get o n = .undefined := by
  cases slot : w.slot? o n with
  | none => simp only [World.get, slot]
  | some s => simp [World.has, slot] at h

theorem contains_of_slot? {o : Ref .object} {n : String} {slot : Slot}
    (h : w.slot? o n = some slot) : w.objects.contains o := by
  simp only [slot?] at h
  cases e : w.objects.get? o with
  | none => simp [e] at h
  | some c => simp [Store.contains, e]

@[simp] theorem contains_modifyObject (o o' : Ref .object) (f : ObjectCell → ObjectCell) :
    (w.modifyObject o f).objects.contains o' = w.objects.contains o' :=
  Store.contains_modify _ _ _ _

theorem isFrozen_modifyObject {o o' : Ref .object} {f : ObjectCell → ObjectCell}
    (h : ∀ c, (f c).frozen = c.frozen) : (w.modifyObject o f).isFrozen o' = w.isFrozen o' := by
  simp only [isFrozen, modifyObject, Store.get?_modify]
  split
  next e =>
    subst e
    cases w.objects.get? o' <;> simp [h]
  · rfl

/-- A change of an object that leaves its properties alone changes no value. -/
theorem Holds.modifyObject (w : World η) (o : Ref .object) {f : ObjectCell → ObjectCell}
    (properties : ∀ c, (f c).properties = c.properties) (frozen : ∀ c, (f c).frozen = c.frozen) :
    w.Holds (w.modifyObject o f) where
  get o' n := by
    have : ∀ s, (w.modifyObject o f).slotValue s = w.slotValue s := fun s => by cases s <;> rfl
    simp only [World.get, slot?_modifyObject n properties, this]
  contains o' := contains_modifyObject o o' f
  isFrozen o' := isFrozen_modifyObject frozen

end World

end ViewBinding
