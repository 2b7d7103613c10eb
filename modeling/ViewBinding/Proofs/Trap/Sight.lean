import Mathlib.Logic.Function.Basic
import ViewBinding.Proofs.Leaf.Slots
import ViewBinding.Proofs.Leaf.Write

/-!
# Trap — how an object looks

Whoever has an object sees the names of its properties in their order, the value of each and whether
writing it stores what is written, and whether the object is frozen: its `Sight`.  A trap cannot be
told from a plain value by that.

Writing, removing and freezing change the sight of an object in a way that the sight itself determines,
and that of no other object (`sight?_set`, `sight?_remove`, `sight?_freeze`), provided that every trap
is at the place of its observer (`Housed`).
-/

namespace ViewBinding

/-- What there is to see of a property: a value that is as it was written, or one that is doubled. -/
inductive Seen where
  | plain (v : Value)
  | doubled (v : Value)

/-- The value that is read. -/
def Seen.value : Seen → Value
  | .plain v => v
  | .doubled v => v

/-- What there is to see after a write.  Writing what is there changes nothing. -/
def Seen.afterWrite (v : Value) : Option Seen → Seen
  | none => .plain v
  | some (.plain u) => .plain (if u.same v then u else v)
  | some (.doubled _) => .doubled (.number (v.toNumber * 2.0))

/-- What there is to see of an object. -/
structure Sight where
  names : List String
  seen : String → Option Seen
  frozen : Bool

namespace Sight

/-- With something to see of a property, which is the last one if there was none of the name. -/
def put (S : Sight) (n : String) (seen : Seen) : Sight :=
  { S with
    names := if n ∈ S.names then S.names else S.names ++ [n]
    seen := Function.update S.seen n (some seen) }

/-- After a write. -/
def write (S : Sight) (n : String) (v : Value) : Sight :=
  if S.frozen then S else S.put n (Seen.afterWrite v (S.seen n))

/-- After a removal. -/
def remove (S : Sight) (n : String) : Sight :=
  if S.frozen then S
  else { S with names := S.names.erase n, seen := Function.update S.seen n none }

/-- To see what is seen anyway changes nothing. -/
theorem put_eq_self {S : Sight} {n : String} {seen : Seen} (named : n ∈ S.names)
    (is : S.seen n = some seen) : S.put n seen = S := by
  rw [put, if_pos named, ← is, Function.update_eq_self]

end Sight

namespace World

variable {η : Type} {w w' : World η} {o o' : Ref .object} {n : String} {r : Ref .setter}

/-- What a slot lets see. -/
def shows (w : World η) : Slot → Seen
  | .data v => .plain v
  | .trap r => .plain (w.slotValue (.trap r))
  | .doubled v => .doubled v

/-- What there is to see of an object, unless it is gone. -/
def sight? (w : World η) (o : Ref .object) : Option Sight :=
  if w.objects.contains o then
    some ⟨w.names o, fun n => (w.slot? o n).map w.shows, w.isFrozen o⟩
  else none

/-- The place of a trapping observer and, once its trap is installed, the value that it keeps. -/
def kept? (w : World η) (r : Ref .setter) : Option (Ref .object × String × Option Value) :=
  (w.setters.get? r).map fun cell =>
    (cell.object, cell.property, if cell.observing then some cell.current else none)

/-- Every trap is at the place of its observer, and no object has two properties of one name. -/
structure Housed (w : World η) : Prop where
  home : ∀ o n r, w.slot? o n = some (.trap r) → ∃ v, w.kept? r = some (o, n, some v)
  distinct : ∀ o, Entries.Distinct (w.slots o)

theorem Housed.setter (h : w.Housed) (slot : w.slot? o n = some (.trap r)) :
    ∃ cell, w.setters.get? r = some cell ∧ cell.object = o ∧ cell.property = n ∧
      cell.observing = true := by
  obtain ⟨v, kept⟩ := h.home o n r slot
  obtain ⟨cell, there, is⟩ := Option.map_eq_some_iff.1 kept
  simp only [Prod.mk.injEq] at is
  obtain ⟨rfl, rfl, is⟩ := is
  refine ⟨cell, there, rfl, rfl, ?_⟩
  cases observing : cell.observing with
  | true => rfl
  | false => simp [observing] at is

/-! ### Reading -/

theorem value_shows (w : World η) (slot : Slot) : (w.shows slot).value = w.slotValue slot := by
  cases slot <;> rfl

/-- An object that is gone has left nothing. -/
theorem get?_of_gone (gone : ¬ w.objects.contains o) : w.objects.get? o = none := by
  simpa [Store.contains] using gone

theorem seen_of_sight (w : World η) (o : Ref .object) (n : String) :
    (w.slot? o n).map w.shows = (w.sight? o).bind (·.seen n) := by
  unfold sight?
  split
  · rfl
  next gone => simp [slot?, get?_of_gone gone]

theorem get_of_sight (w : World η) (o : Ref .object) (n : String) :
    w.get o n = (((w.sight? o).bind (·.seen n)).map Seen.value).getD .undefined := by
  rw [← seen_of_sight, get]
  cases w.slot? o n with
  | none => rfl
  | some slot => exact (w.value_shows slot).symm

theorem has_of_sight (w : World η) (o : Ref .object) (n : String) :
    w.has o n = ((w.sight? o).bind (·.seen n)).isSome := by
  rw [← seen_of_sight, has, Option.isSome_map]

theorem names_of_sight (w : World η) (o : Ref .object) :
    w.names o = ((w.sight? o).map (·.names)).getD [] := by
  unfold sight?
  split
  · rfl
  next gone =>
    rw [names, get?_of_gone gone]
    rfl

theorem isFrozen_of_sight (w : World η) (o : Ref .object) :
    w.isFrozen o = ((w.sight? o).map (·.frozen)).getD false := by
  unfold sight?
  split
  · rfl
  next gone =>
    rw [isFrozen, get?_of_gone gone]
    rfl

theorem mem_names_iff : n ∈ w.names o ↔ (w.slot? o n).isSome := by
  rw [names_eq, slot?_eq]
  exact Entries.mem_keys_iff

/-! ### Writing -/

/-- An object whose slots are the same, and let see the same, looks the same. -/
theorem sight?_congr (contains : w'.objects.contains o = w.objects.contains o)
    (slots : w'.slots o = w.slots o) (frozen : w'.isFrozen o = w.isFrozen o)
    (seen : ∀ n slot, w.slot? o n = some slot → w'.shows slot = w.shows slot) :
    w'.sight? o = w.sight? o := by
  have same : ∀ n, (w'.slot? o n).map w'.shows = (w.slot? o n).map w.shows := fun n => by
    have slot : w'.slot? o n = w.slot? o n := by rw [slot?_eq, slot?_eq, slots]
    rw [slot]
    cases is : w.slot? o n with
    | none => rfl
    | some s => exact congrArg some (seen n s is)
  simp only [sight?, contains, names_eq, slots, frozen, same]

/-- Where traps have the same values, slots let see the same. -/
theorem shows_congr (same : ∀ r, w'.slotValue (.trap r) = w.slotValue (.trap r)) (slot : Slot) :
    w'.shows slot = w.shows slot := by
  cases slot with
  | trap r => exact congrArg Seen.plain (same r)
  | _ => rfl

theorem sight?_record (w : World η) (o o' : Ref .object) (change : ChangeRecord) :
    (w.record o change).sight? o' = w.sight? o' := by
  have slots := slots_record w o o' change
  obtain same | ⟨queue, made⟩ := w.record_cases o change
  · rw [same]
  · rw [made] at slots ⊢
    exact sight?_congr (contains_modifyObject o o' _) slots (isFrozen_modifyObject fun _ => rfl)
      fun n slot _ => shows_congr (fun _ => rfl) slot

/-- Changes of one object do not show in another. -/
theorem sight?_modifyObject_of_ne (f : ObjectCell → ObjectCell) (other : o' ≠ o) :
    (w.modifyObject o f).sight? o' = w.sight? o' := by
  have get : (w.modifyObject o f).objects.get? o' = w.objects.get? o' :=
    Store.get?_modify_of_ne f other
  refine sight?_congr (contains_modifyObject o o' f) ?_ ?_ fun n slot _ =>
    shows_congr (fun _ => rfl) slot
  · rw [slots, slots, get]
  · rw [isFrozen, isFrozen, get]

theorem sight?_putSlot (w : World η) (o : Ref .object) (n : String) (slot : Slot) :
    (w.putSlot o n slot).sight? o = (w.sight? o).map (·.put n (w.shows slot)) := by
  unfold sight?
  rw [show (w.putSlot o n slot).objects.contains o = w.objects.contains o from
    contains_modifyObject o o _]
  split
  next live =>
    have seen : ∀ s, (w.putSlot o n slot).shows s = w.shows s := shows_congr fun _ => rfl
    have names : (w.putSlot o n slot).names o =
        if n ∈ w.names o then w.names o else w.names o ++ [n] := by
      obtain ⟨cell, get⟩ := Option.isSome_iff_exists.1 live
      simp only [World.names, putSlot, modifyObject, Store.get?_modify_self, get, Option.map_some,
        Option.getD_some]
      exact Entries.keys_put n slot _
    simp only [Option.map_some, Sight.put, names, Option.some.injEq, Sight.mk.injEq, true_and]
    refine ⟨funext fun m => ?_, isFrozen_modifyObject fun _ => rfl⟩
    rw [slot?_putSlot, Function.update_apply]
    by_cases same : m = n
    · rw [if_pos ⟨rfl, same, live⟩, if_pos same, Option.map_some, seen]
    · rw [if_neg fun h => same h.2.1, if_neg same, funext seen]
  · rfl

/-- A write to a trap shows at the place of its observer, and nowhere else. -/
theorem sight?_writeTrap (housed : w.Housed) (slot : w.slot? o n = some (.trap r)) (v : Value)
    (o' : Ref .object) : (w.writeTrap r v).sight? o' =
      if o' = o then (w.sight? o).map (·.put n (Seen.afterWrite v ((w.slot? o n).map w.shows)))
      else w.sight? o' := by
  obtain ⟨cell, there, rfl, rfl, -⟩ := housed.setter slot
  have live : w.objects.contains cell.object = true := contains_of_slot? slot
  have named : cell.property ∈ w.names cell.object :=
    mem_names_iff.2 (by rw [slot]; rfl)
  have value : (w.slot? cell.object cell.property).map w.shows = some (.plain cell.current) := by
    simp only [slot, shows, slotValue, there, Option.map_some, Option.getD_some]
  rw [writeTrap_eq there]
  split
  next same =>
    split
    next is =>
      subst is
      rw [value, Seen.afterWrite, if_pos same, sight?, if_pos live]
      exact congrArg some (Sight.put_eq_self named value).symm
    · rfl
  next differs =>
    have traps : ∀ r', (w.withCurrent r v (!cell.queued)).slotValue (.trap r') =
        if r' = r then v else w.slotValue (.trap r') := fun r' => by
      simp only [slotValue, setters_withCurrent there]
      split <;> rfl
    have elsewhere : ∀ o' n' r', w.slot? o' n' = some (.trap r') →
        ¬ (o' = cell.object ∧ n' = cell.property) → r' ≠ r := by
      rintro o' n' r' slot' other rfl
      obtain ⟨cell', there', object, property, -⟩ := housed.setter slot'
      rw [there] at there'
      cases there'
      exact other ⟨object.symm, property.symm⟩
    have seen : ∀ o' n' s, w.slot? o' n' = some s → ¬ (o' = cell.object ∧ n' = cell.property) →
        (w.withCurrent r v (!cell.queued)).shows s = w.shows s := by
      intro o' n' s slot' other
      cases s with
      | trap r' =>
        simp only [World.shows, traps, if_neg (elsewhere o' n' r' slot' other)]
      | _ => rfl
    split
    next is =>
      subst is
      have contains : (w.withCurrent r v (!cell.queued)).objects.contains cell.object = true := live
      rw [value, Seen.afterWrite, if_neg differs, sight?, sight?, if_pos live, if_pos contains,
        Option.map_some, Sight.put, if_pos named]
      refine congrArg some ((Sight.mk.injEq ..).mpr ⟨rfl, funext fun m => ?_, rfl⟩)
      change (w.slot? cell.object m).map _ = _
      rw [Function.update_apply]
      split
      next is =>
        rw [is, slot, Option.map_some, World.shows, traps, if_pos rfl]
      next other =>
        change (w.slot? cell.object m).map _ = (w.slot? cell.object m).map _
        cases slot' : w.slot? cell.object m with
        | none => rfl
        | some s => exact congrArg some (seen _ m s slot' fun both => other both.2)
    next other =>
      exact sight?_congr rfl rfl rfl fun n' s slot' => seen o' n' s slot' fun both => other both.1

/-- What a write leaves to see of an object that is not frozen. -/
theorem map_write (unfrozen : w.isFrozen o = false) (n : String) (v : Value) :
    (w.sight? o).map (·.write n v) =
      (w.sight? o).map (·.put n (Seen.afterWrite v ((w.slot? o n).map w.shows))) := by
  unfold sight?
  split
  · rw [Option.map_some, Option.map_some, Sight.write, unfrozen, if_neg Bool.false_ne_true]
  · rfl

/-- What is written to a frozen object leaves the same to see. -/
theorem map_write_of_isFrozen (frozen : w.isFrozen o = true) (n : String) (v : Value) :
    (w.sight? o).map (·.write n v) = w.sight? o := by
  unfold sight?
  split
  · rw [Option.map_some, Sight.write, if_pos frozen]
  · rfl

/-- **A write** changes the sight of its object. -/
theorem sight?_set (housed : w.Housed) (o : Ref .object) (n : String) (v : Value)
    (o' : Ref .object) : (w.set o n v).sight? o' =
      if o' = o then (w.sight? o).map (·.write n v) else w.sight? o' := by
  have put : ∀ slot, w.isFrozen o = false →
      w.shows slot = Seen.afterWrite v ((w.slot? o n).map w.shows) →
      (w.putSlot o n slot).sight? o' =
        if o' = o then (w.sight? o).map (·.write n v) else w.sight? o' := by
    intro slot unfrozen is
    split
    next same => rw [same, sight?_putSlot, map_write unfrozen, is]
    next other => exact sight?_modifyObject_of_ne _ other
  unfold set
  split
  next frozen =>
    rw [map_write_of_isFrozen frozen]
    split
    next same => rw [same]
    · rfl
  next thawed =>
    have unfrozen : w.isFrozen o = false := by simpa using thawed
    split
    next r slot => rw [sight?_writeTrap housed slot, map_write unfrozen]
    next u slot => exact put _ unfrozen (by rw [slot]; rfl)
    next u slot =>
      have seen : (w.slot? o n).map w.shows = some (.plain u) := by rw [slot]; rfl
      split
      next same =>
        split
        next is =>
          subst is
          have live := contains_of_slot? slot
          rw [map_write unfrozen, seen, Seen.afterWrite, if_pos same, sight?, if_pos live]
          exact congrArg some
            (Sight.put_eq_self (mem_names_iff.2 (by rw [slot]; rfl)) seen).symm
        · rfl
      next differs =>
        rw [sight?_record]
        exact put _ unfrozen (by rw [seen, Seen.afterWrite, if_neg differs]; rfl)
    next slot =>
      rw [sight?_record]
      exact put _ unfrozen (by rw [slot]; rfl)

/-- Removing a property. -/
theorem sight?_remove (housed : w.Housed) (o : Ref .object) (n : String) (o' : Ref .object) :
    (w.remove o n).2.sight? o' =
      if o' = o then (w.sight? o).map (·.remove n) else w.sight? o' := by
  unfold remove
  split
  next frozen =>
    split
    next same =>
      subst same
      unfold sight?
      split
      · rw [Option.map_some, Sight.remove, if_pos frozen]
      · rfl
    · rfl
  next thawed =>
    split
    next slot =>
      split
      next same =>
        subst same
        unfold sight?
        split
        · have absent : n ∉ w.names o' := fun m => by simp [slot, mem_names_iff] at m
          rw [Option.map_some, Sight.remove, if_neg thawed, List.erase_of_not_mem absent,
            Function.update_eq_self_iff.2 (congrArg (Option.map w.shows) slot).symm]
        · rfl
      · rfl
    next s slot =>
      rw [sight?_record]
      split
      next same =>
        subst same
        have live : w.objects.contains o' = true := contains_of_slot? slot
        obtain ⟨cell, get⟩ := Option.isSome_iff_exists.1 live
        let f (cell : ObjectCell) := { cell with properties := Entries.erase n cell.properties }
        have erased : (w.modifyObject o' f).slots o' = Entries.erase n (w.slots o') := by
          simp only [slots, modifyObject, Store.get?_modify_self, get, Option.map_some,
            Option.getD_some, f]
        have contains : (w.modifyObject o' f).objects.contains o' = true :=
          (contains_modifyObject o' o' f).trans live
        rw [sight?, sight?, if_pos live, if_pos contains, Option.map_some, Sight.remove, if_neg thawed]
        refine congrArg some ((Sight.mk.injEq ..).mpr ⟨?_, funext fun m => ?_, ?_⟩)
        · rw [names_eq, names_eq, erased, Entries.keys_erase]
        · rw [slot?_eq, erased, Function.update_apply]
          split
          next is =>
            rw [is, (housed.distinct o').get?_erase_self]
            rfl
          next other =>
            rw [Entries.get?_erase_of_ne _ other, ← slot?_eq]
            exact congrArg (Option.map · _) (funext (shows_congr fun _ => rfl))
        · exact isFrozen_modifyObject fun _ => rfl
      next other => exact sight?_modifyObject_of_ne _ other

/-- Freezing an object. -/
theorem sight?_freeze (w : World η) (o o' : Ref .object) : (w.freeze o).sight? o' =
    if o' = o then (w.sight? o).map ({ · with frozen := true }) else w.sight? o' := by
  split
  next same =>
    subst same
    unfold sight?
    rw [show (w.freeze o').objects.contains o' = w.objects.contains o' from
      contains_modifyObject o' o' _]
    split
    next live =>
      obtain ⟨cell, get⟩ := Option.isSome_iff_exists.1 live
      have frozen : (w.freeze o').isFrozen o' = true := by
        simp only [isFrozen, freeze, modifyObject, Store.get?_modify_self, get, Option.map_some,
          Option.getD_some]
      have slots : (w.freeze o').slots o' = w.slots o' := slots_modifyObject w o' o' fun _ => rfl
      simp only [Option.map_some, names_eq, slot?_eq, slots, frozen, Option.some.injEq,
        Sight.mk.injEq, and_true, true_and]
      exact funext fun m => congrArg (Option.map · _) (funext (shows_congr fun _ => rfl))
    · rfl
  next other => exact sight?_modifyObject_of_ne _ other

end World

end ViewBinding
