import Mathlib.Data.Finset.Card
import Mathlib.Data.Finset.Union
import Mathlib.Logic.Relation
import ViewBinding.Proofs.Expr.Parts
import ViewBinding.Value.Document

/-!
# Coercion — values that contain themselves

A coercion looks into some values and then into the parts it finds there.  It passes from part to
part without remembering where it has been, so a way that comes back to a value goes round for ever.

`EndsWithin parts n v` says that no way from `v` is longer than `n`, and `Circular parts v` that
some way from `v` comes back to where it has been.  The two exclude each other
(`EndsWithin.not_circular`), and between them they leave nothing where only finitely many values
have parts: the ways from a value that is not circular are no longer than there are such values
(`endsWithin_of_not_circular`).

* `isSome_displayWithin`: a text follows the items of arrays.
* `isSome_toJsonWithin`: a document follows the items of arrays and the properties of objects.
-/

namespace ViewBinding

/-! ### Ways from part to part -/

section Ways

variable {α : Type} {parts : α → Option (List α)} {u v : α}

/-- Looking into a value and its parts reaches values that are not looked into within so many
steps. -/
def EndsWithin (parts : α → Option (List α)) : Nat → α → Prop
  | 0, v => parts v = none
  | n + 1, v => ∀ us, parts v = some us → ∀ u ∈ us, EndsWithin parts n u

/-- Looking into the one value finds the other. -/
def Finds (parts : α → Option (List α)) (v u : α) : Prop := ∃ us, parts v = some us ∧ u ∈ us

/-- Looking into a value and its parts comes back to where it has been. -/
def Circular (parts : α → Option (List α)) (v : α) : Prop :=
  ∃ u, Relation.ReflTransGen (Finds parts) v u ∧ Relation.TransGen (Finds parts) u u

theorem endsWithin_of_none (h : parts v = none) (n : Nat) : EndsWithin parts n v := by
  cases n with
  | zero => exact h
  | succ n => intro us is; rw [h] at is; cases is

theorem EndsWithin.found {n : Nat} (h : EndsWithin parts n v) (found : Finds parts v u) :
    ∃ m, n = m + 1 ∧ EndsWithin parts m u := by
  obtain ⟨us, is, mem⟩ := found
  cases n with
  | zero => rw [EndsWithin.eq_1, is] at h; cases h
  | succ m => exact ⟨m, rfl, h us is u mem⟩

theorem EndsWithin.acc {n : Nat} (h : EndsWithin parts n v) :
    Acc (fun u v => Finds parts v u) v := by
  induction n generalizing v with
  | zero =>
    refine ⟨_, fun u found => ?_⟩
    obtain ⟨m, eq, -⟩ := h.found found
    cases eq
  | succ n ih =>
    refine ⟨_, fun u found => ?_⟩
    obtain ⟨m, eq, ends⟩ := h.found found
    cases eq
    exact ih ends

theorem not_rel_self {r : α → α → Prop} (h : Acc r v) : ¬ r v v := by
  induction h with
  | intro v _ ih => exact fun back => ih v back back

/-- What is made of finitely many values does not come back to itself. -/
theorem not_circular_of_acc (acc : Acc (fun u v => Finds parts v u) v) : ¬ Circular parts v := by
  rintro ⟨u, reached, round⟩
  have back : Relation.TransGen (fun u v => Finds parts v u) u u :=
    Relation.transGen_swap.1 round
  have accU : Acc (fun u v => Finds parts v u) u := by
    clear round back
    induction reached with
    | refl => exact acc
    | tail _ found ih => exact ih.inv found
  exact not_rel_self accU.transGen back

/-- Where every way ends, none comes back. -/
theorem EndsWithin.not_circular {n : Nat} (h : EndsWithin parts n v) : ¬ Circular parts v :=
  not_circular_of_acc h.acc

theorem Circular.of_finds (found : Finds parts v u) (h : Circular parts u) : Circular parts v := by
  obtain ⟨t, reached, round⟩ := h
  exact ⟨t, .head found reached, round⟩

/-- **Ways that never come back are short**: each of their values but the last has parts, and none of
them comes twice. -/
theorem endsWithin_of_not_circular [DecidableEq α] (ahead : Finset α)
    (all : ∀ u, Relation.ReflTransGen (Finds parts) v u → (∃ t, Finds parts u t) → u ∈ ahead)
    (h : ¬ Circular parts v) : EndsWithin parts (ahead.card + 1) v := by
  generalize size : ahead.card = n
  induction n generalizing v ahead with
  | zero =>
    intro us is u mem
    have : v ∈ ahead := all v .refl ⟨u, us, is, mem⟩
    rw [Finset.card_eq_zero.1 size] at this
    exact absurd this (Finset.notMem_empty v)
  | succ n ih =>
    intro us is u mem
    have found : Finds parts v u := ⟨us, is, mem⟩
    have here : v ∈ ahead := all v .refl ⟨u, found⟩
    -- What comes later is not `v` again, so `v` may be crossed out.
    refine ih (ahead.erase v) (fun t reached finds => ?_)
      (fun circular => h (circular.of_finds found)) (by rw [Finset.card_erase_of_mem here, size]; rfl)
    refine Finset.mem_erase.2 ⟨?_, all t (.head found reached) finds⟩
    rintro rfl
    exact h ⟨t, .refl, .head' found reached⟩

theorem EndsWithin.mono {n m : Nat} (h : EndsWithin parts n v) (le : n ≤ m) :
    EndsWithin parts m v := by
  induction n generalizing v m with
  | zero => exact endsWithin_of_none h m
  | succ n ih =>
    obtain ⟨m, rfl⟩ := Nat.exists_eq_add_one_of_ne_zero (by omega : m ≠ 0)
    exact fun us is u mem => ih (h us is u mem) (by omega)

end Ways

@[simp] theorem isSome_mapM {α β : Type} {f : α → Option β} {xs : List α} :
    (xs.mapM f).isSome ↔ ∀ x ∈ xs, (f x).isSome := by
  induction xs with
  | nil => simp
  | cons x xs ih =>
    rw [List.forall_mem_cons, ← ih, List.mapM_cons]
    cases f x <;> cases xs.mapM f <;> simp

@[simp] theorem isSome_bind_some {α β : Type} {x : Option α} {f : α → β} :
    (x.bind fun a => some (f a)).isSome = x.isSome := by
  cases x <;> rfl

namespace World

variable {η : Type} {w : World η}

/-! ### Texts -/

/-- What the text of a value is made from, if it is made from other values. -/
def textParts (w : World η) : Value → Option (List Value)
  | .array a => some (w.items a)
  | _ => none

theorem isSome_displayWithin (w : World η) (n : Nat) (v : Value) :
    (w.displayWithin n v).isSome ↔ EndsWithin w.textParts n v := by
  induction n generalizing v with
  | zero => cases v <;> simp [displayWithin, EndsWithin, textParts]
  | succ n ih =>
    cases v with
    | array a =>
      have item : ∀ u : Value, (if u.isNullish then some "" else w.displayWithin n u).isSome ↔
          EndsWithin w.textParts n u := fun u => by
        split
        next nullish =>
          have : w.textParts u = none := by cases u <;> simp_all [Value.isNullish, textParts]
          simp [endsWithin_of_none this]
        · exact ih u
      simp [displayWithin, EndsWithin, textParts, item]
    | _ => simp [displayWithin, EndsWithin, textParts]

/-- The values that arrays of a world are. -/
def arrayValues (w : World η) : Finset Value :=
  (Finset.range w.arrays.size).image fun i => .array ⟨i⟩

theorem card_arrayValues_le (w : World η) : w.arrayValues.card ≤ w.arrays.size :=
  Finset.card_image_le.trans (Finset.card_range _).le

theorem mem_arrayValues {a : Ref .array} {v : Value} (h : v ∈ w.items a) :
    .array a ∈ w.arrayValues := by
  cases get : w.arrays.get? a with
  | none => simp [items, get] at h
  | some cell =>
    exact Finset.mem_image.2 ⟨a.index, Finset.mem_range.2 (Store.index_lt_size_of_get? get), rfl⟩

/-- **A value has a text exactly if no array that the text is made from contains itself.** -/
theorem isSome_display?_iff (w : World η) (v : Value) :
    (w.display? v).isSome ↔ ¬ Circular w.textParts v := by
  refine (isSome_displayWithin w _ v).trans ⟨EndsWithin.not_circular, fun h => ?_⟩
  refine (endsWithin_of_not_circular w.arrayValues ?_ h).mono
    (Nat.succ_le_succ w.card_arrayValues_le)
  rintro u - ⟨t, us, is, mem⟩
  cases u with
  | array a => cases is; exact mem_arrayValues mem
  | _ => cases is

/-! ### Documents -/

/-- What the document of a value is made from, if it is made from other values. -/
def documentParts (w : World η) : Value → Option (List Value)
  | .array a => some (w.items a)
  | .object o => some ((w.names o).map (w.get o))
  | _ => none

theorem isSome_toJsonWithin (w : World η) (n : Nat) (v : Value) :
    (w.toJsonWithin n v).isSome ↔ EndsWithin w.documentParts n v := by
  induction n generalizing v with
  | zero => cases v <;> simp [toJsonWithin, EndsWithin, documentParts]
  | succ n ih =>
    cases v <;> simp [toJsonWithin, EndsWithin, documentParts, ih]

/-- The values that objects of a world are. -/
def objectValues (w : World η) : Finset Value :=
  (Finset.range w.objects.size).image fun i => .object ⟨i⟩

theorem card_objectValues_le (w : World η) : w.objectValues.card ≤ w.objects.size :=
  Finset.card_image_le.trans (Finset.card_range _).le

theorem mem_objectValues {o : Ref .object} {name : String} (h : name ∈ w.names o) :
    .object o ∈ w.objectValues := by
  cases get : w.objects.get? o with
  | none => simp [names, get] at h
  | some cell =>
    exact Finset.mem_image.2 ⟨o.index, Finset.mem_range.2 (Store.index_lt_size_of_get? get), rfl⟩

/-- **A value has a document exactly if no array or object that the document is made from contains
itself.** -/
theorem isSome_toJson?_iff (w : World η) (v : Value) :
    (w.toJson? v).isSome ↔ ¬ Circular w.documentParts v := by
  refine (isSome_toJsonWithin w _ v).trans ⟨EndsWithin.not_circular, fun h => ?_⟩
  have ends : EndsWithin w.documentParts ((w.arrayValues ∪ w.objectValues).card + 1) v := by
    refine endsWithin_of_not_circular _ ?_ h
    rintro u - ⟨t, us, is, mem⟩
    cases u with
    | array a => cases is; exact Finset.mem_union_left _ (mem_arrayValues mem)
    | object o =>
      cases is
      obtain ⟨name, listed, -⟩ := List.mem_map.1 mem
      exact Finset.mem_union_right _ (mem_objectValues listed)
    | _ => cases is
  exact ends.mono (Nat.succ_le_succ ((Finset.card_union_le _ _).trans
    (Nat.add_le_add w.card_arrayValues_le w.card_objectValues_le)))

end World

end ViewBinding
