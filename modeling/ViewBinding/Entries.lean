/-!
# Entries — values by key, in the order of their first insertion

The entries of a list of pairs, where every key occurs at most once as long as only `put` and
`erase` build the list.
-/

namespace ViewBinding

namespace Entries

variable {κ α : Type} [DecidableEq κ]

/-- The value of a key. -/
def get? (key : κ) : List (κ × α) → Option α
  | [] => none
  | (k, a) :: rest => if k = key then some a else get? key rest

/-- Whether a key has a value. -/
def has (key : κ) (entries : List (κ × α)) : Bool := (get? key entries).isSome

/-- Gives a key a value.  A key that has one keeps its place, another goes to the end. -/
def put (key : κ) (a : α) : List (κ × α) → List (κ × α)
  | [] => [(key, a)]
  | (k, b) :: rest => if k = key then (k, a) :: rest else (k, b) :: put key a rest

/-- Takes the value of a key away. -/
def erase (key : κ) : List (κ × α) → List (κ × α)
  | [] => []
  | (k, a) :: rest => if k = key then rest else (k, a) :: erase key rest

/-- The keys in their order. -/
def keys (entries : List (κ × α)) : List κ := entries.map (·.1)

@[simp] theorem get?_put_self (key : κ) (a : α) (entries : List (κ × α)) :
    get? key (put key a entries) = some a := by
  induction entries with
  | nil => simp [put, get?]
  | cons p rest ih => by_cases h : p.1 = key <;> simp [put, get?, h, ih]

theorem get?_put_of_ne {key other : κ} (a : α) (entries : List (κ × α)) (h : other ≠ key) :
    get? other (put key a entries) = get? other entries := by
  induction entries with
  | nil => simp [put, get?, Ne.symm h]
  | cons p rest ih =>
    by_cases hp : p.1 = key
    · simp [put, get?, hp, Ne.symm h]
    · by_cases hq : p.1 = other <;> simp [put, get?, hp, hq, ih, h]

theorem get?_erase_of_ne {key other : κ} (entries : List (κ × α)) (h : other ≠ key) :
    get? other (erase key entries) = get? other entries := by
  induction entries with
  | nil => rfl
  | cons p rest ih =>
    by_cases hp : p.1 = key
    · simp [erase, get?, hp, Ne.symm h]
    · by_cases hq : p.1 = other <;> simp [erase, get?, hp, hq, ih, h]

theorem get?_put (key other : κ) (a : α) (entries : List (κ × α)) :
    get? other (put key a entries) = if other = key then some a else get? other entries := by
  split
  next h => rw [h, get?_put_self]
  next h => rw [get?_put_of_ne a entries h]

theorem mem_of_get? {key : κ} {a : α} {entries : List (κ × α)} (h : get? key entries = some a) :
    (key, a) ∈ entries := by
  induction entries with
  | nil => simp [get?] at h
  | cons p rest ih =>
    by_cases hp : p.1 = key
    · simp only [get?, hp, if_true, Option.some.injEq] at h
      simp [← hp, ← h]
    · simp only [get?, hp, if_false] at h
      exact List.mem_cons_of_mem _ (ih h)

omit [DecidableEq κ] in
theorem keys_cons (p : κ × α) (rest : List (κ × α)) : keys (p :: rest) = p.1 :: keys rest := rfl

theorem mem_keys_iff {key : κ} {entries : List (κ × α)} :
    key ∈ keys entries ↔ (get? key entries).isSome := by
  induction entries with
  | nil => simp [keys, get?]
  | cons p rest ih =>
    rw [keys_cons, List.mem_cons, get?]
    split
    next same => simp [same]
    next other => rw [← ih, or_iff_right (Ne.symm other)]

theorem keys_put (key : κ) (a : α) (entries : List (κ × α)) :
    keys (put key a entries) = if key ∈ keys entries then keys entries else keys entries ++ [key] := by
  induction entries with
  | nil => rfl
  | cons p rest ih =>
    rw [put]
    split
    next same => simp [keys_cons, same]
    next other =>
      rw [keys_cons, keys_cons, ih]
      by_cases m : key ∈ keys rest <;> simp [m, Ne.symm other]

theorem keys_erase (key : κ) (entries : List (κ × α)) :
    keys (erase key entries) = (keys entries).erase key := by
  induction entries with
  | nil => rfl
  | cons p rest ih =>
    rw [erase]
    split
    next same => simp [keys_cons, same]
    next other => rw [keys_cons, keys_cons, ih, List.erase_cons_tail (by simpa using other)]

/-- Every key occurs at most once. -/
def Distinct (entries : List (κ × α)) : Prop := (keys entries).Nodup

omit [DecidableEq κ] in
@[simp] theorem distinct_nil : Distinct ([] : List (κ × α)) := List.nodup_nil

omit [DecidableEq κ] in
/-- A key has one value. -/
theorem Distinct.eq_of_mem {key : κ} {a b : α} {entries : List (κ × α)} (h : Distinct entries)
    (ma : (key, a) ∈ entries) (mb : (key, b) ∈ entries) : a = b := by
  induction entries with
  | nil => cases ma
  | cons p rest ih =>
    obtain ⟨notIn, distinct⟩ := List.nodup_cons.1 h
    have other : ∀ {c : α}, (key, c) ∈ rest → p.1 ≠ key := fun m same =>
      notIn (List.mem_map.2 ⟨_, m, same.symm⟩)
    rcases List.mem_cons.1 ma with isA | inA <;> rcases List.mem_cons.1 mb with isB | inB
    · exact (Prod.mk.inj (isA.trans isB.symm)).2
    · exact absurd (congrArg Prod.fst isA).symm (other inB)
    · exact absurd (congrArg Prod.fst isB).symm (other inA)
    · exact ih distinct inA inB

/-- An entry is what was put or was there before. -/
theorem mem_put {key : κ} {a : α} {p : κ × α} {entries : List (κ × α)}
    (h : p ∈ put key a entries) : p = (key, a) ∨ p ∈ entries := by
  induction entries with
  | nil => exact .inl (List.mem_singleton.1 h)
  | cons q rest ih =>
    by_cases hq : q.1 = key
    · simp only [put, hq, if_true] at h
      exact (List.mem_cons.1 h).imp_right (List.mem_cons_of_mem _)
    · simp only [put, hq, if_false] at h
      obtain rfl | m := List.mem_cons.1 h
      · exact .inr List.mem_cons_self
      · exact (ih m).imp_right (List.mem_cons_of_mem _)

theorem mem_keys_put {key other : κ} {a : α} {entries : List (κ × α)} :
    other ∈ keys (put key a entries) ↔ other = key ∨ other ∈ keys entries := by
  induction entries with
  | nil => simp [put, keys]
  | cons p rest ih =>
    by_cases hp : p.1 = key
    · simp only [put, hp, if_true, keys, List.map_cons, List.mem_cons]
      grind
    · simp only [keys] at ih
      simp only [put, hp, if_false, keys, List.map_cons, List.mem_cons, ih]
      grind

theorem mem_keys_of_mem_keys_erase {key other : κ} {entries : List (κ × α)}
    (h : other ∈ keys (erase key entries)) : other ∈ keys entries := by
  induction entries with
  | nil => exact h
  | cons p rest ih =>
    by_cases hp : p.1 = key
    · simp only [erase, hp, if_true] at h
      exact List.mem_cons_of_mem _ h
    · simp only [erase, hp, if_false, keys, List.map_cons, List.mem_cons] at h ih ⊢
      exact h.imp id ih

theorem Distinct.put {key : κ} {a : α} {entries : List (κ × α)} (h : Distinct entries) :
    Distinct (put key a entries) := by
  induction entries with
  | nil => simp [Entries.put, Distinct, keys]
  | cons p rest ih =>
    obtain ⟨notIn, rest'⟩ := List.nodup_cons.1 h
    by_cases hp : p.1 = key
    · rw [Entries.put, if_pos hp]
      exact List.nodup_cons.2 ⟨notIn, rest'⟩
    · rw [Entries.put, if_neg hp]
      exact List.nodup_cons.2
        ⟨fun m => (mem_keys_put.1 m).elim hp notIn, ih rest'⟩

theorem Distinct.erase {key : κ} {entries : List (κ × α)} (h : Distinct entries) :
    Distinct (erase key entries) := by
  induction entries with
  | nil => exact h
  | cons p rest ih =>
    obtain ⟨notIn, rest'⟩ := List.nodup_cons.1 h
    by_cases hp : p.1 = key
    · rwa [Entries.erase, if_pos hp]
    · rw [Entries.erase, if_neg hp]
      exact List.nodup_cons.2 ⟨fun m => notIn (mem_keys_of_mem_keys_erase m), ih rest'⟩

theorem Distinct.get?_erase_self {key : κ} {entries : List (κ × α)} (h : Distinct entries) :
    get? key (Entries.erase key entries) = none := by
  induction entries with
  | nil => rfl
  | cons p rest ih =>
    obtain ⟨notIn, rest'⟩ := List.nodup_cons.1 h
    by_cases hp : p.1 = key
    · rw [Entries.erase, if_pos hp]
      cases e : get? key rest with
      | none => rfl
      | some a =>
        subst hp
        exact absurd (List.mem_map_of_mem (mem_of_get? e)) notIn
    · rw [Entries.erase, if_neg hp, get?, if_neg hp]
      exact ih rest'

end Entries

end ViewBinding
