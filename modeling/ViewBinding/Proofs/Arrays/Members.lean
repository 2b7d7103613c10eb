import Mathlib.Data.List.TakeWhile
import ViewBinding.Eval
import ViewBinding.Proofs.Arrays.Edits
import ViewBinding.Proofs.Leaf.Unwatched

/-!
# Arrays — elements by name

An element of an array is named as a member or by a key that is a text.  What the two write, and
what the key reads, is the index that the name starts with (`leadingIndex?`); what the member reads
is the index that the whole name is (`Number.parseIndex?`).

The two agree on a name that is nothing but digits (`Number.Spells`).  A name with something after
its digits, or with blanks before them, is written but not read; a name with a plus sign is read but
not written.  So what is written through a name is read by it, and what is read through a name is
written by it, just if the name is nothing but the digits of a valid index or is the name of no
element at all (`names_agree_iff`).
-/

namespace ViewBinding

/-! ### Indices in texts -/

namespace Number

/-- The text is nothing but digits, and they denote the index. -/
structure Spells (text : List Char) (index : Nat) : Prop where
  some_digit : text ≠ []
  digits : ∀ c ∈ text, c.isDigit
  value : ofDigits 0 text = index

theorem leadingDigits_of_digits {text : List Char} (digits : ∀ c ∈ text, c.isDigit) :
    leadingDigits text = (text, []) := by
  rw [leadingDigits, List.takeWhile_eq_self_iff.2 digits, List.dropWhile_eq_nil_iff.2 digits]

/-- A text whose leading digits are followed by nothing is nothing but digits. -/
theorem digits_of_leadingDigits {text run : List Char} (h : leadingDigits text = (run, [])) :
    text = run ∧ ∀ c ∈ run, c.isDigit := by
  obtain ⟨rfl, rest⟩ := Prod.mk.inj h
  have digits := List.dropWhile_eq_nil_iff.1 rest
  rw [List.takeWhile_eq_self_iff.2 digits]
  exact ⟨rfl, digits⟩

/-- A text that is an index as a whole is nothing but its digits, unless a plus sign is before them.
-/
theorem spells_or_plus {s : String} {index : Nat} (h : parseIndex? s = some index) :
    Spells s.toList index ∧ index < indexBound ∨ s.toList.head? = some '+' := by
  unfold parseIndex? at h
  split at h
  next rest plus => exact .inr (by rw [plus, List.head?_cons])
  next unsigned =>
    dsimp only at h
    split at h
    · cases h
    next run some_digit found =>
      obtain ⟨same, digits⟩ := digits_of_leadingDigits found
      split at h
      next small =>
        obtain rfl := Option.some.inj h
        rw [same]
        exact .inl ⟨⟨some_digit, digits, rfl⟩, small⟩
      · cases h
    · cases h

theorem Spells.parseIndex? {s : String} {index : Nat} (h : Spells s.toList index)
    (small : index < indexBound) : parseIndex? s = some index := by
  unfold Number.parseIndex?
  split
  next rest plus => exact absurd (h.digits '+' (plus ▸ List.mem_cons_self)) (by decide)
  · dsimp only
    rw [leadingDigits_of_digits h.digits]
    split
    next empty => exact (h.some_digit (Prod.mk.inj empty).1).elim
    next run _ same =>
      obtain ⟨rfl, -⟩ := Prod.mk.inj same
      rw [h.value, if_pos small]
    next more => cases more

end Number

theorem isBlank_of_isDigit {c : Char} (digit : c.isDigit) : Text.isBlank c = false := by
  simp only [Char.isDigit, Bool.and_eq_true, decide_eq_true_eq] at digit
  have low : 48 ≤ c.toNat := digit.1
  have high : c.toNat ≤ 57 := digit.2
  simp [Text.isBlank]
  omega

theorem leadingIndex?_of_spells {s : String} {index : Nat} (h : Number.Spells s.toList index)
    (small : index < Number.indexBound) : leadingIndex? s = some index := by
  have unblank : Text.trimStart s.toList = s.toList := by
    cases text : s.toList with
    | nil => rfl
    | cons c rest =>
      exact List.dropWhile_cons_of_neg
        (by rw [isBlank_of_isDigit (h.digits c (text ▸ List.mem_cons_self))]; decide)
  rw [leadingIndex?, unblank, Number.leadingDigits_of_digits h.digits]
  split
  next empty => exact (h.some_digit (Prod.mk.inj empty).1).elim
  next run _ _ same =>
    obtain ⟨rfl, -⟩ := Prod.mk.inj same
    rw [h.value, Nat.min_eq_left (Nat.le_sub_one_of_lt small)]

theorem leadingIndex?_of_plus {s : String} (h : s.toList.head? = some '+') :
    leadingIndex? s = none := by
  obtain ⟨rest, text⟩ := List.head?_eq_some_iff.1 h
  rw [leadingIndex?, text]
  rfl

/-! ### Items -/

variable {η : Type}

namespace World

variable {w : World η} {a : Ref .array}

theorem item_eq (w : World η) (a : Ref .array) (index : Nat) :
    w.item a index = (w.items a)[index]?.getD .undefined := by
  unfold item items
  cases w.arrays.get? a <;> simp

/-- **A member that is no length** is the element at the index that the name is. -/
theorem member_array (w : World η) (a : Ref .array) {s : String} (other : s ≠ "length") :
    w.member (.array a) s =
      ((Number.parseIndex? s).map (w.item a)).getD .undefined := by
  rw [member, if_neg other]
  cases Number.parseIndex? s <;> rfl

end World

namespace Run

variable {env : Env η} {w : World η} {a : Ref .array}

theorem display_string (s : String) (w : World η) : display (.string s) w = (.ok s, w) := by
  have shown : ∀ n, w.displayWithin n (.string s) = some s := fun n => by cases n <;> rfl
  change ofOption (w.displayWithin (w.arrays.size + 1) (.string s)) w = _
  rw [shown]
  rfl

theorem indexOfKey?_string (s : String) (w : World η) :
    indexOfKey? (.string s) w = (.ok (leadingIndex? s), w) :=
  bind_eq_ok.2 ⟨s, w, display_string s w, rfl⟩

/-- What putting a value at an index makes of an element. -/
theorem getElem?_put (items : List Value) (index i : Nat) (v : Value) :
    ((Edit.put index v).edited items)[i]?.getD .undefined =
      if i = index then v else items[i]?.getD .undefined := by
  simp only [Edit.edited, List.getElem?_set, List.length_append, List.length_replicate,
    eq_comm (a := index)]
  by_cases same : i = index
  · rw [if_pos same, if_pos same, if_pos (by omega), Option.getD_some]
  · rw [if_neg same, if_neg same]
    by_cases h : i < items.length
    · rw [List.getElem?_append_left h]
    · rw [List.getElem?_append_right (Nat.not_lt.1 h), List.getElem?_eq_none (Nat.not_lt.1 h),
        List.getElem?_replicate]
      split <;> rfl

/-- Putting a value at an index leaves the other elements alone, however it ends. -/
theorem item_setItem_of_ne (spares : env.Spares a) {index i : Nat} (other : i ≠ index) (v : Value) :
    (setItem env a index v w).2.item a i = w.item a i := by
  have put : ∀ w : World η, (w.setItem a index v).2.item a i = w.item a i := fun w => by
    cases there : w.arrays.get? a with
    | none => simp only [World.setItem, there]
    | some cell =>
      rw [World.setItem_eq there, World.item_eq, World.items_eq (World.arrays_withItems there _),
        List.toList_toArray, getElem?_put, if_neg other, World.item_eq, World.items_eq there]
  by_cases large : maxLength ≤ index
  · rw [setItem, if_pos large]
    rfl
  · rw [setItem, if_neg large, world_discard, World.item_eq, spares.changes, ← World.item_eq, put]

/-- Writing a key that is a text puts the value at the index that the text starts with. -/
theorem writeKey_string (s : String) (v : Value) :
    writeKey env (.array a) (.string s) v w = match leadingIndex? s with
      | some index => setItem env a index v w
      | none => (.ok (), w) := by
  refine (bind_of_ok (indexOfKey?_string s w) _).trans ?_
  cases leadingIndex? s <;> rfl

/-- Reading a key that is a text gives the element at the index that the text starts with. -/
theorem readKey_string (s : String) :
    readKey (.array a) (.string s) w =
      (.ok (((leadingIndex? s).map (w.item a)).getD .undefined), w) := by
  refine (bind_of_ok (indexOfKey?_string s w) _).trans ?_
  cases leadingIndex? s <;> rfl

end Run

/-! ### Two names of an element -/

namespace Expr

/-- The two ways to name an element of what an expression gives: as a member, and by a key. -/
def places (owner : Expr) (s : String) : List Expr := [member owner s, keyed owner (.string s)]

section

variable {env : Env η} {converters : Converters} {scope : Scope} {owner e : Expr} {a : Ref .array}
  {s : String} {v : Value} {w w₁ : World η}

/-- Assigning through either name writes the key. -/
theorem assignTo_place (found : owner.eval env converters scope w = (.ok (.array a), w₁))
    (place : e ∈ owner.places s) :
    e.assignTo env converters scope v w =
      (Run.writeKey env (.array a) (.string s) v >>= fun _ => Pure.pure v) w₁ := by
  simp only [places, List.mem_cons, List.not_mem_nil, or_false] at place
  rcases place with rfl | rfl
  · rw [assignTo]
    exact Run.bind_of_ok found _
  · rw [assignTo]
    refine (Run.bind_of_ok found _).trans ?_
    rw [eval]
    rfl

theorem assignTo_place_eq_ok {v' : Value} {w' : World η}
    (found : owner.eval env converters scope w = (.ok (.array a), w₁))
    (place : e ∈ owner.places s) :
    e.assignTo env converters scope v w = (.ok v', w') ↔
      v' = v ∧ Run.writeKey env (.array a) (.string s) v w₁ = (.ok (), w') := by
  rw [assignTo_place found place, Run.bind_eq_ok]
  constructor
  · rintro ⟨⟨⟩, w₂, wrote, same⟩
    cases same
    exact ⟨rfl, wrote⟩
  · rintro ⟨rfl, wrote⟩
    exact ⟨(), w', wrote, rfl⟩

theorem eval_member (found : owner.eval env converters scope w = (.ok (.array a), w₁)) :
    (member owner s).eval env converters scope w = (.ok (w₁.member (.array a) s), w₁) := by
  rw [eval]
  exact Run.bind_of_ok found _

theorem eval_keyed (found : owner.eval env converters scope w = (.ok (.array a), w₁)) :
    (keyed owner (.string s)).eval env converters scope w =
      (.ok (((leadingIndex? s).map (w₁.item a)).getD .undefined), w₁) := by
  rw [eval]
  refine (Run.bind_of_ok found _).trans ?_
  rw [eval]
  exact Run.readKey_string s

end

/-- **What is written through a name is read by it.**  Whenever assigning through either name
changes an element of an array, and those who listen leave the array alone, both names give the
element afterwards. -/
def WrittenIsRead (s : String) : Prop :=
  ∀ {η : Type} (env : Env η) (converters : Converters) (scope : Scope) (owner : Expr)
    (a : Ref .array) (v v' : Value) (index : Nat) (w w₁ w₂ w₃ : World η), env.Spares a →
    owner.eval env converters scope w = (.ok (.array a), w₁) →
    ∀ e ∈ owner.places s, e.assignTo env converters scope v w = (.ok v', w₂) →
    w₂.item a index ≠ w₁.item a index →
    owner.eval env converters scope w₂ = (.ok (.array a), w₃) →
    ∀ e' ∈ owner.places s, e'.eval env converters scope w₂ = (.ok (w₃.item a index), w₃)

/-- The member of a name is an element of the array, whatever is in the array. -/
def ReadsElement (s : String) (index : Nat) : Prop :=
  ∀ {η : Type} (env : Env η) (converters : Converters) (scope : Scope) (owner : Expr)
    (a : Ref .array) (w w₁ : World η),
    owner.eval env converters scope w = (.ok (.array a), w₁) → index < w₁.length a →
    (member owner s).eval env converters scope w = (.ok (w₁.item a index), w₁)

/-- **What is read through a name is written by it.**  If the member of a name is an element of the
array, then assigning through it writes that element, as long as those who listen come back and
leave the array alone. -/
def ReadIsWritten (s : String) : Prop :=
  ∀ index, ReadsElement s index →
    ∀ {η : Type} (env : Env η) (converters : Converters) (scope : Scope) (owner : Expr)
    (a : Ref .array) (v : Value) (w w₁ : World η), env.Listens → env.Spares a →
    owner.eval env converters scope w = (.ok (.array a), w₁) → index < w₁.length a →
    ∃ w₂, (member owner s).assignTo env converters scope v w = (.ok v, w₂) ∧
      w₂.items a = (w₁.items a).set index v

end Expr

/-! ### A stall -/

namespace Stall

/-- A view model with a list of fruit. -/
def stall (fruit : List Value) : World Unit :=
  let (list, w) := (World.new .standard ()).newArray fruit
  ((w.newObject [("fruit", .array list)]).2.newLevel (.object ⟨0⟩)).2

def scope : Scope := .root ⟨.object ⟨0⟩, ⟨1⟩⟩

/-- Nobody has anything to say. -/
def env : Env Unit := machine Host.silent 0 1

/-- The list. -/
def fruit : Expr := .name "fruit"

theorem listens : env.Listens := fun _ _ w => ⟨w, rfl⟩

theorem spares : env.Spares ⟨0⟩ := fun _ _ _ => rfl

variable (items : List Value)

theorem there : (stall items).arrays.get? ⟨0⟩ = some { items := items.toArray } := rfl

theorem items_stall : (stall items).items ⟨0⟩ = items := rfl

theorem found :
    fruit.eval env .registered scope (stall items) = (.ok (.array ⟨0⟩), stall items) := rfl

/-- Assigning through a name puts the value at the index that the name starts with. -/
theorem assigned {s : String} {index : Nat} (starts : leadingIndex? s = some index)
    (small : index < maxLength) (v : Value) :
    (Expr.member fruit s).assignTo env .registered scope v (stall items) =
      (.ok v, stall ((Edit.put index v).edited items)) := by
  rw [Expr.assignTo_place (found items) List.mem_cons_self]
  refine Run.bind_of_ok (b := ()) ?_ _
  rw [Run.writeKey_string, starts]
  exact (Run.setItem_of_fits (there items) small).trans rfl

/-- A list with something at one index and nothing before it. -/
def marked (index : Nat) : List Value := (Edit.put index .null).edited []

theorem item_marked (index i : Nat) :
    (stall (marked index)).item ⟨0⟩ i = if i = index then .null else .undefined := by
  rw [World.item_eq, items_stall, marked, Run.getElem?_put, List.getElem?_nil, Option.getD_none]

/-- The mark is found under no name but the index of the mark. -/
theorem parseIndex?_of_marked {s : String} {index : Nat}
    (h : (stall (marked index)).member (.array ⟨0⟩) s = .null) :
    Number.parseIndex? s = some index := by
  by_cases length : s = "length"
  · rw [length] at h
    cases h
  rw [World.member_array _ _ length] at h
  cases whole : Number.parseIndex? s with
  | none => cases whole ▸ h
  | some i =>
    rw [whole, Option.map_some, Option.getD_some, item_marked] at h
    by_cases same : i = index
    · rw [same]
    · rw [if_neg same] at h
      cases h

end Stall

/-! ### Where the names agree -/

namespace Expr

variable {s : String} {index : Nat}

theorem ne_length (whole : Number.parseIndex? s = some index) : s ≠ "length" := by
  rintro rfl
  cases whole

/-- A name reads an element just if it is the index of that element as a whole. -/
theorem readsElement_iff : ReadsElement s index ↔ Number.parseIndex? s = some index := by
  constructor
  · intro reads
    have inside : index < (Stall.stall (Stall.marked index)).length ⟨0⟩ := by
      rw [World.length_eq (Stall.there _)]
      simp [Stall.marked, Edit.edited]
    have read := reads Stall.env .registered Stall.scope Stall.fruit ⟨0⟩ _ _ (Stall.found _) inside
    rw [eval_member (Stall.found _), Stall.item_marked, if_pos rfl] at read
    exact Stall.parseIndex?_of_marked (Outcome.ok.inj (Prod.mk.inj read).1)
  · intro whole η env converters scope owner a w w₁ found _
    rw [eval_member found, World.member_array _ _ (ne_length whole), whole]
    rfl

/-- **What is written is read** just if the valid index that the name starts with is the name as a
whole. -/
theorem writtenIsRead_iff : WrittenIsRead s ↔
    ∀ index < maxLength, leadingIndex? s = some index → Number.parseIndex? s = some index := by
  constructor
  · intro written index small starts
    have changed : (Stall.stall (Stall.marked index)).item ⟨0⟩ index ≠
        (Stall.stall []).item ⟨0⟩ index := by
      rw [Stall.item_marked, if_pos rfl]
      exact nofun
    have read := written Stall.env .registered Stall.scope Stall.fruit ⟨0⟩ .null .null index _ _ _ _
      Stall.spares (Stall.found []) _ List.mem_cons_self (Stall.assigned [] starts small .null)
      changed (Stall.found _) _ List.mem_cons_self
    rw [eval_member (Stall.found _)] at read
    refine Stall.parseIndex?_of_marked ((Outcome.ok.inj (Prod.mk.inj read).1).trans ?_)
    exact (Stall.item_marked index index).trans (if_pos rfl)
  · intro agree η env converters scope owner a v v' index w w₁ w₂ w₃ spares found e place assigned
      changed found' e' place'
    obtain ⟨-, wrote⟩ := (assignTo_place_eq_ok found place).1 assigned
    rw [Run.writeKey_string] at wrote
    cases starts : leadingIndex? s with
    | none =>
      rw [starts] at wrote
      exact (changed (by rw [← (Prod.mk.inj wrote).2])).elim
    | some i =>
      rw [starts] at wrote
      dsimp only at wrote
      have only : index = i := Classical.byContradiction fun other => by
        have kept := Run.item_setItem_of_ne (w := w₁) spares other v
        rw [wrote] at kept
        exact changed kept
      have small : i < maxLength := Nat.not_le.1 fun large => by
        rw [Run.setItem, if_pos large] at wrote
        cases wrote
      have whole := agree i small starts
      subst only
      simp only [places, List.mem_cons, List.not_mem_nil, or_false] at place'
      rcases place' with rfl | rfl
      · rw [eval_member found', World.member_array _ _ (ne_length whole), whole]
        rfl
      · rw [eval_keyed found', starts]
        rfl

/-- **What is read is written** just if the index that the name is as a whole is valid and the name
starts with it. -/
theorem readIsWritten_iff : ReadIsWritten s ↔ ∀ index, Number.parseIndex? s = some index →
    leadingIndex? s = some index ∧ index < maxLength := by
  constructor
  · intro written index whole
    let blank := List.replicate (index + 1) Value.undefined
    have inside : index < (Stall.stall blank).length ⟨0⟩ := by
      rw [World.length_eq (Stall.there _)]
      simp [blank]
    obtain ⟨w₂, assigned, items⟩ := written index (readsElement_iff.2 whole) Stall.env .registered
      Stall.scope Stall.fruit ⟨0⟩ .null _ _ Stall.listens Stall.spares (Stall.found blank) inside
    have marked : (w₂.items ⟨0⟩)[index]?.getD .undefined = .null := by
      rw [items, Stall.items_stall]
      simp [blank]
    obtain ⟨-, wrote⟩ := (assignTo_place_eq_ok (Stall.found _) List.mem_cons_self).1 assigned
    rw [Run.writeKey_string] at wrote
    cases starts : leadingIndex? s with
    | none =>
      rw [starts] at wrote
      obtain rfl := (Prod.mk.inj wrote).2
      rw [Stall.items_stall] at marked
      simp [blank] at marked
    | some i =>
      rw [starts] at wrote
      dsimp only at wrote
      have small : i < maxLength := Nat.not_le.1 fun large => by
        rw [Run.setItem, if_pos large] at wrote
        cases wrote
      have put := Stall.assigned blank starts small .null
      obtain rfl := (Prod.mk.inj (assigned.symm.trans put)).2
      rw [Stall.items_stall, Run.getElem?_put] at marked
      by_cases same : index = i
      · exact ⟨by rw [same], same ▸ small⟩
      · rw [if_neg same] at marked
        simp [blank] at marked
  · intro agree index reads η env converters scope owner a v w w₁ listens spares found inside
    obtain ⟨starts, small⟩ := agree index (readsElement_iff.1 reads)
    cases there : w₁.arrays.get? a with
    | none => simp [World.length, there] at inside
    | some cell =>
      rw [World.length_eq there] at inside
      obtain ⟨w₂, told⟩ := listens.reports ((Edit.put index v).asSplice cell.items.toList)
        cell.listeners.toList (w₁.withItems a ((Edit.put index v).edited cell.items.toList))
      have wrote : Run.writeKey env (.array a) (.string s) v w₁ = (.ok (), w₂) := by
        rw [Run.writeKey_string, starts]
        exact (Run.setItem_of_fits there small).trans told
      refine ⟨w₂, (assignTo_place_eq_ok found List.mem_cons_self).2 ⟨rfl, wrote⟩, ?_⟩
      · have kept := spares.reports ((Edit.put index v).asSplice cell.items.toList)
          cell.listeners.toList (w₁.withItems a ((Edit.put index v).edited cell.items.toList))
        rw [told] at kept
        have filled : index + 1 - cell.items.size = 0 := Nat.sub_eq_zero_of_le inside
        refine kept.trans ((World.items_eq (World.arrays_withItems there _)).trans ?_)
        rw [World.items_eq there, Edit.edited, Array.length_toList, filled, List.replicate_zero,
          List.append_nil]

end Expr

/-- **Where reading and writing an element by its name agree.**  What is written through a name is
read by it, and what is read through it is written by it, just if the name is nothing but the digits
of a valid index, or names no element for either. -/
theorem names_agree_iff (s : String) : Expr.WrittenIsRead s ∧ Expr.ReadIsWritten s ↔
    (∃ index < maxLength, Number.Spells s.toList index) ∨
      (∀ index < maxLength, leadingIndex? s ≠ some index) ∧ Number.parseIndex? s = none := by
  have below : maxLength < Number.indexBound := by decide +kernel
  rw [Expr.writtenIsRead_iff, Expr.readIsWritten_iff]
  constructor
  · rintro ⟨written, read⟩
    by_cases named : ∃ index < maxLength, leadingIndex? s = some index
    · obtain ⟨index, small, starts⟩ := named
      rcases Number.spells_or_plus (written index small starts) with ⟨spells, -⟩ | plus
      · exact .inl ⟨index, small, spells⟩
      · cases starts.symm.trans (leadingIndex?_of_plus plus)
    · refine .inr ⟨fun index small starts => named ⟨index, small, starts⟩, ?_⟩
      refine Option.eq_none_iff_forall_ne_some.2 fun index whole => ?_
      obtain ⟨starts, small⟩ := read index whole
      exact named ⟨index, small, starts⟩
  · rintro (⟨index, small, spells⟩ | ⟨unwritten, unread⟩)
    · have starts := leadingIndex?_of_spells spells (small.trans below)
      have whole := spells.parseIndex? (small.trans below)
      refine ⟨fun index' _ starts' => ?_, fun index' whole' => ?_⟩
      · rwa [starts.symm.trans starts'] at whole
      · obtain rfl := Option.some.inj (whole.symm.trans whole')
        exact ⟨starts, small⟩
    · exact ⟨fun index small starts => (unwritten index small starts).elim,
        fun index whole => by cases unread.symm.trans whole⟩

/-- **Text after the digits.**  Something put into the list under `1px` is there at index 1, but
there is nothing under `1px`. -/
theorem Stall.written_unread :
    let items : List Value := [.string "a", .string "b"]
    let items' : List Value := [.string "a", .string "x"]
    (Expr.member fruit "1px").assignTo env .registered scope (.string "x") (stall items) =
        (.ok (.string "x"), stall items') ∧
      (stall items').item ⟨0⟩ 1 = .string "x" ∧
      (Expr.member fruit "1px").eval env .registered scope (stall items') =
        (.ok .undefined, stall items') := by
  have starts : leadingIndex? "1px" = some 1 := by decide +kernel
  refine ⟨assigned _ starts (by decide +kernel) _, rfl, ?_⟩
  · rw [Expr.eval_member (found _), World.member_array _ _ (by decide)]
    rfl

end ViewBinding
