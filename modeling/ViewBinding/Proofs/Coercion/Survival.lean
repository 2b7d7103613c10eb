import ViewBinding.Proofs.Coercion.Comparisons
import ViewBinding.Proofs.Coercion.Documents
import ViewBinding.Proofs.Numeric.Exact

/-!
# Coercion — values that survive their documents

A document keeps what it has something for.  Reading it back makes new arrays and objects and leaves
those that were there (`standsIn_ofJson`), and what is read back has the document that it was read
from (`Transcribes.readBack`).  Two values with the same document have the same structure
(`Transcribes.mirrors`), so a value and what comes back for it have.

* `abs_lt_wholeLimit_iff`: the limit below which whole numbers lose their point.  As a machine
  number it is `2 ^ 63` and not one less, and the numbers below it fit into 64 bits all the same.
* `values_survive_documents`: what comes back, for data and for every value that is not circular.
-/

namespace ViewBinding

open Float.Model Float.Model.UnpackedFloat

/-! ### Numbers in documents -/

theorem beq_self_of_isFinite {x : Float} (finite : x.isFinite) : x == x := by
  rw [Value.beq_iff]
  obtain ⟨s, zero⟩ | ⟨s, m, e, pos, parts⟩ := isFinite_cases finite
  · rw [zero]; trivial
  · rw [parts]; exact ⟨rfl, rfl, rfl⟩

theorem alike_zero_iff {s : Sign} {v : UnpackedFloat} :
    Value.Alike (.zero s) v ↔ ∃ s', v = .zero s' := by
  cases v with
  | zero s' => exact ⟨fun _ => ⟨s', rfl⟩, fun _ => trivial⟩
  | _ => exact ⟨False.elim, nofun⟩

theorem alike_finite_iff {s : Sign} {m : Nat} {e : Int} {pos : 0 < m} {v : UnpackedFloat} :
    Value.Alike (.finite s m e pos) v ↔ v = .finite s m e pos := by
  cases v with
  | finite s' m' e' pos' =>
    refine ⟨?_, fun same => by cases same; exact ⟨rfl, rfl, rfl⟩⟩
    rintro ⟨rfl, rfl, rfl⟩
    rfl
  | _ => exact ⟨False.elim, nofun⟩

/-- Equal numbers have the same integer part. -/
theorem truncate_congr {x y : Float} (same : x == y) (whole : Number.isWhole x) :
    Number.isWhole y ∧ (Binary64.ofFloat y).truncate = (Binary64.ofFloat x).truncate := by
  rw [Value.beq_iff] at same
  obtain ⟨finite, divides⟩ := Bool.and_eq_true_iff.1 whole
  obtain ⟨s, zero⟩ | ⟨s, m, e, pos, parts⟩ := isFinite_cases finite
  · rw [zero] at same
    obtain ⟨s', zero'⟩ := alike_zero_iff.1 same
    have finite' : y.isFinite := show y.toModel.unpack.isFinite = true by rw [zero']; rfl
    refine ⟨Bool.and_eq_true_iff.2 ⟨finite', ?_⟩, ?_⟩
    · rw [Binary64.isWhole, ofFloat_zero zero', Nat.zero_mod]
      rfl
    · rw [truncate_of_zero zero, truncate_of_zero zero']
  · rw [parts] at same
    have parts' := alike_finite_iff.1 same
    have finite' : y.isFinite := show y.toModel.unpack.isFinite = true by rw [parts']; rfl
    obtain ⟨-, mantissa, exponent, -⟩ := ofFloat_finite parts
    obtain ⟨-, mantissa', exponent', -⟩ := ofFloat_finite parts'
    refine ⟨Bool.and_eq_true_iff.2 ⟨finite', ?_⟩, ?_⟩
    · rwa [Binary64.isWhole, mantissa', exponent', ← mantissa, ← exponent]
    · rw [truncate_of_finite parts, truncate_of_finite parts', Binary64.floorMagnitude,
        Binary64.floorMagnitude, mantissa', exponent', mantissa, exponent]

namespace Json

variable {x y : Float} {n : Int}

/-- A number that is not finite has no document of its own. -/
theorem ofNumber_of_not_isFinite (h : x.isFinite = false) : ofNumber x = .null := by
  simp [ofNumber, Number.truncate?, h]

/-- A finite number is written as a whole number or as it is. -/
theorem ofNumber_of_isFinite (finite : x.isFinite) :
    ofNumber x =
      if Number.isWhole x && (Binary64.ofFloat x).truncate.natAbs < 2 ^ 63 then
        .whole (Binary64.ofFloat x).truncate
      else .real x := by
  simp only [ofNumber, Number.truncate?, finite, if_true]
  rfl

theorem ofNumber_eq_whole_iff :
    ofNumber x = .whole n ↔
      Number.isWhole x ∧ n.natAbs < 2 ^ 63 ∧ n = (Binary64.ofFloat x).truncate := by
  cases finite : x.isFinite with
  | false =>
    rw [ofNumber_of_not_isFinite finite]
    simp [Number.isWhole, finite]
  | true =>
    rw [ofNumber_of_isFinite finite]
    grind

/-- A number is written as `null`, as a whole number or as it is. -/
theorem ofNumber_cases (x : Float) :
    x.isFinite = false ∧ ofNumber x = .null ∨
      x.isFinite = true ∧ ((∃ n, ofNumber x = .whole n) ∨ ofNumber x = .real x) := by
  cases finite : x.isFinite with
  | false => exact .inl ⟨rfl, ofNumber_of_not_isFinite finite⟩
  | true =>
    rw [ofNumber_of_isFinite finite]
    split
    · exact .inr ⟨rfl, .inl ⟨_, rfl⟩⟩
    · exact .inr ⟨rfl, .inr rfl⟩

/-- **A number that is read back is written as before.** -/
theorem ofNumber_ofInt (h : ofNumber x = .whole n) :
    ofNumber (Float.ofInt n) = .whole n ∧ Float.ofInt n == x := by
  obtain ⟨whole, fits, rfl⟩ := ofNumber_eq_whole_iff.1 h
  have same := ofInt_truncate whole
  rw [beq_comm] at same
  obtain ⟨whole', eq⟩ := truncate_congr same whole
  exact ⟨ofNumber_eq_whole_iff.2 ⟨whole', fits, eq.symm⟩, ofInt_truncate whole⟩

/-- **Numbers with the same document are equal**, if they have one of their own. -/
theorem beq_of_ofNumber (finite : x.isFinite) (same : ofNumber y = ofNumber x) : x == y := by
  obtain ⟨notFinite, -⟩ | ⟨-, ⟨n, is⟩ | is⟩ := ofNumber_cases x
  · rw [finite] at notFinite; cases notFinite
  · have forth := (ofNumber_ofInt is).2
    rw [beq_comm] at forth
    exact Value.same_trans (a := .number x) (b := .number (Float.ofInt n)) (c := .number y) forth
      (ofNumber_ofInt (same.trans is)).2
  · rw [is] at same
    obtain ⟨-, lost⟩ | ⟨-, ⟨n, is'⟩ | is'⟩ := ofNumber_cases y
    · rw [lost] at same; cases same
    · rw [is'] at same; cases same
    · rw [is'] at same
      cases same
      exact beq_self_of_isFinite finite

/-! ### The limit of whole numbers -/

/-- The limit that the magnitude of a number is compared with: the greatest number of 64 bits, as a
machine number. -/
def wholeLimit : Float := Float.ofInt (2 ^ 63 - 1)

/-- **The limit is rounded up**, and still no whole number below it is out of range. -/
theorem abs_lt_wholeLimit_iff (whole : Number.isWhole x) :
    x.abs < wholeLimit ↔ (Binary64.ofFloat x).truncate.natAbs < 2 ^ 63 := by
  have limit : wholeLimit.toModel.unpack = .finite .positive (2 ^ 52) 11 (Nat.two_pow_pos 52) := by
    rfl
  have magnitude : x.abs.toModel.unpack =
      (Float.Model.pack x.toModel.unpack.abs).unpack := rfl
  rw [lt_iff_compare, limit, magnitude]
  obtain ⟨s, zero⟩ | ⟨s, m, e, pos, parts⟩ := isFinite_cases (Bool.and_eq_true_iff.1 whole).1
  · have none : (Float.Model.pack (UnpackedFloat.zero s).abs).unpack = .zero .positive := by
      cases s <;> rfl
    rw [zero, none, truncate_of_zero zero]
    exact ⟨fun _ => by decide, fun _ => rfl⟩
  · obtain ⟨digits, most, scaled⟩ := isScaled_of_isWhole parts whole
    have places := scaled.log2_eq digits
    have least := (Nat.le_log2 pos.ne').1 digits.ge
    have kept : (Float.Model.pack (UnpackedFloat.finite s m e pos).abs).unpack =
        .finite .positive m e pos := unpack_pack_of_digits digits (by omega) most
    have natAbs : (Binary64.ofFloat x).truncate.natAbs = (Binary64.ofFloat x).floorMagnitude := by
      rw [truncate_of_finite parts]
      cases s <;> simp [Sign.apply]
    rw [parts, kept, natAbs, ← Nat.log2_lt (scaled.ne_zero pos)]
    change some ((compare e 11).then (compare m (2 ^ 52))) = some .lt ↔ _
    rw [Option.some.injEq, Ordering.then_eq_lt, Int.compare_eq_lt, Int.compare_eq_eq,
      Nat.compare_eq_lt]
    omega

end Json

namespace World

variable {η : Type} {w w' w'' : World η} {u u' v v' : Value} {document : Json}

/-! ### Reading back leaves what was there -/

/-- The arrays and objects of one world stand unchanged in the other. -/
structure StandsIn (w w' : World η) : Prop where
  arrays : ∀ a cell, w.arrays.get? a = some cell → w'.arrays.get? a = some cell
  objects : ∀ o cell, w.objects.get? o = some cell → w'.objects.get? o = some cell

theorem StandsIn.refl (w : World η) : w.StandsIn w := ⟨fun _ _ => id, fun _ _ => id⟩

theorem StandsIn.trans (h : w.StandsIn w') (h' : w'.StandsIn w'') : w.StandsIn w'' :=
  ⟨fun a cell is => h'.arrays a cell (h.arrays a cell is),
    fun o cell is => h'.objects o cell (h.objects o cell is)⟩

theorem standsIn_allocArray (w : World η) (cell : ArrayCell) :
    w.StandsIn { w with arrays := w.arrays.alloc cell } :=
  ⟨fun a _ is => by rw [Store.get?_alloc_of_ne _ (Store.ne_next_of_get? is), is], fun _ _ => id⟩

theorem standsIn_newObject (w : World η) (properties : List (String × Value)) :
    w.StandsIn (w.newObject properties).2 :=
  ⟨fun _ _ => id, fun o _ is => by
    rw [newObject, Store.get?_alloc_of_ne _ (Store.ne_next_of_get? is), is]⟩

mutual

theorem standsIn_ofJson (w : World η) : ∀ document : Json, w.StandsIn (w.ofJson document).2
  | .null | .bool _ | .whole _ | .real _ | .string _ => .refl w
  | .array items => (standsIn_ofJsonItems w items).trans (standsIn_allocArray _ _)
  | .object members => (standsIn_ofJsonMembers w members).trans (standsIn_newObject _ _)

theorem standsIn_ofJsonItems (w : World η) :
    ∀ items : List Json, w.StandsIn (w.ofJsonItems items).2
  | [] => .refl w
  | item :: rest => (standsIn_ofJson w item).trans (standsIn_ofJsonItems _ rest)

theorem standsIn_ofJsonMembers (w : World η) :
    ∀ members : List (String × Json), w.StandsIn (w.ofJsonMembers members).2
  | [] => .refl w
  | (_, item) :: rest => (standsIn_ofJson w item).trans (standsIn_ofJsonMembers _ rest)

end

section Sequences

variable {P : World η → Json → Value → Prop}

/-- What holds of each item that is read, in whatever world it stands later, holds of them all. -/
theorem forall₂_ofJsonItems {items : List Json}
    (each : ∀ item ∈ items, ∀ w w' : World η, (w.ofJson item).2.StandsIn w' →
      P w' item (w.ofJson item).1) (w w' : World η) (stands : (w.ofJsonItems items).2.StandsIn w') :
    List.Forall₂ (P w') items (w.ofJsonItems items).1 := by
  induction items generalizing w with
  | nil => exact .nil
  | cons item rest ih =>
    refine .cons (each item (by simp) w w' ?_)
      (ih (fun item m => each item (by simp [m])) (w.ofJson item).2 stands)
    exact (standsIn_ofJsonItems _ rest).trans stands

theorem forall₂_ofJsonMembers {members : List (String × Json)}
    (each : ∀ member ∈ members, ∀ w w' : World η, (w.ofJson member.2).2.StandsIn w' →
      P w' member.2 (w.ofJson member.2).1) (w w' : World η)
    (stands : (w.ofJsonMembers members).2.StandsIn w') :
    List.Forall₂ (fun member entry => entry.1 = member.1 ∧ P w' member.2 entry.2) members
      (w.ofJsonMembers members).1 := by
  induction members generalizing w with
  | nil => exact .nil
  | cons member rest ih =>
    refine .cons ⟨rfl, each member (by simp) w w' ?_⟩
      (ih (fun member m => each member (by simp [m])) (w.ofJson member.2).2 stands)
    exact (standsIn_ofJsonMembers _ rest).trans stands

end Sequences

/-! ### Data -/

/-- A value that is built from `null`, booleans, finite numbers, texts, and arrays and objects of
them. -/
inductive IsData (w : World η) : Value → Prop
  | null : IsData w .null
  | bool (b : Bool) : IsData w (.bool b)
  | number {x : Float} (finite : x.isFinite) : IsData w (.number x)
  | string (s : String) : IsData w (.string s)
  | array {a : Ref .array} (each : ∀ v ∈ w.items a, IsData w v) : IsData w (.array a)
  | object {o : Ref .object}
      (plain : ∀ name slot, w.slot? o name = some slot → ∃ v, slot = .data v)
      (each : ∀ name, w.has o name → IsData w (w.get o name)) : IsData w (.object o)

/-- Data are made of finitely many values. -/
theorem IsData.acc (h : w.IsData v) : Acc (fun u v => Finds w.documentParts v u) v := by
  induction h with
  | array each ih =>
    refine ⟨_, fun u ⟨us, is, m⟩ => ?_⟩
    cases is
    exact ih u m
  | object plain each ih =>
    refine ⟨_, fun u ⟨us, is, m⟩ => ?_⟩
    cases is
    obtain ⟨name, listed, rfl⟩ := List.mem_map.1 m
    exact ih name (mem_names_iff.1 listed)
  | _ => exact ⟨_, fun u ⟨us, is, m⟩ => by cases is⟩

/-! ### Reading back -/

theorem get?_eq_some_iff {α : Type} {entries : List (String × α)} {name : String} {a : α}
    (distinct : Entries.Distinct entries) :
    Entries.get? name entries = some a ↔ (name, a) ∈ entries := by
  refine ⟨Entries.mem_of_get?, fun m => ?_⟩
  obtain ⟨b, is⟩ := Option.isSome_iff_exists.1
    (Entries.mem_keys_iff.1 (List.mem_map.2 ⟨(name, a), m, rfl⟩))
  rw [is, distinct.eq_of_mem (Entries.mem_of_get? is) m]

/-- The properties of a new object are those it is made with. -/
theorem get?_foldl_put {entries : List (String × Value)} (distinct : Entries.Distinct entries)
    (slots : List (String × Slot)) (name : String) :
    Entries.get? name
        (entries.foldl (fun slots (name, v) => Entries.put name (.data v) slots) slots) =
      ((Entries.get? name entries).map .data).or (Entries.get? name slots) := by
  induction entries generalizing slots with
  | nil => rfl
  | cons entry rest ih =>
    obtain ⟨notIn, distinct'⟩ := List.nodup_cons.1 distinct
    rw [List.foldl_cons, ih distinct', Entries.get?_put, Entries.get?]
    by_cases here : entry.1 = name
    · have none : Entries.get? name rest = none := by
        rw [← Option.not_isSome_iff_eq_none, ← Entries.mem_keys_iff, ← here]
        exact notIn
      rw [none, if_pos here.symm, if_pos here]
      rfl
    · rw [if_neg (Ne.symm here), if_neg here]

theorem slot?_newObject {entries : List (String × Value)} (distinct : Entries.Distinct entries)
    (stands : (w.newObject entries).2.StandsIn w') (name : String) :
    w'.slot? (w.newObject entries).1 name = (Entries.get? name entries).map .data := by
  have cell := stands.objects (w.newObject entries).1 _ (Store.get?_alloc_next _ _)
  rw [slot?, cell]
  exact (get?_foldl_put distinct [] name).trans Option.or_none

theorem transcribes_number {x : Float} (is : Json.ofNumber x = document) :
    w.Transcribes (.number x) document := is ▸ .number x

/-- The value has the document, and is made of data. -/
def ReadsBack (w : World η) (document : Json) (v : Value) : Prop :=
  w.Transcribes v document ∧ w.IsData v

theorem readsBack_array {documents : List Json} {a : Ref .array}
    (items : List.Forall₂ w.ReadsBack documents (w.items a)) :
    w.ReadsBack (.array documents) (.array a) := by
  refine ⟨.array items.length_eq.symm fun i v document is is' => ?_, .array fun v m => ?_⟩
  · obtain ⟨at₁, rfl⟩ := List.getElem?_eq_some_iff.1 is
    obtain ⟨at₂, rfl⟩ := List.getElem?_eq_some_iff.1 is'
    exact (items.get at₂ at₁).1
  · obtain ⟨document, -, read⟩ := exists_of_forall₂ items.flip m
    exact read.2

theorem readsBack_object {members : List (String × Json)} {entries : List (String × Value)}
    {o : Ref .object} (ascending : Json.Ascending members) (distinct : Entries.Distinct entries)
    (slots : ∀ name, w.slot? o name = (Entries.get? name entries).map .data)
    (each : List.Forall₂ (fun member entry => entry.1 = member.1 ∧ w.ReadsBack member.2 entry.2)
      members entries) : w.ReadsBack (.object members) (.object o) := by
  have there {name : String} {v : Value} (m : (name, v) ∈ entries) :
      w.slot? o name = some (.data v) := by
    rw [slots, (get?_eq_some_iff distinct).2 m]
    rfl
  have member {name : String} (has : w.has o name) :
      ∃ document, (name, document) ∈ members ∧ w.ReadsBack document (w.get o name) := by
    obtain ⟨slot, is⟩ := Option.isSome_iff_exists.1 has
    rw [slots, Option.map_eq_some_iff] at is
    obtain ⟨v, entry, -⟩ := is
    have m := (get?_eq_some_iff distinct).1 entry
    obtain ⟨⟨name, document⟩, m', rfl, read⟩ := exists_of_forall₂ each.flip m
    refine ⟨document, m', ?_⟩
    rwa [get, there m]
  have entry {name : String} {document : Json} (m : (name, document) ∈ members) :
      w.has o name ∧ w.ReadsBack document (w.get o name) := by
    obtain ⟨⟨name, v⟩, m', rfl, read⟩ := exists_of_forall₂ each m
    rw [has, get, there m']
    exact ⟨rfl, read⟩
  constructor
  · refine .object ascending (fun name => ⟨fun has => ?_, ?_⟩) fun name document m => (entry m).2.1
    · obtain ⟨document, m, -⟩ := member has
      exact ⟨document, m⟩
    · rintro ⟨document, m⟩
      exact (entry m).1
  · refine .object (fun name slot is => ?_) fun name has => ?_
    · rw [slots, Option.map_eq_some_iff] at is
      obtain ⟨v, -, rfl⟩ := is
      exact ⟨v, rfl⟩
    · obtain ⟨document, -, read⟩ := member has
      exact read.2

theorem ascending_of_forall₂ {members : List (String × Json)} {entries : List (String × Value)}
    {P : Json → Value → Prop} (ascending : Json.Ascending members)
    (each : List.Forall₂ (fun member entry => entry.1 = member.1 ∧ P member.2 entry.2)
      members entries) : Json.Ascending entries := by
  have names : entries.map (·.1) = members.map (·.1) := by
    induction each with
    | nil => rfl
    | cons first _ ih =>
      rw [List.map_cons, List.map_cons, first.1, ih (List.pairwise_cons.1 ascending).2]
  have sorted : (members.map (·.1)).Pairwise (· < ·) := List.pairwise_map.2 ascending
  rw [← names] at sorted
  exact List.pairwise_map.1 sorted

/-- **What is read back has the document it was read from**, and is made of data. -/
theorem Transcribes.readBack (h : w.Transcribes v document) (w₀ w' : World η)
    (stands : (w₀.ofJson document).2.StandsIn w') :
    w'.ReadsBack document (w₀.ofJson document).1 := by
  induction h generalizing w₀ w' with
  | undefined | null | function => exact ⟨.null, .null⟩
  | bool b => exact ⟨.bool b, .bool b⟩
  | string s => exact ⟨.string s, .string s⟩
  | number x =>
    obtain ⟨-, is⟩ | ⟨finite, ⟨n, is⟩ | is⟩ := Json.ofNumber_cases x
    · rw [is]
      exact ⟨.null, .null⟩
    · have back := (Json.ofNumber_ofInt is).1
      have whole := (Json.ofNumber_eq_whole_iff.1 back).1
      rw [is]
      exact ⟨transcribes_number back, .number (Bool.and_eq_true_iff.1 whole).1⟩
    · rw [is]
      exact ⟨transcribes_number is, .number finite⟩
  | @array a documents length each ih =>
    have values := forall₂_ofJsonItems (P := ReadsBack) (fun document m => by
        obtain ⟨i, here, rfl⟩ := List.mem_iff_getElem.1 m
        exact ih i _ _ (List.getElem?_eq_getElem (length ▸ here)) (List.getElem?_eq_getElem here))
      w₀ w' ((standsIn_allocArray _ _).trans stands)
    have items : w'.items (w₀.ofJsonItems documents).2.arrays.next =
        (w₀.ofJsonItems documents).1 := by
      have cell := stands.arrays _ _ (Store.get?_alloc_next _ _)
      simp [World.items, cell]
    rw [← items] at values
    exact readsBack_array values
  | @object o members ascending all each ih =>
    have entries := forall₂_ofJsonMembers (P := ReadsBack)
      (fun member m => ih member.1 member.2 m) w₀ w' ((standsIn_newObject _ _).trans stands)
    have ascending' := ascending_of_forall₂ ascending entries
    rw [← Json.sortMembers_of_ascending ascending'] at entries
    rw [← Json.sortMembers_of_ascending ascending'] at ascending'
    exact readsBack_object ascending ascending'.distinct
      (slot?_newObject ascending'.distinct stands) entries

/-! ### Values of the same structure -/

/-- Two values, each in its own world, have the same structure: arrays have as many items, which
mirror each other place by place, objects have the same names, under which properties mirror each
other, and values of other kinds are related. -/
inductive Mirrors (leaf : Value → Value → Prop) (w w' : World η) : Value → Value → Prop
  | leaf {u u' : Value} (scalar : u.isContainer = false) (scalar' : u'.isContainer = false)
      (related : leaf u u') : Mirrors leaf w w' u u'
  | array {a a' : Ref .array} (length : (w.items a).length = (w'.items a').length)
      (each : ∀ (i : Nat) (u u' : Value), (w.items a)[i]? = some u → (w'.items a')[i]? = some u' →
        Mirrors leaf w w' u u') : Mirrors leaf w w' (.array a) (.array a')
  | object {o o' : Ref .object} (names : ∀ name, w.has o name = w'.has o' name)
      (each : ∀ name, w.has o name → Mirrors leaf w w' (w.get o name) (w'.get o' name)) :
      Mirrors leaf w w' (.object o) (.object o')

end World

/-- Whether documents have nothing for a value: `undefined`, a function or a number that is not
finite. -/
def Value.isLost : Value → Bool
  | undefined | function _ => true
  | number x => !x.isFinite
  | _ => false

/-- What comes back for a value of no other values: `null` if documents have nothing for it, and
else what is the same. -/
def Value.ComesBack (u u' : Value) : Prop := if u.isLost then u' = .null else u.same u' = true

namespace World

variable {η : Type} {w w' w'' : World η} {u u' v v' : Value} {document : Json}

/-- What a document says about a value that it is the document of. -/
def Attests (w : World η) (v : Value) : Json → Prop
  | .null => v.isLost ∨ v = .null
  | .bool b => v = .bool b
  | .string s => v = .string s
  | .whole n => ∃ x, v = .number x ∧ Json.ofNumber x = .whole n
  | .real y => ∃ x, v = .number x ∧ Json.ofNumber x = .real y
  | .array documents => ∃ a, v = .array a ∧ (w.items a).length = documents.length ∧
      ∀ (i : Nat) (v : Value) (document : Json), (w.items a)[i]? = some v →
        documents[i]? = some document → w.Transcribes v document
  | .object members => ∃ o, v = .object o ∧
      (∀ name, w.has o name ↔ ∃ document, (name, document) ∈ members) ∧
      ∀ name document, (name, document) ∈ members → w.Transcribes (w.get o name) document

theorem Transcribes.attests (h : w.Transcribes v document) : w.Attests v document := by
  cases h with
  | number x =>
    obtain ⟨notFinite, is⟩ | ⟨-, ⟨n, is⟩ | is⟩ := Json.ofNumber_cases x
    · rw [is]
      exact .inl (by simp [Value.isLost, notFinite])
    · rw [is]
      exact ⟨x, rfl, is⟩
    · rw [is]
      exact ⟨x, rfl, is⟩
  | array length each => exact ⟨_, rfl, length, each⟩
  | object ascending all each => exact ⟨_, rfl, all, each⟩
  | undefined | function => exact .inl rfl
  | null => exact .inr rfl
  | bool | string => rfl

theorem IsData.isLost (h : w.IsData v) : v.isLost = false := by
  cases h with
  | number finite => simp [Value.isLost, finite]
  | _ => rfl

/-- Values with the same document have the same structure, where the second is made of data. -/
theorem Transcribes.mirrors (h : w.Transcribes v document) (h' : w'.Transcribes v' document)
    (data : w'.IsData v') : Mirrors Value.ComesBack w w' v v' := by
  induction h generalizing v' with
  | undefined | null | function =>
    obtain lost | rfl := h'.attests
    · rw [data.isLost] at lost; cases lost
    · exact .leaf rfl rfl rfl
  | bool b =>
    obtain rfl : v' = .bool b := h'.attests
    exact .leaf rfl rfl (beq_self_eq_true b)
  | string s =>
    obtain rfl : v' = .string s := h'.attests
    exact .leaf rfl rfl (beq_self_eq_true s)
  | number x =>
    obtain ⟨notFinite, is⟩ | ⟨finite, written⟩ := Json.ofNumber_cases x
    · rw [is] at h'
      obtain lost | rfl := h'.attests
      · rw [data.isLost] at lost; cases lost
      · exact .leaf rfl rfl (by simp [Value.ComesBack, Value.isLost, notFinite])
    · obtain ⟨y, rfl, is⟩ : ∃ y, v' = .number y ∧ Json.ofNumber y = Json.ofNumber x := by
        obtain ⟨n, is⟩ | is := written
        all_goals
          rw [is] at h' ⊢
          exact h'.attests
      refine .leaf rfl rfl ?_
      rw [Value.ComesBack, if_neg (by simp [Value.isLost, finite])]
      exact Json.beq_of_ofNumber finite is
  | array length each ih =>
    obtain ⟨a, rfl, length', each'⟩ := h'.attests
    cases data with
    | array data =>
      refine .array (length.trans length'.symm) fun i u u' is is' => ?_
      obtain ⟨document, at₁⟩ : ∃ document, _ = some document :=
        ⟨_, List.getElem?_eq_getElem (length ▸ (List.getElem?_eq_some_iff.1 is).1)⟩
      exact ih i u document is at₁ (each' i u' document is' at₁)
        (data u' (List.mem_of_getElem? is'))
  | object ascending all each ih =>
    obtain ⟨o, rfl, all', each'⟩ := h'.attests
    cases data with
    | object plain data =>
      refine .object (fun name => ?_) fun name has => ?_
      · rw [Bool.eq_iff_iff, all, all']
      · obtain ⟨document, m⟩ := (all name).1 has
        exact ih name document m (each' name document m) (data name ((all' name).2 ⟨document, m⟩))

/-- Data come back the same. -/
theorem Mirrors.same (h : Mirrors Value.ComesBack w w' v v') (data : w.IsData v) :
    Mirrors (fun u u' => u.same u') w w' v v' := by
  induction h with
  | leaf scalar scalar' related =>
    rw [Value.ComesBack, data.isLost] at related
    exact .leaf scalar scalar' related
  | array length each ih =>
    cases data with
    | array data =>
      exact .array length fun i u u' is is' => ih i u u' is is' (data u (List.mem_of_getElem? is))
  | object names each ih =>
    cases data with
    | object plain data => exact .object names fun name has => ih name has (data name has)

/-- What comes back for a value that is not circular. -/
theorem comesBack (h : ¬ Circular w.documentParts v) : ∃ document, w.toJson? v = some document ∧
    Mirrors Value.ComesBack w (w.ofJson document).2 v (w.ofJson document).1 ∧
    (w.ofJson document).2.toJson? (w.ofJson document).1 = some document := by
  obtain ⟨document, is⟩ := Option.isSome_iff_exists.1 ((w.isSome_toJson?_iff v).2 h)
  have written := toJson?_eq_some_iff.1 is
  obtain ⟨again, data⟩ := written.readBack w _ (.refl _)
  exact ⟨document, is, written.mirrors again data, toJson?_eq_some_iff.2 again⟩

/-- **Values survive their documents.**  Data come back with the same structure and the same values;
of every value that is not circular comes back what documents have something for, and `null` for
the rest; and what comes back has the document that it came from.  A whole number below the limit
is written as the integer that it is, without being cut off, and any other as it is. -/
theorem values_survive_documents (w : World η) :
    (∀ v, w.IsData v → ∃ document, w.toJson? v = some document ∧
      Mirrors (fun u u' => u.same u') w (w.ofJson document).2 v (w.ofJson document).1 ∧
      (w.ofJson document).2.toJson? (w.ofJson document).1 = some document) ∧
    (∀ v, ¬ Circular w.documentParts v → ∃ document, w.toJson? v = some document ∧
      Mirrors Value.ComesBack w (w.ofJson document).2 v (w.ofJson document).1 ∧
      (w.ofJson document).2.toJson? (w.ofJson document).1 = some document) ∧
    ∀ x : Float, Number.isWhole x →
      (x.abs < Json.wholeLimit → ∃ n : Int, Json.ofNumber x = .whole n ∧
        (Binary64.ofFloat x).value = n ∧ x.toModel.toInt64.toInt = n ∧ Float.ofInt n == x) ∧
      (¬ x.abs < Json.wholeLimit → Json.ofNumber x = .real x) := by
  refine ⟨fun v data => ?_, fun v h => comesBack h,
    fun x whole => ⟨fun below => ?_, fun above => ?_⟩⟩
  · obtain ⟨document, is, mirrors, again⟩ := comesBack (not_circular_of_acc data.acc)
    exact ⟨document, is, mirrors.same data, again⟩
  · have fits := (Json.abs_lt_wholeLimit_iff whole).1 below
    exact ⟨_, Json.ofNumber_eq_whole_iff.2 ⟨whole, fits, rfl⟩, value_of_isWhole whole,
      toInt64_of_isFinite (Bool.and_eq_true_iff.1 whole).1 fits, ofInt_truncate whole⟩
  · rw [Json.ofNumber_of_isFinite (Bool.and_eq_true_iff.1 whole).1, if_neg]
    rw [Bool.and_eq_true_iff, decide_eq_true_iff]
    exact fun ⟨_, fits⟩ => above ((Json.abs_lt_wholeLimit_iff whole).2 fits)

/-- A new world with an object of a text and an array of negative zero and `undefined`. -/
def album : World Unit :=
  let (a, w) := (World.new .standard ()).newArray [.number (-0.0), .undefined]
  (w.newObject [("title", .string "b"), ("pages", .array a)]).2

/-- In the document of the album its names are sorted, zero has no sign and `undefined` is `null`.
An object of the same structure comes back. -/
theorem album_comes_back :
    album.toJson? (.object ⟨0⟩) =
      some (.object [("pages", .array [.whole 0, .null]), ("title", .string "b")]) ∧
    Mirrors Value.ComesBack album
      (album.ofJson (.object [("pages", .array [.whole 0, .null]), ("title", .string "b")])).2
      (.object ⟨0⟩) (.object ⟨1⟩) := by
  have written : album.toJson? (.object ⟨0⟩) =
      some (.object [("pages", .array [.whole 0, .null]), ("title", .string "b")]) := by
    have zero : Json.ofNumber (-0.0) = .whole 0 :=
      Json.ofNumber_eq_whole_iff.2 ⟨by decide +kernel, by decide, by decide +kernel⟩
    change some (Json.object (Json.sortMembers
      [("title", .string "b"), ("pages", .array [.ofNumber (-0.0), .null])])) = _
    rw [zero]
    rfl
  obtain ⟨document, is, mirrors, -⟩ := (values_survive_documents album).2.1 (.object ⟨0⟩)
    ((album.isSome_toJson?_iff _).1 (by rw [written]; rfl))
  rw [written] at is
  cases is
  exact ⟨written, mirrors⟩

end World

end ViewBinding
