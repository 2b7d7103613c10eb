import ViewBinding.Proofs.Json.Documents
import ViewBinding.Proofs.Numeric.Below

/-!
# Json.Finite — the numbers of a text are finite

A number of a text is read by floating-point arithmetic: from a whole number of 64 bits, scaled by
powers of ten.  A product that is too large is refused, and quotients only get smaller, so whatever
is read is a finite number (`readValue_within`).
-/

namespace ViewBinding

open Float.Model Float.Model.UnpackedFloat

/-! ### Numbers of a certain size -/

/-- A floating-point number with a magnitude below `2 ^ place`. -/
def SizedBelow (place : Int) (x : Float) : Prop := Below place x.toModel.unpack

theorem SizedBelow.isFinite {place : Int} {x : Float} (h : SizedBelow place x) : x.isFinite :=
  Below.isFinite h

theorem SizedBelow.mono {place place' : Int} (le : place ≤ place') {x : Float}
    (h : SizedBelow place x) : SizedBelow place' x :=
  Below.mono le h

theorem sizedBelow_mul {place place' : Int} (nonneg : 0 ≤ place + place')
    (fits : place + place' < 1024) {x y : Float} (hx : SizedBelow place x)
    (hy : SizedBelow place' y) : SizedBelow (place + place' + 1) (x * y) :=
  below_unpack_pack (by omega) (by omega) (below_mul nonneg hx hy)

theorem sizedBelow_div {place place' : Int} (nonneg : 0 ≤ place - place' + 1)
    (fits : place - place' < 1023) {x y : Float} (hx : SizedBelow place x)
    (hy : AtLeast place' y.toModel.unpack) : SizedBelow (place - place' + 2) (x / y) := by
  show Below _ (Float.Model.pack (UnpackedFloat.div .binary64 _ _)).unpack
  generalize y.toModel.unpack = v at hy ⊢
  cases hy with
  | finite digits least =>
    exact below_unpack_pack (by omega) (by omega) (below_div nonneg hx _ least)

theorem sizedBelow_neg {place : Int} (nonneg : 0 ≤ place) (fits : place ≤ 1024) {x : Float}
    (hx : SizedBelow place x) : SizedBelow place (-x) :=
  below_unpack_pack nonneg fits (below_neg hx)

theorem below_ofInt {n : Nat} (h : n < 2 ^ 64) : Below 65 (UnpackedFloat.ofInt .binary64 n) := by
  have size : n.log2 ≤ 63 := log2_le_of_lt h
  unfold UnpackedFloat.ofInt UnpackedFloat.normalize
  split
  next negative =>
    rw [Int.compare_eq_lt] at negative
    omega
  next => exact .zero _
  next =>
    refine @below_round 64 (by decide) _ _ _ ?_
    rw [totalExponent, Int.toNat_natCast]
    omega

theorem below_ofScientific_zero {n : Nat} (h : n < 2 ^ 64) :
    Below 118 (UnpackedFloat.ofScientific .binary64 n (0 : Nat)) := by
  by_cases zero : n = 0
  · unfold UnpackedFloat.ofScientific
    rw [dif_pos zero]
    exact .zero _
  have shifted := log2_shiftLeft_le n 53
  have size : n.log2 ≤ 63 := log2_le_of_lt h
  obtain ⟨pos, one, eq⟩ := ofScientific_eq_mul zero (Nat.zero_le 2048)
  have whole : Below 64 (.finite .positive (n <<< 53) (-53) pos) := by
    refine .finite ?_ (by decide)
    rw [totalExponent]
    omega
  have unit : Below 53 (.finite .positive (10 ^ 0) 0 one) :=
    .finite (by decide +kernel) (by decide)
  rw [eq]
  exact (below_mul (by decide) whole unit).mono (by decide)

/-- A whole number of 64 bits is read as a number of about that size. -/
theorem sizedBelow_ofNat {n : Nat} (h : n < 2 ^ 64) : SizedBelow 200 (Float.ofNat n) := by
  show SizedBelow 200 (Float.ofScientific n false 0)
  unfold Float.ofScientific
  split
  next table =>
    have value : n.toUInt64.toNat = n := Nat.mod_eq_of_lt h
    have whole : SizedBelow 65 n.toUInt64.toFloat := by
      show Below 65 (Float.Model.pack (UnpackedFloat.ofInt .binary64 n.toUInt64.toNat)).unpack
      rw [value]
      exact below_unpack_pack (by decide) (by decide) (below_ofInt h)
    have one : SizedBelow 1 Float.exactlyRepresentablePowersOfTen[0] := by
      unfold SizedBelow
      decide +kernel
    exact (sizedBelow_mul (by decide) (by decide) whole one).mono (by decide)
  next =>
    have packed : SizedBelow 118 ⟨Float.Model.ofScientific n 0⟩ :=
      below_unpack_pack (by decide) (by decide) (below_ofScientific_zero h)
    exact packed.mono (by decide)

/-- A product of finite numbers is finite or infinite. -/
theorem float_isFinite_mul {x y : Float} (hx : x.isFinite) (hy : y.isFinite)
    (small : (x * y).isInf = false) : (x * y).isFinite := by
  have product : (UnpackedFloat.mul .binary64 x.toModel.unpack y.toModel.unpack).isFinite := by
    change x.toModel.unpack.isFinite = true at hx
    change y.toModel.unpack.isFinite = true at hy
    generalize x.toModel.unpack = u at hx ⊢
    generalize y.toModel.unpack = v at hy ⊢
    exact isFinite_mul hx hy
  have number : (x * y).toModel.unpack.isNaN = false := isNaN_unpack_pack product
  change (x * y).toModel.unpack.isInf = false at small
  show (x * y).toModel.unpack.isFinite = true
  generalize (x * y).toModel.unpack = w at number small ⊢
  cases w with
  | zero | finite => rfl
  | infinity => cases small
  | notANumber => cases number

namespace Json

/-! ### Powers of ten -/

theorem log2_tenPower {k : Nat} (le : k ≤ 307) :
    53 ≤ (1 <<< 53 * 10 ^ k).log2 ∧ (1 <<< 53 * 10 ^ k).log2 ≤ 1073 := by
  have pos : 0 < 10 ^ k := Nat.pow_pos (by decide)
  obtain ⟨p, isP, power⟩ : ∃ p, p = 1021 ∧ 10 ^ k < 2 ^ p :=
    ⟨_, rfl, (Nat.pow_le_pow_right (by decide) le).trans_lt (by decide +kernel)⟩
  rw [Nat.one_shiftLeft]
  constructor
  · exact (Nat.le_log2 (Nat.mul_pos (Nat.two_pow_pos 53) pos).ne').mpr (Nat.le_mul_of_pos_right _ pos)
  · have product : 2 ^ 53 * 10 ^ k < 2 ^ (52 + p + 1) := by
      rw [show 52 + p + 1 = 53 + p by omega, Nat.pow_add]
      exact Nat.mul_lt_mul_of_pos_left power (Nat.two_pow_pos 53)
    have := log2_le_of_lt product
    omega

theorem atLeast_ofScientific {k : Nat} (le : k ≤ 307) :
    AtLeast 1 (Float.Model.ofScientific 1 k).unpack := by
  refine atLeast_unpack_pack (by decide) ?_
  obtain ⟨digits, small⟩ := log2_tenPower le
  obtain ⟨pos, pos', eq⟩ := ofScientific_eq_mul one_ne_zero (show k ≤ 2048 by omega)
  rw [eq]
  refine atLeast_roundWithAccuracy (by decide) _ _ (by omega) ?_ ?_
  all_goals
    rw [totalExponent]
    omega

theorem powerOfTen_atLeast {k : Nat} (le : k ≤ 308) : AtLeast 1 (powerOfTen k).toModel.unpack := by
  obtain table | above : k < 23 ∨ ¬ k < 23 := Decidable.em _
  · have every : ∀ k : Fin 23, AtLeast 1 (powerOfTen k.val).toModel.unpack := by decide +kernel
    exact every ⟨k, table⟩
  obtain rfl | below : k = 308 ∨ k ≤ 307 := by omega
  · decide +kernel
  · have eq : powerOfTen k = ⟨Float.Model.ofScientific 1 k⟩ := by
      unfold powerOfTen Float.ofScientific
      rw [dif_neg (by omega)]
      rfl
    rw [eq]
    exact atLeast_ofScientific below

theorem powerOfTen_greatest {p : Float} (h : p = powerOfTen 308) : AtLeast 50 p.toModel.unpack := by
  subst h
  decide +kernel

theorem isFinite_powerOfTen {k : Nat} (le : k ≤ 308) : (powerOfTen k).isFinite :=
  AtLeast.isFinite (powerOfTen_atLeast le)

/-! ### Reading a number -/

theorem sizedBelow_scaleDown {f : Float} (h : SizedBelow 200 f) (k : Nat) :
    SizedBelow 201 (scaleDown f k) := by
  fun_induction scaleDown f k with
  | case1 f k near => exact sizedBelow_div (by decide) (by decide) h (powerOfTen_atLeast near)
  | case2 f k far zero => exact h.mono (by decide)
  | case3 f k far nonzero ih =>
    have step {p : Float} (greatest : p = powerOfTen 308) : SizedBelow (200 - 50 + 2) (f / p) :=
      sizedBelow_div (by decide) (by decide) h (powerOfTen_greatest greatest)
    exact ih ((step rfl).mono (by decide))

/-- A number that a text can hold: a whole number of 64 bits, or a finite number. -/
def Legible : Json → Prop
  | whole n => -(2 ^ 63) ≤ n ∧ n < 2 ^ 64
  | real x => x.isFinite
  | _ => False

theorem absorb_lt {n : Nat} (small : n < 2 ^ 64) (digits : List Char) :
    (absorb n digits).1 < 2 ^ 64 := by
  fun_induction absorb n digits with
  | case1 => exact small
  | case2 n c rest m less ih => exact ih less
  | case3 => exact small

theorem isFinite_signed {x : Float} (negative : Bool) (h : x.isFinite) :
    (if negative then -x else x).isFinite := by
  cases negative with
  | false => exact h
  | true =>
    have bound : SizedBelow 1024 x := below_of_isFinite h
    exact (sizedBelow_neg (by decide) (by decide) bound).isFinite

theorem isFinite_scaled? {negative : Bool} {n : Nat} {exponent : Int} {x : Float}
    (small : n < 2 ^ 64) (h : scaled? negative n exponent = some x) : x.isFinite := by
  have start := sizedBelow_ofNat small
  unfold scaled? at h
  simp only [Option.map_eq_some_iff] at h
  obtain ⟨magnitude, eq, rfl⟩ := h
  refine isFinite_signed negative ?_
  split at eq
  · cases eq
    exact (sizedBelow_scaleDown start _).isFinite
  split at eq
  next near =>
    split at eq
    · cases eq
    next notInf =>
      cases eq
      exact float_isFinite_mul start.isFinite (isFinite_powerOfTen near) (by simpa using notInf)
  split at eq
  · cases eq
    exact start.isFinite
  · cases eq

theorem legible_realNumber? {negative : Bool} {whole fraction : List Char} {exponent : Int}
    {number : Json} (h : realNumber? negative whole fraction exponent = some number) :
    number.Legible := by
  have small := absorb_lt (absorb_lt (Nat.two_pow_pos 64) whole) fraction
  unfold realNumber? at h
  simp only at h
  split at h
  · cases h
    exact isFinite_signed negative (by decide)
  · simp only [Option.map_eq_some_iff] at h
    obtain ⟨x, eq, rfl⟩ := h
    exact isFinite_scaled? small eq

theorem legible_wholeNumber? {negative : Bool} {digits : List Char} {number : Json}
    (h : wholeNumber? negative digits = some number) : number.Legible := by
  have small := absorb_lt (Nat.two_pow_pos 64) digits
  unfold wholeNumber? at h
  simp only at h
  split at h
  · simp only [Option.map_eq_some_iff] at h
    obtain ⟨x, eq, rfl⟩ := h
    exact isFinite_scaled? small eq
  split at h
  · cases h
    exact ⟨by omega, by omega⟩
  split at h
  · cases h
    exact isFinite_signed true (sizedBelow_ofNat small).isFinite
  next range =>
    cases h
    have power : Nat.pow 2 63 = 2 ^ 63 := rfl
    rw [power] at range
    exact ⟨by omega, by omega⟩

/-- **A number that is read is finite**, or whole and of 64 bits. -/
theorem legible_readUnsigned {negative : Bool} {text rest : List Char} {number : Json}
    (h : readUnsigned negative text = some (number, rest)) : number.Legible := by
  simp only [readUnsigned, Option.bind_eq_bind, Option.bind_eq_some_iff, Prod.exists,
    Option.some.injEq, Prod.mk.injEq] at h
  obtain ⟨numeral, _, -, number, value, rfl, -⟩ := h
  unfold Numeral.value? at value
  split at value
  · exact legible_wholeNumber? value
  · exact legible_realNumber? value

/-! ### Reading a document -/

theorem Legible.within {number : Json} (h : number.Legible) (limit : Nat) :
    number.Within Legible limit := by
  cases number with
  | whole n => exact .whole h
  | real x => exact .real h
  | null | bool | string | array | object => cases h

theorem readItems_forall {α : Type} {item : List Char → Option (α × List Char)} {close : Char}
    {P : α → Prop} (each : ∀ text a rest, item text = some (a, rest) → P a) {fuel : Nat}
    {text rest : List Char} {as : List α} (h : readItems item close fuel text = some (as, rest)) :
    ∀ a ∈ as, P a := by
  induction fuel generalizing text rest as with
  | zero => cases h
  | succ fuel ih =>
    simp only [readItems, Option.bind_eq_bind, Option.bind_eq_some_iff, Prod.exists] at h
    obtain ⟨a, left, first, h⟩ := h
    have here := each _ _ _ first
    split at h
    · cases h
    split at h
    · simp only [Option.bind_eq_some_iff, Prod.exists, Option.some.injEq, Prod.mk.injEq] at h
      obtain ⟨as, _, later, rfl, -⟩ := h
      exact List.forall_mem_cons.mpr ⟨here, ih later⟩
    split at h
    · cases h
      exact List.forall_mem_singleton.mpr here
    · cases h

theorem readSequence_forall {α : Type} {item : List Char → Option (α × List Char)} {close : Char}
    {P : α → Prop} (each : ∀ text a rest, item text = some (a, rest) → P a)
    {text rest : List Char} {as : List α} (h : readSequence item close text = some (as, rest)) :
    ∀ a ∈ as, P a := by
  unfold readSequence at h
  split at h
  · cases h
  split at h
  · cases h
    nofun
  · exact readItems_forall each h

theorem readMember_value {α : Type} {value : String → List Char → Option (α × List Char)}
    {text rest : List Char} {member : String × α}
    (h : readMember value text = some (member, rest)) :
    ∃ text', value member.1 text' = some (member.2, rest) := by
  unfold readMember at h
  split at h
  · simp only [Option.bind_eq_bind, Option.bind_eq_some_iff, Prod.exists] at h
    obtain ⟨name, left, -, h⟩ := h
    split at h
    · simp only [Option.bind_eq_some_iff, Prod.exists, Option.some.injEq, Prod.mk.injEq] at h
      obtain ⟨v, _, read, rfl, rfl⟩ := h
      exact ⟨_, read⟩
    · cases h
  · cases h

/-- What a reader finds with a limit: a number, something that nests nothing, or a sequence that is
read with a lower limit. -/
theorem readValue_cases {limit : Nat} {text rest : List Char} {document : Json}
    (h : readValue limit text = some (document, rest)) :
    (document = null ∨ (∃ b, document = bool b) ∨ ∃ s, document = string s) ∨
    (∃ negative text', readUnsigned negative text' = some (document, rest)) ∨
    (∃ inner items text', limit = inner + 1 ∧ document = array items ∧
      readSequence (readValue inner) ']' text' = some (items, rest)) ∨
    ∃ inner members text', limit = inner + 1 ∧ document = object members ∧
      readSequence (readMember fun _ => readValue inner) '\x7d' text' = some (members, rest) := by
  unfold readValue at h
  split at h
  case h_1 => cases h; exact .inl (.inl rfl)
  case h_2 | h_3 => cases h; exact .inl (.inr (.inl ⟨_, rfl⟩))
  case h_4 =>
    simp only [Option.map_eq_some_iff, Prod.mk.injEq] at h
    obtain ⟨_, -, rfl, -⟩ := h
    exact .inl (.inr (.inr ⟨_, rfl⟩))
  case h_5 | h_8 => exact .inr (.inl ⟨_, _, h⟩)
  case h_6 =>
    split at h
    · cases h
    · simp only [Option.map_eq_some_iff, Prod.exists, Prod.mk.injEq] at h
      obtain ⟨items, _, read, rfl, rfl⟩ := h
      exact .inr (.inr (.inl ⟨_, items, _, rfl, rfl, read⟩))
  case h_7 =>
    split at h
    · cases h
    · simp only [Option.map_eq_some_iff, Prod.exists, Prod.mk.injEq] at h
      obtain ⟨members, _, read, rfl, rfl⟩ := h
      exact .inr (.inr (.inr ⟨_, members, _, rfl, rfl, read⟩))

/-- **A document that is read** nests no deeper than the reader allows, and its numbers are finite. -/
theorem readValue_within {limit : Nat} {text rest : List Char} {document : Json}
    (h : readValue limit text = some (document, rest)) : document.Within Legible limit := by
  induction limit using Nat.strong_induction_on generalizing text rest document with
  | h limit ih =>
    obtain (rfl | ⟨b, rfl⟩ | ⟨s, rfl⟩) | ⟨_, _, number⟩ | ⟨inner, items, _, rfl, rfl, read⟩ |
      ⟨inner, members, _, rfl, rfl, read⟩ := readValue_cases h
    · exact .null
    · exact .bool b
    · exact .string s
    · exact (legible_readUnsigned number).within limit
    · exact .array (readSequence_forall (fun _ _ _ => ih inner (Nat.lt_succ_self inner)) read)
    · refine .object (readSequence_forall (fun _ member _ read => ?_) read)
      obtain ⟨_, value⟩ := readMember_value read
      exact ih inner (Nat.lt_succ_self inner) value

theorem parse?_within {text : String} {document : Json} (h : parse? text = some document) :
    document.Within Legible nestingLimit := by
  unfold parse? parseWithin? whollyRead? at h
  split at h
  next read =>
    split at h
    · cases h
      exact readValue_within read
    · cases h
  · cases h

end Json

end ViewBinding
