import ViewBinding.Numeric.Binary64
import ViewBinding.Proofs.Expr.Written
import ViewBinding.Proofs.Numeric.Below
import ViewBinding.Proofs.Sameness

/-!
# Numeric.Exact — whole numbers that a machine number holds

A whole number other than zero has all 53 digits when it is taken apart, so it is `m * 2 ^ e` with
`m.log2 = 52`.  Rounding keeps such a number whatever digits it comes with
(`roundWithAccuracy_exact`), packing keeps it too (`unpack_pack_of_digits`), and so the conversions
from whole numbers give back the machine number that the whole number was taken from
(`ofInt_truncate`).
-/

namespace ViewBinding

open Float.Model Float.Model.UnpackedFloat

variable {s : Sign} {m n : Nat} {e : Int} {pos : 0 < m}

/-! ### Rounding -/

theorem log2_mul_two_pow (nonzero : m ≠ 0) (k : Nat) : (m * 2 ^ k).log2 = m.log2 + k := by
  obtain ⟨least, most⟩ := (Nat.log2_eq_iff nonzero).1 rfl
  refine (Nat.log2_eq_iff (Nat.mul_ne_zero nonzero (Nat.two_pow_pos k).ne')).2 ⟨?_, ?_⟩
  · rw [Nat.pow_add]
    exact Nat.mul_le_mul_right _ least
  · rw [Nat.add_right_comm, Nat.pow_add]
    exact Nat.mul_lt_mul_of_pos_right most (Nat.two_pow_pos k)

/-- Zeros are dropped without a trace. -/
theorem shiftRight_mul_two_pow (m k : Nat) :
    (⟨m * 2 ^ k, false, false⟩ : ExtendedMantissa) >>> k = ⟨m, false, false⟩ := by
  induction k generalizing m with
  | zero => simp [HShiftRight.hShiftRight, Nat.repeat]
  | succ k ih =>
    have step : (⟨m * 2 ^ (k + 1), false, false⟩ : ExtendedMantissa) >>> (k + 1) =
        ((⟨m * 2 * 2 ^ k, false, false⟩ : ExtendedMantissa) >>> k).shiftRightOne := by
      rw [Nat.pow_succ', ← Nat.mul_assoc]
      rfl
    rw [step, ih]
    simp [ExtendedMantissa.shiftRightOne]

theorem shiftToTargetExponent_exact (digits : m.log2 = 52) (least : -1074 ≤ e) (k : Nat) :
    shiftToTargetExponent .binary64 (m * 2 ^ k) (e - k) .exact = (⟨m, false, false⟩, e) := by
  have nonzero : m ≠ 0 := by rintro rfl; simp at digits
  have places : (m * 2 ^ k).log2 = 52 + k := by rw [log2_mul_two_pow nonzero, digits]
  have target : Format.binary64.targetExponent (totalExponent (m * 2 ^ k) (e - k)) = e := by
    have width : Format.binary64.mantissaBits = 53 := rfl
    have lowest : Format.binary64.minExponent = -1074 := rfl
    rw [Format.targetExponent, totalExponent, places, width, lowest]
    omega
  have amount : (e - (e - (k : Int))).toNat = k := by omega
  rw [shiftToTargetExponent, target, shiftToExponent, amount]
  simp only [ExtendedMantissa.ofMantissaAndAccuracy, shiftRight_mul_two_pow]
  rw [Int.sub_add_cancel]

/-- **Rounding keeps a number that fits**, whatever zeros it comes with. -/
theorem roundWithAccuracy_exact (digits : m.log2 = 52) (least : -1074 ≤ e) (k : Nat) :
    roundWithAccuracy .binary64 s (m * 2 ^ k) (e - k) .exact = .finite s m e pos := by
  have again := shiftToTargetExponent_exact digits least 0
  simp only [Nat.pow_zero, Nat.mul_one, Int.natCast_zero, Int.sub_zero] at again
  simp only [roundWithAccuracy, shiftToTargetExponent_exact digits least k,
    ExtendedMantissa.roundedMantissa, ExtendedMantissa.accuracy, Accuracy.roundToNearestEven, again]
  rw [dif_neg pos.ne']

/-! ### Packing -/

theorem toNat_implicit (mantissa : BitVec 52) :
    (1#1 ++ mantissa).toNat = 2 ^ 52 + mantissa.toNat := by
  have join := Nat.two_pow_add_eq_or_of_lt mantissa.isLt 1
  rw [BitVec.toNat_append, Nat.shiftLeft_eq, BitVec.toNat_ofNat,
    show 1 % 2 ^ 1 * 2 ^ 52 = 2 ^ 52 * 1 from rfl, ← join, Nat.mul_one]

theorem toNat_implicit_ofNat (digits : m.log2 = 52) : (1#1 ++ BitVec.ofNat 52 m).toNat = m := by
  have nonzero : m ≠ 0 := by rintro rfl; simp at digits
  obtain ⟨least, most⟩ := (Nat.log2_eq_iff nonzero).1 digits
  rw [toNat_implicit, BitVec.toNat_ofNat]
  omega

/-- **Packing keeps a number that has all its digits.** -/
theorem unpack_pack_of_digits (digits : m.log2 = 52) (least : -1074 ≤ e) (most : e ≤ 971) :
    (Float.Model.pack (.finite s m e pos)).unpack = .finite s m e pos := by
  have bias : Format.binary64.exponentBias = 1023 := rfl
  have width : Format.binary64.mantissaBits = 53 := rfl
  show UnpackedFloat.unpack _ (UnpackedFloat.pack _ _) = _
  unfold UnpackedFloat.pack
  simp only [bias, width, digits]
  rw [if_neg (by omega), if_pos True.intro]
  generalize eq : BitVec.ofNat 11 (e + 1023 + 52).toNat = exponent
  have biased : exponent.toNat = (e + 1023 + 52).toNat := by
    rw [← eq, BitVec.toNat_ofNat]
    omega
  have finite : exponent ≠ -1#11 := eq ▸ ofNat_ne_allOnes (by omega)
  have nonzero : exponent ≠ 0#11 := by
    rintro rfl
    simp only [BitVec.toNat_ofNat] at biased
    omega
  simp only [UnpackedFloat.unpack, unpackExponent_packComponents, unpackMantissa_packComponents,
    unpackSign_packComponents, Sign.ofBitVec_toBitVec, finite, nonzero, if_false, bias,
    toNat_implicit_ofNat digits]
  congr 1
  omega

/-! ### Whole numbers -/

/-- The whole number is `m * 2 ^ e`. -/
def IsScaled (m : Nat) (e : Int) (n : Nat) : Prop := n * 2 ^ (-e).toNat = m * 2 ^ e.toNat

theorem IsScaled.ne_zero (h : IsScaled m e n) (pos : 0 < m) : n ≠ 0 := by
  rintro rfl
  rw [IsScaled, Nat.zero_mul] at h
  exact absurd h.symm (Nat.mul_ne_zero pos.ne' (Nat.two_pow_pos _).ne')

theorem IsScaled.log2_eq (h : IsScaled m e n) (digits : m.log2 = 52) : (n.log2 : Int) = 52 + e := by
  have nonzero : m ≠ 0 := by rintro rfl; simp at digits
  have places := congrArg Nat.log2 h
  rw [log2_mul_two_pow (h.ne_zero (Nat.pos_of_ne_zero nonzero)), log2_mul_two_pow nonzero,
    digits] at places
  omega

/-- Enough zeros make the whole number the one with 53 digits and more zeros. -/
theorem IsScaled.mul_two_pow (h : IsScaled m e n) {k : Nat} (enough : -e ≤ k) :
    n * 2 ^ k = m * 2 ^ (e + k).toNat := by
  obtain ⟨j, split⟩ : ∃ j, k = (-e).toNat + j := ⟨k - (-e).toNat, by omega⟩
  rw [split, Nat.pow_add, ← Nat.mul_assoc, h, Nat.mul_assoc, ← Nat.pow_add]
  congr 2
  omega

/-- A whole number with enough zeros is rounded to itself. -/
theorem roundWithAccuracy_isScaled (h : IsScaled m e n) (digits : m.log2 = 52) {k : Nat}
    (enough : -e ≤ k) :
    roundWithAccuracy .binary64 s (n * 2 ^ k) (-k) .exact = .finite s m e pos := by
  have places := h.log2_eq digits
  rw [h.mul_two_pow enough, show (-k : Int) = e - (e + k).toNat by omega]
  exact roundWithAccuracy_exact digits (by omega) _

theorem ofInt_exact (h : IsScaled m e n) (digits : m.log2 = 52) :
    UnpackedFloat.ofInt .binary64 n = .finite .positive m e pos := by
  have places := h.log2_eq digits
  have positive : compare (n : Int) 0 = .gt := by
    rw [Int.compare_eq_gt]
    have := h.ne_zero pos
    omega
  have width : Format.binary64.mantissaBits = 53 := rfl
  have lowest : Format.binary64.minExponent = -1074 := rfl
  have target : Format.binary64.targetExponent (totalExponent n 0) = e := by
    rw [Format.targetExponent, totalExponent, places, width, lowest]
    omega
  simp only [UnpackedFloat.ofInt, UnpackedFloat.normalize, positive, Int.toNat_natCast,
    UnpackedFloat.round, target, decreaseExponent, Nat.shiftLeft_eq]
  rw [show (0 : Int) - e = -e by omega, show (0 : Int) - ((-e).toNat : Int) = -(-e).toNat by omega]
  exact roundWithAccuracy_isScaled h digits (by omega)

theorem mul_finite (s s' : Sign) (m m' : Nat) (e e' : Int) (pos : 0 < m) (pos' : 0 < m') :
    UnpackedFloat.mul .binary64 (.finite s m e pos) (.finite s' m' e' pos') =
      roundWithAccuracy .binary64 (s * s') (m * m') (e + e') .exact := rfl

theorem ofScientific_exact (h : IsScaled m e n) (digits : m.log2 = 52) :
    UnpackedFloat.ofScientific .binary64 n (0 : Nat) = .finite .positive m e pos := by
  have places := h.log2_eq digits
  obtain ⟨pos₁, pos₂, eq⟩ := ofScientific_eq_mul (h.ne_zero pos) (Nat.zero_le 2048)
  rw [eq, mul_finite, Nat.pow_zero, Nat.mul_one, Nat.shiftLeft_eq, Int.add_zero]
  exact roundWithAccuracy_isScaled h digits (by omega)

/-! ### Machine numbers -/

/-- Multiplying by one keeps a number. -/
theorem mul_one_exact (digits : m.log2 = 52) (least : -1074 ≤ e) :
    UnpackedFloat.mul .binary64 (.finite s m e pos)
      (.finite .positive (2 ^ 52) (-52) (Nat.two_pow_pos 52)) = .finite s m e pos := by
  have sign : s * .positive = s := by cases s <;> rfl
  rw [mul_finite, sign]
  exact roundWithAccuracy_exact digits least 52

/-- **A whole number that fits becomes the number that holds it.** -/
theorem unpack_ofNat (h : IsScaled m e n) (digits : m.log2 = 52) (most : e ≤ 971) :
    (Float.ofNat n).toModel.unpack = .finite .positive m e pos := by
  have places := h.log2_eq digits
  show (Float.ofScientific n false 0).toModel.unpack = _
  unfold Float.ofScientific
  split
  next table =>
    have value : n.toUInt64.toNat = n := Nat.mod_eq_of_lt (table.1.trans (by decide))
    have whole : n.toUInt64.toFloat.toModel.unpack = .finite .positive m e pos := by
      show (Float.Model.pack (UnpackedFloat.ofInt .binary64 n.toUInt64.toNat)).unpack = _
      rw [value, ofInt_exact h digits]
      exact unpack_pack_of_digits digits (by omega) most
    have one : (Float.exactlyRepresentablePowersOfTen[0]).toModel.unpack =
        .finite .positive (2 ^ 52) (-52) (Nat.two_pow_pos 52) := by rfl
    show (Float.Model.pack (UnpackedFloat.mul .binary64 _ _)).unpack = _
    rw [whole, one, mul_one_exact digits (by omega)]
    exact unpack_pack_of_digits digits (by omega) most
  next =>
    show (Float.Model.pack (UnpackedFloat.ofScientific .binary64 n (0 : Nat))).unpack = _
    rw [ofScientific_exact h digits]
    exact unpack_pack_of_digits digits (by omega) most

/-- The negative of a number that has all its digits. -/
theorem unpack_neg {x : Float} (h : x.toModel.unpack = .finite .positive m e pos)
    (digits : m.log2 = 52) (least : -1074 ≤ e) (most : e ≤ 971) :
    (-x).toModel.unpack = .finite .negative m e pos := by
  show (Float.Model.pack x.toModel.unpack.neg).unpack = _
  rw [h]
  exact unpack_pack_of_digits digits least most

/-! ### Taking a number apart -/

/-- Whether a sign is negative. -/
def isNegative : Sign → Bool
  | .negative => true
  | .positive => false

section Fields

variable {bits : UInt64} {b : BitVec Format.binary64.numBits}

theorem toNat_unpackExponent (b : BitVec Format.binary64.numBits) :
    (unpackExponent b).toNat = b.toNat / 2 ^ 52 % 2 ^ 11 := by
  simp [unpackExponent, BitVec.extractLsb_toNat, Nat.shiftRight_eq_div_pow]

theorem toNat_unpackMantissa (b : BitVec Format.binary64.numBits) :
    (unpackMantissa b).toNat = b.toNat % 2 ^ 52 := by
  simp [unpackMantissa, BitVec.extractLsb_toNat, Nat.shiftRight_eq_div_pow]

theorem toNat_unpackSign (b : BitVec Format.binary64.numBits) :
    (unpackSign b).toNat = b.toNat / 2 ^ 63 % 2 := by
  simp [unpackSign, BitVec.extractLsb_toNat, Nat.shiftRight_eq_div_pow]

theorem biased_eq (is : bits.toBitVec = b) :
    ((bits >>> 52) &&& 0x7FF).toNat = (unpackExponent b).toNat := by
  rw [toNat_unpackExponent, ← is, UInt64.toNat_and, UInt64.toNat_shiftRight,
    show (0x7FF : UInt64).toNat = 2 ^ 11 - 1 from rfl, Nat.and_two_pow_sub_one_eq_mod,
    Nat.shiftRight_eq_div_pow]
  rfl

theorem fraction_eq (is : bits.toBitVec = b) :
    (bits &&& 0xFFFFFFFFFFFFF).toNat = (unpackMantissa b).toNat := by
  rw [toNat_unpackMantissa, ← is, UInt64.toNat_and,
    show (0xFFFFFFFFFFFFF : UInt64).toNat = 2 ^ 52 - 1 from rfl, Nat.and_two_pow_sub_one_eq_mod]
  rfl

theorem negative_ofBits (is : bits.toBitVec = b) :
    (Binary64.ofBits bits).negative = isNegative (Sign.ofBitVec (unpackSign b)) := by
  have field : (unpackSign b).toNat = bits.toNat / 2 ^ 63 % 2 := by
    rw [toNat_unpackSign, ← is]
    rfl
  have high : (bits >>> 63).toNat = bits.toNat / 2 ^ 63 := by
    rw [UInt64.toNat_shiftRight, Nat.shiftRight_eq_div_pow]
    rfl
  have size := bits.toNat_lt
  have shown : (Binary64.ofBits bits).negative = (bits >>> 63 == 1) := by
    unfold Binary64.ofBits
    simp only
    split <;> rfl
  rw [shown, Bool.eq_iff_iff, beq_iff_eq, ← UInt64.toNat_inj, high, Sign.ofBitVec]
  split
  next zero =>
    rw [zero] at field
    simp [isNegative] at *
    omega
  next nonzero =>
    have : (unpackSign b).toNat ≠ 0 := fun h => nonzero (BitVec.eq_of_toNat_eq h)
    simp [isNegative] at *
    omega

theorem exponent_eq_zero_iff : unpackExponent b = 0#11 ↔ (unpackExponent b).toNat = 0 :=
  BitVec.toNat_inj.symm

theorem mantissa_ofBits (is : bits.toBitVec = b) :
    (Binary64.ofBits bits).mantissa =
      if unpackExponent b = 0#11 then (unpackMantissa b).toNat
      else 2 ^ 52 + (unpackMantissa b).toNat := by
  simp only [Binary64.ofBits, biased_eq is, fraction_eq is, beq_iff_eq]
  by_cases zero : unpackExponent b = 0#11
  · rw [if_pos zero, if_pos (exponent_eq_zero_iff.1 zero)]
  · rw [if_neg zero, if_neg (mt exponent_eq_zero_iff.2 zero)]
    rfl

theorem exponent_ofBits (is : bits.toBitVec = b) :
    (Binary64.ofBits bits).exponent =
      if unpackExponent b = 0#11 then -1074 else ((unpackExponent b).toNat : Int) - 1075 := by
  simp only [Binary64.ofBits, biased_eq is, fraction_eq is, beq_iff_eq]
  by_cases zero : unpackExponent b = 0#11
  · rw [if_pos zero, if_pos (exponent_eq_zero_iff.1 zero)]
  · rw [if_neg zero, if_neg (mt exponent_eq_zero_iff.2 zero)]

end Fields

/-- Taking a zero apart. -/
theorem ofFloat_zero {x : Float} (h : x.toModel.unpack = .zero s) :
    (Binary64.ofFloat x).mantissa = 0 := by
  obtain ⟨b, is⟩ : ∃ b : BitVec Format.binary64.numBits, x.toBits.toBitVec = b := ⟨_, rfl⟩
  change UnpackedFloat.unpack .binary64 x.toBits.toBitVec = _ at h
  rw [is] at h
  rw [Binary64.ofFloat, mantissa_ofBits is]
  unfold UnpackedFloat.unpack at h
  simp only at h
  split at h
  · split at h <;> cases h
  split at h
  next zero =>
    split at h
    next none => rw [if_pos zero, none]; rfl
    · cases h
  · cases h

/-- **Taking a finite number apart** finds what it is unpacked to.  It has all its digits, or the
least exponent. -/
theorem ofFloat_finite {x : Float} (h : x.toModel.unpack = .finite s m e pos) :
    (Binary64.ofFloat x).negative = isNegative s ∧ (Binary64.ofFloat x).mantissa = m ∧
      (Binary64.ofFloat x).exponent = e ∧
      (m.log2 = 52 ∧ -1074 ≤ e ∧ e ≤ 971 ∨ m < 2 ^ 52 ∧ e = -1074) := by
  obtain ⟨b, is⟩ : ∃ b : BitVec Format.binary64.numBits, x.toBits.toBitVec = b := ⟨_, rfl⟩
  change UnpackedFloat.unpack .binary64 x.toBits.toBitVec = _ at h
  rw [is] at h
  rw [Binary64.ofFloat, negative_ofBits is, mantissa_ofBits is, exponent_ofBits is]
  unfold UnpackedFloat.unpack at h
  simp only at h
  split at h
  · split at h <;> cases h
  next finite =>
  split at h
  next zero =>
    split at h
    · cases h
    · obtain ⟨rfl, rfl, rfl⟩ := UnpackedFloat.finite.inj h
      rw [if_pos zero, if_pos zero, zero]
      exact ⟨rfl, rfl, rfl, .inr ⟨(unpackMantissa b).isLt, rfl⟩⟩
  next nonzero =>
    obtain ⟨rfl, rfl, rfl⟩ := UnpackedFloat.finite.inj h
    have bias : Format.binary64.exponentBias = 1023 := rfl
    have digits := log2_implicit_append (unpackMantissa b)
    have join := toNat_implicit (unpackMantissa b)
    have size : (unpackExponent b).toNat < 2 ^ 11 := (unpackExponent b).isLt
    have some : (unpackExponent b).toNat ≠ 0 := fun zero => nonzero (exponent_eq_zero_iff.2 zero)
    have notAll : (unpackExponent b).toNat ≠ 2047 := fun all => finite (BitVec.eq_of_toNat_eq all)
    rw [if_neg nonzero, if_neg nonzero, bias]
    refine ⟨rfl, join.symm, by omega, .inl ⟨digits, by omega, by omega⟩⟩

/-! ### Whole numbers among the machine numbers -/

/-- The exact value of a finite number. -/
def Binary64.value (x : Binary64) : ℚ :=
  (if x.negative then -(x.mantissa : ℚ) else x.mantissa) * 2 ^ x.exponent

theorem isFinite_cases {x : Float} (h : x.isFinite) :
    (∃ s, x.toModel.unpack = .zero s) ∨ ∃ s m e pos, x.toModel.unpack = .finite s m e pos := by
  change x.toModel.unpack.isFinite = true at h
  cases u : x.toModel.unpack with
  | zero s => exact .inl ⟨s, rfl⟩
  | finite s m e pos => exact .inr ⟨s, m, e, pos, rfl⟩
  | infinity | notANumber => rw [u] at h; cases h

/-- **A whole number other than zero has all its digits**, and its magnitude is a whole number of
them. -/
theorem isScaled_of_isWhole {x : Float} (h : x.toModel.unpack = .finite s m e pos)
    (whole : Number.isWhole x) :
    m.log2 = 52 ∧ e ≤ 971 ∧ IsScaled m e (Binary64.ofFloat x).floorMagnitude := by
  obtain ⟨-, mantissa, exponent, digits⟩ := ofFloat_finite h
  have divides : 2 ^ (-e).toNat ∣ m := by
    have := (Bool.and_eq_true_iff.1 whole).2
    rw [Binary64.isWhole, mantissa, exponent, beq_iff_eq] at this
    exact Nat.dvd_of_mod_eq_zero this
  have scaled : IsScaled m e (Binary64.ofFloat x).floorMagnitude := by
    rw [IsScaled, Binary64.floorMagnitude, mantissa, exponent]
    exact Nat.div_mul_cancel (divides.mul_right _)
  obtain ⟨digits, least, most⟩ | ⟨small, rfl⟩ := digits
  · exact ⟨digits, most, scaled⟩
  · -- the least exponent leaves no room for a whole number
    have := (Nat.pow_le_pow_right Nat.two_pos (show 52 ≤ (- -1074 : Int).toNat by decide)).trans
      (Nat.le_of_dvd pos divides)
    omega

theorem IsScaled.value (h : IsScaled m e n) : (m : ℚ) * 2 ^ e = n := by
  have cast : (n : ℚ) * 2 ^ (-e).toNat = m * 2 ^ e.toNat := by exact_mod_cast congrArg Nat.cast h
  obtain nonneg | negative := Int.le_total 0 e
  · rw [show (-e).toNat = 0 by omega, pow_zero, mul_one] at cast
    rw [cast, ← zpow_natCast, Int.toNat_of_nonneg nonneg]
  · rw [show e.toNat = 0 by omega, pow_zero, mul_one] at cast
    rw [← cast, mul_assoc, ← zpow_natCast, Int.toNat_of_nonneg (by omega), ← zpow_add₀ two_ne_zero,
      neg_add_cancel, zpow_zero, mul_one]

theorem truncate_of_zero {x : Float} (h : x.toModel.unpack = .zero s) :
    (Binary64.ofFloat x).truncate = 0 := by
  have none : (Binary64.ofFloat x).floorMagnitude = 0 := by
    rw [Binary64.floorMagnitude, ofFloat_zero h, Nat.zero_mul, Nat.zero_div]
  rw [Binary64.truncate, none]
  split <;> rfl

theorem truncate_of_finite {x : Float} (h : x.toModel.unpack = .finite s m e pos) :
    (Binary64.ofFloat x).truncate = s.apply (Binary64.ofFloat x).floorMagnitude := by
  rw [Binary64.truncate, (ofFloat_finite h).1]
  cases s <;> rfl

/-- **A whole number is its own integer part**, exactly. -/
theorem value_of_isWhole {x : Float} (whole : Number.isWhole x) :
    (Binary64.ofFloat x).value = (Binary64.ofFloat x).truncate := by
  obtain ⟨s, zero⟩ | ⟨s, m, e, pos, finite⟩ := isFinite_cases (Bool.and_eq_true_iff.1 whole).1
  · simp [Binary64.value, ofFloat_zero zero, truncate_of_zero zero]
  · obtain ⟨sign, mantissa, exponent, -⟩ := ofFloat_finite finite
    have value := (isScaled_of_isWhole finite whole).2.2.value
    rw [Binary64.value, sign, mantissa, exponent, truncate_of_finite finite]
    cases s with
    | positive => simpa [isNegative, Sign.apply] using value
    | negative => simpa [isNegative, Sign.apply] using value

/-- **A whole number comes back** from its integer part, except that negative zero becomes zero. -/
theorem ofInt_truncate {x : Float} (whole : Number.isWhole x) :
    Float.ofInt (Binary64.ofFloat x).truncate == x := by
  rw [Value.beq_iff]
  obtain ⟨s, zero⟩ | ⟨s, m, e, pos, finite⟩ := isFinite_cases (Bool.and_eq_true_iff.1 whole).1
  · have none : (Float.ofInt 0).toModel.unpack = .zero .positive := by rfl
    rw [truncate_of_zero zero, none, zero]
    trivial
  · obtain ⟨digits, most, scaled⟩ := isScaled_of_isWhole finite whole
    have places := scaled.log2_eq digits
    have natural : (Float.ofNat (Binary64.ofFloat x).floorMagnitude).toModel.unpack =
        .finite .positive m e pos := unpack_ofNat scaled digits most
    rw [truncate_of_finite finite, finite]
    generalize (Binary64.ofFloat x).floorMagnitude = n at scaled places natural
    cases s with
    | positive =>
      rw [show Float.ofInt (Sign.positive.apply n) = Float.ofNat n from rfl, natural]
      exact ⟨rfl, rfl, rfl⟩
    | negative =>
      obtain ⟨k, rfl⟩ := Nat.exists_eq_add_one_of_ne_zero (scaled.ne_zero pos)
      rw [show Float.ofInt (Sign.negative.apply (k + 1 : Nat)) = -Float.ofNat (k + 1) from rfl,
        unpack_neg natural digits (by omega) most]
      exact ⟨rfl, rfl, rfl⟩

/-- Rounding towards zero finds the integer part. -/
theorem roundToInt_eq (s : Sign) (m : Nat) (e : Int) :
    roundToInt s m e = s.apply (m * 2 ^ e.toNat / 2 ^ (-e).toNat : Nat) := by
  have amount : (0 - (e - e.toNat)).toNat = (-e).toNat := by omega
  rw [roundToInt]
  simp only [decreaseExponent, shiftToExponent, mantissa_shiftRight, mantissa_ofMantissaAndAccuracy,
    amount, Nat.shiftLeft_eq, Int.sub_zero]

/-- Truncating a finite number to 64 bits is exact where its magnitude fits. -/
theorem toInt64_of_isFinite {x : Float} (finite : x.isFinite)
    (fits : (Binary64.ofFloat x).truncate.natAbs < 2 ^ 63) :
    x.toModel.toInt64.toInt = (Binary64.ofFloat x).truncate := by
  have exact : UnpackedFloat.toInt Int64.minValue.toInt Int64.maxValue.toInt x.toModel.unpack =
      (Binary64.ofFloat x).truncate := by
    obtain ⟨s, zero⟩ | ⟨s, m, e, pos, parts⟩ := isFinite_cases finite
    · rw [zero, truncate_of_zero zero]
      rfl
    · obtain ⟨-, mantissa, exponent, -⟩ := ofFloat_finite parts
      rw [truncate_of_finite parts, parts, Binary64.floorMagnitude, mantissa, exponent]
      exact roundToInt_eq s m e
  rw [Float.Model.toInt64, UnpackedFloat.toInt64, exact]
  have least : Int64.minValue.toInt = -2 ^ 63 := rfl
  have most : Int64.maxValue.toInt = 2 ^ 63 - 1 := rfl
  exact Int64.toInt_ofIntClamp (by omega) (by omega)

end ViewBinding
