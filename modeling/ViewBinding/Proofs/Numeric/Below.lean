import Mathlib

/-!
# Numeric.Below — arithmetic that stays finite

Floating-point arithmetic is defined on unpacked numbers, a mantissa and an exponent, which are then
rounded and packed into bits; a number that is too large becomes an infinity there.  `Below place`
bounds the place of the leading binary digit, and each operation moves that bound by a few places
(`below_mul`, `below_div`).  Packing keeps a number whose bound is at most 1024 (`below_unpack_pack`).
-/

namespace ViewBinding

open Float.Model Float.Model.UnpackedFloat

/-- The number is finite, and its magnitude is below `2 ^ place`.  Its last digit has a place that
leaves room for 53 digits. -/
inductive Below (place : Int) : UnpackedFloat → Prop
  | zero (s : Sign) : Below place (.zero s)
  | finite {s : Sign} {m : Nat} {e : Int} {pos : 0 < m} (total : totalExponent m e ≤ place)
      (last : e ≤ place - 53) : Below place (.finite s m e pos)

theorem Below.mono {place place' : Int} (le : place ≤ place') {u : UnpackedFloat}
    (h : Below place u) : Below place' u := by
  cases h with
  | zero s => exact .zero s
  | finite total last => exact .finite (total.trans le) (last.trans (by omega))

instance (place : Int) (u : UnpackedFloat) : Decidable (Below place u) :=
  match u with
  | .finite _ m e _ =>
    decidable_of_iff (totalExponent m e ≤ place ∧ e ≤ place - 53)
      ⟨fun h => .finite h.1 h.2, fun | .finite total last => ⟨total, last⟩⟩
  | .zero s => .isTrue (.zero s)
  | .infinity _ => .isFalse nofun
  | .notANumber => .isFalse nofun

theorem Below.isFinite {place : Int} {u : UnpackedFloat} (h : Below place u) : u.isFinite := by
  cases h with
  | zero | finite => rfl

/-! ### Rounding -/

theorem mantissa_shiftRight (em : ExtendedMantissa) (n : Nat) :
    (em >>> n).mantissa = em.mantissa / 2 ^ n := by
  induction n with
  | zero => exact (Nat.div_one _).symm
  | succ n ih =>
    have step : (em >>> (n + 1)).mantissa = (em >>> n).mantissa / 2 := rfl
    rw [step, ih, Nat.div_div_eq_div_mul, Nat.pow_succ]

theorem mantissa_ofMantissaAndAccuracy (m : Nat) (accuracy : Accuracy) :
    (ExtendedMantissa.ofMantissaAndAccuracy m accuracy).mantissa = m := by
  unfold ExtendedMantissa.ofMantissaAndAccuracy
  split <;> rfl

theorem roundedMantissa_bounds (em : ExtendedMantissa) :
    em.mantissa ≤ em.roundedMantissa ∧ em.roundedMantissa ≤ em.mantissa + 1 := by
  unfold ExtendedMantissa.roundedMantissa Accuracy.roundToNearestEven
  split <;> omega

theorem log2_div_two_pow (m k : Nat) : (m / 2 ^ k).log2 = m.log2 - k := by
  simp only [Nat.log2_eq_log_two, Nat.log_div_base_pow]

theorem log2_le_of_le_div_add_one {m k r : Nat} (h : r ≤ m / 2 ^ k + 1) :
    r.log2 ≤ m.log2 + 1 - k := by
  have small : m / 2 ^ k < 2 ^ (m.log2 + 1 - k) := by
    refine (Nat.div_lt_iff_lt_mul (Nat.two_pow_pos k)).mpr ?_
    rw [← Nat.pow_add]
    exact Nat.lt_log2_self.trans_le (Nat.pow_le_pow_right Nat.two_pos (by omega))
  calc r.log2 ≤ (2 ^ (m.log2 + 1 - k)).log2 := by
        simpa only [Nat.log2_eq_log_two] using Nat.log_mono_right (h.trans small)
    _ = m.log2 + 1 - k := Nat.log2_two_pow

theorem le_log2_of_div_ne_zero {m k : Nat} (h : m / 2 ^ k ≠ 0) : k ≤ m.log2 := by
  have le : 2 ^ k ≤ m := by
    by_contra less
    exact h (Nat.div_eq_of_lt (Nat.lt_of_not_le less))
  exact (Nat.le_log2 (by rintro rfl; simp at h)).mpr le

/-- As many digits are dropped as it takes to reach the exponent that the number should have. -/
theorem shiftToTargetExponent_eq (m : Nat) (e : Int) (accuracy : Accuracy) :
    ∃ (em : ExtendedMantissa) (k : Nat),
      shiftToTargetExponent .binary64 m e accuracy = (em, e + k) ∧ em.mantissa = m / 2 ^ k ∧
        k = (max (totalExponent m e - 53) (-1074) - e).toNat := by
  refine ⟨_, _, rfl, ?_, rfl⟩
  rw [mantissa_shiftRight, mantissa_ofMantissaAndAccuracy]

/-- Rounding moves a number by at most one place. -/
theorem below_roundWithAccuracy {place : Int} (nonneg : 0 ≤ place) (s : Sign) {m : Nat} {e : Int}
    (accuracy : Accuracy) (total : totalExponent m e ≤ place) (last : e ≤ place - 52) :
    Below (place + 1) (roundWithAccuracy .binary64 s m e accuracy) := by
  obtain ⟨em, k, first, dropped, target⟩ := shiftToTargetExponent_eq m e accuracy
  obtain ⟨em', k', second, dropped', target'⟩ :=
    shiftToTargetExponent_eq em.roundedMantissa (e + k) .exact
  have rounded : em.roundedMantissa.log2 ≤ m.log2 + 1 - k :=
    log2_le_of_le_div_add_one (dropped ▸ (roundedMantissa_bounds em).2)
  have digits := log2_div_two_pow em.roundedMantissa k'
  simp only [totalExponent] at *
  simp only [roundWithAccuracy, first, second]
  split
  · exact .zero s
  next nonzero =>
    rw [dropped'] at nonzero
    have room := le_log2_of_div_ne_zero nonzero
    refine .finite ?_ (by omega)
    rw [totalExponent, dropped', digits]
    omega

/-! ### Operations -/

theorem log2_le_of_lt {m k : Nat} (h : m < 2 ^ (k + 1)) : m.log2 ≤ k := by
  by_cases zero : m = 0
  · simp [zero]
  · exact Nat.le_of_lt_succ ((Nat.log2_lt zero).mpr h)

theorem log2_mul_le (m n : Nat) : (m * n).log2 ≤ m.log2 + n.log2 + 1 := by
  refine log2_le_of_lt ?_
  calc m * n < 2 ^ (m.log2 + 1) * 2 ^ (n.log2 + 1) :=
        Nat.mul_lt_mul'' Nat.lt_log2_self Nat.lt_log2_self
    _ = 2 ^ (m.log2 + n.log2 + 1 + 1) := by rw [← Nat.pow_add]; congr 1; omega

theorem log2_div_le {n : Nat} (pos : 0 < n) (m : Nat) : (m / n).log2 ≤ m.log2 - n.log2 := by
  by_cases zero : m / n = 0
  · simp [zero]
  have product : 2 ^ ((m / n).log2 + n.log2) ≤ m := by
    rw [Nat.pow_add]
    exact (Nat.mul_le_mul (Nat.log2_self_le zero) (Nat.log2_self_le pos.ne')).trans
      (Nat.div_mul_le_self m n)
  have nonzero : m ≠ 0 := by rintro rfl; simp at zero
  have := (Nat.le_log2 nonzero).mpr product
  omega

theorem log2_shiftLeft_le (m k : Nat) : (m <<< k).log2 ≤ m.log2 + k := by
  refine log2_le_of_lt ?_
  rw [Nat.shiftLeft_eq, Nat.add_right_comm, Nat.pow_add]
  exact Nat.mul_lt_mul_of_pos_right Nat.lt_log2_self (Nat.two_pow_pos k)

/-- Digits are added before the rounding where there are too few. -/
theorem below_round {place : Int} (nonneg : 0 ≤ place) (s : Sign) {m : Nat} {e : Int}
    (total : totalExponent m e ≤ place) : Below (place + 1) (round .binary64 s m e) := by
  obtain ⟨shift, isShift⟩ : ∃ shift, shift = (e - max (totalExponent m e - 53) (-1074)).toNat :=
    ⟨_, rfl⟩
  have core : round .binary64 s m e =
      roundWithAccuracy .binary64 s (m <<< shift) (e - shift) .exact := by
    subst isShift
    rfl
  have shifted := log2_shiftLeft_le m shift
  rw [core]
  simp only [totalExponent] at *
  refine below_roundWithAccuracy nonneg _ _ ?_ (by omega)
  rw [totalExponent]
  omega

theorem below_mul {place place' : Int} (nonneg : 0 ≤ place + place') {u v : UnpackedFloat}
    (hu : Below place u) (hv : Below place' v) :
    Below (place + place' + 1) (UnpackedFloat.mul .binary64 u v) := by
  cases hu with
  | zero => cases hv with
    | zero | finite => exact .zero _
  | @finite s m e pos total last => cases hv with
    | zero => exact .zero _
    | @finite s' m' e' pos' total' last' =>
      have product := log2_mul_le m m'
      rw [totalExponent] at total total'
      refine below_roundWithAccuracy nonneg _ _ ?_ (by omega)
      rw [totalExponent]
      omega

theorem isFinite_roundWithAccuracy (s : Sign) (m : Nat) (e : Int) (accuracy : Accuracy) :
    (roundWithAccuracy .binary64 s m e accuracy).isFinite := by
  unfold roundWithAccuracy
  simp only
  split <;> rfl

/-- Before it is packed, a product of finite numbers is finite. -/
theorem isFinite_mul {u v : UnpackedFloat} (hu : u.isFinite) (hv : v.isFinite) :
    (UnpackedFloat.mul .binary64 u v).isFinite := by
  cases u with
  | zero => cases v with
    | zero | finite => rfl
    | infinity | notANumber => cases hv
  | finite => cases v with
    | zero => rfl
    | finite => exact isFinite_roundWithAccuracy ..
    | infinity | notANumber => cases hv
  | infinity | notANumber => cases hu

/-- A whole number is scaled up by a multiplication. -/
theorem ofScientific_eq_mul {m : Nat} (nonzero : m ≠ 0) {k : Nat} (small : k ≤ 2048) :
    ∃ pos pos', UnpackedFloat.ofScientific .binary64 m k =
      UnpackedFloat.mul .binary64 (.finite .positive (m <<< 53) (-53) pos)
        (.finite .positive (10 ^ k) 0 pos') := by
  have range : (2 : Int) ^ Format.binary64.exponentBits = 2048 := rfl
  have notLarge : ¬ (k : Int) > 2 ^ Format.binary64.exponentBits := by omega
  have notSmall : ¬ (k : Int) < -(2 ^ Format.binary64.exponentBits + (m.log2 : Int)) := by omega
  unfold UnpackedFloat.ofScientific
  rw [dif_neg nonzero, if_neg notLarge, if_neg notSmall, if_pos (Int.natCast_nonneg k)]
  exact ⟨_, _, rfl⟩

/-- Dividing by a number of at least `2 ^ (place' - 1)` moves a number down as many places. -/
theorem below_div {place place' : Int} (nonneg : 0 ≤ place - place' + 1) {u : UnpackedFloat}
    (hu : Below place u) {s : Sign} {m : Nat} {e : Int} (pos : 0 < m)
    (least : place' ≤ totalExponent m e) :
    Below (place - place' + 2) (UnpackedFloat.div .binary64 u (.finite s m e pos)) := by
  cases hu with
  | zero => exact .zero _
  | @finite s' m' e' pos' total last =>
    -- the quotient is formed at an exponent that leaves it enough digits
    obtain ⟨target, isTarget⟩ : ∃ target, target = min (e' - e)
      (max (totalExponent m' e' - totalExponent m e - 53) (-1074)) := ⟨_, rfl⟩
    obtain ⟨shift, isShift⟩ : ∃ shift, shift = (e' - e - target).toNat := ⟨_, rfl⟩
    have shifted := log2_shiftLeft_le m' shift
    have quotient := log2_div_le pos (m' <<< shift)
    have core : UnpackedFloat.div .binary64 (.finite s' m' e' pos') (.finite s m e pos) =
        roundWithAccuracy .binary64 (s' / s) (m' <<< shift / m) target
          (accuracyOfFraction (m' <<< shift % m) m) := by
      subst isShift isTarget
      rfl
    rw [core, show place - place' + 2 = place - place' + 1 + 1 by omega]
    simp only [totalExponent] at *
    refine below_roundWithAccuracy nonneg _ _ ?_ (by omega)
    rw [totalExponent]
    omega

theorem below_neg {place : Int} {u : UnpackedFloat} (hu : Below place u) : Below place u.neg := by
  cases hu with
  | zero => exact .zero _
  | finite total last => exact .finite total last

/-! ### Packing -/

/-- What bits stand for is bounded by their exponent. -/
theorem below_unpack {place : Int} (nonneg : 0 ≤ place) {bits : BitVec Format.binary64.numBits}
    {exponent : BitVec 11} (isExponent : unpackExponent bits = exponent)
    (room : exponent.toNat ≤ place + 1022) (finite : exponent ≠ -1#11) :
    Below place (UnpackedFloat.unpack .binary64 bits) := by
  have bias : Format.binary64.exponentBias = 1023 := rfl
  have small : (unpackMantissa bits).toNat.log2 ≤ 51 := log2_le_of_lt (unpackMantissa bits).isLt
  have full : (1#1 ++ unpackMantissa bits).toNat.log2 ≤ 52 :=
    log2_le_of_lt (1#1 ++ unpackMantissa bits).isLt
  simp only [UnpackedFloat.unpack, isExponent, finite, if_false, bias]
  split
  next zero =>
    split
    · exact .zero _
    · subst zero
      refine .finite ?_ ?_
      · simp only [totalExponent, BitVec.toNat_ofNat]
        omega
      · simp
        omega
  next =>
    refine .finite ?_ (by omega)
    simp only [totalExponent]
    omega

/-- Every finite number has a bound. -/
theorem below_of_isFinite {bits : BitVec Format.binary64.numBits}
    (h : (UnpackedFloat.unpack .binary64 bits).isFinite) :
    Below 1024 (UnpackedFloat.unpack .binary64 bits) := by
  obtain ⟨exponent, isExponent⟩ : ∃ exponent : BitVec 11, unpackExponent bits = exponent := ⟨_, rfl⟩
  have finite : exponent ≠ -1#11 := by
    rintro rfl
    simp only [UnpackedFloat.unpack, isExponent, if_true] at h
    split at h <;> cases h
  have greatest : exponent.toNat ≠ 2047 := fun h => finite (BitVec.eq_of_toNat_eq h)
  have := exponent.isLt
  exact below_unpack (by decide) isExponent (by omega) finite

theorem below_unpack_packComponents {place : Int} (nonneg : 0 ≤ place) (s : Sign)
    {exponent : BitVec 11} (mantissa : BitVec 52) (room : exponent.toNat ≤ place + 1022)
    (finite : exponent ≠ -1#11) :
    Below place (UnpackedFloat.unpack .binary64 (packComponents .binary64 s exponent mantissa)) :=
  below_unpack nonneg unpackExponent_packComponents room finite

/-- An exponent below the greatest one belongs to a finite number. -/
theorem ofNat_ne_allOnes {n : Nat} (h : n + 1 < 2 ^ 11) : BitVec.ofNat 11 n ≠ -1#11 := by
  intro eq
  have value := congrArg BitVec.toNat eq
  simp only [BitVec.toNat_ofNat, BitVec.toNat_neg] at value
  omega

theorem isNaN_unpack_packComponents (s : Sign) {exponent : BitVec 11} (mantissa : BitVec 52)
    (finite : exponent ≠ -1#11) :
    (UnpackedFloat.unpack .binary64 (packComponents .binary64 s exponent mantissa)).isNaN =
      false := by
  have h := below_unpack_packComponents (Int.natCast_nonneg exponent.toNat) s mantissa (by omega)
    finite
  generalize UnpackedFloat.unpack .binary64 (packComponents .binary64 s exponent mantissa) = u at h
  cases h with
  | zero | finite => rfl

/-- Packing a finite number may make it infinite, but no less than a number. -/
theorem isNaN_unpack_pack {u : UnpackedFloat} (h : u.isFinite) :
    (Float.Model.pack u).unpack.isNaN = false := by
  cases u with
  | zero s =>
    have same : (Float.Model.pack (.zero s)).unpack = .zero s := unpack_packedZero
    rw [same]
    rfl
  | finite s m e pos =>
    show (UnpackedFloat.unpack _ (UnpackedFloat.pack _ _)).isNaN = false
    unfold UnpackedFloat.pack
    simp only
    split
    · simp [packedInfinity, UnpackedFloat.unpack, UnpackedFloat.isNaN]
    next small =>
      split
      · exact isNaN_unpack_packComponents _ _ (ofNat_ne_allOnes (Nat.lt_of_not_le small))
      · exact isNaN_unpack_packComponents _ _ (by decide)
  | infinity | notANumber => cases h

/-- Packing keeps the bound. -/
theorem below_unpack_pack {place : Int} (nonneg : 0 ≤ place) (fits : place ≤ 1024)
    {u : UnpackedFloat} (h : Below place u) :
    Below place (Float.Model.pack u).unpack := by
  cases h with
  | zero s =>
    have same : (Float.Model.pack (.zero s)).unpack = .zero s := unpack_packedZero
    rw [same]
    exact .zero s
  | @finite s m e pos total last =>
    show Below place (UnpackedFloat.unpack _ (UnpackedFloat.pack _ _))
    have bias : Format.binary64.exponentBias = 1023 := rfl
    unfold UnpackedFloat.pack
    simp only [bias]
    split
    next overflow => omega
    split
    · refine below_unpack_packComponents nonneg _ _ ?_ (ofNat_ne_allOnes (by omega))
      simp only [BitVec.toNat_ofNat]
      omega
    · exact below_unpack_packComponents nonneg _ _ (by simp; omega) (by decide)

/-! ### Numbers that are not too small -/

/-- The number has 53 digits, and its magnitude is at least `2 ^ (place - 1)`. -/
inductive AtLeast (place : Int) : UnpackedFloat → Prop
  | finite {s : Sign} {m : Nat} {e : Int} {pos : 0 < m} (digits : m.log2 = 52)
      (total : place ≤ totalExponent m e) (last : e ≤ 971) : AtLeast place (.finite s m e pos)

instance (place : Int) (u : UnpackedFloat) : Decidable (AtLeast place u) :=
  match u with
  | .finite _ m e _ =>
    decidable_of_iff (m.log2 = 52 ∧ place ≤ totalExponent m e ∧ e ≤ 971)
      ⟨fun h => .finite h.1 h.2.1 h.2.2,
        fun | .finite digits total last => ⟨digits, total, last⟩⟩
  | .zero _ => .isFalse nofun
  | .infinity _ => .isFalse nofun
  | .notANumber => .isFalse nofun

theorem AtLeast.isFinite {place : Int} {u : UnpackedFloat} (h : AtLeast place u) :
    u.isFinite := by
  cases h with
  | finite => rfl

/-- Rounding keeps a number that has all its digits. -/
theorem atLeast_roundWithAccuracy {place : Int} (normal : -1021 ≤ place) (s : Sign) {m : Nat}
    {e : Int} (accuracy : Accuracy) (digits : 52 ≤ m.log2) (total : place ≤ totalExponent m e)
    (small : totalExponent m e ≤ 1023) :
    AtLeast place (roundWithAccuracy .binary64 s m e accuracy) := by
  obtain ⟨em, k, first, dropped, target⟩ := shiftToTargetExponent_eq m e accuracy
  obtain ⟨em', k', second, dropped', target'⟩ :=
    shiftToTargetExponent_eq em.roundedMantissa (e + k) .exact
  simp only [totalExponent] at *
  have most : em.roundedMantissa.log2 ≤ m.log2 + 1 - k :=
    log2_le_of_le_div_add_one (dropped ▸ (roundedMantissa_bounds em).2)
  have least : m.log2 - k ≤ em.roundedMantissa.log2 := by
    rw [← log2_div_two_pow, ← dropped]
    simpa only [Nat.log2_eq_log_two] using Nat.log_mono_right (roundedMantissa_bounds em).1
  have rounded := log2_div_two_pow em.roundedMantissa k'
  have kept : em'.mantissa.log2 = 52 := by rw [dropped']; omega
  simp only [roundWithAccuracy, first, second]
  split
  next zero => simp [zero] at kept
  next =>
    refine .finite kept ?_ (by omega)
    rw [totalExponent, kept]
    omega

theorem log2_implicit_append (mantissa : BitVec 52) : (1#1 ++ mantissa).toNat.log2 = 52 := by
  have least : 2 ^ 52 ≤ (1#1 ++ mantissa).toNat := by
    rw [BitVec.toNat_append]
    exact Nat.left_le_or
  refine (Nat.log2_eq_iff (Nat.ne_of_gt (Nat.lt_of_lt_of_le (Nat.two_pow_pos 52) least))).mpr
    ⟨least, (1#1 ++ mantissa).isLt⟩

/-- Packing keeps a number that has all its digits. -/
theorem atLeast_unpack_pack {place : Int} (normal : -1021 ≤ place) {u : UnpackedFloat}
    (h : AtLeast place u) : AtLeast place (Float.Model.pack u).unpack := by
  cases h with
  | @finite s m e pos digits total last =>
    rw [totalExponent, digits] at total
    have bias : Format.binary64.exponentBias = 1023 := rfl
    have width : Format.binary64.mantissaBits = 53 := rfl
    show AtLeast place (UnpackedFloat.unpack _ (UnpackedFloat.pack _ _))
    unfold UnpackedFloat.pack
    simp only [bias, width, digits]
    rw [if_neg (by omega), if_pos True.intro]
    generalize eq : BitVec.ofNat 11 (e + 1023 + 52).toNat = exponent
    have biased : exponent.toNat = (e + 1023 + 52).toNat := by
      rw [← eq, BitVec.toNat_ofNat]
      omega
    have finite : exponent ≠ -1#11 := eq ▸ ofNat_ne_allOnes (by omega)
    have nonzero : exponent ≠ 0#11 := by
      rintro rfl
      simp only [BitVec.toNat_ofNat] at biased
      omega
    simp only [UnpackedFloat.unpack, unpackExponent_packComponents, unpackMantissa_packComponents,
      finite, nonzero, if_false, bias]
    refine .finite (log2_implicit_append _) ?_ (by omega)
    rw [totalExponent, log2_implicit_append]
    omega

end ViewBinding
