import ViewBinding.Numeric.Style
import ViewBinding.Proofs.Sameness
import ViewBinding.Proofs.Expr.Written

/-!
# Expr — names and numbers as words

In the canonical text a name, a keyword and a number are words: runs of letters, digits, `_` and `$`,
where a point belongs to the word if a digit follows it.  A negative number has a sign in front.

A word is read as far as it goes (`Text.splitWord`), so what follows must not continue it
(`Text.Unbroken`).  Identifiers are unbroken, and the text of a finite number is an unbroken word
that begins with a digit, behind an optional sign (`Number.display_word`).  Only zero is written `0`
(`Number.display_eq_zero_iff`).
-/

namespace ViewBinding

namespace Text

/-- Whether a character may stand in an identifier. -/
def isWordChar (c : Char) : Bool := c.isAlphanum || c == '_' || c == '$'

/-- Whether a text is an identifier: it begins with no digit. -/
def isIdentifier (text : String) : Bool :=
  match text.toList with
  | [] => false
  | c :: rest => isWordChar c && !c.isDigit && rest.all isWordChar

/-- Whether a word goes on with this text. -/
def continues : List Char → Bool
  | [] => false
  | [c] => isWordChar c
  | c :: d :: _ => isWordChar c || (c == '.' && d.isDigit)

/-- A word, and what follows it. -/
def splitWord : List Char → List Char × List Char
  | [] => ([], [])
  | c :: rest =>
    if continues (c :: rest) then (c :: (splitWord rest).1, (splitWord rest).2) else ([], c :: rest)

/-- The text is read as one word where the word does not go on. -/
def Unbroken (text : List Char) : Prop :=
  ∀ rest, continues rest = false → splitWord (text ++ rest) = (text, rest)

theorem continues_of_isWordChar {c : Char} (h : isWordChar c) (rest : List Char) :
    continues (c :: rest) := by
  cases rest <;> simp [continues, h]

theorem isWordChar_of_isDigit {c : Char} (h : c.isDigit) : isWordChar c := by
  simp [isWordChar, Char.isAlphanum, h]

/-- Letters and digits at the beginning belong to the word. -/
theorem splitWord_append {text : List Char} (h : ∀ c ∈ text, isWordChar c) (rest : List Char) :
    splitWord (text ++ rest) = (text ++ (splitWord rest).1, (splitWord rest).2) := by
  induction text with
  | nil => rfl
  | cons c text ih =>
    rw [List.cons_append, splitWord, if_pos (continues_of_isWordChar (h c List.mem_cons_self) _),
      ih fun d m => h d (List.mem_cons_of_mem _ m)]
    rfl

theorem splitWord_of_not_continues {rest : List Char} (h : continues rest = false) :
    splitWord rest = ([], rest) := by
  cases rest with
  | nil => rfl
  | cons c rest => rw [splitWord, if_neg (by simp [h])]

theorem unbroken_of_isWordChar {text : List Char} (h : ∀ c ∈ text, isWordChar c) :
    Unbroken text := fun rest stops => by
  rw [splitWord_append h, splitWord_of_not_continues stops, List.append_nil]

/-- Digits with a point and more digits. -/
theorem unbroken_point {whole fraction : List Char} {d : Char} (h : ∀ c ∈ whole, c.isDigit)
    (digit : d.isDigit) (h' : ∀ c ∈ fraction, c.isDigit) :
    Unbroken (whole ++ '.' :: d :: fraction) := fun rest stops => by
  have behind : splitWord (d :: fraction ++ rest) = (d :: fraction, rest) :=
    unbroken_of_isWordChar (fun c m => isWordChar_of_isDigit
      ((List.mem_cons.1 m).elim (fun is => is ▸ digit) (h' c))) rest stops
  have point : continues ('.' :: (d :: fraction ++ rest)) := by simp [continues, digit]
  rw [List.append_assoc, splitWord_append fun c m => isWordChar_of_isDigit (h c m)]
  rw [List.cons_append, splitWord, if_pos point, behind]

/-- An identifier begins with a letter, and is read as one word. -/
theorem isIdentifier_word {text : String} (h : isIdentifier text) :
    Unbroken text.toList ∧ ∃ c rest, text.toList = c :: rest ∧ isWordChar c ∧ c.isDigit = false := by
  unfold isIdentifier at h
  split at h
  · cases h
  next c rest is =>
    simp only [Bool.and_eq_true, Bool.not_eq_true', List.all_eq_true] at h
    refine ⟨is ▸ unbroken_of_isWordChar fun d m => ?_, c, rest, is, h.1.1, h.1.2⟩
    exact (List.mem_cons.1 m).elim (fun is => is ▸ h.1.1) (h.2 d)

end Text

namespace NumberStyle

theorem toList_zeros (n : Nat) : (zeros n).toList = List.replicate n '0' := by
  have pushed : ∀ s : String, (s.pushn '0' n).toList = s.toList ++ List.replicate n '0' := by
    intro s
    rw [String.pushn_eq_repeat_push]
    induction n with
    | zero => simp [Nat.repeat]
    | succ n ih =>
      rw [Nat.repeat, String.toList_push, ih, List.append_assoc, ← List.replicate_succ']
  simpa [zeros] using pushed ""

/-- The text of a decimal: digits, or digits with a point and more digits. -/
inductive Plain : List Char → Prop
  | whole {digits : List Char} (some : digits ≠ []) (h : ∀ c ∈ digits, c.isDigit) : Plain digits
  | point {whole fraction : List Char} {d : Char} (some : whole ≠ []) (h : ∀ c ∈ whole, c.isDigit)
      (digit : d.isDigit) (h' : ∀ c ∈ fraction, c.isDigit) : Plain (whole ++ '.' :: d :: fraction)

theorem Plain.unbroken {text : List Char} (h : Plain text) : Text.Unbroken text := by
  cases h with
  | whole _ h => exact Text.unbroken_of_isWordChar fun c m => Text.isWordChar_of_isDigit (h c m)
  | point _ h digit h' => exact Text.unbroken_point h digit h'

theorem Plain.digit {text : List Char} (h : Plain text) : ∃ c rest, text = c :: rest ∧ c.isDigit := by
  cases h with
  | @whole _ some h =>
    obtain ⟨c, rest, rfl⟩ := List.exists_cons_of_ne_nil some
    exact ⟨c, rest, rfl, h c List.mem_cons_self⟩
  | @point _ _ _ some h =>
    obtain ⟨c, rest, rfl⟩ := List.exists_cons_of_ne_nil some
    exact ⟨c, _, rfl, h c List.mem_cons_self⟩

theorem isDigit_of_mem_replicate {c : Char} {n : Nat} (m : c ∈ List.replicate n '0') : c.isDigit := by
  rw [List.eq_of_mem_replicate m]
  rfl

theorem isDigit_of_mem_toDigits {c : Char} {n : Nat} (m : c ∈ Nat.toDigits 10 n) : c.isDigit :=
  Nat.isDigit_of_mem_toDigits (by decide) (by decide) m

/-- A number in digits is zero only when they are. -/
theorem eq_zero_of_toDigits_append {n k : Nat}
    (h : Nat.toDigits 10 n ++ List.replicate k '0' = ['0']) : n = 0 := by
  have one : (Nat.toDigits 10 n).length + k = 1 := by
    simpa using congrArg List.length h
  have : 0 < (Nat.toDigits 10 n).length := Nat.length_toDigits_pos
  obtain rfl : k = 0 := by omega
  rw [List.replicate_zero, List.append_nil] at h
  have value := Nat.ofDigitChars_ten_toDigits (n := n)
  rw [h] at value
  exact value.symm

/-- A decimal without an exponent, and only zero is written `0`. -/
theorem plain_writePlain (d : Decimal) : Plain (writePlain false d).toList ∧
    ((writePlain false d).toList = ['0'] → d.digits = 0) := by
  have digits : (toString d.digits).toList = Nat.toDigits 10 d.digits := Nat.toList_repr
  unfold writePlain
  simp only [if_false, Bool.false_eq_true]
  split
  · simp only [String.toList_append, digits, toList_zeros, String.toList_empty, List.append_nil]
    refine ⟨.whole (by simp) fun c m => ?_, eq_zero_of_toDigits_append⟩
    exact (List.mem_append.1 m).elim isDigit_of_mem_toDigits isDigit_of_mem_replicate
  next negative =>
    generalize isPlaces : (-d.exponent).toNat = places
    have pos : 0 < places := by omega
    have length : (toString d.digits).length = (Nat.toDigits 10 d.digits).length := by
      rw [← digits, String.length_toList]
    split
    next fits =>
      rw [length] at fits
      generalize isCut : (toString d.digits).length - places = cut
      rw [length] at isCut
      have cuts : (((toString d.digits).take cut).toString ++ "." ++
          ((toString d.digits).drop cut).toString).toList =
          (Nat.toDigits 10 d.digits).take cut ++ '.' :: (Nat.toDigits 10 d.digits).drop cut := by
        simp
      have before : (Nat.toDigits 10 d.digits).take cut ≠ [] := by
        rw [Ne, List.take_eq_nil_iff]
        exact not_or.2 ⟨by omega, Nat.toDigits_ne_nil⟩
      obtain ⟨c, fraction, behind⟩ : ∃ c fraction,
          (Nat.toDigits 10 d.digits).drop cut = c :: fraction :=
        List.exists_cons_of_ne_nil fun none => by rw [List.drop_eq_nil_iff] at none; omega
      have digit : ∀ e ∈ c :: fraction, e.isDigit := fun e m =>
        isDigit_of_mem_toDigits (List.mem_of_mem_drop (behind ▸ m))
      rw [cuts, behind]
      refine ⟨.point before (fun e m => isDigit_of_mem_toDigits (List.mem_of_mem_take m))
        (digit c List.mem_cons_self) fun e m => digit e (List.mem_cons_of_mem _ m), fun zero => ?_⟩
      have length := congrArg List.length zero
      simp only [List.length_append, List.length_cons, List.length_nil] at length
      omega
    next wide =>
      obtain ⟨c, fraction, behind⟩ : ∃ c fraction, List.replicate (places -
          (toString d.digits).length) '0' ++ Nat.toDigits 10 d.digits = c :: fraction :=
        List.exists_cons_of_ne_nil (by simp)
      have digit : ∀ e ∈ c :: fraction, e.isDigit := fun e m => by
        rw [← behind] at m
        exact (List.mem_append.1 m).elim isDigit_of_mem_replicate isDigit_of_mem_toDigits
      have text : ("0." ++ zeros (places - (toString d.digits).length) ++
          toString d.digits).toList = ['0'] ++ '.' :: c :: fraction := by
        rw [String.toList_append, String.toList_append, toList_zeros, digits, List.append_assoc,
          behind]
        rfl
      rw [text]
      exact ⟨.point (by simp) (by simp) (digit c List.mem_cons_self)
        fun e m => digit e (List.mem_cons_of_mem _ m), fun zero => by simp at zero⟩

end NumberStyle

namespace Binary64

variable {x : Binary64}

theorem digits_stripZeros_ne_zero : ∀ (fuel : Nat) {d : Decimal}, d.digits ≠ 0 →
    (d.stripZeros fuel).digits ≠ 0
  | 0, _, h => h
  | fuel + 1, d, h => by
    rw [Decimal.stripZeros]
    split
    next strip =>
      have left : d.digits / 10 ≠ 0 := by omega
      exact digits_stripZeros_ne_zero fuel left
    · exact h

theorem digits_onGrid?_ne_zero {tie : Tie} {k : Int} {d : Decimal} (h : x.onGrid? tie k = some d) :
    d.digits ≠ 0 := by
  have upper : (⟨x.floorOnGrid k + 1, k⟩ : Decimal).digits ≠ 0 := Nat.succ_ne_zero _
  unfold onGrid? at h
  dsimp only at h
  split at h
  next lower _ => cases h; simp at lower; exact lower.1
  next => cases h; exact upper
  next => cases h
  next lower _ =>
    simp only [Bool.and_eq_true, decide_eq_true_eq] at lower
    split at h <;> cases h
    · exact lower.1
    · exact upper
    · exact upper
    · split
      · exact lower.1
      · exact upper

/-- The shortest decimal of a number that is not zero is not zero. -/
theorem digits_shortest_ne_zero (nonzero : x.mantissa ≠ 0) (tie : Tie) :
    (x.shortest tie).digits ≠ 0 := by
  refine digits_stripZeros_ne_zero _ ?_
  cases found : (List.range 17).findSome? fun n => x.onGrid? tie (x.scale - (n + 1 : Nat)) with
  | some d =>
    obtain ⟨n, -, e⟩ := List.exists_of_findSome?_eq_some found
    exact digits_onGrid?_ne_zero e
  | none =>
    exact Nat.mul_ne_zero (Nat.mul_ne_zero nonzero (Nat.pow_pos (by decide)).ne')
      (Nat.pow_pos (by decide)).ne'

theorem floorMagnitude_ne_zero (nonzero : x.mantissa ≠ 0) (whole : x.isWhole) :
    x.floorMagnitude ≠ 0 := by
  simp only [isWhole, beq_iff_eq] at whole
  have divides := Nat.dvd_of_mod_eq_zero whole
  have pos : 0 < Nat.pow 2 (-x.exponent).toNat := Nat.pow_pos (by decide)
  have full : 0 < Nat.pow 2 x.exponent.toNat := Nat.pow_pos (by decide)
  refine (Nat.div_pos ?_ pos).ne'
  exact (Nat.le_of_dvd (Nat.pos_of_ne_zero nonzero) divides).trans (Nat.le_mul_of_pos_right _ full)

/-- Only the bits of the two zeros have the mantissa zero. -/
theorem eq_of_mantissa_eq_zero {bits : UInt64} (h : (ofBits bits).mantissa = 0) :
    bits = 0 ∨ bits = 0x8000000000000000 := by
  -- the fields of the number, as arithmetic of its bits
  have exponent : ((bits >>> 52) &&& 0x7FF).toNat = bits.toNat / 2 ^ 52 % 2 ^ 11 := by
    rw [UInt64.toNat_and, UInt64.toNat_shiftRight, show (0x7FF : UInt64).toNat = 2 ^ 11 - 1 from rfl,
      Nat.and_two_pow_sub_one_eq_mod, Nat.shiftRight_eq_div_pow]
    rfl
  have fraction : (bits &&& 0xFFFFFFFFFFFFF).toNat = bits.toNat % 2 ^ 52 := by
    rw [UInt64.toNat_and, show (0xFFFFFFFFFFFFF : UInt64).toNat = 2 ^ 52 - 1 from rfl,
      Nat.and_two_pow_sub_one_eq_mod]
  have size := bits.toNat_lt
  unfold ofBits at h
  simp only [exponent, fraction, beq_iff_eq] at h
  split at h
  next zero =>
    have : bits.toNat = 0 ∨ bits.toNat = 0x8000000000000000 := by
      dsimp only at h; omega
    exact this.imp (UInt64.toNat_inj.1 ·) (UInt64.toNat_inj.1 ·)
  next =>
    have pos : 0 < Nat.pow 2 52 := Nat.pow_pos (by decide)
    dsimp only at h; omega

end Binary64

namespace Number

open Float.Model (UnpackedFloat)

/-- Both zeros have the mantissa zero, and no other finite number. -/
theorem mantissa_eq_zero_iff {bits : UInt64} (finite : (Float.ofBits bits).isFinite) :
    (Binary64.ofFloat (Float.ofBits bits)).mantissa = 0 ↔ (Float.ofBits bits == 0.0) = true := by
  rw [Binary64.ofFloat, toBits_ofBits (isNaN_eq_false finite)]
  constructor
  · intro h
    obtain rfl | rfl := Binary64.eq_of_mantissa_eq_zero h <;> decide
  · intro h
    have alike := (Value.beq_iff _ _).1 h
    have bits' : UInt64.ofBitVec (UnpackedFloat.pack .binary64 (Float.ofBits bits).toModel.unpack) =
        bits := by
      have kept := toBits_ofBits (isNaN_eq_false finite)
      have again := congrArg (Float.toBits ∘ Float.ofBits) kept
      exact again.trans kept
    generalize (Float.ofBits bits).toModel.unpack = u at alike bits'
    cases u with
    | zero s =>
      rw [← bits']
      cases s <;> decide
    | _ => exact alike.elim

theorem plain_writeMagnitude (x : Binary64) :
    NumberStyle.Plain (displayStyle.writeMagnitude x).toList ∧
    (x.mantissa ≠ 0 → (displayStyle.writeMagnitude x).toList ≠ ['0']) := by
  unfold NumberStyle.writeMagnitude
  split
  next whole =>
    have digits : (toString x.floorMagnitude).toList = Nat.toDigits 10 x.floorMagnitude :=
      Nat.toList_repr
    rw [Bool.and_eq_true] at whole
    rw [digits]
    refine ⟨.whole (by simp) fun c m => NumberStyle.isDigit_of_mem_toDigits m, fun nonzero zero => ?_⟩
    exact Binary64.floorMagnitude_ne_zero nonzero whole.1
      (NumberStyle.eq_zero_of_toDigits_append (k := 0) (by simpa using zero))
  · obtain ⟨plain, zero⟩ := NumberStyle.plain_writePlain (x.shortest displayStyle.tie)
    exact ⟨plain, fun nonzero is => Binary64.digits_shortest_ne_zero nonzero _ (zero is)⟩

theorem isInf_eq_false {x : Float} (finite : x.isFinite) : x.isInf = false := by
  change x.toModel.unpack.isFinite = true at finite
  show x.toModel.unpack.isInf = false
  generalize x.toModel.unpack = u at finite ⊢
  cases u with
  | zero | finite => rfl
  | infinity | notANumber => cases finite

/-- The text of a finite number. -/
theorem display_eq {x : Float} (finite : x.isFinite) :
    display x = if (Binary64.ofFloat x).mantissa = 0 then "0"
      else (if (Binary64.ofFloat x).negative then "-" else "") ++
        displayStyle.writeMagnitude (Binary64.ofFloat x) := by
  unfold display NumberStyle.write
  rw [isNaN_eq_false finite, isInf_eq_false finite]
  have zero : (if (Binary64.ofFloat x).negative then displayStyle.negativeZero
      else displayStyle.zero) = "0" := ite_self _
  simp only [Bool.false_eq_true, if_false, zero]

/-- **The text of a finite number** is a word that begins with a digit, behind an optional sign. -/
theorem display_word {x : Float} (finite : x.isFinite) : ∃ sign text,
    (display x).toList = sign ++ text ∧ (sign = [] ∨ sign = ['-']) ∧ NumberStyle.Plain text := by
  have magnitude := (plain_writeMagnitude (Binary64.ofFloat x)).1
  rw [display_eq finite]
  split
  · exact ⟨[], ['0'], rfl, .inl rfl, .whole (by simp) (by simp)⟩
  · split
    · exact ⟨['-'], _, String.toList_append, .inr rfl, magnitude⟩
    · exact ⟨[], _, String.toList_append, .inl rfl, magnitude⟩

/-- **Only zero** is written `0`. -/
theorem display_eq_zero_iff {x : Float} (finite : x.isFinite) :
    display x = "0" ↔ (Binary64.ofFloat x).mantissa = 0 := by
  rw [display_eq finite]
  split
  next zero => exact ⟨fun _ => zero, fun _ => rfl⟩
  next nonzero =>
    refine ⟨fun is => absurd (congrArg String.toList is) ?_, fun zero => (nonzero zero).elim⟩
    rw [String.toList_append]
    split
    · exact fun is => by cases (List.cons.inj is).1
    · exact (plain_writeMagnitude (Binary64.ofFloat x)).2 nonzero

end Number

end ViewBinding
