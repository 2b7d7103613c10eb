import ViewBinding.Json.Printer
import ViewBinding.Json.Reader

/-!
# Json.Numbers — a number is read up to its end

A number has no closing character: it ends where nothing that follows can continue it.  What a
reader makes of a text with a number and nothing else, it makes of the same text before a comma or a
closing bracket (`readUnsigned_append`).  That the digits of the number denote it plays no part
here.
-/

namespace ViewBinding

namespace Json

/-- The text does not continue a number that it follows. -/
def Stops (text : List Char) : Prop :=
  ∀ c ∈ text.head?, ¬ c.isDigit ∧ c ≠ '.' ∧ c ≠ 'e' ∧ c ≠ 'E'

theorem stops_nil : Stops [] := nofun

theorem leadingDigits_cons (c : Char) (text : List Char) :
    Number.leadingDigits (c :: text) =
      if c.isDigit then
        (c :: (Number.leadingDigits text).1, (Number.leadingDigits text).2)
      else ([], c :: text) := by
  unfold Number.leadingDigits
  split <;> simp [*]

theorem Stops.leadingDigits {text : List Char} (stops : Stops text) :
    Number.leadingDigits text = ([], text) := by
  cases text with
  | nil => rfl
  | cons c text => rw [leadingDigits_cons, if_neg (stops c rfl).1]

section Append

variable {text rest more : List Char}

theorem leadingDigits_append {digits : List Char}
    (read : Number.leadingDigits text = (digits, rest)) (stops : rest = [] → Stops more) :
    Number.leadingDigits (text ++ more) = (digits, rest ++ more) := by
  induction text generalizing digits with
  | nil =>
    cases read
    exact (stops rfl).leadingDigits
  | cons c text ih =>
    rw [leadingDigits_cons] at read
    rw [List.cons_append, leadingDigits_cons]
    rcases found : Number.leadingDigits text with ⟨ds, after⟩
    rw [found] at read
    split at read
    next digit =>
      cases read
      rw [if_pos digit, ih found]
    next other =>
      cases read
      rw [if_neg other]
      rfl

theorem splitSign_append (nonempty : text ≠ []) :
    Number.splitSign (text ++ more) =
      ((Number.splitSign text).1, (Number.splitSign text).2 ++ more) := by
  cases text with
  | nil => exact absurd rfl nonempty
  | cons c text =>
    simp only [List.cons_append, Number.splitSign]
    split <;> split <;> simp_all

theorem Stops.readExponent (stops : Stops more) : readExponent more = some (none, more) := by
  cases more with
  | nil => rfl
  | cons c more =>
    have ⟨_, _, small, capital⟩ := stops c rfl
    simp only [Json.readExponent, small, capital, or_self, if_false]

theorem readExponent_append {exponent : Option Int}
    (read : readExponent text = some (exponent, rest)) (stops : rest = [] → Stops more) :
    readExponent (text ++ more) = some (exponent, rest ++ more) := by
  cases text with
  | nil =>
    cases read
    exact (stops rfl).readExponent
  | cons c text =>
    rw [List.cons_append]
    simp only [readExponent] at read ⊢
    split at read
    next mark =>
      rw [if_pos mark]
      have nonempty : text ≠ [] := by rintro rfl; cases read
      rw [splitSign_append nonempty]
      rcases digits : Number.leadingDigits (Number.splitSign text).2 with ⟨_ | ⟨d, ds⟩, after⟩
      · simp only [digits] at read
        cases read
      · simp only [digits] at read
        cases read
        simp only [leadingDigits_append digits stops]
    next mark =>
      cases read
      rw [if_neg mark]
      rfl

theorem Stops.readFraction (stops : Stops more) : readFraction more = some (none, more) := by
  unfold Json.readFraction
  split
  · exact absurd rfl (stops '.' rfl).2.1
  · rfl

theorem readFraction_of_ne {c : Char} (point : c ≠ '.') :
    readFraction (c :: text) = some (none, c :: text) := by
  unfold readFraction
  split
  · next eq => cases eq; exact absurd rfl point
  · rfl

theorem readFraction_append {fraction : Option (List Char)}
    (read : readFraction text = some (fraction, rest)) (stops : rest = [] → Stops more) :
    readFraction (text ++ more) = some (fraction, rest ++ more) := by
  cases text with
  | nil =>
    cases read
    exact (stops rfl).readFraction
  | cons c text =>
    rw [List.cons_append]
    by_cases point : c = '.'
    · subst point
      simp only [readFraction] at read ⊢
      rcases digits : Number.leadingDigits text with ⟨_ | ⟨d, ds⟩, after⟩
      · simp only [digits] at read
        cases read
      · simp only [digits] at read
        cases read
        simp only [leadingDigits_append digits stops]
    · rw [readFraction_of_ne point] at read ⊢
      cases read
      rfl

theorem readNumeral_eq_some_iff {numeral : Numeral} :
    readNumeral text = some (numeral, rest) ↔
      numeral.whole ≠ [] ∧ (∀ d ds, numeral.whole ≠ '0' :: d :: ds) ∧
      ∃ after after', Number.leadingDigits text = (numeral.whole, after) ∧
        readFraction after = some (numeral.fraction, after') ∧
        readExponent after' = some (numeral.exponent, rest) := by
  unfold readNumeral
  rcases found : Number.leadingDigits text with ⟨digits, after⟩
  obtain ⟨whole, fraction, exponent⟩ := numeral
  split
  next empty =>
    cases empty
    simp only [reduceCtorEq, false_iff]
    rintro ⟨nonempty, -, _, _, digits, -⟩
    cases digits
    exact nonempty rfl
  next zero =>
    cases zero
    simp only [reduceCtorEq, false_iff]
    rintro ⟨-, nonzero, _, _, digits, -⟩
    cases digits
    exact nonzero _ _ rfl
  next digits' after' nonempty nonzero eq =>
    cases eq
    simp only [Option.bind_eq_bind, Option.bind_eq_some_iff, Option.some.injEq, Prod.exists,
      Prod.mk.injEq, Numeral.mk.injEq]
    constructor
    · rintro ⟨_, after', point, _, _, mark, ⟨rfl, rfl, rfl⟩, rfl⟩
      exact ⟨nonempty, nonzero, _, after', ⟨rfl, rfl⟩, point, mark⟩
    · rintro ⟨-, -, _, after', ⟨rfl, rfl⟩, point, mark⟩
      exact ⟨_, after', point, _, _, mark, ⟨rfl, rfl, rfl⟩, rfl⟩

theorem readNumeral_append {numeral : Numeral}
    (read : readNumeral text = some (numeral, rest)) (stops : rest = [] → Stops more) :
    readNumeral (text ++ more) = some (numeral, rest ++ more) := by
  obtain ⟨_, fraction, exponent⟩ := numeral
  obtain ⟨nonempty, zero, after, after', digits, point, mark⟩ := readNumeral_eq_some_iff.mp read
  have last : after' = [] → rest = [] := by rintro rfl; cases mark; rfl
  have first : after = [] → after' = [] := by rintro rfl; cases point; rfl
  exact readNumeral_eq_some_iff.mpr ⟨nonempty, zero, _, _,
    leadingDigits_append digits fun e => stops (last (first e)),
    readFraction_append point fun e => stops (last e), readExponent_append mark stops⟩

theorem readUnsigned_append {negative : Bool} {number : Json}
    (read : readUnsigned negative text = some (number, rest)) (stops : rest = [] → Stops more) :
    readUnsigned negative (text ++ more) = some (number, rest ++ more) := by
  simp only [readUnsigned, Option.bind_eq_bind, Option.bind_eq_some_iff, Option.some.injEq,
    Prod.mk.injEq, Prod.exists] at read ⊢
  obtain ⟨numeral, _, parts, _, value, rfl, rfl⟩ := read
  exact ⟨numeral, _, readNumeral_append parts stops, _, value, rfl, rfl⟩

/-- A number begins with a digit. -/
theorem isDigit_of_readUnsigned {negative : Bool} {number : Json}
    (read : readUnsigned negative text = some (number, rest)) :
    ∃ c text', text = c :: text' ∧ c.isDigit := by
  simp only [readUnsigned, Option.bind_eq_bind, Option.bind_eq_some_iff, Prod.exists] at read
  obtain ⟨numeral, _, parts, -⟩ := read
  obtain ⟨nonempty, -, after, -, digits, -⟩ := readNumeral_eq_some_iff.mp parts
  cases text with
  | nil => exact absurd (Prod.mk.inj digits).1.symm nonempty
  | cons c text =>
    refine ⟨c, text, rfl, ?_⟩
    rw [leadingDigits_cons] at digits
    split at digits
    · assumption
    · exact absurd (Prod.mk.inj digits).1.symm nonempty

end Append

end Json

end ViewBinding
