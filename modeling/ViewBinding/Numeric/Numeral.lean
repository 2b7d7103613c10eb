import ViewBinding.Numeric.Binary64

/-!
# Numeral — reading numbers from text

* `Number.parse?` reads a decimal with an optional sign, point and exponent, or a word for an
  infinity or NaN, rounding correctly.
* `Number.parseIndex?` reads an index: digits only, below `2 ^ 64`.
* `Number.leadingDigits` is the longest run of digits at the start of a text.
-/

namespace ViewBinding

namespace Number

/-- One more than the largest index. -/
def indexBound : Nat := Nat.pow 2 64

/-- The value of a list of digits, most significant first, continuing from `start`. -/
def ofDigits (start : Nat) (digits : List Char) : Nat :=
  digits.foldl (fun n c => 10 * n + (c.toNat - 48)) start

/-- The longest run of digits at the start, and what follows it. -/
def leadingDigits (text : List Char) : List Char × List Char :=
  (text.takeWhile Char.isDigit, text.dropWhile Char.isDigit)

/-- The number nearest to `± digits * 10 ^ exponent`.  Exponents that only an infinity or a zero can
follow are cut off, so that no large power is formed. -/
def ofDecimal (negative : Bool) (digits : Nat) (exponent : Int) : Float :=
  let magnitude : Float :=
    if digits = 0 then 0.0
    else
      let place := exponent + (toString digits).length
      if place > 400 then 1.0 / 0.0
      else if place < -400 then 0.0
      else Float.ofScientific digits (exponent < 0) exponent.natAbs
  if negative then -magnitude else magnitude

/-- A sign at the start of a text, and what follows it. -/
def splitSign : List Char → Bool × List Char
  | '-' :: rest => (true, rest)
  | '+' :: rest => (false, rest)
  | text => (false, text)

/-- The digits of an exponent with its sign; nothing may follow them. -/
def parseExponent? (text : List Char) : Option Int :=
  let (negative, rest) := splitSign text
  match leadingDigits rest with
  | ([], _) => none
  | (digits, []) => some (if negative then -(ofDigits 0 digits : Int) else ofDigits 0 digits)
  | (_, _ :: _) => none

/-- An unsigned decimal: digits around an optional point, at least one, then an optional exponent.
-/
def parseUnsigned? (negative : Bool) (text : List Char) : Option Float :=
  let (whole, rest) := leadingDigits text
  let (fraction, rest) : List Char × List Char :=
    match rest with
    | '.' :: rest => leadingDigits rest
    | rest => ([], rest)
  if whole.isEmpty && fraction.isEmpty then none
  else
    let digits := ofDigits (ofDigits 0 whole) fraction
    let places : Int := fraction.length
    match rest with
    | [] => some (ofDecimal negative digits (-places))
    | c :: rest =>
      if c = 'e' ∨ c = 'E' then
        (parseExponent? rest).map fun e => ofDecimal negative digits (e - places)
      else none

/-- A whole text as a number. -/
def parse? (text : List Char) : Option Float :=
  let (negative, rest) := splitSign text
  let word := String.ofList (rest.map Char.toLower)
  if word = "inf" || word = "infinity" then
    some (if negative then -(1.0 / 0.0) else 1.0 / 0.0)
  else if word = "nan" then some (0.0 / 0.0)
  else parseUnsigned? negative rest

/-- A whole text as an index: digits with an optional plus sign, below `indexBound`. -/
def parseIndex? (text : String) : Option Nat :=
  let digits : List Char :=
    match text.toList with
    | '+' :: rest => rest
    | chars => chars
  match leadingDigits digits with
  | ([], _) => none
  | (run, []) =>
    let n := ofDigits 0 run
    if n < indexBound then some n else none
  | (_, _ :: _) => none

end Number

end ViewBinding
