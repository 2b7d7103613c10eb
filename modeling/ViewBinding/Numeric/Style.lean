import ViewBinding.Numeric.Shortest

/-!
# Style — how numbers are written

A `NumberStyle` holds the decisions of one text format for numbers; `NumberStyle.write` follows
them.  The formats themselves are values of this type, defined where they are used.
-/

namespace ViewBinding

/-- The decisions of a text format for numbers.  The leading digit of a number has the decimal
place `p` when its magnitude is between `10 ^ p` and `10 ^ (p + 1)`. -/
structure NumberStyle where
  /-- Which of two equally near shortest decimals is written. -/
  tie : Tie
  /-- Whole numbers with a magnitude below this are written with all their digits. -/
  wholeBelow : Nat
  /-- Places of the leading digit that are written without an exponent; all when absent. -/
  plain : Option (Int × Int)
  /-- Whole numbers written without an exponent end in a point and a zero. -/
  pointZero : Bool
  zero : String
  negativeZero : String
  nan : String
  infinity : String
  negativeInfinity : String

namespace NumberStyle

/-- `n` zeros. -/
def zeros (n : Nat) : String := "".pushn '0' n

/-- A decimal without an exponent. -/
def writePlain (pointZero : Bool) (d : Decimal) : String :=
  let text := toString d.digits
  if 0 ≤ d.exponent then
    text ++ zeros d.exponent.toNat ++ (if pointZero then ".0" else "")
  else
    let places := (-d.exponent).toNat
    if places < text.length then
      let whole := text.length - places
      (text.take whole).toString ++ "." ++ (text.drop whole).toString
    else "0." ++ zeros (places - text.length) ++ text

/-- A decimal with one digit before the point and a signed exponent. -/
def writeScientific (d : Decimal) : String :=
  let text := toString d.digits
  let place : Int := d.exponent + text.length - 1
  let rest := (text.drop 1).toString
  (text.take 1).toString ++ (if rest.isEmpty then "" else "." ++ rest) ++ "e"
    ++ (if place < 0 then "-" else "+") ++ toString place.natAbs

/-- The place of the leading digit. -/
def leadingPlace (d : Decimal) : Int := d.exponent + (toString d.digits).length - 1

/-- A positive decimal in this style. -/
def writeDecimal (style : NumberStyle) (d : Decimal) : String :=
  match style.plain with
  | none => writePlain style.pointZero d
  | some (low, high) =>
    let place := leadingPlace d
    if low ≤ place ∧ place < high then writePlain style.pointZero d else writeScientific d

/-- The magnitude of a finite nonzero number in this style. -/
def writeMagnitude (style : NumberStyle) (x : Binary64) : String :=
  if x.isWhole && x.floorMagnitude < style.wholeBelow then toString x.floorMagnitude
  else style.writeDecimal (x.shortest style.tie)

/-- A number in this style. -/
def write (style : NumberStyle) (x : Float) : String :=
  if x.isNaN then style.nan
  else if x.isInf then (if x > 0.0 then style.infinity else style.negativeInfinity)
  else
    let parts := Binary64.ofFloat x
    if parts.mantissa = 0 then (if parts.negative then style.negativeZero else style.zero)
    else (if parts.negative then "-" else "") ++ style.writeMagnitude parts

end NumberStyle

namespace Number

/-- How a number becomes text: whole numbers below `10 ^ 21` with all their digits, all others
with the fewest digits that identify them and never with an exponent. -/
def displayStyle : NumberStyle where
  tie := .up
  wholeBelow := Nat.pow 10 21
  plain := none
  pointZero := false
  zero := "0"
  negativeZero := "0"
  nan := "NaN"
  infinity := "Infinity"
  negativeInfinity := "-Infinity"

/-- The text of a number. -/
def display (x : Float) : String := displayStyle.write x

end Number

end ViewBinding
