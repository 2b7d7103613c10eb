/-!
# Binary64 — exact views of floating-point numbers

Machine numbers are `Float`.  Where a rule needs the exact value of one (how it is written, which
index it names, what remains after a division) it goes through `Binary64`, the sign, the natural
`mantissa` and the binary `exponent` of a finite number: its magnitude is
`mantissa * 2 ^ exponent`.

* `Binary64.ofFloat` reads the bits; it is meaningful for finite numbers only.
* `Binary64.toFloat` writes bits back, exactly for values that need at most 53 digits.
* `Number.truncate?`, `Number.remainder`, `Number.toInt32` are the exact operations on top.
-/

namespace ViewBinding

/-- A finite floating-point number, taken apart: `± mantissa * 2 ^ exponent`. -/
structure Binary64 where
  negative : Bool
  mantissa : Nat
  exponent : Int
  /-- The number below is half as far away as the number above: a power of two that is not the
  least normal number. -/
  narrowBelow : Bool
deriving Repr, DecidableEq

namespace Binary64

/-- The parts of a number's bits. -/
def ofBits (bits : UInt64) : Binary64 :=
  let negative := bits >>> 63 == 1
  let biased := ((bits >>> 52) &&& 0x7FF).toNat
  let fraction := (bits &&& 0xFFFFFFFFFFFFF).toNat
  if biased == 0 then ⟨negative, fraction, -1074, false⟩
  else ⟨negative, Nat.pow 2 52 + fraction, (biased : Int) - 1075, fraction == 0 && biased > 1⟩

/-- The parts of a finite number. -/
def ofFloat (x : Float) : Binary64 := ofBits x.toBits

/-- The number of binary digits of `n`. -/
def width (n : Nat) : Nat := if n = 0 then 0 else n.log2 + 1

/-- The bits of `± mantissa * 2 ^ exponent`, for a value that is a floating-point number. -/
def bits (negative : Bool) (mantissa : Nat) (exponent : Int) : UInt64 :=
  let sign : Nat := if negative then Nat.pow 2 63 else 0
  if mantissa = 0 then UInt64.ofNat sign
  else
    let lead := exponent + width mantissa - 1
    if lead < -1022 then
      let shift := exponent + 1074
      UInt64.ofNat (sign + (mantissa * Nat.pow 2 shift.toNat / Nat.pow 2 (-shift).toNat))
    else
      let shift := lead - 52 - exponent
      let full := mantissa * Nat.pow 2 (-shift).toNat / Nat.pow 2 shift.toNat
      UInt64.ofNat (sign + (lead + 1023).toNat * Nat.pow 2 52 + (full - Nat.pow 2 52))

/-- The number that `± mantissa * 2 ^ exponent` denotes. -/
def toFloat (negative : Bool) (mantissa : Nat) (exponent : Int) : Float :=
  Float.ofBits (bits negative mantissa exponent)

/-- The magnitude without its fraction. -/
def floorMagnitude (x : Binary64) : Nat :=
  x.mantissa * Nat.pow 2 x.exponent.toNat / Nat.pow 2 (-x.exponent).toNat

/-- Whether the value is a whole number. -/
def isWhole (x : Binary64) : Bool :=
  x.mantissa % Nat.pow 2 (-x.exponent).toNat == 0

/-- The value without its fraction. -/
def truncate (x : Binary64) : Int :=
  if x.negative then -(x.floorMagnitude : Int) else x.floorMagnitude

end Binary64

namespace Number

/-- A finite number without its fraction; nothing for NaN and the infinities. -/
def truncate? (x : Float) : Option Int :=
  if x.isFinite then some (Binary64.ofFloat x).truncate else none

/-- Whether a number is finite and has no fraction. -/
def isWhole (x : Float) : Bool :=
  x.isFinite && (Binary64.ofFloat x).isWhole

/-- The remainder of a division that truncates: it has the sign of `x` and is exact.  A zero
divisor or an infinite dividend leaves NaN, an infinite divisor leaves `x`. -/
def remainder (x y : Float) : Float :=
  if x.isNaN || y.isNaN || x.isInf || y == 0.0 then 0.0 / 0.0
  else if y.isInf then x
  else
    let a := Binary64.ofFloat x
    let b := Binary64.ofFloat y
    let unit := min a.exponent b.exponent
    let m := a.mantissa * Nat.pow 2 (a.exponent - unit).toNat
    let n := b.mantissa * Nat.pow 2 (b.exponent - unit).toNat
    Binary64.toFloat a.negative (m % n) unit

/-- A number as a 32-bit word: its whole part modulo `2 ^ 32`, and zero when it is not finite. -/
def toWord32 (x : Float) : UInt32 :=
  match truncate? x with
  | some n => UInt32.ofNat (n % Nat.pow 2 32).toNat
  | none => 0

/-- A 32-bit word read as a signed number. -/
def ofWord32 (w : UInt32) : Float :=
  Float.ofInt (Int.bmod w.toNat (Nat.pow 2 32))

/-- The quotient of two numbers rounded toward negative infinity. -/
def floorDivide (x y : Float) : Float := (x / y).floor

end Number

end ViewBinding
