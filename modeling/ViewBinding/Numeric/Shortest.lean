import ViewBinding.Numeric.Binary64

/-!
# Shortest — the fewest digits that identify a number

A decimal identifies a floating-point number when it lies among the reals that round to it.  This
module finds the decimal with the fewest digits that identifies a number, and of those the one
nearest to it.

* `Binary64.identifiedBy` is the test, on exact naturals.
* `Binary64.shortest` looks for a decimal on coarser grids first; the neighbours of the number on a
  grid are its only candidates there.
-/

namespace ViewBinding

/-- The decimal `digits * 10 ^ exponent`. -/
structure Decimal where
  digits : Nat
  exponent : Int
deriving Repr, DecidableEq

/-- Which of two equally near candidates is taken. -/
inductive Tie where
  | toEven
  | up
deriving Repr, DecidableEq

namespace Decimal

/-- Compares the decimal with `n * 2 ^ q`. -/
def compareBinary (d : Decimal) (n : Nat) (q : Int) : Ordering :=
  compare (d.digits * Nat.pow 10 d.exponent.toNat * Nat.pow 2 (-q).toNat)
    (n * Nat.pow 2 q.toNat * Nat.pow 10 (-d.exponent).toNat)

/-- Moves the zeros at the end of at most `fuel` digits into the exponent. -/
def stripZeros : Nat → Decimal → Decimal
  | 0, d => d
  | fuel + 1, d =>
    if d.digits ≠ 0 ∧ d.digits % 10 = 0 then stripZeros fuel ⟨d.digits / 10, d.exponent + 1⟩ else d

end Decimal

namespace Binary64

/-- Whether the decimal lies among the reals that round to `x`.  The ends of that interval belong
to it when the mantissa is even. -/
def identifiedBy (x : Binary64) (d : Decimal) : Bool :=
  let low := if x.narrowBelow then 4 * x.mantissa - 1 else 4 * x.mantissa - 2
  let high := 4 * x.mantissa + 2
  let closed := x.mantissa % 2 == 0
  let atLow := d.compareBinary low (x.exponent - 2)
  let atHigh := d.compareBinary high (x.exponent - 2)
  (atLow == .gt || (closed && atLow == .eq)) && (atHigh == .lt || (closed && atHigh == .eq))

/-- The least `k` such that the magnitude is below `10 ^ k`. -/
def scale (x : Binary64) : Int :=
  let lead := x.exponent + width x.mantissa - 1
  let guess := lead * 30103 / 100000
  let below (k : Int) : Bool := (Decimal.mk 1 k).compareBinary x.mantissa x.exponent == .gt
  if below guess then guess
  else if below (guess + 1) then guess + 1
  else guess + 2

/-- The magnitude divided by `10 ^ k`, without the fraction. -/
def floorOnGrid (x : Binary64) (k : Int) : Nat :=
  x.mantissa * Nat.pow 2 x.exponent.toNat * Nat.pow 10 (-k).toNat
    / (Nat.pow 2 (-x.exponent).toNat * Nat.pow 10 k.toNat)

/-- The candidate of the grid with step `10 ^ k` that identifies `x`, the nearer one if there are
two. -/
def onGrid? (tie : Tie) (x : Binary64) (k : Int) : Option Decimal :=
  let low := x.floorOnGrid k
  let lower : Decimal := ⟨low, k⟩
  let upper : Decimal := ⟨low + 1, k⟩
  match low ≠ 0 && x.identifiedBy lower, x.identifiedBy upper with
  | true, false => some lower
  | false, true => some upper
  | false, false => none
  | true, true =>
    match (Decimal.mk (2 * low + 1) k).compareBinary x.mantissa (x.exponent + 1), tie with
    | .gt, _ => some lower
    | .lt, _ => some upper
    | .eq, .up => some upper
    | .eq, .toEven => some (if low % 2 = 0 then lower else upper)

/-- The exact value as a decimal. -/
def exact (x : Binary64) : Decimal :=
  ⟨x.mantissa * Nat.pow 2 x.exponent.toNat * Nat.pow 5 (-x.exponent).toNat,
    -((-x.exponent).toNat : Int)⟩

/-- The shortest decimal that identifies a nonzero number.  Seventeen digits always suffice. -/
def shortest (tie : Tie) (x : Binary64) : Decimal :=
  let k := x.scale
  let found := (List.range 17).findSome? fun n => x.onGrid? tie (k - (n + 1 : Nat))
  Decimal.stripZeros 1100 (found.getD x.exact)

end Binary64

end ViewBinding
