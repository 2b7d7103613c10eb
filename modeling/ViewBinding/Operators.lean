import ViewBinding.Coercion

/-!
# Operators — binary operations on values

When an operand is nullish, addition and subtraction go on with the other one and every other
operation has no result.  Otherwise `+` adds two numeric values and joins the texts of any others,
comparisons of two values that are not numeric compare their texts, and everything else is about
numbers.
-/

namespace ViewBinding

/-- A binary operation other than `&&` and `||`. -/
inductive Operator where
  | add
  | subtract
  | multiply
  | divide
  | floorDivide
  | remainder
  | equal
  | different
  | less
  | greater
  | atMost
  | atLeast
  | exclusiveOr
  | conjunction
deriving DecidableEq, Repr

/-- The operation that a text names. -/
def Operator.ofText? (text : String) : Option Operator :=
  match text with
  | "+" => some add
  | "-" => some subtract
  | "*" => some multiply
  | "/" => some divide
  | "~/" => some floorDivide
  | "%" => some remainder
  | "==" => some equal
  | "!=" => some different
  | "<" => some less
  | ">" => some greater
  | "<=" => some atMost
  | ">=" => some atLeast
  | "^" => some exclusiveOr
  | "&" => some conjunction
  | _ => none

/-- The result of an operation one of whose operands is nullish. -/
def Operator.onNullish (text : String) (left right : Value) : Value :=
  if text = "+" then
    if !left.isNullish then left else if !right.isNullish then right else .number 0.0
  else if text = "-" then
    if !left.isNullish then left
    else if !right.isNullish then .number (0.0 - right.toNumber)
    else .number 0.0
  else .null

/-- The order of two numbers; NaN has none. -/
def compareNumbers? (a b : Float) : Option Ordering :=
  if a < b then some .lt else if a > b then some .gt else if a == b then some .eq else none

/-- The order of two texts, by their code points. -/
def compareTexts (a b : String) : Ordering :=
  if a < b then .lt else if a = b then .eq else .gt

namespace Run

variable {η : Type}

/-- The order of two values. -/
def compareValues? (left right : Value) : Run η (Option Ordering) := do
  if !left.isNumeric && !right.isNumeric then
    let a ← display left
    let b ← display right
    pure (some (compareTexts a b))
  else pure (compareNumbers? left.toNumber right.toNumber)

/-- Whether two values are loosely equal. -/
def looseSame (left right : Value) : Run η Bool := fun w => ofOption (w.looseSame? left right) w

/-- The result of an operation neither of whose operands is nullish. -/
def operate (operator : Operator) (left right : Value) : Run η Value := do
  let l := left.toNumber
  let r := right.toNumber
  match operator with
  | .add =>
    if left.isNumeric && right.isNumeric then pure (.number (l + r))
    else
      let a ← display left
      let b ← display right
      pure (.string (a ++ b))
  | .subtract => pure (.number (l - r))
  | .multiply => pure (.number (l * r))
  | .divide => pure (.number (l / r))
  | .floorDivide => pure (.number (Number.floorDivide l r))
  | .remainder => pure (.number (Number.remainder l r))
  | .equal => do pure (.bool (← looseSame left right))
  | .different => do pure (.bool (!(← looseSame left right)))
  | .less => do pure (.bool ((← compareValues? left right) == some .lt))
  | .greater => do pure (.bool ((← compareValues? left right) == some .gt))
  | .atMost => do
    let order ← compareValues? left right
    pure (.bool (order == some .lt || order == some .eq))
  | .atLeast => do
    let order ← compareValues? left right
    pure (.bool (order == some .gt || order == some .eq))
  | .exclusiveOr => pure (.number (Number.ofWord32 (Number.toWord32 l ^^^ Number.toWord32 r)))
  | .conjunction => pure (.number (Number.ofWord32 (Number.toWord32 l &&& Number.toWord32 r)))

/-- The result of a binary operation, given as text. -/
def binary (text : String) (left right : Value) : Run η Value :=
  if left.isNullish || right.isNullish then pure (Operator.onNullish text left right)
  else
    match Operator.ofText? text with
    | some operator => operate operator left right
    | none => fail (.unknownOperator text)

end Run

end ViewBinding
