import ViewBinding.Numeric.Numeral
import ViewBinding.Text.Blank
import ViewBinding.Text.Quoted
import ViewBinding.Run

/-!
# Coercion — values as texts, numbers and each other

An array becomes the texts of its items between commas, nullish items becoming nothing.  An array
that contains itself has no text: the functions below give `none` for it.  They follow arrays only
one step further than there are arrays in the world, and a chain of arrays that is longer has met
one of them twice.
-/

namespace ViewBinding

/-- A value as a number. -/
def Value.toNumber : Value → Float
  | undefined => 0.0 / 0.0
  | null => 0.0
  | bool b => if b then 1.0 else 0.0
  | number x => x
  | string s =>
    let text := Text.trim s.toList
    if text.isEmpty then 0.0 else (Number.parse? text).getD (0.0 / 0.0)
  | array _ | object _ | function _ => 0.0 / 0.0

/-- Whether a value is an array or an object. -/
def Value.isContainer : Value → Bool
  | array _ | object _ => true
  | _ => false

/-- Whether a value is a text or a number. -/
def Value.isPlain : Value → Bool
  | string _ | number _ => true
  | _ => false

namespace World

variable {η : Type}

/-- The items of an array; an array that is gone has none. -/
def items (w : World η) (a : Ref .array) : List Value :=
  ((w.arrays.get? a).map (·.items.toList)).getD []

/-- The name of a host function. -/
def functionName (w : World η) (f : Ref .function) : String := (w.functions.get? f).getD ""

/-- The text of a value, following arrays at most `depth` deep. -/
def displayWithin (w : World η) : Nat → Value → Option String
  | _, .undefined => some "undefined"
  | _, .null => some "null"
  | _, .bool b => some (if b then "true" else "false")
  | _, .number x => some (Number.display x)
  | _, .string s => some s
  | _, .object _ => some "[object Object]"
  | _, .function f => some ("function " ++ w.functionName f ++ "() \x7b [native code] \x7d")
  | 0, .array _ => none
  | depth + 1, .array a => do
    let texts ← (w.items a).mapM fun item =>
      if item.isNullish then some "" else displayWithin w depth item
    some (",".intercalate texts)

/-- The text of a value. -/
def display? (w : World η) (v : Value) : Option String := w.displayWithin (w.arrays.size + 1) v

/-- The text of a value in diagnostics, following arrays at most `depth` deep. -/
def debugWithin (w : World η) : Nat → Value → Option String
  | _, .string s => some (Text.quoteDebug s)
  | _, .function f => some ("[Function: " ++ w.functionName f ++ "]")
  | _, .object _ => some "Object"
  | 0, .array _ => none
  | depth + 1, .array a => do
    let texts ← (w.items a).mapM fun item => debugWithin w depth item
    some ("[" ++ ", ".intercalate texts ++ "]")
  | _, v => w.display? v

/-- The text of a value in diagnostics. -/
def debug? (w : World η) (v : Value) : Option String := w.debugWithin (w.arrays.size + 1) v

/-- Loose equality of two values neither of which is an array or an object. -/
def looseSamePrimitive : Value → Value → Bool
  | .number a, .string b => a == (Value.string b).toNumber
  | .string a, .number b => (Value.string a).toNumber == b
  | a, b => a.same b

/-- A boolean as a number; any other value as it is. -/
def booleanAsNumber : Value → Value
  | .bool b => .number (Value.bool b).toNumber
  | v => v

/-- Loose equality: nullish values equal each other and nothing else, booleans count as numbers,
texts equal numbers through their numeric value, and arrays and objects equal texts and numbers
through their text. -/
def looseSame? (w : World η) (a b : Value) : Option Bool :=
  if a.isNullish || b.isNullish then some (a.isNullish && b.isNullish)
  else
    let a := booleanAsNumber a
    let b := booleanAsNumber b
    if a.isContainer && b.isPlain then
      (w.display? a).map fun text => looseSamePrimitive (.string text) b
    else if a.isPlain && b.isContainer then
      (w.display? b).map fun text => looseSamePrimitive a (.string text)
    else some (looseSamePrimitive a b)

end World

/-- The text of a value, or the computation is cut off. -/
def Run.display {η : Type} (v : Value) : Run η String := fun w => Run.ofOption (w.display? v) w

end ViewBinding
