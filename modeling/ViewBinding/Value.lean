import ViewBinding.Expr.Basic
import ViewBinding.Store

/-!
# Value — what expressions evaluate to

Values are `undefined`, `null`, booleans, numbers, texts, and references to arrays, objects and host
functions.  Two values are strictly equal when they are the same primitive or the same reference;
that is the question "did this change?" everywhere in this library.
-/

namespace ViewBinding

/-- A value. -/
inductive Value where
  | undefined
  | null
  | bool (value : Bool)
  | number (value : Float)
  | string (value : String)
  | array (ref : Ref .array)
  | object (ref : Ref .object)
  | function (ref : Ref .function)
deriving DecidableEq

namespace Value

instance : Inhabited Value := ⟨undefined⟩

/-- Whether a value is `null` or `undefined`. -/
def isNullish : Value → Bool
  | undefined | null => true
  | _ => false

/-- Whether a value is `undefined`. -/
def isUndefined : Value → Bool
  | undefined => true
  | _ => false

/-- Whether a value is a function. -/
def isFunction : Value → Bool
  | function _ => true
  | _ => false

/-- Whether a value counts as true.  Nullish values, `false`, zero, NaN and the empty text do not.
-/
def isTruthy : Value → Bool
  | undefined | null => false
  | bool b => b
  | number x => x != 0.0 && !x.isNaN
  | string s => s != ""
  | array _ | object _ | function _ => true

/-- Whether arithmetic takes the value as a number. -/
def isNumeric : Value → Bool
  | number _ | bool _ => true
  | _ => false

/-- The name of a value's type. -/
def typeName : Value → String
  | undefined => "undefined"
  | null => "null"
  | bool _ => "boolean"
  | number _ => "number"
  | string _ => "string"
  | array _ => "array"
  | object _ => "object"
  | function _ => "function"

/-- Strict equality: primitives by their value (NaN equals nothing, zero equals negative zero),
references by what they name. -/
def same : Value → Value → Bool
  | undefined, undefined => true
  | null, null => true
  | bool a, bool b => a == b
  | number a, number b => a == b
  | string a, string b => a == b
  | array a, array b => a == b
  | object a, object b => a == b
  | function a, function b => a == b
  | _, _ => false

end Value

/-- The value of a literal. -/
def Primitive.value : Primitive → Value
  | null => .null
  | undefined => .undefined
  | bool b => .bool b
  | number bits => .number (Float.ofBits bits)

end ViewBinding
