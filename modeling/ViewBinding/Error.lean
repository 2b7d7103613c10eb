/-!
# Error — what can go wrong

Evaluation, assignment, connecting and binding fail for one of these causes.
-/

namespace ViewBinding

/-- The cause of a failure. -/
inductive BindingError where
  /-- A pipe names a converter that is not registered. -/
  | missingConverter (name : String)
  /-- A call found `null` or `undefined` in place of a function. -/
  | undefinedFunction (name : String)
  /-- A call found something else in place of a function. -/
  | notAFunction (text : String)
  /-- A keyed access found `null` or `undefined` in place of an object. -/
  | nullObjectAccess
  /-- An element property without an event handler cannot be observed. -/
  | unsupportedObservation (property : String)
  /-- The value of a multiple select is neither nullish nor an array. -/
  | invalidBindingValue
  /-- An array would grow past its greatest length. -/
  | invalidArrayLength
  /-- The expression or observer names no location. -/
  | notAssignable (text : String)
  /-- A binary operator has no meaning. -/
  | unknownOperator (operator : String)
  /-- A host function failed. -/
  | host (message : String)
deriving DecidableEq, Repr, Inhabited

/-- The text of an error. -/
def BindingError.message : BindingError → String
  | missingConverter name => "No ValueConverter named \"" ++ name ++ "\" was found!"
  | undefinedFunction name => "Undefined function " ++ name
  | notAFunction text => text ++ " is not a function"
  | nullObjectAccess => "Accessing null object"
  | unsupportedObservation property =>
    "Observation of an Element's \"" ++ property ++ "\" property is not supported."
  | invalidBindingValue => "Only null or Array instances can be bound to a multi-select."
  | invalidArrayLength => "Invalid array length"
  | notAssignable text => "Cannot assign to " ++ text
  | unknownOperator operator => "Internal error [" ++ operator ++ "] not handled"
  | host message => message

end ViewBinding
