import ViewBinding.Expr.Basic
import ViewBinding.Content

/-!
# Expr.Kind — the kinds of expressions in written form

In written form an expression is a mapping that names its kind under `type` and then has one entry
for each field of that kind.  `Kind.name` and `Kind.fields` are that vocabulary.
-/

namespace ViewBinding

/-- The kinds of expressions. -/
inductive Kind where
  | chain
  | pipe
  | assign
  | conditional
  | name
  | member
  | keyed
  | callName
  | callMember
  | call
  | binary
  | negate
  | primitive
  | string
  | array
  | object
deriving DecidableEq, Repr, Inhabited

namespace Kind

/-- Every kind, each at its place. -/
def all : List Kind :=
  [chain, pipe, assign, conditional, name, member, keyed, callName, callMember, call, binary,
    negate, primitive, string, array, object]

/-- The name of a kind in written form. -/
def label : Kind → String
  | chain => "Chain"
  | pipe => "ValueConverter"
  | assign => "Assign"
  | conditional => "Conditional"
  | name => "AccessScope"
  | member => "AccessMember"
  | keyed => "AccessKeyed"
  | callName => "CallScope"
  | callMember => "CallMember"
  | call => "CallFunction"
  | binary => "Binary"
  | negate => "PrefixNot"
  | primitive => "LiteralPrimitive"
  | string => "LiteralString"
  | array => "LiteralArray"
  | object => "LiteralObject"

/-- The names of the fields of a kind, in the order in which they are written. -/
def fields : Kind → List String
  | chain => ["expressions"]
  | pipe => ["expression", "name", "args", "all_args"]
  | assign => ["target", "value"]
  | conditional => ["condition", "yes", "no"]
  | name => ["name"]
  | member => ["object", "name"]
  | keyed => ["object", "key"]
  | callName => ["name", "args"]
  | callMember => ["object", "name", "args"]
  | call => ["func", "args"]
  | binary => ["operation", "left", "right"]
  | negate => ["operation", "expression"]
  | primitive => ["value"]
  | string => ["value"]
  | array => ["elements"]
  | object => ["keys", "values"]

/-- The kind with this name. -/
def ofLabel? (label : String) : Option Kind := all.find? (·.label = label)

/-- The kind at this place. -/
def ofPlace? (place : Nat) : Option Kind := all[place]?

end Kind

end ViewBinding
