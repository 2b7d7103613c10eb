import ViewBinding.Numeric.Style

/-!
# Expr — binding expressions

A binding expression is a small tree such as `user.name`, `a && b` or `amount | currency:'EUR'`.
It is evaluated in a scope, assigned through when it names a location, connected to observers and
printed in a canonical form.

The constructors of this type do not enforce the relations between fields that the smart
constructors below establish: `Expr.WellFormed` states them.
-/

namespace ViewBinding

/-- A literal that is no string. -/
inductive Primitive where
  | null
  | undefined
  | bool (value : Bool)
  /-- A number, by the bits of its floating-point form. -/
  | number (bits : UInt64)
deriving DecidableEq, Repr, Inhabited

/-- Whether two literals are the same.  Numbers are compared as numbers: NaN differs from itself and
zero equals negative zero. -/
def Primitive.same : Primitive → Primitive → Bool
  | number a, number b => Float.ofBits a == Float.ofBits b
  | a, b => a = b

/-- A binding expression. -/
inductive Expr where
  /-- `a; b` -/
  | chain (expressions : List Expr)
  /-- `a | name:x:y`; `all` holds what evaluation reads, the input followed by the arguments. -/
  | pipe (input : Expr) (name : String) (args all : List Expr)
  /-- `target = value` -/
  | assign (target value : Expr)
  /-- `condition ? yes : no` -/
  | conditional (condition yes no : Expr)
  /-- `name` -/
  | name (name : String)
  /-- `owner.name` -/
  | member (owner : Expr) (name : String)
  /-- `owner[key]` -/
  | keyed (owner key : Expr)
  /-- `name(args)` -/
  | callName (name : String) (args : List Expr)
  /-- `owner.name(args)` -/
  | callMember (owner : Expr) (name : String) (args : List Expr)
  /-- `callee(args)` -/
  | call (callee : Expr) (args : List Expr)
  /-- `left operator right` -/
  | binary (operator : String) (left right : Expr)
  /-- `!operand` -/
  | negate (operator : String) (operand : Expr)
  | primitive (value : Primitive)
  | string (value : String)
  /-- `[a, b]` -/
  | array (elements : List Expr)
  /-- `{'key': value}` -/
  | object (keys : List String) (values : List Expr)
deriving Inhabited

namespace Expr

/-! ### Smart constructors -/

/-- `input | name:args` -/
def piped (input : Expr) (name : String) (args : List Expr) : Expr :=
  pipe input name args (input :: args)

/-- `!operand` -/
def not (operand : Expr) : Expr := negate "!" operand

/-- A literal number. -/
def number (x : Float) : Expr := primitive (.number x.toBits)

/-- An object literal with these entries. -/
def record (entries : List (String × Expr)) : Expr :=
  object (entries.map (·.1)) (entries.map (·.2))

/-! ### Properties -/

/-- Whether the expression names a location that can be assigned to. -/
def isAssignable : Expr → Bool
  | name _ | member _ _ | keyed _ _ => true
  | _ => false

mutual

/-- The relations between fields that the smart constructors establish, at every node: a pipe
evaluates its input and its arguments, an object has as many keys as values, and the negation
operator is `!`. -/
def WellFormed : Expr → Prop
  | chain es => AllWellFormed es
  | pipe input _ args all => all = input :: args ∧ input.WellFormed ∧ AllWellFormed args
  | assign target value => target.WellFormed ∧ value.WellFormed
  | conditional condition yes no => condition.WellFormed ∧ yes.WellFormed ∧ no.WellFormed
  | name _ => True
  | member owner _ => owner.WellFormed
  | keyed owner key => owner.WellFormed ∧ key.WellFormed
  | callName _ args => AllWellFormed args
  | callMember owner _ args => owner.WellFormed ∧ AllWellFormed args
  | call callee args => callee.WellFormed ∧ AllWellFormed args
  | binary _ left right => left.WellFormed ∧ right.WellFormed
  | negate operator operand => operator = "!" ∧ operand.WellFormed
  | primitive _ => True
  | string _ => True
  | array elements => AllWellFormed elements
  | object keys values => keys.length = values.length ∧ AllWellFormed values

/-- Every expression of a list is well formed. -/
def AllWellFormed : List Expr → Prop
  | [] => True
  | e :: rest => e.WellFormed ∧ AllWellFormed rest

end

mutual

/-- Whether two expressions are the same tree, numbers compared as `Primitive.same` does. -/
def same : Expr → Expr → Bool
  | chain a, chain b => sameList a b
  | pipe a n as al, pipe b m bs bl =>
    same a b && n == m && sameList as bs && sameList al bl
  | assign a b, assign c d => same a c && same b d
  | conditional a b c, conditional d e f => same a d && same b e && same c f
  | name a, name b => a == b
  | member a n, member b m => same a b && n == m
  | keyed a b, keyed c d => same a c && same b d
  | callName n as, callName m bs => n == m && sameList as bs
  | callMember a n as, callMember b m bs => same a b && n == m && sameList as bs
  | call a as, call b bs => same a b && sameList as bs
  | binary o a b, binary p c d => o == p && same a c && same b d
  | negate o a, negate p b => o == p && same a b
  | primitive a, primitive b => a.same b
  | string a, string b => a == b
  | array as, array bs => sameList as bs
  | object ks as, object ls bs => ks == ls && sameList as bs
  | _, _ => false

/-- Whether two lists hold the same expressions in the same order. -/
def sameList : List Expr → List Expr → Bool
  | [], [] => true
  | a :: as, b :: bs => same a b && sameList as bs
  | _, _ => false

end

end Expr

end ViewBinding
