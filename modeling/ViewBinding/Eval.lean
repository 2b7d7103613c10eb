import ViewBinding.Expr.Printer
import ViewBinding.Lookup
import ViewBinding.Operators

/-!
# Eval — evaluating expressions and assigning through them

`Expr.eval` evaluates in a scope.  It writes nothing except through an assignment in the expression,
and what the host functions it calls write.  `Expr.assign` writes the location that an expression
names; on the way through a pipe the converter turns the value back.
-/

namespace ViewBinding

/-- Where the converters of pipes are looked up. -/
inductive Converters where
  /-- Among the converters registered with the engine. -/
  | registered
  /-- Among these. -/
  | given (converters : List (String × Converter))
deriving DecidableEq

/-- The converter with a name. -/
def World.converter? {η : Type} (w : World η) (name : String) : Converters → Option Converter
  | .registered => Entries.get? name w.converters
  | .given converters => Entries.get? name converters

namespace Run

variable {η : Type}

/-- The converter with a name, or a failure. -/
def converter (converters : Converters) (name : String) : Run η Converter := do
  match ← read fun w => w.converter? name converters with
  | some c => pure c
  | none => fail (.missingConverter name)

/-- Converts a value, which stays as it is when the converter does not work that way. -/
def convert (env : Env η) (c : Converter) (direction : Direction) (v : Value) (args : List Value) :
    Run η Value := do
  pure ((← env.convert c direction v args).getD v)

/-- Writes a member of the value that an expression found. -/
def assignMember (env : Env η) (e : Expr) (owner : Value) (name : String) (v : Value) :
    Run η Value := do
  match owner with
  | .object o =>
    modify fun w => w.set o name v
    pure v
  | .array _ =>
    writeKey env owner (.string name) v
    pure v
  | .undefined | .null => fail .nullObjectAccess
  | _ => fail (.notAssignable e.text)

/-- Calls what a call expression found under a name. -/
def callNamed (env : Env η) (callee : Value) (name : String) (this : Value) (args : List Value) :
    Run η Value :=
  match callee with
  | .function f => env.call f this args
  | .undefined | .null => fail (.undefinedFunction name)
  | _ => fail (.notAFunction name)

end Run

namespace Expr

variable {η : Type}

mutual

/-- Evaluates an expression in a scope. -/
def eval (env : Env η) (converters : Converters) (scope : Scope) : Expr → Run η Value
  | chain es => evalChain env converters scope .undefined es
  | pipe _ n _ all => do
    let c ← Run.converter converters n
    match ← evalList env converters scope all with
    | [] => Run.convert env c .toView .undefined []
    | input :: args => Run.convert env c .toView input args
  | assign target value => do
    let v ← eval env converters scope value
    assignTo env converters scope target v
  | conditional condition yes no => do
    if (← eval env converters scope condition).isTruthy then eval env converters scope yes
    else eval env converters scope no
  | name n => Run.read fun w => w.lookup scope n
  | member owner n => do
    let v ← eval env converters scope owner
    if v.isNullish then pure .null else Run.read fun w => w.member v n
  | keyed owner key => do
    let v ← eval env converters scope owner
    let k ← eval env converters scope key
    Run.readKey v k
  | callName n args => do
    let values ← evalList env converters scope args
    let owner ← Run.read fun w => w.ownerOf scope n
    let callee ← Run.read fun w => w.member owner n
    Run.callNamed env callee n owner values
  | callMember owner n args => do
    let v ← eval env converters scope owner
    let values ← evalList env converters scope args
    let callee ← Run.read fun w => w.member v n
    Run.callNamed env callee n v values
  | call callee args => do
    match ← eval env converters scope callee with
    | .function f => do
      let values ← evalList env converters scope args
      env.call f .undefined values
    | _ => Run.fail (.notAFunction callee.text)
  | binary operator left right => do
    let l ← eval env converters scope left
    if operator = "&&" then
      if l.isTruthy then do pure (.bool (← eval env converters scope right).isTruthy)
      else pure (.bool false)
    else if operator = "||" then
      if l.isTruthy then pure (.bool true)
      else do pure (.bool (← eval env converters scope right).isTruthy)
    else do
      let r ← eval env converters scope right
      Run.binary operator l r
  | negate _ operand => do
    pure (.bool (!(← eval env converters scope operand).isTruthy))
  | primitive p => pure p.value
  | string s => pure (.string s)
  | array elements => do
    let values ← evalList env converters scope elements
    Run.update fun w =>
      let (a, w) := w.newArray values
      (.array a, w)
  | object keys values => do
    let o ← Run.update fun w => w.newObject []
    evalEntries env converters scope o keys values
    pure (.object o)

/-- Evaluates expressions one after the other. -/
def evalList (env : Env η) (converters : Converters) (scope : Scope) :
    List Expr → Run η (List Value)
  | [] => pure []
  | e :: rest => do
    let v ← eval env converters scope e
    let vs ← evalList env converters scope rest
    pure (v :: vs)

/-- Evaluates a chain: its value is the last one that is not nullish. -/
def evalChain (env : Env η) (converters : Converters) (scope : Scope) (last : Value) :
    List Expr → Run η Value
  | [] => pure last
  | e :: rest => do
    let v ← eval env converters scope e
    evalChain env converters scope (if v.isNullish then last else v) rest

/-- Evaluates the entries of an object, each of which is set before the next is evaluated. -/
def evalEntries (env : Env η) (converters : Converters) (scope : Scope) (o : Ref .object) :
    List String → List Expr → Run η Unit
  | key :: keys, e :: rest => do
    let v ← eval env converters scope e
    Run.modify fun w => w.set o key v
    evalEntries env converters scope o keys rest
  | _, _ => pure ()

/-- Writes a value to the location that an expression names, and gives the value written.  An object
that is missing on the way to a member is made. -/
def assignTo (env : Env η) (converters : Converters) (scope : Scope) :
    Expr → Value → Run η Value
  | name n, v => do
    let owner ← Run.read fun w => w.ownerOf scope n
    Run.assignMember env (name n) owner n v
  | member owner n, v => do
    let holder ← eval env converters scope owner
    if holder.isTruthy then Run.assignMember env (member owner n) holder n v
    else do
      let o ← Run.update fun w => w.newObject []
      discard (assignTo env converters scope owner (.object o))
      Run.assignMember env (member owner n) (.object o) n v
  | keyed owner key, v => do
    let holder ← eval env converters scope owner
    let k ← eval env converters scope key
    Run.writeKey env holder k v
    pure v
  | pipe input n args _, v => do
    let c ← Run.converter converters n
    let values ← evalList env converters scope args
    let v ← Run.convert env c .fromView v values
    assignTo env converters scope input v
  | e, _ => Run.fail (.notAssignable e.text)

end

end Expr

end ViewBinding
