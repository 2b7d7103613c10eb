import ViewBinding.Eval
import ViewBinding.Observer.Path

/-!
# Connect — from expressions to observers

Connecting an expression gives its value and an observer that tells when the value changes, unless
nothing can change it.

* A name is watched as a property of the value that owns it, a member as a property of its object,
  or through a path when the object is watched too.
* Any other expression becomes a composite of those parts that can be watched.  The condition, the
  left operand of `&&` and `||`, and the callee of a call are the primary part, and decide which
  other parts are connected.
* Literals, assignments and chains are not watched; assignments and chains are not evaluated either.
-/

namespace ViewBinding

/-- What connecting gives when there is nothing to connect. -/
def ConnectInfo.nothing : ConnectInfo := ⟨.undefined, none⟩

namespace World

variable {η : Type}

/-- The converters that a provider has; one that is gone has none. -/
def convertersOf (w : World η) (provider : Provider) : Converters :=
  if w.provides provider then .registered else .given []

/-- Makes a composite without parts. -/
def newComposite (w : World η) (expression : Expr) (provider : Provider) (scope : Scope)
    (value : Value) : Ref .composite × World η :=
  (w.composites.next, { w with
    composites := w.composites.alloc { expression, scope, provider, value } })

/-- The value of the primary part of a composite, if it has one. -/
def primaryValue? (w : World η) (c : Ref .composite) : Option Value := do
  some (w.infoValue (← (← w.composites.get? c).primary))

/-- Appends a part to a composite. -/
def pushPart (w : World η) (c : Ref .composite) (part : Part) : World η :=
  w.modifyComposite c fun cell => { cell with parts := cell.parts.push part }

/-- Whether a composite has parts that can be watched. -/
def isObservable (w : World η) (c : Ref .composite) : Bool :=
  ((w.composites.get? c).map fun cell => !cell.parts.isEmpty).getD false

end World

namespace Run

variable {η : Type}

/-- Connects a name. -/
def connectName (scope : Scope) (name : String) : Run η ConnectInfo :=
  update fun w =>
    let owner := w.ownerOf scope name
    let value := w.member owner name
    let (leaf, w) := w.propertyObserver owner name
    (⟨value, leaf.map .leaf⟩, w)

/-- Connects a member, given its connected object. -/
def connectMember (provider : Provider) (object : ConnectInfo) (name : String) :
    Run η ConnectInfo :=
  update fun w =>
    let value := if object.value.isNullish then .null else w.member object.value name
    match object.observer with
    | some left =>
      let (p, w) := w.newPath left (.member provider name)
      (⟨value, some (.path p)⟩, w)
    | none =>
      let (leaf, w) := w.propertyObserver object.value name
      (⟨value, leaf.map .leaf⟩, w)

/-- Evaluates an expression and makes a composite of it. -/
def openComposite (env : Env η) (provider : Provider) (scope : Scope) (e : Expr) :
    Run η (Ref .composite) := do
  let converters ← read fun w => w.convertersOf provider
  let value ← e.eval env converters scope
  update fun w => w.newComposite e provider scope value

/-- Adds a part to a composite, connected by `connect` if its condition holds now.  A part that
cannot be watched is left out. -/
def addPart (c : Ref .composite) (e : Expr) (condition : Condition)
    (connect : Run η ConnectInfo) : Run η ConnectInfo := do
  if condition.holds (← read fun w => w.primaryValue? c) then
    let info ← connect
    if info.observer.isSome then
      modify fun w => w.pushPart c { expression := e, condition, info := some info }
    else pure ()
    pure info
  else
    modify fun w => w.pushPart c { expression := e, condition, info := none }
    pure .nothing

/-- Adds the part whose value the conditions of later parts are about. -/
def addPrimary (c : Ref .composite) (e : Expr) (connect : Run η ConnectInfo) :
    Run η ConnectInfo := do
  let info ← addPart c e .always connect
  modify fun w => w.modifyComposite c fun cell => { cell with primary := some info }
  pure info

/-- What connecting an expression gives whose composite has all its parts. -/
def closeComposite (c : Ref .composite) : Run η ConnectInfo :=
  read fun w =>
    ⟨w.observerValue (.composite c), if w.isObservable c then some (.composite c) else none⟩

end Run

namespace Expr

variable {η : Type}

/-- When the right operand of a binary operation is connected, if the left one decides. -/
def shortCircuit? (operator : String) : Option Condition :=
  if operator = "&&" then some .truthy else if operator = "||" then some .falsy else none

mutual

/-- Connects an expression for a provider. -/
def connect (env : Env η) (provider : Provider) (scope : Scope) : Expr → Run η ConnectInfo
  | chain _ => pure .nothing
  | assign _ _ => pure .nothing
  | primitive p => pure ⟨p.value, none⟩
  | string s => pure ⟨.string s, none⟩
  | name n => Run.connectName scope n
  | member owner n => do
    let info ← connect env provider scope owner
    Run.connectMember provider info n
  | pipe input n args all => do
    let c ← Run.openComposite env provider scope (pipe input n args all)
    connectParts env provider scope c .always all
    Run.closeComposite c
  | conditional condition yes no => do
    let c ← Run.openComposite env provider scope (conditional condition yes no)
    discard (Run.addPrimary c condition (connect env provider scope condition))
    discard (Run.addPart c yes .truthy (connect env provider scope yes))
    discard (Run.addPart c no .falsy (connect env provider scope no))
    Run.closeComposite c
  | keyed owner key => do
    let c ← Run.openComposite env provider scope (keyed owner key)
    discard (Run.addPart c owner .always (connect env provider scope owner))
    discard (Run.addPart c key .always (connect env provider scope key))
    Run.closeComposite c
  | callName n args => do
    let c ← Run.openComposite env provider scope (callName n args)
    discard (Run.addPrimary c (name n) (Run.connectName scope n))
    connectParts env provider scope c .isFunction args
    Run.closeComposite c
  | callMember owner n args => do
    let c ← Run.openComposite env provider scope (callMember owner n args)
    discard (Run.addPrimary c (member owner n) do
      let info ← connect env provider scope owner
      Run.connectMember provider info n)
    connectParts env provider scope c .isFunction args
    Run.closeComposite c
  | call callee args => do
    let c ← Run.openComposite env provider scope (call callee args)
    discard (Run.addPrimary c callee (connect env provider scope callee))
    connectParts env provider scope c .isFunction args
    Run.closeComposite c
  | binary operator left right => do
    let c ← Run.openComposite env provider scope (binary operator left right)
    match shortCircuit? operator with
    | some condition =>
      discard (Run.addPrimary c left (connect env provider scope left))
      discard (Run.addPart c right condition (connect env provider scope right))
    | none =>
      discard (Run.addPart c left .always (connect env provider scope left))
      discard (Run.addPart c right .always (connect env provider scope right))
    Run.closeComposite c
  | negate operator operand => do
    let c ← Run.openComposite env provider scope (negate operator operand)
    discard (Run.addPart c operand .always (connect env provider scope operand))
    Run.closeComposite c
  | array elements => do
    let c ← Run.openComposite env provider scope (array elements)
    connectParts env provider scope c .always elements
    Run.closeComposite c
  | object keys values => do
    let c ← Run.openComposite env provider scope (object keys values)
    connectParts env provider scope c .always values
    Run.closeComposite c

/-- Adds expressions to a composite, all under one condition. -/
def connectParts (env : Env η) (provider : Provider) (scope : Scope) (c : Ref .composite)
    (condition : Condition) : List Expr → Run η Unit
  | [] => pure ()
  | e :: rest => do
    discard (Run.addPart c e condition (connect env provider scope e))
    connectParts env provider scope c condition rest

end

end Expr

end ViewBinding
