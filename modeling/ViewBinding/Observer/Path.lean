import ViewBinding.Observer.Tell

/-!
# Observer.Path — a member of a changing object

A path watches `object.member` where the object itself may change.  Its left observer watches the
object.  Its right leaf watches the member of the present object; every time the object changes, the
leaf is resolved anew and the subscription moves over to it.

A path is active while it has subscribers.
-/

namespace ViewBinding

namespace World

variable {η : Type}

/-- Makes a path and resolves the member of the present object. -/
def newPath (w : World η) (left : Observer) (resolver : Resolver) : Ref .path × World η :=
  let (right, w) := w.resolveMember resolver (w.observerValue left)
  let value := (right.map w.leafValue).getD .undefined
  (w.paths.next, { w with paths := w.paths.alloc { left, resolver, right, value } })

end World

namespace Run

variable {η : Type}

/-- Tells the subscribers of a path about a new value of the member. -/
def tellPath (env : Env η) (p : Ref .path) (new : Value) : Run η Unit := do
  match ← read fun w => w.paths.get? p with
  | none => pure ()
  | some cell =>
    modify fun w => w.modifyPath p fun cell => { cell with value := new }
    env.notify cell.callbacks new cell.value

/-- Moves the subscription of a path to the member of a new object, and tells the subscribers.  A
member that cannot be subscribed is still read. -/
def pathObjectChanged (env : Env η) (p : Ref .path) (object : Value) : Run η Unit := do
  match ← read fun w => w.paths.get? p with
  | none => pure ()
  | some cell =>
    let right ← update fun w => w.resolveMember cell.resolver object
    modify fun w =>
      (w.modifyPath p fun cell => { cell with right, rightSubscription := none }).disposeOption
        cell.rightSubscription
    match right with
    | none => tellPath env p .undefined
    | some leaf =>
      match ← attempt (subscribeLeaf leaf (.pathMember p)) with
      | .ok s =>
        modify fun w => w.modifyPath p fun cell => { cell with rightSubscription := some s }
      | .error _ => pure ()
      tellPath env p (← read fun w => w.leafValue leaf)

/-- Subscribes a path to the member of its present object. -/
def subscribeMember (p : Ref .path) : Run η (Option (Ref .subscription)) := do
  match ← read fun w => (w.paths.get? p).bind (·.right) with
  | some leaf => some <$> subscribeLeaf leaf (.pathMember p)
  | none => pure none

/-- Makes a path follow its object and the member, unless it does. -/
def activate (env : Env η) (p : Ref .path) : Run η Unit := do
  match ← read fun w => w.paths.get? p with
  | none => pure ()
  | some cell =>
    if cell.leftSubscription.isSome then pure ()
    else
      let left ← env.subscribe cell.left (.pathObject p)
      let right ← subscribeMember p
      modify fun w => w.modifyPath p fun cell =>
        { cell with leftSubscription := some left, rightSubscription := right }

/-- Subscribes to a path. -/
def subscribePath (env : Env η) (p : Ref .path) (subscriber : Subscriber) :
    Run η (Ref .subscription) := do
  let token ← update (·.freshToken)
  modify fun w => w.modifyPath p fun cell =>
    { cell with callbacks := cell.callbacks.add token subscriber }
  match ← attempt (activate env p) with
  | .ok () => update fun w => w.callbackSubscription (.path p) token
  | .error cause =>
    modify fun w => w.modifyPath p fun cell =>
      { cell with callbacks := cell.callbacks.remove token }
    fail cause

end Run

end ViewBinding
