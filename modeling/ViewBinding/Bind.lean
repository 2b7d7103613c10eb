import ViewBinding.ConnectQueue

/-!
# Bind — from an inert binding to a bound one

Binding evaluates the source expression and writes the target, then starts to follow the source, the
target, or both.  A binding that fails to start is unbound again.
-/

namespace ViewBinding

namespace Run

variable {η : Type}

/-- Starts a binding in the direction of its mode. -/
def startBinding (env : Env η) (b : Ref .binding) (cell : BindingCell) (scope : Scope) :
    Run η Unit := do
  if cell.mode.updatesTarget then
    let v ← cell.expression.eval env .registered scope
    writeLeaf env cell.targetObserver v
  else pure ()
  match cell.mode with
  | .oneTime => pure ()
  | .toView => enqueueConnect env b
  | .twoWay =>
    connectBinding env b false
    subscribeTarget b
  | .fromView => subscribeTarget b

/-- Binds a binding to a scope.  One that is bound is unbound first, and one that fails to start is
unbound afterwards. -/
def bindTo (env : Env η) (b : Ref .binding) (scope : Scope) : Run η Unit := do
  match ← read fun w => w.bindings.get? b with
  | none => pure ()
  | some cell =>
    modify fun w => (w.unbind b).modifyBinding b fun cell => { cell with source := some scope }
    match cell.targetObserver with
    | .select r => modify fun w => w.bindSelect r
    | _ => pure ()
    match ← attempt (startBinding env b cell scope) with
    | .ok () => pure ()
    | .error cause =>
      modify fun w => w.unbind b
      fail cause

end Run

end ViewBinding
