import ViewBinding.Observer.Composite

/-!
# Binding — one element property and one expression

A binding is inert until it is bound to a scope.  While it is bound it writes changes of the source
expression to the target property, changes of the target back through the expression, or both, as
its mode says.

This module has what a bound binding does; `ViewBinding.Bind` says how it becomes bound.
-/

namespace ViewBinding

namespace World

variable {η : Type}

/-- Makes a binding of an expression to an element property. -/
def newBinding (w : World η) (e : Ref .element) (property : String) (expression : Expr)
    (mode : Mode) : Ref .binding × World η :=
  let (targetObserver, w) := w.elementObserver e property
  (w.bindings.next, { w with
    bindings := w.bindings.alloc { expression, element := e, property, mode, targetObserver } })

/-- The scope that a binding is bound to. -/
def sourceOf? (w : World η) (b : Ref .binding) : Option Scope := do
  (← w.bindings.get? b).source

/-- Whether a binding is bound. -/
def isBound (w : World η) (b : Ref .binding) : Bool := (w.sourceOf? b).isSome

/-- Ends a binding: disposes its subscriptions.  A queued connect of it does nothing any more. -/
def unbind (w : World η) (b : Ref .binding) : World η :=
  match w.bindings.get? b with
  | none => w
  | some cell =>
    if cell.source.isNone then w
    else
      let w := w.modifyBinding b fun cell =>
        { cell with
          source := none, sourceObserver := none, sourceSubscription := none,
          targetSubscription := none }
      let w := (w.disposeOption cell.sourceSubscription).disposeOption cell.targetSubscription
      match cell.targetObserver with
      | .select r => w.unbindSelect r
      | _ => w

end World

namespace Run

variable {η : Type}

/-- Writes a value to the target of a binding. -/
def updateTarget (env : Env η) (b : Ref .binding) (v : Value) : Run η Unit := do
  match ← read fun w => w.bindings.get? b with
  | some cell => writeLeaf env cell.targetObserver v
  | none => pure ()

/-- Assigns a value through the source expression of a binding, while it is bound. -/
def updateSource (env : Env η) (b : Ref .binding) (v : Value) : Run η Unit := do
  match ← read fun w => w.bindings.get? b with
  | some { source := some scope, expression, .. } =>
    discard (expression.assignTo env .registered scope v)
  | _ => pure ()

/-- A binding learns that its source changed.  A target that has the value already is not written.
-/
def sourceChanged (env : Env η) (b : Ref .binding) (new : Value) : Run η Unit := do
  match ← read fun w => w.bindings.get? b with
  | some { source := some _, targetObserver, .. } =>
    if new.same (← read fun w => w.leafValue targetObserver) then pure ()
    else ignoreFailure (updateTarget env b new)
  | _ => pure ()

/-- A binding learns that its target changed. -/
def targetChanged (env : Env η) (b : Ref .binding) (new : Value) : Run η Unit :=
  ignoreFailure (updateSource env b new)

/-- Keeps the subscription of a binding with its source in place of an earlier one, unless the
binding was unbound meanwhile. -/
def keepSource (b : Ref .binding) (observer : Observer) (s : Ref .subscription) : Run η Unit := do
  match ← read fun w => w.bindings.get? b with
  | some { source := some _, sourceSubscription := previous, .. } =>
    modify fun w =>
      (w.modifyBinding b fun cell =>
        { cell with sourceObserver := some observer, sourceSubscription := some s }).disposeOption
        previous
  | _ => modify fun w => w.dispose s

/-- Connects the source expression of a bound binding and follows its observer.  With `evaluate` the
target is written first. -/
def connectBinding (env : Env η) (b : Ref .binding) (evaluate : Bool) : Run η Unit := do
  match ← read fun w => w.bindings.get? b with
  | some { source := some scope, expression, targetObserver, .. } =>
    if evaluate then
      let v ← expression.eval env .registered scope
      writeLeaf env targetObserver v
    else pure ()
    let info ← expression.connect env (.binding b) scope
    match info.observer with
    | some observer => keepSource b observer (← env.subscribe observer (.source b))
    | none => pure ()
  | _ => pure ()

/-- Follows the target of a binding. -/
def subscribeTarget (b : Ref .binding) : Run η Unit := do
  match ← read fun w => w.bindings.get? b with
  | none => pure ()
  | some cell =>
    let s ← subscribeLeaf cell.targetObserver (.target b)
    match ← read fun w => w.bindings.get? b with
    | none => modify fun w => w.dispose s
    | some { targetSubscription := previous, .. } =>
      modify fun w =>
        (w.modifyBinding b fun cell => { cell with targetSubscription := some s }).disposeOption
          previous

end Run

end ViewBinding
