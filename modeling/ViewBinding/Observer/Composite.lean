import ViewBinding.Connect

/-!
# Observer.Composite — an expression with several observed parts

A composite subscribes to those of its parts whose condition holds for the value of the primary
part.  When one of them changes it evaluates the expression again, tells its subscribers, and then
brings the subscriptions in line with the primary value of that time.  A change that is reported
while another one is handled is handled after it.

A part whose condition fails is neither connected nor subscribed, so the branch not taken never
makes the expression be evaluated.
-/

namespace ViewBinding

namespace World

variable {η : Type}

/-- A part of a composite. -/
def part? (w : World η) (c : Ref .composite) (index : Nat) : Option Part := do
  (← w.composites.get? c).parts[index]?

/-- Changes a part of a composite. -/
def modifyPart (w : World η) (c : Ref .composite) (index : Nat) (f : Part → Part) : World η :=
  w.modifyComposite c fun cell => { cell with parts := cell.parts.modify index f }

/-- How many parts a composite has. -/
def partCount (w : World η) (c : Ref .composite) : Nat :=
  ((w.composites.get? c).map (·.parts.size)).getD 0

/-- How many parts of a composite are subscribed. -/
def subscribedCount (w : World η) (c : Ref .composite) : Nat :=
  ((w.composites.get? c).map fun cell => cell.parts.countP (·.subscription.isSome)).getD 0

/-- How many subscribers a composite has. -/
def followerCount (w : World η) (c : Ref .composite) : Nat :=
  ((w.composites.get? c).map (·.callbacks.size)).getD 0

end World

namespace Run

variable {η : Type}

/-- Connects an expression for a composite; without its provider there is nothing to connect to. -/
def connectFor (env : Env η) (cell : CompositeCell) (e : Expr) : Run η ConnectInfo := do
  if ← read fun w => w.provides cell.provider then e.connect env cell.provider cell.scope
  else pure .nothing

/-- Adds a part to a composite. -/
def addPartOf (env : Env η) (c : Ref .composite) (e : Expr) (condition : Condition) :
    Run η ConnectInfo := do
  match ← read fun w => w.composites.get? c with
  | some cell => addPart c e condition (connectFor env cell e)
  | none => pure .nothing

/-- Adds the primary part to a composite. -/
def addPrimaryOf (env : Env η) (c : Ref .composite) (e : Expr) : Run η ConnectInfo := do
  match ← read fun w => w.composites.get? c with
  | some cell => addPrimary c e (connectFor env cell e)
  | none => pure .nothing

/-- Subscribes to a part of a composite, unless that has happened while subscribing. -/
def followPart (env : Env η) (c : Ref .composite) (index : Nat) (observer : Observer) :
    Run η Unit := do
  let s ← env.subscribe observer (.part c)
  match ← read fun w => w.part? c index with
  | some { subscription := none, .. } =>
    modify fun w => w.modifyPart c index fun part => { part with subscription := some s }
  | _ => modify fun w => w.dispose s

/-- What connecting a part gave; a part that was not connected yet is connected now. -/
def partInfo (env : Env η) (c : Ref .composite) (index : Nat) (part : Part) :
    Run η ConnectInfo := do
  match part.info with
  | some info => pure info
  | none =>
    match ← read fun w => w.composites.get? c with
    | none => pure .nothing
    | some cell =>
      let info ← connectFor env cell part.expression
      modify fun w => w.modifyPart c index fun part => { part with info := some info }
      pure info

/-- Subscribes to a part of a composite or ends the subscription, as `on` and the part's condition
demand. -/
def reconnectPart (env : Env η) (c : Ref .composite) (on : Bool) (primary : Option Value)
    (index : Nat) : Run η Unit := do
  match ← read fun w => w.part? c index with
  | none => pure ()
  | some part =>
    if on && part.condition.holds primary then
      let info ← partInfo env c index part
      match part.subscription, info.observer with
      | none, some observer => followPart env c index observer
      | _, _ => pure ()
    else
      modify fun w =>
        (w.modifyPart c index fun part => { part with subscription := none }).disposeOption
          part.subscription

/-- Brings the subscriptions of a composite in line with the value of its primary part, or ends them
all. -/
def reconnect (env : Env η) (c : Ref .composite) (on : Bool) : Run η Unit := do
  let primary ← read fun w => w.primaryValue? c
  let count ← read fun w => w.partCount c
  forEach (List.range count) (reconnectPart env c on primary)

/-- Tells the subscribers of a composite about the value it was evaluated to. -/
def tellComposite (env : Env η) (c : Ref .composite) (new : Value) : Run η Unit := do
  match ← read fun w => w.composites.get? c with
  | none => pure ()
  | some cell =>
    modify fun w => w.modifyComposite c fun cell => { cell with value := new }
    env.notify cell.callbacks new cell.value

/-- Evaluates the expression of a composite and tells the subscribers.  When the evaluation fails,
nobody is told. -/
def reevaluate (env : Env η) (c : Ref .composite) : Run η Unit := do
  match ← read fun w => w.composites.get? c with
  | none => pure ()
  | some cell =>
    let converters ← read fun w => w.convertersOf cell.provider
    match ← attempt (cell.expression.eval env converters cell.scope) with
    | .error _ => pure ()
    | .ok new => tellComposite env c new

/-- Handles changes of the parts of a composite until none is left. -/
def settle (env : Env η) (c : Ref .composite) : Nat → Run η Unit
  | 0 => cutOff
  | rounds + 1 => do
    reevaluate env c
    let on ← read fun w => w.followerCount c != 0
    ignoreFailure (reconnect env c on)
    if ← read fun w => ((w.composites.get? c).map (·.rerun)).getD false then
      modify fun w => w.modifyComposite c fun cell => { cell with rerun := false }
      settle env c rounds
    else modify fun w => w.modifyComposite c fun cell => { cell with calling := false }

/-- A composite learns that one of its parts changed. -/
def partChanged (env : Env η) (c : Ref .composite) : Run η Unit := do
  match ← read fun w => w.composites.get? c with
  | none => pure ()
  | some cell =>
    if cell.calling then modify fun w => w.modifyComposite c fun cell => { cell with rerun := true }
    else
      modify fun w => w.modifyComposite c fun cell => { cell with calling := true }
      settle env c env.rounds

/-- Subscribes to a composite.  The first subscriber makes it subscribe to its parts. -/
def subscribeComposite (env : Env η) (c : Ref .composite) (subscriber : Subscriber) :
    Run η (Ref .subscription) := do
  let token ← update (·.freshToken)
  modify fun w => w.modifyComposite c fun cell =>
    { cell with callbacks := cell.callbacks.add token subscriber }
  if (← read fun w => w.followerCount c) = 1 then
    match ← attempt (reconnect env c true) with
    | .ok () => pure ()
    | .error cause =>
      modify fun w => w.modifyComposite c fun cell =>
        { cell with callbacks := cell.callbacks.remove token }
      reconnect env c false
      fail cause
  else pure ()
  update fun w => w.callbackSubscription (.composite c) token

/-- Subscribes to an observer. -/
def subscribe (env : Env η) (observer : Observer) (subscriber : Subscriber) :
    Run η (Ref .subscription) :=
  match observer with
  | .leaf leaf => subscribeLeaf leaf subscriber
  | .path p => subscribePath env p subscriber
  | .composite c => subscribeComposite env c subscriber

end Run

end ViewBinding
