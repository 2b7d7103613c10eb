import ViewBinding.Arrays
import ViewBinding.Elements

/-!
# Subscription — what can be taken back

A subscription remembers what disposing it takes back.  Disposing it again does nothing.

The last subscriber to leave an observer makes the observer end its own registrations, which may be
subscriptions with other observers: `World.undo` gives these, and `World.dispose` disposes them too.
A chain of subscriptions that dispose each other is no longer than there are subscriptions.
-/

namespace ViewBinding

namespace World

variable {η : Type}

/-- Makes a subscription. -/
def newSubscription (w : World η) (disposal : Option Disposal) : Ref .subscription × World η :=
  (w.subscriptions.next, { w with subscriptions := w.subscriptions.alloc ⟨disposal⟩ })

/-- What a subscription takes back; nothing once it is disposed. -/
def disposal? (w : World η) (s : Ref .subscription) : Option Disposal := do
  (← w.subscriptions.get? s).disposal

/-- Whether a subscription is disposed. -/
def isDisposed (w : World η) (s : Ref .subscription) : Bool := (w.disposal? s).isNone

/-- Ends a registration with an observer.  What is left to dispose comes back. -/
def undoCallback (w : World η) (token : Token) : Observer → List (Ref .subscription) × World η
  | .leaf (.setter r) =>
    ([], w.modifySetter r fun cell => { cell with callbacks := cell.callbacks.remove token })
  | .leaf (.property r) =>
    ([], w.modifyProperty r fun cell => { cell with callbacks := cell.callbacks.remove token })
  | .leaf (.placeholder r) =>
    match w.placeholders.get? r with
    | none => ([], w)
    | some cell =>
      let moved := (cell.parked.filter (·.token = token)).filterMap (·.moved)
      (moved, w.modifyPlaceholder r fun cell =>
        { cell with parked := cell.parked.filter (·.token ≠ token) })
  | .leaf (.element r) =>
    match w.elementProperties.get? r with
    | none => ([], w)
    | some cell =>
      let callbacks := cell.callbacks.remove token
      if callbacks.isEmpty then
        (cell.handler.toList, w.modifyElementProperty r fun cell =>
          { cell with callbacks, handler := none })
      else ([], w.modifyElementProperty r fun cell => { cell with callbacks })
  | .leaf (.select r) =>
    match w.selects.get? r with
    | none => ([], w)
    | some cell =>
      let callbacks := cell.callbacks.remove token
      if callbacks.isEmpty then
        (cell.handler.toList, w.modifySelect r fun cell => { cell with callbacks, handler := none })
      else ([], w.modifySelect r fun cell => { cell with callbacks })
  | .leaf (.contents r) =>
    match w.contents.get? r with
    | none => ([], w)
    | some cell =>
      let callbacks := cell.callbacks.remove token
      if callbacks.isEmpty then
        let w := w.modifyContents r fun cell => { cell with callbacks, listener := none }
        match cell.listener with
        | some listener => ([], w.unlistenSplices cell.array listener)
        | none => ([], w)
      else ([], w.modifyContents r fun cell => { cell with callbacks })
  | .leaf (.poll r) =>
    match w.polls.get? r with
    | none => ([], w)
    | some cell =>
      let callbacks := cell.callbacks.remove token
      if cell.callbacks.contains token && callbacks.isEmpty then
        let w := w.modifyPoll r fun cell => { cell with callbacks, old := none }
        ([], { w with polling :=
          { w.polling with tracked := w.polling.tracked.filter (· ≠ r) } })
      else ([], w.modifyPoll r fun cell => { cell with callbacks })
  | .path r =>
    match w.paths.get? r with
    | none => ([], w)
    | some cell =>
      let callbacks := cell.callbacks.remove token
      if callbacks.isEmpty then
        (cell.leftSubscription.toList ++ cell.rightSubscription.toList, w.modifyPath r fun cell =>
          { cell with callbacks, leftSubscription := none, rightSubscription := none })
      else ([], w.modifyPath r fun cell => { cell with callbacks })
  | .composite r =>
    match w.composites.get? r with
    | none => ([], w)
    | some cell =>
      let callbacks := cell.callbacks.remove token
      if cell.callbacks.contains token && callbacks.isEmpty then
        (cell.parts.toList.filterMap (·.subscription), w.modifyComposite r fun cell =>
          { cell with
            callbacks, parts := cell.parts.map fun part => { part with subscription := none } })
      else ([], w.modifyComposite r fun cell => { cell with callbacks })

/-- Takes back what a subscription stands for.  What is left to dispose comes back. -/
def undo (w : World η) : Disposal → List (Ref .subscription) × World η
  | .callback observer token => w.undoCallback token observer
  | .events e tokens => ([], tokens.foldl (fun w token => w.unlistenEvents e token) w)

/-- Disposes a subscription, and those that it made superfluous at most `depth` deep. -/
def disposeWithin : Nat → Ref .subscription → World η → World η
  | 0, _, w => w
  | depth + 1, s, w =>
    match w.disposal? s with
    | none => w
    | some disposal =>
      let w := w.modifySubscription s fun _ => ⟨none⟩
      let (more, w) := w.undo disposal
      more.foldl (fun w s => disposeWithin depth s w) w

/-- Disposes a subscription. -/
def dispose (w : World η) (s : Ref .subscription) : World η :=
  disposeWithin w.subscriptions.size s w

/-- Disposes a subscription if there is one. -/
def disposeOption (w : World η) : Option (Ref .subscription) → World η
  | some s => w.dispose s
  | none => w

end World

end ViewBinding
