import ViewBinding.Binding

/-!
# ConnectQueue — spreading connects over frames

Connecting many bindings at once takes long.  The first `threshold` connects of a cycle run at once;
later ones wait for a frame, each binding once, and then evaluate as well, so that a change in
between still reaches the target.  A frame stops after a batch once its budget is spent, and leaves
the rest to the next frame.  A cycle ends when the queue is empty.
-/

namespace ViewBinding

/-- How many connects run between two looks at the budget. -/
def ConnectQueue.batchSize : Nat := 100

namespace ConnectQueue

/-- Counts a connect that runs at once, or queues a binding unless it waits already; tells whether
the connect runs at once. -/
def accept (q : ConnectQueue) (b : Ref .binding) : Bool × ConnectQueue :=
  if q.immediate < q.threshold then (true, { q with immediate := q.immediate + 1 })
  else if q.queued.contains b then (false, q)
  else (false, { q with queue := q.queue ++ [b], queued := b :: q.queued })

/-- Takes the binding that has waited longest. -/
def pop? (q : ConnectQueue) : Option (Ref .binding × ConnectQueue) :=
  match q.queue with
  | [] => none
  | b :: rest => some (b, { q with queue := rest, queued := q.queued.erase b })

/-- Ends the cycle if nothing waits. -/
def endCycle (q : ConnectQueue) : ConnectQueue :=
  if q.queue.isEmpty then { q with requested := false, immediate := 0 } else q

/-- How many bindings wait. -/
def size (q : ConnectQueue) : Nat := q.queue.length

end ConnectQueue

namespace World

variable {η : Type}

/-- Changes how many connects of a cycle run at once. -/
def setThreshold (w : World η) (threshold : Nat) : World η :=
  { w with connects := { w.connects with threshold } }

/-- Lets as many connects run at once as configured. -/
def enableQueue (w : World η) : World η := w.setThreshold w.config.threshold

/-- Lets every connect run at once. -/
def disableQueue (w : World η) : World η := w.setThreshold (Nat.pow 2 64 - 1)

end World

namespace Run

variable {η : Type}

/-- Connects a binding at once or on a later frame. -/
def enqueueConnect (env : Env η) (b : Ref .binding) : Run η Unit := do
  let (now, request) ← update fun w =>
    let (now, q) := w.connects.accept b
    ((now, !q.requested), { w with connects := { q with requested := true } })
  if now then ignoreFailure (connectBinding env b false) else pure ()
  if request then modify fun w => w.requestFrame .connects else pure ()

/-- Connects waiting bindings until none is left or the time is up, which is looked at after every
batch. -/
def drainConnects (env : Env η) : Nat → Nat → Run η Unit
  | 0, _ => cutOff
  | rounds + 1, connected => do
    let next ← update fun w =>
      match w.connects.pop? with
      | some (b, q) => (some b, { w with connects := q })
      | none => (none, w)
    match next with
    | none => pure ()
    | some b =>
      ignoreFailure (connectBinding env b true)
      if (connected + 1) % ConnectQueue.batchSize = 0 then
        if ← env.late then pure () else drainConnects env rounds (connected + 1)
      else drainConnects env rounds (connected + 1)

/-- Runs the connects of a frame and requests another frame for those that are left. -/
def flushConnects (env : Env η) : Run η Unit := do
  drainConnects env env.rounds 0
  modify fun w => { w with connects := w.connects.endCycle }
  if (← read fun w => w.connects.size) = 0 then pure ()
  else modify fun w => w.requestFrame .connects

end Run

end ViewBinding
