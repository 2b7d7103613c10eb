import ViewBinding.Bind

/-!
# Tasks — microtasks and frames

Notifications wait in a queue of microtasks, so that several writes in one tick become one
notification.  Microtasks run in the order of their queueing, and those queued by a running one run
in the same flush.  A flush from inside a flush does nothing.

A frame runs what was requested before it began, and then flushes the microtasks.
-/

namespace ViewBinding

namespace Run

variable {η α : Type}

/-- A computation after which the world is changed, however it ends. -/
def ensuring (x : Run η α) (f : World η → World η) : Run η α := fun w =>
  let (outcome, w) := x w
  (outcome, f w)

/-- Runs a microtask. -/
def runMicrotask (env : Env η) : Microtask → Run η Unit
  | .deliver o => deliver env o
  | .setter s => tellSetter env s
  | .contents c => tellContents env c
  | .hook h => env.fire h .task

/-- Runs a frame task. -/
def runFrameTask (env : Env η) : FrameTask → Run η Unit
  | .poll => poll env
  | .connects => flushConnects env
  | .hook h => env.fire h .frame

/-- Runs microtasks until none is left, and gives how many have run. -/
def drainMicrotasks (env : Env η) : Nat → Nat → Run η Nat
  | 0, _ => cutOff
  | rounds + 1, ran => do
    match ← read fun w => w.tasks.microtasks with
    | [] => pure ran
    | task :: rest =>
      modify fun w => { w with tasks := { w.tasks with microtasks := rest } }
      runMicrotask env task
      drainMicrotasks env rounds (ran + 1)

/-- Marks whether a flush is running. -/
def markFlushing (flushing : Bool) (w : World η) : World η :=
  { w with tasks := { w.tasks with flushing } }

/-- Runs the microtasks and gives how many have run; none when a flush is running. -/
def flushMicrotasks (env : Env η) : Run η Nat := do
  if ← read fun w => w.tasks.flushing then pure 0
  else
    modify (markFlushing true)
    ensuring (drainMicrotasks env env.rounds 0) (markFlushing false)

/-- Runs a frame and gives how many frame tasks have run. -/
def runFrame (env : Env η) : Run η Nat := do
  let frames ← update fun w =>
    (w.tasks.frames, { w with tasks := { w.tasks with frames := [] } })
  forEach frames (runFrameTask env)
  discard (flushMicrotasks env)
  pure frames.length

end Run

end ViewBinding
