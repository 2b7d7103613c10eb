import ViewBinding.Error
import ViewBinding.World

/-!
# Run — computations that change a world

A computation ends with a result, fails for a cause, breaks off because an index leaves its range,
or is cut off because it did not come to an end in the rounds it was given.  In every case it leaves
a world: what happened before a failure stays done.

`Env` is what a computation may call back into: the host's functions, converters, hooks and clock,
and the reactions of this library, which call back themselves.  Functions that take an `Env` are
proved things about for every environment; `ViewBinding.Machine` ties the knot.
-/

namespace ViewBinding

/-- How a computation ends. -/
inductive Outcome (α : Type) where
  | ok (result : α)
  | error (cause : BindingError)
  /-- The sum of two indices left its range. -/
  | overflow
  /-- The computation was cut off. -/
  | exhausted
deriving Repr

/-- A computation on worlds with a host state of type `η`. -/
def Run (η α : Type) : Type := World η → Outcome α × World η

namespace Run

variable {η α β : Type}

/-- Gives a result and changes nothing. -/
@[inline] def pure (a : α) : Run η α := fun w => (.ok a, w)

/-- Goes on with the result of a computation, unless there is none. -/
@[inline] def bind (x : Run η α) (f : α → Run η β) : Run η β := fun w =>
  match x w with
  | (.ok a, w) => f a w
  | (.error e, w) => (.error e, w)
  | (.overflow, w) => (.overflow, w)
  | (.exhausted, w) => (.exhausted, w)

instance : Monad (Run η) where
  pure := pure
  bind := bind

/-- Fails. -/
@[inline] def fail (cause : BindingError) : Run η α := fun w => (.error cause, w)

/-- Breaks off. -/
@[inline] def breakOff : Run η α := fun w => (.overflow, w)

/-- Is cut off. -/
@[inline] def cutOff : Run η α := fun w => (.exhausted, w)

/-- The world. -/
@[inline] def world : Run η (World η) := fun w => (.ok w, w)

/-- Something about the world. -/
@[inline] def read (f : World η → α) : Run η α := fun w => (.ok (f w), w)

/-- Changes the world. -/
@[inline] def modify (f : World η → World η) : Run η Unit := fun w => (.ok (), f w)

/-- Changes the world and gives a result. -/
@[inline] def update (f : World η → α × World η) : Run η α := fun w =>
  let (a, w) := f w
  (.ok a, w)

/-- The result of a computation, or the cause of its failure. -/
@[inline] def attempt (x : Run η α) : Run η (Except BindingError α) := fun w =>
  match x w with
  | (.ok a, w) => (.ok (.ok a), w)
  | (.error e, w) => (.ok (.error e), w)
  | (.overflow, w) => (.overflow, w)
  | (.exhausted, w) => (.exhausted, w)

/-- A computation whose failure concerns nobody. -/
@[inline] def ignoreFailure (x : Run η Unit) : Run η Unit := do
  discard x.attempt

/-- Something that must be there, or the computation is cut off. -/
@[inline] def ofOption : Option α → Run η α
  | some a => pure a
  | none => cutOff

/-- Does something for each item of a list. -/
def forEach (items : List α) (f : α → Run η Unit) : Run η Unit :=
  match items with
  | [] => pure ()
  | a :: rest => do
    f a
    forEach rest f

end Run

/-- Which way a converter works. -/
inductive Direction where
  | toView
  | fromView
deriving DecidableEq, Repr

/-- What happened, as a hook of the host is told. -/
inductive Occasion where
  | changed (new old : Value)
  | records (records : List ChangeRecord)
  | spliced (splice : Splice)
  | event (name : String)
  | childList
  | task
  | frame
deriving DecidableEq

/-- What a computation may call back into. -/
structure Env (η : Type) where
  /-- How many rounds a loop may take. -/
  rounds : Nat
  /-- Calls a host function with `this` and arguments. -/
  call : Ref .function → Value → List Value → Run η Value
  /-- Converts a value; nothing when the converter does not work that way. -/
  convert : Converter → Direction → Value → List Value → Run η (Option Value)
  /-- Tells the host that something happened. -/
  fire : Ref .hook → Occasion → Run η Unit
  /-- Tells a subscriber about a new and an old value. -/
  announce : Subscriber → Value → Value → Run η Unit
  /-- Subscribes to an observer. -/
  subscribe : Observer → Subscriber → Run η (Ref .subscription)
  /-- Looks at the clock: whether the time is up that connecting may take in a frame. -/
  late : Run η Bool

namespace Env

variable {η : Type}

/-- Tells subscribers about a new and an old value, in the order of the list. -/
def announceAll (env : Env η) (subscribers : List Subscriber) (new old : Value) : Run η Unit :=
  Run.forEach subscribers fun s => env.announce s new old

/-- Tells everyone who was registered when the notification began, the newest first. -/
def notify (env : Env η) (callbacks : Listeners Subscriber) (new old : Value) : Run η Unit :=
  env.announceAll callbacks.newestFirst new old

end Env

end ViewBinding
