import ViewBinding.Tasks

/-!
# Machine — tying the knot

The parts of this library call back through an `Env`.  `machine` is the environment in which they
call each other and the host.  Calls nest at most `depth` deep and loops take at most `rounds`
rounds; a computation that needs more is cut off.
-/

namespace ViewBinding

/-- What the host brings: functions, converters, hooks and a clock. -/
structure Host (η : Type) where
  /-- Calls a host function with `this` and arguments. -/
  call : Env η → Ref .function → Value → List Value → Run η Value
  /-- Converts a value; nothing when the converter does not work that way. -/
  convert : Converter → Direction → Value → List Value → Run η (Option Value)
  /-- Reacts to what happened. -/
  fire : Env η → Ref .hook → Occasion → Run η Unit
  /-- Looks at the clock: whether the time is up that connecting may take in a frame. -/
  late : World η → Bool × η

/-- The clock of a host, which may change with every look. -/
def Host.look {η : Type} (host : Host η) : Run η Bool :=
  Run.update fun w => ((host.late w).1, { w with host := (host.late w).2 })

/-- What a subscriber does about a new and an old value. -/
def Run.react {η : Type} (env : Env η) (subscriber : Subscriber) (new old : Value) : Run η Unit :=
  match subscriber with
  | .pathObject p => pathObjectChanged env p new
  | .pathMember p => tellPath env p new
  | .part c => partChanged env c
  | .source b => sourceChanged env b new
  | .target b => targetChanged env b new
  | .options r => modify fun w => w.synchronizeOptions r
  | .hook h => env.fire h (.changed new old)

/-- The environment in which calls nest at most `depth` deep. -/
def machine {η : Type} (host : Host η) (rounds : Nat) : Nat → Env η
  | 0 =>
    { rounds
      call := fun _ _ _ => Run.cutOff
      convert := host.convert
      fire := fun _ _ => Run.cutOff
      announce := fun _ _ _ => Run.cutOff
      subscribe := fun _ _ => Run.cutOff
      late := host.look }
  | depth + 1 =>
    { rounds
      call := fun f this args => host.call (machine host rounds depth) f this args
      convert := host.convert
      fire := fun hook occasion => host.fire (machine host rounds depth) hook occasion
      announce := fun s new old => Run.react (machine host rounds depth) s new old
      subscribe := fun observer s => Run.subscribe (machine host rounds depth) observer s
      late := host.look }

end ViewBinding
