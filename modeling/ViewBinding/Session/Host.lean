import ViewBinding.Session.Elements

/-!
# Session.Host — taking steps, and calling back into a script

A step is taken in an environment and answered.  What a running step uses or has made stays alive
while it runs, even if a reaction to it empties the registers meanwhile.  After each step of a
session everything that nothing holds any more is gone.

When a hook fires it reports what happened and then takes the steps of its reaction, unless it has
taken them often enough.  Host functions and converters are a small catalogue.
-/

namespace ViewBinding.Session

namespace Action

/-- Does what a step does. -/
def run (env : Env State) : Action Step → Act Report
  | register action => action.run
  | object o action => do action.run env (← Act.object o)
  | array a action => do action.run env (← Act.array a)
  | scope action => action.run env
  | task action => action.run env
  | watch action => action.run env
  | observer action => action.run env
  | engine action => action.run env
  | element action => action.run env
  | binding action => action.run env
  | converter action => action.run env

end Action

namespace Step

/-- Pins what the running steps have made since a step was last begun or ended. -/
def pinMade (w : World State) : World State :=
  let pinned := w.madeSince w.host.census ++ w.host.pinned
  { w with host := { w.host with pinned, census := w.census } }

/-- Takes a step and answers. -/
def take (env : Env State) (step : Step) : Act Answer := do
  Run.modify pinMade
  let pinned ← Run.read (·.host.pinned)
  let result ← Run.attempt (step.action.run env)
  Run.modify fun w => { w with host := { w.host with pinned, census := w.census } }
  match result with
  | .ok report => pure (.done report)
  | .error cause => pure (.failed cause)

end Step

/-! ### Hooks -/

/-- What a hook reports about an occasion. -/
def Hook.event (w : World State) (hook : Hook) : Occasion → Event
  | .changed new old => .changed hook.tag (w.snapshot new) (w.snapshot old)
  | .records records =>
    .records hook.tag (records.map fun record => (record.name, record.kind, w.snapshot record.old))
  | .spliced splice =>
    .spliced hook.tag splice.index (splice.removed.map w.snapshot) splice.added
  | .event name => if hook.kind = .handler then .handled hook.tag else .event hook.tag name
  | .childList => .children hook.tag
  | .task => .microtask hook.tag
  | .frame => .frame hook.tag

/-- The things that an occasion is about. -/
def occasionThings : Occasion → List Thing
  | .changed new old => new.things ++ old.things
  | .records records => records.flatMap (·.old.things)
  | .spliced splice => splice.removed.flatMap Value.things
  | _ => []

/-- Takes the steps of a reaction and reports their answers. -/
def takeSteps (env : Env State) (reaction : Reaction Step) : Act Unit :=
  Run.forEach reaction.steps fun step => do
    let answer ← step.take env
    Act.emit (.step step.label answer)

/-- Whether a reaction that has been taken so many times is taken again. -/
def Reaction.isDue (reaction : Reaction Step) (taken : Nat) : Bool :=
  match reaction.times with
  | some times => taken < times
  | none => true

/-- Fires a hook. -/
def fireHook (env : Env State) (h : Ref .hook) (occasion : Occasion) : Act Unit := do
  match ← Run.read fun w => w.host.hooks.get? h with
  | none => pure ()
  | some hook =>
    Act.emit (← Run.read fun w => hook.event w occasion)
    Act.pin (occasionThings occasion)
    if hook.reaction.isDue hook.taken then
      Act.modifyHost fun s =>
        { s with hooks := s.hooks.modify h fun hook => { hook with taken := hook.taken + 1 } }
      takeSteps env hook.reaction
    else pure ()

/-! ### Functions -/

/-- The texts of values, joined. -/
def joinTexts (separator : String) (values : List Value) : Act String := do
  pure (separator.intercalate (← values.mapM Run.display))

/-- Sets a property on behalf of a host function. -/
def writeProperty (this : Value) (args : List Value) : Act Value := do
  match this, args with
  | .object o, [name, v] =>
    let name ← Run.display name
    Run.modify fun w => w.set o name v
    pure v
  | _, _ => Run.fail (.host "put needs an object and two arguments")

/-- Does what a host function does at its call number `number`. -/
def Behaviour.perform (env : Env State) (behaviour : Behaviour Step) (name : String) (number : Nat)
    (this : Value) (args : List Value) : Act Value := do
  let argument := args.head?.getD .undefined
  match behaviour with
  | .sum => pure (.number (args.foldl (fun total v => total + v.toNumber) 0.0))
  | .join => do pure (.string (← joinTexts "" args))
  | .receiver => pure this
  | .first => pure argument
  | .collect =>
    Run.update fun w =>
      let (a, w) := w.newArray args
      (.array a, w)
  | .read => do
    let property ←
      match args with
      | [] => pure ""
      | v :: _ => Run.display v
    Run.read fun w => w.member this property
  | .write => writeProperty this args
  | .fail =>
    match args with
    | [] => Run.fail (.host "failed")
    | v :: _ => do Run.fail (.host (← Run.display v))
  | .log => do
    Act.emit (.called name (← Run.read fun w => args.map w.snapshot))
    pure argument
  | .count => pure (.number (Float.ofNat number))
  | .flaky =>
    if number % 2 = 0 then Run.fail (.host ("call " ++ toString number)) else pure argument
  | .make => Act.newFunction (.made args) "made"
  | .made values => do pure (.string (← joinTexts "/" (values ++ args)))
  | .script reaction => do
    Act.pin (this.things ++ args.flatMap Value.things)
    if reaction.isDue (number - 1) then takeSteps env reaction else pure ()
    pure argument

/-- Calls a host function. -/
def callFunction (env : Env State) (f : Ref .function) (this : Value) (args : List Value) :
    Act Value := do
  match ← Run.read fun w => w.host.functions.get? f with
  | none => pure .undefined
  | some function =>
    Act.modifyHost fun s =>
      { s with functions := s.functions.modify f fun function =>
          { function with calls := function.calls + 1 } }
    let name ← Run.read fun w => w.functionName f
    function.behaviour.perform env name (function.calls + 1) this args

/-! ### Converters -/

/-- The converters of the catalogue. -/
def converterKeys : List String := ["upper", "suffix", "wrap", "number", "same"]

/-- An array as the result of a converter. -/
def converted (items : List Value) : Act (Option Value) :=
  Run.update fun w =>
    let (a, w) := w.newArray items
    (some (.array a), w)

/-- Converts a value with a converter of the catalogue. -/
def convertWith (converter : Converter) (direction : Direction) (v : Value) (args : List Value) :
    Act (Option Value) := do
  match converter.key, direction with
  | "upper", .toView => do pure (some (.string (← Run.display v).toUpper))
  | "upper", .fromView => do pure (some (.string (← Run.display v).toLower))
  | "suffix", .toView => do
    let text ← Run.display v
    match args with
    | [] => pure (some (.string text))
    | suffix :: _ => do pure (some (.string (text ++ (← Run.display suffix))))
  | "wrap", .toView => converted (v :: args)
  | "wrap", .fromView => converted (.string "from" :: v :: args)
  | "number", .fromView => pure (some (.number v.toNumber))
  | _, _ => pure none

/-! ### Sessions -/

/-- The host of a session.  A budget of no time is spent at once, and any other one is taken to be
long enough. -/
def host : Host State where
  call := callFunction
  convert := convertWith
  fire := fireHook
  late := fun w => (w.config.frameBudget == 0, w.host)

/-- How deep calls may nest in a session. -/
def callDepth : Nat := 3000

/-- How many rounds a loop may take in a session. -/
def loopRounds : Nat := 100000

/-- The environment of a session. -/
def environment : Env State := machine host loopRounds callDepth

/-- The answer to a step and what was reported meanwhile. -/
structure Reply where
  answer : Answer
  events : List Event

/-- Takes the steps of a session one after the other. -/
def takeAll (env : Env State) : List Step → World State → List Reply
  | [], _ => []
  | step :: rest, w =>
    let (outcome, w) := step.take env w
    let answer :=
      match outcome with
      | .ok answer => answer
      | .error cause => .failed cause
      | .overflow => .broken
      | .exhausted => .broken
    let w := w.collect w.host.things
    ⟨answer, w.host.events.reverse⟩
      :: takeAll env rest { w with host := { w.host with events := [] } }

/-- The replies to the steps of a session with a new engine. -/
def run (config : Config) (steps : List Step) : List Reply :=
  takeAll environment steps (World.new config {})

end ViewBinding.Session
