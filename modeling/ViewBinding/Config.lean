import ViewBinding.Json.Printer
import ViewBinding.Json.Reader

/-!
# Config — settings of an engine

A configuration is an object whose missing settings have their defaults, or an array of settings in
the order of the fields.  `Config.ofJson?` reads it and `Config.toJson` writes it.
-/

namespace ViewBinding

/-- How objects that are not frozen are observed. -/
inductive Strategy where
  /-- Batches of change records, dispatched per object. -/
  | changeRecords
  /-- Traps in place of properties, installed by the first subscription. -/
  | setter
deriving DecidableEq, Repr, Inhabited

/-- Settings of an engine. -/
structure Config where
  /-- How many connects run at once before the others wait for a frame. -/
  threshold : Nat
  /-- How many milliseconds the queued connects of a frame may take. -/
  frameBudget : Nat
  strategy : Strategy
  /-- The element events that signal a change of an observable property. -/
  observedEvents : List String
  /-- The element properties that can be subscribed. -/
  observableProperties : List String
deriving DecidableEq, Repr

namespace Config

/-- The settings of an engine that nobody configured. -/
def standard : Config where
  threshold := 100
  frameBudget := 15
  strategy := .changeRecords
  observedEvents := ["change", "input"]
  observableProperties := ["value", "checked"]

instance : Inhabited Config := ⟨standard⟩

/-- Whether an element property is observed through element events. -/
def isObservable (config : Config) (property : String) : Bool :=
  config.observableProperties.contains property

/-- The names of the settings, in their order. -/
def settingNames : List String :=
  ["connect_queue_threshold", "frame_budget_ms", "observation_strategy", "observed_events",
    "observable_element_properties"]

end Config

/-- The name of a strategy. -/
def Strategy.name : Strategy → String
  | changeRecords => "change-records"
  | setter => "setter"

/-- The strategy with this name. -/
def Strategy.ofName? (name : String) : Option Strategy :=
  [changeRecords, setter].find? (·.name = name)

namespace Json

/-- A choice among names: the name, or an object that maps it to `null`. -/
def asChoice? : Json → Option String
  | string s => some s
  | object [(s, null)] => some s
  | _ => none

/-- A natural number below `2 ^ 64`. -/
def asNatural? : Json → Option Nat
  | whole n => if 0 ≤ n then some n.toNat else none
  | _ => none

/-- A text. -/
def asString? : Json → Option String
  | string s => some s
  | _ => none

/-- An array of texts. -/
def asStrings? : Json → Option (List String)
  | array items => items.mapM asString?
  | _ => none

end Json

namespace Config

/-- Changes the setting at a place. -/
def set? (config : Config) (place : Nat) (value : Json) : Option Config :=
  match place with
  | 0 => value.asNatural?.map fun n => { config with threshold := n }
  | 1 => value.asNatural?.map fun n => { config with frameBudget := n }
  | 2 => do
    let strategy ← Strategy.ofName? (← value.asChoice?)
    some { config with strategy }
  | 3 => value.asStrings?.map fun events => { config with observedEvents := events }
  | 4 => value.asStrings?.map fun names => { config with observableProperties := names }
  | _ => none

/-- Settings named in an object; other names are ignored, and no setting may be named twice. -/
def ofMembers? (members : List (String × Json)) : Option Config :=
  let known := members.filterMap fun (name, value) =>
    (settingNames.findIdx? (· = name)).map fun place => (place, value)
  if (known.map (·.1)).Nodup then
    known.foldlM (fun config (place, value) => config.set? place value) standard
  else none

/-- The configuration that a document describes. -/
def ofDocument? : Json → Option Config
  | .object members => ofMembers? members
  | .array items =>
    items.zipIdx.foldlM (fun config (value, place) => config.set? place value) standard
  | _ => none

/-- The configuration that a JSON text describes; what a member of another name holds has no part
in it. -/
def ofJson? (text : String) : Option Config := do
  ofDocument? (← Json.parseNamed? settingNames text)

/-- The JSON text of a configuration. -/
def toJson (config : Config) : String :=
  let values : List Json :=
    [.whole config.threshold, .whole config.frameBudget, .string config.strategy.name,
      .array (config.observedEvents.map .string), .array (config.observableProperties.map .string)]
  (Json.object (settingNames.zip values)).print

end Config

end ViewBinding
