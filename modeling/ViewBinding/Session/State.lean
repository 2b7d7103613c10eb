import ViewBinding.Lifetime
import ViewBinding.Registry
import ViewBinding.Session.Step
import ViewBinding.Snapshot

/-!
# Session.State — registers, hooks and reports

The state of a scripted host: what its registers hold, the code behind hooks and host functions, and
the events that it has reported.
-/

namespace ViewBinding.Session

/-- What a step answers. -/
inductive Report where
  | nothing
  | flag (value : Bool)
  | count (n : Nat)
  | text (text : String)
  | value (value : Snapshot)
  | list (items : List Report)
  | record (fields : List (String × Report))
  /-- The expression of the step could not be read. -/
  | unreadable
deriving Inhabited

/-- How a step ended. -/
inductive Answer where
  | done (report : Report)
  | failed (cause : BindingError)
  /-- The step came to no end that can be reported. -/
  | broken
deriving Inhabited

/-- Something that a hook or a host function reports. -/
inductive Event where
  | called (function : String) (args : List Snapshot)
  | changed (tag : String) (new old : Snapshot)
  | records (tag : String) (records : List (String × ChangeKind × Snapshot))
  | spliced (tag : String) (index : Nat) (removed : List Snapshot) (added : Nat)
  | event (tag name : String)
  | handled (tag : String)
  | children (tag : String)
  | microtask (tag : String)
  | frame (tag : String)
  /-- A reaction took a step. -/
  | step (label : String) (answer : Answer)

/-- What a register holds. -/
inductive Held where
  | value (v : Value)
  | scope (scope : Scope)
  | observer (observer : Observer)
  | dispatcher (d : Ref .dispatcher)
  | subscription (s : Ref .subscription)
  | binding (b : Ref .binding)
  | element (e : Ref .element)
  | listener (token : Token)

/-- The things that a register keeps alive. -/
def Held.things : Held → List Thing
  | value v => v.things
  | scope s => s.things
  | observer o => o.things
  | dispatcher d => [d.thing]
  | subscription s => [s.thing]
  | binding b => [b.thing]
  | element e => [e.thing]
  | listener _ => []

/-- What a hook reports. -/
inductive HookKind where
  | changes
  | records
  | splices
  | events
  | handler
  | children
  | microtask
  | frame
deriving DecidableEq

/-- Code of the host that reacts to something. -/
structure Hook where
  kind : HookKind
  tag : String
  reaction : Reaction Step
  /-- How many times the reaction has been taken. -/
  taken : Nat := 0

/-- What the code behind a host function holds. -/
def Behaviour.things : Behaviour Step → List Thing
  | made values => values.flatMap Value.things
  | _ => []

/-- Code of the host that can be called. -/
structure HostFunction where
  behaviour : Behaviour Step
  calls : Nat := 0

/-- The state of a scripted host. -/
structure State where
  registers : List (String × Held) := []
  /-- What the running steps use or have been given, and what they have made for themselves. -/
  pinned : List Thing := []
  /-- The census at the time when a step was last begun or ended. -/
  census : List (Entity × Nat) := []
  hooks : Store .hook Hook := .empty
  functions : Store .function HostFunction := .empty
  /-- What has been reported, the latest first. -/
  events : List Event := []

instance : Inhabited State := ⟨{}⟩

/-- The things that a host holds. -/
def State.things (s : State) : List Thing :=
  s.pinned ++ s.registers.flatMap (·.2.things)
    ++ s.functions.holdings fun function => function.behaviour.things

/-- A computation of a scripted host. -/
abbrev Act (α : Type) : Type := Run State α

namespace Act

/-- Changes the state of the host. -/
def modifyHost (f : State → State) : Act Unit :=
  Run.modify fun w => { w with host := f w.host }

/-- Reports an event. -/
def emit (event : Event) : Act Unit :=
  modifyHost fun s => { s with events := event :: s.events }

/-- Puts something into a register. -/
def keep (register : String) (held : Held) : Act Unit :=
  modifyHost fun s => { s with registers := Entries.put register held s.registers }

/-- Puts something into a register if one is given. -/
def keepIn (register : Option String) (held : Held) : Act Unit :=
  match register with
  | some name => keep name held
  | none => pure ()

/-- Keeps things alive as long as the running step. -/
def pin (things : List Thing) : Act Unit :=
  modifyHost fun s => { s with pinned := things ++ s.pinned }

/-- Removes what neither a register nor a running step nor anything that lives holds. -/
def collect : Act Unit := Run.modify fun w => w.collect w.host.things

/-- What a register holds, which stays alive as long as the running step. -/
def held (register : String) : Act Held := do
  let held ← Run.ofOption (← Run.read fun w => Entries.get? register w.host.registers)
  pin held.things
  pure held

/-- The value in a register. -/
def value (register : String) : Act Value := do
  match ← held register with
  | .value v => pure v
  | _ => Run.cutOff

/-- The object in a register. -/
def object (register : String) : Act (Ref .object) := do
  match ← held register with
  | .value (.object o) => pure o
  | _ => Run.cutOff

/-- The array in a register. -/
def array (register : String) : Act (Ref .array) := do
  match ← held register with
  | .value (.array a) => pure a
  | _ => Run.cutOff

/-- The scope in a register. -/
def scope (register : String) : Act Scope := do
  match ← held register with
  | .scope s => pure s
  | _ => Run.cutOff

/-- The observer in a register. -/
def observer (register : String) : Act Observer := do
  match ← held register with
  | .observer o => pure o
  | _ => Run.cutOff

/-- The composite in a register. -/
def composite (register : String) : Act (Ref .composite) := do
  match ← observer register with
  | .composite c => pure c
  | _ => Run.cutOff

/-- The dispatcher in a register. -/
def dispatcher (register : String) : Act (Ref .dispatcher) := do
  match ← held register with
  | .dispatcher d => pure d
  | _ => Run.cutOff

/-- The subscription in a register. -/
def subscription (register : String) : Act (Ref .subscription) := do
  match ← held register with
  | .subscription s => pure s
  | _ => Run.cutOff

/-- The binding in a register. -/
def binding (register : String) : Act (Ref .binding) := do
  match ← held register with
  | .binding b => pure b
  | _ => Run.cutOff

/-- The element in a register. -/
def element (register : String) : Act (Ref .element) := do
  match ← held register with
  | .element e => pure e
  | _ => Run.cutOff

/-- The listener in a register. -/
def listener (register : String) : Act Token := do
  match ← held register with
  | .listener t => pure t
  | _ => Run.cutOff

/-- A snapshot of a value. -/
def snapshot (v : Value) : Act Snapshot := Run.read fun w => w.snapshot v

/-- A report of a value. -/
def report (v : Value) : Act Report := do pure (.value (← snapshot v))

/-- Does something with an expression, if it could be read. -/
def withExpr (expression : Option Expr) (f : Expr → Act Report) : Act Report :=
  match expression with
  | some e => f e
  | none => pure .unreadable

/-- Makes a hook. -/
def newHook (kind : HookKind) (tag : String) (reaction : Reaction Step) : Act (Ref .hook) :=
  Run.update fun w =>
    (w.host.hooks.next,
      { w with host := { w.host with hooks := w.host.hooks.alloc { kind, tag, reaction } } })

/-- Makes a host function. -/
def newFunction (behaviour : Behaviour Step) (name : String) : Act Value :=
  Run.update fun w =>
    (.function w.functions.next,
      { w with
        functions := w.functions.alloc name
        host := { w.host with functions := w.host.functions.alloc { behaviour } } })

end Act

/-- A list of texts as a report. -/
def Report.texts (texts : List String) : Report := .list (texts.map .text)

/-- A text or nothing as a report. -/
def Report.optionalText (text : Option String) : Report := (text.map Report.text).getD .nothing

end ViewBinding.Session
