import ViewBinding.Mode
import ViewBinding.Run

/-!
# Session.Step — what a host can do with an engine

A session is a list of steps that a host takes one after the other.  Steps refer to what earlier
steps made by the names of registers.  Some steps leave a reaction behind: steps that are taken when
something happens.

The steps are grouped by what they are about.  The groups are families over the type `σ` of steps,
so that reactions, and functions inside values, can hold steps again.
-/

namespace ViewBinding.Session

/-- Steps to take when something happens. -/
structure Reaction (σ : Type) where
  steps : List σ
  /-- How many times the steps are taken at most. -/
  times : Option Nat

/-- What a host function does. -/
inductive Behaviour (σ : Type) where
  /-- adds its arguments as numbers -/
  | sum
  /-- joins the texts of its arguments -/
  | join
  /-- gives what it is called on -/
  | receiver
  /-- gives its first argument -/
  | first
  /-- gives its arguments as an array -/
  | collect
  /-- gives the property that its argument names -/
  | read
  /-- sets the property that its first argument names -/
  | write
  /-- fails with the text of its argument -/
  | fail
  /-- reports its arguments -/
  | log
  /-- counts its calls -/
  | count
  /-- fails at every second call -/
  | flaky
  /-- makes a function that joins these arguments and its own -/
  | make
  /-- joins the texts of these values and its arguments -/
  | made (values : List Value)
  /-- takes steps -/
  | script (reaction : Reaction σ)

/-- A value as a step describes it. -/
inductive Literal (σ : Type) where
  | undefined
  | null
  | bool (value : Bool)
  | number (value : Float)
  | string (value : String)
  /-- A new array. -/
  | array (items : List (Literal σ))
  /-- A new object. -/
  | object (entries : List (String × Literal σ))
  /-- A new host function. -/
  | function (behaviour : Behaviour σ) (name : String)
  /-- The value in a register. -/
  | register (name : String)
  /-- A value inside so many arrays of one item. -/
  | nested (depth : Nat) (value : Literal σ)
  /-- A text written so many times. -/
  | repeated (text : String) (count : Nat)

/-- Steps about registers. -/
inductive RegisterAction (σ : Type) where
  | keep (register : String) (value : Literal σ)
  | discard (register : String)
  | show (value : Literal σ)
  | compare (left right : Literal σ)

/-- Steps about an object. -/
inductive ObjectAction (σ : Type) where
  | get (name : String) (register : Option String)
  | set (name : String) (value : Literal σ)
  | remove (name : String)
  | has (name : String)
  | names
  | size
  | freeze
  | isFrozen
  /-- Puts an accessor in place of a property that stores twice what is written. -/
  | double (name : String)
  | listen (tag : String) (register : Option String) (reaction : Reaction σ)
  | unlisten (listener : String)
  | deliver

/-- Steps about an array. -/
inductive ArrayAction (σ : Type) where
  | get (index : Nat)
  | set (index : Nat) (value : Literal σ)
  | push (value : Literal σ)
  | splice (index count : Nat) (items : List (Literal σ))
  | replace (items : List (Literal σ))
  | clear
  | find (value : Literal σ)
  | size
  | listen (tag : String) (register : Option String) (reaction : Reaction σ)
  | unlisten (listener : String)

/-- Steps about a scope.  An expression that cannot be read is `none`. -/
inductive ScopeAction (σ : Type) where
  | create (register : Option String) (context : Literal σ) (parent : Option String)
  | setLocal (scope name : String) (value : Literal σ)
  | owner (scope name : String) (register : Option String)
  | read (scope name : String)
  | levels (scope : String)
  | eval (scope : String) (expression : Option Expr) (register : Option String)
  | assign (scope : String) (expression : Option Expr) (value : Literal σ)
  | connect (scope : String) (expression : Option Expr) (register : Option String)

/-- Steps about the queue of tasks. -/
inductive TaskAction (σ : Type) where
  | flush
  | frame
  | pending
  | microtask (tag : String) (reaction : Reaction σ)
  | requestFrame (tag : String) (reaction : Reaction σ)
  | show

/-- What a select can be told to do. -/
inductive SelectOrder where
  | options
  | value
  | bind
  | unbind

/-- Steps that get hold of observers. -/
inductive WatchAction (σ : Type) where
  | property (value : Literal σ) (name : String) (register : Option String)
  | element (element name : String) (register : Option String)
  | contents (array : String) (register : Option String)
  | setter (object name : String) (register : Option String)
  | dispatcher (object : String) (register : Option String)
  | newDispatcher (object : String) (register : Option String)
  | dispatched (dispatcher name : String) (register : Option String)
  | isObserving (dispatcher : String)
  | path (left name : String) (element : Option String) (register : Option String)
  | composite (scope : String) (expression : Option Expr) (register : Option String)
  | addPrimary (composite : String) (expression : Option Expr) (register : Option String)
  | addPart (composite : String) (expression : Option Expr) (condition : Condition)
      (register : Option String)
  | reconnect (composite : String) (on : Bool)
  | detach

/-- Steps about an observer or a subscription. -/
inductive ObserverAction (σ : Type) where
  | get (observer : String)
  | set (observer : String) (value : Literal σ)
  | compare (left right : String)
  | call (observer : String)
  | order (observer : String) (order : SelectOrder)
  | subscribe (observer tag : String) (register : Option String) (reaction : Reaction σ)
  | dispose (subscription : String)
  | isDisposed (subscription : String)
  | emptySubscription (register : Option String)
  | inspect (observer : String)
  | show (observer : String)
  | showSubscription (subscription : String)

/-- Steps about the engine. -/
inductive EngineAction where
  | trackedCount
  | poll
  | cachedCount
  | prune
  | config
  | queueSize
  | threshold
  | setThreshold (threshold : Nat)
  | enableQueue
  | disableQueue

/-- Steps about an element. -/
inductive ElementAction (σ : Type) where
  | create (register : Option String) (tag : String) (svg : Bool)
  | createOption (register : Option String) (value : String) (model : Option (Literal σ))
  | describe (element : String)
  | get (element name : String)
  | set (element name : String) (value : Literal σ)
  | has (element name : String)
  | getAttribute (element name : String) (space : Option String)
  | setAttribute (element name : String) (value : Literal σ) (space : Option String)
  | removeAttribute (element name : String) (space : Option String)
  | css (element : String)
  | setCss (element : String) (value : Literal σ)
  | append (element child : String)
  | remove (element child : String)
  | pick (element : String) (index : Nat) (selected : Bool)
  | options (element : String)
  | dispatch (element event : String)
  | listen (element event tag : String) (register : Option String) (reaction : Reaction σ)
  | unlisten (element listener : String)
  | handle (element : String) (events : List String) (tag : String) (register : Option String)
      (reaction : Reaction σ)
  | listenChildren (element tag : String) (register : Option String) (reaction : Reaction σ)
  | unlistenChildren (element listener : String)

/-- Steps about bindings. -/
inductive BindingAction (σ : Type) where
  | create (register : Option String) (element property : String) (expression : Option Expr)
      (mode : Mode)
  | bind (binding scope : String)
  | unbind (binding : String)
  | isBound (binding : String)
  | connect (binding : String) (evaluate : Bool)
  | updateTarget (binding : String) (value : Literal σ)
  | updateSource (binding : String) (value : Literal σ)
  | target (binding : String) (register : Option String)
  /-- Makes and binds many bindings, each with an element of its own. -/
  | createMany (stem : String) (count : Nat) (property : String) (expression : Option Expr)
      (mode : Mode) (scope : String)
  /-- The target properties of such bindings. -/
  | targets (stem : String) (count : Nat) (property : String)

/-- Steps about converters. -/
inductive ConverterAction (σ : Type) where
  | register (name : String) (converter : Converter)
  | registerByConvention (typeName : String) (converter : Converter)
  | names
  | convert (name : String) (value : Literal σ) (args : List (Literal σ)) (direction : Direction)

/-- What a step does. -/
inductive Action (σ : Type) where
  | register (action : RegisterAction σ)
  | object (object : String) (action : ObjectAction σ)
  | array (array : String) (action : ArrayAction σ)
  | scope (action : ScopeAction σ)
  | task (action : TaskAction σ)
  | watch (action : WatchAction σ)
  | observer (action : ObserverAction σ)
  | engine (action : EngineAction)
  | element (action : ElementAction σ)
  | binding (action : BindingAction σ)
  | converter (action : ConverterAction σ)

/-- A step, with the label under which its answer is reported when a reaction takes it. -/
inductive Step where
  | mk (label : String) (action : Action Step)

/-- The label of a step. -/
def Step.label : Step → String
  | mk label _ => label

/-- What a step does. -/
def Step.action : Step → Action Step
  | mk _ action => action

end ViewBinding.Session
