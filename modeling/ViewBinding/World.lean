import ViewBinding.Config
import ViewBinding.Mode
import ViewBinding.Observer

/-!
# World — the state of an engine

A `World` is everything that lives: objects, arrays, elements, observers, bindings, and the queues
of work that waits.  It is a value of plain data.  The type `η` is the state of the host, which this
library carries along and never looks into.

A cell is what a reference names.  Fields that refer to other things by `Ref` do not keep them
alive; see `ViewBinding.Lifetime` for what does.
-/

namespace ViewBinding

/-! ### Objects and arrays -/

/-- What a property of an object holds. -/
inductive Slot where
  | data (value : Value)
  /-- The value is kept by an observer, which is told about writes. -/
  | trap (setter : Ref .setter)
  /-- Writing stores twice the number written. -/
  | doubled (stored : Value)
deriving DecidableEq

/-- What happened to a property. -/
inductive ChangeKind where
  | add
  | update
  | delete
deriving DecidableEq, Repr

/-- One change of a property. -/
structure ChangeRecord where
  name : String
  kind : ChangeKind
  old : Value
deriving DecidableEq

/-- An object: properties in the order of their making. -/
structure ObjectCell where
  properties : List (String × Slot) := []
  frozen : Bool := false
  listeners : Listeners RecordListener := .empty
  /-- Changes not yet delivered, oldest first. -/
  pending : List ChangeRecord := []
  /-- A delivery is queued. -/
  scheduled : Bool := false

/-- One change of an array: `removed` were taken out at `index` and `added` items put there. -/
structure Splice where
  index : Nat
  removed : List Value
  added : Nat
deriving DecidableEq

/-- An array. -/
structure ArrayCell where
  items : Array Value
  listeners : Listeners SpliceListener := .empty

/-! ### Elements -/

/-- An element of the view. -/
structure ElementCell where
  tag : String
  svg : Bool
  properties : List (String × Value) := []
  /-- Texts by namespace and name. -/
  attributes : List ((Option String × String) × String) := []
  css : String := ""
  children : List (Ref .element) := []
  eventListeners : Listeners (String × EventListener) := .empty
  childListeners : Listeners ChildListener := .empty

/-! ### Observers -/

/-- An observer that traps writes to a property. -/
structure SetterCell where
  object : Ref .object
  property : String
  callbacks : Listeners Subscriber := .empty
  /-- The trap is installed. -/
  observing : Bool := false
  /-- The object refused the trap. -/
  refused : Bool := false
  /-- A notification is queued. -/
  queued : Bool := false
  current : Value := .undefined
  /-- The value that the next notification calls old. -/
  old : Value := .undefined

/-- The dispatcher of an object's change records. -/
structure DispatcherCell where
  object : Ref .object
  /-- The observers handed out, by property: property observers and placeholders. -/
  observers : List (String × Leaf) := []
  /-- The registration with the object. -/
  listener : Option Token := none

/-- An observer of a property that its object has. -/
structure PropertyCell where
  dispatcher : Ref .dispatcher
  object : Ref .object
  property : String
  callbacks : Listeners Subscriber := .empty

/-- A subscriber that waits for a property. -/
structure Parked where
  token : Token
  subscriber : Subscriber
  /-- The subscription with the real observer, once there is one. -/
  moved : Option (Ref .subscription) := none

/-- An observer of a property that its object does not have yet. -/
structure PlaceholderCell where
  dispatcher : Ref .dispatcher
  object : Ref .object
  property : String
  /-- The real observer, once the property exists. -/
  actual : Option (Ref .property) := none
  parked : List Parked := []

/-- How the value of an element property is read and written. -/
inductive Access where
  /-- An attribute in the namespace of links. -/
  | link (name : String)
  /-- A plain attribute. -/
  | attribute
  /-- The text of the inline style. -/
  | style
  /-- A property of the element. -/
  | property
deriving DecidableEq, Repr

/-- An observer of an element property. -/
structure ElementPropertyCell where
  element : Ref .element
  property : String
  access : Access
  /-- Element events tell about changes. -/
  handled : Bool
  callbacks : Listeners Subscriber := .empty
  old : Value := .undefined
  handler : Option (Ref .subscription) := none

/-- An observer of the value of a select element. -/
structure SelectCell where
  element : Ref .element
  callbacks : Listeners Subscriber := .empty
  value : Value := .undefined
  old : Value := .undefined
  /-- The subscription with the contents of the array that is the value. -/
  array : Option (Ref .subscription) := none
  handler : Option (Ref .subscription) := none
  childList : Option Token := none

/-- An observer of the contents of an array. -/
structure ContentsCell where
  array : Ref .array
  callbacks : Listeners Subscriber := .empty
  listener : Option Token := none
  /-- A notification is queued. -/
  queued : Bool := false
  /-- Changes not yet notified, oldest first. -/
  pending : List Splice := []
  /-- The changes that the last notification was about. -/
  last : List Splice := []

/-- An observer that polls a property. -/
structure PollCell where
  object : Ref .object
  property : String
  callbacks : Listeners Subscriber := .empty
  /-- The value at the last look; nothing while nobody is subscribed. -/
  old : Option Value := none

/-- An observer of a member of a changing object. -/
structure PathCell where
  left : Observer
  resolver : Resolver
  callbacks : Listeners Subscriber := .empty
  right : Option Leaf
  leftSubscription : Option (Ref .subscription) := none
  rightSubscription : Option (Ref .subscription) := none
  /-- The value that the next notification calls old. -/
  value : Value

/-- A part of a composite. -/
structure Part where
  expression : Expr
  condition : Condition
  /-- What connecting gave, once the part was connected. -/
  info : Option ConnectInfo
  subscription : Option (Ref .subscription) := none

/-- An observer of an expression with several observed parts. -/
structure CompositeCell where
  expression : Expr
  scope : Scope
  provider : Provider
  callbacks : Listeners Subscriber := .empty
  value : Value
  /-- The part whose value the conditions of the others are about. -/
  primary : Option ConnectInfo := none
  parts : Array Part := #[]
  /-- A change of a part is being handled. -/
  calling : Bool := false
  /-- Another change was reported meanwhile. -/
  rerun : Bool := false

/-- A subscription: what it takes back, until it is disposed. -/
structure SubscriptionCell where
  disposal : Option Disposal

/-! ### Bindings -/

/-- A binding of an expression to an element property. -/
structure BindingCell where
  expression : Expr
  element : Ref .element
  property : String
  mode : Mode
  targetObserver : Leaf
  /-- The scope that the binding is bound to. -/
  source : Option Scope := none
  sourceObserver : Option Observer := none
  sourceSubscription : Option (Ref .subscription) := none
  targetSubscription : Option (Ref .subscription) := none

/-! ### Work that waits -/

/-- Work for the next flush. -/
inductive Microtask where
  /-- Deliver the change records of an object. -/
  | deliver (object : Ref .object)
  /-- Notify the subscribers of a trapped property. -/
  | setter (setter : Ref .setter)
  /-- Notify the subscribers of the contents of an array. -/
  | contents (contents : Ref .contents)
  | hook (hook : Ref .hook)
deriving DecidableEq, Repr

/-- Work for the next animation frame. -/
inductive FrameTask where
  /-- Poll the tracked properties. -/
  | poll
  /-- Connect queued bindings. -/
  | connects
  | hook (hook : Ref .hook)
deriving DecidableEq, Repr

/-- Work that waits, each kind in the order of its queueing. -/
structure TaskQueue where
  microtasks : List Microtask := []
  frames : List FrameTask := []
  /-- A flush is running. -/
  flushing : Bool := false

/-- Bindings that wait to be connected. -/
structure ConnectQueue where
  /-- How many connects of a cycle run at once. -/
  threshold : Nat
  /-- How many connects of this cycle have run at once. -/
  immediate : Nat := 0
  /-- The bindings that wait, in the order of their queueing. -/
  queue : List (Ref .binding) := []
  /-- The bindings in `queue`. -/
  queued : List (Ref .binding) := []
  /-- A flush is requested for a frame. -/
  requested : Bool := false

/-- The observers handed out so far. -/
structure Locator where
  dispatchers : List (Ref .object × Ref .dispatcher) := []
  properties : List ((Ref .object × String) × Leaf) := []
  elements : List ((Ref .element × String) × Leaf) := []
  contents : List (Ref .array × Ref .contents) := []
  /-- The size at which the caches are pruned next. -/
  pruneAt : Nat := 256

/-- The properties that are polled. -/
structure Polling where
  tracked : List (Ref .poll) := []
  /-- A frame is requested. -/
  scheduled : Bool := false

/-- A converter of values, known to its host by a key. -/
structure Converter where
  key : String
deriving DecidableEq, Repr

/-- The state of an engine and everything around it, with the host's own state. -/
structure World (η : Type) where
  config : Config
  objects : Store .object ObjectCell := .empty
  arrays : Store .array ArrayCell := .empty
  /-- The names of the host functions. -/
  functions : Store .function String := .empty
  elements : Store .element ElementCell := .empty
  setters : Store .setter SetterCell := .empty
  dispatchers : Store .dispatcher DispatcherCell := .empty
  properties : Store .property PropertyCell := .empty
  placeholders : Store .placeholder PlaceholderCell := .empty
  elementProperties : Store .elementProperty ElementPropertyCell := .empty
  selects : Store .select SelectCell := .empty
  contents : Store .contents ContentsCell := .empty
  polls : Store .poll PollCell := .empty
  paths : Store .path PathCell := .empty
  composites : Store .composite CompositeCell := .empty
  subscriptions : Store .subscription SubscriptionCell := .empty
  bindings : Store .binding BindingCell := .empty
  tasks : TaskQueue := {}
  connects : ConnectQueue
  locator : Locator := {}
  polling : Polling := {}
  /-- The registered converters, in the order of their first registration. -/
  converters : List (String × Converter) := []
  /-- The detachable provider is there. -/
  attached : Bool := true
  nextToken : Nat := 0
  host : η

namespace World

variable {η : Type}

/-- The world of a new engine. -/
def new (config : Config) (host : η) : World η :=
  { config, connects := { threshold := config.threshold }, host }

/-- A token that no registration has. -/
def freshToken (w : World η) : Token × World η :=
  (⟨w.nextToken⟩, { w with nextToken := w.nextToken + 1 })

/-- Queues work for the next flush. -/
def queueMicrotask (w : World η) (task : Microtask) : World η :=
  { w with tasks := { w.tasks with microtasks := w.tasks.microtasks ++ [task] } }

/-- Requests work for the next frame. -/
def requestFrame (w : World η) (task : FrameTask) : World η :=
  { w with tasks := { w.tasks with frames := w.tasks.frames ++ [task] } }

/-! ### Changing one thing -/

/-- Changes an object. -/
def modifyObject (w : World η) (r : Ref .object) (f : ObjectCell → ObjectCell) : World η :=
  { w with objects := w.objects.modify r f }

/-- Changes an array. -/
def modifyArray (w : World η) (r : Ref .array) (f : ArrayCell → ArrayCell) : World η :=
  { w with arrays := w.arrays.modify r f }

/-- Changes an element. -/
def modifyElement (w : World η) (r : Ref .element) (f : ElementCell → ElementCell) : World η :=
  { w with elements := w.elements.modify r f }

/-- Changes a trapping observer. -/
def modifySetter (w : World η) (r : Ref .setter) (f : SetterCell → SetterCell) : World η :=
  { w with setters := w.setters.modify r f }

/-- Changes a dispatcher. -/
def modifyDispatcher (w : World η) (r : Ref .dispatcher)
    (f : DispatcherCell → DispatcherCell) : World η :=
  { w with dispatchers := w.dispatchers.modify r f }

/-- Changes a property observer. -/
def modifyProperty (w : World η) (r : Ref .property) (f : PropertyCell → PropertyCell) : World η :=
  { w with properties := w.properties.modify r f }

/-- Changes a placeholder. -/
def modifyPlaceholder (w : World η) (r : Ref .placeholder)
    (f : PlaceholderCell → PlaceholderCell) : World η :=
  { w with placeholders := w.placeholders.modify r f }

/-- Changes an observer of an element property. -/
def modifyElementProperty (w : World η) (r : Ref .elementProperty)
    (f : ElementPropertyCell → ElementPropertyCell) : World η :=
  { w with elementProperties := w.elementProperties.modify r f }

/-- Changes an observer of a select element. -/
def modifySelect (w : World η) (r : Ref .select) (f : SelectCell → SelectCell) : World η :=
  { w with selects := w.selects.modify r f }

/-- Changes an observer of the contents of an array. -/
def modifyContents (w : World η) (r : Ref .contents) (f : ContentsCell → ContentsCell) : World η :=
  { w with contents := w.contents.modify r f }

/-- Changes a polling observer. -/
def modifyPoll (w : World η) (r : Ref .poll) (f : PollCell → PollCell) : World η :=
  { w with polls := w.polls.modify r f }

/-- Changes a path. -/
def modifyPath (w : World η) (r : Ref .path) (f : PathCell → PathCell) : World η :=
  { w with paths := w.paths.modify r f }

/-- Changes a composite. -/
def modifyComposite (w : World η) (r : Ref .composite)
    (f : CompositeCell → CompositeCell) : World η :=
  { w with composites := w.composites.modify r f }

/-- Changes a subscription. -/
def modifySubscription (w : World η) (r : Ref .subscription)
    (f : SubscriptionCell → SubscriptionCell) : World η :=
  { w with subscriptions := w.subscriptions.modify r f }

/-- Changes a binding. -/
def modifyBinding (w : World η) (r : Ref .binding) (f : BindingCell → BindingCell) : World η :=
  { w with bindings := w.bindings.modify r f }

end World

end ViewBinding
