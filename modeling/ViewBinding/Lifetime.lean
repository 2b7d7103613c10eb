import Std.Data.HashSet
import ViewBinding.Binding

/-!
# Lifetime — what is held and what is gone

A thing lives as long as something that lives holds it, or the host does.  Observers do not hold
what they watch, subscribers are not held by what they subscribed to, and caches hold observers but
not the objects these are for.  Things that hold each other in a circle live on.

A thing that is gone takes back what it registered elsewhere: a dispatcher and an observer of
contents stop to listen, and a path, a composite and a binding dispose their subscriptions.

`World.collect` removes what nothing holds, and what was held by that only, and so on.
-/

namespace ViewBinding

/-- A shared thing of any kind. -/
structure Thing where
  entity : Entity
  index : Nat
deriving DecidableEq, Repr

instance : Hashable Entity := ⟨fun e => hash e.ctorIdx⟩

instance : Hashable Thing := ⟨fun t => mixHash (hash t.entity) (hash t.index)⟩

/-- The thing that a reference names. -/
def Ref.thing {entity : Entity} (r : Ref entity) : Thing := ⟨entity, r.index⟩

/-! ### What things hold -/

/-- The thing that a value names.  Functions belong to the host. -/
def Value.things : Value → List Thing
  | .array a => [a.thing]
  | .object o => [o.thing]
  | _ => []

/-- The thing that a leaf names. -/
def Leaf.things : Leaf → List Thing
  | .setter r => [r.thing]
  | .property r => [r.thing]
  | .placeholder r => [r.thing]
  | .element r => [r.thing]
  | .select r => [r.thing]
  | .contents r => [r.thing]
  | .poll r => [r.thing]

/-- The thing that an observer names. -/
def Observer.things : Observer → List Thing
  | .leaf l => l.things
  | .path r => [r.thing]
  | .composite r => [r.thing]

/-- The things that an optional reference names. -/
def optionThings {entity : Entity} (r : Option (Ref entity)) : List Thing :=
  (r.map Ref.thing).toList

/-- What the result of connecting holds. -/
def ConnectInfo.things (info : ConnectInfo) : List Thing :=
  info.value.things ++ ((info.observer.map Observer.things).getD [])

/-- What a scope holds. -/
def Scope.things (scope : Scope) : List Thing :=
  scope.levels.flatMap fun level => level.locals.thing :: level.context.things

/-- What a slot holds. -/
def Slot.things : Slot → List Thing
  | .data v => v.things
  | .trap s => [s.thing]
  | .doubled v => v.things

/-- What an object holds. -/
def ObjectCell.things (cell : ObjectCell) : List Thing :=
  cell.properties.flatMap (·.2.things) ++ cell.pending.flatMap (·.old.things)

/-- What an array holds. -/
def ArrayCell.things (cell : ArrayCell) : List Thing := cell.items.toList.flatMap Value.things

/-- What an element holds. -/
def ElementCell.things (cell : ElementCell) : List Thing :=
  cell.properties.flatMap (·.2.things) ++ cell.children.map Ref.thing

/-- What a trapping observer holds. -/
def SetterCell.things (cell : SetterCell) : List Thing := cell.current.things ++ cell.old.things

/-- What a dispatcher holds. -/
def DispatcherCell.things (cell : DispatcherCell) : List Thing :=
  cell.observers.flatMap (·.2.things)

/-- What a placeholder holds. -/
def PlaceholderCell.things (cell : PlaceholderCell) : List Thing :=
  optionThings cell.actual ++ cell.parked.flatMap fun parked => optionThings parked.moved

/-- What an observer of an element property holds. -/
def ElementPropertyCell.things (cell : ElementPropertyCell) : List Thing :=
  cell.old.things ++ optionThings cell.handler

/-- What an observer of a select holds. -/
def SelectCell.things (cell : SelectCell) : List Thing :=
  cell.value.things ++ cell.old.things ++ optionThings cell.array ++ optionThings cell.handler

/-- What an observer of contents holds. -/
def ContentsCell.things (cell : ContentsCell) : List Thing :=
  (cell.pending ++ cell.last).flatMap fun splice => splice.removed.flatMap Value.things

/-- What a polling observer holds. -/
def PollCell.things (cell : PollCell) : List Thing := (cell.old.map Value.things).getD []

/-- What the resolver of a path holds. -/
def Resolver.things : Resolver → List Thing
  | .member _ _ => []
  | .element e _ => [e.thing]

/-- What a path holds. -/
def PathCell.things (cell : PathCell) : List Thing :=
  cell.left.things ++ cell.resolver.things ++ ((cell.right.map Leaf.things).getD [])
    ++ optionThings cell.leftSubscription ++ optionThings cell.rightSubscription
    ++ cell.value.things

/-- What a part of a composite holds. -/
def Part.things (part : Part) : List Thing :=
  ((part.info.map ConnectInfo.things).getD []) ++ optionThings part.subscription

/-- What a composite holds. -/
def CompositeCell.things (cell : CompositeCell) : List Thing :=
  cell.scope.things ++ cell.value.things ++ ((cell.primary.map ConnectInfo.things).getD [])
    ++ cell.parts.toList.flatMap Part.things

/-- What a subscription holds: the path or composite that it is with, until it is disposed. -/
def SubscriptionCell.things (cell : SubscriptionCell) : List Thing :=
  match cell.disposal with
  | some (.callback (.path r) _) => [r.thing]
  | some (.callback (.composite r) _) => [r.thing]
  | _ => []

/-- What a binding holds. -/
def BindingCell.things (cell : BindingCell) : List Thing :=
  cell.element.thing :: cell.targetObserver.things ++ ((cell.source.map Scope.things).getD [])
    ++ ((cell.sourceObserver.map Observer.things).getD [])
    ++ optionThings cell.sourceSubscription ++ optionThings cell.targetSubscription

/-- What the caches hold. -/
def Locator.things (l : Locator) : List Thing :=
  l.dispatchers.map (·.2.thing) ++ l.properties.flatMap (·.2.things)
    ++ l.elements.flatMap (·.2.things) ++ l.contents.map (·.2.thing)

/-- What the things in a store hold. -/
def Store.holdings {entity : Entity} {α : Type} (s : Store entity α) (things : α → List Thing) :
    List Thing :=
  s.cells.toList.flatMap fun cell => (cell.map things).getD []

/-- The things in a store. -/
def Store.things {entity : Entity} {α : Type} (s : Store entity α) : List Thing :=
  s.refs.map Ref.thing

namespace World

variable {η : Type}

/-- Everything that something in the world holds. -/
def holdings (w : World η) : List Thing :=
  w.objects.holdings ObjectCell.things ++ w.arrays.holdings ArrayCell.things
    ++ w.elements.holdings ElementCell.things ++ w.setters.holdings SetterCell.things
    ++ w.dispatchers.holdings DispatcherCell.things
    ++ w.placeholders.holdings PlaceholderCell.things
    ++ w.elementProperties.holdings ElementPropertyCell.things
    ++ w.selects.holdings SelectCell.things ++ w.contents.holdings ContentsCell.things
    ++ w.polls.holdings PollCell.things ++ w.paths.holdings PathCell.things
    ++ w.composites.holdings CompositeCell.things
    ++ w.subscriptions.holdings SubscriptionCell.things
    ++ w.bindings.holdings BindingCell.things
    ++ w.locator.things ++ w.connects.queue.map Ref.thing

/-- Everything that is there. -/
def things (w : World η) : List Thing :=
  w.objects.things ++ w.arrays.things ++ w.elements.things ++ w.setters.things
    ++ w.dispatchers.things ++ w.properties.things ++ w.placeholders.things
    ++ w.elementProperties.things ++ w.selects.things ++ w.contents.things ++ w.polls.things
    ++ w.paths.things ++ w.composites.things ++ w.subscriptions.things ++ w.bindings.things

/-- How many things of each kind have been made. -/
def census (w : World η) : List (Entity × Nat) :=
  [(.object, w.objects.size), (.array, w.arrays.size), (.element, w.elements.size),
    (.setter, w.setters.size), (.dispatcher, w.dispatchers.size), (.property, w.properties.size),
    (.placeholder, w.placeholders.size), (.elementProperty, w.elementProperties.size),
    (.select, w.selects.size), (.contents, w.contents.size), (.poll, w.polls.size),
    (.path, w.paths.size), (.composite, w.composites.size),
    (.subscription, w.subscriptions.size), (.binding, w.bindings.size)]

/-- The things that were made after a census. -/
def madeSince (w : World η) (before : List (Entity × Nat)) : List Thing :=
  (before.zip w.census).flatMap fun ((entity, n), (_, now)) =>
    (List.range (now - n)).map fun i => ⟨entity, n + i⟩

/-! ### Going -/

/-- A dispatcher goes. -/
def releaseDispatcher (w : World η) (d : Ref .dispatcher) : World η :=
  match w.dispatchers.get? d with
  | none => w
  | some cell =>
    let w := { w with dispatchers := w.dispatchers.erase d }
    match cell.listener with
    | some token => w.unlistenRecords cell.object token
    | none => w

/-- An observer of contents goes. -/
def releaseContents (w : World η) (c : Ref .contents) : World η :=
  match w.contents.get? c with
  | none => w
  | some cell =>
    let w := { w with contents := w.contents.erase c }
    match cell.listener with
    | some token => w.unlistenSplices cell.array token
    | none => w

/-- A path goes. -/
def releasePath (w : World η) (p : Ref .path) : World η :=
  match w.paths.get? p with
  | none => w
  | some cell =>
    let w := { w with paths := w.paths.erase p }
    (w.disposeOption cell.leftSubscription).disposeOption cell.rightSubscription

/-- A composite goes. -/
def releaseComposite (w : World η) (c : Ref .composite) : World η :=
  match w.composites.get? c with
  | none => w
  | some cell =>
    let w := { w with composites := w.composites.erase c }
    cell.parts.foldl (fun w part => w.disposeOption part.subscription) w

/-- A binding goes. -/
def releaseBinding (w : World η) (b : Ref .binding) : World η :=
  match w.bindings.get? b with
  | none => w
  | some cell =>
    let w := { w with bindings := w.bindings.erase b }
    (w.disposeOption cell.sourceSubscription).disposeOption cell.targetSubscription

/-- A thing goes. -/
def release (w : World η) (t : Thing) : World η :=
  match t.entity with
  | .object => { w with objects := w.objects.erase ⟨t.index⟩ }
  | .array => { w with arrays := w.arrays.erase ⟨t.index⟩ }
  | .element => { w with elements := w.elements.erase ⟨t.index⟩ }
  | .setter => { w with setters := w.setters.erase ⟨t.index⟩ }
  | .dispatcher => w.releaseDispatcher ⟨t.index⟩
  | .property => { w with properties := w.properties.erase ⟨t.index⟩ }
  | .placeholder => { w with placeholders := w.placeholders.erase ⟨t.index⟩ }
  | .elementProperty => { w with elementProperties := w.elementProperties.erase ⟨t.index⟩ }
  | .select => { w with selects := w.selects.erase ⟨t.index⟩ }
  | .contents => w.releaseContents ⟨t.index⟩
  | .poll => { w with polls := w.polls.erase ⟨t.index⟩ }
  | .path => w.releasePath ⟨t.index⟩
  | .composite => w.releaseComposite ⟨t.index⟩
  | .subscription => { w with subscriptions := w.subscriptions.erase ⟨t.index⟩ }
  | .binding => w.releaseBinding ⟨t.index⟩
  | .function => w
  | .hook => w

/-- Removes what nothing holds, in at most so many rounds. -/
def collectWithin (roots : List Thing) : Nat → World η → World η
  | 0, w => w
  | rounds + 1, w =>
    let held := Std.HashSet.ofList (roots ++ w.holdings)
    match w.things.filter fun t => !held.contains t with
    | [] => w
    | gone => collectWithin roots rounds (gone.foldl release w)

/-- Removes what neither the host nor anything that lives holds. -/
def collect (w : World η) (roots : List Thing) : World η :=
  collectWithin roots w.things.length w

end World

end ViewBinding
