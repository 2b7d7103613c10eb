import ViewBinding.Proofs.Heap
import ViewBinding.Tasks

/-!
# Leaf — the wiring of observed properties

A property of an object is watched by at most one leaf at a time, the one that the locator hands
out (`leafAt?`).  A subscription enrols a subscriber with that leaf, and the leaf's audience hears
of a change once the change is due.

* `w.place? l` is the property that a leaf watches.
* `w.audience l` are the registrations at a leaf, the oldest first.
* `w.voice? s` is the leaf and the token under which a subscription is registered.  A subscription
  with a placeholder moves on to the property's own observer when the property comes to be.
* `w.Enrolled s o n sub` says that `s` makes `sub` hear of changes of the property `n` of `o`.

`World.Wired` is the invariant that ties these together; it holds of a new world and every
operation on leaves keeps it.
-/

namespace ViewBinding

/-- The part of a world that watching properties leaves alone. -/
structure Backdrop (η : Type) where
  config : Config
  arrays : Store .array ArrayCell
  functions : Store .function String
  elements : Store .element ElementCell
  elementProperties : Store .elementProperty ElementPropertyCell
  selects : Store .select SelectCell
  contents : Store .contents ContentsCell
  paths : Store .path PathCell
  composites : Store .composite CompositeCell
  bindings : Store .binding BindingCell
  elementLeaves : List ((Ref .element × String) × Leaf)
  contentsLeaves : List (Ref .array × Ref .contents)
  microtasks : List Microtask
  flushing : Bool
  connects : ConnectQueue
  converters : List (String × Converter)
  attached : Bool
  host : η

namespace World

variable {η : Type} {w w' w'' : World η}

/-- The part of a world that watching properties leaves alone. -/
def backdrop (w : World η) : Backdrop η where
  config := w.config
  arrays := w.arrays
  functions := w.functions
  elements := w.elements
  elementProperties := w.elementProperties
  selects := w.selects
  contents := w.contents
  paths := w.paths
  composites := w.composites
  bindings := w.bindings
  elementLeaves := w.locator.elements
  contentsLeaves := w.locator.contents
  microtasks := w.tasks.microtasks
  flushing := w.tasks.flushing
  connects := w.connects
  converters := w.converters
  attached := w.attached
  host := w.host

/-! ### Places, audiences and voices -/

/-- The property that a leaf watches. -/
def place? (w : World η) : Leaf → Option (Ref .object × String)
  | .setter r => (w.setters.get? r).map fun c => (c.object, c.property)
  | .property r => (w.properties.get? r).map fun c => (c.object, c.property)
  | .placeholder r => (w.placeholders.get? r).map fun c => (c.object, c.property)
  | .poll r => (w.polls.get? r).map fun c => (c.object, c.property)
  | _ => none

/-- The property observer that took the place of a placeholder. -/
def successor? (w : World η) : Leaf → Option (Ref .property)
  | .placeholder r => (w.placeholders.get? r).bind (·.actual)
  | _ => none

/-- Whether the properties of an object are watched through its dispatcher. -/
def isDispatched (w : World η) (o : Ref .object) : Bool :=
  !w.isFrozen o && w.config.strategy = .changeRecords

/-- The leaf that the locator hands out for a property, once there is one. -/
def leafAt? (w : World η) (o : Ref .object) (n : String) : Option Leaf :=
  if w.isDispatched o then
    match Entries.get? o w.locator.dispatchers with
    | none => none
    | some d =>
      match w.dispatchers.get? d with
      | none => none
      | some c => Entries.get? n c.observers
  else Entries.get? (o, n) w.locator.properties

/-- The registrations at a leaf, the oldest first. -/
def audience (w : World η) : Leaf → List (Token × Subscriber)
  | .setter r => ((w.setters.get? r).map (·.callbacks.entries)).getD []
  | .property r => ((w.properties.get? r).map (·.callbacks.entries)).getD []
  | .placeholder r =>
    ((w.placeholders.get? r).map fun c => c.parked.map fun q => (q.token, q.subscriber)).getD []
  | .poll r => ((w.polls.get? r).map (·.callbacks.entries)).getD []
  | _ => []

/-- Where the registration with a token at a placeholder has moved. -/
def movedTo? (w : World η) (u : Ref .placeholder) (t : Token) : Option (Ref .subscription) :=
  match w.placeholders.get? u with
  | none => none
  | some c => (c.parked.find? (·.token = t)).bind (·.moved)

/-- A subscription that a placeholder made for one of its subscribers. -/
def IsMoved (w : World η) (s : Ref .subscription) : Prop := ∃ u t, w.movedTo? u t = some s

/-- The leaf and the token that a subscription was made with. -/
def directVoice? (w : World η) (s : Ref .subscription) : Option (Leaf × Token) :=
  match w.disposal? s with
  | some (.callback (.leaf l) t) => some (l, t)
  | _ => none

/-- The leaf and the token under which a registration is heard now. -/
def throughSuccessor? (w : World η) (l : Leaf) (t : Token) : Option (Leaf × Token) :=
  match l with
  | .placeholder u =>
    match w.successor? l with
    | none => some (l, t)
    | some _ =>
      match w.movedTo? u t with
      | none => none
      | some s => w.directVoice? s
  | l => some (l, t)

/-- The leaf and the token under which a subscription is registered now. -/
def voice? (w : World η) (s : Ref .subscription) : Option (Leaf × Token) :=
  match w.directVoice? s with
  | none => none
  | some (l, t) => w.throughSuccessor? l t

/-- A subscription makes a subscriber hear of changes of a property. -/
structure Enrolled (w : World η) (s : Ref .subscription) (o : Ref .object) (n : String)
    (sub : Subscriber) : Prop where
  own : ¬ w.IsMoved s
  heard : ∃ l t, w.voice? s = some (l, t) ∧ w.leafAt? o n = some l ∧ (t, sub) ∈ w.audience l

/-- Whether a leaf is of the kind by which the locator watches an object. -/
def Fits (w : World η) (o : Ref .object) : Leaf → Prop
  | .setter _ => w.isFrozen o = false ∧ w.config.strategy = .setter
  | .property _ | .placeholder _ => w.isDispatched o = true
  | .poll _ => w.isFrozen o = true
  | _ => False

/-! ### The invariant -/

/-- The locator and its leaves fit together. -/
structure Located (w : World η) : Prop where
  liveDispatchers : ∀ p ∈ w.locator.dispatchers, w.objects.contains p.1 = true
  liveProperties : ∀ p ∈ w.locator.properties, w.objects.contains p.1.1 = true
  liveElements : ∀ p ∈ w.locator.elements, w.elements.contains p.1.1 = true
  liveContents : ∀ p ∈ w.locator.contents, w.arrays.contains p.1 = true
  dispatcher : ∀ o d, Entries.get? o w.locator.dispatchers = some d →
    ∃ c, w.dispatchers.get? d = some c ∧ c.object = o
  found : ∀ d c, w.dispatchers.get? d = some c →
    Entries.get? c.object w.locator.dispatchers = some d ∧ Entries.Distinct c.observers
      ∧ w.isDispatched c.object = true
  current : ∀ o n l, w.leafAt? o n = some l →
    w.place? l = some (o, n) ∧ w.successor? l = none ∧ w.Fits o l
  unique : ∀ o n l, w.place? l = some (o, n) →
    w.leafAt? o n = some l ∨ ∃ r, w.successor? l = some r ∧ w.leafAt? o n = some (.property r)
  propertyHome : ∀ r c, w.properties.get? r = some c →
    Entries.get? c.object w.locator.dispatchers = some c.dispatcher
  placeholderHome : ∀ r c, w.placeholders.get? r = some c →
    Entries.get? c.object w.locator.dispatchers = some c.dispatcher

/-- Registrations and subscriptions fit together. -/
structure Registered (w : World η) : Prop where
  issued : ∀ s ob t, w.disposal? s = some (.callback ob t) → t.index < w.nextToken
  alone : ∀ s s' ob ob' t, w.disposal? s = some (.callback ob t) →
    w.disposal? s' = some (.callback ob' t) → s = s'
  sorted : ∀ l, (w.audience l).Pairwise (·.1.index < ·.1.index)
  heard : ∀ l t sub, (t, sub) ∈ w.audience l → t.index < w.nextToken
  unmoved : ∀ u t, w.successor? (.placeholder u) = none → w.movedTo? u t = none
  moved : ∀ u t s, w.movedTo? u t = some s → (w.subscriptions.get? s).isSome = true
  movedKind : ∀ u t s d, w.movedTo? u t = some s → w.disposal? s = some d →
    ∃ r t', d = .callback (.leaf (.property r)) t'
  movedAlone : ∀ u u' t t' s, w.movedTo? u t = some s → w.movedTo? u' t' = some s →
    u = u' ∧ t = t'
  voiced : ∀ o n l t sub, w.leafAt? o n = some l → (t, sub) ∈ w.audience l →
    ∃ s, ¬ w.IsMoved s ∧ w.voice? s = some (l, t)

/-- Changes of what is heard are recorded, and what is recorded is queued. -/
structure Attentive (w : World η) : Prop where
  listener : ∀ o c t l, w.objects.get? o = some c → (t, l) ∈ c.listeners.entries →
    ∃ d dc, l = .dispatcher d ∧ w.dispatchers.get? d = some dc ∧ dc.object = o
      ∧ dc.listener = some t
  listens : ∀ d dc t, w.dispatchers.get? d = some dc → dc.listener = some t →
    ∃ c, w.objects.get? dc.object = some c ∧ c.listeners.entries = [(t, .dispatcher d)]
  hearing : ∀ o n l, w.leafAt? o n = some l → w.audience l ≠ [] → w.isDispatched o = true →
    ∃ d dc, w.dispatchers.get? d = some dc ∧ dc.object = o ∧ dc.listener ≠ none
  trapping : ∀ r c, w.setters.get? r = some c → c.callbacks.entries ≠ [] → c.observing = true
  willing : ∀ r c, w.setters.get? r = some c → c.refused = false
  trap : ∀ o n r, w.slot? o n = some (.trap r) ↔
    ∃ c, w.setters.get? r = some c ∧ c.object = o ∧ c.property = n ∧ c.observing = true
  scheduled : ∀ o c, w.objects.get? o = some c →
    (c.scheduled = true ↔ .deliver o ∈ w.tasks.microtasks)
  pending : ∀ o c, w.objects.get? o = some c → c.pending ≠ [] →
    c.scheduled = true ∧ c.listeners.entries ≠ []
  queued : ∀ r c, w.setters.get? r = some c → (c.queued = true ↔ .setter r ∈ w.tasks.microtasks)
  tasks : w.tasks.microtasks.Nodup
  known : ∀ task ∈ w.tasks.microtasks, (∃ o, task = .deliver o ∧ w.objects.contains o = true)
    ∨ ∃ r c, task = .setter r ∧ w.setters.get? r = some c

/-- The wiring of a world's observed properties. -/
structure Wired (w : World η) : Prop extends Located w, Registered w, Attentive w

end World

end ViewBinding
