import ViewBinding.Observer.Leaf

/-!
# Locator — which observer watches what

The locator decides how something is watched and hands out the same observer every time the same
thing is asked for:

* a property of a frozen object is polled;
* a property of another object is watched through the object's dispatcher, or trapped;
* the value of a select has an observer of its own, any other element property another;
* the contents of an array are watched through its splices;
* nothing else can be observed.

The caches do not keep objects alive.  Entries whose object is gone are pruned on request, and
whenever a lookup makes the caches twice as large as the last such pruning left them.
-/

namespace ViewBinding

namespace World

variable {η : Type}

/-- The least size at which the caches are pruned by themselves. -/
def pruneFloor : Nat := 256

/-- How many observers and dispatchers are cached. -/
def cachedCount (w : World η) : Nat :=
  w.locator.dispatchers.length + w.locator.properties.length + w.locator.elements.length
    + w.locator.contents.length

/-- Drops the cache entries whose object is gone. -/
def dropStale (w : World η) : World η :=
  { w with
    locator := { w.locator with
      dispatchers := w.locator.dispatchers.filter fun (o, _) => w.objects.contains o
      properties := w.locator.properties.filter fun ((o, _), _) => w.objects.contains o
      elements := w.locator.elements.filter fun ((e, _), _) => w.elements.contains e
      contents := w.locator.contents.filter fun (a, _) => w.arrays.contains a } }

/-- Drops the cache entries whose object is gone, and tells how many there were. -/
def prune (w : World η) : Nat × World η :=
  let after := w.dropStale
  (w.cachedCount - after.cachedCount, after)

/-- Prunes the caches if a lookup that made something new has made them large enough. -/
def afterCreation (w : World η) : World η :=
  if w.cachedCount < w.locator.pruneAt then w
  else
    let w := w.dropStale
    { w with locator := { w.locator with pruneAt := max (w.cachedCount * 2) pruneFloor } }

/-- The dispatcher of an object. -/
def objectDispatcher (w : World η) (o : Ref .object) : Ref .dispatcher × World η :=
  match Entries.get? o w.locator.dispatchers with
  | some d => (d, w)
  | none =>
    let (d, w) := w.newDispatcher o
    (d, { w with
      locator := { w.locator with
        dispatchers := Entries.put o d w.locator.dispatchers } }.afterCreation)

/-- The cached observer of a property, made by `make` at the first request. -/
def cachedProperty (w : World η) (o : Ref .object) (property : String)
    (make : World η → Leaf × World η) : Leaf × World η :=
  match Entries.get? (o, property) w.locator.properties with
  | some leaf => (leaf, w)
  | none =>
    let (leaf, w) := make w
    (leaf, { w with
      locator := { w.locator with
        properties := Entries.put (o, property) leaf w.locator.properties } }.afterCreation)

/-- The observer of a property of an object. -/
def objectObserver (w : World η) (o : Ref .object) (property : String) : Leaf × World η :=
  if w.isFrozen o then
    w.cachedProperty o property fun w =>
      let (r, w) := w.newPoll o property
      (.poll r, w)
  else
    match w.config.strategy with
    | .changeRecords =>
      let (d, w) := w.objectDispatcher o
      w.dispatcherObserver d property
    | .setter =>
      w.cachedProperty o property fun w =>
        let (r, w) := w.newSetter o property
        (.setter r, w)

/-- The observer of a property of a value, if the value is an object. -/
def propertyObserver (w : World η) (v : Value) (property : String) : Option Leaf × World η :=
  match v with
  | .object o =>
    let (leaf, w) := w.objectObserver o property
    (some leaf, w)
  | _ => (none, w)

/-- Makes the observer of a property of an element. -/
def makeElementObserver (w : World η) (e : Ref .element) (property : String) : Leaf × World η :=
  if w.isSelect e && property == "value" then
    let (r, w) := w.newSelect e
    (.select r, w)
  else
    let (r, w) := w.newElementProperty e property (w.config.isObservable property)
    (.element r, w)

/-- The observer of a property of an element. -/
def elementObserver (w : World η) (e : Ref .element) (property : String) : Leaf × World η :=
  match Entries.get? (e, property) w.locator.elements with
  | some leaf => (leaf, w)
  | none =>
    let (leaf, w) := w.makeElementObserver e property
    (leaf, { w with
      locator := { w.locator with
        elements := Entries.put (e, property) leaf w.locator.elements } }.afterCreation)

/-- The observer of the contents of an array. -/
def contentsObserver (w : World η) (a : Ref .array) : Ref .contents × World η :=
  match Entries.get? a w.locator.contents with
  | some c => (c, w)
  | none =>
    let (c, w) := w.newContents a
    (c, { w with
      locator := { w.locator with
        contents := Entries.put a c w.locator.contents } }.afterCreation)

/-- Whether a provider is still there. -/
def provides (w : World η) : Provider → Bool
  | .engine => true
  | .binding b => w.bindings.contains b
  | .detachable => w.attached

/-- The observer of a member that a path resolves for the value of its object. -/
def resolveMember (w : World η) (resolver : Resolver) (v : Value) : Option Leaf × World η :=
  match resolver with
  | .member provider name => if w.provides provider then w.propertyObserver v name else (none, w)
  | .element e name =>
    match v with
    | .object _ =>
      let (leaf, w) := w.elementObserver e name
      (some leaf, w)
    | _ => (none, w)

end World

end ViewBinding
