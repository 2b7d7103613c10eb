import ViewBinding.Locator

/-!
# Observer.Subscribe — subscribing to a leaf

Subscribing registers a subscriber and makes the leaf start watching if it has not yet: a trap is
installed, a dispatcher listens for change records, element events are handled, an array's splices
are collected, a property is polled.

A placeholder parks its subscribers until the property exists, and then moves them to the property's
observer.
-/

namespace ViewBinding

namespace World

variable {η : Type}

/-- Makes the subscription that ends a registration with an observer. -/
def callbackSubscription (w : World η) (observer : Observer) (token : Token) :
    Ref .subscription × World η :=
  w.newSubscription (some (.callback observer token))

/-! ### Traps -/

/-- Puts a trap in place of the property of a trapping observer, unless the object is gone. -/
def installTrap (w : World η) (s : Ref .setter) : World η :=
  match w.setters.get? s with
  | none => w
  | some cell =>
    if w.objects.contains cell.object then
      let current := w.get cell.object cell.property
      let (installed, w) := w.defineSlot cell.object cell.property (.trap s)
      w.modifySetter s fun cell =>
        { cell with
          current, observing := installed || cell.observing, refused := !installed || cell.refused }
    else w

/-- Subscribes to a trapped property. -/
def subscribeSetter (w : World η) (s : Ref .setter) (subscriber : Subscriber) :
    Ref .subscription × World η :=
  let (token, w) := w.freshToken
  let w := w.modifySetter s fun cell =>
    { cell with callbacks := cell.callbacks.add token subscriber }
  let w :=
    match w.setters.get? s with
    | some cell => if cell.observing || cell.refused then w else w.installTrap s
    | none => w
  w.callbackSubscription (.leaf (.setter s)) token

/-! ### Change records -/

/-- Makes a dispatcher listen to its object, unless it does or the object is gone. -/
def startObserving (w : World η) (d : Ref .dispatcher) : World η :=
  match w.dispatchers.get? d with
  | none => w
  | some cell =>
    if cell.listener.isSome || !w.objects.contains cell.object then w
    else
      let (token, w) := w.listenRecords cell.object (.dispatcher d)
      w.modifyDispatcher d fun cell => { cell with listener := some token }

/-- Subscribes to a property through its dispatcher. -/
def subscribeProperty (w : World η) (p : Ref .property) (subscriber : Subscriber) :
    Ref .subscription × World η :=
  let (token, w) := w.freshToken
  let w := w.modifyProperty p fun cell =>
    { cell with callbacks := cell.callbacks.add token subscriber }
  let w :=
    match w.properties.get? p with
    | some cell => w.startObserving cell.dispatcher
    | none => w
  w.callbackSubscription (.leaf (.property p)) token

/-- Moves one parked subscriber to the observer of the property. -/
def moveParked (p : Ref .property) (u : Ref .placeholder) (w : World η) (parked : Parked) :
    World η :=
  let (s, w) := w.subscribeProperty p parked.subscriber
  w.modifyPlaceholder u fun cell =>
    { cell with
      parked := cell.parked.map fun q =>
        if q.token = parked.token then { q with moved := some s } else q }

/-- Switches a placeholder to the observer of the property, if the property exists by now. -/
def resolvePlaceholder (w : World η) (u : Ref .placeholder) : World η :=
  match w.placeholders.get? u with
  | none => w
  | some cell =>
    if cell.actual.isSome || !w.dispatchers.contains cell.dispatcher
        || !w.has cell.object cell.property then w
    else
      let w := w.modifyDispatcher cell.dispatcher fun d =>
        { d with observers := Entries.erase cell.property d.observers }
      match w.dispatcherObserver cell.dispatcher cell.property with
      | (.property p, w) =>
        let w := w.modifyPlaceholder u fun cell => { cell with actual := some p }
        cell.parked.foldl (moveParked p u) w
      | (_, w) => w

/-- Subscribes to a property that may not exist yet. -/
def subscribePlaceholder (w : World η) (u : Ref .placeholder) (subscriber : Subscriber) :
    Ref .subscription × World η :=
  let w := w.resolvePlaceholder u
  match (w.placeholders.get? u).bind (·.actual) with
  | some p => w.subscribeProperty p subscriber
  | none =>
    let w :=
      match w.placeholders.get? u with
      | some cell => w.startObserving cell.dispatcher
      | none => w
    let (token, w) := w.freshToken
    let w := w.modifyPlaceholder u fun cell =>
      { cell with parked := cell.parked ++ [⟨token, subscriber, none⟩] }
    w.callbackSubscription (.leaf (.placeholder u)) token

/-! ### Elements -/

/-- Registers a listener for each of several events of an element, and makes the subscription that
ends all these registrations. -/
def handleEvents (w : World η) (e : Ref .element) (events : List String)
    (listener : EventListener) : Ref .subscription × World η :=
  let (tokens, w) := events.foldl
    (fun (tokens, w) event =>
      let (token, w) := w.listenEvents e event listener
      (tokens ++ [token], w))
    (([] : List Token), w)
  w.newSubscription (some (.events e tokens))

/-- Subscribes to a property of an element whose changes element events tell about. -/
def subscribeElement (w : World η) (r : Ref .elementProperty) (subscriber : Subscriber) :
    Ref .subscription × World η :=
  let w :=
    match w.elementProperties.get? r with
    | some cell =>
      if cell.handler.isSome || !w.elements.contains cell.element then w
      else
        let (s, w) := w.handleEvents cell.element w.config.observedEvents (.property r)
        w.modifyElementProperty r fun cell => { cell with handler := some s }
    | none => w
  let (token, w) := w.freshToken
  let w := w.modifyElementProperty r fun cell =>
    { cell with callbacks := cell.callbacks.add token subscriber }
  w.callbackSubscription (.leaf (.element r)) token

/-- Subscribes to the value of a select element. -/
def subscribeSelect (w : World η) (r : Ref .select) (subscriber : Subscriber) :
    Ref .subscription × World η :=
  let w :=
    match w.selects.get? r with
    | some cell =>
      if cell.handler.isSome || !w.elements.contains cell.element then w
      else
        let (s, w) := w.handleEvents cell.element ["change"] (.select r)
        w.modifySelect r fun cell => { cell with handler := some s }
    | none => w
  let (token, w) := w.freshToken
  let w := w.modifySelect r fun cell =>
    { cell with callbacks := cell.callbacks.add token subscriber }
  w.callbackSubscription (.leaf (.select r)) token

/-! ### Arrays -/

/-- Makes an observer of contents listen to its array, unless it does or the array is gone. -/
def startListening (w : World η) (c : Ref .contents) : World η :=
  match w.contents.get? c with
  | none => w
  | some cell =>
    if cell.listener.isSome || !w.arrays.contains cell.array then w
    else
      let (token, w) := w.listenSplices cell.array (.contents c)
      w.modifyContents c fun cell => { cell with listener := some token }

/-- Subscribes to the contents of an array. -/
def subscribeContents (w : World η) (c : Ref .contents) (subscriber : Subscriber) :
    Ref .subscription × World η :=
  let (token, w) := w.freshToken
  let w := w.modifyContents c fun cell =>
    { cell with callbacks := cell.callbacks.add token subscriber }
  let w := w.startListening c
  w.callbackSubscription (.leaf (.contents c)) token

/-! ### Polling -/

/-- Requests a frame for polling, unless one is requested. -/
def schedulePolling (w : World η) : World η :=
  if w.polling.scheduled then w
  else { w with polling := { w.polling with scheduled := true } }.requestFrame .poll

/-- Starts to poll a property. -/
def track (w : World η) (r : Ref .poll) : World η :=
  { w with polling := { w.polling with tracked := w.polling.tracked ++ [r] } }.schedulePolling

/-- Subscribes to a polled property.  The first subscriber makes the property tracked. -/
def subscribePoll (w : World η) (r : Ref .poll) (subscriber : Subscriber) :
    Ref .subscription × World η :=
  let first := ((w.polls.get? r).map (·.callbacks.isEmpty)).getD false
  let (token, w) := w.freshToken
  let w := w.modifyPoll r fun cell =>
    { cell with callbacks := cell.callbacks.add token subscriber }
  let w :=
    if first then
      let now := w.leafValue (.poll r)
      (w.modifyPoll r fun cell => { cell with old := some now }).track r
    else w
  w.callbackSubscription (.leaf (.poll r)) token

end World

namespace Run

variable {η : Type}

/-- Subscribes to a leaf.  An element property that no event tells about refuses. -/
def subscribeLeaf (leaf : Leaf) (subscriber : Subscriber) : Run η (Ref .subscription) :=
  match leaf with
  | .setter r => update fun w => w.subscribeSetter r subscriber
  | .property r => update fun w => w.subscribeProperty r subscriber
  | .placeholder r => update fun w => w.subscribePlaceholder r subscriber
  | .element r => do
    match ← read fun w => w.elementProperties.get? r with
    | some cell =>
      if cell.handled then update fun w => w.subscribeElement r subscriber
      else fail (.unsupportedObservation cell.property)
    | none => update fun w => w.newSubscription none
  | .select r => update fun w => w.subscribeSelect r subscriber
  | .contents r => update fun w => w.subscribeContents r subscriber
  | .poll r => update fun w => w.subscribePoll r subscriber

end Run

end ViewBinding
