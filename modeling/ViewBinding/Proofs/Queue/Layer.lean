import ViewBinding.Machine

/-!
# Queue — what lies above the observers

Bindings, the queue of their connects and the flushes of it that frames are asked for lie above
objects, arrays, elements and observers: nothing that happens to those touches them.

A composite that is told of a change of one of its parts notes that it is handling one, and one that is
told of another meanwhile notes that, too.  `World.flags` are these two notes of every composite.
Handling a change is all that touches them.

`World.layer` is what lies above.  `World.canopy` is the layer together with the flags.  The lemmas
below say of every change that this library makes beneath, but of those that composites make to handle
changes, that the canopy is as it was; they are `simp` lemmas, so that a change that is made of others
is dealt with by unfolding it once.
-/

namespace ViewBinding

/-! ### What composites remember of their calls -/

section
variable {η : Type}

/-- What a composite remembers of its calls. -/
structure Flags where
  /-- A change of a part is being handled. -/
  calling : Bool
  /-- Another change was reported meanwhile. -/
  rerun : Bool
deriving DecidableEq

/-- The flags of a composite that handles nothing. -/
def Flags.clear : Flags := ⟨false, false⟩

/-- What a composite remembers of its calls. -/
def CompositeCell.flags (cell : CompositeCell) : Flags := ⟨cell.calling, cell.rerun⟩

namespace World

/-- What a composite remembers of its calls.  One that is not made yet handles nothing. -/
def flags (w : World η) (c : Ref .composite) : Flags :=
  ((w.composites.get? c).map CompositeCell.flags).getD .clear

section
variable (w : World η)

/-- A change of a composite that is not one of its flags. -/
theorem flags_modifyComposite (c : Ref .composite) {f : CompositeCell → CompositeCell}
    (same : ∀ cell, (f cell).flags = cell.flags) : (w.modifyComposite c f).flags = w.flags :=
  funext fun c' => congrArg (·.getD .clear) (Store.map_get?_modify w.composites c c' same)

/-- A new composite handles nothing. -/
theorem flags_newComposite (e : Expr) (provider : Provider) (scope : Scope) (v : Value) :
    (w.newComposite e provider scope v).2.flags = w.flags := by
  funext c
  by_cases new : c = w.composites.next
  · simp [flags, newComposite, new, CompositeCell.flags, Flags.clear]
  · simp [flags, newComposite, Store.get?_alloc_of_ne _ new]

/-- Another composite. -/
theorem flags_modifyComposite_of_ne {c c' : Ref .composite} (other : c' ≠ c)
    (f : CompositeCell → CompositeCell) : (w.modifyComposite c f).flags c' = w.flags c' := by
  simp [flags, modifyComposite, Store.get?_modify_of_ne f other]

end

/-! ### Setting them -/

section
variable {w : World η} {c : Ref .composite}

/-- The world in which a composite notes whether it handles a change. -/
def setCalling (w : World η) (c : Ref .composite) (on : Bool) : World η :=
  w.modifyComposite c fun cell => { cell with calling := on }

/-- The world in which a composite notes whether another change was reported meanwhile. -/
def setRerun (w : World η) (c : Ref .composite) (on : Bool) : World η :=
  w.modifyComposite c fun cell => { cell with rerun := on }

theorem contains_setCalling (w : World η) (c : Ref .composite) (on : Bool) :
    (w.setCalling c on).composites.contains c = w.composites.contains c :=
  Store.contains_modify ..

theorem flags_setCalling (there : w.composites.contains c = true) (on : Bool) :
    (w.setCalling c on).flags c = ⟨on, (w.flags c).rerun⟩ := by
  obtain ⟨cell, get⟩ := Option.isSome_iff_exists.1 there
  simp [flags, setCalling, modifyComposite, get, CompositeCell.flags]

theorem flags_setRerun (there : w.composites.contains c = true) (on : Bool) :
    (w.setRerun c on).flags c = ⟨(w.flags c).calling, on⟩ := by
  obtain ⟨cell, get⟩ := Option.isSome_iff_exists.1 there
  simp [flags, setRerun, modifyComposite, get, CompositeCell.flags]

/-- A composite that handles a change is there. -/
theorem contains_of_calling (calling : (w.flags c).calling = true) :
    w.composites.contains c = true := by
  unfold flags at calling
  unfold Store.contains
  cases get : w.composites.get? c with
  | none =>
    rw [get] at calling
    cases calling
  | some cell => rfl

theorem rerun_flags (w : World η) (c : Ref .composite) :
    (w.flags c).rerun = ((w.composites.get? c).map (·.rerun)).getD false := by
  unfold flags
  cases w.composites.get? c <;> rfl

end

end World

end

/-! ### What lies above -/

/-- What lies above the observers in a world. -/
structure Layer where
  config : Config
  bindings : Store .binding BindingCell
  connects : ConnectQueue
  /-- How often frames are asked to connect what waits. -/
  requests : Nat

/-- What observing leaves as it is. -/
structure Canopy where
  layer : Layer
  flags : Ref .composite → Flags

namespace World

variable {η : Type}

/-- How often frames are asked to connect what waits. -/
def requests (w : World η) : Nat := w.tasks.frames.count .connects

/-- What lies above the observers. -/
def layer (w : World η) : Layer := ⟨w.config, w.bindings, w.connects, w.requests⟩

/-- What lies above the observers, and what composites remember of their calls. -/
def canopy (w : World η) : Canopy := ⟨w.layer, w.flags⟩

theorem layer_of_canopy {w w' : World η} (same : w'.canopy = w.canopy) :
    w'.layer = w.layer := congrArg Canopy.layer same

theorem flags_of_canopy {w w' : World η} (same : w'.canopy = w.canopy) :
    w'.flags = w.flags := congrArg Canopy.flags same

section
variable (w : World η)

/-! ### Parts of a world -/

@[simp] theorem canopy_modifyObject (o : Ref .object) (f : ObjectCell → ObjectCell) :
    (w.modifyObject o f).canopy = w.canopy := rfl

@[simp] theorem canopy_modifyArray (a : Ref .array) (f : ArrayCell → ArrayCell) :
    (w.modifyArray a f).canopy = w.canopy := rfl

@[simp] theorem canopy_modifyElement (e : Ref .element) (f : ElementCell → ElementCell) :
    (w.modifyElement e f).canopy = w.canopy := rfl

@[simp] theorem canopy_modifySetter (s : Ref .setter) (f : SetterCell → SetterCell) :
    (w.modifySetter s f).canopy = w.canopy := rfl

@[simp] theorem canopy_modifyDispatcher (d : Ref .dispatcher)
    (f : DispatcherCell → DispatcherCell) : (w.modifyDispatcher d f).canopy = w.canopy := rfl

@[simp] theorem canopy_modifyProperty (p : Ref .property) (f : PropertyCell → PropertyCell) :
    (w.modifyProperty p f).canopy = w.canopy := rfl

@[simp] theorem canopy_modifyPlaceholder (u : Ref .placeholder)
    (f : PlaceholderCell → PlaceholderCell) : (w.modifyPlaceholder u f).canopy = w.canopy := rfl

@[simp] theorem canopy_modifyElementProperty (r : Ref .elementProperty)
    (f : ElementPropertyCell → ElementPropertyCell) :
    (w.modifyElementProperty r f).canopy = w.canopy := rfl

@[simp] theorem canopy_modifySelect (r : Ref .select) (f : SelectCell → SelectCell) :
    (w.modifySelect r f).canopy = w.canopy := rfl

@[simp] theorem canopy_modifyContents (c : Ref .contents) (f : ContentsCell → ContentsCell) :
    (w.modifyContents c f).canopy = w.canopy := rfl

@[simp] theorem canopy_modifyPoll (r : Ref .poll) (f : PollCell → PollCell) :
    (w.modifyPoll r f).canopy = w.canopy := rfl

@[simp] theorem canopy_modifyPath (p : Ref .path) (f : PathCell → PathCell) :
    (w.modifyPath p f).canopy = w.canopy := rfl

/-- A change of a composite that is not one of its flags. -/
theorem canopy_modifyComposite (c : Ref .composite) {f : CompositeCell → CompositeCell}
    (same : ∀ cell, (f cell).flags = cell.flags) :
    (w.modifyComposite c f).canopy = w.canopy :=
  congrArg (Canopy.mk w.layer) (w.flags_modifyComposite c same)

@[simp] theorem canopy_modifySubscription (s : Ref .subscription)
    (f : SubscriptionCell → SubscriptionCell) : (w.modifySubscription s f).canopy = w.canopy := rfl

@[simp] theorem canopy_freshToken : w.freshToken.2.canopy = w.canopy := rfl

@[simp] theorem canopy_queueMicrotask (task : Microtask) :
    (w.queueMicrotask task).canopy = w.canopy := rfl

/-- A frame that is asked to poll is not asked to connect what waits. -/
theorem canopy_requestPoll : (w.requestFrame .poll).canopy = w.canopy := by
  have same : (w.requestFrame .poll).requests = w.requests := by
    simp [requests, requestFrame, List.count_append]
  exact congrArg (fun n => Canopy.mk ⟨w.config, w.bindings, w.connects, n⟩ w.flags) same

/-- What changes nothing but the caches of the locator. -/
@[simp] theorem canopy_withCaches (l : Locator) :
    ({ w with locator := l } : World η).canopy = w.canopy := rfl

/-- What changes nothing but the polled properties. -/
@[simp] theorem canopy_withPolling (p : Polling) :
    ({ w with polling := p } : World η).canopy = w.canopy := rfl

/-! ### Objects -/

@[simp] theorem canopy_newObject (properties : List (String × Value)) :
    (w.newObject properties).2.canopy = w.canopy := rfl

@[simp] theorem canopy_putSlot (o : Ref .object) (n : String) (slot : Slot) :
    (w.putSlot o n slot).canopy = w.canopy := rfl

@[simp] theorem canopy_record (o : Ref .object) (change : ChangeRecord) :
    (w.record o change).canopy = w.canopy := by
  unfold record
  split
  · rfl
  · split
    · rfl
    · dsimp only
      split <;> rfl

@[simp] theorem canopy_writeTrap (s : Ref .setter) (v : Value) :
    (w.writeTrap s v).canopy = w.canopy := by
  unfold writeTrap
  split
  · rfl
  · split
    · rfl
    · split <;> rfl

@[simp] theorem canopy_set (o : Ref .object) (n : String) (v : Value) :
    (w.set o n v).canopy = w.canopy := by
  unfold set
  split
  · rfl
  · split
    · simp
    · simp
    · split <;> simp
    · simp

@[simp] theorem canopy_remove (o : Ref .object) (n : String) :
    (w.remove o n).2.canopy = w.canopy := by
  unfold remove
  split
  · rfl
  · split <;> simp

@[simp] theorem canopy_defineSlot (o : Ref .object) (n : String) (slot : Slot) :
    (w.defineSlot o n slot).2.canopy = w.canopy := by
  unfold defineSlot
  split <;> simp

@[simp] theorem canopy_listenRecords (o : Ref .object) (l : RecordListener) :
    (w.listenRecords o l).2.canopy = w.canopy := rfl

@[simp] theorem canopy_takeRecords (o : Ref .object) : (w.takeRecords o).2.canopy = w.canopy := by
  unfold takeRecords
  split <;> simp

/-! ### Arrays -/

@[simp] theorem canopy_newArray (items : List Value) : (w.newArray items).2.canopy = w.canopy := rfl

@[simp] theorem canopy_spliceItems (a : Ref .array) (index count : Nat) (added : List Value) :
    (w.spliceItems a index count added).2.canopy = w.canopy := rfl

@[simp] theorem canopy_setItem (a : Ref .array) (index : Nat) (v : Value) :
    (w.setItem a index v).2.canopy = w.canopy := by
  unfold setItem
  split
  · rfl
  · dsimp only
    split <;> rfl

@[simp] theorem canopy_pushItem (a : Ref .array) (v : Value) :
    (w.pushItem a v).2.canopy = w.canopy := rfl

@[simp] theorem canopy_listenSplices (a : Ref .array) (l : SpliceListener) :
    (w.listenSplices a l).2.canopy = w.canopy := rfl

@[simp] theorem canopy_unlistenSplices (a : Ref .array) (token : Token) :
    (w.unlistenSplices a token).canopy = w.canopy := rfl

@[simp] theorem canopy_collectSplice (c : Ref .contents) (splice : Splice) :
    (w.collectSplice c splice).canopy = w.canopy := by
  unfold collectSplice
  split
  · rfl
  · dsimp only
    split <;> simp

/-! ### Elements -/

@[simp] theorem canopy_elementSet (e : Ref .element) (n : String) (v : Value) :
    (w.elementSet e n v).canopy = w.canopy := rfl

@[simp] theorem canopy_setAttribute (e : Ref .element) (space : Option String) (n text : String) :
    (w.setAttribute e space n text).canopy = w.canopy := rfl

@[simp] theorem canopy_removeAttribute (e : Ref .element) (space : Option String) (n : String) :
    (w.removeAttribute e space n).canopy = w.canopy := rfl

@[simp] theorem canopy_setCss (e : Ref .element) (text : String) :
    (w.setCss e text).canopy = w.canopy := rfl

@[simp] theorem canopy_markOptions (selected : Ref .element → Bool) :
    ∀ (options : List (Ref .element)) (w : World η),
      (w.markOptions options selected).canopy = w.canopy
  | [], _ => rfl
  | option :: rest, w =>
    (canopy_markOptions selected rest _).trans (canopy_elementSet w option "selected" _)

@[simp] theorem canopy_listenEvents (e : Ref .element) (event : String) (l : EventListener) :
    (w.listenEvents e event l).2.canopy = w.canopy := rfl

@[simp] theorem canopy_unlistenEvents (e : Ref .element) (token : Token) :
    (w.unlistenEvents e token).canopy = w.canopy := rfl

@[simp] theorem canopy_listenChildren (e : Ref .element) (l : ChildListener) :
    (w.listenChildren e l).2.canopy = w.canopy := rfl

@[simp] theorem canopy_unlistenChildren (e : Ref .element) (token : Token) :
    (w.unlistenChildren e token).canopy = w.canopy := rfl

/-! ### Finding observers -/

@[simp] theorem canopy_dropStale : w.dropStale.canopy = w.canopy := rfl

@[simp] theorem canopy_afterCreation : w.afterCreation.canopy = w.canopy := by
  unfold afterCreation
  split
  · rfl
  · dsimp only
    rw [canopy_withCaches, canopy_dropStale]

@[simp] theorem canopy_newDispatcher (o : Ref .object) :
    (w.newDispatcher o).2.canopy = w.canopy := rfl

@[simp] theorem canopy_dispatcherObserver (d : Ref .dispatcher) (n : String) :
    (w.dispatcherObserver d n).2.canopy = w.canopy := by
  unfold dispatcherObserver
  split
  · rfl
  · split
    · rfl
    · dsimp only
      split <;> rfl

@[simp] theorem canopy_objectDispatcher (o : Ref .object) :
    (w.objectDispatcher o).2.canopy = w.canopy := by
  unfold objectDispatcher
  split
  · rfl
  · simp

theorem canopy_cachedProperty {make : World η → Leaf × World η}
    (h : ∀ w, (make w).2.canopy = w.canopy) (o : Ref .object) (n : String) :
    (w.cachedProperty o n make).2.canopy = w.canopy := by
  unfold cachedProperty
  split
  · rfl
  · simp [h]

@[simp] theorem canopy_objectObserver (o : Ref .object) (n : String) :
    (w.objectObserver o n).2.canopy = w.canopy := by
  unfold objectObserver
  split
  · exact canopy_cachedProperty w (fun _ => rfl) o n
  · split
    · simp
    · exact canopy_cachedProperty w (fun _ => rfl) o n

@[simp] theorem canopy_propertyObserver (v : Value) (n : String) :
    (w.propertyObserver v n).2.canopy = w.canopy := by
  unfold propertyObserver
  split <;> simp

@[simp] theorem canopy_makeElementObserver (e : Ref .element) (n : String) :
    (w.makeElementObserver e n).2.canopy = w.canopy := by
  unfold makeElementObserver
  split <;> rfl

@[simp] theorem canopy_elementObserver (e : Ref .element) (n : String) :
    (w.elementObserver e n).2.canopy = w.canopy := by
  unfold elementObserver
  split
  · rfl
  · simp

@[simp] theorem canopy_contentsObserver (a : Ref .array) :
    (w.contentsObserver a).2.canopy = w.canopy := by
  unfold contentsObserver
  split
  · rfl
  · dsimp only
    rw [canopy_afterCreation]
    rfl

@[simp] theorem canopy_resolveMember (resolver : Resolver) (v : Value) :
    (w.resolveMember resolver v).2.canopy = w.canopy := by
  unfold resolveMember
  split
  · split <;> simp
  · split <;> simp

/-! ### Subscriptions -/

@[simp] theorem canopy_newSubscription (disposal : Option Disposal) :
    (w.newSubscription disposal).2.canopy = w.canopy := rfl

@[simp] theorem canopy_callbackSubscription (ob : Observer) (token : Token) :
    (w.callbackSubscription ob token).2.canopy = w.canopy := rfl

@[simp] theorem canopy_undoCallback (token : Token) (ob : Observer) :
    (w.undoCallback token ob).2.canopy = w.canopy := by
  unfold undoCallback
  split
  · rfl
  · rfl
  · split <;> rfl
  · split
    · rfl
    · dsimp only
      split <;> rfl
  · split
    · rfl
    · dsimp only
      split <;> rfl
  · split
    · rfl
    · dsimp only
      split
      · split <;> rfl
      · rfl
  · split
    · rfl
    · dsimp only
      split <;> rfl
  · split
    · rfl
    · dsimp only
      split <;> rfl
  · split
    · rfl
    · dsimp only
      split <;> exact canopy_modifyComposite w _ fun _ => rfl

/-- What each of several changes leaves as it was, all of them do. -/
theorem canopy_foldl {α : Type} {f : World η → α → World η}
    (h : ∀ w a, (f w a).canopy = w.canopy) : ∀ (items : List α) (w : World η),
      (items.foldl f w).canopy = w.canopy
  | [], _ => rfl
  | a :: rest, w => (canopy_foldl h rest (f w a)).trans (h w a)

@[simp] theorem canopy_undo (disposal : Disposal) : (w.undo disposal).2.canopy = w.canopy := by
  cases disposal with
  | callback ob token => exact canopy_undoCallback w token ob
  | events e tokens => exact canopy_foldl (fun w token => canopy_unlistenEvents w e token) tokens w

@[simp] theorem canopy_disposeWithin : ∀ (depth : Nat) (s : Ref .subscription) (w : World η),
    (disposeWithin depth s w).canopy = w.canopy
  | 0, _, _ => rfl
  | depth + 1, s, w => by
    unfold disposeWithin
    split
    · rfl
    · dsimp only
      rw [canopy_foldl fun w s => canopy_disposeWithin depth s w, canopy_undo,
        canopy_modifySubscription]

@[simp] theorem canopy_dispose (s : Ref .subscription) : (w.dispose s).canopy = w.canopy :=
  canopy_disposeWithin _ s w

@[simp] theorem canopy_disposeOption (s : Option (Ref .subscription)) :
    (w.disposeOption s).canopy = w.canopy := by
  cases s <;> simp [disposeOption]

@[simp] theorem canopy_installTrap (s : Ref .setter) : (w.installTrap s).canopy = w.canopy := by
  unfold installTrap
  split
  · rfl
  · split <;> simp

@[simp] theorem canopy_subscribeSetter (s : Ref .setter) (sub : Subscriber) :
    (w.subscribeSetter s sub).2.canopy = w.canopy := by
  simp only [subscribeSetter, canopy_callbackSubscription]
  split
  · split <;> simp
  · simp

@[simp] theorem canopy_startObserving (d : Ref .dispatcher) :
    (w.startObserving d).canopy = w.canopy := by
  unfold startObserving
  split
  · rfl
  · split <;> simp

@[simp] theorem canopy_subscribeProperty (p : Ref .property) (sub : Subscriber) :
    (w.subscribeProperty p sub).2.canopy = w.canopy := by
  simp only [subscribeProperty, canopy_callbackSubscription]
  split <;> simp

@[simp] theorem canopy_moveParked (p : Ref .property) (u : Ref .placeholder) (parked : Parked) :
    (moveParked p u w parked).canopy = w.canopy := by
  simp [moveParked]

@[simp] theorem canopy_resolvePlaceholder (u : Ref .placeholder) :
    (w.resolvePlaceholder u).canopy = w.canopy := by
  unfold resolvePlaceholder
  split
  · rfl
  next c _ =>
    split
    · rfl
    · have found := canopy_dispatcherObserver (w.modifyDispatcher c.dispatcher fun d =>
        { d with observers := Entries.erase c.property d.observers }) c.dispatcher c.property
      dsimp only
      split
      next e =>
        rw [e] at found
        rw [canopy_foldl fun w => canopy_moveParked w _ u, canopy_modifyPlaceholder, found,
          canopy_modifyDispatcher]
      next e =>
        rw [e] at found
        rw [found, canopy_modifyDispatcher]

@[simp] theorem canopy_subscribePlaceholder (u : Ref .placeholder) (sub : Subscriber) :
    (w.subscribePlaceholder u sub).2.canopy = w.canopy := by
  simp only [subscribePlaceholder]
  split
  · simp
  · simp only [canopy_callbackSubscription, canopy_modifyPlaceholder, canopy_freshToken]
    split <;> simp

/-- Listening to one event after the other. -/
theorem canopy_listenEach (e : Ref .element) (l : EventListener) (events : List String) :
    ∀ (tokens : List Token) (w : World η), (events.foldl (fun (tokens, w) event =>
      let (token, w) := w.listenEvents e event l
      (tokens ++ [token], w)) (tokens, w)).2.canopy = w.canopy := by
  induction events with
  | nil => exact fun _ _ => rfl
  | cons event rest ih => exact fun _ _ => ih _ _

@[simp] theorem canopy_handleEvents (e : Ref .element) (events : List String)
    (l : EventListener) : (w.handleEvents e events l).2.canopy = w.canopy :=
  canopy_listenEach e l events [] w

@[simp] theorem canopy_subscribeElement (r : Ref .elementProperty) (sub : Subscriber) :
    (w.subscribeElement r sub).2.canopy = w.canopy := by
  simp only [subscribeElement, canopy_callbackSubscription, canopy_modifyElementProperty,
    canopy_freshToken]
  split
  · split <;> simp
  · rfl

@[simp] theorem canopy_subscribeSelect (r : Ref .select) (sub : Subscriber) :
    (w.subscribeSelect r sub).2.canopy = w.canopy := by
  simp only [subscribeSelect, canopy_callbackSubscription, canopy_modifySelect, canopy_freshToken]
  split
  · split <;> simp
  · rfl

@[simp] theorem canopy_startListening (c : Ref .contents) :
    (w.startListening c).canopy = w.canopy := by
  unfold startListening
  split
  · rfl
  · split <;> simp

@[simp] theorem canopy_subscribeContents (c : Ref .contents) (sub : Subscriber) :
    (w.subscribeContents c sub).2.canopy = w.canopy := by
  simp [subscribeContents]

@[simp] theorem canopy_schedulePolling : w.schedulePolling.canopy = w.canopy := by
  unfold schedulePolling
  split
  · rfl
  · exact canopy_requestPoll _

@[simp] theorem canopy_track (r : Ref .poll) : (w.track r).canopy = w.canopy := by
  simp [track]

@[simp] theorem canopy_subscribePoll (r : Ref .poll) (sub : Subscriber) :
    (w.subscribePoll r sub).2.canopy = w.canopy := by
  simp only [subscribePoll, canopy_callbackSubscription]
  split <;> simp

/-! ### Selects, paths and composites -/

@[simp] theorem canopy_synchronizeOptions (r : Ref .select) :
    (w.synchronizeOptions r).canopy = w.canopy := by
  unfold synchronizeOptions
  split <;> simp

@[simp] theorem canopy_selectedValue (e : Ref .element) :
    (w.selectedValue e).2.canopy = w.canopy := by
  unfold selectedValue
  dsimp only
  split <;> rfl

@[simp] theorem canopy_followArray (r : Ref .select) (v : Value) :
    (w.followArray r v).2.canopy = w.canopy := by
  unfold followArray
  split <;> simp

@[simp] theorem canopy_bindSelect (r : Ref .select) : (w.bindSelect r).canopy = w.canopy := by
  unfold bindSelect
  split
  · rfl
  · split <;> simp

@[simp] theorem canopy_unbindSelect (r : Ref .select) : (w.unbindSelect r).canopy = w.canopy := by
  unfold unbindSelect
  split
  · rfl
  · simp only [canopy_disposeOption]
    split <;> simp

@[simp] theorem canopy_newPath (left : Observer) (resolver : Resolver) :
    (w.newPath left resolver).2.canopy = w.canopy :=
  canopy_resolveMember w resolver _

@[simp] theorem canopy_newComposite (e : Expr) (provider : Provider) (scope : Scope)
    (v : Value) : (w.newComposite e provider scope v).2.canopy = w.canopy :=
  congrArg (Canopy.mk w.layer) (w.flags_newComposite e provider scope v)

@[simp] theorem canopy_pushPart (c : Ref .composite) (part : Part) :
    (w.pushPart c part).canopy = w.canopy := canopy_modifyComposite w c fun _ => rfl

@[simp] theorem canopy_modifyPart (c : Ref .composite) (index : Nat) (f : Part → Part) :
    (w.modifyPart c index f).canopy = w.canopy := canopy_modifyComposite w c fun _ => rfl

end

end World

end ViewBinding
