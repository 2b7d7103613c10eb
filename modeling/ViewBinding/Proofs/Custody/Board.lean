import ViewBinding.Machine

/-!
# Custody — who is registered, and who keeps what ends it

`World.board` is what there is of registrations in a world: those with observers of every kind, those
that wait at placeholders, what subscriptions take back, and the subscriptions that bindings and the
parts of composites keep.

Objects, arrays, elements, caches, work that waits and the values that observers remember are not on
the board.  The lemmas below say of every change to these that the board is as it was; they are `simp`
lemmas, so that a change that is made of others is dealt with by unfolding it once.  Drawing tokens
shows on the board as nothing else than that they are drawn (`World.Draws`).
-/

namespace ViewBinding

/-! ### Lists in stores -/

namespace Store

variable {κ : Entity} {α β : Type}

/-- What a reference lists, which is nothing once it is gone. -/
def listAt (s : Store κ α) (g : α → List β) (r : Ref κ) : List β := ((s.get? r).map g).getD []

theorem listAt_of_get? {s : Store κ α} {g : α → List β} {r : Ref κ} {a : α}
    (get : s.get? r = some a) : s.listAt g r = g a := by
  simp only [listAt, get, Option.map_some, Option.getD_some]

theorem listAt_of_gone {s : Store κ α} {r : Ref κ} (get : s.get? r = none) (g : α → List β) :
    s.listAt g r = [] := by
  simp only [listAt, get, Option.map_none, Option.getD_none]

theorem exists_of_mem_listAt {s : Store κ α} {g : α → List β} {r : Ref κ} {x : β}
    (m : x ∈ s.listAt g r) : ∃ a, s.get? r = some a ∧ x ∈ g a := by
  cases get : s.get? r with
  | none =>
    rw [listAt_of_gone get] at m
    cases m
  | some a =>
    rw [listAt_of_get? get] at m
    exact ⟨a, rfl, m⟩

/-- A change that does not show in the lists. -/
theorem listAt_modify (s : Store κ α) (r : Ref κ) {f : α → α} {g : α → List β}
    (same : ∀ a, g (f a) = g a) : (s.modify r f).listAt g = s.listAt g :=
  funext fun r' => congrArg (·.getD []) (map_get?_modify s r r' same)

theorem listAt_modify_of_ne (s : Store κ α) {r r' : Ref κ} (f : α → α) (g : α → List β)
    (other : r' ≠ r) : (s.modify r f).listAt g r' = s.listAt g r' := by
  simp only [listAt, get?_modify_of_ne f other]

/-- A change of what is listed, where something that lists nothing still does. -/
theorem listAt_modify_map (s : Store κ α) (r : Ref κ) {f : α → α} {g : α → List β}
    {k : List β → List β} (shows : ∀ a, g (f a) = k (g a)) (nothing : k [] = []) (r' : Ref κ) :
    (s.modify r f).listAt g r' = if r' = r then k (s.listAt g r) else s.listAt g r' := by
  split
  next same =>
    rw [same, listAt, get?_modify_self, listAt]
    cases s.get? r with
    | none => exact nothing.symm
    | some a => exact shows a
  next other => exact listAt_modify_of_ne s f g other

/-- Two changes that show in the lists alike. -/
theorem listAt_modify_congr (s : Store κ α) (r : Ref κ) {f f' : α → α} {g : α → List β}
    (same : ∀ a, s.get? r = some a → g (f a) = g (f' a)) :
    (s.modify r f).listAt g = (s.modify r f').listAt g := by
  funext r'
  simp only [listAt, get?_modify]
  split
  · cases get : s.get? r with
    | none => rfl
    | some a => exact congrArg (·.getD []) (congrArg some (same a get))
  · rfl

/-- What is listed after a change. -/
theorem mem_listAt_modify {s : Store κ α} {r : Ref κ} {f : α → α} {g : α → List β} {x : β}
    (k : List β → List β) (shows : ∀ a, g (f a) = k (g a)) (m : x ∈ (s.modify r f).listAt g r) :
    x ∈ k (s.listAt g r) := by
  obtain ⟨a, get, m⟩ := exists_of_mem_listAt m
  rw [get?_modify_self, Option.map_eq_some_iff] at get
  obtain ⟨a, get, rfl⟩ := get
  rwa [listAt_of_get? get, ← shows]

/-- Something new that lists nothing. -/
theorem listAt_alloc (s : Store κ α) {a : α} {g : α → List β} (nothing : g a = []) :
    (s.alloc a).listAt g = s.listAt g := by
  funext r
  simp only [listAt, get?_alloc]
  split
  next is => rw [is, get?_next, Option.map_some, nothing]; rfl
  · rfl

end Store

/-! ### The board -/

/-- What there is of registrations in a world. -/
structure Board where
  setters : Ref .setter → List (Token × Subscriber)
  properties : Ref .property → List (Token × Subscriber)
  /-- The subscribers that a placeholder parks. -/
  parked : Ref .placeholder → List Parked
  /-- The observer that took the place of a placeholder. -/
  actual : Ref .placeholder → List (Ref .property)
  elementProperties : Ref .elementProperty → List (Token × Subscriber)
  selects : Ref .select → List (Token × Subscriber)
  contents : Ref .contents → List (Token × Subscriber)
  polls : Ref .poll → List (Token × Subscriber)
  paths : Ref .path → List (Token × Subscriber)
  composites : Ref .composite → List (Token × Subscriber)
  /-- The subscriptions that the parts of a composite keep. -/
  parts : Ref .composite → List (Ref .subscription)
  /-- The subscription that a binding keeps with its source. -/
  sources : Ref .binding → List (Ref .subscription)
  /-- The subscription that a binding keeps with its target. -/
  targets : Ref .binding → List (Ref .subscription)
  disposal? : Ref .subscription → Option Disposal
  /-- How many tokens have been drawn. -/
  drawn : Nat

namespace Board

/-- The registrations with an observer, the oldest first.  With a placeholder all who are parked are
registered, whether they have been moved or not. -/
def registered (B : Board) : Observer → List (Token × Subscriber)
  | .leaf (.setter r) => B.setters r
  | .leaf (.property r) => B.properties r
  | .leaf (.placeholder r) => (B.parked r).map fun q => (q.token, q.subscriber)
  | .leaf (.element r) => B.elementProperties r
  | .leaf (.select r) => B.selects r
  | .leaf (.contents r) => B.contents r
  | .leaf (.poll r) => B.polls r
  | .path r => B.paths r
  | .composite r => B.composites r

/-- The subscriptions that a subscriber keeps: bindings and composites do. -/
def keeps (B : Board) : Subscriber → List (Ref .subscription)
  | .source b => B.sources b
  | .target b => B.targets b
  | .part c => B.parts c
  | _ => []

end Board

/-- The subscriptions that the parts of a composite keep. -/
def CompositeCell.kept (cell : CompositeCell) : List (Ref .subscription) :=
  cell.parts.toList.filterMap (·.subscription)

namespace World

variable {η : Type}

/-- What there is of registrations in a world. -/
def board (w : World η) : Board where
  setters := w.setters.listAt (·.callbacks.entries)
  properties := w.properties.listAt (·.callbacks.entries)
  parked := w.placeholders.listAt (·.parked)
  actual := w.placeholders.listAt (·.actual.toList)
  elementProperties := w.elementProperties.listAt (·.callbacks.entries)
  selects := w.selects.listAt (·.callbacks.entries)
  contents := w.contents.listAt (·.callbacks.entries)
  polls := w.polls.listAt (·.callbacks.entries)
  paths := w.paths.listAt (·.callbacks.entries)
  composites := w.composites.listAt (·.callbacks.entries)
  parts := w.composites.listAt CompositeCell.kept
  sources := w.bindings.listAt (·.sourceSubscription.toList)
  targets := w.bindings.listAt (·.targetSubscription.toList)
  disposal? := w.disposal?
  drawn := w.nextToken

section
variable (w : World η)

/-! ### Parts of a world -/

@[simp] theorem board_modifyObject (o : Ref .object) (f : ObjectCell → ObjectCell) :
    (w.modifyObject o f).board = w.board := rfl

@[simp] theorem board_modifyArray (a : Ref .array) (f : ArrayCell → ArrayCell) :
    (w.modifyArray a f).board = w.board := rfl

@[simp] theorem board_modifyElement (e : Ref .element) (f : ElementCell → ElementCell) :
    (w.modifyElement e f).board = w.board := rfl

@[simp] theorem board_modifyDispatcher (d : Ref .dispatcher)
    (f : DispatcherCell → DispatcherCell) : (w.modifyDispatcher d f).board = w.board := rfl

@[simp] theorem board_queueMicrotask (task : Microtask) :
    (w.queueMicrotask task).board = w.board := rfl

@[simp] theorem board_requestFrame (task : FrameTask) : (w.requestFrame task).board = w.board := rfl

/-- What changes nothing but the caches of the locator. -/
@[simp] theorem board_withCaches (l : Locator) :
    ({ w with locator := l } : World η).board = w.board := rfl

/-- What changes nothing but the polled properties. -/
@[simp] theorem board_withPolling (p : Polling) :
    ({ w with polling := p } : World η).board = w.board := rfl

/-! ### Observers whose callbacks stay as they are -/

@[simp] theorem board_modifySetter (r : Ref .setter) {f : SetterCell → SetterCell}
    (same : ∀ c, (f c).callbacks = c.callbacks) : (w.modifySetter r f).board = w.board :=
  congrArg (fun l => { w.board with setters := l })
    (w.setters.listAt_modify r fun c => congrArg (·.entries) (same c))

@[simp] theorem board_modifyElementProperty (r : Ref .elementProperty)
    {f : ElementPropertyCell → ElementPropertyCell} (same : ∀ c, (f c).callbacks = c.callbacks) :
    (w.modifyElementProperty r f).board = w.board :=
  congrArg (fun l => { w.board with elementProperties := l })
    (w.elementProperties.listAt_modify r fun c => congrArg (·.entries) (same c))

@[simp] theorem board_modifySelect (r : Ref .select) {f : SelectCell → SelectCell}
    (same : ∀ c, (f c).callbacks = c.callbacks) : (w.modifySelect r f).board = w.board :=
  congrArg (fun l => { w.board with selects := l })
    (w.selects.listAt_modify r fun c => congrArg (·.entries) (same c))

@[simp] theorem board_modifyContents (r : Ref .contents) {f : ContentsCell → ContentsCell}
    (same : ∀ c, (f c).callbacks = c.callbacks) : (w.modifyContents r f).board = w.board :=
  congrArg (fun l => { w.board with contents := l })
    (w.contents.listAt_modify r fun c => congrArg (·.entries) (same c))

@[simp] theorem board_modifyPoll (r : Ref .poll) {f : PollCell → PollCell}
    (same : ∀ c, (f c).callbacks = c.callbacks) : (w.modifyPoll r f).board = w.board :=
  congrArg (fun l => { w.board with polls := l })
    (w.polls.listAt_modify r fun c => congrArg (·.entries) (same c))

@[simp] theorem board_modifyPath (p : Ref .path) {f : PathCell → PathCell}
    (same : ∀ c, (f c).callbacks = c.callbacks) : (w.modifyPath p f).board = w.board :=
  congrArg (fun l => { w.board with paths := l })
    (w.paths.listAt_modify p fun c => congrArg (·.entries) (same c))

@[simp] theorem board_modifyComposite (c : Ref .composite) {f : CompositeCell → CompositeCell}
    (same : ∀ c, (f c).callbacks = c.callbacks) (kept : ∀ c, (f c).kept = c.kept) :
    (w.modifyComposite c f).board = w.board := by
  have callbacks : (w.composites.modify c f).listAt (·.callbacks.entries) =
    w.composites.listAt (·.callbacks.entries) :=
    w.composites.listAt_modify c fun c => congrArg (·.entries) (same c)
  simp only [board, modifyComposite, callbacks, w.composites.listAt_modify c kept]
  rfl

/-! ### Changes that give an observer the same callbacks -/

theorem board_modifyElementProperty_congr {r : Ref .elementProperty} {c : ElementPropertyCell}
    {f f' : ElementPropertyCell → ElementPropertyCell}
    (get : w.elementProperties.get? r = some c) (same : (f c).callbacks = (f' c).callbacks) :
    (w.modifyElementProperty r f).board = (w.modifyElementProperty r f').board :=
  congrArg (fun l => { w.board with elementProperties := l })
    (w.elementProperties.listAt_modify_congr r fun c' is => by
      cases get.symm.trans is
      exact congrArg (·.entries) same)

theorem board_modifySelect_congr {r : Ref .select} {c : SelectCell} {f f' : SelectCell → SelectCell}
    (get : w.selects.get? r = some c) (same : (f c).callbacks = (f' c).callbacks) :
    (w.modifySelect r f).board = (w.modifySelect r f').board :=
  congrArg (fun l => { w.board with selects := l }) (w.selects.listAt_modify_congr r fun c' is => by
    cases get.symm.trans is
    exact congrArg (·.entries) same)

theorem board_modifyContents_congr {r : Ref .contents} {c : ContentsCell}
    {f f' : ContentsCell → ContentsCell}
    (get : w.contents.get? r = some c) (same : (f c).callbacks = (f' c).callbacks) :
    (w.modifyContents r f).board = (w.modifyContents r f').board :=
  congrArg (fun l => { w.board with contents := l }) (w.contents.listAt_modify_congr r fun c' is => by
    cases get.symm.trans is
    exact congrArg (·.entries) same)

theorem board_modifyPoll_congr {r : Ref .poll} {c : PollCell} {f f' : PollCell → PollCell}
    (get : w.polls.get? r = some c) (same : (f c).callbacks = (f' c).callbacks) :
    (w.modifyPoll r f).board = (w.modifyPoll r f').board :=
  congrArg (fun l => { w.board with polls := l }) (w.polls.listAt_modify_congr r fun c' is => by
    cases get.symm.trans is
    exact congrArg (·.entries) same)

theorem board_modifyPath_congr {p : Ref .path} {c : PathCell} {f f' : PathCell → PathCell}
    (get : w.paths.get? p = some c) (same : (f c).callbacks = (f' c).callbacks) :
    (w.modifyPath p f).board = (w.modifyPath p f').board :=
  congrArg (fun l => { w.board with paths := l }) (w.paths.listAt_modify_congr p fun c' is => by
    cases get.symm.trans is
    exact congrArg (·.entries) same)

/-! ### Objects -/

@[simp] theorem board_newObject (properties : List (String × Value)) :
    (w.newObject properties).2.board = w.board := rfl

@[simp] theorem board_putSlot (o : Ref .object) (n : String) (slot : Slot) :
    (w.putSlot o n slot).board = w.board := rfl

@[simp] theorem board_record (o : Ref .object) (change : ChangeRecord) :
    (w.record o change).board = w.board := by
  unfold record
  split
  · rfl
  · split
    · rfl
    · dsimp only
      split <;> rfl

@[simp] theorem board_writeTrap (s : Ref .setter) (v : Value) :
    (w.writeTrap s v).board = w.board := by
  unfold writeTrap
  split
  · rfl
  · split
    · rfl
    · split <;> simp

@[simp] theorem board_set (o : Ref .object) (n : String) (v : Value) :
    (w.set o n v).board = w.board := by
  unfold set
  split
  · rfl
  · split
    · simp
    · simp
    · split <;> simp
    · simp

@[simp] theorem board_remove (o : Ref .object) (n : String) :
    (w.remove o n).2.board = w.board := by
  unfold remove
  split
  · rfl
  · split <;> simp

@[simp] theorem board_defineSlot (o : Ref .object) (n : String) (slot : Slot) :
    (w.defineSlot o n slot).2.board = w.board := by
  unfold defineSlot
  split <;> simp

@[simp] theorem board_takeRecords (o : Ref .object) : (w.takeRecords o).2.board = w.board := by
  unfold takeRecords
  split <;> simp

/-! ### Arrays -/

@[simp] theorem board_newArray (items : List Value) : (w.newArray items).2.board = w.board := rfl

@[simp] theorem board_spliceItems (a : Ref .array) (index count : Nat) (added : List Value) :
    (w.spliceItems a index count added).2.board = w.board := rfl

@[simp] theorem board_setItem (a : Ref .array) (index : Nat) (v : Value) :
    (w.setItem a index v).2.board = w.board := by
  unfold setItem
  split
  · rfl
  · dsimp only
    split <;> rfl

@[simp] theorem board_pushItem (a : Ref .array) (v : Value) :
    (w.pushItem a v).2.board = w.board := rfl

@[simp] theorem board_unlistenSplices (a : Ref .array) (token : Token) :
    (w.unlistenSplices a token).board = w.board := rfl

@[simp] theorem board_collectSplice (c : Ref .contents) (splice : Splice) :
    (w.collectSplice c splice).board = w.board := by
  unfold collectSplice
  split
  · rfl
  · dsimp only
    split <;> simp

/-! ### Elements -/

@[simp] theorem board_elementSet (e : Ref .element) (n : String) (v : Value) :
    (w.elementSet e n v).board = w.board := rfl

@[simp] theorem board_setAttribute (e : Ref .element) (space : Option String) (n text : String) :
    (w.setAttribute e space n text).board = w.board := rfl

@[simp] theorem board_removeAttribute (e : Ref .element) (space : Option String) (n : String) :
    (w.removeAttribute e space n).board = w.board := rfl

@[simp] theorem board_setCss (e : Ref .element) (text : String) :
    (w.setCss e text).board = w.board := rfl

@[simp] theorem board_markOptions (selected : Ref .element → Bool) :
    ∀ (options : List (Ref .element)) (w : World η),
      (w.markOptions options selected).board = w.board
  | [], _ => rfl
  | option :: rest, w =>
    (board_markOptions selected rest _).trans (board_elementSet w option "selected" _)

@[simp] theorem board_unlistenEvents (e : Ref .element) (token : Token) :
    (w.unlistenEvents e token).board = w.board := rfl

@[simp] theorem board_unlistenChildren (e : Ref .element) (token : Token) :
    (w.unlistenChildren e token).board = w.board := rfl

@[simp] theorem board_synchronizeOptions (r : Ref .select) :
    (w.synchronizeOptions r).board = w.board := by
  unfold synchronizeOptions
  split <;> simp

@[simp] theorem board_selectedValue (e : Ref .element) :
    (w.selectedValue e).2.board = w.board := by
  unfold selectedValue
  dsimp only
  split <;> rfl

/-! ### Making observers -/

@[simp] theorem board_newSetter (o : Ref .object) (n : String) :
    (w.newSetter o n).2.board = w.board :=
  congrArg (fun l => { w.board with setters := l }) (w.setters.listAt_alloc rfl)

@[simp] theorem board_newElementProperty (e : Ref .element) (n : String) (handled : Bool) :
    (w.newElementProperty e n handled).2.board = w.board :=
  congrArg (fun l => { w.board with elementProperties := l }) (w.elementProperties.listAt_alloc rfl)

@[simp] theorem board_newSelect (e : Ref .element) : (w.newSelect e).2.board = w.board :=
  congrArg (fun l => { w.board with selects := l }) (w.selects.listAt_alloc rfl)

@[simp] theorem board_newContents (a : Ref .array) : (w.newContents a).2.board = w.board :=
  congrArg (fun l => { w.board with contents := l }) (w.contents.listAt_alloc rfl)

@[simp] theorem board_newPoll (o : Ref .object) (n : String) :
    (w.newPoll o n).2.board = w.board :=
  congrArg (fun l => { w.board with polls := l }) (w.polls.listAt_alloc rfl)

@[simp] theorem board_newDispatcher (o : Ref .object) :
    (w.newDispatcher o).2.board = w.board := rfl

@[simp] theorem board_withProperty (c : PropertyCell) (none : c.callbacks = .empty) :
    ({ w with properties := w.properties.alloc c } : World η).board = w.board :=
  congrArg (fun l => { w.board with properties := l })
    (w.properties.listAt_alloc (congrArg (·.entries) none))

@[simp] theorem board_withPlaceholder (c : PlaceholderCell) (nobody : c.parked = [])
    (fresh : c.actual = none) :
    ({ w with placeholders := w.placeholders.alloc c } : World η).board = w.board := by
  have parked := w.placeholders.listAt_alloc nobody
  have actual : (w.placeholders.alloc c).listAt (·.actual.toList) =
    w.placeholders.listAt (·.actual.toList) :=
    w.placeholders.listAt_alloc (congrArg Option.toList fresh)
  simp only [board, parked, actual]
  rfl

@[simp] theorem board_newComposite (e : Expr) (provider : Provider) (scope : Scope) (v : Value) :
    (w.newComposite e provider scope v).2.board = w.board := by
  let cell : CompositeCell := { expression := e, scope, provider, value := v }
  have callbacks : (w.composites.alloc cell).listAt (·.callbacks.entries) =
    w.composites.listAt (·.callbacks.entries) := w.composites.listAt_alloc rfl
  have kept : (w.composites.alloc cell).listAt CompositeCell.kept =
    w.composites.listAt CompositeCell.kept := w.composites.listAt_alloc rfl
  simp only [board, newComposite, cell, callbacks, kept]
  rfl

@[simp] theorem board_dropStale : w.dropStale.board = w.board := rfl

@[simp] theorem board_afterCreation : w.afterCreation.board = w.board := by
  unfold afterCreation
  split
  · rfl
  · dsimp only
    rw [board_withCaches, board_dropStale]

@[simp] theorem board_dispatcherObserver (d : Ref .dispatcher) (n : String) :
    (w.dispatcherObserver d n).2.board = w.board := by
  unfold dispatcherObserver
  split
  · rfl
  · split
    · rfl
    · dsimp only
      split <;> simp

@[simp] theorem board_objectDispatcher (o : Ref .object) :
    (w.objectDispatcher o).2.board = w.board := by
  unfold objectDispatcher
  split
  · rfl
  · simp

theorem board_cachedProperty {make : World η → Leaf × World η}
    (h : ∀ w, (make w).2.board = w.board) (o : Ref .object) (n : String) :
    (w.cachedProperty o n make).2.board = w.board := by
  unfold cachedProperty
  split
  · rfl
  · simp [h]

@[simp] theorem board_objectObserver (o : Ref .object) (n : String) :
    (w.objectObserver o n).2.board = w.board := by
  unfold objectObserver
  split
  · exact board_cachedProperty w (by exact fun w => board_newPoll w o n) o n
  · split
    · simp
    · exact board_cachedProperty w (by exact fun w => board_newSetter w o n) o n

@[simp] theorem board_propertyObserver (v : Value) (n : String) :
    (w.propertyObserver v n).2.board = w.board := by
  unfold propertyObserver
  split <;> simp

@[simp] theorem board_makeElementObserver (e : Ref .element) (n : String) :
    (w.makeElementObserver e n).2.board = w.board := by
  unfold makeElementObserver
  split
  · exact board_newSelect w e
  · exact board_newElementProperty w e n _

@[simp] theorem board_elementObserver (e : Ref .element) (n : String) :
    (w.elementObserver e n).2.board = w.board := by
  unfold elementObserver
  split
  · rfl
  · simp

@[simp] theorem board_contentsObserver (a : Ref .array) :
    (w.contentsObserver a).2.board = w.board := by
  unfold contentsObserver
  split
  · rfl
  · dsimp only
    rw [board_afterCreation, board_withCaches, board_newContents]

@[simp] theorem board_resolveMember (resolver : Resolver) (v : Value) :
    (w.resolveMember resolver v).2.board = w.board := by
  unfold resolveMember
  split
  · split <;> simp
  · split <;> simp

@[simp] theorem board_newPath (left : Observer) (resolver : Resolver) :
    (w.newPath left resolver).2.board = w.board := by
  have resolved := board_resolveMember w resolver (w.observerValue left)
  unfold newPath
  generalize w.resolveMember resolver (w.observerValue left) = found at resolved
  obtain ⟨right, w'⟩ := found
  let cell : PathCell :=
    { left, resolver, right, value := (right.map w'.leafValue).getD .undefined }
  have callbacks : (w'.paths.alloc cell).listAt (·.callbacks.entries) =
    w'.paths.listAt (·.callbacks.entries) := w'.paths.listAt_alloc rfl
  exact (congrArg (fun l => { w'.board with paths := l }) callbacks).trans resolved

@[simp] theorem board_pushPart (c : Ref .composite) (part : Part) (loose : part.subscription = none) :
    (w.pushPart c part).board = w.board := by
  refine board_modifyComposite w c (fun _ => rfl) fun cell => ?_
  simp [CompositeCell.kept, loose]

/-- Connecting a part changes nothing that it keeps. -/
theorem board_connectPart (c : Ref .composite) (i : Nat) (info : ConnectInfo) :
    (w.modifyPart c i fun part => { part with info := some info }).board = w.board := by
  refine w.board_modifyComposite c (by exact fun _ => rfl) fun cell => ?_
  have same : (cell.parts.toList.modify i fun part => { part with info := some info }).map
      (·.subscription) = cell.parts.toList.map (·.subscription) := by
    refine List.ext_getElem? fun j => ?_
    simp only [List.getElem?_map, List.getElem?_modify]
    cases cell.parts.toList[j]? with
    | none => rfl
    | some part => split <;> rfl
  have listed : ∀ parts : List Part, parts.filterMap (·.subscription) =
      (parts.map (·.subscription)).filterMap id := fun parts => by
    rw [List.filterMap_map, Function.id_comp]
  rw [CompositeCell.kept, CompositeCell.kept, Array.toList_modify, listed, same, ← listed]

@[simp] theorem board_installTrap (s : Ref .setter) : (w.installTrap s).board = w.board := by
  unfold installTrap
  split
  · rfl
  · split <;> simp

@[simp] theorem board_schedulePolling : w.schedulePolling.board = w.board := by
  unfold schedulePolling
  split <;> rfl

@[simp] theorem board_track (r : Ref .poll) : (w.track r).board = w.board := by
  simp [track]

end

end World

end ViewBinding
