import ViewBinding.Proofs.Follow
import ViewBinding.Proofs.TwoWay.Settle

/-!
# TwoWay — binding one more element

Binding an input element that nobody watches yet to the source makes the element show the value of
the source and ties the two (`bindTwoWay_spec`).  All that happens on the way is about this element
and this binding (`Sides`), apart from the subscription with the source.
-/

namespace ViewBinding

namespace World

variable {η : Type} {w w' w'' : World η} {e e' : Ref .element} {b b' : Ref .binding}
  {r : Ref .elementProperty}

/-- `w'` differs from `w` in things about the element `e` and the binding `b` only. -/
structure Sides (w w' : World η) (e : Ref .element) (b : Ref .binding) : Prop where
  spares : w.Spares w'
  watches : ∀ r e' b', e' ≠ e → w.Watches r e' b' → w'.Watches r e' b'
  shown : ∀ e', e' ≠ e → w'.elementGet e' "value" = w.elementGet e' "value"
  bindings : ∀ b', b' ≠ b → w'.bindings.get? b' = w.bindings.get? b'
  flushing : w'.tasks.flushing = w.tasks.flushing

theorem Sides.trans (h : w.Sides w' e b) (h' : w'.Sides w'' e b) : w.Sides w'' e b where
  spares := h.spares.trans h'.spares
  watches r e' b' other watch := h'.watches r e' b' other (h.watches r e' b' other watch)
  shown e' other := (h'.shown e' other).trans (h.shown e' other)
  bindings b' other := (h'.bindings b' other).trans (h.bindings b' other)
  flushing := h'.flushing.trans h.flushing

/-! ### Elements and bindings -/

theorem sides_modifyBinding (h : w.Wired) (e : Ref .element) (b : Ref .binding)
    (f : BindingCell → BindingCell) : w.Sides (w.modifyBinding b f) e b where
  spares := Aside.spares
    ⟨rfl, rfl, rfl, rfl, rfl, rfl, rfl, rfl, rfl, Nat.le_refl _, rfl, rfl, id, id⟩ h
  watches _ _ _ _ watch := watch.of_eq rfl rfl rfl
  shown _ _ := rfl
  bindings _ other := Store.get?_modify_of_ne _ other
  flushing := rfl

theorem sides_elementSet (h : w.Wired) (e : Ref .element) (b : Ref .binding) (v : Value) :
    w.Sides (w.elementSet e "value" v) e b where
  spares := (aside_elementSet w e "value" v).spares h
  watches _ _ _ _ watch := watch.elementSet e "value" v
  shown _ other := elementGet_elementSet_of_ne _ _ _ other
  bindings _ _ := rfl
  flushing := rfl

theorem sides_withSeen (h : w.Wired) (e : Ref .element) (b : Ref .binding)
    (r : Ref .elementProperty) (v : Value) : w.Sides (w.withSeen r v) e b where
  spares := (aside_withSeen w r v).spares h
  watches _ _ _ _ watch := watch.withSeen r v
  shown _ _ := rfl
  bindings _ _ := rfl
  flushing := rfl

/-- An input element whose value nobody watches. -/
structure IsBlank (w : World η) (e : Ref .element) : Prop where
  element : ∃ c, w.elements.get? e = some c ∧ c.tag = "input" ∧ c.svg = false ∧
    c.eventListeners.entries = []
  unwatched : Entries.get? (e, "value") w.locator.elements = none

/-- A world with a binding of the value of an element, and the observer of that value. -/
def withInput (w : World η) (e : Ref .element) (expression : Expr) (size : Nat) : World η :=
  { w with
    elementProperties := w.elementProperties.alloc
      { element := e, property := "value", access := .property, handled := true,
        old := w.elementGet e "value" }
    locator := { w.locator with
      elements := Entries.put (e, "value") (.element w.elementProperties.next) w.locator.elements
      pruneAt := size }
    bindings := w.bindings.alloc
      { expression, element := e, property := "value", mode := .twoWay,
        targetObserver := .element w.elementProperties.next } }

theorem aside_withInput (live : w.elements.contains e = true) (expression : Expr) (size : Nat) :
    w.Aside (w.withInput e expression size) where
  config := rfl
  objects := rfl
  setters := rfl
  dispatchers := rfl
  properties := rfl
  placeholders := rfl
  polls := rfl
  subscriptions := rfl
  microtasks := rfl
  nextToken := Nat.le_refl _
  dispatcherCache := rfl
  propertyCache := rfl
  liveElements all p m := by
    change w.elements.contains p.1.1 = true
    have : p.1 ∈ Entries.keys (Entries.put (e, "value") _ w.locator.elements) :=
      List.mem_map_of_mem m
    rcases Entries.mem_keys_put.1 this with same | m
    · rw [same]
      exact live
    · obtain ⟨q, m, same⟩ := List.mem_map.1 m
      rw [← same]
      exact all q m
  liveContents := id

theorem sides_withInput (h : w.Wired) (live : w.elements.contains e = true) (expression : Expr)
    (size : Nat) : w.Sides (w.withInput e expression size) e w.bindings.next where
  spares := (aside_withInput live expression size).spares h
  watches r e' b' _ watch := by
    refine ⟨?_, watch.element⟩
    obtain ⟨c, get, rest⟩ := watch.observer
    exact ⟨c, (Store.get?_alloc_of_ne _ (Store.ne_next_of_get? get)).trans get, rest⟩
  shown _ _ := rfl
  bindings _ other := Store.get?_alloc_of_ne _ other
  flushing := rfl

theorem IsBlank.live (blank : w.IsBlank e) : w.elements.contains e = true := by
  obtain ⟨c, get, -⟩ := blank.element
  simp [Store.contains, get]

theorem newBinding_eq (h : w.Located) (blank : w.IsBlank e)
    (observable : w.config.isObservable "value" = true) (expression : Expr) :
    ∃ size, w.newBinding e "value" expression .twoWay =
      (w.bindings.next, w.withInput e expression size) := by
  obtain ⟨c, get, tag, svg, -⟩ := blank.element
  have select : w.isSelect e = false := by
    simp only [isSelect, World.tag, get, Option.map_some, Option.getD_some, tag]
    decide
  have access : w.accessFor e "value" = .property := by
    have drawing : w.isSvg e = false := by
      simp only [isSvg, get, Option.map_some, Option.getD_some, svg]
    have link : "value".startsWith "xlink:" = false := by decide
    have plain : hasNamespacePrefix "value" = false := by decide
    have data : "value".startsWith "data-" = false := by decide +kernel
    have aria : "value".startsWith "aria-" = false := by decide +kernel
    simp only [accessFor, link, plain, data, aria, drawing, Bool.or_false, Bool.false_eq_true,
      if_false]
    decide
  have old : w.readElement e "value" .property = w.elementGet e "value" := by
    simp only [readElement, blank.live, if_true]
  let made : World η := { w with
    elementProperties := w.elementProperties.alloc
      { element := e, property := "value", access := .property, handled := true,
        old := w.elementGet e "value" }
    locator := { w.locator with
      elements :=
        Entries.put (e, "value") (.element w.elementProperties.next) w.locator.elements } }
  have aside : w.Aside made := by
    have := aside_withInput blank.live expression w.locator.pruneAt
    exact ⟨this.config, this.objects, this.setters, this.dispatchers, this.properties,
      this.placeholders, this.polls, this.subscriptions, this.microtasks, this.nextToken,
      this.dispatcherCache, this.propertyCache, this.liveElements, this.liveContents⟩
  obtain ⟨size, created⟩ := (aside.located h).afterCreation
  refine ⟨size, ?_⟩
  have observer : w.elementObserver e "value" =
      (.element w.elementProperties.next, made.afterCreation) := by
    simp only [elementObserver, blank.unwatched, makeElementObserver, select, Bool.false_and,
      Bool.false_eq_true, if_false, newElementProperty, access, old, observable]
    rfl
  simp only [newBinding, observer, created]
  rfl

/-! ### Following an element -/

/-- `w'` is `w` after a listener has been registered for some events of an element. -/
structure Handles (w w' : World η) (e : Ref .element) (events : List String) (l : EventListener) :
    Prop where
  aside : w.Aside w'
  observers : w'.elementProperties = w.elementProperties
  bindings : w'.bindings = w.bindings
  flushing : w'.tasks.flushing = w.tasks.flushing
  others : ∀ e', e' ≠ e → w'.elements.get? e' = w.elements.get? e'
  element : ∀ c, w.elements.get? e = some c → ∃ c', w'.elements.get? e = some c' ∧
    c'.properties = c.properties ∧
      c'.eventListeners.toList = c.eventListeners.toList ++ events.map fun event => (event, l)

theorem handles_listenEvents (w : World η) (e : Ref .element) (event : String)
    (l : EventListener) : w.Handles (w.listenEvents e event l).2 e [event] l where
  aside := ⟨rfl, rfl, rfl, rfl, rfl, rfl, rfl, rfl, rfl, Nat.le_succ _, rfl, rfl,
    fun live p m => (Store.contains_modify _ _ _ _).trans (live p m), id⟩
  observers := rfl
  bindings := rfl
  flushing := rfl
  others _ other := Store.get?_modify_of_ne _ other
  element c get := by
    refine ⟨_, (Store.get?_modify_self _ _ _).trans (congrArg _ get), rfl, ?_⟩
    simp only [Listeners.toList_add, List.map_cons, List.map_nil]

theorem handles_foldl (e : Ref .element) (l : EventListener) (events : List String) :
    ∀ (w : World η) (tokens : List Token), w.Handles (events.foldl
      (fun (tokens, w) event =>
        let (token, w) := w.listenEvents e event l
        (tokens ++ [token], w)) (tokens, w)).2 e events l := by
  induction events with
  | nil =>
    exact fun w _ => ⟨.refl w, rfl, rfl, rfl, fun _ _ => rfl, fun c get => ⟨c, get, rfl, by simp⟩⟩
  | cons event events ih =>
    intro w tokens
    have first := handles_listenEvents w e event l
    have rest := ih (w.listenEvents e event l).2 (tokens ++ [(w.listenEvents e event l).1])
    refine ⟨first.aside.trans rest.aside, rest.observers.trans first.observers,
      rest.bindings.trans first.bindings, rest.flushing.trans first.flushing,
      fun e' other => (rest.others e' other).trans (first.others e' other), fun c get => ?_⟩
    obtain ⟨c₁, get₁, properties₁, listeners₁⟩ := first.element c get
    obtain ⟨c₂, get₂, properties₂, listeners₂⟩ := rest.element c₁ get₁
    refine ⟨c₂, get₂, properties₂.trans properties₁, listeners₂.trans ?_⟩
    rw [listeners₁, List.append_assoc]
    rfl

theorem handleEvents_spec (w : World η) (e : Ref .element) (events : List String)
    (l : EventListener) : ∃ w₁ tokens, w.Handles w₁ e events l ∧
      w.handleEvents e events l = (w₁.subscriptions.next, w₁.withSubscription (.events e tokens)) :=
  ⟨_, _, handles_foldl e l events w [], rfl⟩

/-- A world in which the events of an element are handled and a subscriber is registered with an
observer of it. -/
def withFollower (w : World η) (e : Ref .element) (r : Ref .elementProperty) (tokens : List Token)
    (subscriber : Subscriber) : World η :=
  { w with
    elementProperties := (w.elementProperties.modify r fun cell =>
        { cell with handler := some w.subscriptions.next }).modify r fun cell =>
      { cell with callbacks := cell.callbacks.add ⟨w.nextToken⟩ subscriber }
    subscriptions := (w.subscriptions.alloc ⟨some (.events e tokens)⟩).alloc
      ⟨some (.callback (.leaf (.element r)) ⟨w.nextToken⟩)⟩
    nextToken := w.nextToken + 1 }

theorem spares_withFollower (h : w.Wired) (e : Ref .element) (r : Ref .elementProperty)
    (tokens : List Token) (subscriber : Subscriber) :
    w.Spares (w.withFollower e r tokens subscriber) := by
  have first : w.Spares (w.withSubscription (.events e tokens)) :=
    spares_withSubscription h trivial nofun
  let drawn : World η := { w.withSubscription (.events e tokens) with
    elementProperties := (w.elementProperties.modify r fun cell =>
        { cell with handler := some w.subscriptions.next }).modify r fun cell =>
      { cell with callbacks := cell.callbacks.add ⟨w.nextToken⟩ subscriber }
    nextToken := w.nextToken + 1 }
  have aside : (w.withSubscription (.events e tokens)).Aside drawn :=
    ⟨rfl, rfl, rfl, rfl, rfl, rfl, rfl, rfl, rfl, Nat.le_succ _, rfl, rfl, id, id⟩
  have foreign : IsForeign (.callback (.leaf (.element r))
    ⟨(w.withSubscription (.events e tokens)).nextToken⟩) := trivial
  exact first.trans (aside.spares_callback first.wired foreign (Nat.lt_succ_self w.nextToken))

/-- Nobody follows an element yet, whose value an observer could tell. -/
structure Idle (w : World η) (r : Ref .elementProperty) (e : Ref .element) : Prop where
  observer : ∃ c, w.elementProperties.get? r = some c ∧ c.element = e ∧ c.property = "value" ∧
    c.access = .property ∧ c.handled = true ∧ c.callbacks.entries = [] ∧ c.handler = none
  element : ∃ c, w.elements.get? e = some c ∧ c.eventListeners.entries = []

theorem Idle.of_eq (h : w.Idle r e) (elements : w'.elements = w.elements)
    (observers : w'.elementProperties = w.elementProperties) : w'.Idle r e :=
  ⟨observers ▸ h.observer, elements ▸ h.element⟩

theorem Idle.live (h : w.Idle r e) : w.elements.contains e = true := by
  obtain ⟨c, get, -⟩ := h.element
  simp [Store.contains, get]

/-- A value that an idle element shows has been seen by its observer only. -/
theorem Idle.shows (h : w.Idle r e) (v : Value) :
    ((w.elementSet e "value" v).withSeen r v).Idle r e where
  observer := by
    obtain ⟨c, get, facts⟩ := h.observer
    have : (w.elementSet e "value" v).elementProperties.get? r = some c := get
    exact ⟨{ c with old := v }, (Store.get?_modify_self _ _ _).trans (by rw [this]; rfl), facts⟩
  element := by
    obtain ⟨c, get, unheard⟩ := h.element
    exact ⟨{ c with properties := Entries.put "value" v c.properties },
      (Store.get?_modify_self _ _ _).trans (by rw [get]; rfl), unheard⟩

/-- **Following an element** whose value nobody follows yet. -/
theorem subscribeElement_spec (h : w.Wired) (idle : w.Idle r e) (b : Ref .binding) :
    w.Sides (w.subscribeElement r (.target b)).2 e b ∧
      (w.subscribeElement r (.target b)).2.bindings = w.bindings ∧
      (w.subscribeElement r (.target b)).2.elementGet e "value" = w.elementGet e "value" ∧
      (w.subscribeElement r (.target b)).2.Watches r e b := by
  have live := idle.live
  obtain ⟨c, get, element, property, access, handled, silent, free⟩ := idle.observer
  obtain ⟨ec, there, unheard⟩ := idle.element
  -- the events are handled first, then the subscriber is registered
  obtain ⟨w₁, tokens, handles, result⟩ : ∃ w₁ tokens,
      w.Handles w₁ e w.config.observedEvents (.property r) ∧
        (w.subscribeElement r (.target b)).2 = w₁.withFollower e r tokens (.target b) := by
    obtain ⟨w₁, tokens, handles, result⟩ :=
      handleEvents_spec w e w.config.observedEvents (.property r)
    refine ⟨w₁, tokens, handles, ?_⟩
    simp only [subscribeElement, get, free, element, live, Option.isSome_none, Bool.not_true,
      Bool.or_false, Bool.false_eq_true, if_false, result]
    rfl
  rw [result]
  clear result
  have config : w₁.config = w.config := handles.aside.config
  have observers : ∀ r', (w₁.withFollower e r tokens (.target b)).elementProperties.get? r' =
      if r' = r then some { c with
        handler := some w₁.subscriptions.next
        callbacks := c.callbacks.add ⟨w₁.nextToken⟩ (.target b) }
      else w.elementProperties.get? r' := by
    intro r'
    simp only [withFollower, Store.modify_modify, Store.get?_modify, handles.observers]
    split
    next => rw [get]; rfl
    next => rfl
  obtain ⟨ec', there', properties, listeners⟩ := handles.element ec there
  refine ⟨⟨(handles.aside.spares h).trans
    (spares_withFollower (handles.aside.wired h) e r tokens (.target b)), ?_, ?_, ?_,
      handles.flushing⟩, handles.bindings, ?_, ?_, ?_⟩
  · intro r' e' b'' other watch
    refine ⟨?_, ?_⟩
    · obtain ⟨c', get', same, rest⟩ := watch.observer
      have another : r' ≠ r := by
        rintro rfl
        rw [get] at get'
        cases get'
        exact other (same.symm.trans element)
      exact ⟨c', (observers r').trans ((if_neg another).trans get'), same, rest⟩
    · obtain ⟨c', get', all, each⟩ := watch.element
      exact ⟨c', (handles.others e' other).trans get', all, config ▸ each⟩
  · intro e' other
    have : (w₁.withFollower e r tokens (.target b)).elements.get? e' = w.elements.get? e' :=
      handles.others e' other
    simp only [elementGet, this]
  · exact fun b'' _ => congrArg (Store.get? · b'') handles.bindings
  · have : (w₁.withFollower e r tokens (.target b)).elements.get? e = some ec' := there'
    simp only [elementGet, this, there, Option.bind_some, properties]
  · refine ⟨_, (observers r).trans (if_pos rfl), element, property, access, handled, ?_⟩
    simp [Listeners.add, Listeners.toList, silent]
  · refine ⟨ec', there', ?_, ?_⟩
    · intro l m
      have silence : ec.eventListeners.toList = [] := by simp [Listeners.toList, unheard]
      rw [listeners, silence, List.nil_append] at m
      obtain ⟨event, -, rfl⟩ := List.mem_map.1 m
      rfl
    · intro event m
      rw [listeners]
      exact List.mem_append_right _ (List.mem_map_of_mem (config ▸ m))

/-! ### A tie more -/

section
variable {vm : Ref .object} {p : String} {s : Ref .subscription} {cell : BindingCell}
  {w₁ w₂ : World η}

/-- A binding that has been bound to the source, and to an element of its own, is tied. -/
theorem Ties.join (T : w.Ties vm p) (own : ∀ b' cell', w.bindings.get? b' = some cell' →
      b' ≠ b ∧ cell'.element ≠ e) (before : w.Sides w₁ e b) (follows : w₁.Follows w₂ s vm p (.source b))
    (after : w₂.Sides w' e b) (get : w'.bindings.get? b = some cell) (element : cell.element = e)
    (expression : cell.expression = .name p) {scope : Scope} (source : cell.source = some scope)
    (owner : w.ownerOf scope p = .object vm) (target : cell.targetObserver = .element r)
    (watches : w'.Watches r e b) : w'.Ties vm p := by
  have still := follows.still
  have backdrop := still.backdrop
  have bindings : ∀ b', b' ≠ b → w'.bindings.get? b' = w.bindings.get? b' := fun b' other => by
    have : w₂.bindings = w₁.bindings := congrArg Backdrop.bindings backdrop
    rw [after.bindings b' other, this, before.bindings b' other]
  have watches' : ∀ r e' b', e' ≠ e → w.Watches r e' b' → w'.Watches r e' b' :=
    fun r e' b' other watch => after.watches r e' b' other ((before.watches r e' b' other watch).of_eq
      (congrArg Backdrop.config backdrop) (congrArg Backdrop.elements backdrop)
      (congrArg Backdrop.elementProperties backdrop))
  have enrolled : ∀ s' o n sub, w'.Enrolled s' o n sub ↔ w.Enrolled s' o n sub ∨
      s' = s ∧ o = vm ∧ n = p ∧ sub = .source b := fun s' o n sub => by
    rw [after.spares.enrolled, follows.enrolled_iff, before.spares.enrolled]
  -- the trap that the subscription may have installed is on a property that is there
  have has : ∀ o n, w'.has o n = w.has o n := fun o n => by
    rw [after.spares.has, ← before.spares.has]
    refine Bool.eq_iff_iff.2 ⟨fun there => ?_, follows.has o n⟩
    rcases follows.hadOr o n there with had | ⟨-, rfl, rfl⟩
    · exact had
    · exact (before.spares.has _ _).trans T.present
  have config : w'.config = w.config := by
    rw [after.spares.config, ← before.spares.config]
    exact congrArg Backdrop.config backdrop
  refine ⟨after.spares.wired, config ▸ T.observable, ?_, ?_, (has vm p).trans T.present, ?_, ?_, ?_,
    ?_⟩
  · rw [after.spares.contains, still.contains, before.spares.contains, T.live]
  · rw [after.spares.isFrozen, still.isFrozen, before.spares.isFrozen, T.unfrozen]
  · exact fun doubled => T.plain ((before.spares.doubled vm p).1
      (still.doubled vm p ((after.spares.doubled vm p).1 doubled)))
  · intro b' cell' e'
    by_cases same : b' = b
    · subst same
      rw [get] at e'
      cases e'
      exact ⟨expression, ⟨scope, source, (ownerOf_eq has scope p).trans owner⟩,
        ⟨r, target, element ▸ watches⟩, s, (enrolled _ _ _ _).2 (.inr ⟨rfl, rfl, rfl, rfl⟩)⟩
    · rw [bindings b' same] at e'
      obtain ⟨expression, ⟨scope, source, owner⟩, ⟨r, observer, watch⟩, ⟨s, heard⟩⟩ :=
        T.paired b' cell' e'
      exact ⟨expression, ⟨scope, source, (ownerOf_eq has scope p).trans owner⟩,
        ⟨r, observer, watches' r _ b' (own b' cell' e').2 watch⟩, ⟨s, (enrolled _ _ _ _).2 (.inl heard)⟩⟩
  · intro b₁ b₂ cell₁ cell₂ e₁ e₂ same
    by_cases same₁ : b₁ = b <;> by_cases same₂ : b₂ = b
    · exact same₁.trans same₂.symm
    · subst same₁
      rw [get] at e₁
      cases e₁
      rw [bindings b₂ same₂] at e₂
      exact absurd (same.symm.trans element) (own b₂ cell₂ e₂).2
    · subst same₂
      rw [get] at e₂
      cases e₂
      rw [bindings b₁ same₁] at e₁
      exact absurd (same.trans element) (own b₁ cell₁ e₁).2
    · rw [bindings b₁ same₁] at e₁
      rw [bindings b₂ same₂] at e₂
      exact T.apart b₁ b₂ cell₁ cell₂ e₁ e₂ same
  · intro s' o n sub heard
    rcases (enrolled s' o n sub).1 heard with heard | ⟨-, rfl, rfl, rfl⟩
    · obtain ⟨eo, en, b', rfl, there⟩ := T.only s' o n sub heard
      obtain ⟨cell', e'⟩ := Option.isSome_iff_exists.1 there
      refine ⟨eo, en, b', rfl, ?_⟩
      rw [Store.contains, bindings b' (own b' cell' e').1, e', Option.isSome_some]
    · exact ⟨rfl, rfl, b, rfl, Option.isSome_iff_exists.2 ⟨cell, get⟩⟩

variable {host : Host η} {rounds depth : Nat} {cut : Prop}

/-- Connecting the source of a binding makes the binding hear of it. -/
theorem connectBinding_spec (h : w.Wired) (live : w.objects.contains vm = true)
    (get : w.bindings.get? b = some cell) (expression : cell.expression = .name p) {scope : Scope}
    (source : cell.source = some scope) (unheard : cell.sourceSubscription = none)
    (owner : w.ownerOf scope p = .object vm) :
    (Run.connectBinding (machine host rounds (depth + 1)) b false).Ends cut w fun _ w' =>
      ∃ w₂ s observer, w.Follows w₂ s vm p (.source b) ∧ w' = w₂.modifyBinding b fun cell =>
        { cell with sourceObserver := some observer, sourceSubscription := some s } := by
  refine (connectBinding_follows h live get expression source owner).mono ?_
  rintro _ w' ⟨w₂, s, observer, follows, rfl⟩
  exact ⟨w₂, s, observer, follows, by rw [unheard]; rfl⟩

/-- Following the target of a binding makes its element tell the binding what it shows. -/
theorem subscribeTarget_spec (h : w.Wired) (get : w.bindings.get? b = some cell)
    (target : cell.targetObserver = .element r) (unheard : cell.targetSubscription = none)
    (idle : w.Idle r e) :
    (Run.subscribeTarget b).Ends cut w fun _ w' => ∃ s, w.Sides w' e b ∧
      w'.bindings.get? b = some { cell with targetSubscription := some s } ∧
        w'.elementGet e "value" = w.elementGet e "value" ∧ w'.Watches r e b := by
  obtain ⟨x, e', n, m, _, source, so, ss, _⟩ := cell
  subst target unheard
  obtain ⟨c, observer, -, -, -, handled, -⟩ := idle.observer
  obtain ⟨sides, bindings, shown, watches⟩ := subscribeElement_spec h idle b
  simp only [Run.subscribeTarget, Run.ends_bind, Run.ends_read, get, Run.subscribeLeaf, observer,
    handled, if_true, Run.ends_update, bindings, Run.ends_modify]
  refine ⟨(w.subscribeElement r (.target b)).1,
    sides.trans (sides_modifyBinding sides.spares.wired _ b _), ?_, shown,
    watches.of_eq rfl rfl rfl⟩
  simp [disposeOption, modifyBinding, bindings, get]

/-- Writing to an idle element tells nobody. -/
theorem writeLeaf_idle (idle : w.Idle r e) (v : Value) {env : Env η} :
    (Run.writeLeaf env (.element r) v).Ends cut w fun _ w' =>
      w' = (w.elementSet e "value" v).withSeen r v := by
  obtain ⟨c, observer, rfl, property, access, handled, silent, -⟩ := idle.observer
  have observer' : (w.elementSet c.element "value" v).elementProperties.get? r = some c := observer
  have live' : (w.elementSet c.element "value" v).elements.contains c.element = true :=
    (Store.contains_modify _ _ _ _).trans idle.live
  have newest : c.callbacks.newestFirst = [] := by
    simp [Listeners.newestFirst, Listeners.toList, silent]
  simp only [Run.writeLeaf, Run.writeElement, Run.ends_bind, Run.ends_read, observer, idle.live,
    if_true, access, property, Run.ends_modify, handled, Run.tellElement, observer', leafValue,
    readElement, live', elementGet_elementSet_self idle.live, Env.notify, newest, Env.announceAll,
    Run.ends_forEach_nil]
  rfl

/-- Starting a binding of an idle element. -/
theorem startBinding_spec (h : w.Wired) (live : w.objects.contains vm = true) {scope : Scope}
    (get : w.bindings.get? b = some { cell with source := some scope })
    (expression : cell.expression = .name p) (mode : cell.mode = .twoWay)
    (target : cell.targetObserver = .element r) (unheard : cell.sourceSubscription = none)
    (unheard' : cell.targetSubscription = none) (owner : w.ownerOf scope p = .object vm)
    (idle : w.Idle r e) :
    (Run.startBinding (machine host rounds (depth + 1)) b cell scope).Ends cut w fun _ w' =>
      ∃ w₁ w₂ s, w.Sides w₁ e b ∧ w₁.Follows w₂ s vm p (.source b) ∧ w₂.Sides w' e b ∧
        (∃ cell', w'.bindings.get? b = some cell' ∧ cell'.element = cell.element ∧
          cell'.expression = .name p ∧ cell'.source = some scope ∧
            cell'.targetObserver = .element r) ∧
          w'.elementGet e "value" = w.get vm p ∧ w'.Watches r e b := by
  obtain ⟨x, e', n, _, target, _, so, ss, ts⟩ := cell
  subst expression mode target unheard unheard'
  simp only [Run.startBinding, Mode.updatesTarget, if_true, Run.ends_bind, Expr.eval,
    Run.ends_read, lookup, owner, member]
  refine (writeLeaf_idle idle (w.get vm p)).mono fun _ w₁ same => ?_
  have wired' := (aside_elementSet w e "value" (w.get vm p)).wired h
  have sides : w.Sides w₁ e b := same ▸ (sides_elementSet h e b (w.get vm p)).trans
    (sides_withSeen wired' e b r (w.get vm p))
  have shows : w₁.elementGet e "value" = w.get vm p := by
    rw [same]
    exact elementGet_elementSet_self idle.live (w.get vm p)
  have idle₁ : w₁.Idle r e := same ▸ idle.shows (w.get vm p)
  have get₁ : w₁.bindings.get? b = some ⟨.name p, e', n, .twoWay, .element r, some scope, so, none,
    none⟩ := by
    rw [same]
    exact get
  clear same
  refine (connectBinding_spec sides.spares.wired ((sides.spares.contains vm).trans live) get₁ rfl
    rfl rfl ((ownerOf_eq sides.spares.has scope p).trans owner)).mono ?_
  rintro _ w₃ ⟨w₂, s, observer, follows, rfl⟩
  have backdrop := follows.still.backdrop
  have elements : w₂.elements = w₁.elements := congrArg Backdrop.elements backdrop
  have get₂ := (congrArg (Store.get? · b) (congrArg Backdrop.bindings backdrop)).trans get₁
  have sides₂ := sides_modifyBinding follows.wired e b fun cell =>
    { cell with sourceObserver := some observer, sourceSubscription := some s }
  refine (subscribeTarget_spec sides₂.spares.wired ((Store.get?_modify_self _ _ _).trans
    (congrArg _ get₂)) rfl rfl (idle₁.of_eq elements
      (congrArg Backdrop.elementProperties backdrop))).mono ?_
  rintro _ w' ⟨s', sides', get', shows', watches⟩
  refine ⟨w₁, w₂, s, sides, follows, sides₂.trans sides', ⟨_, get', rfl, rfl, rfl, rfl⟩, ?_,
    watches⟩
  rw [shows', ← shows]
  simp only [elementGet, modifyBinding, elements]

/-- **Binding one more element** makes it show the value of the source and ties it. -/
theorem bindTwoWay_spec (T : w.Ties vm p) (shown : w.Shown vm p) (blank : w.IsBlank e)
    (own : ∀ b cell, w.bindings.get? b = some cell → cell.element ≠ e)
    {scope : Scope} (owner : w.ownerOf scope p = .object vm) :
    (Run.bindTo (machine host rounds (depth + 1)) (w.newBinding e "value" (.name p) .twoWay).1
      scope).Ends cut (w.newBinding e "value" (.name p) .twoWay).2 fun _ w' =>
        w'.Ties vm p ∧ w'.Shown vm p ∧ w'.tasks.flushing = w.tasks.flushing ∧
          w'.bindings.contains w.bindings.next = true := by
  obtain ⟨size, made⟩ := newBinding_eq T.wired.toLocated blank T.observable (.name p)
  rw [made]
  have sides₁ := sides_withInput T.wired blank.live (.name p) size
  have sides₂ := sides_modifyBinding sides₁.spares.wired e w.bindings.next fun cell =>
    { cell with source := some scope }
  have sides := sides₁.trans sides₂
  have get : (w.withInput e (.name p) size).bindings.get? w.bindings.next = some
      { expression := .name p, element := e, property := "value", mode := .twoWay,
        targetObserver := .element w.elementProperties.next } := Store.get?_alloc_next _ _
  simp only [Run.bindTo, Run.ends_bind, Run.ends_read, get, Run.ends_modify, unbind,
    Option.isNone_none, if_true, Run.ends_pure]
  refine Run.ends_attempt ((startBinding_spec (e := e) (r := w.elementProperties.next)
    sides.spares.wired ((sides.spares.contains vm).trans T.live)
    ((Store.get?_modify_self _ _ _).trans (congrArg _ get)) rfl rfl rfl rfl rfl
    ((ownerOf_eq sides.spares.has scope p).trans owner) ?_).mono ?_)
  · obtain ⟨ec, there, -, -, unheard⟩ := blank.element
    exact ⟨⟨_, Store.get?_alloc_next _ _, rfl, rfl, rfl, rfl, rfl, rfl⟩, ec, there, unheard⟩
  rintro _ w' ⟨w₁, w₂, s, sides', follows, after, ⟨cell, get', element, expression, source, target⟩,
    shows, watches⟩
  have before := sides.trans sides'
  have still := follows.still
  refine ⟨T.join (fun b cell e' => ⟨Store.ne_next_of_get? e', own b cell e'⟩) before follows after
    get' element expression source owner target watches, ?_, ?_, ?_⟩
  · intro b cell' e'
    have value : w'.get vm p = w.get vm p := by
      rw [after.spares.get, still.get, before.spares.get]
    by_cases same : b = w.bindings.next
    · subst same
      rw [get'] at e'
      cases e'
      refine .inr ?_
      rw [element, shows, sides.spares.get, value]
      exact Value.agrees_self _
    · have bindings : w₂.bindings = w₁.bindings := congrArg Backdrop.bindings still.backdrop
      have elements : w₂.elements = w₁.elements := congrArg Backdrop.elements still.backdrop
      rw [after.bindings b same, bindings, before.bindings b same] at e'
      have other := own b cell' e'
      have show₂ : w₂.elementGet cell'.element "value" = w₁.elementGet cell'.element "value" := by
        simp only [elementGet, elements]
      rw [after.spares.due, still.due, before.spares.due, value, after.shown _ other, show₂,
        before.shown _ other]
      exact shown b cell' e'
  · rw [after.flushing, ← before.flushing]
    exact congrArg Backdrop.flushing still.backdrop
  · exact Option.isSome_iff_exists.2 ⟨cell, get'⟩

end

end World

end ViewBinding
