import ViewBinding.Proofs.Follow
import ViewBinding.Proofs.Leaf.Aside
import ViewBinding.Proofs.Leaf.Deliver
import ViewBinding.Proofs.Sameness

/-!
# OneWay — bindings that feed elements

Bindings of one name `p` are bound, each to a scope in which the name means the property of one of
the objects `sources`, and write what it holds to a property of an element of their own.

`w.Feeds` says how such a world is wired: whoever hears of a change is a bound binding, by the one
subscription that it keeps.  `w.Turns w' b e` says that only the binding `b` of the element `e` has
been turned to another source, or away from one, and `Feeds.turn` that the others still feed their
elements then.
-/

namespace ViewBinding

namespace World

variable {η : Type} {w w' w'' : World η} {sources : Ref .object → Prop} {p : String}
  {scope : Scope} {vm o : Ref .object} {b : Ref .binding} {e : Ref .element} {cell : BindingCell}

/-! ### Sources -/

/-- In the scope the name means the property of an object: the scope has one level, whose locals do
not have the name. -/
structure Reads (w : World η) (sources : Ref .object → Prop) (p : String) (scope : Scope)
    (vm : Ref .object) : Prop where
  source : sources vm
  root : ∃ locals, scope = .root ⟨.object vm, locals⟩ ∧ w.has locals p = false ∧ ¬ sources locals

theorem Reads.ownerOf (h : w.Reads sources p scope vm) : w.ownerOf scope p = .object vm := by
  obtain ⟨locals, rfl, absent, -⟩ := h.root
  simp only [World.ownerOf, Scope.root, Scope.levels, List.findSome?_cons, List.findSome?_nil,
    levelOwner?, absent, Bool.false_eq_true, if_false]
  cases w.has vm p <;> rfl

theorem Reads.unique (h : w.Reads sources p scope vm) (h' : w'.Reads sources p scope o) :
    vm = o := by
  obtain ⟨locals, rfl, -⟩ := h.root
  obtain ⟨locals', same, -⟩ := h'.root
  cases same
  rfl

/-- What a name means does not change while only sources get the property. -/
theorem Reads.carry (h : w.Reads sources p scope vm)
    (has : ∀ o n, ¬ (sources o ∧ n = p) → w'.has o n = w.has o n) :
    w'.Reads sources p scope vm := by
  obtain ⟨source, locals, root, absent, other⟩ := h
  exact ⟨source, locals, root, (has locals p fun h => other h.1).trans absent, other⟩

/-! ### Bindings -/

/-- A binding writes a name to a property of its element that events do not tell about. -/
structure Feeder (w : World η) (p : String) (cell : BindingCell) : Prop where
  expression : cell.expression = .name p
  mode : cell.mode = .toView
  alone : cell.targetSubscription = none
  live : w.elements.contains cell.element = true
  target : ∃ r c, cell.targetObserver = .element r ∧ w.elementProperties.get? r = some c ∧
    c.element = cell.element ∧ c.property = cell.property ∧ c.access = .property ∧ c.handled = false

theorem Feeder.carry (rig : w.Feeder p cell) (observers : w'.elementProperties = w.elementProperties)
    (live : ∀ e, w'.elements.contains e = w.elements.contains e) : w'.Feeder p cell :=
  ⟨rig.expression, rig.mode, rig.alone, (live _).trans rig.live, observers ▸ rig.target⟩

/-- A binding is bound to a scope or to none, and what it keeps makes it hear of the property that
the name means there. -/
structure Rigged (w : World η) (sources : Ref .object → Prop) (p : String) (b : Ref .binding)
    (cell : BindingCell) : Prop extends Feeder w p cell where
  reads : ∀ scope, cell.source = some scope → ∃ vm, w.Reads sources p scope vm
  linked : ∀ s, cell.sourceSubscription = some s → ∃ scope vm, cell.source = some scope ∧
    w.Reads sources p scope vm ∧ w.Enrolled s vm p (.source b)

/-- Every binding feeds an element of its own from a source, or rests. -/
structure Feeds (w : World η) (sources : Ref .object → Prop) (p : String) : Prop where
  wired : w.Wired
  live : ∀ vm, sources vm → w.objects.contains vm = true
  unfrozen : ∀ vm, sources vm → w.isFrozen vm = false
  plain : ∀ vm, sources vm → ¬ w.IsDoubled vm p
  rigged : ∀ b cell, w.bindings.get? b = some cell → w.Rigged sources p b cell
  apart : ∀ b b' cell cell', w.bindings.get? b = some cell → w.bindings.get? b' = some cell' →
    cell.element = cell'.element → b = b'
  only : ∀ s o n sub, w.Enrolled s o n sub → ∃ b cell scope, sub = .source b ∧ n = p ∧
    w.bindings.get? b = some cell ∧ cell.sourceSubscription = some s ∧ cell.source = some scope ∧
      w.Reads sources p scope o

/-- What has a part in feeding is as it was. -/
theorem Feeds.carry (F : w.Feeds sources p) (wired : w'.Wired)
    (live : ∀ o, w'.objects.contains o = w.objects.contains o)
    (unfrozen : ∀ o, w'.isFrozen o = w.isFrozen o)
    (plain : ∀ o n, w'.IsDoubled o n → w.IsDoubled o n)
    (has : ∀ o n, ¬ (sources o ∧ n = p) → w'.has o n = w.has o n)
    (bindings : w'.bindings = w.bindings)
    (observers : w'.elementProperties = w.elementProperties)
    (elements : ∀ e, w'.elements.contains e = w.elements.contains e)
    (enrolled : ∀ s o n sub, w'.Enrolled s o n sub ↔ w.Enrolled s o n sub) :
    w'.Feeds sources p where
  wired := wired
  live vm h := (live vm).trans (F.live vm h)
  unfrozen vm h := (unfrozen vm).trans (F.unfrozen vm h)
  plain vm h doubled := F.plain vm h (plain vm p doubled)
  rigged b cell get := by
    obtain ⟨rig, reads, linked⟩ := F.rigged b cell (bindings ▸ get)
    refine ⟨rig.carry observers elements, fun scope source => ?_, fun s keeps => ?_⟩
    · obtain ⟨vm, reads⟩ := reads scope source
      exact ⟨vm, reads.carry has⟩
    · obtain ⟨scope, vm, source, reads, heard⟩ := linked s keeps
      exact ⟨scope, vm, source, reads.carry has, (enrolled s _ _ _).2 heard⟩
  apart b b' cell cell' get get' := F.apart b b' cell cell' (bindings ▸ get) (bindings ▸ get')
  only s o n sub heard := by
    obtain ⟨b, cell, scope, rfl, rfl, get, keeps, source, reads⟩ :=
      F.only s o n sub ((enrolled s o n sub).1 heard)
    exact ⟨b, cell, scope, rfl, rfl, bindings ▸ get, keeps, source, reads.carry has⟩

/-- What does not concern the properties of objects. -/
theorem Feeds.spares (F : w.Feeds sources p) (spares : w.Spares w')
    (bindings : w'.bindings = w.bindings)
    (observers : w'.elementProperties = w.elementProperties)
    (elements : ∀ e, w'.elements.contains e = w.elements.contains e) : w'.Feeds sources p :=
  F.carry spares.wired spares.contains spares.isFrozen (fun o n => (spares.doubled o n).1)
    (fun o n _ => spares.has o n) bindings observers elements spares.enrolled

theorem Feeds.elementSet (F : w.Feeds sources p) (e : Ref .element) (n : String) (v : Value) :
    (w.elementSet e n v).Feeds sources p :=
  F.spares ((aside_elementSet w e n v).spares F.wired) rfl rfl (contains_elementSet w e · n v)

/-! ### Turning one binding -/

/-- `w'` is `w` but for the binding `b`, what it hears of, and what its element `e` shows. -/
structure Turns (w w' : World η) (sources : Ref .object → Prop) (p : String) (b : Ref .binding)
    (e : Ref .element) : Prop where
  wired : w'.Wired
  contains : ∀ o, w'.objects.contains o = w.objects.contains o
  isFrozen : ∀ o, w'.isFrozen o = w.isFrozen o
  doubled : ∀ o n, w'.IsDoubled o n → w.IsDoubled o n
  has : ∀ o n, ¬ (sources o ∧ n = p) → w'.has o n = w.has o n
  get : ∀ o n, w'.get o n = w.get o n
  due : ∀ o n, w'.Due o n ↔ w.Due o n
  observers : w'.elementProperties = w.elementProperties
  live : ∀ e', w'.elements.contains e' = w.elements.contains e'
  shown : ∀ e', e' ≠ e → ∀ n, w'.elementGet e' n = w.elementGet e' n
  bindings : ∀ b', b' ≠ b → w'.bindings.get? b' = w.bindings.get? b'
  enrolled : ∀ s o n sub, sub ≠ .source b → (w'.Enrolled s o n sub ↔ w.Enrolled s o n sub)
  microtasks : w'.tasks.microtasks = w.tasks.microtasks
  flushing : w'.tasks.flushing = w.tasks.flushing

theorem Turns.trans (h : w.Turns w' sources p b e) (h' : w'.Turns w'' sources p b e) :
    w.Turns w'' sources p b e where
  wired := h'.wired
  contains o := (h'.contains o).trans (h.contains o)
  isFrozen o := (h'.isFrozen o).trans (h.isFrozen o)
  doubled o n e := h.doubled o n (h'.doubled o n e)
  has o n other := (h'.has o n other).trans (h.has o n other)
  get o n := (h'.get o n).trans (h.get o n)
  due o n := (h'.due o n).trans (h.due o n)
  observers := h'.observers.trans h.observers
  live e := (h'.live e).trans (h.live e)
  shown e other n := (h'.shown e other n).trans (h.shown e other n)
  bindings b other := (h'.bindings b other).trans (h.bindings b other)
  enrolled s o n sub other := (h'.enrolled s o n sub other).trans (h.enrolled s o n sub other)
  microtasks := h'.microtasks.trans h.microtasks
  flushing := h'.flushing.trans h.flushing

theorem Turns.refl (h : w.Wired) : w.Turns w sources p b e :=
  ⟨h, fun _ => rfl, fun _ => rfl, fun _ _ e => e, fun _ _ _ => rfl, fun _ _ => rfl,
    fun _ _ => Iff.rfl, rfl, fun _ => rfl, fun _ _ _ => rfl, fun _ _ => rfl,
    fun _ _ _ _ _ => Iff.rfl, rfl, rfl⟩

/-- What concerns the binding or its element only. -/
theorem Spares.turns (spares : w.Spares w') (observers : w'.elementProperties = w.elementProperties)
    (live : ∀ e', w'.elements.contains e' = w.elements.contains e')
    (shown : ∀ e', e' ≠ e → ∀ n, w'.elementGet e' n = w.elementGet e' n)
    (bindings : ∀ b', b' ≠ b → w'.bindings.get? b' = w.bindings.get? b')
    (flushing : w'.tasks.flushing = w.tasks.flushing) :
    w.Turns w' sources p b e where
  wired := spares.wired
  contains := spares.contains
  isFrozen := spares.isFrozen
  doubled o n := (spares.doubled o n).1
  has o n _ := spares.has o n
  get := spares.get
  due := spares.due
  observers := observers
  live := live
  shown := shown
  bindings := bindings
  enrolled s o n sub _ := spares.enrolled s o n sub
  microtasks := spares.microtasks
  flushing := flushing

theorem turns_elementSet (h : w.Wired) (e : Ref .element) (n : String) (v : Value) :
    w.Turns (w.elementSet e n v) sources p b e :=
  ((aside_elementSet w e n v).spares h).turns rfl (contains_elementSet w e · n v)
    (fun _ other n' => elementGet_elementSet_of_ne n n' v other) (fun _ _ => rfl) rfl

theorem spares_modifyBinding (h : w.Wired) (b : Ref .binding) (f : BindingCell → BindingCell) :
    w.Spares (w.modifyBinding b f) := by
  have aside : w.Aside (w.modifyBinding b f) :=
    ⟨rfl, rfl, rfl, rfl, rfl, rfl, rfl, rfl, rfl, Nat.le_refl _, rfl, rfl, id, id⟩
  exact aside.spares h

theorem turns_modifyBinding (h : w.Wired) (f : BindingCell → BindingCell) :
    w.Turns (w.modifyBinding b f) sources p b e :=
  (spares_modifyBinding h b f).turns rfl (fun _ => rfl) (fun _ _ _ => rfl)
    (fun _ other => Store.get?_modify_of_ne f other) rfl

/-- Where the backdrop is the same, elements and bindings are. -/
theorem Keeps.turns (keeps : w.Keeps w')
    (has : ∀ o n, ¬ (sources o ∧ n = p) → w'.has o n = w.has o n)
    (enrolled : ∀ s o n sub, sub ≠ .source b → (w'.Enrolled s o n sub ↔ w.Enrolled s o n sub)) :
    w.Turns w' sources p b e := by
  have backdrop := keeps.still.backdrop
  have elements : w'.elements = w.elements := congrArg Backdrop.elements backdrop
  exact ⟨keeps.wired, keeps.still.contains, keeps.still.isFrozen, keeps.still.doubled, has,
    keeps.still.get, keeps.still.due, congrArg Backdrop.elementProperties backdrop,
    fun e => by rw [elements], fun e _ n => by simp only [elementGet, elements],
    fun b _ => by rw [show w'.bindings = w.bindings from congrArg Backdrop.bindings backdrop],
    enrolled, congrArg Backdrop.microtasks backdrop, congrArg Backdrop.flushing backdrop⟩

/-- A subscription of the binding with a source. -/
theorem Follows.turns {s : Ref .subscription} (follows : w.Follows w' s vm p (.source b))
    (source : sources vm) : w.Turns w' sources p b e :=
  follows.toKeeps.turns
    (fun o n other => Bool.eq_iff_iff.2 ⟨fun there => by
      rcases follows.hadOr o n there with had | ⟨-, rfl, rfl⟩
      · exact had
      · exact absurd ⟨source, rfl⟩ other, follows.has o n⟩)
    fun s' o n sub other => (follows.enrolled_iff s' o n sub).trans
      (or_iff_left fun h => other h.2.2.2)

/-- A subscription of the binding less. -/
theorem Drops.turns {s : Ref .subscription} (drops : w.Drops w' s)
    (heard : ∀ o n sub, w.Enrolled s o n sub → sub = .source b) : w.Turns w' sources p b e := by
  have backdrop := drops.still.backdrop
  have elements : w'.elements = w.elements := congrArg Backdrop.elements backdrop
  refine ⟨drops.wired, drops.still.contains, drops.still.isFrozen, drops.still.doubled,
    fun o n _ => drops.has o n,
    drops.still.get, drops.still.due, congrArg Backdrop.elementProperties backdrop,
    fun e => by rw [elements], fun e _ n => by simp only [elementGet, elements],
    fun b _ => by rw [show w'.bindings = w.bindings from congrArg Backdrop.bindings backdrop],
    fun s' o n sub other => (drops.enrolled_iff s' o n sub).trans (and_iff_left_of_imp ?_),
    congrArg Backdrop.microtasks backdrop, congrArg Backdrop.flushing backdrop⟩
  rintro enrolled rfl
  exact other (heard o n sub enrolled)

/-- **The others still feed their elements** after one binding has been turned. -/
theorem Feeds.turn (F : w.Feeds sources p) (turns : w.Turns w' sources p b e)
    {old new : BindingCell} (get : w.bindings.get? b = some old)
    (get' : w'.bindings.get? b = some new) (element : new.element = old.element)
    (rigged : w'.Rigged sources p b new)
    (only : ∀ s o n, w'.Enrolled s o n (.source b) → ∃ scope, n = p ∧
      new.sourceSubscription = some s ∧ new.source = some scope ∧ w'.Reads sources p scope o) :
    w'.Feeds sources p where
  wired := turns.wired
  live vm h := (turns.contains vm).trans (F.live vm h)
  unfrozen vm h := (turns.isFrozen vm).trans (F.unfrozen vm h)
  plain vm h doubled := F.plain vm h (turns.doubled vm p doubled)
  rigged b' cell there := by
    by_cases same : b' = b
    · subst same
      rw [get'] at there
      cases there
      exact rigged
    · rw [turns.bindings b' same] at there
      obtain ⟨rig, reads, linked⟩ := F.rigged b' cell there
      refine ⟨rig.carry turns.observers turns.live, fun scope source => ?_, fun s keeps => ?_⟩
      · obtain ⟨vm, reads⟩ := reads scope source
        exact ⟨vm, reads.carry turns.has⟩
      · obtain ⟨scope, vm, source, reads, heard⟩ := linked s keeps
        exact ⟨scope, vm, source, reads.carry turns.has,
          (turns.enrolled s _ _ _ fun h => same (Subscriber.source.inj h)).2 heard⟩
  apart b₁ b₂ cell₁ cell₂ e₁ e₂ same := by
    have before : ∀ b' cell, w'.bindings.get? b' = some cell →
        ∃ cell', w.bindings.get? b' = some cell' ∧ cell'.element = cell.element := by
      intro b' cell there
      by_cases is : b' = b
      · subst is
        rw [get'] at there
        cases there
        exact ⟨old, get, element.symm⟩
      · exact ⟨cell, turns.bindings b' is ▸ there, rfl⟩
    obtain ⟨cell₁', there₁, same₁⟩ := before b₁ cell₁ e₁
    obtain ⟨cell₂', there₂, same₂⟩ := before b₂ cell₂ e₂
    exact F.apart b₁ b₂ cell₁' cell₂' there₁ there₂ (same₁.trans (same.trans same₂.symm))
  only s o n sub heard := by
    by_cases is : sub = .source b
    · subst is
      obtain ⟨scope, name, keeps, source, reads⟩ := only s o n heard
      exact ⟨b, new, scope, rfl, name, get', keeps, source, reads⟩
    · obtain ⟨b', cell, scope, rfl, rfl, there, keeps, source, reads⟩ :=
        F.only s o n sub ((turns.enrolled s o n sub is).1 heard)
      have other : b' ≠ b := fun same => is (congrArg Subscriber.source same)
      exact ⟨b', cell, scope, rfl, rfl, (turns.bindings b' other).trans there, keeps, source,
        reads.carry turns.has⟩

end World

end ViewBinding
