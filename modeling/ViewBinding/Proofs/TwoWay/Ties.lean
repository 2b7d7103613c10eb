import ViewBinding.Machine
import ViewBinding.Proofs.Leaf.Aside
import ViewBinding.Proofs.Leaf.Deliver
import ViewBinding.Proofs.Sameness

/-!
# TwoWay — bindings that tie elements to one property

`w.Ties vm p` says that every binding of `w` is bound and carries values both ways between the
property `p` of the object `vm` and the value of an element of its own.  A write to the property, a
value that an element shows and everything else that happens in between keep the ties.

`announce_source` is what a binding does when it learns that the source changed, and
`tellElement_spec` what it does when its element tells about an event.
-/

namespace ViewBinding

namespace World

variable {η : Type} {w w' : World η}

/-- An observer watches the value of an element for a binding. -/
structure Watches (w : World η) (r : Ref .elementProperty) (e : Ref .element) (b : Ref .binding) :
    Prop where
  observer : ∃ c, w.elementProperties.get? r = some c ∧ c.element = e ∧ c.property = "value" ∧
    c.access = .property ∧ c.handled = true ∧ c.callbacks.toList = [.target b]
  element : ∃ c, w.elements.get? e = some c ∧
    (∀ l ∈ c.eventListeners.toList, l.2 = .property r) ∧
      ∀ event ∈ w.config.observedEvents, (event, .property r) ∈ c.eventListeners.toList

/-- A binding is bound and carries values between a property and the value of its element. -/
structure Paired (w : World η) (vm : Ref .object) (p : String) (b : Ref .binding)
    (cell : BindingCell) : Prop where
  expression : cell.expression = .name p
  source : ∃ scope, cell.source = some scope ∧ w.ownerOf scope p = .object vm
  target : ∃ r, cell.targetObserver = .element r ∧ w.Watches r cell.element b
  heard : ∃ s, w.Enrolled s vm p (.source b)

/-- Every binding is tied to the property `p` of `vm`, each with an element of its own. -/
structure Ties (w : World η) (vm : Ref .object) (p : String) : Prop where
  wired : w.Wired
  observable : w.config.isObservable "value" = true
  live : w.objects.contains vm = true
  unfrozen : w.isFrozen vm = false
  present : w.has vm p = true
  plain : ¬ w.IsDoubled vm p
  paired : ∀ b cell, w.bindings.get? b = some cell → w.Paired vm p b cell
  apart : ∀ b b' cell cell', w.bindings.get? b = some cell → w.bindings.get? b' = some cell' →
    cell.element = cell'.element → b = b'
  only : ∀ s o n sub, w.Enrolled s o n sub →
    o = vm ∧ n = p ∧ ∃ b, sub = .source b ∧ w.bindings.contains b = true

/-- What has a part in the ties is as it was. -/
theorem Ties.carry {vm : Ref .object} {p : String} (T : w.Ties vm p) (wired : w'.Wired)
    (config : w'.config = w.config) (live : w'.objects.contains vm = true) (unfrozen : w'.isFrozen vm = false)
    (has : ∀ o n, w'.has o n = w.has o n) (plain : w'.IsDoubled vm p → w.IsDoubled vm p)
    (bindings : w'.bindings = w.bindings)
    (watches : ∀ r e b, w.Watches r e b → w'.Watches r e b)
    (enrolled : ∀ s o n sub, w'.Enrolled s o n sub ↔ w.Enrolled s o n sub) : w'.Ties vm p where
  wired := wired
  observable := config ▸ T.observable
  live := live
  unfrozen := unfrozen
  present := (has vm p).trans T.present
  plain doubled := T.plain (plain doubled)
  paired b cell e := by
    obtain ⟨expression, ⟨scope, source, owner⟩, ⟨r, observer, watched⟩, ⟨s, heard⟩⟩ :=
      T.paired b cell (bindings ▸ e)
    exact ⟨expression, ⟨scope, source, (ownerOf_eq has scope p).trans owner⟩,
      ⟨r, observer, watches r _ b watched⟩, ⟨s, (enrolled s _ _ _).2 heard⟩⟩
  apart b b' cell cell' e e' := T.apart b b' cell cell' (bindings ▸ e) (bindings ▸ e')
  only s o n sub h := by
    obtain ⟨eo, en, b, same, there⟩ := T.only s o n sub ((enrolled s o n sub).1 h)
    exact ⟨eo, en, b, same, bindings ▸ there⟩

/-- What concerns neither the properties of objects nor the elements keeps the ties. -/
theorem Ties.spares {vm : Ref .object} {p : String} (T : w.Ties vm p) (spares : w.Spares w')
    (bindings : w'.bindings = w.bindings)
    (watches : ∀ r e b, w.Watches r e b → w'.Watches r e b) : w'.Ties vm p :=
  T.carry spares.wired spares.config ((spares.contains vm).trans T.live) ((spares.isFrozen vm).trans T.unfrozen)
    spares.has (spares.doubled vm p).1 bindings watches spares.enrolled

theorem Watches.of_eq {r : Ref .elementProperty} {e : Ref .element} {b : Ref .binding}
    (h : w.Watches r e b) (config : w'.config = w.config) (elements : w'.elements = w.elements)
    (observers : w'.elementProperties = w.elementProperties) : w'.Watches r e b :=
  ⟨observers ▸ h.observer, config ▸ elements ▸ h.element⟩

/-! ### The value of an element -/

section
variable {e e' : Ref .element} {r : Ref .elementProperty} {b : Ref .binding} {v : Value}

theorem Watches.elementSet (h : w.Watches r e b) (e' : Ref .element) (n : String) (v : Value) :
    (w.elementSet e' n v).Watches r e b where
  observer := h.observer
  element := by
    obtain ⟨c, get, all, each⟩ := h.element
    have listeners := Store.map_get?_modify w.elements e' e (g := (·.eventListeners))
      (f := fun cell => { cell with properties := Entries.put n v cell.properties }) fun _ => rfl
    rw [get, Option.map_some, Option.map_eq_some_iff] at listeners
    obtain ⟨c', get', same⟩ := listeners
    exact ⟨c', get', same ▸ all, same ▸ each⟩

/-- A world in which an observer of an element has seen a value. -/
def withSeen (w : World η) (r : Ref .elementProperty) (v : Value) : World η :=
  w.modifyElementProperty r fun cell => { cell with old := v }

theorem aside_withSeen (w : World η) (r : Ref .elementProperty) (v : Value) :
    w.Aside (w.withSeen r v) :=
  ⟨rfl, rfl, rfl, rfl, rfl, rfl, rfl, rfl, rfl, Nat.le_refl _, rfl, rfl, id, id⟩

theorem Watches.withSeen (h : w.Watches r e b) (r' : Ref .elementProperty) (v : Value) :
    (w.withSeen r' v).Watches r e b where
  observer := by
    obtain ⟨c, get, facts⟩ := h.observer
    simp only [World.withSeen, modifyElementProperty, Store.get?_modify]
    split
    next same =>
      rw [← same, get]
      exact ⟨_, rfl, facts⟩
    · exact ⟨c, get, facts⟩
  element := h.element

theorem Watches.live (h : w.Watches r e b) : w.elements.contains e = true := by
  obtain ⟨c, get, -⟩ := h.element
  simp [Store.contains, get]

/-- The observer reads what its element shows. -/
theorem Watches.leafValue (h : w.Watches r e b) :
    w.leafValue (.element r) = w.elementGet e "value" := by
  obtain ⟨c, get, rfl, property, access, -⟩ := h.observer
  have := h.live
  simp only [World.leafValue, get, readElement, access, property, this, if_true]

end

/-! ### Writing the source -/

section
variable {vm : Ref .object} {p : String}

/-- **A write to the source** keeps the ties.  Unless it changes nothing it will be told. -/
theorem Ties.set (T : w.Ties vm p) (v : Value) :
    (w.set vm p v).Ties vm p ∧ w.Writes (w.set vm p v) vm p ∧
      (w.set vm p v = w ∧ (w.get vm p).same v = true ∨
        (w.get vm p).same v = false ∧ (w.set vm p v).get vm p = v ∧
          ∀ b, w.bindings.contains b = true → (w.set vm p v).Due vm p) := by
  obtain ⟨writes, result⟩ := set_spec T.wired T.live T.plain v
  have backdrop := writes.backdrop
  have has : ∀ o n, (w.set vm p v).has o n = w.has o n := by
    intro o n
    by_cases both : o = vm ∧ n = p
    · obtain ⟨rfl, rfl⟩ := both
      rcases result with ⟨same, -⟩ | ⟨-, -, -, has, -⟩
      · rw [same]
      · rw [has, T.present]
    · exact writes.has o n both
  refine ⟨T.carry writes.wired writes.config ((writes.contains vm).trans T.live)
    ((writes.isFrozen vm).trans T.unfrozen) has (writes.doubled vm p)
    (congrArg Backdrop.bindings backdrop) (fun r e b h => h.of_eq writes.config
      (congrArg Backdrop.elements backdrop) (congrArg Backdrop.elementProperties backdrop))
    fun _ _ _ _ => writes.toTunes.enrolled, writes, ?_⟩
  rcases result with ⟨same, frozen | unchanged⟩ | ⟨-, changed, get, -, tells⟩
  · rw [T.unfrozen] at frozen
    cases frozen
  · exact .inl ⟨same, unchanged⟩
  · refine .inr ⟨changed T.present, get, fun b there => ?_⟩
    obtain ⟨cell, e⟩ := Option.isSome_iff_exists.1 there
    obtain ⟨s, -, l, t, -, at', m⟩ := (T.paired b cell e).heard
    exact tells l at' (List.ne_nil_of_mem m)

/-! ### Reactions -/

variable {host : Host η} {rounds depth : Nat} {cut : Prop} {b : Ref .binding} {cell : BindingCell}

/-- A binding assigns what its element shows to the source. -/
theorem announce_target (T : w.Ties vm p) (e : w.bindings.get? b = some cell) (v old : Value)
    {post : Unit → World η → Prop} (h : post () (w.set vm p v)) :
    ((machine host rounds (depth + 1)).announce (.target b) v old).Ends cut w post := by
  obtain ⟨expression, ⟨scope, source, owner⟩, -, -⟩ := T.paired b cell e
  obtain ⟨_, element, property, mode, observer, _, so, ss, ts⟩ := cell
  subst expression source
  refine Run.ends_ignoreFailure (x := Run.updateSource _ b v) ?_
  simp only [Run.updateSource, Run.ends_bind, Run.ends_read, e, Run.ends_discard, Expr.assignTo,
    owner, Run.assignMember, Run.ends_modify]
  exact h

/-- **An element tells** what it shows, and the binding assigns it. -/
theorem tellElement_spec {r : Ref .elementProperty} (T : w.Ties vm p)
    (e : w.bindings.get? b = some cell) (watches : w.Watches r cell.element b)
    {post : Unit → World η → Prop}
    (h : post () ((w.withSeen r (w.elementGet cell.element "value")).set vm p
      (w.elementGet cell.element "value"))) :
    (Run.tellElement (machine host rounds (depth + 1)) r).Ends cut w post := by
  obtain ⟨c, get, -, -, -, -, callbacks⟩ := watches.observer
  have seen : (w.withSeen r (w.elementGet cell.element "value")).Ties vm p :=
    T.spares ((aside_withSeen w r _).spares T.wired) rfl fun _ _ _ h => h.withSeen r _
  have newest : c.callbacks.newestFirst = [.target b] := by
    simp only [Listeners.newestFirst, callbacks, List.reverse_singleton]
  simp only [Run.tellElement, Run.ends_bind, Run.ends_read, get, watches.leafValue,
    Run.ends_modify, Env.notify, newest, Env.announceAll, Run.ends_forEach_cons,
    Run.ends_forEach_nil]
  exact announce_target seen e _ _ h

/-- `w'` is `w` after the binding of an element has learned that the source has the value `x`. -/
structure Answers (w w' : World η) (vm : Ref .object) (p : String) (cell : BindingCell)
    (x : Value) : Prop where
  ties : w'.Ties vm p
  get : w'.get vm p = x
  shown : x.Agrees (w'.elementGet cell.element "value")
  others : ∀ e, e ≠ cell.element → w'.elementGet e "value" = w.elementGet e "value"
  bindings : w'.bindings = w.bindings
  place? : ∀ l, w'.place? l = w.place? l
  audience : ∀ l, w'.audience l = w.audience l
  due : w.Due vm p → w'.Due vm p
  quiet : ¬ x.IsNaN → w'.tasks.microtasks = w.tasks.microtasks
  restless : x.IsNaN → w'.Due vm p

/-- **A binding learns that the source changed.**  Its element shows the value afterwards.  The
assignment that follows changes nothing, unless the value is not the same as itself. -/
theorem announce_source (T : w.Ties vm p) (e : w.bindings.get? b = some cell) {x : Value}
    (current : w.get vm p = x) (old : Value) :
    ((machine host rounds (depth + 2)).announce (.source b) x old).Ends cut w fun _ w' =>
      w.Answers w' vm p cell x := by
  obtain ⟨-, ⟨scope, source, -⟩, ⟨r, observer, watches⟩, -⟩ := T.paired b cell e
  obtain ⟨c, get, element, property, access, handled, -⟩ := watches.observer
  change (Run.sourceChanged (machine host rounds (depth + 1)) b x).Ends cut w _
  obtain ⟨_, el, _, _, _, _, _, _, _⟩ := cell
  subst source observer
  simp only [Run.sourceChanged, Run.ends_bind, Run.ends_read, e, watches.leafValue]
  by_cases same : x.same (w.elementGet el "value") = true
  · rw [if_pos same]
    exact ⟨T, current, .inl same, fun _ _ => rfl, rfl, fun _ => rfl, fun _ => rfl, id, fun _ => rfl,
      fun nan => absurd (Value.same_self same) (by simp [Value.IsNaN] at nan; simp [nan])⟩
  · rw [if_neg same]
    refine Run.ends_ignoreFailure ?_
    simp only [Run.updateTarget, Run.ends_bind, Run.ends_read, e, Run.writeLeaf, Run.writeElement,
      get, element, watches.live, if_true, access, property, Run.ends_modify, handled]
    have live := watches.live
    have aside := aside_elementSet w el "value" x
    have shown : (w.elementSet el "value" x).Ties vm p :=
      T.spares (aside.spares T.wired) rfl fun _ _ _ h => h.elementSet el _ x
    refine tellElement_spec shown e (watches.elementSet el _ x) ?_
    rw [elementGet_elementSet_self live]
    -- what the element shows is assigned to the source
    have aside' := aside.trans (aside_withSeen (w.elementSet el "value" x) r x)
    have seen : ((w.elementSet el "value" x).withSeen r x).Ties vm p :=
      shown.spares ((aside_withSeen _ r _).spares shown.wired) rfl fun _ _ _ h => h.withSeen r _
    obtain ⟨ties, writes, result⟩ := seen.set x
    rw [aside'.get, current] at result
    have elements : ∀ e, (((w.elementSet el "value" x).withSeen r x).set vm p x).elementGet e "value"
        = (w.elementSet el "value" x).elementGet e "value" := fun e => by
      have : (((w.elementSet el "value" x).withSeen r x).set vm p x).elements = _ :=
        congrArg Backdrop.elements writes.backdrop
      simp only [elementGet, this]
      rfl
    refine ⟨ties, ?_, ?_, fun e' ne => ?_, congrArg Backdrop.bindings writes.backdrop, fun l => ?_,
      fun l => ?_, fun due => ?_, fun number => ?_, fun nan => ?_⟩
    · rcases result with ⟨same, -⟩ | ⟨-, get, -⟩
      · rw [same, aside'.get, current]
      · exact get
    · rw [elements, elementGet_elementSet_self live]
      exact Value.agrees_self x
    · rw [elements, elementGet_elementSet_of_ne _ _ _ ne]
    · exact (writes.place? l).trans (aside'.place? l)
    · exact (writes.audience l).trans (aside'.audience l)
    · exact writes.due vm p ((aside'.due vm p).2 due)
    · rcases result with ⟨same, -⟩ | ⟨other, -⟩
      · rw [same]
        exact aside'.microtasks
      · exact absurd other number
    · rcases result with ⟨-, same⟩ | ⟨-, -, due⟩
      · exact absurd same (by simp [Value.IsNaN] at nan; simp [nan])
      · exact due b (Option.isSome_iff_exists.2 ⟨_, e⟩)

end

end World

end ViewBinding
