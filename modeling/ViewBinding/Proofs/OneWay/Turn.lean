import ViewBinding.Proofs.Ends
import ViewBinding.Proofs.OneWay.Feeds

/-!
# OneWay — turning a binding

Connecting a bound binding, binding it to a scope and unbinding it turn this binding and no other
(`Turned`).  A binding that is connected shows what its source has; one that has just been bound may
have to wait to be connected (`Serves`).
-/

namespace ViewBinding

namespace World

variable {η : Type} {w w' w'' : World η} {sources : Ref .object → Prop} {p : String} {scope : Scope}
  {vm : Ref .object} {b b' : Ref .binding} {e : Ref .element} {cell : BindingCell}

/-- The element of a binding shows what the source has, or a change of the source is due. -/
def Shows (w : World η) (p : String) (vm : Ref .object) (cell : BindingCell) : Prop :=
  w.Due vm p ∨ (w.get vm p).Agrees (w.elementGet cell.element cell.property)

/-- If the binding is bound then it waits to be connected, or its element shows the source. -/
def Serves (w : World η) (sources : Ref .object → Prop) (p : String) (b : Ref .binding) : Prop :=
  ∀ cell scope vm, w.bindings.get? b = some cell → cell.source = some scope →
    w.Reads sources p scope vm → cell.sourceSubscription = none ∧ b ∈ w.connects.queue ∨
      cell.sourceSubscription ≠ none ∧ w.Shows p vm cell

/-- A binding bound to another source, or to none, that keeps another subscription. -/
def link (cell : BindingCell) (source : Option Scope) (observer : Option Observer)
    (s : Option (Ref .subscription)) : BindingCell :=
  { cell with source := source, sourceObserver := observer, sourceSubscription := s }

theorem Feeder.link (rig : w.Feeder p cell) (source : Option Scope) (observer : Option Observer)
    (s : Option (Ref .subscription)) : w.Feeder p (link cell source observer s) :=
  ⟨rig.expression, rig.mode, rig.alone, rig.live, rig.target⟩

/-- The element of a binding shows what it showed, or what the source has to which the binding is
turned. -/
def Renews (w w' : World η) (sources : Ref .object → Prop) (p : String) (cell : BindingCell)
    (source : Option Scope) : Prop :=
  w'.elementGet cell.element cell.property = w.elementGet cell.element cell.property ∨
    ∃ scope vm, source = some scope ∧ w.Reads sources p scope vm ∧
      w'.elementGet cell.element cell.property = w.get vm p

theorem Renews.of_elements {source : Option Scope} (same : w'.elements = w.elements) :
    w.Renews w' sources p cell source := .inl (by simp only [elementGet, same])

/-- One step after the other.  The first one turns the binding away, or to where the second does. -/
theorem Renews.trans {source source' : Option Scope} (h : w.Renews w' sources p cell source)
    (h' : w'.Renews w'' sources p cell source') (leads : source = none ∨ source = source')
    (has : ∀ o n, ¬ (sources o ∧ n = p) → w'.has o n = w.has o n)
    (get : ∀ o n, w'.get o n = w.get o n) : w.Renews w'' sources p cell source' := by
  rcases h' with same | ⟨scope, vm, turned, reads, shows⟩
  · rcases h with was | ⟨scope, vm, rfl, reads, shows⟩
    · exact .inl (same.trans was)
    · exact .inr ⟨scope, vm, (leads.resolve_left nofun).symm, reads, same.trans shows⟩
  · exact .inr ⟨scope, vm, turned, reads.carry fun o n other => (has o n other).symm,
      shows.trans (get vm p)⟩

/-- A binding and its subscription have been turned to another source, or to none. -/
structure Turned (w w' : World η) (sources : Ref .object → Prop) (p : String) (b : Ref .binding)
    (cell : BindingCell) (source : Option Scope) : Prop where
  turns : w.Turns w' sources p b cell.element
  feeds : w'.Feeds sources p
  renews : w.Renews w' sources p cell source
  cell : ∃ observer s, w'.bindings.get? b = some (link cell source observer s)

theorem Turns.serves (F : w.Feeds sources p) (turns : w.Turns w' sources p b cell.element)
    (get : w.bindings.get? b = some cell) (queue : ∀ b' ∈ w.connects.queue, b' ∈ w'.connects.queue)
    (other : b' ≠ b) (h : w.Serves sources p b') : w'.Serves sources p b' := by
  intro cell' scope vm get' source reads
  rw [turns.bindings b' other] at get'
  have apart : cell'.element ≠ cell.element := fun same => other (F.apart b' b cell' cell get' get same)
  have reads := reads.carry fun o n h => (turns.has o n h).symm
  rw [Shows, turns.due, turns.get, turns.shown _ apart]
  exact (h cell' scope vm get' source reads).imp_left fun waits => ⟨waits.1, queue b' waits.2⟩

/-! ### Writing the target -/

/-- **Writing the target** of a binding sets the property of its element. -/
theorem Feeder.writeLeaf {env : Env η} {cut : Prop} (rig : w.Feeder p cell) (v : Value) :
    (Run.writeLeaf env cell.targetObserver v).Ends cut w fun _ w' =>
      w' = w.elementSet cell.element cell.property v := by
  obtain ⟨r, c, observer, get, element, property, access, handled⟩ := rig.target
  simp only [observer, Run.writeLeaf, Run.writeElement, Run.ends_bind, Run.ends_read, get, element,
    rig.live, if_true, access, Run.ends_modify, handled, Bool.false_eq_true, if_false,
    Run.ends_pure, property]

/-- In a scope that reads a source the name has the value of the source. -/
theorem Reads.eval {env : Env η} {converters : Converters} {cut : Prop}
    (reads : w.Reads sources p scope vm) :
    (Expr.eval env converters scope (.name p)).Ends cut w fun v w' => v = w.get vm p ∧ w' = w := by
  simp only [Expr.eval, Run.ends_read, lookup, reads.ownerOf, member, and_self]

/-! ### Ending a subscription -/

/-- Disposing what a binding kept ends that enrolment of the binding. -/
theorem turns_disposeOption (sources : Ref .object → Prop) (p : String) (e : Ref .element)
    {s : Option (Ref .subscription)} (h : w.Wired)
    (heard : ∀ s', s = some s' → ∃ o n, w.Enrolled s' o n (.source b)) :
    w.Turns (w.disposeOption s) sources p b e ∧ (w.disposeOption s).bindings = w.bindings ∧
      (w.disposeOption s).elements = w.elements ∧ (w.disposeOption s).connects = w.connects ∧
      ∀ s' o n sub, (w.disposeOption s).Enrolled s' o n sub ↔ w.Enrolled s' o n sub ∧ s ≠ some s' := by
  cases s with
  | none => exact ⟨.refl h, rfl, rfl, rfl, fun _ _ _ _ => (and_iff_left nofun).symm⟩
  | some s =>
    obtain ⟨o, n, enrolled⟩ := heard s rfl
    have drops := enrolled.drops h
    refine ⟨drops.turns fun o' n' sub e => e.subscriber h.toRegistered enrolled,
      congrArg Backdrop.bindings drops.still.backdrop,
      congrArg Backdrop.elements drops.still.backdrop,
      congrArg Backdrop.connects drops.still.backdrop, fun s' o n sub => ?_⟩
    rw [disposeOption, drops.enrolled_iff]
    exact and_congr_right fun _ => ⟨fun ne same => ne (Option.some.inj same).symm,
      fun ne same => ne (congrArg some same.symm)⟩

/-- What a binding keeps makes it hear of its source, and nothing else does. -/
theorem Feeds.keeps (F : w.Feeds sources p) (get : w.bindings.get? b = some cell)
    {s : Ref .subscription} {o : Ref .object} {n : String} (heard : w.Enrolled s o n (.source b)) :
    cell.sourceSubscription = some s := by
  obtain ⟨b', cell', -, is, -, get', keeps, -⟩ := F.only s o n _ heard
  cases is
  rw [get] at get'
  cases get'
  exact keeps

/-- **Unbinding a binding.** -/
theorem Feeds.unbind (F : w.Feeds sources p) (get : w.bindings.get? b = some cell) :
    w.Turned (w.unbind b) sources p b cell none ∧ (w.unbind b).connects = w.connects ∧
      ∃ observer, (w.unbind b).bindings.get? b = some (link cell none observer none) := by
  obtain ⟨rig, reads, linked⟩ := F.rigged b cell get
  cases bound : cell.source with
  | none =>
    have same : w.unbind b = w := by simp [World.unbind, get, bound]
    have free : cell.sourceSubscription = none := by
      cases keeps : cell.sourceSubscription with
      | none => rfl
      | some s =>
        obtain ⟨scope, -, source, -⟩ := linked s keeps
        rw [bound] at source
        cases source
    have idle : w.bindings.get? b = some (link cell none cell.sourceObserver none) := by
      rw [get, link, ← bound, ← free]
    rw [same]
    exact ⟨⟨.refl F.wired, F, .inl rfl, _, _, idle⟩, rfl, _, idle⟩
  | some scope =>
    let free (cell : BindingCell) : BindingCell :=
      { cell with
        source := none, sourceObserver := none, sourceSubscription := none,
        targetSubscription := none }
    obtain ⟨r, -, target, -⟩ := rig.target
    have same : w.unbind b = (w.modifyBinding b free).disposeOption cell.sourceSubscription := by
      simp only [World.unbind, get, bound, Option.isNone_some, Bool.false_eq_true, if_false, target,
        rig.alone]
      rfl
    have spares := spares_modifyBinding F.wired b free
    obtain ⟨turns, bindings, elements, connects, enrolled⟩ :=
      turns_disposeOption (b := b) sources p cell.element (s := cell.sourceSubscription) spares.wired
        fun s keeps => by
          obtain ⟨-, vm, -, -, heard⟩ := linked s keeps
          exact ⟨vm, p, (spares.enrolled _ _ _ _).2 heard⟩
    have turns := (turns_modifyBinding F.wired free).trans turns
    have idle : (w.unbind b).bindings.get? b = some (link cell none none none) := by
      rw [same, bindings, modifyBinding, Store.get?_modify_self, get]
      simp only [Option.map_some, free, link, rig.alone]
    rw [same] at idle ⊢
    refine ⟨⟨turns, F.turn turns get idle rfl ⟨(rig.link none none none).carry turns.observers
      turns.live, nofun, nofun⟩ fun s o n heard => ?_, .of_elements elements, none, none, idle⟩,
      connects, none, idle⟩
    obtain ⟨heard, other⟩ := (enrolled s o n _).1 heard
    exact absurd (F.keeps get ((spares.enrolled _ _ _ _).1 heard)) other

/-! ### Connecting -/

/-- A binding that has subscribed to its source keeps the new subscription in place of the old one.
-/
theorem Feeds.relink (F : w.Feeds sources p) (get : w.bindings.get? b = some cell)
    (source : cell.source = some scope) (reads : w.Reads sources p scope vm) {w₂ : World η}
    {s : Ref .subscription} (follows : w.Follows w₂ s vm p (.source b)) (observer : Observer)
    (same : w' = (w₂.modifyBinding b fun cell =>
      { cell with sourceObserver := some observer, sourceSubscription := some s }).disposeOption
        cell.sourceSubscription) :
    w.Turned w' sources p b cell cell.source ∧ w'.elements = w.elements ∧
      w'.connects = w.connects ∧
        w'.bindings.get? b = some (link cell cell.source (some observer) (some s)) := by
  obtain ⟨rig, -, linked⟩ := F.rigged b cell get
  have spares := spares_modifyBinding follows.wired b fun cell =>
    { cell with sourceObserver := some observer, sourceSubscription := some s }
  obtain ⟨freed, bindings, elements, connects, enrolled⟩ :=
    turns_disposeOption (b := b) sources p cell.element (s := cell.sourceSubscription) spares.wired
      fun s₀ keeps => by
        obtain ⟨-, vm, -, -, heard⟩ := linked s₀ keeps
        exact ⟨vm, p, (spares.enrolled _ _ _ _).2 ((follows.enrolled_iff _ _ _ _).2 (.inl heard))⟩
  rw [← same] at freed bindings elements connects enrolled
  have backdrop := follows.still.backdrop
  have turns := ((follows.turns reads.source).trans (turns_modifyBinding follows.wired _)).trans freed
  have get₂ : w₂.bindings.get? b = some cell :=
    (congrArg (Store.get? · b) (congrArg Backdrop.bindings backdrop)).trans get
  have get' : w'.bindings.get? b =
      some (link cell cell.source (some observer) (some s)) := by
    rw [bindings, modifyBinding, Store.get?_modify_self, get₂]
    rfl
  -- the new subscription is not the old one
  have other : cell.sourceSubscription ≠ some s := fun keeps => by
    obtain ⟨-, vm, -, -, heard⟩ := linked s keeps
    exact heard.ne_of_fresh F.wired.toLocated follows.fresh rfl
  refine ⟨⟨turns, F.turn turns get get' rfl ⟨(rig.link _ _ _).carry turns.observers turns.live,
    fun scope' is => ?_, fun s' keeps => ?_⟩ fun s' o n heard => ?_,
      .of_elements (elements.trans (congrArg Backdrop.elements backdrop)), _, _, get'⟩,
      elements.trans (congrArg Backdrop.elements backdrop),
      connects.trans (congrArg Backdrop.connects backdrop), get'⟩
  · cases source.symm.trans is
    exact ⟨vm, reads.carry turns.has⟩
  · cases keeps
    exact ⟨scope, vm, source, reads.carry turns.has, (enrolled s vm p _).2
      ⟨(spares.enrolled _ _ _ _).2 ((follows.enrolled_iff _ _ _ _).2 (.inr ⟨rfl, rfl, rfl, rfl⟩)), other⟩⟩
  · obtain ⟨heard, unkept⟩ := (enrolled s' o n _).1 heard
    rcases (follows.enrolled_iff _ _ _ _).1 ((spares.enrolled _ _ _ _).1 heard) with
      heard | ⟨rfl, rfl, rfl, -⟩
    · exact absurd (F.keeps get heard) unkept
    · exact ⟨scope, rfl, rfl, source, reads.carry turns.has⟩

variable {host : Host η} {rounds depth : Nat} {cut : Prop}

/-- **Connecting a bound binding.**  With `evaluate` its element shows the source afterwards. -/
theorem Feeds.connect (F : w.Feeds sources p) (get : w.bindings.get? b = some cell)
    (source : cell.source = some scope) (reads : w.Reads sources p scope vm) (evaluate : Bool)
    (shows : evaluate = false → w.Shows p vm cell) :
    (Run.connectBinding (machine host rounds (depth + 1)) b evaluate).Ends cut w fun _ w' =>
      w.Turned w' sources p b cell cell.source ∧ w'.Serves sources p b ∧
        w'.connects = w.connects := by
  have rig := (F.rigged b cell get).toFeeder
  -- from a world in which the element shows the source
  have goOn : ∀ w₁ : World η, w.Turned w₁ sources p b cell cell.source →
      w₁.bindings.get? b = some cell → w₁.Shows p vm cell → w₁.connects = w.connects →
      (Run.connectBinding (machine host rounds (depth + 1)) b false).Ends cut w₁ fun _ w' =>
        w.Turned w' sources p b cell cell.source ∧ w'.Serves sources p b ∧
          w'.connects = w.connects := by
    intro w₁ turned get₁ shows₁ connects₁
    have F₁ := turned.feeds
    have reads₁ := reads.carry turned.turns.has
    refine (connectBinding_follows F₁.wired (F₁.live vm reads.source) get₁ rig.expression source
      reads₁.ownerOf).mono ?_
    rintro _ w' ⟨w₂, s, observer, follows, same⟩
    obtain ⟨turned', elements, connects, get'⟩ := F₁.relink get₁ source reads₁ follows observer same
    refine ⟨⟨turned.turns.trans turned'.turns, turned'.feeds, turned.renews.trans turned'.renews
      (.inr rfl) turned.turns.has turned.turns.get, _, _, get'⟩, ?_, connects.trans connects₁⟩
    intro cell' scope' vm' there source' reads'
    rw [get'] at there
    cases there
    cases source.symm.trans source'
    cases reads.unique reads'
    refine .inr ⟨nofun, ?_⟩
    have shown : w'.elementGet cell.element cell.property =
        w₁.elementGet cell.element cell.property := by simp only [elementGet, elements]
    rw [Shows, turned'.turns.due, turned'.turns.get]
    exact shown ▸ shows₁
  cases evaluate with
  | false => exact goOn w ⟨.refl F.wired, F, .inl rfl, _, _, by rw [get]; rfl⟩ get (shows rfl) rfl
  | true =>
    let w₁ := w.elementSet cell.element cell.property (w.get vm p)
    have turned : w.Turned w₁ sources p b cell cell.source :=
      ⟨turns_elementSet F.wired _ _ _, F.elementSet _ _ _,
        .inr ⟨scope, vm, source, reads, elementGet_elementSet_self rig.live _⟩, _, _, get⟩
    have shows₁ : w₁.Shows p vm cell := by
      refine .inr ?_
      rw [turned.turns.get, elementGet_elementSet_self rig.live]
      exact Value.agrees_self _
    have rest := goOn w₁ turned get shows₁ rfl
    obtain ⟨expression, e, n, m, target, _, so, ss, ts⟩ := cell
    obtain rfl := rig.expression
    subst source
    have get₁ : w₁.bindings.get? b = _ := get
    simp only [Run.connectBinding, Run.ends_bind, Run.ends_read, get, get₁, if_true,
      Bool.false_eq_true, if_false, Run.ends_pure] at rest ⊢
    refine reads.eval.mono ?_
    rintro _ _ ⟨rfl, rfl⟩
    refine (rig.writeLeaf _).mono ?_
    rintro _ _ rfl
    exact rest

end World

end ViewBinding
