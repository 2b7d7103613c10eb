import ViewBinding.Proofs.OneWay.Turn
import ViewBinding.Proofs.Queue.Books

/-!
# OneWay — binding, unbinding and connecting

`w.Serving` is what holds between any two operations: every bound binding shows what its source has,
or a change of the source is due, or the binding waits to be connected.

Binding a binding (`Serving.bind`), unbinding it (`Serving.unbind`) and connecting what waits
(`Serving.drainConnects`) keep it.  `w.Attends w' sources p` says that no binding is bound or unbound
in between, that no value changes, and that every binding leaves its element alone or makes it show
what the source has that it is bound to.
-/

namespace ViewBinding

namespace World

variable {η : Type} {w w' w'' : World η} {sources : Ref .object → Prop} {p : String}
  {scope : Scope} {scope? : Option Scope} {vm : Ref .object} {b b' : Ref .binding}
  {cell : BindingCell} {q : ConnectQueue}

/-! ### Serving -/

/-- Every binding but `b` is served. -/
structure ServingBut (w : World η) (sources : Ref .object → Prop) (p : String) (b : Ref .binding) :
    Prop where
  feeds : w.Feeds sources p
  waiting : w.connects.queued.Perm w.connects.queue
  others : ∀ b', b' ≠ b → w.Serves sources p b'

/-- Every binding is served. -/
structure Serving (w : World η) (sources : Ref .object → Prop) (p : String) : Prop where
  feeds : w.Feeds sources p
  waiting : w.connects.queued.Perm w.connects.queue
  serves : ∀ b, w.Serves sources p b

theorem Serving.but (S : w.Serving sources p) (b : Ref .binding) : w.ServingBut sources p b :=
  ⟨S.feeds, S.waiting, fun b' _ => S.serves b'⟩

theorem ServingBut.serving (S : w.ServingBut sources p b) (serves : w.Serves sources p b) :
    w.Serving sources p where
  feeds := S.feeds
  waiting := S.waiting
  serves b' := if same : b' = b then same ▸ serves else S.others b' same

theorem ServingBut.turned (S : w.ServingBut sources p b) (get : w.bindings.get? b = some cell)
    {source : Option Scope} (turned : w.Turned w' sources p b cell source)
    (connects : w'.connects = w.connects) : w'.ServingBut sources p b where
  feeds := turned.feeds
  waiting := connects ▸ S.waiting
  others b' other := turned.turns.serves S.feeds get (fun _ m => connects ▸ m) other
    (S.others b' other)

/-! ### What concerns no binding -/

/-- `w'` is `w` but for the work that waits, the clock and what is polled. -/
structure Idles (w w' : World η) : Prop where
  spares : w.Spares w'
  bindings : w'.bindings = w.bindings
  elements : w'.elements = w.elements
  observers : w'.elementProperties = w.elementProperties

theorem Idles.trans (h : w.Idles w') (h' : w'.Idles w'') : w.Idles w'' :=
  ⟨h.spares.trans h'.spares, h'.bindings.trans h.bindings, h'.elements.trans h.elements,
    h'.observers.trans h.observers⟩

theorem Idles.turns {e : Ref .element} (h : w.Idles w')
    (flushing : w'.tasks.flushing = w.tasks.flushing) : w.Turns w' sources p b e :=
  h.spares.turns h.observers (fun _ => by rw [h.elements])
    (fun _ _ _ => by simp only [elementGet, h.elements]) (fun _ _ => by rw [h.bindings]) flushing

theorem Idles.feeds (h : w.Idles w') (F : w.Feeds sources p) : w'.Feeds sources p :=
  F.spares h.spares h.bindings h.observers fun _ => by rw [h.elements]

theorem Idles.serves (h : w.Idles w') (serves : w.Serves sources p b)
    (queue : b ∈ w.connects.queue → b ∈ w'.connects.queue) : w'.Serves sources p b := by
  intro cell scope vm get source reads
  have reads := reads.carry fun o n _ => (h.spares.has o n).symm
  have shown : w'.elementGet cell.element cell.property =
      w.elementGet cell.element cell.property := by simp only [elementGet, h.elements]
  rw [Shows, h.spares.due, h.spares.get, shown]
  exact (serves cell scope vm (h.bindings ▸ get) source reads).imp_left fun waits =>
    ⟨waits.1, queue waits.2⟩

theorem Idles.serving (h : w.Idles w') (S : w.Serving sources p)
    (connects : w'.connects = w.connects) : w'.Serving sources p where
  feeds := h.feeds S.feeds
  waiting := connects ▸ S.waiting
  serves b := h.serves (S.serves b) fun m => connects ▸ m

theorem idles_work (h : w.Wired) (tasks : TaskQueue)
    (same : tasks.microtasks = w.tasks.microtasks) (connects : ConnectQueue) (polling : Polling)
    (host : η) : w.Idles { w with tasks, connects, polling, host } := by
  have aside : w.Aside { w with tasks, connects, polling, host } :=
    ⟨rfl, rfl, rfl, rfl, rfl, rfl, rfl, rfl, same, Nat.le_refl _, rfl, rfl, id, id⟩
  exact ⟨aside.spares h, rfl, rfl, rfl⟩

theorem idles_withQueue (h : w.Wired) (q : ConnectQueue) : w.Idles (w.withQueue q) :=
  idles_work h w.tasks rfl q w.polling w.host

theorem idles_requestFrame (h : w.Wired) (task : FrameTask) : w.Idles (w.requestFrame task) :=
  idles_work h { w.tasks with frames := w.tasks.frames ++ [task] } rfl w.connects w.polling w.host

/-! ### Attending -/

/-- What a binding is made for and bound to. -/
def face (cell : BindingCell) : Option Scope × Ref .element × String :=
  (cell.source, cell.element, cell.property)

/-- No value and no binding's source changes, and elements are left alone or show their source. -/
structure Attends (w w' : World η) (sources : Ref .object → Prop) (p : String) : Prop where
  has : ∀ o n, ¬ (sources o ∧ n = p) → w'.has o n = w.has o n
  get : ∀ o n, w'.get o n = w.get o n
  faces : ∀ b, (w'.bindings.get? b).map face = (w.bindings.get? b).map face
  renews : ∀ b cell, w.bindings.get? b = some cell → w.Renews w' sources p cell cell.source

theorem Attends.refl (w : World η) : w.Attends w sources p :=
  ⟨fun _ _ _ => rfl, fun _ _ => rfl, fun _ => rfl, fun _ _ _ => .inl rfl⟩

theorem Attends.trans (h : w.Attends w' sources p) (h' : w'.Attends w'' sources p) :
    w.Attends w'' sources p where
  has o n other := (h'.has o n other).trans (h.has o n other)
  get o n := (h'.get o n).trans (h.get o n)
  faces b := (h'.faces b).trans (h.faces b)
  renews b cell get := by
    have face' := h.faces b
    rw [get, Option.map_some, Option.map_eq_some_iff] at face'
    obtain ⟨cell', get', same⟩ := face'
    obtain ⟨source, element, property⟩ : cell'.source = cell.source ∧
      cell'.element = cell.element ∧ cell'.property = cell.property := by simpa [face] using same
    have later := h'.renews b cell' get'
    rw [Renews, element, property, source] at later
    exact (h.renews b cell get).trans later (.inr rfl) h.has h.get

theorem Idles.attends (h : w.Idles w') : w.Attends w' sources p where
  has o n _ := h.spares.has o n
  get := h.spares.get
  faces b := by rw [h.bindings]
  renews _ _ _ := .of_elements h.elements

/-- Turning a binding to where it was. -/
theorem Turned.attends (turned : w.Turned w' sources p b cell cell.source) (F : w.Feeds sources p)
    (get : w.bindings.get? b = some cell) : w.Attends w' sources p where
  has := turned.turns.has
  get := turned.turns.get
  faces b' := by
    by_cases same : b' = b
    · obtain ⟨observer, s, get'⟩ := turned.cell
      rw [same, get', get]
      rfl
    · rw [turned.turns.bindings b' same]
  renews b' cell' get' := by
    by_cases same : cell'.element = cell.element
    · cases F.apart b' b cell' cell get' get same
      rw [get] at get'
      cases get'
      exact turned.renews
    · exact .inl (turned.turns.shown _ same _)

/-! ### Binding and unbinding -/

theorem Turned.idles (turned : w.Turned w' sources p b cell scope?) (idles : w'.Idles w'')
    (flushing : w''.tasks.flushing = w'.tasks.flushing) :
    w.Turned w'' sources p b cell scope? where
  turns := turned.turns.trans (idles.turns flushing)
  feeds := idles.feeds turned.feeds
  renews := turned.renews.trans (.of_elements idles.elements) (.inr rfl) turned.turns.has
    turned.turns.get
  cell := idles.bindings ▸ turned.cell

/-- Accepting a binding leaves those that wait waiting, and either the binding waits then or it is
to be connected now. -/
theorem waits_accept (waiting : q.queued.Perm q.queue) (b : Ref .binding) :
    (q.accept b).2.queued.Perm (q.accept b).2.queue ∧
      (∀ b' ∈ q.queue, b' ∈ (q.accept b).2.queue) ∧
        ((q.accept b).1 = false → b ∈ (q.accept b).2.queue) := by
  obtain ⟨-, e⟩ | ⟨-, waits, e⟩ | ⟨-, -, e⟩ := q.accept_cases b
  · rw [e]
    exact ⟨waiting, fun _ m => m, nofun⟩
  · rw [e]
    exact ⟨waiting, fun _ m => m, fun _ => waiting.mem_iff.1 waits⟩
  · rw [e]
    exact ⟨(waiting.cons b).trans (List.perm_append_singleton b _).symm,
      fun _ m => List.mem_append_left _ m, fun _ => by simp⟩

section
variable {host : Host η} {rounds depth : Nat} {cut : Prop}

/-- **Enqueueing a binding** that has just been bound and shows its source. -/
theorem ServingBut.enqueue (S : w.ServingBut sources p b) (get : w.bindings.get? b = some cell)
    (source : cell.source = some scope) (reads : w.Reads sources p scope vm)
    (free : cell.sourceSubscription = none) (shows : w.Shows p vm cell) :
    (Run.enqueueConnect (machine host rounds (depth + 1)) b).Ends cut w fun _ w' =>
      w'.Serving sources p ∧ w.Turned w' sources p b cell cell.source := by
  obtain ⟨perm, keeps, waits⟩ := waits_accept S.waiting b
  let q := (w.connects.accept b).2
  let w₁ := w.withQueue { q with requested := true }
  have idles : w.Idles w₁ := idles_withQueue S.feeds.wired _
  have turned : w.Turned w₁ sources p b cell cell.source :=
    ⟨idles.turns rfl, idles.feeds S.feeds, .of_elements idles.elements, _, _, get⟩
  have S₁ : w₁.ServingBut sources p b :=
    ⟨turned.feeds, perm, fun b' other => idles.serves (S.others b' other) (keeps b')⟩
  -- a request in the end concerns no binding
  have ask : ∀ (request : Bool) (w₂ : World η), w₂.Serving sources p →
      w.Turned w₂ sources p b cell cell.source →
        (if request then Run.modify fun w : World η => w.requestFrame .connects
          else pure ()).Ends cut w₂ fun _ w' =>
            w'.Serving sources p ∧ w.Turned w' sources p b cell cell.source := by
    intro request w₂ S₂ turned₂
    have idles₂ := idles_requestFrame S₂.feeds.wired .connects
    cases request
    · exact ⟨S₂, turned₂⟩
    · exact ⟨idles₂.serving S₂ rfl, turned₂.idles idles₂ rfl⟩
  have get₁ : w₁.bindings.get? b = some cell := get
  simp only [Run.enqueueConnect, Run.ends_bind, Run.ends_update]
  cases now : (w.connects.accept b).1 with
  | false =>
    simp only [Bool.false_eq_true, if_false, Run.ends_bind]
    refine ask _ w₁ (S₁.serving fun cell' scope' vm' get' _ _ => ?_) turned
    rw [get₁] at get'
    cases get'
    exact .inl ⟨free, waits now⟩
  | true =>
    simp only [if_true, Run.ends_bind]
    refine Run.ends_ignoreFailure ((turned.feeds.connect (b := b) get source
      (reads.carry fun o n _ => idles.spares.has o n) false fun _ => ?_).mono ?_)
    · rw [Shows, idles.spares.due, idles.spares.get]
      exact shows
    · rintro _ w₂ ⟨turned₂, serves, connects⟩
      exact ask _ w₂ ((S₁.turned get turned₂ connects).serving serves)
        ⟨turned.turns.trans turned₂.turns, turned₂.feeds, turned.renews.trans turned₂.renews
          (.inr rfl) turned.turns.has turned.turns.get, turned₂.cell⟩

/-- **Binding a binding**: it is served, and no other binding is touched. -/
theorem Serving.bind (S : w.Serving sources p) (get : w.bindings.get? b = some cell)
    (reads : w.Reads sources p scope vm) :
    (Run.bindTo (machine host rounds (depth + 1)) b scope).Ends cut w fun _ w' =>
      w'.Serving sources p ∧ w.Turned w' sources p b cell (some scope) := by
  have rig := (S.feeds.rigged b cell get).toFeeder
  obtain ⟨r, -, target, -⟩ := rig.target
  obtain ⟨freed, connects, observer, idle⟩ := S.feeds.unbind get
  have S₁ := (S.but b).turned get freed connects
  -- the source of the binding is put in place
  let w₂ := (w.unbind b).modifyBinding b fun cell => { cell with source := some scope }
  have get₂ : w₂.bindings.get? b = some (link cell (some scope) observer none) := by
    have := Store.get?_modify_self (w.unbind b).bindings b
      fun cell => { cell with source := some scope }
    rwa [idle] at this
  have turns₂ : (w.unbind b).Turns w₂ sources p b cell.element := turns_modifyBinding S₁.feeds.wired _
  have reads₂ : w₂.Reads sources p scope vm := reads.carry (freed.turns.trans turns₂).has
  have feeds₂ : w₂.Feeds sources p := by
    refine S₁.feeds.turn turns₂ idle get₂ rfl ⟨(rig.carry freed.turns.observers
      freed.turns.live |>.carry turns₂.observers turns₂.live).link _ _ _, ?_, nofun⟩ ?_
    · rintro _ ⟨⟩
      exact ⟨vm, reads₂⟩
    · intro s o n heard
      have := S₁.feeds.keeps idle (((spares_modifyBinding S₁.feeds.wired b _).enrolled _ _ _ _).1 heard)
      cases this
  -- the element shows the source
  let w₃ := w₂.elementSet cell.element cell.property (w₂.get vm p)
  have turns₃ : w₂.Turns w₃ sources p b cell.element := turns_elementSet feeds₂.wired _ _ _
  have feeds₃ : w₃.Feeds sources p := feeds₂.elementSet _ _ _
  have turns := turns₂.trans turns₃
  have rig₂ : w₂.Feeder p cell := rig.carry (freed.turns.trans turns₂).observers
    (freed.turns.trans turns₂).live
  have shown : w₃.elementGet cell.element cell.property = w₂.get vm p :=
    elementGet_elementSet_self rig₂.live _
  have renews₃ : (w.unbind b).Renews w₃ sources p cell (some scope) :=
    .inr ⟨scope, vm, rfl, reads.carry freed.turns.has, shown⟩
  have turned₃ : (w.unbind b).Turned w₃ sources p b (link cell none observer none) (some scope) :=
    ⟨turns, feeds₃, renews₃, observer, none, get₂⟩
  have S₃ : w₃.ServingBut sources p b := S₁.turned idle turned₃ rfl
  have shows : w₃.Shows p vm (link cell (some scope) observer none) := by
    refine .inr ?_
    rw [turns₃.get]
    change Value.Agrees _ (w₃.elementGet cell.element cell.property)
    exact shown ▸ Value.agrees_self _
  simp only [Run.bindTo, Run.ends_bind, Run.ends_read, get, Run.ends_modify, target, Run.ends_pure]
  refine Run.ends_attempt ?_
  change (Run.startBinding _ b cell scope).Ends cut w₂ fun _ w' =>
    w'.Serving sources p ∧ w.Turned w' sources p b cell (some scope)
  simp only [Run.startBinding, rig.mode, Mode.updatesTarget, if_true, Run.ends_bind, rig.expression]
  refine reads₂.eval.mono ?_
  rintro _ _ ⟨rfl, rfl⟩
  refine (rig₂.writeLeaf _).mono ?_
  rintro _ _ rfl
  have get₃ : w₃.bindings.get? b = some (link cell (some scope) observer none) := get₂
  refine (S₃.enqueue get₃ rfl (reads₂.carry turns₃.has) rfl shows).mono ?_
  rintro _ w' ⟨S', turned⟩
  exact ⟨S', (freed.turns.trans turns).trans turned.turns, turned.feeds,
    (freed.renews.trans renews₃ (.inl rfl) freed.turns.has freed.turns.get).trans turned.renews
      (.inr rfl) (freed.turns.trans turns).has (freed.turns.trans turns).get, turned.cell⟩

/-- **Unbinding a binding**: no other binding is touched. -/
theorem Serving.unbind (S : w.Serving sources p) (get : w.bindings.get? b = some cell) :
    (w.unbind b).Serving sources p ∧ w.Turned (w.unbind b) sources p b cell none := by
  obtain ⟨turned, connects, observer, idle⟩ := S.feeds.unbind get
  refine ⟨((S.but b).turned get turned connects).serving fun cell' scope vm get' source => ?_, turned⟩
  rw [idle] at get'
  cases get'
  cases source

end

end World

end ViewBinding
