import ViewBinding.Proofs.Leaf.Unwatched
import ViewBinding.Proofs.OneWay.Frames

/-!
# OneWay — runs

Bindings are bound, bound anew and unbound, sources are written, the threshold of the connect queue
is changed, microtasks are flushed and frames run, in any order (`Act`).  What bindings are bound to
and what sources hold depends on the acts of the first three kinds only (`Ledger`,
`Reaches.ledger`).  When nothing waits, every bound target shows its source, so the targets of the
bound bindings do not depend on thresholds, flushes and frames either (`threshold_invisible`).

What the target of an unbound binding shows may depend on the threshold: a connect that waits is
dropped when the binding is unbound (`threshold_visible`).
-/

namespace ViewBinding

namespace OneWay

variable {η : Type}

/-- What is done with bindings and their sources. -/
inductive Act where
  /-- Binds a binding, anew if it is bound. -/
  | bind (b : Ref .binding) (scope : Scope)
  | unbind (b : Ref .binding)
  /-- Writes the source property of an object. -/
  | set (vm : Ref .object) (v : Value)
  /-- Changes how many connects of a cycle run at once. -/
  | threshold (n : Nat)
  /-- Runs the microtasks. -/
  | flush
  /-- Runs an animation frame. -/
  | frame

namespace Act

/-- Carries out an act on the property `p` of sources. -/
def run (env : Env η) (p : String) : Act → Run η Unit
  | bind b scope => Run.bindTo env b scope
  | unbind b => Run.modify fun w => w.unbind b
  | set vm v => Run.modify fun w => w.set vm p v
  | threshold n => Run.modify fun w => w.setThreshold n
  | flush => discard (Run.flushMicrotasks env)
  | frame => discard (Run.runFrame env)

/-- Only sources are written, and bindings are bound where the name means a source. -/
def Allowed (w : World η) (sources : Ref .object → Prop) (p : String) : Act → Prop
  | bind b scope => w.bindings.contains b = true ∧ ∃ vm, w.Reads sources p scope vm
  | set vm _ => sources vm
  | _ => True

/-- Whether an act binds, unbinds or writes. -/
def isEssential : Act → Bool
  | bind .. | unbind _ | set .. => true
  | _ => false

end Act

/-- `w'` comes from `w` by acts that are allowed. -/
inductive Reaches (host : Host η) (sources : Ref .object → Prop) (p : String) :
    World η → List Act → World η → Prop
  | refl (w : World η) : Reaches host sources p w [] w
  | step {w w' w'' : World η} {acts : List Act} {act : Act} {rounds depth : Nat}
      (before : Reaches host sources p w acts w') (allowed : act.Allowed w' sources p)
      (ran : act.run (machine host rounds (depth + 1)) p w' = (.ok (), w'')) :
      Reaches host sources p w (acts ++ [act]) w''

/-! ### Ledgers -/

/-- What bindings are bound to and what objects hold. -/
@[ext] structure Ledger where
  source : Ref .binding → Option Scope
  value : Ref .object → Value

/-- The ledger with a binding turned to a scope, or to none. -/
def Ledger.turn (L : Ledger) (b : Ref .binding) (scope? : Option Scope) : Ledger :=
  { L with source := fun b' => if b' = b then scope? else L.source b' }

@[simp] theorem Ledger.source_turn_self (L : Ledger) (b : Ref .binding) (scope? : Option Scope) :
    (L.turn b scope?).source b = scope? := if_pos rfl

theorem Ledger.source_turn_of_ne (L : Ledger) {b b' : Ref .binding} (scope? : Option Scope)
    (h : b' ≠ b) : (L.turn b scope?).source b' = L.source b' := if_neg h

/-- The ledger after an act.  A write of the same value leaves the value that is there. -/
def Ledger.after (L : Ledger) : Act → Ledger
  | .bind b scope => L.turn b (some scope)
  | .unbind b => L.turn b none
  | .set vm v =>
    { L with value := fun o =>
        if o = vm then if (L.value vm).same v then L.value vm else v else L.value o }
  | _ => L

theorem Ledger.after_of_not_essential {act : Act} (h : act.isEssential = false) (L : Ledger) :
    L.after act = L := by
  cases act <;> first | rfl | cases h

/-- Only essential acts count. -/
theorem Ledger.foldl_after_filter (acts : List Act) (L : Ledger) :
    (acts.filter (·.isEssential)).foldl Ledger.after L = acts.foldl Ledger.after L := by
  induction acts generalizing L with
  | nil => rfl
  | cons act rest ih =>
    cases h : act.isEssential with
    | false => rw [List.filter_cons_of_neg (by simp [h]), ih, List.foldl_cons,
        L.after_of_not_essential h]
    | true => rw [List.filter_cons_of_pos h, List.foldl_cons, List.foldl_cons, ih]

end OneWay

namespace World

open OneWay

variable {η : Type} {w w' w'' : World η} {sources : Ref .object → Prop} {p : String}
  {scope : Scope} {vm : Ref .object} {b : Ref .binding} {cell : BindingCell} {host : Host η}
  {rounds depth : Nat} {cut : Prop} {act : Act}

/-- The ledger of a world for the property `p`. -/
def ledger (w : World η) (p : String) : Ledger := ⟨w.sourceOf?, fun o => w.get o p⟩

/-- What the element of a binding shows. -/
def shownBy? (w : World η) (b : Ref .binding) : Option Value :=
  (w.bindings.get? b).map fun cell => w.elementGet cell.element cell.property

/-- Nothing is bound and heard of, and nothing waits. -/
structure Rested (w : World η) (sources : Ref .object → Prop) (p : String) : Prop where
  wired : w.Wired
  unheard : ∀ s o n sub, ¬ w.Enrolled s o n sub
  live : ∀ vm, sources vm → w.objects.contains vm = true
  unfrozen : ∀ vm, sources vm → w.isFrozen vm = false
  plain : ∀ vm, sources vm → ¬ w.IsDoubled vm p
  rigged : ∀ b cell, w.bindings.get? b = some cell →
    w.Feeder p cell ∧ cell.source = none ∧ cell.sourceSubscription = none
  apart : ∀ b b' cell cell', w.bindings.get? b = some cell → w.bindings.get? b' = some cell' →
    cell.element = cell'.element → b = b'
  empty : w.connects.queue = [] ∧ w.connects.queued = []
  flushing : w.tasks.flushing = false

/-- What holds between two acts. -/
structure Ready (w : World η) (sources : Ref .object → Prop) (p : String) : Prop where
  serving : w.Serving sources p
  flushing : w.tasks.flushing = false

theorem Rested.ready (h : w.Rested sources p) : w.Ready sources p := by
  refine ⟨⟨⟨h.wired, h.live, h.unfrozen, h.plain, fun b cell get => ?_, h.apart,
    fun s o n sub heard => absurd heard (h.unheard s o n sub)⟩, by rw [h.empty.1, h.empty.2],
    fun b cell scope vm get source => ?_⟩, h.flushing⟩
  · obtain ⟨rig, unbound, free⟩ := h.rigged b cell get
    refine ⟨rig, fun scope source => ?_, fun s keeps => ?_⟩
    · rw [unbound] at source
      cases source
    · rw [free] at keeps
      cases keeps
  · rw [(h.rigged b cell get).2.1] at source
    cases source

/-- Nothing waits to be connected and no microtask waits. -/
def Calmed (w : World η) : Prop := w.connects.queue = [] ∧ w.tasks.microtasks = []

/-! ### What an act does -/

/-- The element of a binding shows what it showed, or what the source has that the binding is bound
to now. -/
def ShowsOwn (w w' : World η) (sources : Ref .object → Prop) (p : String) (b : Ref .binding) : Prop :=
  w'.shownBy? b = w.shownBy? b ∨ ∃ scope vm, w'.sourceOf? b = some scope ∧
    w'.Reads sources p scope vm ∧ w'.shownBy? b = some (w'.get vm p)

/-- What an act does: it keeps the invariant and the books, and every binding leaves its element alone
or makes it show the source that the binding is bound to afterwards. -/
structure Does (w w' : World η) (sources : Ref .object → Prop) (p : String) (act : Act) : Prop where
  ready : w'.Ready sources p
  ledger : w'.ledger p = (w.ledger p).after act
  shown : ∀ b, w.ShowsOwn w' sources p b

/-- If a binding is unbound afterwards then its element is left alone. -/
theorem Does.still (does : w.Does w' sources p act) (unbound : w'.sourceOf? b = none) :
    w'.shownBy? b = w.shownBy? b :=
  (does.shown b).resolve_right fun ⟨_, _, bound, _⟩ => by cases unbound.symm.trans bound

theorem sourceOf?_eq (w : World η) (b : Ref .binding) :
    w.sourceOf? b = (w.bindings.get? b).bind (·.source) := rfl

theorem Attends.ledger (h : w.Attends w' sources p) : w'.ledger p = w.ledger p := by
  refine Ledger.ext (funext fun b => ?_) (funext fun o => h.get o p)
  have face := h.faces b
  simp only [World.ledger, sourceOf?_eq]
  cases get : w.bindings.get? b <;> cases get' : w'.bindings.get? b <;>
    simp_all [World.face]

theorem Attends.showsOwn (h : w.Attends w' sources p) (b : Ref .binding) :
    w.ShowsOwn w' sources p b := by
  have face := h.faces b
  cases get : w.bindings.get? b with
  | none =>
    rw [get, Option.map_none, Option.map_eq_none_iff] at face
    exact .inl (by simp only [World.shownBy?, get, face, Option.map_none])
  | some cell =>
    rw [get, Option.map_some, Option.map_eq_some_iff] at face
    obtain ⟨cell', get', same⟩ := face
    obtain ⟨source, element, property⟩ : cell'.source = cell.source ∧
      cell'.element = cell.element ∧ cell'.property = cell.property := by
        simpa [World.face] using same
    rw [ShowsOwn, World.shownBy?, World.shownBy?, get, get', Option.map_some, Option.map_some,
      element, property]
    refine (h.renews b cell get).imp (congrArg some) ?_
    rintro ⟨scope, vm, bound, reads, shows⟩
    refine ⟨scope, vm, ?_, reads.carry h.has, congrArg some (shows.trans (h.get vm p).symm)⟩
    rw [sourceOf?_eq, get', Option.bind_some, source, bound]

theorem Attends.does (h : w.Attends w' sources p) (ready : w'.Ready sources p)
    (idle : act.isEssential = false) : w.Does w' sources p act :=
  ⟨ready, h.ledger.trans (Ledger.after_of_not_essential idle _).symm, h.showsOwn⟩

/-- What turning a binding does to the ledger. -/
theorem Turned.ledger {source : Option Scope} (turned : w.Turned w' sources p b cell source) :
    w'.ledger p = (w.ledger p).turn b source := by
  refine Ledger.ext (funext fun b' => ?_) (funext fun o => turned.turns.get o p)
  by_cases same : b' = b
  · obtain ⟨observer, s, get⟩ := turned.cell
    rw [same, Ledger.source_turn_self]
    simp only [World.ledger, sourceOf?_eq, get, Option.bind_some, link]
  · rw [Ledger.source_turn_of_ne _ _ same]
    simp only [World.ledger, sourceOf?_eq, turned.turns.bindings b' same]

/-- Turning a binding leaves the elements of the others alone. -/
theorem Turned.shownBy? {source : Option Scope} (turned : w.Turned w' sources p b cell source)
    (F : w.Feeds sources p) (get : w.bindings.get? b = some cell) {b' : Ref .binding}
    (other : b' ≠ b) : w'.shownBy? b' = w.shownBy? b' := by
  simp only [World.shownBy?, turned.turns.bindings b' other]
  cases get' : w.bindings.get? b' with
  | none => rfl
  | some cell' =>
    have apart : cell'.element ≠ cell.element := fun same =>
      other (F.apart b' b cell' cell get' get same)
    simp only [Option.map_some, turned.turns.shown _ apart]

/-- Turning a binding makes its element show the new source, if anything. -/
theorem Turned.showsOwn {source : Option Scope} (turned : w.Turned w' sources p b cell source)
    (F : w.Feeds sources p) (get : w.bindings.get? b = some cell) (b' : Ref .binding) :
    w.ShowsOwn w' sources p b' := by
  by_cases same : b' = b
  · obtain ⟨observer, s, get'⟩ := turned.cell
    rw [same, ShowsOwn, World.shownBy?, World.shownBy?, get, get', Option.map_some, Option.map_some]
    refine turned.renews.imp (congrArg some) ?_
    rintro ⟨scope, vm, rfl, reads, shows⟩
    exact ⟨scope, vm, by rw [sourceOf?_eq, get']; rfl, reads.carry turned.turns.has,
      congrArg some (shows.trans (turned.turns.get vm p).symm)⟩
  · exact .inl (turned.shownBy? F get same)

theorem Ready.bind (R : w.Ready sources p) (there : w.bindings.contains b = true)
    (reads : w.Reads sources p scope vm) :
    (Run.bindTo (machine host rounds (depth + 1)) b scope).Ends cut w fun _ w' =>
      w.Does w' sources p (.bind b scope) := by
  obtain ⟨cell, get⟩ := Option.isSome_iff_exists.1 there
  refine (R.serving.bind get reads).mono ?_
  rintro _ w' ⟨S, turned⟩
  exact ⟨⟨S, turned.turns.flushing.trans R.flushing⟩, turned.ledger,
    turned.showsOwn R.serving.feeds get⟩

theorem Ready.unbind (R : w.Ready sources p) (b : Ref .binding) :
    w.Does (w.unbind b) sources p (.unbind b) := by
  cases get : w.bindings.get? b with
  | none =>
    have same : w.unbind b = w := by simp only [World.unbind, get]
    rw [same]
    refine ⟨R, Ledger.ext (funext fun b' => ?_) rfl, fun _ => .inl rfl⟩
    change w.sourceOf? b' = ((w.ledger p).turn b none).source b'
    by_cases is : b' = b
    · rw [is, Ledger.source_turn_self, sourceOf?_eq, get, Option.bind_none]
    · rw [Ledger.source_turn_of_ne _ _ is]
      rfl
  | some cell =>
    obtain ⟨S, turned⟩ := R.serving.unbind get
    exact ⟨⟨S, turned.turns.flushing.trans R.flushing⟩, turned.ledger,
      turned.showsOwn R.serving.feeds get⟩

/-- The value after a write. -/
theorem get_set (h : w.Wired) (live : w.objects.contains vm = true) (unfrozen : w.isFrozen vm = false)
    (plain : ¬ w.IsDoubled vm p) (v : Value) :
    (w.set vm p v).get vm p = if (w.get vm p).same v then w.get vm p else v := by
  obtain ⟨-, ⟨same, frozen | is⟩ | ⟨-, changed, get, -⟩⟩ := set_spec h live plain v
  · rw [unfrozen] at frozen
    cases frozen
  · rw [same, if_pos is]
  · rw [get]
    split
    next is =>
      -- the property was missing, and is undefined now
      cases has : w.has vm p with
      | true =>
        rw [changed has] at is
        cases is
      | false =>
        rw [get_of_not_has has] at is ⊢
        cases v <;> first | rfl | cases is
    · rfl

theorem Ready.set (R : w.Ready sources p) (source : sources vm) (v : Value) :
    w.Does (w.set vm p v) sources p (.set vm v) := by
  have F := R.serving.feeds
  obtain ⟨writes, result⟩ := set_spec F.wired (F.live vm source) (F.plain vm source) v
  have bindings : (w.set vm p v).bindings = w.bindings := congrArg Backdrop.bindings writes.backdrop
  have elements : (w.set vm p v).elements = w.elements := congrArg Backdrop.elements writes.backdrop
  have connects : (w.set vm p v).connects = w.connects := congrArg Backdrop.connects writes.backdrop
  have has : ∀ o n, ¬ (sources o ∧ n = p) → (w.set vm p v).has o n = w.has o n := fun o n other =>
    writes.has o n fun is => other ⟨is.1 ▸ source, is.2⟩
  have feeds : (w.set vm p v).Feeds sources p := F.carry writes.wired writes.contains
    writes.isFrozen writes.doubled has bindings
    (congrArg Backdrop.elementProperties writes.backdrop) (fun _ => by rw [elements])
    fun s o n sub => writes.toTunes.enrolled
  refine ⟨⟨⟨feeds, connects ▸ R.serving.waiting, fun b cell scope o get bound reads => ?_⟩,
    (congrArg Backdrop.flushing writes.backdrop).trans R.flushing⟩, Ledger.ext (funext fun b => ?_)
      (funext fun o => ?_), fun b => .inl ?_⟩
  · rw [bindings] at get
    have reads := reads.carry fun o n h => (has o n h).symm
    have shown : (w.set vm p v).elementGet cell.element cell.property =
        w.elementGet cell.element cell.property := by simp only [elementGet, elements]
    rw [connects, Shows, shown]
    refine (R.serving.serves b cell scope o get bound reads).imp_right fun served => ?_
    obtain ⟨linked, shows⟩ := served
    refine ⟨linked, ?_⟩
    rcases shows with due | agrees
    · exact .inl (writes.due o p due)
    by_cases is : o = vm
    · subst is
      rcases result with ⟨same, -⟩ | ⟨-, -, -, -, tells⟩
      · rw [same]
        exact .inr agrees
      · obtain ⟨s, keeps⟩ := Option.ne_none_iff_exists'.1 linked
        obtain ⟨scope', o', source', reads', -, l, t, -, at', m⟩ := (F.rigged b cell get).linked s keeps
        cases bound.symm.trans source'
        cases reads.unique reads'
        exact .inl (tells l at' (List.ne_nil_of_mem m))
    · rw [writes.get o p fun both => is both.1]
      exact .inr agrees
  · change (w.set vm p v).sourceOf? b = w.sourceOf? b
    rw [sourceOf?_eq, bindings, sourceOf?_eq]
  · change (w.set vm p v).get o p = if o = vm then _ else w.get o p
    split
    next is =>
      subst is
      exact get_set F.wired (F.live o source) (F.unfrozen o source) (F.plain o source) v
    next other => exact writes.get o p fun both => other both.1
  · simp only [World.shownBy?, bindings, elementGet, elements]

theorem Ready.threshold (R : w.Ready sources p) (n : Nat) :
    w.Does (w.setThreshold n) sources p (.threshold n) := by
  have idles : w.Idles (w.setThreshold n) :=
    idles_withQueue R.serving.feeds.wired { w.connects with threshold := n }
  have S := R.serving
  exact idles.attends.does ⟨⟨idles.feeds S.feeds, S.waiting,
    fun b => idles.serves (S.serves b) id⟩, R.flushing⟩ rfl

/-- **What one act does.**  It goes through if there are rounds for what waits. -/
theorem Ready.does (R : w.Ready sources p) (rests : host.Rests) (allowed : act.Allowed w sources p)
    (enough : rounds ≤ max w.tasks.microtasks.length w.connects.queue.length → cut) :
    (act.run (machine host rounds (depth + 1)) p).Ends cut w fun _ w' =>
      w.Does w' sources p act := by
  cases act with
  | bind b scope =>
    obtain ⟨there, vm, reads⟩ := allowed
    exact R.bind there reads
  | unbind b => exact R.unbind b
  | set vm v => exact R.set allowed v
  | threshold n => exact R.threshold n
  | flush =>
    refine Run.ends_discard.2 ((R.serving.flush R.flushing fun few =>
      enough (Nat.le_trans few (Nat.le_max_left _ _))).mono ?_)
    rintro _ w' ⟨S, attends, -, idle, -⟩
    exact attends.does ⟨S, idle⟩ rfl
  | frame =>
    refine Run.ends_discard.2 ((R.serving.frame rests R.flushing enough).mono ?_)
    rintro _ w' ⟨S, attends, -, idle⟩
    exact attends.does ⟨S, idle⟩ rfl

/-! ### What runs do -/

variable {acts : List Act}

/-- **What every run keeps.** -/
theorem Ready.reaches (R : w.Ready sources p) (rests : host.Rests)
    (reaches : Reaches host sources p w acts w') :
    w'.Ready sources p ∧ w'.ledger p = acts.foldl Ledger.after (w.ledger p) := by
  induction reaches with
  | refl => exact ⟨R, rfl⟩
  | step _ allowed ran ih =>
    obtain ⟨R', ledger⟩ := ih
    have does := (Run.ends_of_eq_ok ran).1 (R'.does rests allowed fun _ => trivial)
    refine ⟨does.ready, ?_⟩
    rw [List.foldl_append, ← ledger, List.foldl_cons, List.foldl_nil, does.ledger]

/-- **Once a binding is unbound its element is left alone** until it is bound again. -/
theorem Ready.unbound (R : w.Ready sources p) (rests : host.Rests)
    (reaches : Reaches host sources p w acts w') (first : acts ≠ [] → acts.head? = some (.unbind b))
    (unbound : ∀ scope, Act.bind b scope ∉ acts) :
    w'.shownBy? b = w.shownBy? b ∧ (acts ≠ [] → w'.sourceOf? b = none) := by
  induction reaches with
  | refl => exact ⟨rfl, nofun⟩
  | @step w₁ w₂ acts act rounds depth before allowed ran ih =>
    obtain ⟨same, none⟩ := ih (fun some => by
      obtain ⟨_, _, rfl⟩ := List.exists_cons_of_ne_nil some
      exact first (by simp)) fun scope m => unbound scope (List.mem_append_left _ m)
    obtain ⟨R₁, -⟩ := R.reaches rests before
    have does := (Run.ends_of_eq_ok ran).1 (R₁.does rests allowed fun _ => trivial)
    have none' : w₂.sourceOf? b = Option.none := by
      have ledger := congrFun (congrArg Ledger.source does.ledger) b
      change w₂.sourceOf? b = _ at ledger
      rw [ledger]
      by_cases some : acts = []
      · subst some
        cases first (by simp)
        exact Ledger.source_turn_self _ _ _
      · cases act with
        | bind b' scope =>
          refine (Ledger.source_turn_of_ne _ _ ?_).trans (none some)
          rintro rfl
          exact unbound scope (by simp)
        | unbind b' =>
          by_cases is : b = b'
          · rw [is]
            exact Ledger.source_turn_self _ _ _
          · exact (Ledger.source_turn_of_ne _ _ is).trans (none some)
        | _ => exact none some
    exact ⟨(does.still none').trans same, fun _ => none'⟩

/-- **Every bound target shows its source** when nothing waits. -/
theorem Ready.shows (R : w.Ready sources p) (calm : w.Calmed) (bound : w.sourceOf? b = some scope) :
    ∃ vm v, w.Reads sources p scope vm ∧ w.shownBy? b = some v ∧ (w.get vm p).Agrees v := by
  have F := R.serving.feeds
  rw [sourceOf?_eq, Option.bind_eq_some_iff] at bound
  obtain ⟨cell, get, source⟩ := bound
  obtain ⟨vm, reads⟩ := (F.rigged b cell get).reads scope source
  refine ⟨vm, w.elementGet cell.element cell.property, reads,
    by simp only [World.shownBy?, get, Option.map_some], ?_⟩
  rcases R.serving.serves b cell scope vm get source reads with ⟨-, waits⟩ | ⟨-, shows⟩
  · rw [calm.1] at waits
    cases waits
  · exact shows.resolve_left (F.wired.not_due calm.2 vm p)

/-- **The connect threshold is invisible to bound bindings.**  Whatever has been done, every act goes
through with enough rounds, and nothing but binding, unbinding and writing counts for what bindings
are bound to and what sources hold.  When nothing waits, every bound target shows its source.  The
target of an unbound binding holds what it held when the binding was unbound.  In two runs with the
same binding, unbinding and writing, with any thresholds, flushes and frames in between, the bound
targets are the same when nothing waits. -/
theorem threshold_invisible (rests : host.Rests) (start : w.Rested sources p)
    (reaches : Reaches host sources p w acts w') :
    (∀ act : Act, act.Allowed w' sources p → ∃ few, ∀ rounds depth, few < rounds →
      ∃ w'', act.run (machine host rounds (depth + 1)) p w' = (.ok (), w'')) ∧
    w'.ledger p = (acts.filter (·.isEssential)).foldl Ledger.after (w.ledger p) ∧
    (w'.Calmed → ∀ b scope, w'.sourceOf? b = some scope →
      ∃ vm v, w'.Reads sources p scope vm ∧ w'.shownBy? b = some v ∧ (w'.get vm p).Agrees v) ∧
    (∀ b acts' w'', Reaches host sources p w' (.unbind b :: acts') w'' →
      (∀ scope, Act.bind b scope ∉ acts') → w''.shownBy? b = w'.shownBy? b) ∧
    (∀ (host₁ : Host η) (w₁ w₁' : World η) acts₁, host₁.Rests → w₁.Rested sources p →
      Reaches host₁ sources p w₁ acts₁ w₁' → w₁.ledger p = w.ledger p →
      acts₁.filter (·.isEssential) = acts.filter (·.isEssential) → w'.Calmed → w₁'.Calmed →
      ∀ b, w'.sourceOf? b ≠ none → ∃ v v₁, w'.shownBy? b = some v ∧ w₁'.shownBy? b = some v₁ ∧
        v.Agrees v₁) := by
  obtain ⟨R, ledger⟩ := start.ready.reaches rests reaches
  have ledger := ledger.trans (Ledger.foldl_after_filter acts _).symm
  refine ⟨fun act allowed => ⟨max w'.tasks.microtasks.length w'.connects.queue.length,
    fun rounds depth some => ?_⟩, ledger, fun calm b scope bound => R.shows calm bound,
    fun b acts' w'' further unbound => ?_, ?_⟩
  · have ends : (act.run (machine host rounds (depth + 1)) p).Ends False w' _ :=
      R.does rests allowed fun few => Nat.not_lt.2 few some
    obtain ⟨⟨⟩, w'', ran, -⟩ := ends.exists_eq_ok
    exact ⟨w'', ran⟩
  · refine (R.unbound rests further (fun _ => rfl) fun scope m => ?_).1
    exact unbound scope ((List.mem_cons.1 m).resolve_left nofun)
  · intro host₁ w₁ w₁' acts₁ rests₁ start₁ reaches₁ same essential calm calm₁ b bound
    obtain ⟨R₁, ledger₁⟩ := start₁.ready.reaches rests₁ reaches₁
    have ledgers : w₁'.ledger p = w'.ledger p := by
      rw [ledger₁, ← Ledger.foldl_after_filter, essential, same, ledger]
    obtain ⟨scope, bound⟩ := Option.ne_none_iff_exists'.1 bound
    have bound₁ : w₁'.sourceOf? b = some scope :=
      (congrFun (congrArg Ledger.source ledgers) b).trans bound
    obtain ⟨vm, v, reads, shown, agrees⟩ := R.shows calm bound
    obtain ⟨vm₁, v₁, reads₁, shown₁, agrees₁⟩ := R₁.shows calm₁ bound₁
    cases reads.unique reads₁
    have value : w₁'.get vm p = w'.get vm p := congrFun (congrArg Ledger.value ledgers) vm
    exact ⟨v, v₁, shown, shown₁, agrees.symm.trans (value ▸ agrees₁)⟩

/-! ### A desk -/

/-- A binding to the title of an element. -/
def titleBinding (i : Nat) : BindingCell :=
  { expression := .name "p", element := ⟨i⟩, property := "title", mode := .toView,
    targetObserver := .element ⟨i⟩ }

/-- An observer of the title of an element. -/
def titleObserver (i : Nat) : ElementPropertyCell :=
  { element := ⟨i⟩, property := "title", access := .property, handled := false }

/-- A view model with one property, and two bindings of it to the titles of two elements. -/
def desk : World Unit :=
  { (((World.new .standard ()).newObject [("p", .string "old")]).2.newLevel (.object ⟨0⟩)).2 with
    elements := (Store.empty.alloc { tag := "p", svg := false }).alloc { tag := "p", svg := false }
    elementProperties := (Store.empty.alloc (titleObserver 0)).alloc (titleObserver 1)
    bindings := (Store.empty.alloc (titleBinding 0)).alloc (titleBinding 1) }

/-- The desk with a property that stores twice the number written. -/
def doublingDesk : World Unit := desk.putSlot ⟨0⟩ "p" (.doubled .undefined)

/-- The scope of the desk. -/
def deskScope : Scope := .root ⟨.object ⟨0⟩, ⟨1⟩⟩

/-- A world after acts. -/
def afterActs (w : World Unit) (acts : List Act) : World Unit :=
  acts.foldl (fun w act => (act.run (machine Host.silent 9 9) "p" w).2) w

/-- The acts are allowed and go through. -/
abbrev GoThrough (w : World Unit) (acts : List Act) : Prop :=
  Reaches Host.silent (· = ⟨0⟩) "p" w acts (w.afterActs acts)

theorem goThrough_nil (w : World Unit) : w.GoThrough [] := .refl _

theorem GoThrough.step {w : World Unit} {acts : List Act} (before : w.GoThrough acts) {a : Act}
    (allowed : a.Allowed (w.afterActs acts) (· = ⟨0⟩) "p")
    (ok : ((a.run (machine Host.silent 9 9) "p" (w.afterActs acts)).1 matches .ok ()) = true) :
    w.GoThrough (acts ++ [a]) := by
  have after : w.afterActs (acts ++ [a]) =
      (a.run (machine Host.silent 9 9) "p" (w.afterActs acts)).2 := by simp [afterActs]
  have ran : a.run (machine Host.silent 9 9) "p" (w.afterActs acts) =
      (.ok (), w.afterActs (acts ++ [a])) := by
    rw [after]
    generalize a.run (machine Host.silent 9 9) "p" (w.afterActs acts) = result at ok
    obtain ⟨⟨⟩ | _ | _ | _, w⟩ := result <;> first | rfl | cases ok
  exact Reaches.step before allowed ran

/-- Binding goes through as long as the locals do not get the property. -/
theorem GoThrough.bind {w : World Unit} {acts : List Act} (before : w.GoThrough acts)
    (b : Ref .binding) (there : (w.afterActs acts).bindings.contains b = true)
    (locals : (w.afterActs acts).has ⟨1⟩ "p" = false)
    (ok : (((Act.bind b deskScope).run (machine Host.silent 9 9) "p" (w.afterActs acts)).1
      matches .ok ()) = true) : w.GoThrough (acts ++ [.bind b deskScope]) :=
  before.step ⟨there, ⟨0⟩, rfl, ⟨1⟩, rfl, locals, by decide⟩ ok

/-- Binds both bindings, writes a new value and flushes it. -/
def deskActs (threshold : Nat) : List Act :=
  [.threshold threshold, .bind ⟨0⟩ deskScope, .bind ⟨1⟩ deskScope, .set ⟨0⟩ (.string "new"), .flush]

theorem desk_acts_go_through {n : Nat} (h : n = 1 ∨ n = 2) : desk.GoThrough (deskActs n) := by
  have opened : desk.GoThrough [.threshold n] := (goThrough_nil desk).step trivial rfl
  rcases h with rfl | rfl
  all_goals
    have first := opened.bind ⟨0⟩ (by decide +kernel) (by decide +kernel) (by decide +kernel)
    have second := first.bind ⟨1⟩ (by decide +kernel) (by decide +kernel) (by decide +kernel)
    have written := second.step (a := .set ⟨0⟩ (.string "new")) rfl (by decide +kernel)
    exact written.step (a := .flush) trivial (by decide +kernel)

theorem desk_bindings {b : Ref .binding} {cell : BindingCell} (get : desk.bindings.get? b = some cell) :
    cell = titleBinding b.index ∧ desk.Feeder "p" cell := by
  have target : ∀ i : Nat, i = 0 ∨ i = 1 → desk.Feeder "p" (titleBinding i) := by
    rintro _ (rfl | rfl)
    · exact ⟨rfl, rfl, rfl, rfl, ⟨0⟩, titleObserver 0, rfl, rfl, rfl, rfl, rfl, rfl⟩
    · exact ⟨rfl, rfl, rfl, rfl, ⟨1⟩, titleObserver 1, rfl, rfl, rfl, rfl, rfl, rfl⟩
  obtain ⟨_ | _ | n⟩ := b
  · cases get
    exact ⟨rfl, target 0 (.inl rfl)⟩
  · cases get
    exact ⟨rfl, target 1 (.inr rfl)⟩
  · cases get

theorem desk_rested : desk.Rested (· = ⟨0⟩) "p" := by
  have h := ((unwatched_new Config.standard ()).newObject [("p", .string "old")]).newLevel
    (.object ⟨0⟩)
  have unwatched : desk.Unwatched := ⟨h.setters, h.dispatchers, h.properties, h.placeholders,
    h.polls, h.subscriptions, h.dispatcherCache, h.propertyCache, h.elementCache, h.contentsCache,
    h.objects, h.untrapped, h.microtasks⟩
  refine ⟨unwatched.wired, ?_, ?_, ?_, ?_, fun b cell get => ?_, ?_, ⟨rfl, rfl⟩, rfl⟩
  · rintro s o n sub ⟨-, l, t, -, -, m⟩
    rw [unwatched.audience] at m
    cases m
  · rintro _ rfl
    rfl
  · rintro _ rfl
    rfl
  · rintro _ rfl ⟨v, slot⟩
    cases slot
  · obtain ⟨rfl, rig⟩ := desk_bindings get
    exact ⟨rig, rfl, rfl⟩
  · rintro ⟨i⟩ ⟨j⟩ cell cell' get get' same
    obtain ⟨rfl, -⟩ := desk_bindings get
    obtain ⟨rfl, -⟩ := desk_bindings get'
    cases same
    rfl

theorem rests_silent : (Host.silent : Host Unit).Rests := fun _ _ _ => rfl

/-- On the desk the second binding connects at once if the threshold is two, and waits for a frame if
it is one.  Its element shows the same in the end. -/
theorem desk_thresholds_agree : ∃ w w',
    (Host.silent : Host Unit).Rests ∧ desk.Rested (· = ⟨0⟩) "p" ∧
    Reaches Host.silent (· = ⟨0⟩) "p" desk (deskActs 1 ++ [.frame]) w ∧
    Reaches Host.silent (· = ⟨0⟩) "p" desk (deskActs 2) w' ∧ w.Calmed ∧ w'.Calmed ∧
      w.sourceOf? ⟨1⟩ = some deskScope ∧
        ∃ v v', w.shownBy? ⟨1⟩ = some v ∧ w'.shownBy? ⟨1⟩ = some v' ∧ v.Agrees v' := by
  have one := (desk_acts_go_through (.inl rfl)).step (a := .frame) trivial (by decide +kernel)
  have two := desk_acts_go_through (.inr rfl)
  have calm : (desk.afterActs (deskActs 1 ++ [.frame])).Calmed :=
    ⟨by decide +kernel, by decide +kernel⟩
  have calm' : (desk.afterActs (deskActs 2)).Calmed := ⟨by decide +kernel, by decide +kernel⟩
  have bound : (desk.afterActs (deskActs 1 ++ [.frame])).sourceOf? ⟨1⟩ = some deskScope := by
    decide +kernel
  obtain ⟨-, -, -, -, agree⟩ := threshold_invisible rests_silent desk_rested one
  exact ⟨_, _, rests_silent, desk_rested, one, two, calm, calm', bound, agree Host.silent desk _ _
    rests_silent desk_rested two rfl rfl calm calm' ⟨1⟩ (by rw [bound]; exact nofun)⟩

/-- **The connect threshold shows** in what unbound bindings leave behind.  If the second connect
waits for a frame then the new value never reaches the second element, as the binding is unbound
before.  And a property that does not hold what is written to it is not followed. -/
theorem threshold_visible :
    (∃ w w', Reaches Host.silent (· = ⟨0⟩) "p" desk
        (deskActs 1 ++ [.unbind ⟨0⟩] ++ [.unbind ⟨1⟩] ++ [.frame]) w ∧
      Reaches Host.silent (· = ⟨0⟩) "p" desk
        (deskActs 2 ++ [.unbind ⟨0⟩] ++ [.unbind ⟨1⟩] ++ [.frame]) w' ∧ w.Calmed ∧ w'.Calmed ∧
      w.shownBy? ⟨1⟩ = some (.string "old") ∧ w'.shownBy? ⟨1⟩ = some (.string "new")) ∧
    (∃ w, Reaches Host.silent (· = ⟨0⟩) "p" doublingDesk
        ([.bind ⟨0⟩ deskScope] ++ [.set ⟨0⟩ (.string "new")] ++ [.flush]) w ∧ w.Calmed ∧
      w.sourceOf? ⟨0⟩ = some deskScope ∧ w.shownBy? ⟨0⟩ = some .undefined ∧
        ¬ (w.get ⟨0⟩ "p").Agrees .undefined) := by
  have one := (((desk_acts_go_through (.inl rfl)).step (a := .unbind ⟨0⟩) trivial
    (by decide +kernel)).step (a := .unbind ⟨1⟩) trivial (by decide +kernel)).step (a := .frame) trivial
      (by decide +kernel)
  have two := (((desk_acts_go_through (.inr rfl)).step (a := .unbind ⟨0⟩) trivial
    (by decide +kernel)).step (a := .unbind ⟨1⟩) trivial (by decide +kernel)).step (a := .frame) trivial
      (by decide +kernel)
  have doubled := (((goThrough_nil doublingDesk).bind ⟨0⟩ (by decide +kernel) (by decide +kernel)
    (by decide +kernel)).step (a := .set ⟨0⟩ (.string "new")) rfl (by decide +kernel)).step (a := .flush)
      trivial (by decide +kernel)
  refine ⟨⟨_, _, one, two, ⟨?_, ?_⟩, ⟨?_, ?_⟩, ?_, ?_⟩, _, doubled, ⟨?_, ?_⟩, ?_, ?_, ?_⟩
  case refine_11 =>
    rintro (same | ⟨-, nan⟩)
    · exact absurd same (by decide +kernel)
    · cases nan
  all_goals decide +kernel

end World

end ViewBinding
