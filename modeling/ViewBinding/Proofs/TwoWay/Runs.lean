import ViewBinding.Proofs.Leaf.Unwatched
import ViewBinding.Proofs.TwoWay.Bind

/-!
# TwoWay — runs

Elements are bound to one property of an object, the property and the elements are written in any
order, and the microtasks are flushed now and then (`Act`).  Every act but a flush goes through.  A
flush runs the microtasks that wait when it begins and no others, and afterwards every element shows
the value of the property — unless a write of a value that is not the same as itself waits to be
told.  Such a flush never ends (`two_way_settles_iff`, `nan_never_settles`).
-/

namespace ViewBinding

/-- What is done with a property and the elements that are bound to it. -/
inductive Act where
  /-- Makes a binding of an element and binds it. -/
  | bind (e : Ref .element) (scope : Scope)
  /-- Writes the property. -/
  | write (v : Value)
  /-- Writes the value of an element and lets the element tell about an event. -/
  | input (e : Ref .element) (v : Value) (event : String)
  /-- Runs the microtasks. -/
  | flush

variable {η : Type}

/-- Carries out an act on the property `p` of `vm`. -/
def Act.run (env : Env η) (vm : Ref .object) (p : String) : Act → Run η Unit
  | bind e scope => do
    let b ← Run.update fun w => w.newBinding e "value" (.name p) .twoWay
    Run.bindTo env b scope
  | write v => Run.modify fun w => w.set vm p v
  | input e v event => do
    Run.modify fun w => w.elementSet e "value" v
    Run.dispatchEvent env e event
  | flush => discard (Run.flushMicrotasks env)

/-- Only an input element that is not bound yet is bound, in a scope where the name means the
property, and only a bound element is written, and tells about an event that is observed. -/
def Act.Allowed (w : World η) (vm : Ref .object) (p : String) : Act → Prop
  | bind e scope => w.IsBlank e ∧ w.ownerOf scope p = .object vm ∧
    ∀ b cell, w.bindings.get? b = some cell → cell.element ≠ e
  | write _ => True
  | input e _ event => (∃ b cell, w.bindings.get? b = some cell ∧ cell.element = e) ∧
    event ∈ w.config.observedEvents
  | flush => True

/-- `w'` comes from `w` by acts that are allowed. -/
inductive Act.Reaches (host : Host η) (vm : Ref .object) (p : String) : World η → World η → Prop
  | refl (w : World η) : Reaches host vm p w w
  | step {w w' w'' : World η} {act : Act} {rounds depth : Nat} (before : Reaches host vm p w w')
      (allowed : act.Allowed w' vm p)
      (ran : act.run (machine host rounds (depth + 2)) vm p w' = (.ok (), w'')) :
      Reaches host vm p w w''

namespace World

variable {w w' : World η} {vm : Ref .object} {p : String} {e : Ref .element} {b : Ref .binding}
  {cell : BindingCell} {host : Host η} {rounds depth : Nat} {cut : Prop}

/-- Nothing is bound or watched yet, and an unfrozen object has the property as data. -/
structure Starts (w : World η) (vm : Ref .object) (p : String) : Prop where
  unwatched : w.Unwatched
  unbound : ∀ b, w.bindings.get? b = none
  observable : w.config.isObservable "value" = true
  rests : w.tasks.flushing = false
  unfrozen : w.isFrozen vm = false
  data : ∃ v, w.slot? vm p = some (.data v)

/-- What holds between two acts. -/
structure Settling (w : World η) (vm : Ref .object) (p : String) : Prop where
  ties : w.Ties vm p
  shown : w.Shown vm p
  rests : w.tasks.flushing = false

theorem Starts.settling (h : w.Starts vm p) : w.Settling vm p := by
  obtain ⟨v, slot⟩ := h.data
  refine ⟨⟨h.unwatched.wired, h.observable, ?_, h.unfrozen, ?_, ?_, ?_, ?_, ?_⟩, ?_, h.rests⟩
  · cases get : w.objects.get? vm with
    | none => simp [slot?, get] at slot
    | some c => simp [Store.contains, get]
  · simp [World.has, slot]
  · rintro ⟨v', slot'⟩
    rw [slot] at slot'
    cases slot'
  · intro b cell get
    simp [h.unbound] at get
  · intro b b' cell cell' get
    simp [h.unbound] at get
  · rintro s o n sub ⟨-, l, t, -, -, m⟩
    simp [h.unwatched.audience] at m
  · intro b cell get
    simp [h.unbound] at get

/-! ### A form -/

/-- A view model with one property, and one input element. -/
def form : World Unit :=
  (((((World.new .standard ()).newObject [("p", .number 1.0)]).2).newLevel (.object ⟨0⟩)).2.newElement
    "input" false).2

/-- The scope of the form. -/
def formScope : Scope := .root ⟨.object ⟨0⟩, ⟨1⟩⟩

theorem form_starts : form.Starts ⟨0⟩ "p" where
  unwatched := (((unwatched_new .standard ()).newObject _).newLevel _).newElement _ _
  unbound _ := rfl
  observable := by decide
  rests := rfl
  unfrozen := by decide
  data := ⟨.number 1.0, rfl⟩

theorem form_bind_allowed : Act.Allowed form ⟨0⟩ "p" (.bind ⟨0⟩ formScope) := by
  have tag : "input".toLower = "input" := by decide +kernel
  refine ⟨⟨⟨{ tag := "input".toLower, svg := false }, rfl, tag, rfl, rfl⟩, rfl⟩, by decide, ?_⟩
  intro b cell get
  rw [form_starts.unbound] at get
  cases get

/-! ### Acts -/

theorem Settling.write (S : w.Settling vm p) (v : Value) : (w.set vm p v).Settling vm p := by
  obtain ⟨ties, writes, result⟩ := S.ties.set v
  have backdrop := writes.backdrop
  have bindings : (w.set vm p v).bindings = w.bindings := congrArg Backdrop.bindings backdrop
  refine ⟨ties, ?_, (congrArg Backdrop.flushing backdrop).trans S.rests⟩
  rcases result with ⟨same, -⟩ | ⟨-, -, due⟩
  · rw [same]
    exact S.shown
  · intro b cell get
    exact .inl (due b (bindings ▸ Option.isSome_iff_exists.2 ⟨cell, get⟩))

/-- **An element that tells** what it shows settles its own binding. -/
theorem tellElement_settles {r : Ref .elementProperty} (T : w.Ties vm p)
    (rests : w.tasks.flushing = false) (get : w.bindings.get? b = some cell)
    (watches : w.Watches r cell.element b)
    (others : ∀ b' cell', w.bindings.get? b' = some cell' → b' ≠ b →
      w.Due vm p ∨ (w.get vm p).Agrees (w.elementGet cell'.element "value")) :
    (Run.tellElement (machine host rounds (depth + 1)) r).Ends cut w fun _ w' =>
      w'.Settling vm p ∧ w'.bindings = w.bindings := by
  let v := w.elementGet cell.element "value"
  have aside := aside_withSeen w r v
  have seen : (w.withSeen r v).Ties vm p :=
    T.spares (aside.spares T.wired) rfl fun _ _ _ h => h.withSeen r _
  refine tellElement_spec T get watches ?_
  obtain ⟨ties, writes, result⟩ := seen.set v
  have backdrop := writes.backdrop
  have bindings : ((w.withSeen r v).set vm p v).bindings = w.bindings :=
    congrArg Backdrop.bindings backdrop
  refine ⟨⟨ties, ?_, (congrArg Backdrop.flushing backdrop).trans rests⟩, bindings⟩
  rcases result with ⟨unchanged, same⟩ | ⟨-, -, due⟩
  · rw [unchanged]
    rw [aside.get] at same
    intro b' cell' get'
    rw [aside.due, aside.get]
    by_cases is : b' = b
    · subst is
      rw [show (w.withSeen r v).bindings.get? b' = w.bindings.get? b' from rfl, get] at get'
      cases get'
      exact .inr (.inl same)
    · exact others b' cell' get' is
  · intro b' cell' get'
    exact .inl (due b' (bindings ▸ Option.isSome_iff_exists.2 ⟨cell', get'⟩))

/-- **A bound element is written** and tells about it. -/
theorem Settling.input (S : w.Settling vm p) (get : w.bindings.get? b = some cell) (v : Value)
    {event : String} (observed : event ∈ w.config.observedEvents) :
    (Act.run (machine host rounds (depth + 1)) vm p (.input cell.element v event)).Ends cut w
      fun _ w' => w'.Settling vm p := by
  obtain ⟨-, -, ⟨r, observer, watches⟩, -⟩ := S.ties.paired b cell get
  have aside := aside_elementSet w cell.element "value" v
  have T : (w.elementSet cell.element "value" v).Ties vm p :=
    S.ties.spares (aside.spares S.ties.wired) rfl fun _ _ _ h => h.elementSet cell.element _ v
  have watches' := watches.elementSet cell.element "value" v
  obtain ⟨c, there, all, each⟩ := watches'.element
  have listeners : (c.eventListeners.toList.filter (·.1 = event)) ≠ [] :=
    List.ne_nil_of_mem (List.mem_filter.2 ⟨each event observed, by simp⟩)
  have told : ∀ l ∈ c.eventListeners.toList.filter (·.1 = event), l.2 = .property r :=
    fun l m => all l (List.mem_filter.1 m).1
  simp only [Act.run, Run.ends_bind, Run.ends_modify, Run.dispatchEvent, Run.ends_read, there,
    Option.map_some, Option.getD_some]
  obtain ⟨first, rest, split⟩ := List.exists_cons_of_ne_nil listeners
  rw [split] at told ⊢
  obtain ⟨_, _⟩ := first
  obtain rfl := told _ List.mem_cons_self
  rw [Run.ends_forEach_cons]
  refine (tellElement_settles T S.rests get watches' fun b' cell' get' other => ?_).mono
    fun _ w₁ h => ?_
  · -- the elements of the others are not written
    have ne : cell'.element ≠ cell.element := fun same =>
      other (S.ties.apart b' b cell' cell get' get same)
    rw [aside.due, aside.get, elementGet_elementSet_of_ne _ _ _ ne]
    exact S.shown b' cell' get'
  -- the element may tell the same once more, as it may listen to an event several times
  refine (Run.ends_forEach (fun items w' => (∀ l ∈ items, l.2 = EventListener.property r) ∧
    w'.Settling vm p ∧ w'.bindings = w.bindings) ⟨fun l m => told l (List.mem_cons_of_mem _ m), h⟩
      ?_).mono fun _ w' h => h.2.1
  rintro ⟨_, _⟩ items w₂ ⟨told, S₂, bindings⟩
  obtain rfl := told _ List.mem_cons_self
  have get₂ : w₂.bindings.get? b = some cell := bindings ▸ get
  obtain ⟨-, -, ⟨r', observer', watches₂⟩, -⟩ := S₂.ties.paired b cell get₂
  obtain rfl : r = r' := by simpa [observer] using observer'
  refine (tellElement_settles S₂.ties S₂.rests get₂ watches₂ fun b' cell' get' _ =>
    S₂.shown b' cell' get').mono fun _ w₃ h => ?_
  exact ⟨fun l m => told l (List.mem_cons_of_mem _ m), h.1, h.2.trans bindings⟩

theorem Settling.bind (S : w.Settling vm p) (blank : w.IsBlank e) {scope : Scope}
    (owner : w.ownerOf scope p = .object vm)
    (own : ∀ b cell, w.bindings.get? b = some cell → cell.element ≠ e) :
    (Act.run (machine host rounds (depth + 1)) vm p (.bind e scope)).Ends cut w fun _ w' =>
      w'.Settling vm p ∧ ∃ b, w'.bindings.contains b = true := by
  simp only [Act.run, Run.ends_bind, Run.ends_update]
  refine (bindTwoWay_spec S.ties S.shown blank own owner).mono ?_
  rintro _ w' ⟨T, shown, same, there⟩
  exact ⟨⟨T, shown, same.trans S.rests⟩, _, there⟩

/-- **A calm flush** ends if there are rounds for the microtasks that wait. -/
theorem Settling.flush (S : w.Settling vm p) (calm : w.Calm vm p)
    (enough : rounds ≤ w.tasks.microtasks.length → cut) :
    (Run.flushMicrotasks (machine host rounds (depth + 2))).Ends cut w fun ran w' =>
      ran = w.tasks.microtasks.length ∧ w'.Settling vm p ∧ w'.tasks.microtasks = [] := by
  have aside := aside_markFlushing w true
  rw [Run.ends_flush S.rests]
  refine (drainMicrotasks_calm w.tasks.microtasks (Run.markFlushing true w) _ 0
    (S.ties.markFlushing true) ?_ ?_ rfl enough).mono ?_
  · intro b cell get
    rw [aside.due, aside.get]
    exact S.shown b cell get
  · rintro ⟨nan, due, there⟩
    exact calm ⟨aside.get vm p ▸ nan, (aside.due vm p).1 due, there⟩
  · rintro ran w' ⟨rfl, T, shown, idle⟩
    have aside' := aside_markFlushing w' false
    refine ⟨Nat.zero_add _, ⟨T.markFlushing false, fun b cell get => ?_, rfl⟩, idle⟩
    rw [aside'.due, aside'.get]
    exact shown b cell get

/-- **A restless flush** never ends. -/
theorem Settling.flush_restless (S : w.Settling vm p) (restless : ¬ w.Calm vm p) :
    (Run.flushMicrotasks (machine host rounds (depth + 2))).Ends True w fun _ _ => False := by
  have aside := aside_markFlushing w true
  rw [Run.ends_flush S.rests]
  refine drainMicrotasks_restless _ (Run.markFlushing true w) 0 (S.ties.markFlushing true) ?_ ?_
  · intro b cell get
    rw [aside.due, aside.get]
    exact S.shown b cell get
  · refine fun calm => restless ?_
    rintro ⟨nan, due, there⟩
    exact calm ⟨(aside.get vm p).symm ▸ nan, (aside.due vm p).2 due, there⟩

/-- Where nothing waits, every bound element shows the source. -/
theorem Settling.agrees (S : w.Settling vm p) (idle : w.tasks.microtasks = [])
    (get : w.bindings.get? b = some cell) :
    (w.get vm p).Agrees (w.elementGet cell.element "value") :=
  (S.shown b cell get).resolve_left (S.ties.wired.not_due idle vm p)

/-- **What one act keeps.** -/
theorem Settling.act (S : w.Settling vm p) {act : Act} (allowed : act.Allowed w vm p)
    (ran : act.run (machine host rounds (depth + 2)) vm p w = (.ok (), w')) :
    w'.Settling vm p := by
  have kept : (act.run (machine host rounds (depth + 2)) vm p).Ends True w fun _ w' =>
      w'.Settling vm p := by
    cases act with
    | bind e scope =>
      exact (S.bind allowed.1 allowed.2.1 allowed.2.2).mono fun _ _ h => h.1
    | write v => exact S.write v
    | input e v event =>
      obtain ⟨⟨b, cell, get, rfl⟩, observed⟩ := allowed
      exact S.input get v observed
    | flush =>
      simp only [Act.run, Run.ends_discard]
      by_cases calm : w.Calm vm p
      · exact (S.flush calm fun _ => trivial).mono fun _ _ h => h.2.1
      · exact (S.flush_restless calm).mono fun _ _ h => h.elim
  exact (Run.ends_of_eq_ok ran).1 kept

/-- **What every run keeps.** -/
theorem Settling.reaches (S : w.Settling vm p) (reaches : Act.Reaches host vm p w w') :
    w'.Settling vm p := by
  induction reaches with
  | refl => exact S
  | step _ allowed ran ih => exact ih.act allowed ran

/-- **Two-way bindings settle** exactly when no write of a value that is not the same as itself
waits to be told to them.  Whatever has been done before, every act but a flush goes through; a
flush gives a result with some number of rounds exactly in a calm world, and then it runs the
microtasks that wait and no others, and every bound element shows the source afterwards. -/
theorem two_way_settles_iff (starts : w.Starts vm p) (reaches : Act.Reaches host vm p w w')
    (depth : Nat) :
    (∀ (act : Act) rounds, act.Allowed w' vm p → act ≠ .flush →
      ∃ w'', act.run (machine host rounds (depth + 2)) vm p w' = (.ok (), w'')) ∧
    ((∃ rounds ran w'', Run.flushMicrotasks (machine host rounds (depth + 2)) w' = (.ok ran, w''))
      ↔ w'.Calm vm p) ∧
    (w'.Calm vm p → ∀ rounds, w'.tasks.microtasks.length < rounds →
      ∃ w'', Run.flushMicrotasks (machine host rounds (depth + 2)) w' =
          (.ok w'.tasks.microtasks.length, w'') ∧
        w''.tasks.microtasks = [] ∧ ∀ b cell, w''.bindings.get? b = some cell →
          (w''.get vm p).Agrees (w''.elementGet cell.element "value")) := by
  have S := starts.settling.reaches reaches
  have settles : w'.Calm vm p → ∀ rounds, w'.tasks.microtasks.length < rounds →
      ∃ w'', Run.flushMicrotasks (machine host rounds (depth + 2)) w' =
          (.ok w'.tasks.microtasks.length, w'') ∧
        w''.tasks.microtasks = [] ∧ ∀ b cell, w''.bindings.get? b = some cell →
          (w''.get vm p).Agrees (w''.elementGet cell.element "value") := by
    intro calm rounds enough
    have ends : (Run.flushMicrotasks (machine host rounds (depth + 2))).Ends False w' _ :=
      S.flush calm fun few => absurd enough (Nat.not_lt.2 few)
    obtain ⟨ran, w'', result, rfl, S', idle⟩ := ends.exists_eq_ok
    exact ⟨w'', result, idle, fun b cell get => S'.agrees idle get⟩
  refine ⟨fun act rounds allowed other => ?_, ⟨?_, fun calm => ?_⟩, settles⟩
  · have goes : (act.run (machine host rounds (depth + 2)) vm p).Ends False w' fun _ _ => True := by
      cases act with
      | bind e scope =>
        exact (S.bind allowed.1 allowed.2.1 allowed.2.2).mono fun _ _ _ => trivial
      | write v => trivial
      | input e v event =>
        obtain ⟨⟨b, cell, get, rfl⟩, observed⟩ := allowed
        exact (S.input get v observed).mono fun _ _ _ => trivial
      | flush => exact absurd rfl other
    obtain ⟨⟨⟩, w'', result, -⟩ := goes.exists_eq_ok
    exact ⟨w'', result⟩
  · rintro ⟨rounds, ran, w'', result⟩
    refine Classical.byContradiction fun restless => ?_
    exact (Run.ends_of_eq_ok result).1 (S.flush_restless restless)
  · obtain ⟨w'', result, -⟩ := settles calm _ (Nat.lt_succ_self _)
    exact ⟨_, _, w'', result⟩

/-- The form is bound, and its source is written. -/
theorem form_written (v : Value) : ∃ w, Act.Reaches Host.silent ⟨0⟩ "p" form w ∧
    w.Settling ⟨0⟩ "p" ∧ (∃ b, w.bindings.contains b = true) ∧ (v.IsNaN → ¬ w.Calm ⟨0⟩ "p") ∧
      (¬ v.IsNaN → w.Calm ⟨0⟩ "p") := by
  have S := form_starts.settling
  obtain ⟨blank, owner, own⟩ := form_bind_allowed
  have ends : (Act.run (machine Host.silent 1 2) ⟨0⟩ "p" (.bind ⟨0⟩ formScope)).Ends False form _ :=
    S.bind blank owner own
  obtain ⟨⟨⟩, w₁, ran, S₁, b, there⟩ := ends.exists_eq_ok
  have written : (Act.write v).run (machine Host.silent 1 2) ⟨0⟩ "p" w₁ =
    (.ok (), w₁.set ⟨0⟩ "p" v) := rfl
  have allowed : (Act.write v).Allowed w₁ ⟨0⟩ "p" := trivial
  have reaches : Act.Reaches Host.silent ⟨0⟩ "p" form (w₁.set ⟨0⟩ "p" v) :=
    .step (.step (.refl form) form_bind_allowed ran) allowed written
  obtain ⟨-, writes, result⟩ := S₁.ties.set v
  have there' : (w₁.set ⟨0⟩ "p" v).bindings.contains b = true := by
    rw [show (w₁.set ⟨0⟩ "p" v).bindings = _ from congrArg Backdrop.bindings writes.backdrop]
    exact there
  refine ⟨_, reaches, S₁.write v, ⟨b, there'⟩, fun nan calm => ?_, fun number => ?_⟩
  · rcases result with ⟨-, same⟩ | ⟨-, get, due⟩
    · rw [Value.same_comm, Value.same_eq_false nan] at same
      cases same
    · exact calm ⟨get.symm ▸ nan, due b there, b, there'⟩
  · rintro ⟨nan, -⟩
    rcases result with ⟨unchanged, same⟩ | ⟨-, get, -⟩
    · rw [unchanged] at nan
      rw [Value.same_eq_false nan] at same
      cases same
    · exact number (get ▸ nan)

/-- After its source has become a text the form settles. -/
theorem form_settles : ∃ w w', form.Starts ⟨0⟩ "p" ∧ Act.Reaches Host.silent ⟨0⟩ "p" form w ∧
    (∃ b, w.bindings.contains b = true) ∧
    Run.flushMicrotasks (machine Host.silent (w.tasks.microtasks.length + 1) 2) w =
      (.ok w.tasks.microtasks.length, w') ∧
    ∀ b cell, w'.bindings.get? b = some cell →
      (w'.get ⟨0⟩ "p").Agrees (w'.elementGet cell.element "value") := by
  obtain ⟨w, reaches, -, bound, -, calm⟩ := form_written (.string "a")
  obtain ⟨-, -, settles⟩ := two_way_settles_iff form_starts reaches 0
  obtain ⟨w', flushed, -, agrees⟩ := settles (calm (by decide)) _ (Nat.lt_succ_self _)
  exact ⟨w, w', form_starts, reaches, bound, flushed, agrees⟩

/-- After its source has become a number that is not the same as itself the form never settles. -/
theorem nan_never_settles : ∃ w, form.Starts ⟨0⟩ "p" ∧ Act.Reaches Host.silent ⟨0⟩ "p" form w ∧
    ∀ rounds ran w', Run.flushMicrotasks (machine Host.silent rounds 2) w ≠ (.ok ran, w') := by
  obtain ⟨w, reaches, S, -, restless, -⟩ := form_written (.number (0.0 / 0.0))
  refine ⟨w, form_starts, reaches, fun rounds ran w' flushed => ?_⟩
  have never : (Run.flushMicrotasks (machine Host.silent rounds 2)).Ends True w _ :=
    S.flush_restless (restless (by decide))
  exact (Run.ends_of_eq_ok flushed).1 never

end World

end ViewBinding
