import Mathlib.Data.List.Nodup
import ViewBinding.Proofs.Arrays.Deeds
import ViewBinding.Proofs.Leaf.Dispose
import ViewBinding.Proofs.Newest.Book
import ViewBinding.Proofs.Sameness

/-!
# Polling — what is tracked

A polled property is tracked, once, while it has subscribers, and then a value is kept for it: the
one that the last look saw, or one that no check tells apart from it.  `World.KeepsTrack` says so,
given the looks so far.  It is kept by whatever concerns polled properties: subscribing
(`KeepsTrack.begin`, `KeepsTrack.enlist`), disposing (`disposes_dispose`), looking
(`KeepsTrack.look`), the beginning of a check (`KeepsTrack.beginCheck`), and by all that does not
(`World.PollsAside`).

Here polling is the only way to observe (`World.PollsOnly`), and that remains so.
-/

namespace ViewBinding

/-- Values that no check tells apart. -/
def Value.Passes (a b : Value) : Prop := a = b ∨ a.same b = true

theorem Value.Passes.same_eq {a b : Value} (h : a.Passes b) (c : Value) : a.same c = b.same c := by
  obtain rfl | same := h
  · rfl
  · rw [Bool.eq_iff_iff]
    exact ⟨same_trans (same_symm same), same_trans same⟩

namespace World

variable {η : Type} {w w' : World η} {r r' : Ref .poll} {looks : List (Ref .poll × Value)}

/-- Nothing is observed but by polling, and hooks are all that is called. -/
structure PollsOnly (w : World η) : Prop where
  microtasks : ∀ task ∈ w.tasks.microtasks, ∃ h, task = .hook h
  frames : ∀ task ∈ w.tasks.frames, task = .poll ∨ ∃ h, task = .hook h
  objects : ∀ o cell, w.objects.get? o = some cell → cell.listeners.isEmpty = true ∧
    ∀ p ∈ cell.properties, ∀ s, p.2 ≠ .trap s
  callbacks : ∀ r cell, w.polls.get? r = some cell →
    ∀ p ∈ cell.callbacks.entries, ∃ h, p.2 = .hook h
  subscriptions : ∀ s d, w.disposal? s = some d → ∃ r t, d = .callback (.leaf (.poll r)) t

/-- Something happens that is no business of the checker: things are made or go, properties are
written, hooks are queued, the host changes. -/
structure PollsAside (w w' : World η) : Prop where
  polling : w'.polling = w.polling
  frames : w'.tasks.frames.count .poll = w.tasks.frames.count .poll
  size : w.polls.size ≤ w'.polls.size
  /-- A polled property is as it was, or it is new. -/
  polls : ∀ r cell, w'.polls.get? r = some cell → w.polls.get? r = some cell ∨
    (w.polls.size ≤ r.index ∧ cell.callbacks.entries = [] ∧ cell.old = none)
  only : w.PollsOnly → w'.PollsOnly

/-- A property is tracked while it has subscribers, and then a value is kept that no check tells apart
from the one that the last look saw. -/
structure Kept (tracked : List (Ref .poll)) (looks : List (Ref .poll × Value)) (r : Ref .poll)
    (cell : PollCell) : Prop where
  tracked : r ∈ tracked ↔ cell.callbacks.entries ≠ []
  unseen : cell.callbacks.entries = [] → cell.old = none
  seen : cell.callbacks.entries ≠ [] →
    ∃ old last, cell.old = some old ∧ looks.lookup r = some last ∧ old.Passes last

/-- What is tracked, and what is kept of the looks. -/
structure KeepsTrack (w : World η) (looks : List (Ref .poll × Value)) : Prop where
  nodup : w.polling.tracked.Nodup
  known : ∀ r ∈ w.polling.tracked, r.index < w.polls.size
  each : ∀ r cell, w.polls.get? r = some cell → Kept w.polling.tracked looks r cell

/-- Nobody is subscribed to the property. -/
def isUnwatched (w : World η) (r : Ref .poll) : Bool :=
  ((w.polls.get? r).map (·.callbacks.isEmpty)).getD false

/-- A check begins: it forgets the properties that are gone. -/
def beginCheck (w : World η) : World η :=
  { w with polling :=
    { scheduled := false, tracked := w.polling.tracked.filter fun r => w.polls.contains r } }

/-- The value of a property is kept as the one last seen. -/
def keepSeen (w : World η) (r : Ref .poll) : World η :=
  w.modifyPoll r fun cell => { cell with old := some (w.leafValue (.poll r)) }

/-- A check ends. -/
def endCheck (w : World η) : World η :=
  if w.polling.tracked.isEmpty then w else w.schedulePolling

/-! ### Polled properties -/

theorem isUnwatched_iff : w.isUnwatched r = true ↔
    ∃ cell, w.polls.get? r = some cell ∧ cell.callbacks.entries = [] := by
  rw [isUnwatched]
  cases w.polls.get? r with
  | none => simp
  | some cell => simp [Listeners.isEmpty]

theorem entries_add_ne {κ : Type} (l : Listeners κ) (t : Token) (k : κ) :
    (l.add t k).entries ≠ [] := by
  simp [Listeners.add]

/-- What is kept of a property after its cell is changed. -/
theorem get?_modifyPoll {f : PollCell → PollCell} {cell : PollCell}
    (get : (w.modifyPoll r f).polls.get? r' = some cell) :
    (r' = r ∧ ∃ cell', w.polls.get? r = some cell' ∧ cell = f cell') ∨
      (r' ≠ r ∧ w.polls.get? r' = some cell) := by
  rw [modifyPoll, Store.get?_modify] at get
  split at get
  next same =>
    obtain ⟨cell', get', is⟩ := Option.map_eq_some_iff.1 get
    exact .inl ⟨same, cell', get', is.symm⟩
  next other => exact .inr ⟨other, get⟩

/-- The value of a property does not depend on what is kept of it. -/
theorem leafValue_modifyPoll (w : World η) {f : PollCell → PollCell}
    (object : ∀ cell, (f cell).object = cell.object)
    (property : ∀ cell, (f cell).property = cell.property) :
    (w.modifyPoll r f).leafValue (.poll r) = w.leafValue (.poll r) := by
  have get : (w.modifyPoll r f).polls.get? r = (w.polls.get? r).map f :=
    Store.get?_modify_self ..
  simp only [leafValue, get]
  cases w.polls.get? r with
  | none => rfl
  | some cell =>
    simp only [Option.map_some, object, property]
    rfl

/-! ### Subscribing -/

@[simp] theorem polls_schedulePolling : w.schedulePolling.polls = w.polls := by
  unfold schedulePolling
  split <;> rfl

@[simp] theorem tracked_schedulePolling :
    w.schedulePolling.polling.tracked = w.polling.tracked := by
  unfold schedulePolling
  split <;> rfl

@[simp] theorem scheduled_schedulePolling : w.schedulePolling.polling.scheduled = true := by
  unfold schedulePolling
  split
  next scheduled => exact scheduled
  · rfl

theorem count_schedulePolling : w.schedulePolling.tasks.frames.count .poll =
    if w.polling.scheduled then w.tasks.frames.count .poll else w.tasks.frames.count .poll + 1 := by
  unfold schedulePolling
  split
  · rfl
  · exact List.count_append.trans rfl

/-- A hook is registered with a polled property. -/
def enlistPoll (w : World η) (r : Ref .poll) (h : Ref .hook) : World η :=
  ({ w with nextToken := w.nextToken + 1 } : World η).modifyPoll r fun cell =>
    { cell with callbacks := cell.callbacks.add ⟨w.nextToken⟩ (.hook h) }

/-- The first hook makes the property be looked at and tracked. -/
def beginPolling (w : World η) (r : Ref .poll) (v : Value) : World η :=
  (w.modifyPoll r fun cell => { cell with old := some v }).track r

/-- What subscribing does. -/
theorem subscribePoll_snd (w : World η) (r : Ref .poll) (h : Ref .hook) :
    (w.subscribePoll r (.hook h)).2 =
      ((if w.isUnwatched r then (w.enlistPoll r h).beginPolling r (w.leafValue (.poll r))
        else w.enlistPoll r h).newSubscription
          (some (.callback (.leaf (.poll r)) ⟨w.nextToken⟩))).2 := by
  have value : (w.enlistPoll r h).leafValue (.poll r) = w.leafValue (.poll r) :=
    leafValue_modifyPoll _ (fun _ => rfl) fun _ => rfl
  rw [← value]
  cases first : w.isUnwatched r <;> rw [isUnwatched] at first <;>
    simp only [subscribePoll, first] <;> rfl

/-! ### Disposing -/

/-- Ending a registration with anything but a polled property is no business of the checker. -/
theorem undoCallback_polls (w : World η) (t : Token) {ob : Observer}
    (other : ∀ r, ob ≠ .leaf (.poll r)) :
    (w.undoCallback t ob).2.polls = w.polls ∧ (w.undoCallback t ob).2.polling = w.polling := by
  cases ob with
  | leaf l =>
    cases l with
    | poll r => exact (other r rfl).elim
    | setter _ | property _ => exact ⟨rfl, rfl⟩
    | placeholder _ =>
      simp only [undoCallback]
      split <;> exact ⟨rfl, rfl⟩
    | element _ | select _ =>
      simp only [undoCallback]
      split
      · exact ⟨rfl, rfl⟩
      · split <;> exact ⟨rfl, rfl⟩
    | contents _ =>
      simp only [undoCallback]
      split
      · exact ⟨rfl, rfl⟩
      · split
        · split <;> exact ⟨rfl, rfl⟩
        · exact ⟨rfl, rfl⟩
  | path _ | composite _ =>
    simp only [undoCallback]
    split
    · exact ⟨rfl, rfl⟩
    · split <;> exact ⟨rfl, rfl⟩

/-- A hook leaves a polled property: the last one ends that it is tracked. -/
theorem undoCallback_poll_cases (w : World η) (t : Token) (r : Ref .poll) :
    ((w.undoCallback t (.leaf (.poll r))).2 = w ∧ w.polls.get? r = none) ∨
    ∃ cell, w.polls.get? r = some cell ∧
      (((cell.callbacks.remove t).entries = [] ∧
        (w.undoCallback t (.leaf (.poll r))).2 =
          { w.modifyPoll r fun c => { c with callbacks := cell.callbacks.remove t, old := none } with
            polling := { w.polling with tracked := w.polling.tracked.filter (· ≠ r) } }) ∨
      ((cell.callbacks.entries = [] ↔ (cell.callbacks.remove t).entries = []) ∧
        (w.undoCallback t (.leaf (.poll r))).2 =
          w.modifyPoll r fun c => { c with callbacks := cell.callbacks.remove t })) := by
  unfold undoCallback
  dsimp only
  split
  next gone => exact .inl ⟨rfl, gone⟩
  next cell get =>
    refine .inr ⟨cell, get, ?_⟩
    split
    next last =>
      rw [Bool.and_eq_true, Listeners.isEmpty, List.isEmpty_iff] at last
      exact .inl ⟨last.2, rfl⟩
    next others =>
      refine .inr ⟨⟨fun none => ?_, fun none => ?_⟩, rfl⟩
      · rw [Listeners.remove, none, List.filter_nil]
      · have absent : cell.callbacks.contains t = false := by
          rw [Bool.and_eq_true, Listeners.isEmpty, List.isEmpty_iff, not_and_or] at others
          exact others.elim (Bool.eq_false_iff.2 ·) fun some => (some none).elim
        refine Eq.trans ?_ none
        refine (List.filter_eq_self.2 fun p m => ?_).symm
        have := List.any_eq_false.1 absent p m
        simpa using this

/-- Disposing asks for nothing, and nothing more is tracked. -/
theorem undoCallback_polling (w : World η) (t : Token) (ob : Observer) :
    (w.undoCallback t ob).2.polling.scheduled = w.polling.scheduled ∧
      (w.undoCallback t ob).2.polling.tracked ⊆ w.polling.tracked := by
  by_cases poll : ∃ r, ob = .leaf (.poll r)
  · obtain ⟨r, rfl⟩ := poll
    obtain ⟨same, -⟩ | ⟨_, -, ⟨-, is⟩ | ⟨-, is⟩⟩ := undoCallback_poll_cases w t r
    · rw [same]
      exact ⟨rfl, List.Subset.refl _⟩
    · rw [is]
      exact ⟨rfl, List.filter_subset_self _⟩
    · rw [is]
      exact ⟨rfl, List.Subset.refl _⟩
  · obtain ⟨-, polling⟩ := undoCallback_polls w t fun r is => poll ⟨r, is⟩
    rw [polling]
    exact ⟨rfl, List.Subset.refl _⟩

/-! ### What is not observed but by polling -/

namespace PollsOnly

/-- Polled properties and subscriptions to them come and go, and callbacks of the checker. -/
theorem of_polls (h : w.PollsOnly) (microtasks : w'.tasks.microtasks = w.tasks.microtasks)
    (frames : ∀ task ∈ w'.tasks.frames, task ∈ w.tasks.frames ∨ task = .poll)
    (objects : w'.objects = w.objects)
    (callbacks : ∀ r cell, w'.polls.get? r = some cell →
      ∀ p ∈ cell.callbacks.entries, (∃ cell', w.polls.get? r = some cell' ∧
        p ∈ cell'.callbacks.entries) ∨ ∃ h, p.2 = .hook h)
    (subscriptions : ∀ s d, w'.disposal? s = some d → w.disposal? s = some d ∨
      ∃ r t, d = .callback (.leaf (.poll r)) t) : w'.PollsOnly where
  microtasks := microtasks ▸ h.microtasks
  frames task m := (frames task m).elim (h.frames task) .inl
  objects := objects ▸ h.objects
  callbacks r cell get p m := (callbacks r cell get p m).elim
    (fun ⟨cell', get', m'⟩ => h.callbacks r cell' get' p m') id
  subscriptions s d stands := (subscriptions s d stands).elim (h.subscriptions s d) id

theorem beginCheck (h : w.PollsOnly) : w.beginCheck.PollsOnly :=
  ⟨h.microtasks, h.frames, h.objects, h.callbacks, h.subscriptions⟩

theorem schedulePolling (h : w.PollsOnly) : w.schedulePolling.PollsOnly := by
  unfold World.schedulePolling
  split
  · exact h
  · refine h.of_polls rfl (fun task m => ?_) rfl (fun r cell get p m => .inl ⟨cell, get, m⟩)
      fun _ _ => .inl
    exact (List.mem_append.1 m).imp_right List.mem_singleton.1

theorem endCheck (h : w.PollsOnly) : w.endCheck.PollsOnly := by
  unfold World.endCheck
  split
  · exact h
  · exact h.schedulePolling

/-- A change of what is kept of a polled property, with no other subscribers than hooks. -/
theorem modifyPoll (h : w.PollsOnly) {f : PollCell → PollCell}
    (callbacks : ∀ cell, ∀ p ∈ (f cell).callbacks.entries,
      p ∈ cell.callbacks.entries ∨ ∃ h, p.2 = .hook h) : (w.modifyPoll r f).PollsOnly := by
  refine h.of_polls rfl (fun _ => .inl) rfl (fun r' cell get p m => ?_) fun _ _ => .inl
  obtain ⟨rfl, cell', get', rfl⟩ | ⟨-, get'⟩ := get?_modifyPoll get
  · exact (callbacks cell' p m).imp_left fun m => ⟨cell', get', m⟩
  · exact .inl ⟨cell, get', m⟩

theorem keepSeen (h : w.PollsOnly) (r : Ref .poll) : (w.keepSeen r).PollsOnly :=
  h.modifyPoll fun _ _ => .inl

theorem enlistPoll (h : w.PollsOnly) (r : Ref .poll) (hook : Ref .hook) :
    (w.enlistPoll r hook).PollsOnly := by
  have drawn : ({ w with nextToken := w.nextToken + 1 } : World η).PollsOnly :=
    ⟨h.microtasks, h.frames, h.objects, h.callbacks, h.subscriptions⟩
  refine drawn.modifyPoll fun cell p m => ?_
  exact (List.mem_append.1 m).imp_right fun m => ⟨hook, congrArg Prod.snd (List.mem_singleton.1 m)⟩

theorem beginPolling (h : w.PollsOnly) (r : Ref .poll) (v : Value) :
    (w.beginPolling r v).PollsOnly := by
  have kept := h.modifyPoll (r := r) (f := fun cell => { cell with old := some v }) fun _ _ => .inl
  exact schedulePolling ⟨kept.microtasks, kept.frames, kept.objects, kept.callbacks,
    kept.subscriptions⟩

theorem subscribePoll (h : w.PollsOnly) (r : Ref .poll) (hook : Ref .hook) :
    (w.subscribePoll r (.hook hook)).2.PollsOnly := by
  rw [subscribePoll_snd]
  have registered : (if w.isUnwatched r then
      (w.enlistPoll r hook).beginPolling r (w.leafValue (.poll r))
      else w.enlistPoll r hook).PollsOnly := by
    split
    · exact (h.enlistPoll r hook).beginPolling r _
    · exact h.enlistPoll r hook
  generalize (if w.isUnwatched r then
    (w.enlistPoll r hook).beginPolling r (w.leafValue (.poll r))
    else w.enlistPoll r hook) = w₁ at registered
  refine registered.of_polls rfl (fun _ => .inl) rfl (fun _ cell get p m => .inl ⟨cell, get, m⟩)
    fun s d stands => ?_
  rw [disposal?_newSubscription] at stands
  split at stands
  · exact .inr ⟨_, _, (Option.some.inj stands).symm⟩
  · exact .inl stands

theorem endSubscription (h : w.PollsOnly) (s : Ref .subscription) :
    (w.modifySubscription s fun _ => ⟨none⟩).PollsOnly := by
  refine h.of_polls rfl (fun _ => .inl) rfl (fun _ cell get p m => .inl ⟨cell, get, m⟩)
    fun s' d stands => .inl ?_
  have ended : (w.modifySubscription s fun _ => ⟨none⟩).disposal? s' =
      if s' = s then none else w.disposal? s' :=
    congrFun (congrArg (·.disposal?) (board_endSubscription w s)) s'
  rw [ended] at stands
  split at stands
  · cases stands
  · exact stands

theorem undoCallback (h : w.PollsOnly) (t : Token) (ob : Observer) :
    (w.undoCallback t ob).2.PollsOnly := by
  have tasks := (undoCallback_tasks w t ob).1
  obtain ⟨objects, subscriptions⟩ := undoCallback_leaves w t ob
  refine h.of_polls (congrArg _ tasks) (fun task m => .inl ?_) objects (fun r cell get p m => .inl ?_)
    fun s d stands => .inl ?_
  · rwa [tasks] at m
  · by_cases poll : ∃ r, ob = .leaf (.poll r)
    · obtain ⟨r', rfl⟩ := poll
      obtain ⟨same, -⟩ | ⟨cell₀, get₀, ⟨-, is⟩ | ⟨-, is⟩⟩ := undoCallback_poll_cases w t r'
      · rw [same] at get
        exact ⟨cell, get, m⟩
      all_goals
        rw [is] at get
        obtain ⟨rfl, _, -, rfl⟩ | ⟨-, get'⟩ := get?_modifyPoll get
      · exact ⟨cell₀, get₀, List.mem_of_mem_filter m⟩
      · exact ⟨cell, get', m⟩
      · exact ⟨cell₀, get₀, List.mem_of_mem_filter m⟩
      · exact ⟨cell, get', m⟩
    · obtain ⟨polls, -⟩ := undoCallback_polls w t fun r is => poll ⟨r, is⟩
      exact ⟨cell, polls ▸ get, m⟩
  · rwa [disposal?, subscriptions] at stands

end PollsOnly

/-! ### What happens to the tracked properties -/

theorem Kept.elsewhere {tracked tracked' : List (Ref .poll)} {looks' : List (Ref .poll × Value)}
    {cell : PollCell} (h : Kept tracked looks r cell) (same : r ∈ tracked' ↔ r ∈ tracked)
    (last : looks'.lookup r = looks.lookup r) : Kept tracked' looks' r cell :=
  ⟨same.trans h.tracked, h.unseen, last.symm ▸ h.seen⟩

theorem lookup_cons_of_ne (ne : r' ≠ r) (v : Value) (looks : List (Ref .poll × Value)) :
    List.lookup r' ((r, v) :: looks) = looks.lookup r' := by
  rw [List.lookup_cons, beq_false_of_ne ne]

namespace KeepsTrack

theorem of_eq (h : w.KeepsTrack looks) (polls : w'.polls = w.polls)
    (tracked : w'.polling.tracked = w.polling.tracked) : w'.KeepsTrack looks where
  nodup := tracked ▸ h.nodup
  known r m := by
    rw [polls]
    exact h.known r (tracked ▸ m)
  each r cell get := by
    rw [tracked]
    exact h.each r cell (polls ▸ get)

theorem aside (h : w.KeepsTrack looks) (aside : w.PollsAside w') : w'.KeepsTrack looks where
  nodup := aside.polling ▸ h.nodup
  known r m := Nat.lt_of_lt_of_le (h.known r (aside.polling ▸ m)) aside.size
  each r cell get := by
    rw [aside.polling]
    obtain old | ⟨new, nobody, none⟩ := aside.polls r cell get
    · exact h.each r cell old
    · have untracked : r ∉ w.polling.tracked := fun m => Nat.not_lt.2 new (h.known r m)
      exact ⟨iff_of_false untracked fun some => some nobody, fun _ => none,
        fun some => (some nobody).elim⟩

theorem beginCheck (h : w.KeepsTrack looks) : w.beginCheck.KeepsTrack looks where
  nodup := h.nodup.filter _
  known r m := h.known r (List.mem_of_mem_filter m)
  each r cell get := by
    have there : w.polls.contains r = true := Option.isSome_iff_exists.2 ⟨cell, get⟩
    exact (h.each r cell get).elsewhere (List.mem_filter.trans (and_iff_left there)) rfl

/-- One property changes, and what is tracked and seen of it. -/
theorem changes (h : w.KeepsTrack looks) {f : PollCell → PollCell}
    {looks' : List (Ref .poll × Value)} (polls : w'.polls = (w.modifyPoll r f).polls)
    (nodup : w'.polling.tracked.Nodup)
    (known : r ∈ w'.polling.tracked → r.index < w.polls.size)
    (others : ∀ r', r' ≠ r → (r' ∈ w'.polling.tracked ↔ r' ∈ w.polling.tracked) ∧
      looks'.lookup r' = looks.lookup r')
    (here : ∀ cell, w.polls.get? r = some cell → Kept w'.polling.tracked looks' r (f cell)) :
    w'.KeepsTrack looks' where
  nodup := nodup
  known r' m := by
    have size : w'.polls.size = w.polls.size := polls ▸ Array.size_modify
    rw [size]
    by_cases is : r' = r
    · exact is ▸ known (is ▸ m)
    · exact h.known r' ((others r' is).1.1 m)
  each r' cell get := by
    rw [polls] at get
    obtain ⟨rfl, cell', get', rfl⟩ | ⟨ne, get'⟩ := get?_modifyPoll get
    · exact here cell' get'
    · obtain ⟨same, last⟩ := others r' ne
      exact (h.each r' cell get').elsewhere same last

/-- A look at a tracked property: if it shows another value, this one is kept. -/
theorem look (h : w.KeepsTrack looks) (m : r ∈ w.polling.tracked) :
    (if w.isDirty r then w.keepSeen r else w).KeepsTrack ((r, w.leafValue (.poll r)) :: looks) := by
  split
  next dirty =>
    refine h.changes rfl h.nodup (h.known r) (fun r' ne => ⟨.rfl, lookup_cons_of_ne ne _ _⟩)
      fun cell get => ?_
    have tracked := (h.each r cell get).tracked
    exact ⟨tracked, fun none => (tracked.1 m none).elim,
      fun _ => ⟨_, _, rfl, List.lookup_cons_self, .inl rfl⟩⟩
  next clean =>
    refine ⟨h.nodup, h.known, fun r' cell get => ?_⟩
    by_cases is : r' = r
    · subst is
      have kept := h.each r' cell get
      refine ⟨kept.tracked, kept.unseen, fun some => ?_⟩
      obtain ⟨old, last, is, -⟩ := kept.seen some
      refine ⟨old, _, is, List.lookup_cons_self, .inr ?_⟩
      simpa [isDirty, get, is] using clean
    · exact (h.each r' cell get).elsewhere .rfl (lookup_cons_of_ne is _ _)

/-- Another hook subscribes. -/
theorem enlist (h : w.KeepsTrack looks) (others : w.isUnwatched r = false) (hook : Ref .hook) :
    (w.enlistPoll r hook).KeepsTrack looks := by
  refine h.changes rfl h.nodup (h.known r) (fun _ _ => ⟨.rfl, rfl⟩) fun cell get => ?_
  have kept := h.each r cell get
  have some : cell.callbacks.entries ≠ [] := fun none =>
    Bool.noConfusion (others.symm.trans (isUnwatched_iff.2 ⟨cell, get, none⟩))
  have some' := entries_add_ne cell.callbacks ⟨w.nextToken⟩ (.hook hook)
  exact ⟨iff_of_true (kept.tracked.2 some) some', fun none => (some' none).elim,
    fun _ => kept.seen some⟩

/-- The first hook subscribes. -/
theorem begin (h : w.KeepsTrack looks) (first : w.isUnwatched r = true) (hook : Ref .hook)
    (v : Value) : ((w.enlistPoll r hook).beginPolling r v).KeepsTrack ((r, v) :: looks) := by
  obtain ⟨cell₀, get₀, nobody⟩ := isUnwatched_iff.1 first
  have untracked : r ∉ w.polling.tracked := fun m => (h.each r cell₀ get₀).tracked.1 m nobody
  have tracked : ((w.enlistPoll r hook).beginPolling r v).polling.tracked =
      w.polling.tracked ++ [r] := tracked_schedulePolling
  have polls : ((w.enlistPoll r hook).beginPolling r v).polls =
      (w.modifyPoll r fun cell => { cell with
        callbacks := cell.callbacks.add ⟨w.nextToken⟩ (.hook hook), old := some v }).polls :=
    polls_schedulePolling.trans (Store.modify_modify ..)
  refine h.changes polls ?_ (fun _ => Store.index_lt_size_of_get? get₀) (fun r' ne => ?_)
    fun cell _ => ?_
  · rw [tracked, ← List.concat_eq_append, List.nodup_concat]
    exact ⟨untracked, h.nodup⟩
  · rw [tracked, List.mem_append, List.mem_singleton]
    exact ⟨or_iff_left ne, lookup_cons_of_ne ne v looks⟩
  · have some := entries_add_ne cell.callbacks ⟨w.nextToken⟩ (.hook hook)
    rw [tracked]
    exact ⟨iff_of_true (List.mem_append_right _ List.mem_cons_self) some,
      fun none => (some none).elim, fun _ => ⟨v, v, rfl, List.lookup_cons_self, .inl rfl⟩⟩

/-- A subscriber leaves. -/
theorem undoCallback (h : w.KeepsTrack looks) (t : Token) (ob : Observer) :
    (w.undoCallback t ob).2.KeepsTrack looks := by
  by_cases poll : ∃ r, ob = .leaf (.poll r)
  · obtain ⟨r, rfl⟩ := poll
    obtain ⟨same, -⟩ | ⟨cell₀, get₀, ⟨left, is⟩ | ⟨left, is⟩⟩ := undoCallback_poll_cases w t r
    · rwa [same]
    · have mem : ∀ r', r' ∈ w.polling.tracked.filter (· ≠ r) ↔ r' ∈ w.polling.tracked ∧ r' ≠ r :=
        fun r' => List.mem_filter.trans (and_congr_right fun _ => decide_eq_true_iff)
      rw [is]
      refine h.changes rfl (h.nodup.filter _) (fun m => h.known r (List.mem_of_mem_filter m))
        (fun r' ne => ⟨(mem r').trans (and_iff_left ne), rfl⟩) fun _ _ => ?_
      exact ⟨iff_of_false (fun m => ((mem r).1 m).2 rfl) fun heard => heard left, fun _ => rfl,
        fun some => (some left).elim⟩
    · rw [is]
      refine h.changes rfl h.nodup (h.known r) (fun _ _ => ⟨.rfl, rfl⟩) fun cell get => ?_
      cases get₀.symm.trans get
      have kept := h.each r cell₀ get
      exact ⟨kept.tracked.trans (not_congr left), fun none => kept.unseen (left.2 none),
        fun some => kept.seen fun none => some (left.1 none)⟩
  · obtain ⟨polls, polling⟩ := undoCallback_polls w t fun r is => poll ⟨r, is⟩
    exact h.of_eq polls (congrArg _ polling)

end KeepsTrack

/-- What disposing leaves of polling. -/
structure Disposes (looks : List (Ref .poll × Value)) (w w' : World η) : Prop where
  only : w'.PollsOnly
  tracks : w'.KeepsTrack looks
  scheduled : w'.polling.scheduled = w.polling.scheduled
  tracked : w'.polling.tracked ⊆ w.polling.tracked
  tasks : w'.tasks = w.tasks

theorem disposes_dispose (only : w.PollsOnly) (tracks : w.KeepsTrack looks)
    (s : Ref .subscription) : w.Disposes looks (w.dispose s) := by
  refine disposeWithin_keeps (P := w.Disposes looks) (fun w' s h => ?_)
    (undo_keeps (fun w' t ob h => ?_) fun w' e t h => ?_) _ s w
    ⟨only, tracks, rfl, List.Subset.refl _, rfl⟩
  · exact ⟨h.only.endSubscription s, h.tracks.of_eq rfl rfl, h.scheduled, h.tracked, h.tasks⟩
  · obtain ⟨scheduled, tracked⟩ := undoCallback_polling w' t ob
    exact ⟨h.only.undoCallback t ob, h.tracks.undoCallback t ob, scheduled.trans h.scheduled,
      List.Subset.trans tracked h.tracked, (undoCallback_tasks w' t ob).1.trans h.tasks⟩
  · exact ⟨⟨h.only.microtasks, h.only.frames, h.only.objects, h.only.callbacks,
      h.only.subscriptions⟩, h.tracks.of_eq rfl rfl, h.scheduled, h.tracked, h.tasks⟩

end World

end ViewBinding
