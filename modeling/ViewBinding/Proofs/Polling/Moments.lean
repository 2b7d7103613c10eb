import Mathlib.Logic.Relation
import ViewBinding.Machine
import ViewBinding.Proofs.Polling.Tracks
import ViewBinding.Proofs.Tasks.Errands

/-!
# Polling — what a moment is, and what comes next

Subscribing to a polled property, disposing, checks, frames and writes may come in any order, and
within each other.  A `Moment` is the world at some point of this, with what the world does not show:
the values that the looks at the properties have seen so far, how many frame callbacks of the checker
running frames have taken and not called yet, and how many checks are running.  `Moment.Turn` says
what may come next.

`Moment.Sound` is kept by each turn (`Sound.turn`), and so it holds whatever comes (`Sound.goes`).
Beside what is tracked, it says how many callbacks of the checker wait (`Paced`): one at least while
the checker counts as scheduled, and unless a check is running it does while anything is tracked;
and never two, unless checks are run directly in spite of one that waits.

A check visits the tracked properties one after the other (`Moment.Visits`).  It tells the
subscribers of a property if and only if the value is not the one that the last look saw, and it
tells them this one as the old value (`Moment.Visit`).

What subscribers do meanwhile is up to them.  A computation ventures what comes in turns
(`Run.Ventures`): whatever it does may come, and when it is over the checks that it began have ended
and the callbacks that it took are called.  If all hooks venture no more than that, then neither do
checks (`ventures_check`), frames (`ventures_runFrame`) and flushes (`ventures_flush`).
-/

namespace ViewBinding

/-- A moment of a run: the world, and what it does not show. -/
structure Moment (η : Type) where
  world : World η
  /-- The properties looked at so far and what was seen, the last look first. -/
  looks : List (Ref .poll × Value) := []
  /-- How many callbacks of the checker frames have taken and not called yet. -/
  taken : Nat := 0
  /-- How many checks are running. -/
  checks : Nat := 0

namespace Moment

variable {η : Type}

/-- How many callbacks of the checker wait, for a frame or in one. -/
def pending (m : Moment η) : Nat := m.world.tasks.frames.count .poll + m.taken

/-- A check begins. -/
def begun (m : Moment η) : Moment η :=
  { m with world := m.world.beginCheck, checks := m.checks + 1 }

/-- A property is looked at. -/
def saw (m : Moment η) (r : Ref .poll) : Moment η :=
  { m with looks := (r, m.world.leafValue (.poll r)) :: m.looks }

/-- A property is looked at, and the value is kept if it is another one. -/
def looked (m : Moment η) (r : Ref .poll) : Moment η :=
  { m.saw r with world := if m.world.isDirty r then m.world.keepSeen r else m.world }

/-- A hook is subscribed to a property, which is looked at if it is the first. -/
def subscribed (m : Moment η) (r : Ref .poll) (h : Ref .hook) : Moment η :=
  { m with
    world := (m.world.subscribePoll r (.hook h)).2
    looks := if m.world.isUnwatched r then (r, m.world.leafValue (.poll r)) :: m.looks
      else m.looks }

/-- What may come next.  A check begins when a frame calls the callback of the checker, or it is
begun directly: `direct` says whether that may happen while a callback waits. -/
inductive Turn (direct : Bool) : Moment η → Moment η → Prop
  | aside {m : Moment η} {w' : World η} (h : m.world.PollsAside w') :
      Turn direct m { m with world := w' }
  | subscribe (m : Moment η) (r : Ref .poll) (h : Ref .hook) : Turn direct m (m.subscribed r h)
  | dispose (m : Moment η) (s : Ref .subscription) :
      Turn direct m { m with world := m.world.dispose s }
  /-- A frame takes the callbacks that wait. -/
  | frame (m : Moment η) : Turn direct m
      { m with world := m.world.withFrames [], taken := m.pending }
  /-- A frame calls the callback of the checker. -/
  | due {m : Moment η} {n : Nat} (taken : m.taken = n + 1) :
      Turn direct m { m.begun with taken := n }
  | check {m : Moment η} (allowed : direct = true ∨ m.world.polling.scheduled = false) :
      Turn direct m m.begun
  | look {m : Moment η} {r : Ref .poll} (running : m.checks ≠ 0)
      (tracked : r ∈ m.world.polling.tracked) (there : m.world.polls.contains r = true) :
      Turn direct m (m.looked r)
  | finish {m : Moment η} {n : Nat} (checks : m.checks = n + 1) :
      Turn direct m { m with world := m.world.endCheck, checks := n }

/-- What may come, in any number of turns. -/
abbrev Goes (direct : Bool) : Moment η → Moment η → Prop := Relation.ReflTransGen (Turn direct)

end Moment

/-- How many callbacks of the checker wait, given what is tracked, whether the checker counts as
scheduled and how many checks are running. -/
structure Paced (direct : Bool) (tracked : List (Ref .poll)) (scheduled : Bool)
    (pending checks : Nat) : Prop where
  requested : scheduled = true → 1 ≤ pending
  once : direct = false → pending ≤ if scheduled then 1 else 0
  scheduled : checks = 0 → tracked ≠ [] → scheduled = true

namespace Paced

variable {direct scheduled : Bool} {tracked tracked' : List (Ref .poll)} {pending checks : Nat}

/-- Unless checks are run in spite of a callback that waits, one waits while the checker counts as
scheduled, and else none. -/
theorem waits (h : Paced direct tracked scheduled pending checks) (strict : direct = false) :
    pending ≤ 1 ∧ (scheduled = true ↔ pending = 1) := by
  have once := h.once strict
  cases scheduled with
  | true => exact ⟨once, iff_of_true rfl (Nat.le_antisymm once (h.requested rfl))⟩
  | false =>
    have none : pending = 0 := Nat.le_zero.1 once
    exact ⟨none ▸ Nat.zero_le 1, iff_of_false Bool.false_ne_true (none ▸ Nat.zero_ne_one)⟩

/-- The checker asks for a frame unless it has asked for one. -/
theorem schedule (h : Paced direct tracked scheduled pending checks) :
    Paced direct tracked' true (if scheduled then pending else pending + 1) checks where
  requested _ := by
    split
    next already => exact h.requested already
    · exact Nat.le_add_left 1 pending
  once strict := by
    have := h.once strict
    split <;> simp_all
  scheduled _ _ := rfl

/-- Less is tracked. -/
theorem fewer (h : Paced direct tracked scheduled pending checks)
    (fewer : tracked' ≠ [] → tracked ≠ []) : Paced direct tracked' scheduled pending checks where
  requested := h.requested
  once := h.once
  scheduled idle some := h.scheduled idle (fewer some)

/-- A check begins directly. -/
theorem check (h : Paced direct tracked scheduled pending checks)
    (allowed : direct = true ∨ scheduled = false) :
    Paced direct tracked' false pending (checks + 1) where
  requested := nofun
  once strict := by
    obtain rfl | rfl := allowed
    · cases strict
    · exact h.once strict
  scheduled := nofun

/-- A frame calls the callback of the checker. -/
theorem due (h : Paced direct tracked scheduled (pending + 1) checks) :
    Paced direct tracked' false pending (checks + 1) where
  requested := nofun
  once strict := by
    have := h.once strict
    split at this <;> simp_all
  scheduled := nofun

/-- A check ends when nothing is tracked, or the checker counts as scheduled. -/
theorem finish (h : Paced direct tracked scheduled pending (checks + 1))
    (ends : tracked ≠ [] → scheduled = true) : Paced direct tracked scheduled pending checks where
  requested := h.requested
  once := h.once
  scheduled _ := ends

/-- The checker asks a world for a frame, unless it has asked for one. -/
theorem schedulePolling {η : Type} {w : World η} {taken : Nat}
    (h : Paced direct tracked w.polling.scheduled (w.tasks.frames.count .poll + taken) checks) :
    Paced direct w.schedulePolling.polling.tracked w.schedulePolling.polling.scheduled
      (w.schedulePolling.tasks.frames.count .poll + taken) checks := by
  have scheduled : Paced direct w.schedulePolling.polling.tracked true _ checks := h.schedule
  rw [World.scheduled_schedulePolling, World.count_schedulePolling]
  split
  next already => rwa [if_pos already] at scheduled
  next idle =>
    rw [if_neg idle] at scheduled
    rwa [Nat.add_right_comm]

end Paced

namespace Moment

variable {η : Type} {direct : Bool} {m m' : Moment η}

/-- What holds at every moment. -/
structure Sound (direct : Bool) (m : Moment η) : Prop where
  only : m.world.PollsOnly
  tracks : m.world.KeepsTrack m.looks
  paced : Paced direct m.world.polling.tracked m.world.polling.scheduled m.pending m.checks

namespace Sound

theorem subscribed (h : m.Sound direct) (r : Ref .poll) (hook : Ref .hook) :
    (m.subscribed r hook).Sound direct := by
  have only := h.only.subscribePoll r hook
  cases first : m.world.isUnwatched r with
  | true =>
    have is := m.world.subscribePoll_snd r hook
    rw [if_pos first] at is
    refine ⟨only, ?_, ?_⟩
    · rw [Moment.subscribed, is, if_pos first]
      exact (h.tracks.begin first hook _).of_eq rfl rfl
    · rw [Moment.subscribed, is]
      exact Paced.schedulePolling (by exact h.paced)
  | false =>
    have is := m.world.subscribePoll_snd r hook
    rw [if_neg (by rw [first]; exact Bool.false_ne_true)] at is
    refine ⟨only, ?_, ?_⟩
    · rw [Moment.subscribed, is, if_neg (by rw [first]; exact Bool.false_ne_true)]
      exact (h.tracks.enlist first hook).of_eq rfl rfl
    · rw [Moment.subscribed, is]
      exact h.paced

theorem looked (h : m.Sound direct) {r : Ref .poll} (tracked : r ∈ m.world.polling.tracked) :
    (m.looked r).Sound direct := by
  refine ⟨?_, h.tracks.look tracked, ?_⟩
  · rw [Moment.looked]
    split
    · exact h.only.keepSeen r
    · exact h.only
  · unfold Moment.looked Moment.pending
    split <;> exact h.paced

theorem finished (h : m.Sound direct) {n : Nat} (checks : m.checks = n + 1) :
    { m with world := m.world.endCheck, checks := n }.Sound direct := by
  have paced := h.paced
  rw [checks] at paced
  refine ⟨h.only.endCheck, ?_, ?_⟩
  · unfold World.endCheck
    split
    · exact h.tracks
    · exact h.tracks.of_eq World.polls_schedulePolling World.tracked_schedulePolling
  · unfold World.endCheck
    split
    next none => exact paced.finish fun some => (some (List.isEmpty_iff.1 none)).elim
    · exact (Paced.schedulePolling paced).finish fun _ => World.scheduled_schedulePolling

/-- **Each turn keeps it.** -/
theorem turn (h : m.Sound direct) (next : m.Turn direct m') : m'.Sound direct := by
  cases next with
  | aside aside =>
    refine ⟨aside.only h.only, h.tracks.aside aside, ?_⟩
    rw [Moment.pending, aside.polling, aside.frames]
    exact h.paced
  | subscribe r hook => exact h.subscribed r hook
  | dispose s =>
    have disposes := World.disposes_dispose h.only h.tracks s
    refine ⟨disposes.only, disposes.tracks, ?_⟩
    rw [Moment.pending, disposes.scheduled, disposes.tasks]
    exact h.paced.fewer fun some none => some (List.subset_nil.1 (none ▸ disposes.tracked))
  | frame =>
    refine ⟨⟨h.only.microtasks, nofun, h.only.objects, h.only.callbacks, h.only.subscriptions⟩,
      h.tracks.of_eq rfl rfl, ?_⟩
    have pending : Moment.pending { m with world := m.world.withFrames [], taken := m.pending } =
        m.pending := Nat.zero_add _
    rw [pending]
    exact h.paced
  | due taken =>
    have paced := h.paced
    rw [Moment.pending, taken] at paced
    exact ⟨h.only.beginCheck, h.tracks.beginCheck, paced.due⟩
  | check allowed => exact ⟨h.only.beginCheck, h.tracks.beginCheck, h.paced.check allowed⟩
  | look _ tracked => exact h.looked tracked
  | finish checks => exact h.finished checks

/-- **Whatever comes**, it holds. -/
theorem goes (h : m.Sound direct) (goes : m.Goes direct m') : m'.Sound direct := by
  induction goes with
  | refl => exact h
  | tail _ next ih => exact ih.turn next

end Sound

end Moment

/-! ### Computations that go by turns -/

variable {η α β : Type} {direct : Bool} {m m' m'' : Moment η} {env : Env η} {w : World η}

namespace World

theorem pollsAside_markFlushing (flushing : Bool) (w : World η) :
    w.PollsAside (Run.markFlushing flushing w) where
  polling := rfl
  frames := rfl
  size := Nat.le_refl _
  polls _ _ := .inl
  only h := ⟨h.microtasks, h.frames, h.objects, h.callbacks, h.subscriptions⟩

/-- A microtask is about to run. -/
theorem pollsAside_withMicrotasks {task : Microtask} {rest : List Microtask}
    (next : w.tasks.microtasks = task :: rest) : w.PollsAside (w.withMicrotasks rest) where
  polling := rfl
  frames := rfl
  size := Nat.le_refl _
  polls _ _ := .inl
  only h := ⟨fun task m => h.microtasks task (next ▸ List.mem_cons_of_mem _ m), h.frames, h.objects,
    h.callbacks, h.subscriptions⟩

end World

namespace Moment

/-- What comes ends in a world. -/
def Arrives (direct : Bool) (m : Moment η) (w : World η) : Prop :=
  ∃ m', m'.world = w ∧ m.Goes direct m'

/-- What comes ends in a world with as many callbacks to call and as many checks running. -/
def Returns (direct : Bool) (m : Moment η) (w : World η) : Prop :=
  ∃ m', m'.world = w ∧ m.Goes direct m' ∧ m'.taken = m.taken ∧ m'.checks = m.checks

theorem Returns.arrives (h : m.Returns direct w) : m.Arrives direct w :=
  let ⟨m', is, goes, _⟩ := h
  ⟨m', is, goes⟩

theorem Arrives.before (h : m'.Arrives direct w) (goes : m.Goes direct m') : m.Arrives direct w :=
  let ⟨m'', is, goes'⟩ := h
  ⟨m'', is, goes.trans goes'⟩

theorem Returns.before (h : m'.Returns direct w) (goes : m.Goes direct m')
    (taken : m'.taken = m.taken) (checks : m'.checks = m.checks) : m.Returns direct w :=
  let ⟨m'', is, goes', taken', checks'⟩ := h
  ⟨m'', is, goes.trans goes', taken'.trans taken, checks'.trans checks⟩

/-- What a check does about a property: nothing if nobody is subscribed anymore or the property is
gone; and it tells the subscribers if the value is not the one last seen. -/
inductive Visit (env : Env η) (direct : Bool) (r : Ref .poll) (m : Moment η) : Moment η → Prop
  | gone (gone : r ∉ m.world.polling.tracked ∨ m.world.polls.get? r = none) :
      Visit env direct r m m
  | same {last : Value} (tracked : r ∈ m.world.polling.tracked)
      (seen : m.looks.lookup r = some last)
      (same : last.same (m.world.leafValue (.poll r)) = true) : Visit env direct r m (m.saw r)
  | told {cell : PollCell} {last old : Value} {m' : Moment η}
      (tracked : r ∈ m.world.polling.tracked) (there : m.world.polls.get? r = some cell)
      (seen : m.looks.lookup r = some last)
      (other : last.same (m.world.leafValue (.poll r)) = false) (passes : old.Passes last)
      (told : env.notify cell.callbacks (m.world.leafValue (.poll r)) old (m.world.keepSeen r) =
        (.ok (), m'.world))
      (goes : Goes direct { m.saw r with world := m.world.keepSeen r } m') : Visit env direct r m m'

/-- What a check does about properties, one after the other. -/
inductive Visits (env : Env η) (direct : Bool) : List (Ref .poll) → Moment η → Moment η → Prop
  | nil (m : Moment η) : Visits env direct [] m m
  | cons {r : Ref .poll} {rs : List (Ref .poll)} {m m₁ m' : Moment η}
      (first : m.Visit env direct r m₁) (rest : Visits env direct rs m₁ m') :
      Visits env direct (r :: rs) m m'

end Moment

namespace Run

/-- Whatever the computation does may come; and when it is over, its checks have ended and the
callbacks that it took are called. -/
def Ventures (direct : Bool) (x : Run η α) : Prop :=
  ∀ ⦃m : Moment η⦄, m.Sound direct →
    x.Meets m.world (fun _ w => m.Returns direct w) fun w => m.Arrives direct w

namespace Ventures

theorem bind {x : Run η α} {f : α → Run η β} (first : x.Ventures direct)
    (next : ∀ a, (f a).Ventures direct) : (x >>= f).Ventures direct := by
  intro m sound
  refine meets_bind.2 ((first sound).mono ?_ fun _ h => h)
  rintro a _ ⟨m₁, rfl, goes, taken, checks⟩
  exact (next a (sound.goes goes)).mono (fun _ _ h => h.before goes taken checks)
    fun _ h => h.before goes

theorem pure (a : α) : (Pure.pure a : Run η α).Ventures direct :=
  fun m _ => ⟨m, rfl, .refl, rfl, rfl⟩

theorem read (f : World η → α) : (Run.read f).Ventures direct :=
  fun m _ => ⟨m, rfl, .refl, rfl, rfl⟩

theorem cutOff : (Run.cutOff : Run η α).Ventures direct :=
  fun m _ => ⟨m, rfl, .refl⟩

/-- A change of the world that may come next. -/
theorem update {f : World η → α × World η} (turn : ∀ m : Moment η, m.Sound direct →
      ∃ looks, m.Turn direct { m with world := (f m.world).2, looks }) :
    (Run.update f).Ventures direct :=
  fun m sound =>
    let ⟨_, turn⟩ := turn m sound
    ⟨_, rfl, .single turn, rfl, rfl⟩

end Ventures

end Run

/-- Whatever the hooks do may come. -/
structure Env.Follows (env : Env η) (direct : Bool) : Prop where
  fire : ∀ h occasion, (env.fire h occasion).Ventures direct
  announce : ∀ h new old, (env.announce (.hook h) new old).Ventures direct

namespace Run

/-- Hooks are told, one after the other. -/
theorem ventures_announceAll (follows : env.Follows direct) {subscribers : List Subscriber}
    (hooks : ∀ σ ∈ subscribers, ∃ h, σ = .hook h) (new old : Value) :
    (env.announceAll subscribers new old).Ventures direct := by
  induction subscribers with
  | nil => exact .pure ()
  | cons σ rest ih =>
    obtain ⟨h, rfl⟩ := hooks σ List.mem_cons_self
    exact (follows.announce h new old).bind fun _ =>
      ih fun σ m => hooks σ (List.mem_cons_of_mem _ m)

/-! ### Checks -/

/-- What a check does about a property. -/
def visit (env : Env η) (r : Ref .poll) : Run η Unit := do
  if ← read fun w => w.isDirty r then tellPoll env r else Pure.pure ()

/-- A check visits what is tracked when it begins. -/
theorem meets_poll {post : Unit → World η → Prop} {fin : World η → Prop}
    (h : (forEach w.beginCheck.polling.tracked (visit env)).Meets w.beginCheck
      (fun _ w' => post () w'.endCheck) fin) : (poll env).Meets w post fin := by
  refine meets_bind.2 (meets_modify.2 (meets_bind.2 (meets_read.2 (meets_bind.2 ?_))))
  refine h.mono (fun _ w' after => meets_bind.2 (meets_read.2 ?_)) fun _ h => h
  unfold World.endCheck at after
  split at after
  next none =>
    rw [if_pos none]
    exact after
  next some =>
    rw [if_neg some]
    exact after

/-- Whether a property shows another value than the one last seen. -/
theorem isDirty_eq {r : Ref .poll} {cell : PollCell} {old last : Value}
    (there : w.polls.get? r = some cell) (is : cell.old = some old) (passes : old.Passes last) :
    w.isDirty r = !last.same (w.leafValue (.poll r)) := by
  rw [← passes.same_eq]
  simp only [World.isDirty, there, Option.bind_some, is]

/-- What is told about a property. -/
theorem tellPoll_eq {r : Ref .poll} {cell : PollCell} {old : Value}
    (there : w.polls.get? r = some cell) (is : cell.old = some old) :
    tellPoll env r w = env.notify cell.callbacks (w.leafValue (.poll r)) old (w.keepSeen r) := by
  rw [tellPoll, bind_read, there]
  simp only [is, Option.getD_some]
  rfl

/-- A property that is gone, or that nobody subscribes to anymore, shows nothing new. -/
theorem isDirty_of_gone (sound : m.Sound direct) {r : Ref .poll}
    (gone : r ∉ m.world.polling.tracked ∨ m.world.polls.get? r = none) :
    m.world.isDirty r = false := by
  cases there : m.world.polls.get? r with
  | none => simp [World.isDirty, there]
  | some cell =>
    rw [there, or_iff_left (Option.some_ne_none cell)] at gone
    have kept := sound.tracks.each r cell there
    have nobody := not_not.1 fun watched => gone (kept.tracked.2 watched)
    simp [World.isDirty, there, kept.unseen nobody]

/-- A visit of a property. -/
theorem meets_visit (follows : env.Follows direct) (sound : m.Sound direct) (running : m.checks ≠ 0)
    (r : Ref .poll) :
    (visit env r).Meets m.world
      (fun _ w => ∃ m', m'.world = w ∧ m.Visit env direct r m' ∧ m.Goes direct m' ∧
        m'.taken = m.taken ∧ m'.checks = m.checks)
      fun w => m.Arrives direct w := by
  refine meets_bind.2 (meets_read.2 ?_)
  by_cases gone : r ∉ m.world.polling.tracked ∨ m.world.polls.get? r = none
  · rw [isDirty_of_gone sound gone, if_neg Bool.false_ne_true]
    exact ⟨m, rfl, .gone gone, .refl, rfl, rfl⟩
  obtain ⟨tracked, there⟩ := not_or.1 gone
  rw [not_not] at tracked
  obtain ⟨cell, there⟩ := Option.ne_none_iff_exists'.1 there
  have kept := sound.tracks.each r cell there
  obtain ⟨old, last, is, seen, passes⟩ := kept.seen (kept.tracked.1 tracked)
  have dirty := isDirty_eq there is passes
  have looks : m.Turn direct (m.looked r) :=
    .look running tracked (Option.isSome_iff_exists.2 ⟨cell, there⟩)
  have sound' := sound.turn looks
  rw [Moment.looked] at looks sound'
  cases same : last.same (m.world.leafValue (.poll r)) with
  | true =>
    rw [same, Bool.not_true] at dirty
    rw [dirty, if_neg Bool.false_ne_true] at looks ⊢
    exact ⟨m.saw r, rfl, .same tracked seen same, .single looks, rfl, rfl⟩
  | false =>
    rw [same, Bool.not_false] at dirty
    rw [dirty, if_pos rfl] at looks sound' ⊢
    have hooks : ∀ σ ∈ cell.callbacks.newestFirst, ∃ h, σ = .hook h := by
      intro σ member
      obtain ⟨p, registered, rfl⟩ := List.mem_map.1 (List.mem_reverse.1 member)
      exact sound.only.callbacks r cell there p registered
    have told := ventures_announceAll follows hooks (m.world.leafValue (.poll r)) old sound'
    unfold Meets
    rw [tellPoll_eq there is]
    refine told.traced.mono ?_ fun _ h => h.before (.single looks)
    rintro ⟨⟩ _ ⟨ended, m', rfl, goes, taken, checks⟩
    exact ⟨m', rfl, .told tracked there seen same passes ended goes, .trans (.single looks) goes,
      taken, checks⟩

theorem meets_visits (follows : env.Follows direct) :
    ∀ (rs : List (Ref .poll)) {m : Moment η}, m.Sound direct → m.checks ≠ 0 →
      (forEach rs (visit env)).Meets m.world
        (fun _ w => ∃ m', m'.world = w ∧ m.Visits env direct rs m' ∧ m.Goes direct m' ∧
          m'.taken = m.taken ∧ m'.checks = m.checks)
        fun w => m.Arrives direct w
  | [], m, _, _ => ⟨m, rfl, .nil m, .refl, rfl, rfl⟩
  | r :: rs, m, sound, running => by
    refine meets_bind.2 ((meets_visit follows sound running r).mono ?_ fun _ h => h)
    rintro - _ ⟨m₁, rfl, first, goes, taken, checks⟩
    refine (meets_visits follows rs (sound.goes goes) (checks ▸ running)).mono ?_
      fun _ h => h.before goes
    rintro - w ⟨m', is, rest, goes', taken', checks'⟩
    exact ⟨m', is, .cons first rest, goes.trans goes', taken'.trans taken, checks'.trans checks⟩

/-- A check that has begun visits what is tracked, and ends. -/
theorem meets_check (follows : env.Follows direct) (sound : m.Sound direct)
    {n : Nat} (due : m.Turn direct { m.begun with taken := n }) :
    (poll env).Meets m.world
      (fun _ w => ∃ m', { m.begun with taken := n }.Visits env direct
          m.begun.world.polling.tracked m' ∧ m'.world.endCheck = w ∧
        m.Goes direct { m' with world := w, checks := m.checks } ∧ m'.taken = n)
      fun w => m.Arrives direct w := by
  have visits := meets_visits follows m.begun.world.polling.tracked (sound.turn due)
    (Nat.succ_ne_zero m.checks)
  refine meets_poll (visits.mono ?_ fun _ h => h.before (.single due))
  rintro - _ ⟨m', rfl, visits, goes, taken, checks⟩
  exact ⟨m', visits, rfl, .tail (.trans (.single due) goes) (.finish checks), taken⟩

/-- **A check** begins directly. -/
theorem ventures_check (follows : env.Follows direct) (sound : m.Sound direct)
    (allowed : direct = true ∨ m.world.polling.scheduled = false) :
    (poll env).Meets m.world (fun _ w => m.Returns direct w) fun w => m.Arrives direct w := by
  refine (meets_check follows sound (.check allowed)).mono ?_ fun _ h => h
  rintro - w ⟨m', -, is, goes, taken⟩
  exact ⟨_, rfl, goes, taken, rfl⟩

/-! ### Frames and flushes -/

/-- A frame calls what it has taken, and the checker once for each callback of it. -/
theorem meets_frameTasks (follows : env.Follows direct) :
    ∀ {tasks : List FrameTask}, (∀ task ∈ tasks, task = .poll ∨ ∃ h, task = .hook h) →
      ∀ {m : Moment η} {n : Nat}, m.Sound direct → m.taken = n + tasks.count .poll →
        (forEach tasks (runFrameTask env)).Meets m.world
          (fun _ w => ∃ m', m'.world = w ∧ m.Goes direct m' ∧ m'.taken = n ∧ m'.checks = m.checks)
          fun w => m.Arrives direct w
  | [], _, m, n, _, taken => ⟨m, rfl, .refl, taken, rfl⟩
  | task :: tasks, only, m, n, sound, taken => by
    have others : ∀ task ∈ tasks, task = .poll ∨ ∃ h, task = .hook h := fun task member =>
      only task (List.mem_cons_of_mem _ member)
    -- what is left of the frame, from where the first task ends
    have rest : ∀ {m₁ : Moment η}, m.Goes direct m₁ → m₁.taken = n + tasks.count .poll →
        m₁.checks = m.checks → (forEach tasks (runFrameTask env)).Meets m₁.world
          (fun _ w => ∃ m', m'.world = w ∧ m.Goes direct m' ∧ m'.taken = n ∧ m'.checks = m.checks)
          fun w => m.Arrives direct w := fun goes taken checks => by
      refine (meets_frameTasks follows others (sound.goes goes) taken).mono ?_
        fun _ h => h.before goes
      rintro - w ⟨m', is, goes', taken', checks'⟩
      exact ⟨m', is, goes.trans goes', taken', checks'.trans checks⟩
    refine meets_bind.2 ?_
    obtain rfl | ⟨h, rfl⟩ := only task List.mem_cons_self
    · rw [List.count_cons_self] at taken
      refine (meets_check follows sound (.due taken)).mono ?_ fun _ h => h
      rintro - w ⟨m', -, -, goes, taken'⟩
      exact rest goes taken' rfl
    · rw [List.count_cons_of_ne (by simp)] at taken
      refine (follows.fire h .frame sound).mono ?_ fun _ h => h
      rintro - _ ⟨m₁, rfl, goes, taken', checks⟩
      exact rest goes (taken'.trans taken) checks

/-- **A flush.** -/
theorem ventures_flush (follows : env.Follows direct) : (flushMicrotasks env).Ventures direct := by
  intro m sound
  cases flushing : m.world.tasks.flushing with
  | true =>
    rw [meets_of_eq_ok (flushMicrotasks_of_flushing env flushing)]
    exact ⟨m, rfl, .refl, rfl, rfl⟩
  | false =>
    have marked : m.Returns direct (markFlushing true m.world) :=
      ⟨_, rfl, .single (.aside (World.pollsAside_markFlushing true m.world)), rfl, rfl⟩
    refine meets_flush flushing ((meets_drain (fun _ w => m.Returns direct w)
      (fun _ _ h => h.arrives) ?_ marked).mono ?_ ?_)
    · rintro n task rest _ ⟨m₁, rfl, goes, taken, checks⟩ next
      have sound₁ := sound.goes goes
      have popped : m₁.Turn direct { m₁ with world := m₁.world.withMicrotasks rest } :=
        .aside (World.pollsAside_withMicrotasks next)
      obtain ⟨h, rfl⟩ := sound₁.only.microtasks task (next ▸ List.mem_cons_self)
      refine (follows.fire h .task (sound₁.turn popped)).mono ?_ ?_
      · exact fun _ _ h => h.before (goes.tail popped) taken checks
      · exact fun _ h => h.before (goes.tail popped)
    · rintro n _ ⟨⟨m₁, rfl, goes, taken, checks⟩, -⟩
      exact ⟨_, rfl, goes.tail (.aside (World.pollsAside_markFlushing false m₁.world)), taken,
        checks⟩
    · rintro _ ⟨m₁, rfl, goes⟩
      exact ⟨_, rfl, goes.tail (.aside (World.pollsAside_markFlushing false m₁.world))⟩

/-- **A frame.** -/
theorem ventures_runFrame (follows : env.Follows direct) : (runFrame env).Ventures direct := by
  intro m sound
  have begins : m.Turn direct { m with world := m.world.withFrames [], taken := m.pending } :=
    .frame m
  have taken : m.pending = m.taken + m.world.tasks.frames.count .poll := Nat.add_comm _ _
  have called := meets_frameTasks follows sound.only.frames (sound.turn begins) taken
  refine meets_bind.2 (meets_update.2 (meets_bind.2 (called.mono ?_ ?_)))
  swap
  · exact fun _ h => h.before (.single begins)
  rintro - _ ⟨m₁, rfl, goes, taken, checks⟩
  have goes : m.Goes direct m₁ := .trans (.single begins) goes
  refine meets_bind.2 (meets_discard.2 ?_)
  refine (ventures_flush follows (sound.goes goes)).mono ?_ fun _ h => h.before goes
  exact fun _ _ h => h.before goes taken checks

end Run

end ViewBinding
