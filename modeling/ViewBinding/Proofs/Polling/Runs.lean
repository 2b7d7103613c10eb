import ViewBinding.Proofs.Late.Runs
import ViewBinding.Proofs.Leaf.Slots
import ViewBinding.Proofs.Polling.Moments

/-!
# Polling — once in every frame

What hooks do, and whoever calls into an engine, is a `PollErrand`: subscribing hooks to polled
properties and disposing, checks, frames and flushes, writes to properties, and whatever else is no
business of the checker.  A host of such hooks makes whatever runs a matter of turns
(`follows_machine`), and so the moments of `ViewBinding.Proofs.Polling.Moments` are the moments of
runs (`polled_once_in_a_frame`).

A check that is begun directly while a callback waits makes the checker ask for a second one, and
both stay: from then on each frame checks twice (`checked_twice`).
-/

namespace ViewBinding

variable {η α : Type} {direct : Bool} {env : Env η} {w : World η} {m m' : Moment η}

namespace World

theorem PollsAside.refl (w : World η) : w.PollsAside w :=
  ⟨rfl, rfl, Nat.le_refl _, fun _ _ => .inl, id⟩

/-- Objects change, and nobody hears of it. -/
theorem pollsAside_objects {objects : Store .object ObjectCell}
    (unheard : w.PollsOnly → ∀ o cell, objects.get? o = some cell →
      cell.listeners.isEmpty = true ∧ ∀ p ∈ cell.properties, ∀ s, p.2 ≠ .trap s) :
    w.PollsAside { w with objects } where
  polling := rfl
  frames := rfl
  size := Nat.le_refl _
  polls _ _ := .inl
  only h := ⟨h.microtasks, h.frames, unheard h, h.callbacks, h.subscriptions⟩

/-- A property is written. -/
theorem pollsAside_set (only : w.PollsOnly) (o : Ref .object) (name : String) (v : Value) :
    w.PollsAside (w.set o name v) := by
  refine set_keeps (P := w.PollsAside) (.refl w) (fun s trap => ?_) (fun slot _ plain => ?_)
    fun w' change h => ?_
  · rw [slot?, Option.bind_eq_bind, Option.bind_eq_some_iff] at trap
    obtain ⟨cell, get, slot⟩ := trap
    exact ((only.objects o cell get).2 _ (Entries.mem_of_get? slot) s rfl).elim
  · refine pollsAside_objects fun only o' cell get => ?_
    rw [Store.get?_modify] at get
    split at get
    · obtain ⟨cell', get', rfl⟩ := Option.map_eq_some_iff.1 get
      obtain ⟨unheard, untrapped⟩ := only.objects o cell' get'
      refine ⟨unheard, fun p member => ?_⟩
      obtain rfl | member := Entries.mem_put member
      · exact plain
      · exact untrapped p member
    · exact only.objects o' cell get
  · rwa [record_of_unheard fun cell get => ((h.only only).objects o cell get).1]

theorem pollsAside_newObject (w : World η) (properties : List (String × Value)) :
    w.PollsAside (w.newObject properties).2 := by
  refine pollsAside_objects fun only o cell get => ?_
  rw [Store.get?_alloc] at get
  split at get
  · cases get
    refine ⟨rfl, List.foldlRecOn properties _ (motive := fun slots : List (String × Slot) =>
      ∀ p ∈ slots, ∀ s, p.2 ≠ .trap s) (fun p none => by cases none) fun slots untrapped p _ => ?_⟩
    intro q member
    obtain rfl | member := Entries.mem_put member
    · exact fun s is => by cases is
    · exact untrapped q member
  · exact only.objects o cell get

theorem pollsAside_newPoll (w : World η) (o : Ref .object) (property : String) :
    w.PollsAside (w.newPoll o property).2 where
  polling := rfl
  frames := rfl
  size := by simp [newPoll, Store.size, Store.alloc]
  polls r cell get := by
    rw [newPoll, Store.get?_alloc] at get
    split at get
    next new =>
      cases get
      exact .inr ⟨Nat.le_of_eq (congrArg Ref.index new).symm, rfl, rfl⟩
    · exact .inl get
  only h := by
    refine ⟨h.microtasks, h.frames, h.objects, fun r cell get => ?_, h.subscriptions⟩
    rw [newPoll, Store.get?_alloc] at get
    split at get
    · cases get
      exact fun p m => by cases m
    · exact h.callbacks r cell get

end World

/-- A check, unless a callback of the checker waits. -/
def Run.pollIdle (env : Env η) : Run η Unit := do
  if ← read fun w => w.polling.scheduled then Pure.pure () else poll env

/-- What a hook does, or whoever calls into the engine.  Checks may be begun while a callback waits
if `direct` says so. -/
inductive PollErrand (env : Env η) (direct : Bool) : {α : Type} → Run η α → Prop
  | read {α : Type} (f : World η → α) : PollErrand env direct (Run.read f)
  /-- Whatever is no business of the checker. -/
  | aside {α : Type} {f : World η → α × World η}
      (h : ∀ w : World η, w.PollsOnly → w.PollsAside (f w).2) : PollErrand env direct (Run.update f)
  | subscribe (r : Ref .poll) (h : Ref .hook) :
      PollErrand env direct (Run.update fun w => w.subscribePoll r (.hook h))
  | dispose (s : Ref .subscription) : PollErrand env direct (Run.modify fun w => w.dispose s)
  | check (allowed : direct = true) : PollErrand env direct (Run.poll env)
  | checkIdle : PollErrand env direct (Run.pollIdle env)
  | frame : PollErrand env direct (Run.runFrame env)
  | flush : PollErrand env direct (Run.flushMicrotasks env)
  | bind {α β : Type} {x : Run η α} {f : α → Run η β} (first : PollErrand env direct x)
      (next : ∀ a, PollErrand env direct (f a)) : PollErrand env direct (x >>= f)
  /-- Calling deeper than calls may nest. -/
  | cutOff {α : Type} : PollErrand env direct (Run.cutOff : Run η α)

namespace PollErrand

theorem pure (a : α) : PollErrand env direct (Pure.pure a : Run η α) := .read fun _ => a

theorem change {f : World η → World η} (h : ∀ w : World η, w.PollsOnly → w.PollsAside (f w)) :
    PollErrand env direct (Run.modify f) :=
  .aside (f := fun w => ((), f w)) h

/-- Writing a property. -/
theorem write (o : Ref .object) (name : String) (v : Value) :
    PollErrand env direct (Run.modify fun w => w.set o name v) :=
  .change fun _ only => World.pollsAside_set only o name v

/-- Writing through the observer of a polled property. -/
theorem writeLeaf (r : Ref .poll) (v : Value) :
    PollErrand env direct (Run.writeLeaf env (.poll r) v) := by
  refine .bind (.read _) fun cell => ?_
  cases cell with
  | none => exact .pure ()
  | some cell =>
    refine .change fun w only => ?_
    split
    · exact World.pollsAside_set only cell.object cell.property v
    · exact .refl w

/-- **Whatever an errand does may come**, if whatever hooks do may. -/
theorem ventures (follows : env.Follows direct) {x : Run η α} (errand : PollErrand env direct x) :
    x.Ventures direct := by
  induction errand with
  | read f => exact .read f
  | aside h => exact .update fun m sound => ⟨_, .aside (h m.world sound.only)⟩
  | subscribe r h => exact .update fun m _ => ⟨_, .subscribe m r h⟩
  | dispose s => exact .update (f := fun w => ((), w.dispose s)) fun m _ => ⟨_, .dispose m s⟩
  | check allowed => exact fun m sound => Run.ventures_check follows sound (.inl allowed)
  | checkIdle =>
    intro m sound
    refine Run.meets_bind.2 (Run.meets_read.2 ?_)
    cases scheduled : m.world.polling.scheduled with
    | true => exact ⟨m, rfl, .refl, rfl, rfl⟩
    | false => exact Run.ventures_check follows sound (.inr scheduled)
  | frame => exact Run.ventures_runFrame follows
  | flush => exact Run.ventures_flush follows
  | bind _ _ first next => exact first.bind next
  | cutOff => exact .cutOff

end PollErrand

/-- Hooks that do errands follow the turns, however deep calls nest. -/
theorem follows_machine {host : Host η}
    (errands : ∀ env h occasion, PollErrand env direct (host.fire env h occasion)) (rounds : Nat) :
    ∀ depth, (machine host rounds depth).Follows direct
  | 0 => ⟨fun _ _ => .cutOff, fun _ _ _ => .cutOff⟩
  | depth + 1 =>
    have follows := follows_machine errands rounds depth
    ⟨fun h occasion => (errands _ h occasion).ventures follows,
      fun h new old => follows.fire h (.changed new old)⟩

/-- An engine is made. -/
def Moment.start (config : Config) (state : η) : Moment η := { world := .new config state }

theorem sound_start (config : Config) (state : η) : (Moment.start config state).Sound direct where
  only := ⟨nofun, nofun, fun o cell get => by simp [Moment.start, World.new] at get,
    fun r cell get => by simp [Moment.start, World.new] at get,
    fun s d stands => by simp [Moment.start, World.new, World.disposal?] at stands⟩
  tracks := ⟨.nil, nofun, fun r cell get => by simp [Moment.start, World.new] at get⟩
  paced := ⟨nofun, fun _ => Nat.le_refl _, fun _ some => (some rfl).elim⟩

/-- **Polled once in a frame.**  Let the hooks of a host do errands, and take any moment of a run from
the making of an engine on: between errands, or within any of them.

A property is tracked, once, while it has subscribers, and else not.  Unless a check is running, a
callback of the checker waits while anything is tracked.  Never two wait, unless checks are begun
directly while one waits; and then the checker counts as scheduled exactly while one waits.

Whatever errand is done then, the world in which it ends is that of such a moment; and if it gives a
result, as many checks are running as before, and frames have as many callbacks to call.

A check that begins then and gives a result visits each tracked property that is not gone.  As long
as somebody is subscribed to it when it is visited, the subscribers are told if and only if its value
is not the one that the last look saw, with this one and that one. -/
theorem polled_once_in_a_frame {host : Host η}
    (errands : ∀ env h occasion, PollErrand env direct (host.fire env h occasion))
    {config : Config} {state : η} (goes : (Moment.start config state).Goes direct m)
    (rounds depth : Nat) :
    m.world.polling.tracked.Nodup ∧
    (∀ r cell, m.world.polls.get? r = some cell →
      (r ∈ m.world.polling.tracked ↔ cell.callbacks.entries ≠ [])) ∧
    (m.checks = 0 → m.world.polling.tracked ≠ [] → 1 ≤ m.pending) ∧
    (direct = false → m.pending ≤ 1 ∧ (m.world.polling.scheduled = true ↔ m.pending = 1)) ∧
    (∀ {α : Type} (x : Run η α) (outcome : Outcome α) (w : World η),
      PollErrand (machine host rounds depth) direct x → x m.world = (outcome, w) →
      ∃ m', m'.world = w ∧ m.Goes direct m' ∧
        (∀ a, outcome = .ok a → m'.taken = m.taken ∧ m'.checks = m.checks)) ∧
    ∀ n w, m.Turn direct { m.begun with taken := n } →
      Run.poll (machine host rounds depth) m.world = (.ok (), w) →
      ∃ m', { m.begun with taken := n }.Visits (machine host rounds depth) direct
        (m.world.polling.tracked.filter fun r => m.world.polls.contains r) m' ∧
        m'.world.endCheck = w := by
  have sound := (sound_start config state).goes goes
  have follows := follows_machine errands rounds depth
  refine ⟨sound.tracks.nodup, fun r cell get => (sound.tracks.each r cell get).tracked,
    fun idle some => ?_, sound.paced.waits, fun x outcome w errand ended => ?_,
    fun n w begins ended => ?_⟩
  · exact sound.paced.requested (sound.paced.scheduled idle some)
  · have ventures := errand.ventures follows sound
    unfold Run.Meets at ventures
    rw [ended] at ventures
    cases outcome with
    | ok a =>
      obtain ⟨m', is, goes', taken, checks⟩ := ventures
      exact ⟨m', is, goes', fun _ _ => ⟨taken, checks⟩⟩
    | _ =>
      obtain ⟨m', is, goes'⟩ := ventures
      exact ⟨m', is, goes', fun _ is => by cases is⟩
  · obtain ⟨m', visits, is, -⟩ := (Run.meets_check follows sound begins).of_eq_ok ended
    exact ⟨m', visits, is⟩

/-! ### A patrol -/

namespace Patrol

/-- Writes down what a hook is told. -/
def note (h : Ref .hook) (new old : Value) : Run (List Note) Unit :=
  Run.modify fun w => { w with host := w.host ++ [⟨h, new, old⟩] }

/-- A host whose hooks write down what they are told.  The first one checks then, unless a callback of
the checker waits, and has the second one told about another property. -/
def host : Host (List Note) where
  call _ _ _ _ := pure .undefined
  convert _ _ _ _ := pure none
  fire env h
    | .changed new old => do
      note h new old
      if h.index = 0 then
        Run.pollIdle env
        discard (Run.update fun w => w.subscribePoll ⟨1⟩ (.hook ⟨1⟩))
      else pure ()
    | _ => pure ()
  late w := (false, w.host)

variable {env : Env (List Note)}

theorem errand_note (h : Ref .hook) (new old : Value) : PollErrand env false (note h new old) :=
  .change fun _ _ => ⟨rfl, rfl, Nat.le_refl _, fun _ _ => .inl, fun h =>
    ⟨h.microtasks, h.frames, h.objects, h.callbacks, h.subscriptions⟩⟩

theorem errands (env : Env (List Note)) (h : Ref .hook) (occasion : Occasion) :
    PollErrand env false (host.fire env h occasion) := by
  cases occasion with
  | changed new old =>
    refine .bind (errand_note h new old) fun _ => ?_
    split
    · exact .bind .checkIdle fun _ => .bind (.subscribe ⟨1⟩ ⟨1⟩) fun _ => .pure _
    · exact .pure ()
  | _ => exact .pure ()

/-- A property is polled and written, and a frame runs; then the other property is written, and
another frame runs. -/
def round (env : Env (List Note)) : Run (List Note) Unit := do
  let o ← Run.update (·.newObject [("gate", .string "open")])
  let r ← Run.update (·.newPoll o "gate")
  discard (Run.update (·.newPoll o "lamp"))
  discard (Run.update fun w => w.subscribePoll r (.hook ⟨0⟩))
  Run.modify fun w => w.set o "gate" (.string "shut")
  discard (Run.runFrame env)
  Run.modify fun w => w.set o "lamp" (.string "lit")
  discard (Run.runFrame env)

theorem errand_round : PollErrand env false (round env) := by
  refine .bind (.aside fun w _ => w.pollsAside_newObject _) fun o => ?_
  refine .bind (.aside fun w _ => w.pollsAside_newPoll o "gate") fun r => ?_
  have lamp : PollErrand env false (Run.update (·.newPoll o "lamp")) :=
    .aside fun w _ => w.pollsAside_newPoll o "lamp"
  refine .bind (.bind lamp fun _ => .pure _) fun _ => ?_
  refine .bind (.bind (.subscribe r ⟨0⟩) fun _ => .pure _) fun _ => ?_
  refine .bind (.write o "gate" _) fun _ => .bind (.bind .frame fun _ => .pure _) fun _ => ?_
  exact .bind (.write o "lamp" _) fun _ => .bind .frame fun _ => .pure _

/-- What the round comes to. -/
theorem round_ends : (round (machine host 9 9)).Ends False (World.new .standard []) fun _ w =>
    w.host.map (fun n => (n.hook, n.new, n.old)) =
      [(⟨0⟩, .string "shut", .string "open"), (⟨1⟩, .string "lit", .undefined)] ∧
    w.tasks.frames = [.poll] ∧ w.polling.tracked = [⟨0⟩, ⟨1⟩] := by
  decide +kernel

end Patrol

/-- After the round two properties are tracked, and one callback waits. -/
theorem patrolled_once :
    (∀ env h occasion, PollErrand env false (Patrol.host.fire env h occasion)) ∧
    ∃ m : Moment (List Note), (Moment.start .standard []).Goes false m ∧
      Patrol.round (machine Patrol.host 9 9) (World.new .standard []) = (.ok (), m.world) ∧
      m.world.polling.tracked = [⟨0⟩, ⟨1⟩] ∧ m.checks = 0 ∧ m.pending = 1 := by
  obtain ⟨⟨⟩, w, ended, -, -, tracked⟩ := Patrol.round_ends.exists_eq_ok
  obtain ⟨-, -, -, -, runs, -⟩ := polled_once_in_a_frame Patrol.errands .refl 9 9
  obtain ⟨m, rfl, goes, even⟩ := runs _ _ w Patrol.errand_round ended
  obtain ⟨-, checks⟩ := even () rfl
  obtain ⟨-, -, some, once, -⟩ := polled_once_in_a_frame Patrol.errands goes 9 9
  refine ⟨Patrol.errands, m, goes, ended, tracked, checks, ?_⟩
  exact Nat.le_antisymm (once rfl).1 (some checks (by rw [tracked]; exact List.cons_ne_nil _ _))

/-! ### Checking at once -/

/-- A hook is subscribed to a property of a frozen object, and a check is begun directly while the
callback of the checker waits.  Then a frame runs. -/
def Run.hurried (env : Env (List Note)) : Run (List Note) Nat := do
  let o ← update (·.newObject [("gate", .string "open")])
  modify fun w => w.freeze o
  let r ← update (·.newPoll o "gate")
  discard (update fun w => w.subscribePoll r (.hook ⟨0⟩))
  poll env
  runFrame env

/-- **A check that is begun directly while a callback waits** makes the checker ask for another one:
the frame runs two callbacks, and two wait again. -/
theorem checked_twice : (Run.hurried (machine Late.remembering 9 9)).Ends False
    (World.new .standard []) fun ran w => ran = 2 ∧ w.tasks.frames = [.poll, .poll] ∧
      w.polling.tracked = [⟨0⟩] := by
  decide +kernel

end ViewBinding
