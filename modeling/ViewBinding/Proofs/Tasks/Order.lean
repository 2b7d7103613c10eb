import ViewBinding.Machine
import ViewBinding.Proofs.Tasks.Errands

/-!
# Tasks — once and in order

The tasks of a `Family` do errands in which they queue microtasks and request frame tasks of the
family.  Its diary says in which order this happened and in which order the tasks ran.

`Account F w es w'` is what a run from `w` to `w'` has in common with what the diary says of it, the
events `es`: what waited and what was queued is what ran and what waits then, first in, first out.

A flush runs every microtask that waits when it begins or is queued before it ends, each once and in
the order of queueing, and a flush within it does nothing.  A frame runs the frame tasks that were
requested before it began, each once and in the order of their requests, and then flushes; what is
requested meanwhile waits for another frame (`tasks_once_in_order`).
-/

namespace ViewBinding

namespace TaskQueue

/-- What happens to tasks. -/
inductive Event where
  | queued (task : Microtask)
  | ran (task : Microtask)
  | requested (task : FrameTask)
  | called (task : FrameTask)
deriving DecidableEq

/-- The microtasks that were queued. -/
def queues (es : List Event) : List Microtask :=
  es.filterMap fun | .queued task => some task | _ => none

/-- The microtasks that ran. -/
def runs (es : List Event) : List Microtask :=
  es.filterMap fun | .ran task => some task | _ => none

/-- The frame tasks that were requested. -/
def requests (es : List Event) : List FrameTask :=
  es.filterMap fun | .requested task => some task | _ => none

/-- The frame tasks that ran. -/
def calls (es : List Event) : List FrameTask :=
  es.filterMap fun | .called task => some task | _ => none

variable (es es' : List Event)

@[simp] theorem queues_append : queues (es ++ es') = queues es ++ queues es' :=
  List.filterMap_append

@[simp] theorem runs_append : runs (es ++ es') = runs es ++ runs es' := List.filterMap_append

@[simp] theorem requests_append : requests (es ++ es') = requests es ++ requests es' :=
  List.filterMap_append

@[simp] theorem calls_append : calls (es ++ es') = calls es ++ calls es' := List.filterMap_append

end TaskQueue

open TaskQueue (Event queues runs requests calls)

variable {η : Type}

/-- Tasks, the environments in which they are run, and the diary of their host, oldest first. -/
structure Family (η : Type) where
  env : Env η → Prop
  microtask : Microtask → Prop
  frameTask : FrameTask → Prop
  diary : η → List Event

namespace Family

variable (F : Family η)

/-- A note in the diary that an event happens. -/
structure Notes (e : Event) (w w' : World η) : Prop where
  tasks : w'.tasks = w.tasks
  diary : F.diary w'.host = F.diary w.host ++ [e]

/-- What a task of the family may do in one step. -/
inductive Step (w w' : World η) : Prop
  /-- Whatever has nothing to do with tasks. -/
  | aside (tasks : w'.tasks = w.tasks) (diary : F.diary w'.host = F.diary w.host)
  | queue {task : Microtask} (h : F.microtask task)
      (noted : F.Notes (.queued task) (w.queueMicrotask task) w')
  | request {task : FrameTask} (h : F.frameTask task)
      (noted : F.Notes (.requested task) (w.requestFrame task) w')

/-- Each task of the family notes that it runs, and does an errand. -/
structure Works : Prop where
  microtask : ∀ env, F.env env → ∀ task, F.microtask task →
    Begins F.env F.Step (F.Notes (.ran task)) (Run.runMicrotask env task)
  frameTask : ∀ env, F.env env → ∀ task, F.frameTask task →
    Begins F.env F.Step (F.Notes (.called task)) (Run.runFrameTask env task)

/-- The tasks that wait are of the family. -/
structure Waits (w : World η) : Prop where
  microtasks : ∀ task ∈ w.tasks.microtasks, F.microtask task
  frames : ∀ task ∈ w.tasks.frames, F.frameTask task

end Family

theorem Family.Waits.of_eq {F : Family η} {w w' : World η} (mine : F.Waits w)
    (tasks : w'.tasks = w.tasks) : F.Waits w' := by
  refine ⟨?_, ?_⟩ <;> rw [tasks]
  · exact mine.microtasks
  · exact mine.frames

/-- A run from one world to another in which these events happen to the tasks. -/
structure Account (F : Family η) (w : World η) (es : List Event) (w' : World η) : Prop where
  diary : F.diary w'.host = F.diary w.host ++ es
  /-- First in, first out. -/
  order : w.tasks.microtasks ++ queues es =
    runs es ++ w'.tasks.microtasks
  frames : w'.tasks.frames = w.tasks.frames ++ requests es
  flushing : w'.tasks.flushing = w.tasks.flushing
  waits : F.Waits w → F.Waits w'

namespace Account

variable {F : Family η} {w w' w'' : World η} {es es' : List Event}

theorem refl (w : World η) : Account F w [] w where
  diary := (List.append_nil _).symm
  order := List.append_nil _
  frames := (List.append_nil _).symm
  flushing := rfl
  waits := id

theorem trans (h : Account F w es w') (h' : Account F w' es' w'') :
    Account F w (es ++ es') w'' where
  diary := by rw [h'.diary, h.diary, List.append_assoc]
  order := by
    rw [TaskQueue.queues_append, TaskQueue.runs_append, ← List.append_assoc, h.order,
      List.append_assoc, h'.order, List.append_assoc]
  frames := by rw [h'.frames, h.frames, TaskQueue.requests_append, List.append_assoc]
  flushing := h'.flushing.trans h.flushing
  waits := h'.waits ∘ h.waits

/-- When nothing waits in the end, what ran is what waited and what was queued. -/
theorem ran_of_drained (h : Account F w es w') (drained : w'.tasks.microtasks = []) :
    runs es = w.tasks.microtasks ++ queues es := by
  rw [h.order, drained, List.append_nil]

/-- One event, with the note of it. -/
theorem of_notes {e : Event} {w₁ : World η} (noted : F.Notes e w₁ w') (host : w₁.host = w.host)
    (order : w.tasks.microtasks ++ queues [e] = runs [e] ++ w₁.tasks.microtasks)
    (frames : w₁.tasks.frames = w.tasks.frames ++ requests [e])
    (flushing : w₁.tasks.flushing = w.tasks.flushing) (waits : F.Waits w → F.Waits w₁) :
    Account F w [e] w' where
  diary := by rw [noted.diary, host]
  order := by rw [order, noted.tasks]
  frames := by rw [noted.tasks, frames]
  flushing := by rw [noted.tasks, flushing]
  waits mine := (waits mine).of_eq noted.tasks

/-- A step runs no task. -/
theorem of_step (step : F.Step w w') :
    ∃ es, Account F w es w' ∧ runs es = [] ∧ calls es = [] := by
  cases step with
  | aside tasks diary =>
    exact ⟨[], ⟨by rw [diary, List.append_nil], by rw [tasks]; exact List.append_nil _,
      by rw [tasks]; exact (List.append_nil _).symm, by rw [tasks], fun mine => mine.of_eq tasks⟩,
      rfl, rfl⟩
  | queue h noted =>
    refine ⟨_, of_notes noted rfl rfl (List.append_nil _).symm rfl fun mine => ?_, rfl, rfl⟩
    exact ⟨List.forall_mem_append.2 ⟨mine.microtasks, List.forall_mem_singleton.2 h⟩, mine.frames⟩
  | request h noted =>
    refine ⟨_, of_notes noted rfl (List.append_nil _) rfl rfl fun mine => ?_, rfl, rfl⟩
    exact ⟨mine.microtasks, List.forall_mem_append.2 ⟨mine.frames, List.forall_mem_singleton.2 h⟩⟩

/-- The microtask that has waited longest notes that it runs. -/
theorem of_ran {task : Microtask} {rest : List Microtask}
    (next : w.tasks.microtasks = task :: rest)
    (noted : F.Notes (.ran task) (w.withMicrotasks rest) w') : Account F w [.ran task] w' :=
  of_notes noted rfl ((List.append_nil _).trans next) (List.append_nil _).symm rfl fun mine =>
    ⟨fun task m => mine.microtasks task (next ▸ List.mem_cons_of_mem _ m), mine.frames⟩

/-- A frame task notes that it runs. -/
theorem of_called {task : FrameTask} (noted : F.Notes (.called task) w w') :
    Account F w [.called task] w' :=
  of_notes noted rfl (List.append_nil _) (List.append_nil _).symm rfl id

/-- A flush marks when it begins and when it ends. -/
theorem unmark (idle : w.tasks.flushing = false)
    (h : Account F (Run.markFlushing true w) es w') :
    Account F w es (Run.markFlushing false w') where
  diary := h.diary
  order := h.order
  frames := h.frames
  flushing := idle.symm
  waits mine := by
    have after := h.waits ⟨mine.microtasks, mine.frames⟩
    exact ⟨after.microtasks, after.frames⟩

end Account

variable {F : Family η} {w w' : World η} {env : Env η}

/-- While a flush is running, an errand runs no task. -/
theorem Errand.account_of_flushing {x : Run η Unit} (errand : Errand F.env F.Step x)
    (flushing : w.tasks.flushing = true) :
    x.Meets w (fun _ w' => ∃ es, Account F w es w' ∧
      runs es = [] ∧ calls es = []) fun _ => True := by
  refine errand.meets_of_flushing (fun _ _ => trivial) ?_ ?_ ⟨[], .refl w, rfl, rfl⟩
  · rintro w₁ w₂ ⟨es, account, unran, uncalled⟩ step
    obtain ⟨es', account', unran', uncalled'⟩ := Account.of_step step
    exact ⟨es ++ es', account.trans account', by rw [TaskQueue.runs_append, unran, unran']; rfl,
      by rw [TaskQueue.calls_append, uncalled, uncalled']; rfl⟩
  · rintro w₁ ⟨es, account, -⟩
    exact account.flushing.trans flushing

/-- A flush that is not within a flush runs what waits and what is queued meanwhile. -/
theorem Account.of_flush (works : F.Works) (env' : F.env env) (mine : F.Waits w)
    (idle : w.tasks.flushing = false) :
    (Run.flushMicrotasks env).Meets w (fun n w' => ∃ es, Account F w es w' ∧
      n = (runs es).length ∧ calls es = [] ∧
      w'.tasks.microtasks = []) fun _ => True := by
  refine Run.meets_flush idle ?_
  let inv (n : Nat) (w' : World η) : Prop := ∃ es, Account F (Run.markFlushing true w) es w' ∧
    n = (runs es).length ∧ calls es = []
  refine (Run.meets_drain inv (fun _ _ _ => trivial) ?_ ⟨[], .refl _, rfl, rfl⟩).mono ?_ fun _ h => h
  · -- the next microtask notes that it runs; its errand runs none, since the flush is running
    rintro n task rest w₁ ⟨es, account, count, uncalled⟩ next
    have waits := account.waits ⟨mine.microtasks, mine.frames⟩
    have begins := works.microtask env env' task (waits.microtasks task (next ▸ List.mem_cons_self))
    generalize Run.runMicrotask env task = x at begins
    cases begins with
    | cutOff => exact trivial
    | note h errand =>
      have ran := Account.of_ran next (h (w₁.withMicrotasks rest))
      have flushing := ran.flushing.trans account.flushing
      refine Run.meets_bind.2 ((errand.account_of_flushing flushing).mono ?_ fun _ h => h)
      rintro - w₂ ⟨es', account', unran', uncalled'⟩
      refine ⟨_, account.trans (ran.trans account'), ?_, ?_⟩
      · rw [TaskQueue.runs_append, TaskQueue.runs_append, unran', List.append_nil,
          List.length_append, count]
        rfl
      · rw [TaskQueue.calls_append, TaskQueue.calls_append, uncalled, uncalled']
        rfl
  · rintro n w₁ ⟨⟨es, account, count, uncalled⟩, drained⟩
    exact ⟨es, account.unmark idle, count, uncalled, drained⟩

/-- **Every errand** has an account.  It runs no frame task, and it runs microtasks only where it
flushes and no flush is running. -/
theorem Errand.account (works : F.Works) {x : Run η Unit} (errand : Errand F.env F.Step x)
    (mine : F.Waits w) :
    x.Meets w (fun _ w' => ∃ es, Account F w es w' ∧ calls es = [] ∧
      (w.tasks.flushing = true → runs es = [])) fun _ => True := by
  cases flushing : w.tasks.flushing with
  | true =>
    refine (errand.account_of_flushing flushing).mono ?_ fun _ h => h
    rintro - w' ⟨es, account, unran, uncalled⟩
    exact ⟨es, account, uncalled, fun _ => unran⟩
  | false =>
    let inv (w' : World η) : Prop := ∃ es, Account F w es w' ∧ calls es = []
    refine (errand.meets inv (fun _ _ => trivial) ?_ ?_ ⟨[], .refl w, rfl⟩).mono ?_
      fun _ h => h
    · rintro w₁ w₂ ⟨es, account, uncalled⟩ step
      obtain ⟨es', account', -, uncalled'⟩ := Account.of_step step
      exact ⟨es ++ es', account.trans account',
        by rw [TaskQueue.calls_append, uncalled, uncalled']; rfl⟩
    · rintro env w₁ env' ⟨es, account, uncalled⟩
      refine (Account.of_flush works env' (account.waits mine)
        (account.flushing.trans flushing)).mono ?_ fun _ h => h
      rintro n w₂ ⟨es', account', -, uncalled', -⟩
      exact ⟨es ++ es', account.trans account',
        by rw [TaskQueue.calls_append, uncalled, uncalled']; rfl⟩
    · rintro - w' ⟨es, account, uncalled⟩
      exact ⟨es, account, uncalled, Bool.noConfusion⟩

/-- The frame tasks of a frame run in the order of the list. -/
theorem Account.of_frameTasks (works : F.Works) (env' : F.env env) {tasks : List FrameTask}
    (mine : ∀ task ∈ tasks, F.frameTask task) (waits : F.Waits w) :
    (Run.forEach tasks (Run.runFrameTask env)).Meets w (fun _ w' => ∃ es, Account F w es w' ∧
      calls es = tasks ∧
      (w.tasks.flushing = true → runs es = [])) fun _ => True := by
  -- over the list that was taken: what is requested meanwhile waits elsewhere
  induction tasks generalizing w with
  | nil => exact ⟨[], .refl w, rfl, fun _ => rfl⟩
  | cons task tasks ih =>
    have begins := works.frameTask env env' task (mine task List.mem_cons_self)
    refine Run.meets_bind.2 ?_
    generalize Run.runFrameTask env task = x at begins
    cases begins with
    | cutOff => exact trivial
    | note h errand =>
      have called := Account.of_called (h w)
      refine Run.meets_bind.2 ((errand.account works (called.waits waits)).mono ?_ fun _ h => h)
      rintro - w₁ ⟨es, inner, uncalled, quiet⟩
      have first := called.trans inner
      refine (ih (fun task m => mine task (List.mem_cons_of_mem _ m)) (first.waits waits)).mono ?_
        fun _ h => h
      rintro - w₂ ⟨es', second, all, quiet'⟩
      refine ⟨_, first.trans second, ?_, fun flushing => ?_⟩
      · rw [TaskQueue.calls_append, TaskQueue.calls_append, uncalled, all]
        rfl
      · rw [TaskQueue.runs_append, TaskQueue.runs_append,
          quiet (called.flushing.trans flushing), quiet' (first.flushing.trans flushing)]
        rfl

/-- **Tasks run once and in order.**  The tasks of a family do errands: they queue microtasks of the
family, request frame tasks of it and flush.

A flush within a flush does nothing.  When any other flush is over, the microtasks that ran are those
that waited and those that have been queued since, each once and in this order; it gives how many
they are; none waits, and no flush is running.

When a frame is over, the frame tasks that ran are those requested before it began, each once and in
the order of their requests; it gives how many they are; those requested since wait.  Then the
microtasks have been flushed too, unless a flush is running around the frame. -/
theorem tasks_once_in_order (works : F.Works) (env' : F.env env) (mine : F.Waits w) (n : Nat)
    (w' : World η) :
    (w.tasks.flushing = true → Run.flushMicrotasks env w = (.ok 0, w)) ∧
    (w.tasks.flushing = false → Run.flushMicrotasks env w = (.ok n, w') →
      w'.tasks.microtasks = [] ∧ w'.tasks.flushing = false ∧ ∃ es,
      F.diary w'.host = F.diary w.host ++ es ∧
      runs es = w.tasks.microtasks ++ queues es ∧
      n = (runs es).length ∧ calls es = [] ∧
      w'.tasks.frames = w.tasks.frames ++ requests es) ∧
    (Run.runFrame env w = (.ok n, w') →
      n = w.tasks.frames.length ∧ w'.tasks.flushing = w.tasks.flushing ∧ ∃ es es',
      F.diary w'.host = F.diary w.host ++ (es ++ es') ∧
      calls es = w.tasks.frames ∧ calls es' = [] ∧
      w'.tasks.frames = requests (es ++ es') ∧
      (w.tasks.flushing = true → es' = [] ∧ runs es = []) ∧
      (w.tasks.flushing = false → w'.tasks.microtasks = [] ∧ runs (es ++ es') =
        w.tasks.microtasks ++ queues (es ++ es'))) := by
  refine ⟨Run.flushMicrotasks_of_flushing env, fun idle ended => ?_, fun ended => ?_⟩
  · obtain ⟨es, account, count, uncalled, drained⟩ :=
      (Account.of_flush works env' mine idle).of_eq_ok ended
    exact ⟨drained, account.flushing.trans idle, es, account.diary, account.ran_of_drained drained,
      count, uncalled, account.frames⟩
  · obtain ⟨⟨⟩, w₁, called, ended⟩ := Run.bind_eq_ok.1
      (show (Run.forEach w.tasks.frames (Run.runFrameTask env) >>= fun _ =>
        discard (Run.flushMicrotasks env) >>= fun _ => pure w.tasks.frames.length)
          (w.withFrames []) = _ from ended)
    obtain ⟨⟨⟩, w₂, flushed, ended⟩ := Run.bind_eq_ok.1 ended
    cases ended
    have waits : F.Waits (w.withFrames []) := ⟨mine.microtasks, nofun⟩
    obtain ⟨es, account, all, quiet⟩ :=
      (Account.of_frameTasks works env' mine.frames waits).of_eq_ok called
    obtain ⟨m, flushed⟩ := Run.exists_of_discard flushed
    refine ⟨rfl, ?_⟩
    cases flushing : w.tasks.flushing with
    | true =>
      rw [Run.flushMicrotasks_of_flushing env (account.flushing.trans flushing)] at flushed
      cases flushed
      refine ⟨account.flushing.trans flushing, es, [], ?_, all, rfl, ?_,
        fun _ => ⟨rfl, quiet flushing⟩, Bool.noConfusion⟩ <;> rw [List.append_nil]
      · exact account.diary
      · exact account.frames
    | false =>
      obtain ⟨es', account', -, uncalled, drained⟩ := (Account.of_flush works env'
        (account.waits waits) (account.flushing.trans flushing)).of_eq_ok flushed
      have whole := account.trans account'
      exact ⟨whole.flushing.trans flushing, es, es', whole.diary, all, uncalled, whole.frames,
        Bool.noConfusion, fun _ => ⟨drained, whole.ran_of_drained drained⟩⟩

/-! ### Hooks -/

/-- The hooks of a host that keeps a diary, as tasks of a machine. -/
def Host.family (host : Host η) (rounds : Nat) (diary : η → List Event) : Family η where
  env env := ∃ depth, env = machine host rounds depth
  microtask task := ∃ h, task = .hook h
  frameTask task := ∃ h, task = .hook h
  diary := diary

/-- Writes something down. -/
def World.write (w : World (List Event)) (e : Event) : World (List Event) :=
  { w with host := w.host ++ [e] }

/-- A host that writes down what happens to tasks.  The first hook queues the second and flushes, the
second requests the third for a frame, and any other queues the first and requests the third again. -/
def relay : Host (List Event) where
  call _ _ _ _ := pure .undefined
  convert _ _ _ _ := pure none
  fire env h occasion := do
    Run.modify fun w => w.write (if occasion = .frame then .called (.hook h) else .ran (.hook h))
    match h.index with
    | 0 =>
      queue ⟨1⟩
      discard (Run.flushMicrotasks env)
    | 1 => request ⟨2⟩
    | _ =>
      queue ⟨0⟩
      request ⟨2⟩
  late w := (false, w.host)
where
  queue (h : Ref .hook) : Run (List Event) Unit :=
    Run.modify fun w => (w.queueMicrotask (.hook h)).write (.queued (.hook h))
  request (h : Ref .hook) : Run (List Event) Unit :=
    Run.modify fun w => (w.requestFrame (.hook h)).write (.requested (.hook h))

/-- The hooks of the host. -/
def relays : Family (List Event) := relay.family 9 id

theorem relay_begins (env : Env (List Event)) (env' : relays.env env) (h : Ref .hook)
    (occasion : Occasion) : Begins relays.env relays.Step
      (relays.Notes (if occasion = .frame then .called (.hook h) else .ran (.hook h)))
      (env.fire h occasion) := by
  obtain ⟨depth, rfl⟩ := env'
  cases depth with
  | zero => exact .cutOff
  | succ depth =>
    have queues (h : Ref .hook) : Errand relays.env relays.Step (relay.queue h) :=
      .modify fun w => .queue ⟨h, rfl⟩ ⟨rfl, rfl⟩
    have requests (h : Ref .hook) : Errand relays.env relays.Step (relay.request h) :=
      .modify fun w => .request ⟨h, rfl⟩ ⟨rfl, rfl⟩
    refine .note (fun w => ⟨rfl, rfl⟩) ?_
    split
    · exact .bind (queues _) fun _ => .bind (.flush ⟨depth, rfl⟩) fun _ => .pure _
    · exact requests _
    · exact .bind (queues _) fun _ => requests _

theorem relays_work : relays.Works where
  microtask := by
    rintro env env' _ ⟨h, rfl⟩
    exact relay_begins env env' h .task
  frameTask := by
    rintro env env' _ ⟨h, rfl⟩
    exact relay_begins env env' h .frame

/-- The first hook waits for a flush and the third for a frame. -/
def relayStart : World (List Event) :=
  ((World.new .standard []).queueMicrotask (.hook ⟨0⟩)).requestFrame (.hook ⟨2⟩)

theorem relayStart_waits : relays.Waits relayStart where
  microtasks _ m := ⟨_, List.mem_singleton.1 m⟩
  frames _ m := ⟨_, List.mem_singleton.1 m⟩

/-- A flush runs the first hook and then the second, which the first has queued.  A frame in its place
runs the third, and then twice these two. -/
theorem relay_once_in_order : relays.Works ∧ relays.env (machine relay 9 3) ∧
    relays.Waits relayStart ∧ relayStart.tasks.flushing = false ∧
    (∃ w, Run.flushMicrotasks (machine relay 9 3) relayStart = (.ok 2, w) ∧
      w.host = [.ran (.hook ⟨0⟩), .queued (.hook ⟨1⟩), .ran (.hook ⟨1⟩), .requested (.hook ⟨2⟩)] ∧
      w.tasks.microtasks = [] ∧ ∃ es, w.host = [] ++ es ∧
      runs es = [.hook ⟨0⟩] ++ queues es) ∧
    ∃ w, Run.runFrame (machine relay 9 3) relayStart = (.ok 1, w) ∧
      runs w.host = [.hook ⟨0⟩, .hook ⟨0⟩, .hook ⟨1⟩, .hook ⟨1⟩] ∧
      ∃ es es', w.host = [] ++ (es ++ es') ∧ calls es = [.hook ⟨2⟩] ∧
      w.tasks.frames = requests (es ++ es') := by
  have env' : relays.env (machine relay 9 3) := ⟨3, rfl⟩
  obtain ⟨-, flush, -⟩ := tasks_once_in_order relays_work env' relayStart_waits 2
    (Run.flushMicrotasks (machine relay 9 3) relayStart).2
  obtain ⟨-, -, frame⟩ := tasks_once_in_order relays_work env' relayStart_waits 1
    (Run.runFrame (machine relay 9 3) relayStart).2
  obtain ⟨drained, -, es, diary, all, -⟩ := flush rfl rfl
  obtain ⟨-, -, es₁, es₂, diary', called, -, requested, -⟩ := frame rfl
  exact ⟨relays_work, env', relayStart_waits, rfl,
    ⟨_, rfl, rfl, drained, es, diary, all⟩, _, rfl, rfl, es₁, es₂, diary', called, requested⟩

end ViewBinding
