import ViewBinding.Machine
import ViewBinding.Proofs.Records.Deeds

/-!
# Records — a faithful log

A delivery takes the pending records and tells each listener; what the listeners do to the object
meanwhile is recorded anew and waits for another delivery.  So every flush keeps the log
(`Log.of_flush`), and so does every errand made of deeds and flushes, wherever it ends
(`Errand.log`).

From the first registration on and as long as somebody listens, the batches delivered and the records
that are pending are what was changed, in order and each once, and taking them back restores what the
object contained at the first registration (`records_faithful`).
-/

namespace ViewBinding

open ObjectCell (Event Delivery changes tellings delivered)

variable {η α : Type} {F : Chronicle η} {w w' : World η} {env : Env η}

/-- While a flush is running, an errand delivers nothing. -/
theorem Errand.log_of_flushing {x : Run η α} (errand : Errand F.env F.Deed x) (sound : F.Sound w)
    (flushing : w.tasks.flushing = true) :
    x.Meets w (fun _ w' => ∃ es, Log F w es [] w') fun w' => ∃ es, Log F w es [] w' := by
  refine errand.meets_of_flushing (fun _ h => h) ?_ ?_ ⟨[], .refl sound⟩
  · rintro w₁ w₂ ⟨es, log⟩ deed
    obtain ⟨es', log'⟩ := Log.of_deed log.sound deed
    exact ⟨es ++ es', log.trans log'⟩
  · rintro w₁ ⟨es, log⟩
    exact log.flushing.trans flushing

namespace Log

/-- A listener is told a batch. -/
theorem tell {es : List Event} {told : List (Ref .hook)} {batch : List ChangeRecord} {h : Ref .hook}
    (log : Log F w es [⟨told, batch⟩] w') {w'' : World η} (noted : F.Notes [.told h batch] w' w'') :
    Log F w (es ++ [.told h batch]) [⟨told ++ [h], batch⟩] w'' := by
  obtain ⟨cell, keeps⟩ := log.sound
  have keeps' := keeps.of_notes noted
  have silent : changes (es ++ [.told h batch]) = changes es :=
    (ObjectCell.changes_append _ _).trans (List.append_nil _)
  refine ⟨⟨cell, keeps'⟩, ?_, noted.flushing.trans log.flushing, ?_, fun d m => ?_, ?_, ?_⟩
  · rw [noted.diary, log.diary, List.append_assoc]
  · rw [ObjectCell.tellings_append, log.told]
    simp [Delivery.tellings, tellings]
  · rw [List.mem_singleton.1 m]
    exact log.nonempty ⟨told, batch⟩ (List.mem_singleton_self _)
  · rw [silent, keeps'.valuesOf_eq, ← keeps.valuesOf_eq, log.undone]
  · intro unlapsed heard
    rw [silent, keeps'.unheard_eq, keeps'.pendingRecords_eq, ← keeps.unheard_eq,
      ← keeps.pendingRecords_eq]
    exact log.order (fun m => unlapsed (List.mem_append_left _ m)) heard

/-- Whoever listens is told the batch, and does errands meanwhile. -/
theorem of_tell (works : F.Works) (env' : F.env env) (flushing : w.tasks.flushing = true)
    {batch : List ChangeRecord} :
    ∀ {listeners : List RecordListener} {told : List (Ref .hook)} {es : List Event} {w₁ : World η},
      (∀ l ∈ listeners, ∃ h, l = .hook h ∧ F.listener h) → Log F w es [⟨told, batch⟩] w₁ →
      (Run.forEach listeners fun
        | .dispatcher d => Run.dispatchRecords env d batch
        | .hook h => env.fire h (.records batch)).Meets w₁
        (fun _ w' => ∃ es told', Log F w es [⟨told', batch⟩] w' ∧
          told'.length = told.length + listeners.length)
        fun w' => ∃ es told', Log F w es [⟨told', batch⟩] w'
  | [], told, es, _, _, log => ⟨es, told, log, rfl⟩
  | l :: listeners, told, es, w₁, mine, log => by
    obtain ⟨h, rfl, listener⟩ := mine l List.mem_cons_self
    refine Run.meets_bind.2 ?_
    have begins := works.listener env env' h listener batch
    dsimp only
    generalize env.fire h (.records batch) = x at begins
    cases begins with
    | cutOff => exact ⟨es, told, log⟩
    | @note f x noted errand =>
      -- what the listener changes is pending behind the batch that is being told
      have telling := log.tell (noted w₁)
      refine Run.meets_bind.2 ((errand.log_of_flushing telling.sound
        (telling.flushing.trans flushing)).mono ?_ ?_)
      · rintro - w₂ ⟨es', log'⟩
        refine (of_tell works env' flushing (fun l m => mine l (List.mem_cons_of_mem _ m))
          (telling.trans log')).mono ?_ fun _ h => h
        rintro - w₃ ⟨es'', told', log'', count⟩
        refine ⟨es'', told', log'', ?_⟩
        rw [count, List.length_append, List.length_cons, List.length_cons, List.length_nil]
        omega
      · rintro w₂ ⟨es', log'⟩
        exact ⟨_, _, telling.trans log'⟩

/-- The pending records are taken, and nothing was told yet. -/
theorem of_take {rest : List Microtask} {cell : ObjectCell} (keeps : F.Keeps w cell)
    (next : w.tasks.microtasks = .deliver F.object :: rest) {ds : List Delivery}
    (told : ds.flatMap Delivery.tellings = []) (nonempty : ∀ d ∈ ds, d.batch ≠ [])
    (all : delivered ds = cell.pending) :
    Log F w [] ds ((w.withMicrotasks rest).takeRecords F.object).2 := by
  have there : (w.withMicrotasks rest).objects.get? F.object = some cell := keeps.there
  have keeps' : F.Keeps ((w.withMicrotasks rest).takeRecords F.object).2
      { cell with pending := [], scheduled := false } := by
    simp only [World.takeRecords, there]
    refine ⟨?_, ⟨keeps.plain.distinct, keeps.plain.data⟩, fun _ => rfl, fun h => (h rfl).elim, nofun,
      keeps.listeners, fun task m => keeps.waits task (next ▸ List.mem_cons_of_mem _ m)⟩
    rw [World.modifyObject, Store.get?_modify_self, there]
    rfl
  refine ⟨⟨_, keeps'⟩, ?_, ?_, told.symm, nonempty, ?_, ?_⟩
  · simp only [World.takeRecords, there]
    exact (List.append_nil _).symm
  · simp only [World.takeRecords, there]
    rfl
  · rw [keeps'.valuesOf_eq, keeps.valuesOf_eq]
    rfl
  · rw [keeps'.unheard_eq, keeps'.pendingRecords_eq, keeps.unheard_eq, keeps.pendingRecords_eq]
    exact fun _ heard => ⟨heard, by rw [all]; rfl⟩

/-- A batch was told to somebody. -/
def Told (ds : List Delivery) : Prop := ∀ d ∈ ds, d.listeners ≠ []

/-- A delivery. -/
theorem of_deliver (works : F.Works) (env' : F.env env) {rest : List Microtask} (sound : F.Sound w)
    (next : w.tasks.microtasks = .deliver F.object :: rest) (flushing : w.tasks.flushing = true) :
    (Run.deliver env F.object).Meets (w.withMicrotasks rest)
      (fun _ w' => ∃ es ds, Log F w es ds w' ∧ Told ds) fun w' => ∃ es ds, Log F w es ds w' := by
  obtain ⟨cell, keeps⟩ := sound
  have took : ((w.withMicrotasks rest).takeRecords F.object).1 =
      (cell.pending, cell.listeners.toList) := by
    simp only [World.takeRecords, show (w.withMicrotasks rest).objects.get? F.object = some cell from
      keeps.there]
  rw [Run.deliver, Run.meets_bind, Run.meets_update, took]
  dsimp only
  split
  next none =>
    exact ⟨[], [], of_take keeps next rfl nofun (List.isEmpty_iff.1 none).symm, nofun⟩
  next some =>
    have pending : cell.pending ≠ [] := fun none => some (List.isEmpty_iff.2 none)
    have taken : Log F w [] [⟨[], cell.pending⟩] _ := of_take keeps next rfl
      (fun d m => by rw [List.mem_singleton.1 m]; exact pending) (List.append_nil _)
    refine (of_tell works env' flushing keeps.listeners taken).mono ?_
      fun w' ⟨es, told, log⟩ => ⟨es, _, log⟩
    rintro - w' ⟨es, told, log, count⟩
    refine ⟨es, _, log, fun d m => ?_⟩
    rw [List.mem_singleton.1 m]
    rintro rfl
    -- Nobody is told only where nobody listens, and then nothing is pending.
    have none : cell.listeners.toList.length = 0 := by simpa using count.symm
    have nobody : cell.listeners.isEmpty :=
      List.isEmpty_iff.2 (List.map_eq_nil_iff.1 (List.eq_nil_of_length_eq_zero none))
    exact pending (keeps.unheard nobody)

/-- A microtask. -/
theorem of_microtask (works : F.Works) (env' : F.env env) {task : Microtask} {rest : List Microtask}
    (sound : F.Sound w) (next : w.tasks.microtasks = task :: rest)
    (flushing : w.tasks.flushing = true) :
    (Run.runMicrotask env task).Meets (w.withMicrotasks rest)
      (fun _ w' => ∃ es ds, Log F w es ds w' ∧ Told ds) fun w' => ∃ es ds, Log F w es ds w' := by
  by_cases is : task = .deliver F.object
  · subst is
    exact of_deliver works env' sound next flushing
  · obtain ⟨cell, keeps⟩ := sound
    have mine := (keeps.waits task (next ▸ List.mem_cons_self)).resolve_left is
    have keeps' : F.Keeps (w.withMicrotasks rest) cell :=
      ⟨keeps.there, keeps.plain, keeps.unheard, keeps.scheduled,
        fun scheduled => List.mem_of_ne_of_mem (Ne.symm is) (next ▸ keeps.queued scheduled),
        keeps.listeners, fun other m => keeps.waits other (next ▸ List.mem_cons_of_mem _ m)⟩
    have popped : Log F w [] [] (w.withMicrotasks rest) := by
      refine ⟨⟨cell, keeps'⟩, (List.append_nil _).symm, rfl, rfl, nofun, ?_, ?_⟩
      · rw [keeps'.valuesOf_eq, keeps.valuesOf_eq]
        rfl
      · rw [keeps'.unheard_eq, keeps'.pendingRecords_eq, keeps.unheard_eq, keeps.pendingRecords_eq]
        exact fun _ heard => ⟨heard, List.append_nil _⟩
    refine ((works.microtask env env' task mine).log_of_flushing ⟨cell, keeps'⟩ flushing).mono ?_ ?_
    · exact fun _ w' ⟨es, log⟩ => ⟨_, _, popped.trans log, nofun⟩
    · exact fun w' ⟨es, log⟩ => ⟨_, _, popped.trans log⟩

/-- A flush. -/
theorem of_flush (works : F.Works) (env' : F.env env) (sound : F.Sound w) :
    (Run.flushMicrotasks env).Meets w (fun _ w' => ∃ es ds, Log F w es ds w' ∧ Told ds)
      fun w' => ∃ es ds, Log F w es ds w' := by
  cases flushing : w.tasks.flushing with
  | true =>
    rw [Run.meets_of_eq_ok (Run.flushMicrotasks_of_flushing env flushing)]
    exact ⟨[], [], refl sound, nofun⟩
  | false =>
    refine Run.meets_flush flushing ?_
    let start := Run.markFlushing true w
    have sound' : F.Sound start := by
      obtain ⟨cell, keeps⟩ := sound
      exact ⟨cell, keeps.there, keeps.plain, keeps.unheard, keeps.scheduled, keeps.queued,
        keeps.listeners, keeps.waits⟩
    have unmark : ∀ {w' es ds}, Log F start es ds w' → Log F w es ds (Run.markFlushing false w') := by
      intro w' es ds log
      obtain ⟨cell, keeps⟩ := log.sound
      exact ⟨⟨cell, keeps.there, keeps.plain, keeps.unheard, keeps.scheduled, keeps.queued,
        keeps.listeners, keeps.waits⟩, log.diary, flushing.symm, log.told, log.nonempty, log.undone,
        log.order⟩
    have drained : (Run.drainMicrotasks env env.rounds 0).Meets start
        (fun _ w' => (∃ es ds, Log F start es ds w' ∧ Told ds) ∧ w'.tasks.microtasks = [])
        fun w' => ∃ es ds, Log F start es ds w' := by
      refine Run.meets_drain _ (fun _ _ ⟨es, ds, log, _⟩ => ⟨es, ds, log⟩) ?_
        ⟨[], [], refl sound', nofun⟩
      rintro n task rest w₁ ⟨es, ds, log, told⟩ next
      refine (of_microtask works env' log.sound next (log.flushing.trans rfl)).mono ?_ ?_
      · rintro - w₂ ⟨es', ds', log', told'⟩
        exact ⟨_, _, log.trans log', fun d m => (List.mem_append.1 m).elim (told d) (told' d)⟩
      · rintro w₂ ⟨es', ds', log'⟩
        exact ⟨_, _, log.trans log'⟩
    refine drained.mono ?_ ?_
    · exact fun n w' ⟨⟨es, ds, log, told⟩, _⟩ => ⟨es, ds, unmark log, told⟩
    · exact fun w' ⟨es, ds, log⟩ => ⟨es, ds, unmark log⟩

end Log

/-- **Every errand** keeps the log, wherever it ends. -/
theorem Errand.log (works : F.Works) {x : Run η α} (errand : Errand F.env F.Deed x)
    (sound : F.Sound w) :
    x.Meets w (fun _ w' => ∃ es ds, Log F w es ds w' ∧ Log.Told ds)
      fun w' => ∃ es ds, Log F w es ds w' := by
  refine errand.meets (fun w' => ∃ es ds, Log F w es ds w' ∧ Log.Told ds)
    (fun _ ⟨es, ds, log, _⟩ => ⟨es, ds, log⟩) ?_ ?_ ⟨[], [], .refl sound, nofun⟩
  · rintro w₁ w₂ ⟨es, ds, log, told⟩ deed
    obtain ⟨es', log'⟩ := Log.of_deed log.sound deed
    exact ⟨_, _, log.trans log', by rwa [List.append_nil]⟩
  · rintro env w₁ env' ⟨es, ds, log, told⟩
    refine (Log.of_flush works env' log.sound).mono ?_ ?_
    · rintro - w₂ ⟨es', ds', log', told'⟩
      exact ⟨_, _, log.trans log', fun d m => (List.mem_append.1 m).elim (told d) (told' d)⟩
    · rintro w₂ ⟨es', ds', log'⟩
      exact ⟨_, _, log.trans log'⟩

/-- **Change records are a faithful log.**  A hook begins to listen to an object of plain values that
nobody listened to, and then deeds are done and flushes are run; listeners and other microtasks may
do deeds themselves.  Wherever this ends, and as long as somebody has listened all the time:

the listeners were told batches that are not empty, one after the other; each write that changes a
value and each removal is in one batch or is pending, once and in the order of their happening, and
nothing else is; pending records have a delivery queued; and taking all of them back, the last one
first, gives what the object contained when the first listener registered.  Where it does not break
off, every batch was told to somebody. -/
theorem records_faithful (works : F.Works) (sound : F.Sound w)
    (unheard : w.unheard F.object = true) {h : Ref .hook} (mine : F.listener h) {x : Run η α}
    (errand : Errand F.env F.Deed x) {outcome : Outcome α}
    (ended : x (w.listenRecords F.object (.hook h)).2 = (outcome, w')) :
    F.Sound w' ∧ ∃ es, F.diary w'.host = F.diary w.host ++ es ∧ (.lapsed ∉ es → ∃ ds : List Delivery,
      tellings es = ds.flatMap Delivery.tellings ∧ (∀ d ∈ ds, d.batch ≠ []) ∧
      ((∃ a, outcome = .ok a) → ∀ d ∈ ds, d.listeners ≠ []) ∧
      changes es = delivered ds ++ w'.pendingRecords F.object ∧
      (w'.pendingRecords F.object ≠ [] → .deliver F.object ∈ w'.tasks.microtasks) ∧
      ChangeRecord.undoAll (delivered ds ++ w'.pendingRecords F.object) (w'.valuesOf F.object) =
        w.valuesOf F.object) := by
  obtain ⟨cell, keeps⟩ := sound
  have nothing : w.pendingRecords F.object = [] := by
    rw [keeps.pendingRecords_eq, keeps.unheard (keeps.unheard_eq ▸ unheard)]
  have keeps' := keeps.listen mine
  have heard : (w.listenRecords F.object (.hook h)).2.unheard F.object = false := by
    rw [keeps'.unheard_eq]
    simp [Listeners.isEmpty, Listeners.add]
  have errand' := errand.log works ⟨_, keeps'⟩
  obtain ⟨es, ds, log, told⟩ : ∃ es ds, Log F (w.listenRecords F.object (.hook h)).2 es ds w' ∧
      ((∃ a, outcome = .ok a) → Log.Told ds) := by
    by_cases result : ∃ a, outcome = .ok a
    · obtain ⟨a, rfl⟩ := result
      obtain ⟨es, ds, log, told⟩ := errand'.of_eq_ok ended
      exact ⟨es, ds, log, fun _ => told⟩
    · obtain ⟨es, ds, log⟩ := errand'.every fun _ _ h => by
        obtain ⟨es, ds, log, -⟩ := h
        exact ⟨es, ds, log⟩
      rw [ended] at log
      exact ⟨es, ds, log, fun h => (result h).elim⟩
  refine ⟨log.sound, es, log.diary, fun unlapsed => ⟨ds, log.told, log.nonempty, told, ?_⟩⟩
  have order := (log.order unlapsed heard).2
  have undone := log.undone
  rw [keeps'.pendingRecords_eq] at order
  rw [keeps'.valuesOf_eq] at undone
  rw [keeps.pendingRecords_eq] at nothing
  rw [keeps.valuesOf_eq]
  have all : changes es = delivered ds ++ w'.pendingRecords F.object := by
    simpa [nothing] using order
  exact ⟨all, log.sound.queued, all ▸ undone⟩

/-! ### A clerk -/

/-- Writes down what happens to an object. -/
def World.enter (w : World (List Event)) (es : List Event) : World (List Event) :=
  { w with host := w.host ++ es }

namespace Clerk

/-- The object that the clerk looks after. -/
def ledger : Ref .object := ⟨0⟩

/-- Writes a property and writes that down. -/
def set (name : String) (v : Value) : Run (List Event) Unit := Run.modify fun w =>
  (w.set ledger name v).enter ((w.written? ledger name v).toList.map .changed)

/-- Removes a property and writes that down. -/
def remove (name : String) : Run (List Event) Unit := Run.modify fun w =>
  (w.remove ledger name).2.enter ((w.removed? ledger name).toList.map .changed)

/-- Has a hook listen. -/
def listen (h : Ref .hook) : Run (List Event) Unit :=
  Run.modify fun w => (w.listenRecords ledger (.hook h)).2

/-- A host that writes down what its hooks are told.  Whenever the first hook is told something, it
sees to it that this can be read in the object. -/
def host : Host (List Event) where
  call _ _ _ _ := pure .undefined
  convert _ _ _ _ := pure none
  fire _ h
    | .records batch => do
      Run.modify fun w => w.enter [.told h batch]
      if h.index = 0 then set "told" (.bool true) else pure ()
    | _ => pure ()
  late w := (false, w.host)

/-- The hooks of the host. -/
def chronicle : Chronicle (List Event) where
  object := ledger
  env env := ∃ depth, env = machine host 9 depth
  listener _ := True
  microtask _ := False
  diary := id

theorem set_errand (name : String) (v : Value) :
    Errand chronicle.env chronicle.Deed (set name v) :=
  .modify fun _ => .set name v ⟨rfl, rfl, rfl, rfl⟩

theorem remove_errand (name : String) : Errand chronicle.env chronicle.Deed (remove name) :=
  .modify fun _ => .remove name ⟨rfl, rfl, rfl, rfl⟩

theorem listen_errand (h : Ref .hook) : Errand chronicle.env chronicle.Deed (listen h) :=
  .modify fun _ => .listen trivial ⟨rfl, rfl, rfl, (List.append_nil _).symm⟩

theorem chronicle_works : chronicle.Works where
  listener := by
    rintro _ ⟨depth, rfl⟩ h - batch
    cases depth with
    | zero => exact .cutOff
    | succ depth =>
      refine .note (fun w => ⟨rfl, rfl, rfl, rfl⟩) ?_
      split
      · exact set_errand _ _
      · exact .pure _
  microtask _ _ _ := False.elim

/-- Changes before and after a flush, one of them made twice, and a second listener. -/
def day : Run (List Event) Nat := do
  set "open" (.bool true)
  set "open" (.bool true)
  listen ⟨1⟩
  remove "open"
  let n ← Run.flushMicrotasks (machine host 9 3)
  set "told" .null
  pure n

theorem day_errand : Errand chronicle.env chronicle.Deed day :=
  .bind (set_errand _ _) fun _ => .bind (set_errand _ _) fun _ => .bind (listen_errand _) fun _ =>
    .bind (remove_errand _) fun _ => .bind (.flush ⟨3, rfl⟩) fun _ => .bind (set_errand _ _) fun _ =>
      .pure _

/-- The object is new. -/
def morning : World (List Event) :=
  ((World.new .standard []).newObject [("open", .bool false)]).2

theorem morning_sound : chronicle.Sound morning :=
  Chronicle.sound_newObject [("open", .bool false)] rfl nofun

/-- Both listeners are told of the change and the removal, and then of what the first one wrote; what
was written after the flush is pending. -/
theorem day_faithful : chronicle.Works ∧ chronicle.Sound morning ∧ morning.unheard ledger = true ∧
    chronicle.listener ⟨0⟩ ∧ Errand chronicle.env chronicle.Deed day ∧
    ∃ w, day (morning.listenRecords ledger (.hook ⟨0⟩)).2 = (.ok 2, w) ∧
      tellings w.host =
        [(⟨0⟩, [⟨"open", .update, .bool false⟩, ⟨"open", .delete, .bool true⟩]),
          (⟨1⟩, [⟨"open", .update, .bool false⟩, ⟨"open", .delete, .bool true⟩]),
          (⟨0⟩, [⟨"told", .add, .undefined⟩]), (⟨1⟩, [⟨"told", .add, .undefined⟩])] ∧
      w.pendingRecords ledger = [⟨"told", .update, .bool true⟩] ∧ ∃ ds : List Delivery,
        tellings w.host = ds.flatMap Delivery.tellings ∧
        changes w.host = delivered ds ++ w.pendingRecords ledger ∧
        ChangeRecord.undoAll (delivered ds ++ w.pendingRecords ledger) (w.valuesOf ledger) =
          morning.valuesOf ledger := by
  obtain ⟨-, es, diary, faithful⟩ := records_faithful chronicle_works morning_sound rfl
    (h := ⟨0⟩) trivial day_errand (rfl : day (morning.listenRecords ledger (.hook ⟨0⟩)).2 =
      (_, (day (morning.listenRecords ledger (.hook ⟨0⟩)).2).2))
  cases diary
  obtain ⟨ds, told, -, -, order, -, undone⟩ := faithful (by decide)
  exact ⟨chronicle_works, morning_sound, rfl, trivial, day_errand, _, rfl, rfl, rfl, ds, told, order,
    undone⟩

end Clerk

end ViewBinding
