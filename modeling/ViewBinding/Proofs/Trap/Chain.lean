import ViewBinding.Machine
import ViewBinding.Proofs.Leaf.Subscribe
import ViewBinding.Proofs.Trap.Deeds

/-!
# Trap — chained notifications

A microtask of the observer begins a notification, which takes what the ledger has and tells those
who are registered, the newest first.  One of them is the callback, so it is told once
(`Log.of_tell`, `Log.of_setter`); what anybody writes meanwhile changes the ledger anew and queues
another notification.  So every flush keeps the ledger (`Log.of_flush`), and so does every errand made
of deeds and flushes, wherever it ends (`Errand.ledger`).

From its registration on, the callback is told once by every notification, each calls old what the
one before it called new, and when none is queued the last one has told the value
(`notifications_chained`).
-/

namespace ViewBinding

open SetterCell (Event Ledger Telling Chained tellings)

variable {η α : Type} {F : Vigil η} {w w' : World η} {env : Env η} {L : Ledger}

/-- While a flush is running, an errand tells the callback nothing. -/
theorem Errand.ledger_of_flushing {x : Run η α} (errand : Errand F.env F.Deed x)
    (sound : F.Sound L w) (flushing : w.tasks.flushing = true) :
    x.Meets w (fun _ w' => ∃ es L', F.Log w L es w' L' ∧ L'.due = L.due)
      fun w' => ∃ es L', F.Log w L es w' L' ∧ L'.due = L.due := by
  refine errand.meets_of_flushing (fun _ h => h) ?_ ?_ ⟨[], L, .refl sound, rfl⟩
  · rintro w₁ w₂ ⟨es, L₁, log, due⟩ deed
    obtain ⟨es', L₂, log', due'⟩ := Vigil.Log.of_deed log.sound deed
    exact ⟨_, _, log.trans log', due'.trans due⟩
  · rintro w₁ ⟨es, L₁, log, -⟩
    exact log.flushing.trans flushing

namespace Vigil

namespace Log

/-- The callback is told what it is to be told. -/
theorem of_told {telling : Telling} (sound : F.Sound L w) (due : L.due = some telling)
    (noted : F.Notes [.told telling] w w') :
    F.Log w L [.told telling] w' { L with due := none } := by
  obtain ⟨cell, keeps, is⟩ := sound
  refine ⟨⟨cell, keeps.of_notes noted, ?_⟩, noted.diary, noted.flushing, ?_⟩
  · rw [← is]
    rfl
  · rw [Ledger.afterAll?_cons, Ledger.after?, if_pos due]
    rfl

/-- Whoever is registered is told, the callback once if it is to be told something, and does errands
meanwhile. -/
theorem of_tell (works : F.Works) (env' : F.env env) {new old : Value} :
    ∀ {subs : List Subscriber} {L : Ledger} {w : World η}, w.tasks.flushing = true → F.Sound L w →
      (∀ sub ∈ subs, sub = .hook F.callback ∨ F.subscriber sub) →
      L.due = (if .hook F.callback ∈ subs then some ⟨new, old⟩ else none) →
      subs.count (.hook F.callback) ≤ 1 →
      (env.announceAll subs new old).Meets w
        (fun _ w' => ∃ es L', F.Log w L es w' L' ∧ L'.due = none) fun w' => ∃ es L', F.Log w L es w' L'
  | [], L, w, _, sound, _, due, _ => ⟨[], L, .refl sound, due⟩
  | sub :: subs, L, w, flushing, sound, mine, due, once => by
    have rest : ∀ {es : List Event} {w₁ : World η} {L₁ : Ledger}, F.Log w L es w₁ L₁ →
        L₁.due = (if .hook F.callback ∈ subs then some ⟨new, old⟩ else none) →
        (env.announceAll subs new old).Meets w₁
          (fun _ w' => ∃ es L', F.Log w L es w' L' ∧ L'.due = none)
          fun w' => ∃ es L', F.Log w L es w' L' := by
      intro es w₁ L₁ log due
      refine (of_tell works env' (log.flushing.trans flushing) log.sound
        (fun sub m => mine sub (List.mem_cons_of_mem _ m)) due
        (Nat.le_trans List.count_le_count_cons once)).mono ?_ ?_
      · rintro - w₂ ⟨es', L₂, log', due'⟩
        exact ⟨_, _, log.trans log', due'⟩
      · rintro w₂ ⟨es', L₂, log'⟩
        exact ⟨_, _, log.trans log'⟩
    refine Run.meets_bind.2 ?_
    by_cases is : sub = .hook F.callback
    · subst is
      rw [if_pos List.mem_cons_self] at due
      have gone : .hook F.callback ∉ subs := by
        rw [List.count_cons_self] at once
        exact List.count_eq_zero.1 (by omega)
      have begins := works.callback env env' new old
      dsimp only
      generalize env.announce (.hook F.callback) new old = x at begins
      cases begins with
      | cutOff => exact ⟨[], L, .refl sound⟩
      | @note f x noted errand =>
        have telling := of_told sound due (noted w)
        refine Run.meets_bind.2 ((errand.ledger_of_flushing telling.sound
          (telling.flushing.trans flushing)).mono ?_ ?_)
        · rintro - w₁ ⟨es, L₁, log, due₁⟩
          exact rest (telling.trans log) (due₁.trans (if_neg gone).symm)
        · rintro w₁ ⟨es, L₁, log, -⟩
          exact ⟨_, _, telling.trans log⟩
    · have other := (mine sub List.mem_cons_self).resolve_left is
      refine ((works.subscriber env env' sub other is new old).ledger_of_flushing sound
        flushing).mono ?_ ?_
      · rintro - w₁ ⟨es, L₁, log, due₁⟩
        refine rest log (due₁.trans (due.trans ?_))
        simp only [List.mem_cons, Ne.symm is, false_or]
      · rintro w₁ ⟨es, L₁, log, -⟩
        exact ⟨_, _, log⟩

/-- A notification begins. -/
theorem of_began {rest : List Microtask} {cell : SetterCell} (keeps : F.Keeps w cell)
    (next : w.tasks.microtasks = .setter F.setter :: rest) (is : cell.ledger none = L) :
    F.Log w L [.began]
      ((w.withMicrotasks rest).modifySetter F.setter fun cell => { cell with queued := false })
      { value := cell.current, told := cell.current, due := some ⟨cell.current, cell.old⟩ } := by
  have count := keeps.queued
  rw [next, List.count_cons_self] at count
  have queued : cell.queued = true := by
    cases queued : cell.queued with
    | true => rfl
    | false => simp [queued] at count
  have keeps' : F.Keeps
      ((w.withMicrotasks rest).modifySetter F.setter fun cell => { cell with queued := false })
      { cell with queued := false } := by
    refine ⟨?_, keeps.observing, keeps.slot, keeps.enlisted, keeps.others, ?_,
      fun task m => keeps.waits task (next ▸ List.mem_cons_of_mem _ m)⟩
    · rw [World.modifySetter, Store.get?_modify_self]
      exact congrArg (Option.map _) keeps.there
    · rw [queued, if_pos rfl] at count
      exact Nat.add_right_cancel count
  refine ⟨⟨_, keeps', rfl⟩, (List.append_nil _).symm, rfl, ?_⟩
  rw [← is, Ledger.afterAll?_cons, Ledger.after?, SetterCell.ledger, queued]
  rfl

/-- A microtask of the observer: the callback is told once. -/
theorem of_setter (works : F.Works) (env' : F.env env) {rest : List Microtask}
    (sound : F.Sound L w) (due : L.due = none)
    (next : w.tasks.microtasks = .setter F.setter :: rest) (flushing : w.tasks.flushing = true) :
    (Run.tellSetter env F.setter).Meets (w.withMicrotasks rest)
      (fun _ w' => ∃ es L', F.Log w L (.began :: es) w' L' ∧ L'.due = none)
      fun w' => ∃ es L', F.Log w L (.began :: es) w' L' := by
  obtain ⟨cell, keeps, is⟩ := sound
  rw [due] at is
  have there : (w.withMicrotasks rest).setters.get? F.setter = some cell := keeps.there
  have began := of_began keeps next is
  have enlisted : cell.callbacks.newestFirst.count (.hook F.callback) = 1 := by
    have only := congrArg List.length keeps.enlisted
    rw [← List.countP_eq_length_filter] at only
    rw [Listeners.newestFirst, List.count_reverse, Listeners.toList, List.count_eq_countP,
      List.countP_map]
    exact (List.countP_congr fun p _ => by simp).trans only
  have mem : .hook F.callback ∈ cell.callbacks.newestFirst :=
    List.count_pos_iff.1 (by rw [enlisted]; exact Nat.one_pos)
  rw [Run.tellSetter, Run.meets_bind, Run.meets_read, there]
  refine Run.meets_bind.2 ((of_tell works env' (began.flushing.trans flushing) began.sound ?_
    (if_pos mem).symm (Nat.le_of_eq enlisted)).mono ?_ ?_)
  · intro sub m
    obtain ⟨p, enlisted, rfl⟩ := List.mem_map.1 (List.mem_reverse.1 m)
    exact keeps.others p enlisted
  · rintro - w₁ ⟨es, L₁, log, due₁⟩
    exact ⟨es, L₁, began.trans log, due₁⟩
  · rintro w₁ ⟨es, L₁, log⟩
    exact ⟨es, L₁, began.trans log⟩

/-- A microtask. -/
theorem of_microtask (works : F.Works) (env' : F.env env) {task : Microtask} {rest : List Microtask}
    (sound : F.Sound L w) (due : L.due = none) (next : w.tasks.microtasks = task :: rest)
    (flushing : w.tasks.flushing = true) :
    (Run.runMicrotask env task).Meets (w.withMicrotasks rest)
      (fun _ w' => ∃ es L', F.Log w L es w' L' ∧ L'.due = none)
      fun w' => ∃ es L', F.Log w L es w' L' := by
  by_cases is : task = .setter F.setter
  · subst is
    exact (of_setter works env' sound due next flushing).mono
      (fun _ _ ⟨es, L', h⟩ => ⟨_, L', h⟩) fun _ ⟨es, L', h⟩ => ⟨_, L', h⟩
  · obtain ⟨cell, keeps, same⟩ := sound
    have mine := (keeps.waits task (next ▸ List.mem_cons_self)).resolve_left is
    have count := keeps.queued
    rw [next, List.count_cons_of_ne is] at count
    have popped : F.Log w L [] (w.withMicrotasks rest) L :=
      ⟨⟨cell, ⟨keeps.there, keeps.observing, keeps.slot, keeps.enlisted, keeps.others, count,
        fun other m => keeps.waits other (next ▸ List.mem_cons_of_mem _ m)⟩, same⟩,
        (List.append_nil _).symm, rfl, rfl⟩
    refine ((works.microtask env env' task mine is).ledger_of_flushing popped.sound flushing).mono
      ?_ ?_
    · rintro - w₁ ⟨es, L₁, log, due₁⟩
      exact ⟨_, _, popped.trans log, due₁.trans due⟩
    · rintro w₁ ⟨es, L₁, log, -⟩
      exact ⟨_, _, popped.trans log⟩

/-- Whether a flush is running does not matter to the ledger. -/
theorem sound_markFlushing (flushing : Bool) (sound : F.Sound L w) :
    F.Sound L (Run.markFlushing flushing w) := by
  obtain ⟨cell, keeps, is⟩ := sound
  exact ⟨cell, ⟨keeps.there, keeps.observing, keeps.slot, keeps.enlisted, keeps.others, keeps.queued,
    keeps.waits⟩, is⟩

/-- A flush. -/
theorem of_flush (works : F.Works) (env' : F.env env) (sound : F.Sound L w) (due : L.due = none) :
    (Run.flushMicrotasks env).Meets w (fun _ w' => ∃ es L', F.Log w L es w' L' ∧ L'.due = none)
      fun w' => ∃ es L', F.Log w L es w' L' := by
  cases flushing : w.tasks.flushing with
  | true =>
    rw [Run.meets_of_eq_ok (Run.flushMicrotasks_of_flushing env flushing)]
    exact ⟨[], L, refl sound, due⟩
  | false =>
    refine Run.meets_flush flushing ?_
    have unmark : ∀ {w' es L'}, F.Log (Run.markFlushing true w) L es w' L' →
        F.Log w L es (Run.markFlushing false w') L' := fun log =>
      ⟨sound_markFlushing false log.sound, log.diary, flushing.symm, log.admitted⟩
    have drained : (Run.drainMicrotasks env env.rounds 0).Meets (Run.markFlushing true w)
        (fun _ w' => (∃ es L', F.Log (Run.markFlushing true w) L es w' L' ∧ L'.due = none) ∧
          w'.tasks.microtasks = [])
        fun w' => ∃ es L', F.Log (Run.markFlushing true w) L es w' L' := by
      refine Run.meets_drain _ (fun _ _ ⟨es, L', log, _⟩ => ⟨es, L', log⟩) ?_
        ⟨[], L, refl (sound_markFlushing true sound), due⟩
      rintro n task rest w₁ ⟨es, L₁, log, due₁⟩ next
      refine (of_microtask works env' log.sound due₁ next (log.flushing.trans rfl)).mono ?_ ?_
      · rintro - w₂ ⟨es', L₂, log', due₂⟩
        exact ⟨_, _, log.trans log', due₂⟩
      · rintro w₂ ⟨es', L₂, log'⟩
        exact ⟨_, _, log.trans log'⟩
    refine drained.mono ?_ ?_
    · exact fun n w' ⟨⟨es, L', log, due'⟩, _⟩ => ⟨es, L', unmark log, due'⟩
    · exact fun w' ⟨es, L', log⟩ => ⟨es, L', unmark log⟩

end Log

end Vigil

/-- **Every errand** keeps the ledger, wherever it ends. -/
theorem Errand.ledger (works : F.Works) {x : Run η α} (errand : Errand F.env F.Deed x)
    (sound : F.Sound L w) (due : L.due = none) :
    x.Meets w (fun _ w' => ∃ es L', F.Log w L es w' L' ∧ L'.due = none)
      fun w' => ∃ es L', F.Log w L es w' L' := by
  refine errand.meets (fun w' => ∃ es L', F.Log w L es w' L' ∧ L'.due = none)
    (fun _ ⟨es, L', log, _⟩ => ⟨es, L', log⟩) ?_ ?_ ⟨[], L, .refl sound, due⟩
  · rintro w₁ w₂ ⟨es, L₁, log, due₁⟩ deed
    obtain ⟨es', L₂, log', due₂⟩ := Vigil.Log.of_deed log.sound deed
    exact ⟨_, _, log.trans log', due₂.trans due₁⟩
  · rintro env w₁ env' ⟨es, L₁, log, due₁⟩
    refine (Vigil.Log.of_flush works env' log.sound due₁).mono ?_ ?_
    · rintro - w₂ ⟨es', L₂, log', due₂⟩
      exact ⟨_, _, log.trans log', due₂⟩
    · rintro w₂ ⟨es', L₂, log'⟩
      exact ⟨_, _, log.trans log'⟩

/-! ### Registering -/

namespace Vigil

/-- The callback is not registered yet, and registering it puts the trap in place, or finds it there
with no notification queued. -/
structure Fresh (F : Vigil η) (w : World η) (cell : SetterCell) : Prop where
  there : w.setters.get? F.setter = some cell
  object : cell.object = F.object
  property : cell.property = F.property
  trap : cell.observing = true ∧ w.slot? F.object F.property = some (.trap F.setter) ∨
    (cell.observing = false ∧ cell.refused = false) ∧
      w.objects.contains F.object = true ∧ w.isFrozen F.object = false
  quiet : cell.queued = false
  others : ∀ p ∈ cell.callbacks.entries, p.2 ≠ .hook F.callback ∧ F.subscriber p.2
  token : F.token = ⟨w.nextToken⟩
  waits : ∀ task ∈ w.tasks.microtasks, task ≠ .setter F.setter ∧ F.microtask task

variable {cell : SetterCell}

/-- The cell of the observer with the trap in place. -/
def trapped (F : Vigil η) (w : World η) (cell : SetterCell) : SetterCell :=
  { cell with
    callbacks := cell.callbacks.add F.token (.hook F.callback),
    current := w.get F.object F.property
    observing := true }

/-- Registering the callback. -/
theorem Fresh.subscribed (fresh : F.Fresh w cell) :
    ((w.subscribeSetter F.setter (.hook F.callback)).2.setters.get? F.setter =
        some (F.trapped w cell) ∧
      (w.subscribeSetter F.setter (.hook F.callback)).2.slot? F.object F.property =
        some (.trap F.setter)) ∧
      (w.subscribeSetter F.setter (.hook F.callback)).2.tasks = w.tasks ∧
      (w.subscribeSetter F.setter (.hook F.callback)).2.host = w.host := by
  have there := fresh.there
  obtain ⟨observing, slot⟩ | ⟨⟨idle, willing⟩, live, unfrozen⟩ := fresh.trap
  · have current : w.get F.object F.property = cell.current := by
      simp only [World.get, slot, World.slotValue, there]
      rfl
    rw [World.subscribeSetter_of_settled there (.inl observing)]
    refine ⟨⟨(World.setters_withSetterCallback there F.setter).trans ?_, slot⟩, rfl, rfl⟩
    rw [if_pos rfl, trapped, current, ← observing, fresh.token]
  · rw [← fresh.object] at live unfrozen
    rw [World.subscribeSetter_of_idle there idle willing live unfrozen]
    have trapped := (World.setters_withTrap (w := w.drawToken) there F.setter).trans (if_pos rfl)
    refine ⟨⟨(World.setters_withSetterCallback trapped F.setter).trans ?_, ?_⟩, rfl, rfl⟩
    · rw [if_pos rfl, Vigil.trapped, ← fresh.object, ← fresh.property, fresh.token]
      rfl
    · rw [← fresh.object, ← fresh.property]
      exact (World.slot?_withTrap (w := w.drawToken) live _ _).trans (if_pos ⟨rfl, rfl⟩)

/-- Then the ledger is opened. -/
theorem Fresh.sound (fresh : F.Fresh w cell) :
    F.Sound (.opened (w.get F.object F.property))
      (w.subscribeSetter F.setter (.hook F.callback)).2 := by
  obtain ⟨⟨there, slot⟩, tasks, -⟩ := fresh.subscribed
  refine ⟨F.trapped w cell, ⟨there, rfl, slot, ?_, ?_, ?_, ?_⟩, ?_⟩
  · have none : cell.callbacks.entries.filter (·.2 = .hook F.callback) = [] :=
      List.filter_eq_nil_iff.2 fun p m => by simpa using (fresh.others p m).1
    simp [trapped, Listeners.add, none]
  · refine List.forall_mem_append.2 ⟨fun p m => .inr (fresh.others p m).2, ?_⟩
    exact List.forall_mem_singleton.2 (.inl rfl)
  · rw [tasks, trapped, fresh.quiet]
    exact List.count_eq_zero.2 fun m => (fresh.waits _ m).1 rfl
  · rw [tasks]
    exact fun task m => .inr (fresh.waits task m).2
  · rw [trapped, SetterCell.ledger, fresh.quiet]
    rfl

end Vigil

/-- **Notifications coalesce and chain.**  A callback registers with the observer of a property, and
then the property is written, through the object or through the observer, and flushes are run;
callbacks and other microtasks may do so themselves.  Wherever this ends, it has made events `es` of
which the host wrote down those that it has a part in, and a ledger that was opened with the value at
the registration admits them all and has the present value:

a notification is queued, once, if and only if a write has changed the value since the last one began;
each notification that began tells the callback once, or is still to do so where the run breaks off;
each telling calls old what the one before it called new, and the first one the value at the
registration; and when no notification is queued, the last one told the present value. -/
theorem notifications_chained (works : F.Works) {cell : SetterCell} (fresh : F.Fresh w cell)
    {x : Run η α} (errand : Errand F.env F.Deed x) {outcome : Outcome α}
    (ended : x (w.subscribeSetter F.setter (.hook F.callback)).2 = (outcome, w')) :
    ∃ es L, F.diary w'.host = F.diary w.host ++ es.filter (·.isNoted) ∧
      Ledger.afterAll? (.opened (w.get F.object F.property)) es = some L ∧
      w'.get F.object F.property = L.value ∧
      w'.tasks.microtasks.count (.setter F.setter) = (if L.changed then 1 else 0) ∧
      es.count .began = (tellings es).length + L.due.toList.length ∧
      ((∃ a, outcome = .ok a) → L.due = none) ∧
      (tellings es).map (·.old) =
        (w.get F.object F.property :: (tellings es).map (·.new)).dropLast ∧
      ((∃ a, outcome = .ok a) → .setter F.setter ∉ w'.tasks.microtasks →
        (w.get F.object F.property :: (tellings es).map (·.new)).getLast? =
          some (w'.get F.object F.property)) := by
  have errand' := errand.ledger works fresh.sound rfl
  obtain ⟨es, L, log, due⟩ : ∃ es L, F.Log (w.subscribeSetter F.setter (.hook F.callback)).2
      (.opened (w.get F.object F.property)) es w' L ∧ ((∃ a, outcome = .ok a) → L.due = none) := by
    by_cases result : ∃ a, outcome = .ok a
    · obtain ⟨a, rfl⟩ := result
      obtain ⟨es, L, log, due⟩ := errand'.of_eq_ok ended
      exact ⟨es, L, log, fun _ => due⟩
    · obtain ⟨es, L, log⟩ := errand'.every fun _ _ ⟨es, L, log, _⟩ => ⟨es, L, log⟩
      rw [ended] at log
      exact ⟨es, L, log, fun h => (result h).elim⟩
  have chained := Chained.of_afterAll? log.admitted
  refine ⟨es, L, ?_, log.admitted, log.sound.get_eq, log.sound.count_eq,
    Ledger.count_began log.admitted, due, chained.olds, fun ok quiet => ?_⟩
  · rw [log.diary, fresh.subscribed.2.2]
  · have unchanged : L.changed = false := by
      have count := log.sound.count_eq
      rw [List.count_eq_zero.2 quiet] at count
      cases changed : L.changed with
      | true => simp [changed] at count
      | false => rfl
    rw [chained.next, due ok, log.sound.get_eq, ← chained.rest unchanged]
    rfl

/-! ### A watchman -/

/-- Writes down what happens to a trapped property. -/
def World.jot (w : World (List Event)) (es : List Event) : World (List Event) :=
  { w with host := w.host ++ es }

namespace Watchman

/-- The object that the watchman looks after. -/
def gate : Ref .object := ⟨0⟩

/-- The observer of whether it is open. -/
def trap : Ref .setter := ⟨0⟩

/-- Writes the property and writes that down. -/
def set (v : Value) : Run (List Event) Unit := Run.modify fun w =>
  (w.set gate "open" v).jot (if w.isFrozen gate then [] else [.wrote v])

/-- Writes through the observer and writes that down. -/
def write (v : Value) : Run (List Event) Unit := Run.modify fun w =>
  (w.writeSetter trap v).jot [.wrote v]

/-- Shuts what was opened. -/
def shut : Value → Run (List Event) Unit
  | .bool true => write (.bool false)
  | _ => pure ()

/-- Sees to it that nothing is undefined.  The flush before does nothing, since one is running. -/
def mend (env : Env (List Event)) : Value → Run (List Event) Unit
  | .undefined => do
    discard (Run.flushMicrotasks env)
    set .null
  | _ => pure ()

/-- A host whose first hook writes down what it is told and shuts the gate, and whose other hooks mend
it. -/
def host : Host (List Event) where
  call _ _ _ _ := pure .undefined
  convert _ _ _ _ := pure none
  fire env h
    | .changed new old =>
      match h.index with
      | 0 => do
        Run.modify fun w => w.jot [.told ⟨new, old⟩]
        shut new
      | _ + 1 => mend env new
    | _ => pure ()
  late w := (false, w.host)

/-- The first hook is the callback. -/
def vigil : Vigil (List Event) where
  object := gate
  property := "open"
  setter := trap
  callback := ⟨0⟩
  token := ⟨0⟩
  env env := ∃ depth, env = machine host 9 depth
  subscriber sub := ∃ n, sub = .hook ⟨n + 1⟩
  microtask _ := False
  diary := id

theorem set_errand (v : Value) : Errand vigil.env vigil.Deed (set v) :=
  .modify fun _ => .set v ⟨rfl, rfl, rfl, rfl, rfl⟩

theorem write_errand (v : Value) : Errand vigil.env vigil.Deed (write v) :=
  .modify fun _ => .write v ⟨rfl, rfl, rfl, rfl, rfl⟩

theorem enlist_errand (n : Nat) : Errand vigil.env vigil.Deed
    (Run.modify fun w => (w.subscribeSetter trap (.hook ⟨n + 1⟩)).2) :=
  .modify fun _ => .enlist ⟨n, rfl⟩ nofun ⟨rfl, rfl, rfl, rfl, (List.append_nil _).symm⟩

theorem vigil_works : vigil.Works where
  callback := by
    rintro _ ⟨depth, rfl⟩ new old
    match depth with
    | 0 | 1 => exact .cutOff
    | depth + 2 =>
      refine .note (f := fun w => w.jot [.told ⟨new, old⟩]) (x := shut new)
        (fun w => ⟨rfl, rfl, rfl, rfl, rfl⟩) ?_
      unfold shut
      split
      · exact write_errand _
      · exact .pure _
  subscriber := by
    rintro _ ⟨depth, rfl⟩ _ ⟨n, rfl⟩ - new old
    match depth with
    | 0 | 1 => exact .cutOff
    | depth + 2 =>
      change Errand _ _ (mend (machine host 9 depth) new)
      unfold mend
      split
      · exact .bind (.bind (.flush ⟨depth, rfl⟩) fun _ => .pure _) fun _ => set_errand _
      · exact .pure _
  microtask _ _ _ := False.elim

/-- Writes before, between and after two flushes; the first one is two notifications, since the
callback writes, and the second one another two, since somebody else does. -/
def night : Run (List Event) (Nat × Nat) := do
  Run.modify fun w => (w.subscribeSetter trap (.hook ⟨1⟩)).2
  set (.bool true)
  set (.bool false)
  write (.bool true)
  let n ← Run.flushMicrotasks (machine host 9 3)
  set .undefined
  let m ← Run.flushMicrotasks (machine host 9 3)
  write (.bool false)
  pure (n, m)

theorem night_errand : Errand vigil.env vigil.Deed night :=
  .bind (enlist_errand 0) fun _ => .bind (set_errand _) fun _ => .bind (set_errand _) fun _ =>
    .bind (write_errand _) fun _ => .bind (.flush ⟨3, rfl⟩) fun _ => .bind (set_errand _) fun _ =>
      .bind (.flush ⟨3, rfl⟩) fun _ => .bind (write_errand _) fun _ => .pure _

/-- The object is new, and the trap is not there yet. -/
def evening : World (List Event) :=
  (((World.new .standard []).newObject [("open", .bool false)]).2.newSetter gate "open").2

theorem evening_fresh : vigil.Fresh evening { object := gate, property := "open" } where
  there := rfl
  object := rfl
  property := rfl
  trap := .inr ⟨⟨rfl, rfl⟩, rfl, rfl⟩
  quiet := rfl
  others := nofun
  token := rfl
  waits := nofun

/-- The callback is told of what it was written three times, of what it wrote itself, and of what
somebody else made of it; the last write waits. -/
theorem night_chained : vigil.Works ∧
    vigil.Fresh evening { object := gate, property := "open" } ∧
    Errand vigil.env vigil.Deed night ∧
    ∃ w, night (evening.subscribeSetter trap (.hook ⟨0⟩)).2 = (.ok (2, 2), w) ∧
      tellings w.host = [⟨.bool true, .bool false⟩, ⟨.bool false, .bool true⟩,
        ⟨.undefined, .bool false⟩, ⟨.null, .undefined⟩] ∧
      ∃ es L, w.host = es.filter (·.isNoted) ∧
        Ledger.afterAll? (.opened (.bool false)) es = some L ∧
        w.get gate "open" = L.value ∧
        w.tasks.microtasks.count (.setter trap) = (if L.changed then 1 else 0) ∧
        es.count .began = (tellings es).length := by
  obtain ⟨es, L, diary, admitted, value, count, began, due, -, -⟩ :=
    notifications_chained vigil_works evening_fresh night_errand
      (rfl : night (evening.subscribeSetter trap (.hook ⟨0⟩)).2 =
        (_, (night (evening.subscribeSetter trap (.hook ⟨0⟩)).2).2))
  rw [due ⟨_, rfl⟩] at began
  exact ⟨vigil_works, evening_fresh, night_errand, _, rfl, rfl, es, L, diary, admitted, value, count,
    began⟩

end Watchman

end ViewBinding
