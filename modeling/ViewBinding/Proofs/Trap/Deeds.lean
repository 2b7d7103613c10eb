import ViewBinding.Proofs.Tasks.Errands
import ViewBinding.Proofs.Trap.Ledger

/-!
# Trap — deeds and the ledger

A `Vigil` is about a trapped property and one callback of its observer, the other subscribers and
microtasks there may be, and a diary in which the host writes down what is written through the trap
and what the callback is told.

`Deed` is what somebody may do in one step: whatever leaves the trap and the microtasks alone, queueing
another microtask, writing the property of the object or writing through the observer, and beginning
and ending other subscriptions to the observer.  Removing the property is no deed, since it takes the
trap away.

`F.Sound L w` says that the trap is in place, that its observer keeps the ledger `L`, and that a
notification is queued if and only if a write has changed the value since the last one.
`F.Log w L es w' L'` is what a run from `w` to `w'` leaves behind: the ledger `L` admitted the events
`es` and is `L'` now.  It is so for every deed (`Log.of_deed`), and one after the other (`Log.trans`).
-/

namespace ViewBinding

open SetterCell (Event Ledger Telling tellings)

namespace World

variable {η : Type}

/-- Writes through a trapping observer; while it has no trap, this writes the property. -/
def writeSetter (w : World η) (s : Ref .setter) (v : Value) : World η :=
  match w.setters.get? s with
  | some cell =>
    if cell.observing then w.writeTrap s v
    else if w.objects.contains cell.object then w.set cell.object cell.property v
    else w
  | none => w

end World

theorem Run.writeLeaf_setter {η : Type} (env : Env η) (s : Ref .setter) (v : Value) :
    Run.writeLeaf env (.setter s) v = Run.modify fun w => w.writeSetter s v := by
  funext w
  simp only [Run.writeLeaf, Run.bind_read, World.writeSetter, Run.modify]
  cases w.setters.get? s with
  | none => rfl
  | some cell =>
    dsimp only
    split <;> rfl

variable {η : Type}

/-- A trapped property, a callback of its observer, others who may subscribe, other microtasks, the
environments in which all of them are run, and the diary of their host, oldest first. -/
structure Vigil (η : Type) where
  object : Ref .object
  property : String
  setter : Ref .setter
  callback : Ref .hook
  /-- The registration of the callback. -/
  token : Token
  env : Env η → Prop
  subscriber : Subscriber → Prop
  microtask : Microtask → Prop
  diary : η → List Event

namespace Vigil

variable (F : Vigil η)

/-- A note in the diary, beside whatever leaves the trap and the microtasks alone. -/
structure Notes (es : List Event) (w w' : World η) : Prop where
  setter : w'.setters.get? F.setter = w.setters.get? F.setter
  slot : w'.slot? F.object F.property = w.slot? F.object F.property
  microtasks : w'.tasks.microtasks = w.tasks.microtasks
  flushing : w'.tasks.flushing = w.tasks.flushing
  diary : F.diary w'.host = F.diary w.host ++ es

/-- What somebody may do in one step. -/
inductive Deed (w w' : World η) : Prop
  | aside (noted : F.Notes [] w w')
  | queue {task : Microtask} (h : F.microtask task) (other : task ≠ .setter F.setter)
      (noted : F.Notes [] (w.queueMicrotask task) w')
  /-- A frozen object ignores it. -/
  | set (v : Value) (noted : F.Notes (if w.isFrozen F.object then [] else [.wrote v])
      (w.set F.object F.property v) w')
  | write (v : Value) (noted : F.Notes [.wrote v] (w.writeSetter F.setter v) w')
  | enlist {sub : Subscriber} (h : F.subscriber sub) (other : sub ≠ .hook F.callback)
      (noted : F.Notes [] (w.subscribeSetter F.setter sub).2 w')
  | strike {token : Token} (other : token ≠ F.token)
      (noted : F.Notes [] (w.undoCallback token (.leaf (.setter F.setter))).2 w')

/-- The callback notes what it is told, and does deeds.  So do the others, and the other microtasks. -/
structure Works : Prop where
  callback : ∀ env, F.env env → ∀ new old, Begins F.env F.Deed (F.Notes [.told ⟨new, old⟩])
    (env.announce (.hook F.callback) new old)
  subscriber : ∀ env, F.env env → ∀ sub, F.subscriber sub → sub ≠ .hook F.callback → ∀ new old,
    Errand F.env F.Deed (env.announce sub new old)
  microtask : ∀ env, F.env env → ∀ task, F.microtask task → task ≠ .setter F.setter →
    Errand F.env F.Deed (Run.runMicrotask env task)

/-- The trap is in place, the callback is registered once, and a notification is queued when the
observer knows so. -/
structure Keeps (w : World η) (cell : SetterCell) : Prop where
  there : w.setters.get? F.setter = some cell
  observing : cell.observing = true
  slot : w.slot? F.object F.property = some (.trap F.setter)
  enlisted : cell.callbacks.entries.filter (·.2 = .hook F.callback) = [(F.token, .hook F.callback)]
  others : ∀ p ∈ cell.callbacks.entries, p.2 = .hook F.callback ∨ F.subscriber p.2
  queued : w.tasks.microtasks.count (.setter F.setter) = if cell.queued then 1 else 0
  waits : ∀ task ∈ w.tasks.microtasks, task = .setter F.setter ∨ F.microtask task

/-- The trap is kept as it should, with a ledger. -/
def Sound (L : Ledger) (w : World η) : Prop := ∃ cell, F.Keeps w cell ∧ cell.ledger L.due = L

/-- What a run from one world to another leaves behind. -/
structure Log (w : World η) (L : Ledger) (es : List Event) (w' : World η) (L' : Ledger) : Prop where
  sound : F.Sound L' w'
  diary : F.diary w'.host = F.diary w.host ++ es.filter (·.isNoted)
  flushing : w'.tasks.flushing = w.tasks.flushing
  admitted : L.afterAll? es = some L'

variable {F} {w w' w'' : World η} {cell cell' : SetterCell} {es es' : List Event} {L L' L'' : Ledger}

/-- What a note leaves alone is kept. -/
theorem Keeps.of_notes (keeps : F.Keeps w cell) (noted : F.Notes es w w') : F.Keeps w' cell where
  there := noted.setter.trans keeps.there
  observing := keeps.observing
  slot := noted.slot.trans keeps.slot
  enlisted := keeps.enlisted
  others := keeps.others
  queued := noted.microtasks ▸ keeps.queued
  waits := noted.microtasks ▸ keeps.waits

/-- The trap gives the value of the ledger. -/
theorem Sound.get_eq (sound : F.Sound L w) : w.get F.object F.property = L.value := by
  obtain ⟨cell, keeps, is⟩ := sound
  simp only [World.get, keeps.slot, World.slotValue, keeps.there]
  rw [← is]
  rfl

/-- A notification is queued if and only if a write has changed the value. -/
theorem Sound.count_eq (sound : F.Sound L w) :
    w.tasks.microtasks.count (.setter F.setter) = if L.changed then 1 else 0 := by
  obtain ⟨cell, keeps, is⟩ := sound
  rw [keeps.queued, ← is]
  rfl

namespace Log

theorem refl (sound : F.Sound L w) : F.Log w L [] w L :=
  ⟨sound, (List.append_nil _).symm, rfl, rfl⟩

theorem trans (h : F.Log w L es w' L') (h' : F.Log w' L' es' w'' L'') :
    F.Log w L (es ++ es') w'' L'' where
  sound := h'.sound
  diary := by rw [h'.diary, h.diary, List.filter_append, List.append_assoc]
  flushing := h'.flushing.trans h.flushing
  admitted := Ledger.afterAll?_append h.admitted h'.admitted

/-- A step that leaves the ledger alone, with a note of nothing. -/
theorem of_keeps {w₁ : World η} (is : cell.ledger L.due = L) (keeps' : F.Keeps w₁ cell')
    (noted : F.Notes [] w₁ w') (host : w₁.host = w.host)
    (flushing : w₁.tasks.flushing = w.tasks.flushing)
    (same : cell'.ledger L.due = cell.ledger L.due) : F.Log w L [] w' L :=
  ⟨⟨cell', keeps'.of_notes noted, same.trans is⟩, by rw [noted.diary, host]; rfl,
    noted.flushing.trans flushing, rfl⟩

/-- A write through the trap. -/
theorem of_writeTrap (keeps : F.Keeps w cell) (is : cell.ledger L.due = L) (v : Value)
    (noted : F.Notes [.wrote v] (w.writeTrap F.setter v) w') :
    F.Log w L [.wrote v] w' (L.wrote v) := by
  obtain ⟨cell', there, same, entered, microtasks⟩ := World.writeTrap_cases keeps.there v
  obtain ⟨objects, host, flushing⟩ : (w.writeTrap F.setter v).objects = w.objects ∧
      (w.writeTrap F.setter v).host = w.host ∧
      (w.writeTrap F.setter v).tasks.flushing = w.tasks.flushing := by
    rw [World.writeTrap_eq keeps.there]
    split <;> exact ⟨rfl, rfl, rfl⟩
  have stays : cell.queued = true → cell'.queued = true := fun queued => by
    have once := congrArg Ledger.changed (entered L.due)
    rw [is] at once
    refine once.trans ?_
    rw [← is, Ledger.wrote]
    split
    · exact queued
    · rfl
  have keeps' : F.Keeps (w.writeTrap F.setter v) cell' := by
    refine ⟨there, ?_, ?_, ?_, ?_, ?_, ?_⟩
    · rw [same]
      exact keeps.observing
    · rw [World.slot?, objects]
      exact keeps.slot
    · rw [same]
      exact keeps.enlisted
    · rw [same]
      exact keeps.others
    · rw [microtasks, List.count_append, keeps.queued]
      cases queued : cell.queued with
      | true => simp [stays queued]
      | false => cases cell'.queued <;> simp
    · rw [microtasks]
      refine List.forall_mem_append.2 ⟨keeps.waits, fun task m => ?_⟩
      split at m
      · exact .inl (List.mem_singleton.1 m)
      · cases m
  refine ⟨⟨cell', keeps'.of_notes noted, ?_⟩, by rw [noted.diary, host]; rfl,
    noted.flushing.trans flushing, rfl⟩
  rw [Ledger.due_wrote, entered, is]

/-- A change of who is registered. -/
theorem of_callbacks {w₁ : World η} {callbacks : Listeners Subscriber} (keeps : F.Keeps w cell)
    (is : cell.ledger L.due = L) (there : w₁.setters.get? F.setter = some { cell with callbacks })
    (objects : w₁.objects = w.objects) (tasks : w₁.tasks = w.tasks) (host : w₁.host = w.host)
    (enlisted : callbacks.entries.filter (·.2 = .hook F.callback) =
      cell.callbacks.entries.filter (·.2 = .hook F.callback))
    (others : ∀ p ∈ callbacks.entries, p ∈ cell.callbacks.entries ∨ F.subscriber p.2)
    (noted : F.Notes [] w₁ w') : F.Log w L [] w' L := by
  refine of_keeps is ⟨there, keeps.observing, ?_, enlisted.trans keeps.enlisted, fun p m => ?_, ?_, ?_⟩
    noted host (by rw [tasks]) rfl
  · rw [World.slot?, objects]
    exact keeps.slot
  · exact (others p m).elim (keeps.others p) .inr
  · rw [tasks]
    exact keeps.queued
  · rw [tasks]
    exact keeps.waits

/-- **Every deed** keeps the ledger, and tells the callback nothing. -/
theorem of_deed (sound : F.Sound L w) (deed : F.Deed w w') :
    ∃ es L', F.Log w L es w' L' ∧ L'.due = L.due := by
  obtain ⟨cell, keeps, is⟩ := sound
  cases deed with
  | aside noted => exact ⟨[], L, of_keeps is keeps noted rfl rfl rfl, rfl⟩
  | @queue task h other noted =>
    have keeps' : F.Keeps (w.queueMicrotask task) cell := by
      refine ⟨keeps.there, keeps.observing, keeps.slot, keeps.enlisted, keeps.others, ?_,
        List.forall_mem_append.2 ⟨keeps.waits, List.forall_mem_singleton.2 (.inr h)⟩⟩
      rw [← keeps.queued]
      simp [World.queueMicrotask, other]
    exact ⟨[], L, of_keeps is keeps' noted rfl rfl rfl, rfl⟩
  | set v noted =>
    by_cases frozen : w.isFrozen F.object
    · rw [if_pos frozen, World.set, if_pos frozen] at noted
      exact ⟨[], L, of_keeps is keeps noted rfl rfl rfl, rfl⟩
    · rw [if_neg frozen, World.set, if_neg frozen, keeps.slot] at noted
      exact ⟨_, _, of_writeTrap keeps is v noted, Ledger.due_wrote L v⟩
  | write v noted =>
    simp only [World.writeSetter, keeps.there, keeps.observing, if_true] at noted
    exact ⟨_, _, of_writeTrap keeps is v noted, Ledger.due_wrote L v⟩
  | @enlist sub h other noted =>
    have there : (w.subscribeSetter F.setter sub).2.setters.get? F.setter =
        some { cell with callbacks := cell.callbacks.add ⟨w.nextToken⟩ sub } := by
      simp [World.subscribeSetter, World.freshToken, World.modifySetter, World.callbackSubscription,
        World.newSubscription, keeps.there, keeps.observing]
    have rest : (w.subscribeSetter F.setter sub).2.objects = w.objects ∧
        (w.subscribeSetter F.setter sub).2.tasks = w.tasks ∧
        (w.subscribeSetter F.setter sub).2.host = w.host := by
      simp [World.subscribeSetter, World.freshToken, World.modifySetter, World.callbackSubscription,
        World.newSubscription, keeps.there, keeps.observing]
    refine ⟨[], L, of_callbacks keeps is there rest.1 rest.2.1 rest.2.2 ?_ ?_ noted, rfl⟩
    · simp [Listeners.add, other]
    · exact List.forall_mem_append.2 ⟨fun p m => .inl m, List.forall_mem_singleton.2 (.inr h)⟩
  | @strike token other noted =>
    have there : (w.undoCallback token (.leaf (.setter F.setter))).2.setters.get? F.setter =
        some { cell with callbacks := cell.callbacks.remove token } := by
      simp [World.undoCallback, World.modifySetter, keeps.there]
    refine ⟨[], L, of_callbacks keeps is there rfl rfl rfl ?_ ?_ noted, rfl⟩
    · have ended : (cell.callbacks.remove token).entries.filter (·.2 = .hook F.callback) =
          (cell.callbacks.entries.filter (·.2 = .hook F.callback)).filter (·.1 ≠ token) := by
        simp only [Listeners.remove, List.filter_filter, Bool.and_comm]
      rw [ended, keeps.enlisted]
      simp [Ne.symm other]
    · exact fun p m => .inl (List.mem_filter.1 m).1

end Log

end Vigil

end ViewBinding
