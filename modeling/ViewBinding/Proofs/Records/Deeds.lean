import ViewBinding.Proofs.Records.Changes
import ViewBinding.Proofs.Tasks.Errands

/-!
# Records — deeds and the log of them

A `Chronicle` is about one object, the hooks that may listen to it, the other microtasks there may be,
and a diary in which the host writes down what it makes of the object and what it is told.

`Deed` is what a hook may do in one step: whatever leaves the object and its tasks alone, queueing
another microtask, writing and removing a property, freezing the object, and beginning and ending a
registration.

`Log F w es ds w'` is what a run from `w` to `w'` leaves behind: the diary went on with `es`, and the
batches `ds` were delivered.  What was pending and what was changed is what was delivered and what is
pending then, in this order, and taking the changes back restores what the object contained.  It is
so for every deed (`Log.of_deed`), and one after the other (`Log.trans`).
-/

namespace ViewBinding

namespace ObjectCell

/-- What happens to an object and its listeners. -/
inductive Event where
  | changed (record : ChangeRecord)
  | told (listener : Ref .hook) (batch : List ChangeRecord)
  /-- Nobody listens any more. -/
  | lapsed
deriving DecidableEq

/-- The records of what was changed. -/
def changes (es : List Event) : List ChangeRecord :=
  es.filterMap fun | .changed record => some record | _ => none

/-- Who was told which batch. -/
def tellings (es : List Event) : List (Ref .hook × List ChangeRecord) :=
  es.filterMap fun | .told listener batch => some (listener, batch) | _ => none

@[simp] theorem changes_append (es es' : List Event) :
    changes (es ++ es') = changes es ++ changes es' := List.filterMap_append

@[simp] theorem tellings_append (es es' : List Event) :
    tellings (es ++ es') = tellings es ++ tellings es' := List.filterMap_append

/-- A batch of records and the listeners that were told, the first one first. -/
structure Delivery where
  listeners : List (Ref .hook)
  batch : List ChangeRecord

/-- Each listener is told the batch. -/
def Delivery.tellings (d : Delivery) : List (Ref .hook × List ChangeRecord) :=
  d.listeners.map fun listener => (listener, d.batch)

/-- The records that have been delivered. -/
def delivered (ds : List Delivery) : List ChangeRecord := ds.flatMap (·.batch)

@[simp] theorem delivered_append (ds ds' : List Delivery) :
    delivered (ds ++ ds') = delivered ds ++ delivered ds' := List.flatMap_append

end ObjectCell

open ObjectCell (Event Delivery changes tellings delivered)

namespace World

variable {η : Type}

/-- Whether nobody listens to an object. -/
def unheard (w : World η) (o : Ref .object) : Bool :=
  ((w.objects.get? o).map (·.listeners.isEmpty)).getD true

/-- The records of an object that wait to be delivered. -/
def pendingRecords (w : World η) (o : Ref .object) : List ChangeRecord :=
  ((w.objects.get? o).map (·.pending)).getD []

end World

variable {η : Type}

/-- An object, its listeners, other microtasks, the environments in which all of them are run, and the
diary of their host, oldest first. -/
structure Chronicle (η : Type) where
  object : Ref .object
  env : Env η → Prop
  listener : Ref .hook → Prop
  microtask : Microtask → Prop
  diary : η → List Event

namespace Chronicle

variable (F : Chronicle η)

/-- A note in the diary, beside whatever leaves the object and the microtasks alone. -/
structure Notes (es : List Event) (w w' : World η) : Prop where
  object : w'.objects.get? F.object = w.objects.get? F.object
  microtasks : w'.tasks.microtasks = w.tasks.microtasks
  flushing : w'.tasks.flushing = w.tasks.flushing
  diary : F.diary w'.host = F.diary w.host ++ es

/-- What a hook may do in one step. -/
inductive Deed (w w' : World η) : Prop
  | aside (noted : F.Notes [] w w')
  | queue {task : Microtask} (h : F.microtask task) (noted : F.Notes [] (w.queueMicrotask task) w')
  | set (name : String) (v : Value)
      (noted : F.Notes ((w.written? F.object name v).toList.map .changed)
        (w.set F.object name v) w')
  | remove (name : String)
      (noted : F.Notes ((w.removed? F.object name).toList.map .changed)
        (w.remove F.object name).2 w')
  | freeze (noted : F.Notes [] (w.freeze F.object) w')
  | listen {h : Ref .hook} (mine : F.listener h)
      (noted : F.Notes [] (w.listenRecords F.object (.hook h)).2 w')
  | unlisten (token : Token)
      (noted : F.Notes (if (w.unlistenRecords F.object token).unheard F.object then [.lapsed] else [])
        (w.unlistenRecords F.object token) w')

/-- A listener notes the batch that it is told, and does what it does.  So do the other microtasks. -/
structure Works : Prop where
  listener : ∀ env, F.env env → ∀ h, F.listener h → ∀ batch,
    Begins F.env F.Deed (F.Notes [.told h batch]) (env.fire h (.records batch))
  microtask : ∀ env, F.env env → ∀ task, F.microtask task →
    Errand F.env F.Deed (Run.runMicrotask env task)

/-- The object contains plain values, hooks listen to it, and its records wait for a delivery. -/
structure Keeps (w : World η) (cell : ObjectCell) : Prop where
  there : w.objects.get? F.object = some cell
  plain : cell.Plain
  unheard : cell.listeners.isEmpty → cell.pending = []
  scheduled : cell.pending ≠ [] → cell.scheduled
  queued : cell.scheduled → .deliver F.object ∈ w.tasks.microtasks
  listeners : ∀ l ∈ cell.listeners.toList, ∃ h, l = .hook h ∧ F.listener h
  waits : ∀ task ∈ w.tasks.microtasks, task = .deliver F.object ∨ F.microtask task

/-- The object is kept as it should. -/
def Sound (w : World η) : Prop := ∃ cell, F.Keeps w cell

end Chronicle

/-- What a run from one world to another leaves behind. -/
structure Log (F : Chronicle η) (w : World η) (es : List Event) (ds : List Delivery) (w' : World η) :
    Prop where
  sound : F.Sound w'
  diary : F.diary w'.host = F.diary w.host ++ es
  flushing : w'.tasks.flushing = w.tasks.flushing
  told : tellings es = ds.flatMap Delivery.tellings
  nonempty : ∀ d ∈ ds, d.batch ≠ []
  undone : ChangeRecord.undoAll (changes es) (w'.valuesOf F.object) = w.valuesOf F.object
  /-- As long as somebody listens. -/
  order : .lapsed ∉ es → w.unheard F.object = false → w'.unheard F.object = false ∧
    w.pendingRecords F.object ++ changes es = delivered ds ++ w'.pendingRecords F.object

namespace Chronicle

variable {F : Chronicle η} {w w' : World η} {cell cell' : ObjectCell} {es : List Event}

theorem Keeps.unheard_eq (keeps : F.Keeps w cell) :
    w.unheard F.object = cell.listeners.isEmpty := by
  simp only [World.unheard, keeps.there, Option.map_some, Option.getD_some]

theorem Keeps.pendingRecords_eq (keeps : F.Keeps w cell) :
    w.pendingRecords F.object = cell.pending := by
  simp only [World.pendingRecords, keeps.there, Option.map_some, Option.getD_some]

theorem Keeps.valuesOf_eq (keeps : F.Keeps w cell) : w.valuesOf F.object = cell.values :=
  World.valuesOf_of_plain keeps.there keeps.plain

/-- Pending records always have a delivery queued. -/
theorem Sound.queued (sound : F.Sound w) (pending : w.pendingRecords F.object ≠ []) :
    .deliver F.object ∈ w.tasks.microtasks := by
  obtain ⟨cell, keeps⟩ := sound
  exact keeps.queued (keeps.scheduled (keeps.pendingRecords_eq ▸ pending))

/-- What a note leaves alone is kept. -/
theorem Keeps.of_notes (keeps : F.Keeps w cell) (noted : F.Notes es w w') : F.Keeps w' cell where
  there := noted.object.trans keeps.there
  plain := keeps.plain
  unheard := keeps.unheard
  scheduled := keeps.scheduled
  queued scheduled := noted.microtasks ▸ keeps.queued scheduled
  listeners := keeps.listeners
  waits := noted.microtasks ▸ keeps.waits

/-- A hook registers. -/
theorem Keeps.listen (keeps : F.Keeps w cell) {h : Ref .hook} (mine : F.listener h) :
    F.Keeps (w.listenRecords F.object (.hook h)).2
      { cell with listeners := cell.listeners.add ⟨w.nextToken⟩ (.hook h) } where
  there := (Store.get?_modify_self _ _ _).trans (congrArg (Option.map _) keeps.there)
  plain := ⟨keeps.plain.distinct, keeps.plain.data⟩
  unheard none := by simp [Listeners.isEmpty, Listeners.add] at none
  scheduled := keeps.scheduled
  queued := keeps.queued
  listeners := by
    rw [Listeners.toList_add]
    exact List.forall_mem_append.2 ⟨keeps.listeners, List.forall_mem_singleton.2 ⟨h, rfl, mine⟩⟩
  waits := keeps.waits

/-- A new object of plain values. -/
theorem sound_newObject (values : List (String × Value)) (next : F.object = w.objects.next)
    (waits : ∀ task ∈ w.tasks.microtasks, F.microtask task) : F.Sound (w.newObject values).2 := by
  refine ⟨{ properties :=
      values.foldl (fun slots entry => Entries.put entry.1 (.data entry.2) slots) [] },
    ?_, ?_, fun _ => rfl, fun h => (h rfl).elim, fun h => (Bool.false_ne_true h).elim,
    fun _ m => (List.not_mem_nil m).elim, fun task m => .inr (waits task m)⟩
  · rw [next]
    exact Store.get?_alloc_next _ _
  · have none : ObjectCell.Plain {} := ⟨Entries.distinct_nil, fun _ m => (List.not_mem_nil m).elim⟩
    exact none.foldl_put values

end Chronicle

namespace Log

variable {F : Chronicle η} {w w' w'' : World η} {cell cell' : ObjectCell} {es es' : List Event}
  {ds ds' : List Delivery}

theorem refl (sound : F.Sound w) : Log F w [] [] w where
  sound := sound
  diary := (List.append_nil _).symm
  flushing := rfl
  told := rfl
  nonempty := nofun
  undone := rfl
  order _ heard := ⟨heard, List.append_nil _⟩

theorem trans (h : Log F w es ds w') (h' : Log F w' es' ds' w'') :
    Log F w (es ++ es') (ds ++ ds') w'' where
  sound := h'.sound
  diary := by rw [h'.diary, h.diary, List.append_assoc]
  flushing := h'.flushing.trans h.flushing
  told := by rw [ObjectCell.tellings_append, List.flatMap_append, h.told, h'.told]
  nonempty d m := (List.mem_append.1 m).elim (h.nonempty d) (h'.nonempty d)
  undone := by rw [ObjectCell.changes_append, ChangeRecord.undoAll_append, h'.undone, h.undone]
  order unlapsed heard := by
    obtain ⟨heard', order⟩ := h.order (fun m => unlapsed (List.mem_append_left _ m)) heard
    obtain ⟨heard'', order'⟩ := h'.order (fun m => unlapsed (List.mem_append_right _ m)) heard'
    refine ⟨heard'', ?_⟩
    rw [ObjectCell.changes_append, ObjectCell.delivered_append, ← List.append_assoc, order,
      List.append_assoc, order', List.append_assoc]

/-- A step after which nothing was told, with the note of it. -/
theorem of_keeps {w₁ : World η} (keeps : F.Keeps w cell) (keeps' : F.Keeps w₁ cell')
    (noted : F.Notes es w₁ w') (host : w₁.host = w.host)
    (flushing : w₁.tasks.flushing = w.tasks.flushing) (told : tellings es = [])
    (undone : ChangeRecord.undoAll (changes es) cell'.values = cell.values)
    (order : .lapsed ∉ es → cell.listeners.isEmpty = false →
      cell'.listeners.isEmpty = false ∧ cell.pending ++ changes es = cell'.pending) :
    Log F w es [] w' := by
  have after := keeps'.of_notes noted
  refine ⟨⟨_, after⟩, by rw [noted.diary, host], noted.flushing.trans flushing, told, nofun, ?_, ?_⟩
  · rw [after.valuesOf_eq, keeps.valuesOf_eq, undone]
  · rw [keeps.unheard_eq, after.unheard_eq, keeps.pendingRecords_eq, after.pendingRecords_eq]
    exact order

/-- A change that asks for its record. -/
theorem of_change {change : ChangeRecord} {f : ObjectCell → ObjectCell}
    {properties : List (String × Slot)} (keeps : F.Keeps w cell)
    (is : f cell = cell.withProperties properties) (alters : cell.Alters change properties)
    (noted : F.Notes [.changed change] ((w.modifyObject F.object f).record F.object change) w') :
    Log F w [.changed change] [] w' := by
  obtain ⟨there, host, tasks⟩ := World.record_withProperties keeps.there change is
  have flushing : ((w.modifyObject F.object f).record F.object change).tasks.flushing =
      w.tasks.flushing := by
    rw [tasks]
    split <;> rfl
  by_cases unheard : cell.listeners.isEmpty
  · rw [if_pos (.inl unheard)] at tasks
    rw [ObjectCell.recorded, if_pos (show (cell.withProperties properties).listeners.isEmpty from
      unheard)] at there
    exact of_keeps keeps ⟨there, alters.plain, keeps.unheard, keeps.scheduled,
      by rw [tasks]; exact keeps.queued, keeps.listeners, by rw [tasks]; exact keeps.waits⟩ noted host
      flushing rfl alters.undo fun _ heard => by rw [unheard] at heard; cases heard
  · rw [ObjectCell.recorded, if_neg (show ¬ (cell.withProperties properties).listeners.isEmpty from
      unheard)] at there
    have queued : .deliver F.object ∈ ((w.modifyObject F.object f).record F.object
        change).tasks.microtasks := by
      rw [tasks]
      split
      next h => exact keeps.queued (h.resolve_left unheard)
      next => exact List.mem_append_right _ (List.mem_singleton_self _)
    have waits : ∀ task ∈ ((w.modifyObject F.object f).record F.object change).tasks.microtasks,
        task = .deliver F.object ∨ F.microtask task := by
      rw [tasks]
      split
      · exact keeps.waits
      · exact List.forall_mem_append.2 ⟨keeps.waits, List.forall_mem_singleton.2 (.inl rfl)⟩
    exact of_keeps keeps ⟨there, ⟨alters.plain.distinct, alters.plain.data⟩,
      fun none => (unheard none).elim, fun _ => rfl, fun _ => queued, keeps.listeners, waits⟩ noted
      host flushing rfl alters.undo fun _ heard => ⟨heard, rfl⟩

/-- A step that leaves the properties alone. -/
theorem of_properties {w₁ : World η} (keeps : F.Keeps w cell) (keeps' : F.Keeps w₁ cell')
    (noted : F.Notes es w₁ w') (host : w₁.host = w.host)
    (flushing : w₁.tasks.flushing = w.tasks.flushing) (told : tellings es = [])
    (silent : changes es = []) (properties : cell'.properties = cell.properties)
    (order : .lapsed ∉ es → cell.listeners.isEmpty = false →
      cell'.listeners.isEmpty = false ∧ cell.pending = cell'.pending) : Log F w es [] w' := by
  refine of_keeps keeps keeps' noted host flushing told ?_ ?_
  · rw [silent]
    funext name
    simp only [ChangeRecord.undoAll, List.foldr_nil, ObjectCell.values, properties]
  · rw [silent, List.append_nil]
    exact order

/-- A note of nothing. -/
theorem of_aside (keeps : F.Keeps w cell) (noted : F.Notes [] w w') : Log F w [] [] w' :=
  of_properties keeps keeps noted rfl rfl rfl rfl rfl fun _ heard => ⟨heard, rfl⟩

/-- A deed that changes the object, but not its properties. -/
theorem of_object {w₁ : World η} {f : ObjectCell → ObjectCell} (keeps : F.Keeps w cell)
    (noted : F.Notes es w₁ w') (objects : w₁.objects = (w.modifyObject F.object f).objects)
    (tasks : w₁.tasks = w.tasks) (host : w₁.host = w.host) (told : tellings es = [])
    (silent : changes es = []) (properties : (f cell).properties = cell.properties)
    (unheard : (f cell).listeners.isEmpty → (f cell).pending = [])
    (pending : (f cell).pending ≠ [] → cell.pending ≠ [])
    (scheduled : (f cell).scheduled = cell.scheduled)
    (listeners : ∀ l ∈ (f cell).listeners.toList, ∃ h, l = .hook h ∧ F.listener h)
    (order : .lapsed ∉ es → cell.listeners.isEmpty = false →
      (f cell).listeners.isEmpty = false ∧ cell.pending = (f cell).pending) : Log F w es [] w' := by
  have keeps' : F.Keeps w₁ (f cell) := by
    refine ⟨?_, ?_, unheard, ?_, ?_, listeners, ?_⟩
    · rw [objects, World.modifyObject, Store.get?_modify_self, keeps.there]
      rfl
    · exact ⟨properties ▸ keeps.plain.distinct, properties ▸ keeps.plain.data⟩
    · exact fun some => scheduled ▸ keeps.scheduled (pending some)
    · rw [scheduled, tasks]
      exact keeps.queued
    · rw [tasks]
      exact keeps.waits
  exact of_properties keeps keeps' noted host (by rw [tasks]) told silent properties order

/-- **Every deed** keeps the log. -/
theorem of_deed (sound : F.Sound w) (deed : F.Deed w w') : ∃ es, Log F w es [] w' := by
  obtain ⟨cell, keeps⟩ := sound
  cases deed with
  | aside noted => exact ⟨[], of_aside keeps noted⟩
  | @queue task h noted =>
    have keeps' : F.Keeps (w.queueMicrotask task) cell := ⟨keeps.there, keeps.plain, keeps.unheard,
      keeps.scheduled, fun scheduled => List.mem_append_left _ (keeps.queued scheduled),
      keeps.listeners,
      List.forall_mem_append.2 ⟨keeps.waits, List.forall_mem_singleton.2 (.inr h)⟩⟩
    exact ⟨[], of_properties keeps keeps' noted rfl rfl rfl rfl rfl fun _ heard => ⟨heard, rfl⟩⟩
  | set name v noted =>
    obtain ⟨none, same⟩ | ⟨change, f, properties, some, made, is, alters⟩ :=
      World.set_cases keeps.there keeps.plain name v
    · rw [none, same] at noted
      exact ⟨_, of_aside keeps noted⟩
    · rw [some, made] at noted
      exact ⟨_, of_change keeps is alters noted⟩
  | remove name noted =>
    obtain ⟨none, same⟩ | ⟨change, f, properties, some, made, is, alters⟩ :=
      World.remove_cases keeps.there keeps.plain name
    · rw [none, same] at noted
      exact ⟨_, of_aside keeps noted⟩
    · rw [some, made] at noted
      exact ⟨_, of_change keeps is alters noted⟩
  | freeze noted =>
    exact ⟨[], of_object keeps noted rfl rfl rfl rfl rfl rfl keeps.unheard id rfl keeps.listeners
      fun _ heard => ⟨heard, rfl⟩⟩
  | listen mine noted =>
    exact ⟨[], of_properties keeps (keeps.listen mine) noted rfl rfl rfl rfl rfl
      fun _ _ => ⟨by simp [Listeners.isEmpty, Listeners.add], rfl⟩⟩
  | unlisten token noted =>
    have left : (w.unlistenRecords F.object token).unheard F.object =
        (cell.listeners.remove token).isEmpty := by
      simp only [World.unheard, World.unlistenRecords, World.modifyObject, Store.get?_modify_self,
        keeps.there, Option.map_some, Option.getD_some]
    rw [left] at noted
    refine ⟨_, of_object keeps noted rfl rfl rfl ?_ ?_ rfl ?_ ?_ rfl ?_ ?_⟩
    · split <;> rfl
    · split <;> rfl
    · exact fun none => if_pos none
    · dsimp only
      split
      · exact fun some => (some rfl).elim
      · exact id
    · intro l m
      refine keeps.listeners l ?_
      simp only [Listeners.toList, Listeners.remove, List.mem_map, List.mem_filter] at m ⊢
      obtain ⟨p, ⟨m, -⟩, is⟩ := m
      exact ⟨p, m, is⟩
    · intro unlapsed _
      cases none : (cell.listeners.remove token).isEmpty with
      | true => simp [none] at unlapsed
      | false => exact ⟨rfl, (if_neg (by simp [none])).symm⟩

end Log

end ViewBinding
