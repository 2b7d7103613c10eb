import ViewBinding.Proofs.Arrays.Ledger
import ViewBinding.Proofs.Leaf.Slots
import ViewBinding.Proofs.Tasks.Errands

/-!
# Arrays — deeds and the ledger

A `Lookout` is about an array that nobody but its observer listens to, the callbacks that may
subscribe, the other microtasks there may be, and a diary in which the host writes down what happens
to the array and what the callbacks are told.

`Deed` is what somebody may do in one step: whatever leaves the array, its observer and the
microtasks alone, queueing another microtask, changing the array, subscribing a callback to the
observer, and disposing any subscription.

`F.Sound L w` says that the observer keeps the ledger `L`, and that a notification is queued if and
only if something was collected.  `F.Log w L es w' L'` is what a run from `w` to `w'` leaves behind:
the ledger `L` admitted the events `es` and is `L'` now.  It is so for every deed (`Log.of_deed`),
and one after the other (`Log.trans`).
-/

namespace ViewBinding

open ContentsCell (Event Ledger)

variable {η : Type}

namespace World

/-- Whether an observer of contents listens to its array. -/
def isListening (w : World η) (c : Ref .contents) : Bool :=
  (w.contents.get? c).any (·.listener.isSome)

/-- The changes that the last notification of an observer of contents was about. -/
def lastSplices (w : World η) (c : Ref .contents) : List Splice :=
  ((w.contents.get? c).map (·.last)).getD []

/-- Only this observer is about the array. -/
def Sole (w : World η) (a : Ref .array) (c : Ref .contents) : Prop :=
  ∀ r cell, w.contents.get? r = some cell → cell.array = a → r = c

variable {w : World η} {c : Ref .contents} {cell : ContentsCell}

/-- **Collecting a splice.** -/
theorem collectSplice_eq (there : w.contents.get? c = some cell) (splice : Splice) :
    w.collectSplice c splice =
      { w with
        contents := w.contents.modify c fun cell =>
          { cell with pending := cell.pending ++ [splice], queued := true }
        tasks.microtasks := w.tasks.microtasks ++ if cell.queued then [] else [.contents c] } := by
  unfold collectSplice
  rw [there]
  cases queued : cell.queued <;> simp [modifyContents, queueMicrotask, queued]

/-- Subscribing to an observer that listens. -/
theorem subscribeContents_of_listening (there : w.contents.get? c = some cell)
    (listening : cell.listener.isSome) (sub : Subscriber) :
    (w.subscribeContents c sub).2 =
      { w.modifyContents c fun cell =>
          { cell with callbacks := cell.callbacks.add ⟨w.nextToken⟩ sub } with
        nextToken := w.nextToken + 1
        subscriptions :=
          w.subscriptions.alloc ⟨some (.callback (.leaf (.contents c)) ⟨w.nextToken⟩)⟩ } := by
  simp [subscribeContents, freshToken, startListening, modifyContents, there, listening,
    callbackSubscription, newSubscription]

/-- Subscribing to an observer that does not listen makes it listen. -/
theorem subscribeContents_of_idle {array : ArrayCell} (there : w.contents.get? c = some cell)
    (live : w.arrays.get? cell.array = some array) (idle : cell.listener = none)
    (sub : Subscriber) :
    (w.subscribeContents c sub).2 =
      { w with
        contents := w.contents.modify c fun cell =>
          { cell with
            callbacks := cell.callbacks.add ⟨w.nextToken⟩ sub
            listener := some ⟨w.nextToken + 1⟩ }
        arrays := w.arrays.modify cell.array fun array =>
          { array with listeners := array.listeners.add ⟨w.nextToken + 1⟩ (.contents c) }
        nextToken := w.nextToken + 2
        subscriptions :=
          w.subscriptions.alloc ⟨some (.callback (.leaf (.contents c)) ⟨w.nextToken⟩)⟩ } := by
  have contains : w.arrays.contains cell.array = true := by simp [Store.contains, live]
  simp [subscribeContents, freshToken, startListening, modifyContents, there, idle, contains,
    callbackSubscription, newSubscription, listenSplices, modifyArray, Store.modify_modify]

/-- Ending a registration with another observer leaves arrays and their observers alone. -/
theorem undoCallback_of_ne_contents (w : World η) (t : Token) {ob : Observer}
    (other : ∀ r, ob ≠ .leaf (.contents r)) :
    (w.undoCallback t ob).2.arrays = w.arrays ∧ (w.undoCallback t ob).2.contents = w.contents := by
  cases ob with
  | leaf l =>
    cases l with
    | setter _ | property _ => exact ⟨rfl, rfl⟩
    | contents r => exact (other r rfl).elim
    | placeholder _ =>
      simp only [undoCallback]
      split <;> exact ⟨rfl, rfl⟩
    | element _ | select _ | poll _ =>
      simp only [undoCallback]
      split
      · exact ⟨rfl, rfl⟩
      · split <;> exact ⟨rfl, rfl⟩
  | path _ | composite _ =>
    simp only [undoCallback]
    split
    · exact ⟨rfl, rfl⟩
    · split <;> exact ⟨rfl, rfl⟩

/-- Ending a registration queues nothing, and the host has no part in it. -/
theorem undoCallback_tasks (w : World η) (t : Token) (ob : Observer) :
    (w.undoCallback t ob).2.tasks = w.tasks ∧ (w.undoCallback t ob).2.host = w.host := by
  cases ob with
  | leaf l =>
    cases l with
    | setter _ | property _ => exact ⟨rfl, rfl⟩
    | placeholder _ =>
      simp only [undoCallback]
      split <;> exact ⟨rfl, rfl⟩
    | contents _ =>
      simp only [undoCallback]
      split
      · exact ⟨rfl, rfl⟩
      · split
        · split <;> exact ⟨rfl, rfl⟩
        · exact ⟨rfl, rfl⟩
    | element _ | select _ | poll _ =>
      simp only [undoCallback]
      split
      · exact ⟨rfl, rfl⟩
      · split <;> exact ⟨rfl, rfl⟩
  | path _ | composite _ =>
    simp only [undoCallback]
    split
    · exact ⟨rfl, rfl⟩
    · split <;> exact ⟨rfl, rfl⟩

theorem sole_modifyContents {a : Ref .array} (sole : w.Sole a c) (r : Ref .contents)
    {f : ContentsCell → ContentsCell} (same : ∀ cell, (f cell).array = cell.array) :
    (w.modifyContents r f).Sole a c := by
  intro r' cell' get is
  rw [modifyContents, Store.get?_modify] at get
  split at get
  next here =>
    obtain ⟨cell, get', rfl⟩ := Option.map_eq_some_iff.1 get
    exact here.trans (sole r cell get' ((same cell).symm.trans is))
  · exact sole r' cell' get is

end World

/-- The ledger is about this array and its observer. -/
structure ContentsCell.Ledger.Of (L : Ledger) (array : ArrayCell) (cell : ContentsCell) : Prop where
  items : L.items = array.items.toList
  listening : L.listening = cell.listener.isSome
  pending : L.waiting ++ L.since = cell.pending
  last : ∀ batch, L.last = some batch → cell.last = batch

/-- An array, the observer of its contents, the hooks that may subscribe to it, other microtasks,
the environments in which all of them are run, and the diary of their host, oldest first. -/
structure Lookout (η : Type) where
  array : Ref .array
  contents : Ref .contents
  env : Env η → Prop
  callback : Ref .hook → Prop
  microtask : Microtask → Prop
  diary : η → List Event

namespace Lookout

variable (F : Lookout η)

/-- A note in the diary, beside whatever leaves the array, its observer and the microtasks alone. -/
structure Notes (es : List Event) (w w' : World η) : Prop where
  array : w'.arrays.get? F.array = w.arrays.get? F.array
  contents : w'.contents.get? F.contents = w.contents.get? F.contents
  sole : w.Sole F.array F.contents → w'.Sole F.array F.contents
  microtasks : w'.tasks.microtasks = w.tasks.microtasks
  flushing : w'.tasks.flushing = w.tasks.flushing
  diary : F.diary w'.host = F.diary w.host ++ es

/-- What somebody may do in one step. -/
inductive Deed (w w' : World η) : Prop
  | aside (noted : F.Notes [] w w')
  | queue {task : Microtask} (h : F.microtask task) (other : task ≠ .contents F.contents)
      (noted : F.Notes [] (w.queueMicrotask task) w')
  /-- It may fail, or break off, and then somebody goes on. -/
  | edit (env : Env η) (edit : Edit) (noted : F.Notes [.edited edit] (edit.run env F.array w).2 w')
  | subscribe {h : Ref .hook} (mine : F.callback h)
      (noted : F.Notes (if w.isListening F.contents then [] else [.began])
        (w.subscribeContents F.contents (.hook h)).2 w')
  | dispose (s : Ref .subscription)
      (noted : F.Notes
        (if w.isListening F.contents && !(w.dispose s).isListening F.contents then [.ended] else [])
        (w.dispose s) w')

/-- A callback notes what it finds with the observer when it is told, and does deeds.  So do the
other microtasks. -/
structure Works : Prop where
  callback : ∀ env, F.env env → ∀ h, F.callback h → ∀ new old, Begins F.env F.Deed
    (fun w w' => F.Notes [.told h (w.lastSplices F.contents)] w w') (env.announce (.hook h) new old)
  microtask : ∀ env, F.env env → ∀ task, F.microtask task → task ≠ .contents F.contents →
    Errand F.env F.Deed (Run.runMicrotask env task)

/-- Nobody but the observer listens to the array, if anybody does, and a notification is queued when
something was collected. -/
structure Keeps (w : World η) (array : ArrayCell) (cell : ContentsCell) : Prop where
  there : w.arrays.get? F.array = some array
  watched : w.contents.get? F.contents = some cell
  about : cell.array = F.array
  sole : w.Sole F.array F.contents
  heard : array.listeners.entries = cell.listener.toList.map (·, .contents F.contents)
  callbacks : ∀ sub ∈ cell.callbacks.toList, ∃ h, sub = .hook h ∧ F.callback h
  collected : cell.queued = !cell.pending.isEmpty
  queued : w.tasks.microtasks.count (.contents F.contents) = if cell.queued then 1 else 0
  waits : ∀ task ∈ w.tasks.microtasks, task = .contents F.contents ∨ F.microtask task

/-- The observer keeps a ledger. -/
def Sound (L : Ledger) (w : World η) : Prop := ∃ array cell, F.Keeps w array cell ∧ L.Of array cell

/-- What a run from one world to another leaves behind. -/
structure Log (w : World η) (L : Ledger) (es : List Event) (w' : World η) (L' : Ledger) : Prop where
  sound : F.Sound L' w'
  diary : F.diary w'.host = F.diary w.host ++ es.filter (·.isNoted)
  flushing : w'.tasks.flushing = w.tasks.flushing
  admitted : L.afterAll? es = some L'

variable {F} {w w' w'' : World η} {array : ArrayCell} {cell : ContentsCell} {es es' : List Event}
  {L L' L'' : Ledger}

/-- Where the array, its observer and the microtasks are the same, so is the ledger. -/
theorem Sound.of_same (sound : F.Sound L w)
    (array : w'.arrays.get? F.array = w.arrays.get? F.array)
    (contents : w'.contents.get? F.contents = w.contents.get? F.contents)
    (sole : w.Sole F.array F.contents → w'.Sole F.array F.contents)
    (microtasks : w'.tasks.microtasks = w.tasks.microtasks) : F.Sound L w' := by
  obtain ⟨_, cell, keeps, of⟩ := sound
  exact ⟨_, cell, ⟨array.trans keeps.there, contents.trans keeps.watched, keeps.about,
    sole keeps.sole, keeps.heard, keeps.callbacks, keeps.collected,
    microtasks ▸ keeps.queued, microtasks ▸ keeps.waits⟩, of⟩

theorem Sound.of_notes (sound : F.Sound L w) (noted : F.Notes es w w') : F.Sound L w' :=
  sound.of_same noted.array noted.contents noted.sole noted.microtasks

theorem Sound.of_eq (sound : F.Sound L w) (arrays : w'.arrays = w.arrays)
    (contents : w'.contents = w.contents) (tasks : w'.tasks = w.tasks) : F.Sound L w' :=
  sound.of_same (by rw [arrays]) (by rw [contents])
    (fun sole r cell get => sole r cell (contents ▸ get)) (by rw [tasks])

theorem Sound.items_eq (sound : F.Sound L w) : w.items F.array = L.items := by
  obtain ⟨array, cell, keeps, of⟩ := sound
  exact (World.items_eq keeps.there).trans of.items.symm

theorem Sound.isListening_eq (sound : F.Sound L w) : w.isListening F.contents = L.listening := by
  obtain ⟨array, cell, keeps, of⟩ := sound
  rw [World.isListening, keeps.watched, of.listening]
  rfl

theorem Sound.lastSplices_eq (sound : F.Sound L w) {batch : List Splice}
    (last : L.last = some batch) : w.lastSplices F.contents = batch := by
  obtain ⟨array, cell, keeps, of⟩ := sound
  rw [World.lastSplices, keeps.watched]
  exact of.last batch last

/-- A notification is queued, once, if and only if something was collected. -/
theorem Sound.count_eq (sound : F.Sound L w) : w.tasks.microtasks.count (.contents F.contents) =
    if L.waiting ++ L.since = [] then 0 else 1 := by
  obtain ⟨array, cell, keeps, of⟩ := sound
  rw [keeps.queued, keeps.collected, of.pending]
  cases cell.pending <;> rfl

namespace Log

theorem refl (sound : F.Sound L w) : F.Log w L [] w L :=
  ⟨sound, (List.append_nil _).symm, rfl, rfl⟩

theorem trans (h : F.Log w L es w' L') (h' : F.Log w' L' es' w'' L'') :
    F.Log w L (es ++ es') w'' L'' where
  sound := h'.sound
  diary := by rw [h'.diary, h.diary, List.filter_append, List.append_assoc]
  flushing := h'.flushing.trans h.flushing
  admitted := Replay.append h.admitted h'.admitted

/-- A step, and a note of what it was. -/
theorem of_step {w₁ : World η} (sound : F.Sound L' w₁) (host : w₁.host = w.host)
    (flushing : w₁.tasks.flushing = w.tasks.flushing) (admitted : L.afterAll? es = some L')
    (all : es.filter (·.isNoted) = es) (noted : F.Notes es w₁ w') : F.Log w L es w' L' :=
  ⟨sound.of_notes noted, by rw [noted.diary, host, all], noted.flushing.trans flushing, admitted⟩

end Log

/-! ### Single deeds -/

/-- Another microtask. -/
theorem Sound.queue (sound : F.Sound L w) {task : Microtask} (h : F.microtask task)
    (other : task ≠ .contents F.contents) : F.Sound L (w.queueMicrotask task) := by
  obtain ⟨array, cell, keeps, of⟩ := sound
  refine ⟨array, cell, ⟨keeps.there, keeps.watched, keeps.about, keeps.sole, keeps.heard,
    keeps.callbacks, keeps.collected, ?_,
    List.forall_mem_append.2 ⟨keeps.waits, List.forall_mem_singleton.2 (.inr h)⟩⟩, of⟩
  rw [← keeps.queued]
  simp [World.queueMicrotask, other]

/-- Collecting a splice. -/
theorem Sound.collect (sound : F.Sound L w) (splice : Splice) :
    F.Sound { L with since := L.since ++ [splice] } (w.collectSplice F.contents splice) ∧
      (w.collectSplice F.contents splice).host = w.host ∧
      (w.collectSplice F.contents splice).tasks.flushing = w.tasks.flushing := by
  obtain ⟨array, cell, keeps, of⟩ := sound
  rw [World.collectSplice_eq keeps.watched]
  refine ⟨⟨array, { cell with pending := cell.pending ++ [splice], queued := true },
    ⟨keeps.there, ?_, keeps.about, ?_, keeps.heard, keeps.callbacks, ?_, ?_, ?_⟩,
    of.items, of.listening, ?_, of.last⟩, rfl, rfl⟩
  · rw [Store.get?_modify_self, keeps.watched, Option.map_some]
  · exact World.sole_modifyContents keeps.sole F.contents fun _ => rfl
  · simp
  · rw [List.count_append, keeps.queued]
    cases cell.queued <;> simp
  · refine List.forall_mem_append.2 ⟨keeps.waits, fun task m => ?_⟩
    split at m
    · cases m
    · exact .inl (List.mem_singleton.1 m)
  · rw [← List.append_assoc, of.pending]

/-- The items of the array, when nobody is told. -/
theorem Sound.withItems (sound : F.Sound L w) (items : List Value) :
    F.Sound { L with items } (w.withItems F.array items) := by
  obtain ⟨array, cell, keeps, of⟩ := sound
  exact ⟨_, cell, ⟨World.arrays_withItems keeps.there items, keeps.watched, keeps.about, keeps.sole,
    keeps.heard, keeps.callbacks, keeps.collected, keeps.queued, keeps.waits⟩,
    rfl, of.listening, of.pending, of.last⟩

/-- **An edit** is entered in the ledger. -/
theorem Sound.edit (sound : F.Sound L w) (env : Env η) (edit : Edit) :
    F.Sound (L.edited edit) (edit.run env F.array w).2 ∧
      (edit.run env F.array w).2.host = w.host ∧
      (edit.run env F.array w).2.tasks.flushing = w.tasks.flushing := by
  have stored := sound.withItems (edit.edited L.items)
  obtain ⟨array, cell, keeps, of⟩ := sound
  rw [Ledger.edited, of.items, Array.length_toList]
  rw [of.items] at stored
  by_cases fits : edit.Fits array.items.size
  · rw [Edit.run_of_fits keeps.there fits, if_pos fits, Listeners.toList, keeps.heard]
    cases listener : cell.listener with
    | none =>
      rw [if_neg (by rw [of.listening, listener]; exact Bool.false_ne_true)]
      exact ⟨stored, rfl, rfl⟩
    | some token =>
      rw [if_pos (by rw [of.listening, listener]; rfl)]
      exact stored.collect (edit.asSplice array.items.toList)
  · rw [Edit.run_of_not_fits keeps.there fits, if_neg fits]
    exact ⟨⟨array, cell, keeps, of⟩, rfl, rfl⟩

/-- **Subscribing** makes the observer listen, unless it does. -/
theorem Sound.subscribe (sound : F.Sound L w) {h : Ref .hook} (mine : F.callback h) :
    (∃ L', L.afterAll? (if w.isListening F.contents then [] else [.began]) = some L' ∧
      L'.last = L.last ∧ F.Sound L' (w.subscribeContents F.contents (.hook h)).2) ∧
      (w.subscribeContents F.contents (.hook h)).2.host = w.host ∧
      (w.subscribeContents F.contents (.hook h)).2.tasks = w.tasks := by
  have listening := sound.isListening_eq
  obtain ⟨array, cell, keeps, of⟩ := sound
  have subscribed : ∀ sub ∈ (cell.callbacks.add ⟨w.nextToken⟩ (.hook h)).toList,
      ∃ h, sub = .hook h ∧ F.callback h := by
    rw [Listeners.toList_add]
    exact List.forall_mem_append.2
      ⟨keeps.callbacks, List.forall_mem_singleton.2 ⟨h, rfl, mine⟩⟩
  rw [listening, of.listening]
  cases listener : cell.listener with
  | some token =>
    rw [World.subscribeContents_of_listening keeps.watched (by rw [listener]; rfl)]
    refine ⟨⟨L, rfl, rfl, array,
      { cell with callbacks := cell.callbacks.add ⟨w.nextToken⟩ (.hook h) },
      ⟨keeps.there, ?_, keeps.about, ?_, keeps.heard, subscribed, keeps.collected, keeps.queued,
        keeps.waits⟩, of.items, of.listening, of.pending, of.last⟩, rfl, rfl⟩
    · simp [World.modifyContents, keeps.watched]
    · exact World.sole_modifyContents keeps.sole F.contents fun _ => rfl
  | none =>
    have idle : L.listening = false := by rw [of.listening, listener]; rfl
    rw [World.subscribeContents_of_idle keeps.watched (keeps.about ▸ keeps.there) listener]
    refine ⟨⟨{ L with
        listening := true, base := L.items, since := [], waiting := L.waiting ++ L.since }, ?_, rfl,
      { array with listeners := array.listeners.add ⟨w.nextToken + 1⟩ (.contents F.contents) },
      { cell with
        callbacks := cell.callbacks.add ⟨w.nextToken⟩ (.hook h)
        listener := some ⟨w.nextToken + 1⟩ },
      ⟨?_, ?_, keeps.about, ?_, ?_, subscribed, keeps.collected, keeps.queued, keeps.waits⟩,
      of.items, rfl, ?_, of.last⟩, rfl, rfl⟩
    · refine Replay.singleton ?_
      rw [Ledger.after?, if_neg (by rw [idle]; exact Bool.false_ne_true)]
    · simp [keeps.about, keeps.there]
    · simp [keeps.watched]
    · exact World.sole_modifyContents keeps.sole F.contents fun _ => rfl
    · simp [Listeners.add, keeps.heard, listener]
    · rw [List.append_nil, of.pending]

/-- The observer keeps the ledger, or the one after it has ended to listen. -/
def Subsides (F : Lookout η) (L : Ledger) (w : World η) : Prop :=
  F.Sound L w ∨ ∃ L', L.after? .ended = some L' ∧ F.Sound L' w

/-- The observer ends to listen once. -/
theorem Subsides.step (h : F.Subsides L w) (step : ∀ {L}, F.Sound L w → F.Subsides L w') :
    F.Subsides L w' := by
  obtain sound | ⟨L', ended, sound⟩ := h
  · exact step sound
  · obtain sound' | ⟨L'', again, -⟩ := step sound
    · exact .inr ⟨L', ended, sound'⟩
    · obtain ⟨-, rfl⟩ := Ledger.after?_ended ended
      cases (Ledger.after?_ended again).1

/-- **Ending a registration** with the observer makes it end to listen if it was the last one. -/
theorem Sound.undoContents (sound : F.Sound L w) (t : Token) :
    F.Subsides L (w.undoCallback t (.leaf (.contents F.contents))).2 := by
  obtain ⟨array, cell, keeps, of⟩ := sound
  have fewer : ∀ sub ∈ (cell.callbacks.remove t).toList, ∃ h, sub = .hook h ∧ F.callback h := by
    intro sub m
    obtain ⟨p, kept, rfl⟩ := List.mem_map.1 m
    exact keeps.callbacks _ (List.mem_map_of_mem (List.mem_filter.1 kept).1)
  simp only [World.undoCallback, keeps.watched]
  split
  · cases listener : cell.listener with
    | none =>
      refine .inl ⟨array, { cell with callbacks := cell.callbacks.remove t, listener := none },
        ⟨keeps.there, ?_, keeps.about, ?_, ?_, fewer, keeps.collected, keeps.queued, keeps.waits⟩,
        of.items, ?_, of.pending, of.last⟩
      · simp [World.modifyContents, keeps.watched]
      · exact World.sole_modifyContents keeps.sole F.contents fun _ => rfl
      · rw [keeps.heard, listener]
      · rw [of.listening, listener]
    | some token =>
      refine .inr ⟨{ L with listening := false, since := [], waiting := L.waiting ++ L.since }, ?_,
        { array with listeners := array.listeners.remove token },
        { cell with callbacks := cell.callbacks.remove t, listener := none },
        ⟨?_, ?_, keeps.about, ?_, ?_, fewer, keeps.collected, keeps.queued, keeps.waits⟩,
        of.items, rfl, ?_, of.last⟩
      · rw [Ledger.after?, if_pos (by rw [of.listening, listener]; rfl)]
      · simp [World.unlistenSplices, World.modifyArray, World.modifyContents, keeps.about,
          keeps.there]
      · simp [World.unlistenSplices, World.modifyArray, World.modifyContents, keeps.watched]
      · exact World.sole_modifyContents keeps.sole F.contents fun _ => rfl
      · simp [Listeners.remove, keeps.heard, listener]
      · rw [List.append_nil, of.pending]
  · refine .inl ⟨array, { cell with callbacks := cell.callbacks.remove t },
      ⟨keeps.there, ?_, keeps.about, ?_, keeps.heard, fewer, keeps.collected, keeps.queued,
        keeps.waits⟩, of.items, of.listening, of.pending, of.last⟩
    · simp [World.modifyContents, keeps.watched]
    · exact World.sole_modifyContents keeps.sole F.contents fun _ => rfl

/-- Ending a registration with any observer. -/
theorem Sound.undoCallback (sound : F.Sound L w) (t : Token) (ob : Observer) :
    F.Subsides L (w.undoCallback t ob).2 := by
  by_cases is : ∃ r, ob = .leaf (.contents r)
  · obtain ⟨r, rfl⟩ := is
    by_cases own : r = F.contents
    · subst own
      exact sound.undoContents t
    -- another observer of contents is about another array
    have other : F.contents ≠ r := fun is => own is.symm
    have sole : ∀ {f : ContentsCell → ContentsCell}, (∀ cell, (f cell).array = cell.array) →
        w.Sole F.array F.contents → (w.modifyContents r f).Sole F.array F.contents :=
      fun same sole => World.sole_modifyContents sole r same
    have about : w.Sole F.array F.contents := by
      obtain ⟨_, _, keeps, _⟩ := sound
      exact keeps.sole
    simp only [World.undoCallback]
    split
    · exact .inl sound
    next cell get =>
      have apart : F.array ≠ cell.array := fun is => own (about r cell get is.symm)
      split
      · split
        · exact .inl (sound.of_same (Store.get?_modify_of_ne _ apart)
            (Store.get?_modify_of_ne _ other) (sole fun _ => rfl) rfl)
        · exact .inl (sound.of_same rfl (Store.get?_modify_of_ne _ other) (sole fun _ => rfl) rfl)
      · exact .inl (sound.of_same rfl (Store.get?_modify_of_ne _ other) (sole fun _ => rfl) rfl)
  · obtain ⟨arrays, contents⟩ := w.undoCallback_of_ne_contents t fun r e => is ⟨r, e⟩
    exact .inl (sound.of_eq arrays contents (w.undoCallback_tasks t ob).1)

/-- **Disposing a subscription.** -/
theorem Sound.dispose (sound : F.Sound L w) (s : Ref .subscription) :
    F.Subsides L (w.dispose s) ∧ (w.dispose s).tasks = w.tasks ∧ (w.dispose s).host = w.host := by
  refine World.disposeWithin_keeps (P := fun w' => F.Subsides L w' ∧ w'.tasks = w.tasks ∧
    w'.host = w.host) ?_ (World.undo_keeps ?_ ?_) _ s w ⟨.inl sound, rfl, rfl⟩
  · rintro w' s' ⟨h, tasks, host⟩
    exact ⟨h.step fun sound => .inl (sound.of_eq rfl rfl rfl), tasks, host⟩
  · rintro w' t ob ⟨h, tasks, host⟩
    obtain ⟨tasks', host'⟩ := w'.undoCallback_tasks t ob
    exact ⟨h.step fun sound => sound.undoCallback t ob, tasks'.trans tasks, host'.trans host⟩
  · rintro w' e t ⟨h, tasks, host⟩
    exact ⟨h.step fun sound => .inl (sound.of_eq rfl rfl rfl), tasks, host⟩

/-- **Every deed** keeps the ledger, and no notification begins by it. -/
theorem Log.of_deed (sound : F.Sound L w) (deed : F.Deed w w') :
    ∃ es L', F.Log w L es w' L' ∧ L'.last = L.last := by
  cases deed with
  | aside noted => exact ⟨[], L, .of_step sound rfl rfl rfl rfl noted, rfl⟩
  | queue h other noted =>
    exact ⟨[], L, .of_step (sound.queue h other) rfl rfl rfl rfl noted, rfl⟩
  | edit env edit noted =>
    obtain ⟨sound', host, flushing⟩ := sound.edit env edit
    refine ⟨_, _, .of_step sound' host flushing (Replay.singleton rfl) rfl noted, ?_⟩
    unfold Ledger.edited
    split <;> rfl
  | subscribe mine noted =>
    obtain ⟨⟨L', admitted, last, sound'⟩, host, tasks⟩ := sound.subscribe mine
    exact ⟨_, L', .of_step sound' host (by rw [tasks]) admitted (by split <;> rfl) noted, last⟩
  | dispose s noted =>
    obtain ⟨sound' | ⟨L', ended, sound'⟩, tasks, host⟩ := sound.dispose s
    · rw [sound.isListening_eq, sound'.isListening_eq, Bool.and_not_self] at noted
      exact ⟨[], L, .of_step sound' host (by rw [tasks]) rfl rfl noted, rfl⟩
    · obtain ⟨listening, rfl⟩ := Ledger.after?_ended ended
      rw [sound.isListening_eq, sound'.isListening_eq, listening] at noted
      exact ⟨_, _, .of_step sound' host (by rw [tasks]) (Replay.singleton ended) rfl noted, rfl⟩

end Lookout

end ViewBinding
