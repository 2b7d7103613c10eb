import ViewBinding.Machine
import ViewBinding.Proofs.Arrays.Deeds

/-!
# Arrays — batches

A microtask of the observer begins a notification, which takes what was collected and tells the
callbacks; each of them finds what was taken with the observer (`Log.of_tell`, `Log.of_contents`).
What anybody does to the array meanwhile is collected anew.  So every flush keeps the ledger
(`Log.of_flush`), and so does every errand made of deeds and flushes, wherever it ends
(`Errand.batches`).

So whatever happens, a callback that is told finds what one notification took; and if nothing was
left over when the observer began to listen, that is what has happened to the array since then or
since the notification before, and taking it back gives the items from then (`batches_described`).
If something was left over, it finds that too (`leftover_told`).
-/

namespace ViewBinding

open ContentsCell (Event Ledger)

variable {η α : Type} {F : Lookout η} {w w' : World η} {env : Env η} {L : Ledger}

/-- A ledger that is `L` in `w` admits what happens until `w'`, whatever that is. -/
def Lookout.Logged (F : Lookout η) (L : Ledger) (w w' : World η) : Prop :=
  ∃ es L', F.Log w L es w' L'

/-- While a flush is running, an errand begins no notification. -/
theorem Errand.batches_of_flushing {x : Run η α} (errand : Errand F.env F.Deed x)
    (sound : F.Sound L w) (flushing : w.tasks.flushing = true) :
    x.Meets w (fun _ w' => ∃ es L', F.Log w L es w' L' ∧ L'.last = L.last)
      fun w' => ∃ es L', F.Log w L es w' L' ∧ L'.last = L.last := by
  refine errand.meets_of_flushing (fun _ h => h) ?_ ?_ ⟨[], L, .refl sound, rfl⟩
  · rintro w₁ w₂ ⟨es, L₁, log, last⟩ deed
    obtain ⟨es', L₂, log', last'⟩ := Lookout.Log.of_deed log.sound deed
    exact ⟨_, _, log.trans log', last'.trans last⟩
  · rintro w₁ ⟨es, L₁, log, -⟩
    exact log.flushing.trans flushing

namespace Lookout.Log

theorem logged_trans {es : List Event} {L₁ : Ledger} {w₁ : World η} (log : F.Log w L es w₁ L₁)
    (logged : F.Logged L₁ w₁ w') : F.Logged L w w' := by
  obtain ⟨es', L', log'⟩ := logged
  exact ⟨_, _, log.trans log'⟩

/-- What is logged from where a log ends is logged from where it begins. -/
theorem meets {es : List Event} {L₁ : Ledger} {w₁ : World η} (log : F.Log w L es w₁ L₁)
    {x : Run η α} (logs : x.Meets w' (fun _ => F.Logged L₁ w₁) (F.Logged L₁ w₁)) :
    x.Meets w' (fun _ => F.Logged L w) (F.Logged L w) :=
  logs.mono (fun _ _ => log.logged_trans) fun _ => log.logged_trans

/-- A callback finds what the last notification took. -/
theorem of_told {h : Ref .hook} {batch : List Splice} (sound : F.Sound L w)
    (last : L.last = some batch) (noted : F.Notes [.told h (w.lastSplices F.contents)] w w') :
    F.Log w L [.told h batch] w' L := by
  rw [sound.lastSplices_eq last] at noted
  refine .of_step sound rfl rfl (Replay.singleton ?_) rfl noted
  rw [Ledger.after?, if_pos last]

/-- The callbacks are told, and do errands meanwhile. -/
theorem of_tell (works : F.Works) (env' : F.env env) {new old : Value} {subs : List Subscriber}
    {batch : List Splice} (mine : ∀ sub ∈ subs, ∃ h, sub = .hook h ∧ F.callback h)
    (sound : F.Sound L w) (flushing : w.tasks.flushing = true) (last : L.last = some batch) :
    (env.announceAll subs new old).Meets w (fun _ => F.Logged L w) (F.Logged L w) := by
  refine (Run.meets_forEach subs (fun rest w' => (∀ sub ∈ rest, ∃ h, sub = .hook h ∧ F.callback h) ∧
    ∃ es L', F.Log w L es w' L' ∧ L'.last = some batch) ⟨mine, [], L, .refl sound, last⟩ ?_).mono
    (fun _ _ ⟨_, es, L', log, _⟩ => ⟨es, L', log⟩) fun _ h => h
  rintro sub rest w₁ ⟨mine, es, L₁, log, last₁⟩
  obtain ⟨h, rfl, callback⟩ := mine sub List.mem_cons_self
  have begins := works.callback env env' h callback new old
  generalize env.announce (.hook h) new old = x at begins
  cases begins with
  | cutOff => exact ⟨es, L₁, log⟩
  | @note f x noted errand =>
    have telling := of_told log.sound last₁ (noted w₁)
    refine Run.meets_bind.2 ((errand.batches_of_flushing telling.sound
      ((telling.flushing.trans log.flushing).trans flushing)).mono ?_ ?_)
    · rintro - w₂ ⟨es', L₂, log', last₂⟩
      exact ⟨fun sub m => mine sub (List.mem_cons_of_mem _ m), _, _, (log.trans telling).trans log',
        last₂.trans last₁⟩
    · rintro w₂ ⟨es', L₂, log', -⟩
      exact ⟨_, _, (log.trans telling).trans log'⟩

/-- A notification begins, and takes what was collected. -/
theorem of_took {rest : List Microtask} (sound : F.Sound L w)
    (next : w.tasks.microtasks = .contents F.contents :: rest) :
    ∃ L', F.Log w L [.took] ((w.withMicrotasks rest).modifyContents F.contents fun cell =>
        { cell with queued := false, last := cell.pending, pending := [] }) L' ∧
      L'.last = some (L.waiting ++ L.since) := by
  have count := sound.count_eq
  obtain ⟨array, cell, keeps, of⟩ := sound
  rw [next, List.count_cons_self] at count
  have some : L.waiting ++ L.since ≠ [] := fun none => by rw [if_pos none] at count; omega
  rw [if_neg some] at count
  let L' : Ledger := { L with
    base := L.items, since := [], waiting := [], last := Option.some (L.waiting ++ L.since) }
  have admitted : L.afterAll? [.took] = Option.some L' := by
    refine Replay.singleton ?_
    rw [Ledger.after?, if_neg some]
  refine ⟨L', ⟨⟨array, { cell with queued := false, last := cell.pending, pending := [] },
    ⟨keeps.there, ?_, keeps.about, ?_, keeps.heard, keeps.callbacks, rfl, ?_, ?_⟩,
    of.items, of.listening, rfl, ?_⟩, (List.append_nil _).symm, rfl, admitted⟩, rfl⟩
  · simp [World.modifyContents, World.withMicrotasks, keeps.watched]
  · exact World.sole_modifyContents (w := w.withMicrotasks rest) keeps.sole F.contents fun _ => rfl
  · exact Nat.add_right_cancel count
  · exact fun task m => keeps.waits task (next ▸ List.mem_cons_of_mem _ m)
  · intro batch last
    rw [← Option.some.inj last, of.pending]

/-- A microtask of the observer. -/
theorem of_contents (works : F.Works) (env' : F.env env) {rest : List Microtask}
    (sound : F.Sound L w) (next : w.tasks.microtasks = .contents F.contents :: rest)
    (flushing : w.tasks.flushing = true) :
    (Run.tellContents env F.contents).Meets (w.withMicrotasks rest) (fun _ => F.Logged L w)
      (F.Logged L w) := by
  obtain ⟨L₁, took, last⟩ := of_took sound next
  obtain ⟨array, cell, keeps, -⟩ := sound
  have there : (w.withMicrotasks rest).contents.get? F.contents = some cell := keeps.watched
  rw [Run.tellContents, Run.meets_bind, Run.meets_read, there]
  exact Run.meets_bind.2 (Run.meets_bind.2 (took.meets (of_tell works env'
    (fun sub m => keeps.callbacks sub (List.mem_reverse.1 m)) took.sound
    (took.flushing.trans flushing) last)))

/-- A microtask. -/
theorem of_microtask (works : F.Works) (env' : F.env env) {task : Microtask} {rest : List Microtask}
    (sound : F.Sound L w) (next : w.tasks.microtasks = task :: rest)
    (flushing : w.tasks.flushing = true) :
    (Run.runMicrotask env task).Meets (w.withMicrotasks rest) (fun _ => F.Logged L w)
      (F.Logged L w) := by
  by_cases is : task = .contents F.contents
  · subst is
    exact of_contents works env' sound next flushing
  · obtain ⟨array, cell, keeps, of⟩ := sound
    have mine := (keeps.waits task (next ▸ List.mem_cons_self)).resolve_left is
    have count := keeps.queued
    rw [next, List.count_cons_of_ne is] at count
    have popped : F.Log w L [] (w.withMicrotasks rest) L :=
      ⟨⟨array, cell, ⟨keeps.there, keeps.watched, keeps.about, keeps.sole, keeps.heard,
        keeps.callbacks, keeps.collected, count,
        fun other m => keeps.waits other (next ▸ List.mem_cons_of_mem _ m)⟩, of⟩,
        (List.append_nil _).symm, rfl, rfl⟩
    exact popped.meets (((works.microtask env env' task mine is).batches_of_flushing popped.sound
      flushing).mono (fun _ _ ⟨_, _, log, _⟩ => ⟨_, _, log⟩) fun _ ⟨_, _, log, _⟩ => ⟨_, _, log⟩)

/-- Whether a flush is running does not matter to the ledger. -/
theorem sound_markFlushing (flushing : Bool) (sound : F.Sound L w) :
    F.Sound L (Run.markFlushing flushing w) :=
  sound.of_same rfl rfl id rfl

/-- A flush. -/
theorem of_flush (works : F.Works) (env' : F.env env) (sound : F.Sound L w) :
    (Run.flushMicrotasks env).Meets w (fun _ => F.Logged L w) (F.Logged L w) := by
  cases flushing : w.tasks.flushing with
  | true =>
    rw [Run.meets_of_eq_ok (Run.flushMicrotasks_of_flushing env flushing)]
    exact ⟨[], L, refl sound⟩
  | false =>
    refine Run.meets_flush flushing ?_
    have unmark : ∀ {w'}, F.Logged L (Run.markFlushing true w) w' →
        F.Logged L w (Run.markFlushing false w') := fun ⟨es, L', log⟩ =>
      ⟨es, L', sound_markFlushing false log.sound, log.diary, flushing.symm, log.admitted⟩
    refine (Run.meets_drain (fun _ => F.Logged L (Run.markFlushing true w))
      (fun _ _ h => h) ?_ ⟨[], L, refl (sound_markFlushing true sound)⟩).mono
      (fun _ _ h => unmark h.1) fun _ h => unmark h
    rintro n task rest w₁ ⟨es, L₁, log⟩ next
    exact log.meets (of_microtask works env' log.sound next log.flushing)

end Lookout.Log

/-- **Every errand** keeps the ledger, wherever it ends. -/
theorem Errand.batches (works : F.Works) {x : Run η α} (errand : Errand F.env F.Deed x)
    (sound : F.Sound L w) :
    x.Meets w (fun _ => F.Logged L w) (F.Logged L w) := by
  refine errand.meets (F.Logged L w) (fun _ h => h) ?_ ?_
    ⟨[], L, .refl sound⟩
  · rintro w₁ w₂ ⟨es, L₁, log⟩ deed
    obtain ⟨es', L₂, log', -⟩ := Lookout.Log.of_deed log.sound deed
    exact ⟨_, _, log.trans log'⟩
  · rintro env w₁ env' ⟨es, L₁, log⟩
    exact log.meets (Lookout.Log.of_flush works env' log.sound)

/-! ### What callbacks find -/

namespace Lookout

/-- Nobody listens to the array, and nobody has subscribed to its only observer. -/
structure Fresh (F : Lookout η) (w : World η) (array : ArrayCell) (cell : ContentsCell) : Prop where
  there : w.arrays.get? F.array = some array
  watched : w.contents.get? F.contents = some cell
  about : cell.array = F.array
  sole : w.Sole F.array F.contents
  unheard : array.listeners.entries = []
  free : cell.callbacks.entries = []
  idle : cell.listener = none
  quiet : cell.queued = false
  empty : cell.pending = []
  waits : ∀ task ∈ w.tasks.microtasks, task ≠ .contents F.contents ∧ F.microtask task

variable {array : ArrayCell} {cell : ContentsCell}

/-- Then the ledger is opened. -/
theorem Fresh.sound (fresh : F.Fresh w array cell) : F.Sound (.opened (w.items F.array)) w := by
  refine ⟨array, cell, ⟨fresh.there, fresh.watched, fresh.about, fresh.sole, ?_, ?_, ?_, ?_, ?_⟩,
    World.items_eq fresh.there, ?_, fresh.empty.symm, nofun⟩
  · rw [fresh.unheard, fresh.idle]
    rfl
  · rw [Listeners.toList, fresh.free]
    exact fun _ m => absurd m List.not_mem_nil
  · rw [fresh.quiet, fresh.empty]
    rfl
  · rw [fresh.quiet]
    exact List.count_eq_zero.2 fun m => (fresh.waits _ m).1 rfl
  · exact fun task m => .inr (fresh.waits task m).2
  · rw [fresh.idle]
    rfl

end Lookout

/-- **What callbacks find** when they are told.  The array is changed, callbacks subscribe and
subscriptions are disposed, and flushes are run; callbacks and other microtasks may do so
themselves.  Wherever this ends, it has made events `es` of which the host wrote down those that it
has a part in, and a ledger that was opened with the items at the beginning admits them all and has
what there is now.

A callback that is told finds what the last notification took, and that is something: what had been
collected before the observer last began to listen and was not told, and all that has happened to
the array since then or since the notification before, in its order.  If nothing was left over then
something has happened since, and taking it back from the items that the notification found gives
the items from then. -/
theorem batches_described (works : F.Works) {array : ArrayCell} {cell : ContentsCell}
    (fresh : F.Fresh w array cell) {x : Run η α} (errand : Errand F.env F.Deed x)
    {outcome : Outcome α} (ended : x w = (outcome, w')) :
    ∃ es L, F.diary w'.host = F.diary w.host ++ es.filter (·.isNoted) ∧
      (Ledger.opened (w.items F.array)).afterAll? es = some L ∧
      w'.items F.array = L.items ∧
      w'.isListening F.contents = L.listening ∧
      w'.tasks.microtasks.count (.contents F.contents) =
        (if L.waiting ++ L.since = [] then 0 else 1) ∧
      ∀ before callback batch after, es = before ++ .told callback batch :: after →
        ∃ earlier later M, before = earlier ++ .took :: later ∧ .took ∉ later ∧
          (Ledger.opened (w.items F.array)).afterAll? earlier = some M ∧
          batch = M.waiting ++ M.since ∧ batch ≠ [] ∧
          (M.waiting = [] → M.listening = true ∧ M.since ≠ [] ∧
            Splice.undoAll batch M.items = M.base) := by
  obtain ⟨es, L, log⟩ := (errand.batches works fresh.sound).every fun _ _ h => h
  rw [ended] at log
  exact ⟨es, L, log.diary, log.admitted, log.sound.items_eq, log.sound.isListening_eq,
    log.sound.count_eq, fun _ _ _ _ is => Ledger.told log.admitted is⟩

/-! ### A grocer -/

namespace Grocer

/-- The list that the grocer keeps. -/
def list : Ref .array := ⟨0⟩

/-- The observer of the list. -/
def observer : Ref .contents := ⟨0⟩

/-- Writes down what happens to the list. -/
def jot (w : World (List Event)) (es : List Event) : World (List Event) :=
  { w with host := w.host ++ es }

/-- Changes the list and writes that down. -/
def edit (env : Env (List Event)) (edit : Edit) : Run (List Event) Unit :=
  Run.modify fun w => jot (edit.run env list w).2 [.edited edit]

/-- Subscribes a hook, and writes down if the observer begins to listen. -/
def subscribe (h : Ref .hook) : Run (List Event) Unit := Run.modify fun w =>
  jot (w.subscribeContents observer (.hook h)).2 (if w.isListening observer then [] else [.began])

/-- Disposes a subscription, and writes down if the observer ends to listen. -/
def dispose (s : Ref .subscription) : Run (List Event) Unit := Run.modify fun w =>
  jot (w.dispose s)
    (if w.isListening observer && !(w.dispose s).isListening observer then [.ended] else [])

/-- Keeps the list short. -/
def tidy (env : Env (List Event)) : Run (List Event) Unit := do
  if (← Run.read fun w => w.length list) > 2 then edit env (.splice 0 1 []) else pure ()

/-- Hooks write down what they find with the observer, and all but the first one keep the list
short. -/
def host : Host (List Event) where
  call _ _ _ _ := pure .undefined
  convert _ _ _ _ := pure none
  fire env h
    | .changed _ _ => do
      Run.modify fun w => jot w [.told h (w.lastSplices observer)]
      if h.index = 0 then pure () else tidy env
    | _ => pure ()
  late w := (false, w.host)

/-- Every hook may subscribe. -/
def lookout : Lookout (List Event) where
  array := list
  contents := observer
  env env := ∃ depth, env = machine host 9 depth
  callback _ := True
  microtask _ := False
  diary := id

theorem noted (w : World (List Event)) (es : List Event) : lookout.Notes es w (jot w es) :=
  ⟨rfl, rfl, id, rfl, rfl, rfl⟩

theorem edit_errand (env : Env (List Event)) (change : Edit) :
    Errand lookout.env lookout.Deed (edit env change) :=
  .modify fun _ => .edit env change (noted _ _)

theorem subscribe_errand (h : Ref .hook) : Errand lookout.env lookout.Deed (subscribe h) :=
  .modify fun _ => .subscribe trivial (noted _ _)

theorem dispose_errand (s : Ref .subscription) : Errand lookout.env lookout.Deed (dispose s) :=
  .modify fun _ => .dispose s (noted _ _)

theorem lookout_works : lookout.Works where
  callback := by
    rintro _ ⟨depth, rfl⟩ h - new old
    match depth with
    | 0 | 1 => exact .cutOff
    | depth + 2 =>
      refine .note (f := fun w => jot w [.told h (w.lastSplices observer)])
        (x := if h.index = 0 then pure () else tidy (machine host 9 depth)) (fun w => noted w _) ?_
      split
      · exact .pure _
      · refine .bind (.read _) fun n => ?_
        split
        · exact edit_errand _ _
        · exact .pure _
  microtask _ _ _ := False.elim

/-- The list is empty, and nobody has subscribed. -/
def morning : World (List Event) := (((World.new .standard []).newArray []).2.newContents list).2

theorem morning_fresh : lookout.Fresh morning { items := #[] } { array := list } where
  there := rfl
  watched := rfl
  about := rfl
  sole r cell get _ := by
    have first := Store.index_lt_size_of_get? get
    have one : morning.contents.size = 1 := rfl
    exact congrArg Ref.mk (Nat.lt_one_iff.1 (one ▸ first))
  unheard := rfl
  free := rfl
  idle := rfl
  quiet := rfl
  empty := rfl
  waits := nofun

/-- Two subscribe, and the list grows too long for the second one, who makes it shorter.  After the
next flush both leave and the first one comes back. -/
def day : Run (List Event) (Nat × Nat) := do
  subscribe ⟨0⟩
  subscribe ⟨1⟩
  edit (machine host 9 3) (.push (.string "a"))
  edit (machine host 9 3) (.push (.string "b"))
  edit (machine host 9 3) (.put 2 (.string "c"))
  let n ← Run.flushMicrotasks (machine host 9 3)
  dispose ⟨0⟩
  dispose ⟨1⟩
  subscribe ⟨0⟩
  edit (machine host 9 3) (.replace [])
  let m ← Run.flushMicrotasks (machine host 9 3)
  pure (n, m)

theorem day_errand : Errand lookout.env lookout.Deed day :=
  .bind (subscribe_errand _) fun _ => .bind (subscribe_errand _) fun _ =>
    .bind (edit_errand _ _) fun _ => .bind (edit_errand _ _) fun _ =>
    .bind (edit_errand _ _) fun _ => .bind (.flush ⟨3, rfl⟩) fun _ =>
    .bind (dispose_errand _) fun _ => .bind (dispose_errand _) fun _ =>
    .bind (subscribe_errand _) fun _ => .bind (edit_errand _ _) fun _ =>
    .bind (.flush ⟨3, rfl⟩) fun _ => .pure _

/-- What was told. -/
def batches (es : List Event) : List (List Splice) :=
  es.filterMap fun | .told _ batch => some batch | _ => none

/-- Both find the three changes; both find what the second one did about them; and the first one
finds what happened after it came back.  Each is what one notification took. -/
theorem day_batches : lookout.Works ∧ lookout.Fresh morning { items := #[] } { array := list } ∧
    Errand lookout.env lookout.Deed day ∧
    ∃ w, day morning = (.ok (2, 1), w) ∧
      batches w.host =
        [[⟨0, [], 1⟩, ⟨1, [], 1⟩, ⟨2, [], 1⟩], [⟨0, [], 1⟩, ⟨1, [], 1⟩, ⟨2, [], 1⟩],
          [⟨0, [.string "a"], 0⟩], [⟨0, [.string "a"], 0⟩],
          [⟨0, [.string "b", .string "c"], 0⟩]] ∧
      ∃ es L, w.host = es.filter (·.isNoted) ∧ (Ledger.opened []).afterAll? es = some L ∧
        w.items list = L.items ∧
        ∀ before callback batch after, es = before ++ .told callback batch :: after →
          ∃ earlier later M, before = earlier ++ .took :: later ∧
            (Ledger.opened []).afterAll? earlier = some M ∧ batch = M.waiting ++ M.since ∧
            batch ≠ [] := by
  obtain ⟨es, L, diary, admitted, items, -, -, told⟩ :=
    batches_described lookout_works morning_fresh day_errand
      (rfl : day morning = (_, (day morning).2))
  refine ⟨lookout_works, morning_fresh, day_errand, _, rfl, rfl, es, L, diary, admitted, items, ?_⟩
  intro before callback batch after is
  obtain ⟨earlier, later, M, split, -, found, took, some, -⟩ := told before callback batch after is
  exact ⟨earlier, later, M, split, found, took, some⟩

/-- The only subscriber leaves after a change, comes back after another one, and then there is a
third. -/
def evening : Run (List Event) Nat := do
  subscribe ⟨0⟩
  edit (machine host 9 3) (.push (.string "a"))
  dispose ⟨0⟩
  edit (machine host 9 3) (.push (.string "b"))
  subscribe ⟨0⟩
  edit (machine host 9 3) (.push (.string "c"))
  Run.flushMicrotasks (machine host 9 3)

/-- **Something left over.**  The one who came back when there were two items on the list finds the
first change and the third one, but not the second.  Taking back what it finds does not give the two
items. -/
theorem leftover_told : ∃ w, evening morning = (.ok 1, w) ∧
    w.host = [.began, .edited (.push (.string "a")), .ended, .edited (.push (.string "b")), .began,
      .edited (.push (.string "c")), .told ⟨0⟩ [⟨0, [], 1⟩, ⟨2, [], 1⟩]] ∧
    w.items list = [.string "a", .string "b", .string "c"] ∧
    Splice.undoAll [⟨0, [], 1⟩, ⟨2, [], 1⟩] (w.items list) ≠ [.string "a", .string "b"] := by
  refine ⟨_, rfl, rfl, rfl, ?_⟩
  decide +kernel

end Grocer

end ViewBinding
