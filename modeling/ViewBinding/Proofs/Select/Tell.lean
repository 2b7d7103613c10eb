import ViewBinding.Proofs.Arrays.Edits
import ViewBinding.Proofs.Select.Assign

/-!
# Select — from an array to its options

Changing an array makes those who listen to it queue a notification (`Edit.gathers`), and the flush
that runs it brings the options of the select in step with the array (`flush_inStep`).  Other
changes of the view keep who hears of what (`Gathers`).

Hooks of the host may listen everywhere, as long as they change nothing but the state of the host
(`Host.Discreet`).
-/

namespace ViewBinding

/-- Hooks change nothing but the state of the host. -/
def Host.Discreet {η : Type} (host : Host η) : Prop :=
  ∀ env h occasion (w : World η), ∃ s, host.fire env h occasion w = (.ok (), { w with host := s })

/-- What an environment does for arrays and selects, when hooks change nothing but the state of the
host. -/
structure Env.Discreet {η : Type} (env : Env η) : Prop where
  fire : ∀ h occasion (w : World η), ∃ s, env.fire h occasion w = (.ok (), { w with host := s })
  hook : ∀ h new old (w : World η), ∃ s,
    env.announce (.hook h) new old w = (.ok (), { w with host := s })
  options : ∀ r new old (w : World η),
    env.announce (.options r) new old w = (.ok (), w.synchronizeOptions r)

theorem Host.Discreet.machine {η : Type} {host : Host η} (h : host.Discreet) (rounds depth : Nat) :
    (machine host rounds (depth + 2)).Discreet where
  fire hook occasion := h _ hook occasion
  hook hook new old := h _ hook (.changed new old)
  options _ _ _ _ := rfl

namespace World

variable {η : Type} {w w' w'' : World η} {r : Ref .select} {e : Ref .element} {a : Ref .array}
  {c : Ref .contents} {env : Env η} {cut : Prop}

theorem beside_host (w : World η) (s : η) : w.Beside { w with host := s } :=
  ⟨fun _ => rfl, rfl, rfl, rfl, rfl, Nat.le_refl _, fun _ => id⟩

/-- `w'` has all the registrations of `w` and of the select, and maybe more microtasks. -/
structure Gathers (w w' : World η) (r : Ref .select) (e : Ref .element) : Prop where
  menu : w'.Menu r e w'.tasks.microtasks
  heeds : ∀ {a c}, w.Heeds r a c → w'.Heeds r a c
  waiting : ∀ {task}, task ∈ w.tasks.microtasks → task ∈ w'.tasks.microtasks
  flushing : w'.tasks.flushing = w.tasks.flushing

/-- Besides, notifications of those who hear of the array `a` wait. -/
structure Rouses (w w' : World η) (r : Ref .select) (e : Ref .element) (a : Ref .array) : Prop
    extends Gathers w w' r e where
  told : ∀ {c}, w.Heeds r a c → .contents c ∈ w'.tasks.microtasks

theorem Gathers.trans (h : w.Gathers w' r e) (h' : w'.Gathers w'' r e) : w.Gathers w'' r e where
  menu := h'.menu
  heeds H := h'.heeds (h.heeds H)
  waiting m := h'.waiting (h.waiting m)
  flushing := h'.flushing.trans h.flushing

/-- What happens beside keeps everything if it queues nothing. -/
theorem Beside.gathers (h : w.Beside w') (M : w.Menu r e w.tasks.microtasks)
    (tasks : w'.tasks = w.tasks) : w.Gathers w' r e where
  menu := by
    rw [tasks]
    exact M.beside h
  heeds H := H.beside h
  waiting m := tasks ▸ m
  flushing := by rw [tasks]

/-! ### Arrays tell -/

/-- An observer of contents collects a splice, and its notification waits afterwards. -/
theorem Menu.collectSplice (M : w.Menu r e w.tasks.microtasks) (c : Ref .contents)
    (splice : Splice) : w.Gathers (w.collectSplice c splice) r e ∧
      (w.contents.contains c = true →
        .contents c ∈ (w.collectSplice c splice).tasks.microtasks) := by
  unfold World.collectSplice
  cases get : w.contents.get? c with
  | none => exact ⟨(Beside.refl w).gathers M rfl, fun some => by simp [Store.contains, get] at some⟩
  | some cell =>
    -- the observer remembers the splice, and a notification waits
    have collected : ∀ {waiting : List Microtask}, (∀ task ∈ w.tasks.microtasks, task ∈ waiting) →
        .contents c ∈ waiting → (∀ task ∈ waiting, IsMild task) →
        (w.modifyContents c fun cell =>
          { cell with pending := cell.pending ++ [splice], queued := true }).Menu r e waiting :=
      fun more waits mild => M.modifyContents (fun _ => rfl)
        (fun cell' s get' => M.told c cell' s get') (fun cell' t get' => M.listens c cell' t get')
        (fun _ _ _ => waits) (fun c' _ => more _) mild
    have heeds : ∀ {a c'}, w.Heeds r a c' → (w.modifyContents c fun cell =>
        { cell with pending := cell.pending ++ [splice], queued := true }).Heeds r a c' :=
      fun H => H.modifyContents (f := fun cell =>
        { cell with pending := cell.pending ++ [splice], queued := true })
        (fun _ => rfl) (fun _ => rfl) (fun _ => rfl) c
    simp only
    split
    next queued =>
      have waits := M.queued c cell get queued
      exact ⟨⟨collected (fun _ => id) waits M.mild, heeds, id, rfl⟩, fun _ => waits⟩
    next =>
      have waits : Microtask.contents c ∈ w.tasks.microtasks ++ [.contents c] :=
        List.mem_append_right _ List.mem_cons_self
      have more : ∀ task ∈ w.tasks.microtasks, task ∈ w.tasks.microtasks ++ [.contents c] :=
        fun _ => List.mem_append_left _
      have M' := collected more waits fun task m => by
        rcases List.mem_append.1 m with m | m
        · exact M.mild task m
        · exact List.mem_singleton.1 m ▸ .contents c
      exact ⟨⟨{ M' with }, fun H => ⟨(heeds H).value, (heeds H).hears⟩, more _, rfl⟩, fun _ => waits⟩

/-- **An array tells** about a splice, and whoever hears of it has a notification waiting. -/
theorem tellSplice_spec (D : env.Discreet) (M : w.Menu r e w.tasks.microtasks) (a : Ref .array)
    (splice : Splice) :
    (Run.tellSplice env a splice).Ends cut w fun _ w' => w.Rouses w' r e a := by
  have listeners : ((w.arrays.get? a).map (·.listeners.toList)).getD [] =
      (w.ears a).map (·.2) := by
    unfold ears
    cases w.arrays.get? a <;> rfl
  simp only [Run.tellSplice, Run.ends_bind, Run.ends_read, listeners]
  -- those that hear and have not been told have a notification waiting
  refine (Run.ends_forEach (fun rest w' => w.Gathers w' r e ∧ ∀ c, w.Heeds r a c →
    SpliceListener.contents c ∈ rest ∨ .contents c ∈ w'.tasks.microtasks) ?_ ?_).mono ?_
  · refine ⟨(Beside.refl w).gathers M rfl, fun c H => .inl ?_⟩
    obtain ⟨cell, t, get, rfl, listener, -⟩ := H.hears
    exact List.mem_map_of_mem (M.listens c cell t get listener)
  · rintro listener rest w' ⟨G, waits⟩
    cases listener with
    | contents c' =>
      obtain ⟨G', waits'⟩ := G.menu.collectSplice c' splice
      refine ⟨G.trans G', fun c H => ?_⟩
      obtain m | m := waits c H
      · obtain same | m := List.mem_cons.1 m
        · obtain ⟨cell, t, get, -⟩ := (G.heeds H).hears
          obtain rfl := SpliceListener.contents.inj same
          exact .inr (waits' (by simp only [Store.contains, get, Option.isSome_some]))
        · exact .inl m
      · exact .inr (G'.waiting m)
    | hook h =>
      obtain ⟨s, fired⟩ := D.fire h (.spliced splice) w'
      refine (Run.ends_of_eq_ok fired).2
        ⟨G.trans ((beside_host w' s).gathers G.menu rfl), fun c H => ?_⟩
      exact (waits c H).imp_left fun m => (List.mem_cons.1 m).resolve_left SpliceListener.noConfusion
  · rintro _ w' ⟨G, waits⟩
    exact ⟨G, fun H => (waits _ H).resolve_left List.not_mem_nil⟩

/-- Changing the items of an array tells about it. -/
theorem changeArray_spec {change : World η → Splice × World η} (D : env.Discreet)
    (M : w.Menu r e w.tasks.microtasks) (beside : w.Beside (change w).2)
    (tasks : (change w).2.tasks = w.tasks) :
    (Run.changeArray env a change).Ends cut w fun _ w' => w.Rouses w' r e a := by
  have G := beside.gathers M tasks
  simp only [Run.changeArray, Run.ends_bind, Run.ends_update]
  exact (tellSplice_spec D G.menu a _).mono fun _ w' T =>
    ⟨G.trans T.toGathers, fun H => T.told (G.heeds H)⟩

theorem beside_setItem (w : World η) (a : Ref .array) (index : Nat) (v : Value) :
    w.Beside (w.setItem a index v).2 ∧ (w.setItem a index v).2.tasks = w.tasks := by
  unfold setItem
  split
  · exact ⟨.refl w, rfl⟩
  · dsimp only
    split
    · exact ⟨beside_modifyArray fun _ => rfl, rfl⟩
    · exact ⟨beside_modifyArray fun _ => rfl, rfl⟩

theorem splice_spec (D : env.Discreet) (M : w.Menu r e w.tasks.microtasks) {index count : Nat}
    {added removed : List Value} (ran : Run.splice env a index count added w = (.ok removed, w')) :
    w.Rouses w' r e a := by
  obtain ⟨-, failed⟩ | ⟨-, ran⟩ := Run.ite_cases ran
  · cases failed
  · have spliced : (do
        let splice ← Run.changeArray env a fun w => w.spliceItems a index count added
        pure splice.removed).Ends False w fun _ w' => w.Rouses w' r e a := by
      rw [Run.ends_bind]
      exact changeArray_spec D M (beside_modifyArray fun _ => rfl) rfl
    exact (Run.ends_of_eq_ok ran).1 spliced

/-- **An edit that goes through** keeps who hears of what, and notifications of those who hear of
the array wait. -/
theorem edit_spec {edit : Edit} (D : env.Discreet) (M : w.Menu r e w.tasks.microtasks)
    (ran : edit.run env a w = (.ok (), w')) : w.Rouses w' r e a := by
  cases edit with
  | put index v =>
    obtain ⟨-, failed⟩ | ⟨-, ran⟩ := Run.ite_cases ran
    · cases failed
    · have put : (discard (Run.changeArray env a fun w => w.setItem a index v)).Ends False w
          fun _ w' => w.Rouses w' r e a := by
        rw [Run.ends_discard]
        exact changeArray_spec D M (beside_setItem w a index v).1 (beside_setItem w a index v).2
      exact (Run.ends_of_eq_ok ran).1 put
  | push v =>
    have pushed : (Run.pushItem env a v).Ends False w fun _ w' => w.Rouses w' r e a := by
      rw [Run.pushItem, Run.ends_discard]
      exact changeArray_spec D M (beside_modifyArray fun _ => rfl) rfl
    exact (Run.ends_of_eq_ok ran).1 pushed
  | splice index count added =>
    obtain ⟨_, spliced⟩ := Run.exists_of_discard ran
    exact splice_spec D M spliced
  | replace items =>
    obtain ⟨_, spliced⟩ := Run.exists_of_discard (x := Run.splice env a 0 (w.length a) items) ran
    exact splice_spec D M spliced

/-! ### The select is told -/

/-- Telling the select brings its options in step with the array that is its value. -/
theorem announceAll_spec {waiting : List Microtask} {subscribers : List Subscriber} (D : env.Discreet)
    (M : w.Menu r e waiting) (new old : Value)
    (known : ∀ s ∈ subscribers, s = .options r ∨ ∃ h, s = .hook h) :
    (env.announceAll subscribers new old).Ends cut w fun _ w' =>
      w.Beside w' ∧ w'.tasks = w.tasks ∧
        ∀ a, (w.selects.get? r).map (·.value) = some (.array a) →
          .options r ∈ subscribers ∨ w.InStep e a → w'.InStep e a := by
  refine (Run.ends_forEach (fun rest w' => w.Beside w' ∧ w'.tasks = w.tasks ∧
    (∀ s ∈ rest, s = .options r ∨ ∃ h, s = .hook h) ∧
    ∀ a, (w.selects.get? r).map (·.value) = some (.array a) →
      .options r ∈ subscribers ∨ w.InStep e a → .options r ∈ rest ∨ w'.InStep e a)
    ⟨.refl w, rfl, known, fun _ _ => id⟩ ?_).mono ?_
  · rintro s rest w' ⟨beside, tasks, known, inStep⟩
    have known' : ∀ s ∈ rest, s = .options r ∨ ∃ h, s = .hook h := fun s m =>
      known s (List.mem_cons_of_mem _ m)
    rcases known s List.mem_cons_self with rfl | ⟨h, rfl⟩
    · refine (Run.ends_of_eq_ok (D.options r new old w')).2 ?_
      have marks := marks_synchronizeOptions w' r
      refine ⟨beside.trans marks.beside, marks.tasks.trans tasks, known', fun a value _ => .inr ?_⟩
      obtain ⟨cell, get, rfl⟩ := Option.map_eq_some_iff.1 (M.beside beside).element
      refine inStep_synchronizeOptions get ?_
      rw [← beside.selects, get] at value
      exact Option.some.inj value
    · obtain ⟨s, fired⟩ := D.hook h new old w'
      refine (Run.ends_of_eq_ok fired).2
        ⟨beside.trans (beside_host w' s), tasks, known', fun a value was => ?_⟩
      exact (inStep a value was).imp_left fun m => (List.mem_cons.1 m).resolve_left
        Subscriber.noConfusion
  · rintro _ w' ⟨beside, tasks, -, inStep⟩
    exact ⟨beside, tasks, fun a value was => (inStep a value was).resolve_left List.not_mem_nil⟩

/-- **A notification of contents** that waited has been paid, and if the select hears of its array
from there, then its options are in step. -/
theorem tellContents_spec {rest : List Microtask} (D : env.Discreet)
    (M : w.Menu r e (.contents c :: rest)) :
    (Run.tellContents env c).Ends cut w fun _ w' =>
      w'.Menu r e rest ∧ w'.tasks = w.tasks ∧ ∀ a c', w.Heeds r a c' → w'.Heeds r a c' ∧
        (c' = c ∨ w.InStep e a → w'.InStep e a) := by
  have mild : ∀ task ∈ rest, IsMild task := fun task m => M.mild task (List.mem_cons_of_mem _ m)
  simp only [Run.tellContents, Run.ends_bind, Run.ends_read]
  cases get : w.contents.get? c with
  | none =>
    refine ⟨{ M with queued := fun c' cell get' queued => ?_, mild }, rfl, fun a c' H => ⟨H, fun is => ?_⟩⟩
    · refine (List.mem_cons.1 (M.queued c' cell get' queued)).resolve_left fun same => ?_
      obtain rfl := Microtask.contents.inj same
      cases get.symm.trans get'
    · refine is.resolve_left fun same => ?_
      subst same
      obtain ⟨cell, t, get', -⟩ := H.hears
      cases get.symm.trans get'
  | some cell =>
    -- the observer forgets the splices
    let f : ContentsCell → ContentsCell := fun cell =>
      { cell with queued := false, last := cell.pending, pending := [] }
    have paid : (w.modifyContents c f).Menu r e rest :=
      M.modifyContents (fun _ => rfl) (fun cell' s get' => M.told c cell' s get')
        (fun cell' t get' => M.listens c cell' t get') (fun _ _ queued => by cases queued)
        (fun c' ne m => (List.mem_cons.1 m).resolve_left fun same =>
          ne (Microtask.contents.inj same)) mild
    simp only [Run.ends_bind, Run.ends_modify, Run.ends_read]
    refine (announceAll_spec D paid _ _ fun s m => M.told c cell s get
      (List.mem_reverse.1 m)).mono ?_
    rintro _ w' ⟨beside, tasks, inStep⟩
    refine ⟨paid.beside beside, tasks, fun a c' H => ⟨?_, fun is => ?_⟩⟩
    · exact (H.modifyContents (f := f) (fun _ => rfl) (fun _ => rfl) (fun _ => rfl) c).beside beside
    · refine inStep a H.value (is.imp_left fun same => ?_)
      subst same
      obtain ⟨cell', t, get', -, -, m⟩ := H.hears
      obtain rfl := Option.some.inj (get'.symm.trans get)
      exact List.mem_reverse.2 m

/-- **A flush** ends after the microtasks that wait, and where the notification of an array waits that
the select hears of, the options of the select are in step with it afterwards. -/
theorem flush_spec (D : env.Discreet) (M : w.Menu r e w.tasks.microtasks)
    (rests : w.tasks.flushing = false) (enough : env.rounds ≤ w.tasks.microtasks.length → cut) :
    (Run.flushMicrotasks env).Ends cut w fun ran w' =>
      ran = w.tasks.microtasks.length ∧ w'.Menu r e [] ∧ w'.tasks.microtasks = [] ∧
        w'.tasks.flushing = false ∧ ∀ a c, w.Heeds r a c → w'.Heeds r a c ∧
          (.contents c ∈ w.tasks.microtasks → w'.InStep e a) := by
  rw [Run.ends_flush rests]
  -- while microtasks are left, the options are in step or a notification is among them
  let inv (rest : List Microtask) (w' : World η) : Prop :=
    w'.Menu r e rest ∧ w'.tasks.microtasks = rest ∧ ∀ a c, w.Heeds r a c → w'.Heeds r a c ∧
      (.contents c ∈ w.tasks.microtasks → .contents c ∈ rest ∨ w'.InStep e a)
  have started : inv w.tasks.microtasks (Run.markFlushing true w) := by
    have beside : w.Beside (Run.markFlushing true w) :=
      ⟨fun _ => rfl, rfl, rfl, rfl, rfl, Nat.le_refl _, fun _ => id⟩
    exact ⟨M.beside beside, rfl, fun a c H => ⟨H.beside beside, .inl⟩⟩
  refine (Run.ends_drainMicrotasks inv (fun _ _ I => I.2.1) ?_ w.tasks.microtasks _ env.rounds 0
    started enough).mono ?_
  · rintro task rest w' ⟨M', waiting, heeds⟩
    have beside : w'.Beside { w' with tasks := { w'.tasks with microtasks := rest } } :=
      ⟨fun _ => rfl, rfl, rfl, rfl, rfl, Nat.le_refl _, fun _ => id⟩
    cases M'.mild task List.mem_cons_self with
    | contents c =>
      refine (tellContents_spec D (M'.beside beside)).mono ?_
      rintro _ w'' ⟨M'', tasks, told⟩
      refine ⟨M'', congrArg TaskQueue.microtasks tasks, fun a c' H => ?_⟩
      obtain ⟨heed, inStep⟩ := told a c' ((heeds a c' H).1.beside beside)
      refine ⟨heed, fun waits => ?_⟩
      rcases (heeds a c' H).2 waits with m | is
      · rcases List.mem_cons.1 m with same | m
        · exact .inr (inStep (.inl (Microtask.contents.inj same)))
        · exact .inl m
      · exact .inr (inStep (.inr is))
    | hook h =>
      obtain ⟨s, fired⟩ := D.fire h .task { w' with tasks := { w'.tasks with microtasks := rest } }
      refine (Run.ends_of_eq_ok fired).2 ⟨?_, rfl, fun a c H => ⟨(heeds a c H).1.beside
        (beside.trans (beside_host _ s)), fun waits => ?_⟩⟩
      · refine Menu.beside { M'.beside beside with
          queued := fun c cell get queued => ?_
          mild := fun task m => M'.mild task (List.mem_cons_of_mem _ m) } (beside_host _ s)
        exact (List.mem_cons.1 (M'.queued c cell get queued)).resolve_left Microtask.noConfusion
      · exact ((heeds a c H).2 waits).imp_left fun m => (List.mem_cons.1 m).resolve_left
          Microtask.noConfusion
  · rintro ran w' ⟨rfl, M', none, heeds⟩
    have beside : w'.Beside (Run.markFlushing false w') :=
      ⟨fun _ => rfl, rfl, rfl, rfl, rfl, Nat.le_refl _, fun _ => id⟩
    refine ⟨Nat.zero_add _, M'.beside beside, none, rfl, fun a c H => ⟨(heeds a c H).1.beside beside,
      fun waits => ?_⟩⟩
    exact ((heeds a c H).2 waits).resolve_left List.not_mem_nil

/-! ### The view changes -/

/-- Children that come and go make selects look at their options. -/
theorem tellChildren_spec (D : env.Discreet) (w : World η) (o : Ref .element) :
    (Run.tellChildren env o).Ends cut w fun _ w' => w.Beside w' ∧ w'.tasks = w.tasks := by
  simp only [Run.tellChildren, Run.ends_bind, Run.ends_read]
  refine Run.ends_forEach (fun _ w' => w.Beside w' ∧ w'.tasks = w.tasks) ⟨.refl w, rfl⟩ ?_
  rintro listener rest w' ⟨beside, tasks⟩
  cases listener with
  | select r' =>
    have marks := marks_synchronizeOptions w' r'
    exact ⟨beside.trans marks.beside, marks.tasks.trans tasks⟩
  | hook h =>
    obtain ⟨s, fired⟩ := D.fire h .childList w'
    exact (Run.ends_of_eq_ok fired).2 ⟨beside.trans (beside_host w' s), tasks⟩

theorem appendChild_spec (D : env.Discreet) (w : World η) (o child : Ref .element) :
    (Run.appendChild env o child).Ends cut w fun _ w' => w.Beside w' ∧ w'.tasks = w.tasks := by
  simp only [Run.appendChild, Run.ends_bind, Run.ends_modify]
  exact (tellChildren_spec D _ o).mono fun _ _ told =>
    ⟨(beside_modifyElement w o _).trans told.1, told.2⟩

theorem removeChild_spec (D : env.Discreet) (w : World η) (o child : Ref .element) :
    (Run.removeChild env o child).Ends cut w fun _ w' => w.Beside w' ∧ w'.tasks = w.tasks := by
  simp only [Run.removeChild, Run.ends_bind, Run.ends_read]
  split
  · simp only [Run.ends_bind, Run.ends_modify]
    exact (tellChildren_spec D _ o).mono fun _ _ told =>
      ⟨(beside_modifyElement w o _).trans told.1, told.2⟩
  · exact ⟨.refl w, rfl⟩

/-- What a user picks is marked as selected. -/
theorem marks_pickOption (w : World η) (o : Ref .element) (index : Nat) (selected : Bool) :
    w.Marks (w.pickOption o index selected) := by
  have cleared : w.Marks (if !w.isMultiple o && selected then
      w.markOptions (w.options o) fun _ => false else w) := by
    split
    · exact marks_markOptions _ _ w
    · exact .refl w
  unfold pickOption
  dsimp only
  split
  · exact cleared.trans (marks_elementSet _ _ _)
  · exact cleared

theorem Heeds.modifySelect (H : w.Heeds r a c) {f : SelectCell → SelectCell}
    (value : ∀ cell, (f cell).value = cell.value) : (w.modifySelect r f).Heeds r a c where
  value := by rw [World.modifySelect, Store.map_get?_modify _ _ _ value, H.value]
  hears := H.hears

/-- A select that starts to look at its children keeps who hears of what. -/
theorem Menu.bindSelect (M : w.Menu r e w.tasks.microtasks) : w.Gathers (w.bindSelect r) r e := by
  unfold World.bindSelect
  split
  · exact (Beside.refl w).gathers M rfl
  next cell get =>
    split
    · exact (Beside.refl w).gathers M rfl
    · have listens : w.Beside (w.listenChildren cell.element (.select r)).2 :=
        ⟨fun _ => rfl, rfl, rfl, rfl, rfl, Nat.le_succ _, fun e' live =>
          (Store.contains_modify w.elements cell.element e' _).trans live⟩
      have G := listens.gathers M rfl
      exact ⟨G.menu.modifySelect (fun _ => rfl) (fun _ => rfl) G.menu.follows,
        fun H => (G.heeds H).modifySelect fun _ => rfl, G.waiting, G.flushing⟩

/-- **Unbinding** a select keeps the registrations in order. -/
theorem Menu.unbindSelect {waiting : List Microtask} (M : w.Menu r e waiting) :
    (w.unbindSelect r).Menu r e waiting ∧ (w.unbindSelect r).tasks = w.tasks := by
  unfold World.unbindSelect
  cases get : w.selects.get? r with
  | none => exact ⟨M, rfl⟩
  | some cell =>
    have left := M.modifySelect (f := fun cell => { cell with childList := none, array := none })
      (fun _ => rfl) (fun _ => rfl) fun _ _ _ _ none => by cases none
    have held : ∀ s d, cell.array = some s → w.disposal? s = some d →
        ∃ c t, d = .callback (.leaf (.contents c)) t := fun s d => M.follows cell s d get
    dsimp only
    split
    · obtain ⟨M', rewires⟩ := (left.beside (beside_modifyElement _ cell.element _)).disposeOption held
      exact ⟨M', rewires.tasks⟩
    · obtain ⟨M', rewires⟩ := left.disposeOption held
      exact ⟨M', rewires.tasks⟩

theorem beside_selectedValue (w : World η) (o : Ref .element) :
    w.Beside (w.selectedValue o).2 ∧ (w.selectedValue o).2.tasks = w.tasks := by
  unfold selectedValue
  dsimp only
  split
  · exact ⟨beside_newArray w _, rfl⟩
  · exact ⟨.refl w, rfl⟩

/-- **A change by the user** keeps the registrations in order.  If several options may be selected,
then the value is an array afterwards that nobody hears of. -/
theorem synchronizeValue_spec {waiting : List Microtask} (D : env.Discreet)
    (M : w.Menu r e waiting) :
    (Run.synchronizeValue env r).Ends cut w fun _ w' =>
      w'.Menu r e waiting ∧ w'.tasks = w.tasks ∧ (w.isMultiple e = true →
        ∃ a, (w'.selects.get? r).map (·.value) = some (.array a) ∧ w'.ears a = []) := by
  obtain ⟨cell, get, rfl⟩ := Option.map_eq_some_iff.1 M.element
  obtain ⟨made, tasks⟩ := beside_selectedValue w cell.element
  have rebuilt := (M.beside made).modifySelect
    (f := fun cell' => { cell' with value := (w.selectedValue cell.element).1, old := cell'.value })
    (fun _ => rfl) (fun _ => rfl) (M.beside made).follows
  have get' : (w.selectedValue cell.element).2.selects.get? r = some cell := made.selects ▸ get
  have now : ((w.selectedValue cell.element).2.modifySelect r fun cell' =>
      { cell' with value := (w.selectedValue cell.element).1, old := cell'.value }).selects.get? r =
        some { cell with value := (w.selectedValue cell.element).1, old := cell.value } := by
    rw [World.modifySelect, Store.get?_modify_self, get', Option.map_some]
  simp only [Run.synchronizeValue, Run.tellSelect, Run.ends_bind, Run.ends_read, Run.ends_update,
    Run.ends_modify, get, M.live, if_true, now]
  refine (announceAll_spec D rebuilt _ _ fun s m => .inr ?_).mono ?_
  · exact M.watched cell s get (List.mem_reverse.1 m)
  · rintro _ w' ⟨beside, tasks', -⟩
    refine ⟨rebuilt.beside beside, tasks'.trans tasks, fun multiple => ⟨w.arrays.next, ?_, ?_⟩⟩
    · rw [beside.selects, now]
      simp only [Option.map_some, selectedValue, multiple, if_true, newArray]
    · rw [beside.ears]
      change (w.selectedValue cell.element).2.ears _ = _
      rw [made.ears, ears, Store.get?_next]
      rfl

end World

end ViewBinding
