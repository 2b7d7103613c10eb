import ViewBinding.Proofs.Late.Tell

/-!
# Strategy — who hears of an object

An object is watched in one of two ways: its changes are recorded and a dispatcher hands the records
to the observers of its properties, or each property that is watched is trapped and tells on its own.
`w.Heard o names watches` says in one way of both that the properties in `names` hold what is written
to them, that the hooks of the watches hear of the properties of `o` and nobody else does, and that
nothing waits but to tell about `o`.

Writing a property, taking what a microtask tells, subscribing a hook and whatever writes nothing
(`World.Mild`) keep this.

However an object is watched, a flush tells each of its watches whose property is due once, and no
other (`Heard.flush`).  A microtask calls the watches that hear through the leaves it takes; so at
every microtask the calls that have been made and those of the names that are still due are together
what the flush was to report (`Reporting`).
-/

namespace ViewBinding

namespace World

variable {η : Type} {w w' w'' : World η} {o : Ref .object} {n : String} {names : List String}
  {watches : List Watch}

/-! ### Writing nothing -/

/-- What somebody may have done who writes nothing, freezes nothing and neither subscribes nor
disposes: the same changes are due. -/
structure Mild (w w' : World η) : Prop extends Harmless w w' where
  isFrozen : ∀ o, w'.isFrozen o = w.isFrozen o
  due : ∀ o n, w'.Due o n ↔ w.Due o n

theorem Mild.refl (h : w.Wired) : w.Mild w := ⟨.refl h, fun _ => rfl, fun _ _ => Iff.rfl⟩

theorem Mild.trans (h : w.Mild w') (h' : w'.Mild w'') : w.Mild w'' :=
  ⟨h.toHarmless.trans h'.toHarmless, fun o => (h'.isFrozen o).trans (h.isFrozen o),
    fun o n => (h'.due o n).trans (h.due o n)⟩

theorem Stays.mild (h : w.Stays w') (slots : ∀ o, w'.slots o = w.slots o)
    (audience : ∀ l v, w.place? l = some v → w'.audience l = w.audience l) : w.Mild w' :=
  ⟨h.harmless slots audience, h.still.isFrozen, h.still.due⟩

/-- Asking for observers writes nothing. -/
theorem Grows.mild (h : w.Grows w') (wired : w.Wired) (wired' : w'.Wired) : w.Mild w' :=
  have still := h.still wired.toAttentive
  ⟨h.harmless wired wired', still.isFrozen, still.due⟩

/-- Changes of other things write nothing. -/
theorem Aside.mild (h : w.Aside w') (wired : w.Wired) : w.Mild w' :=
  ⟨h.harmless wired, h.isFrozen, h.due⟩

theorem tame_mild : Tame (Mild (η := η)) :=
  ⟨fun h => h.toHarmless, .refl, .trans, Stays.mild⟩

/-! ### What microtasks are about -/

/-- What a microtask tells about: an object, or one of its properties. -/
def about? (w : World η) : Microtask → Option (Ref .object × Option String)
  | .deliver o => some (o, none)
  | .setter r => (w.place? (.setter r)).map fun p => (p.1, some p.2)
  | _ => none

variable {task task' : Microtask} {topic : Ref .object × Option String}

theorem about?_setter {r : Ref .setter} (place : w.place? (.setter r) = some (o, n)) :
    w.about? (.setter r) = some (o, some n) := by
  rw [about?, place, Option.map_some]

/-- Where leaves keep their places, microtasks are about what they were about. -/
theorem about?_mono (places : ∀ l v, w.place? l = some v → w'.place? l = some v)
    (e : w.about? task = some topic) : w'.about? task = some topic := by
  cases task with
  | setter r =>
    obtain ⟨v, place, rfl⟩ := Option.map_eq_some_iff.1 e
    rw [about?, places _ v place, Option.map_some]
  | _ => exact e

/-- Two microtasks are not about one thing. -/
theorem Located.eq_of_about? (h : w.Located) (e : w.about? task = some topic)
    (e' : w.about? task' = some topic) : task = task' := by
  cases task with
  | deliver o =>
    cases e
    cases task' with
    | deliver o' =>
      cases e'
      rfl
    | setter r =>
      obtain ⟨v, -, same⟩ := Option.map_eq_some_iff.1 e'
      cases (Prod.mk.inj same).2
    | _ => cases e'
  | setter r =>
    obtain ⟨⟨o, n⟩, place, rfl⟩ := Option.map_eq_some_iff.1 e
    cases task' with
    | deliver o' => cases (Prod.mk.inj (Option.some.inj e')).2
    | setter r' =>
      obtain ⟨⟨o', n'⟩, place', same⟩ := Option.map_eq_some_iff.1 e'
      obtain ⟨rfl, name⟩ := Prod.mk.inj same
      obtain rfl := Option.some.inj name
      have at' := h.leafAt?_of_setter place
      rw [h.leafAt?_of_setter place'] at at'
      cases at'
      rfl
    | _ => cases e'
  | _ => cases e

/-- A change that is due waits for a microtask about its object. -/
theorem Attentive.exists_task_of_due (a : w.Attentive) (due : w.Due o n) :
    ∃ task ∈ w.tasks.microtasks, ∃ m, w.about? task = some (o, m) := by
  rcases due with ⟨c, e, record, m, -⟩ | ⟨r, c, e, rfl, rfl, queued⟩
  · have waits := (a.scheduled o c e).1 (a.pending o c e (List.ne_nil_of_mem m)).1
    exact ⟨_, waits, none, rfl⟩
  · refine ⟨_, (a.queued r c e).1 queued, some c.property, about?_setter ?_⟩
    simp only [place?, e, Option.map_some]

/-! ### The invariant -/

/-- The object has watches, and nobody else hears of its properties.  Nothing waits but to tell about
the object and its properties with these names, which hold what is written to them. -/
structure Heard (w : World η) (o : Ref .object) (names : List String) (watches : List Watch) :
    Prop extends Watched w o watches where
  live : w.objects.contains o = true
  unfrozen : w.isFrozen o = false
  has : ∀ n ∈ names, w.has o n = true
  plain : ∀ n ∈ names, ¬ w.IsDoubled o n
  tasks : ∀ task ∈ w.tasks.microtasks, ∃ n ∈ none :: names.map some, w.about? task = some (o, n)

namespace Heard

theorem mild (H : w.Heard o names watches) (h : w.Mild w') : w'.Heard o names watches where
  toWatched := H.harmless h.toHarmless
  live := (h.contains o).trans H.live
  unfrozen := (h.isFrozen o).trans H.unfrozen
  has n m := by
    have slots := h.slots o
    rw [World.has, slot?_eq, slots, ← slot?_eq]
    exact H.has n m
  plain n m e := H.plain n m ((isDoubled_of_slots (h.slots o) n).1 e)
  tasks task m := by
    obtain ⟨n, m, about⟩ := H.tasks task (h.microtasks ▸ m)
    exact ⟨n, m, about?_mono h.place? about⟩

/-- A microtask has taken what it tells. -/
theorem takes {rest : List Microtask} {owed : List Leaf} (H : w.Heard o names watches)
    (h : w.Takes w' rest owed) (fewer : ∀ task ∈ rest, task ∈ w.tasks.microtasks) :
    w'.Heard o names watches where
  toWatched := H.tunes h.toTunes h.wired
  live := (h.contains o).trans H.live
  unfrozen := (h.isFrozen o).trans H.unfrozen
  has n m := (h.has o n).trans (H.has n m)
  plain n m e := H.plain n m (h.doubled o n e)
  tasks task m := by
    have waiting : w'.tasks.microtasks = rest := congrArg Backdrop.microtasks h.backdrop
    obtain ⟨n, m, about⟩ := H.tasks task (fewer task (waiting ▸ m))
    exact ⟨n, m, about?_mono (fun l v e => (h.place? l).trans e) about⟩

/-- One of the properties has been written. -/
theorem writes (H : w.Heard o names watches) (h : w.Writes w' o n) (named : n ∈ names)
    (there : w'.has o n = true) : w'.Heard o names watches where
  toWatched := H.tunes h.toTunes h.wired
  live := (h.contains o).trans H.live
  unfrozen := (h.isFrozen o).trans H.unfrozen
  has n' m := by
    by_cases same : n' = n
    · exact same ▸ there
    · exact (h.has o n' fun both => same both.2).trans (H.has n' m)
  plain n m e := H.plain n m (h.doubled o n e)
  tasks task m := by
    have places : ∀ l v, w.place? l = some v → w'.place? l = some v :=
      fun l v e => (h.place? l).trans e
    -- what was not waiting before is about the object or about the property written
    rcases h.tasks task m with m | rfl | ⟨r, rfl, place⟩
    · obtain ⟨n, m, about⟩ := H.tasks task m
      exact ⟨n, m, about?_mono places about⟩
    · exact ⟨none, List.mem_cons_self, rfl⟩
    · exact ⟨some n, List.mem_cons_of_mem _ (List.mem_map_of_mem named),
        about?_setter (places _ _ place)⟩

/-- A hook has been subscribed. -/
theorem subscribe (H : w.Heard o names watches) {s : Ref .subscription} {hook : Ref .hook}
    (follows : w.Follows w' s o n (.hook hook)) :
    w'.Heard o names (watches ++ [⟨s, n, hook⟩]) where
  toWatched := H.toWatched.subscribe follows
  live := (follows.still.contains o).trans H.live
  unfrozen := (follows.still.isFrozen o).trans H.unfrozen
  has n' m := follows.has o n' (H.has n' m)
  plain n' m e := H.plain n' m (follows.still.doubled o n' e)
  tasks task m := by
    have waiting : w'.tasks.microtasks = w.tasks.microtasks :=
      congrArg Backdrop.microtasks follows.still.backdrop
    obtain ⟨n', m, about⟩ := H.tasks task (waiting ▸ m)
    exact ⟨n', m, about?_mono follows.place? about⟩

/-- No more microtasks wait than there are names, and one. -/
theorem length_tasks_le (H : w.Heard o names watches) :
    w.tasks.microtasks.length ≤ names.length + 1 := by
  -- no two microtasks are about one thing, and there are no more things than that
  have distinct : (w.tasks.microtasks.map w.about?).Nodup := by
    refine List.Nodup.map_on (fun task m task' m' same => ?_) H.wired.tasks
    obtain ⟨n, -, about⟩ := H.tasks task m
    exact H.wired.eq_of_about? about (same ▸ about)
  have among : w.tasks.microtasks.map w.about? ⊆
      (none :: names.map some).map fun n => some (o, n) := by
    intro topic m
    obtain ⟨task, waits, rfl⟩ := List.mem_map.1 m
    obtain ⟨n, m, about⟩ := H.tasks task waits
    exact List.mem_map.2 ⟨n, m, about.symm⟩
  simpa using (List.subperm_of_subset distinct among).length_le

/-- Changes are due at the object only. -/
theorem eq_of_due (H : w.Heard o names watches) {o' : Ref .object} (due : w.Due o' n) : o' = o := by
  obtain ⟨task, m, n', about⟩ := H.wired.exists_task_of_due due
  obtain ⟨n'', -, about'⟩ := H.tasks task m
  exact (Prod.mk.inj (Option.some.inj (about.symm.trans about'))).1

end Heard

end World

/-! ### Telling what is due -/

variable {η : Type}

/-- The hooks take note of what they are told and write nothing. -/
def Host.Mild (host : Host η) (notes : η → List Note) : Prop :=
  host.TakesNote World.Mild notes

namespace World

variable {w w₀ w₁ : World η} {o : Ref .object} {names due left : List String}
  {watches : List Watch} {host : Host η} {notes : η → List Note} {rounds depth : Nat} {cut : Prop}
  {rest : List Microtask} {taken : List Leaf}

/-- What is to be reported of properties with these names: the hook of each of their watches, with the
value of the property. -/
def report (w : World η) (o : Ref .object) (watches : List Watch) (names : List String) :
    List (Ref .hook × Value) :=
  (watches.filter (·.name ∈ names)).map fun x => (x.hook, w.get o x.name)

/-- What a flush has still to do that reports the names `due` from `w₀` on. -/
structure Reporting (notes : η → List Note) (w₀ : World η) (o : Ref .object) (names : List String)
    (watches : List Watch) (due : List String) (w : World η) : Prop where
  heard : w.Heard o names watches
  get : ∀ o n, w.get o n = w₀.get o n
  tally : ∃ left, (∀ x ∈ watches, w.Due o x.name ↔ x.name ∈ left) ∧
    ∃ new, notes w.host = notes w₀.host ++ new ∧
      (new.map Note.call ++ w₀.report o watches left).Perm (w₀.report o watches due)

/-! ### Microtasks -/

/-- The names that are still due, after the leaves in `taken` have been told. -/
def stillDue (w : World η) (o : Ref .object) (taken : List Leaf) (left : List String) : List String :=
  left.filter fun n => !(w.leafAt? o n).any (· ∈ taken)

theorem mem_stillDue {x : Watch} :
    x.name ∈ w.stillDue o taken left ↔ x.name ∈ left ∧ ¬ x.isAmong w o taken = true := by
  simp [stillDue, Watch.isAmong]

/-- What is due after a microtask has taken what it tells. -/
theorem Watched.due_iff (W : w.Watched o watches) (takes : w.Takes w₁ rest taken)
    (due : ∀ x ∈ watches, w.Due o x.name ↔ x.name ∈ left) {x : Watch} (watched : x ∈ watches) :
    w₁.Due o x.name ↔ x.name ∈ w.stillDue o taken left := by
  rw [mem_stillDue, ← due x watched, takes.isAmong_iff W watched]
  constructor
  · intro due₁
    exact ⟨takes.due o x.name due₁, fun gone => gone.2 due₁⟩
  · rintro ⟨due₀, kept⟩
    exact Classical.byContradiction fun gone => kept ⟨due₀, gone⟩

/-- What is left to report is what a microtask tells, and what is still due then. -/
theorem Watched.report_perm (W : w.Watched o watches) (takes : w.Takes w₁ rest taken)
    (due : ∀ x ∈ watches, w.Due o x.name ↔ x.name ∈ left) :
    (((watches.filter (·.isAmong w o taken)).map fun x => (x.hook, w.get o x.name)) ++
      w.report o watches (w.stillDue o taken left)).Perm (w.report o watches left) := by
  -- the watches to be reported are those that hear through the leaves taken, and the others
  have told : watches.filter (·.isAmong w o taken) =
      (watches.filter (·.name ∈ left)).filter (·.isAmong w o taken) := by
    rw [List.filter_filter]
    refine List.filter_congr fun x watched => ?_
    cases among : x.isAmong w o taken with
    | false => rfl
    | true => simp [(due x watched).1 ((takes.isAmong_iff W watched).1 among).1]
  have others : watches.filter (·.name ∈ w.stillDue o taken left) =
      (watches.filter (·.name ∈ left)).filter fun x => !x.isAmong w o taken := by
    rw [List.filter_filter]
    refine List.filter_congr fun x _ => ?_
    simp [mem_stillDue, Bool.and_comm]
  rw [report, others, told, ← List.map_append]
  exact (List.filter_append_perm _ _).map _

/-- A microtask tells what it takes. -/
theorem Reporting.runMicrotask (R : Reporting notes w₀ o names watches due w)
    (mild : host.Mild notes) {task : Microtask} (tasks : w.tasks.microtasks = task :: rest) :
    (Run.runMicrotask (machine host rounds (depth + 2)) task).Ends cut
      { w with tasks := { w.tasks with microtasks := rest } } fun _ w' =>
        w'.tasks.microtasks = rest ∧ Reporting notes w₀ o names watches due w' := by
  have H := R.heard
  obtain ⟨left, isDue, new, noted, tally⟩ := R.tally
  have fewer : ∀ task ∈ rest, task ∈ w.tasks.microtasks :=
    fun task m => tasks ▸ List.mem_cons_of_mem _ m
  refine (H.runMicrotask (fun _ _ => H.eq_of_due) tame_mild mild tasks).mono ?_
  rintro _ w' ⟨w₁, taken, more, takes, since, noted', told⟩
  have waiting : w₁.tasks.microtasks = rest := congrArg Backdrop.microtasks takes.backdrop
  have values : ∀ names, w.report o watches names = w₀.report o watches names := fun names => by
    simp only [report, R.get]
  -- what was left to report is what this microtask tells and what is left after it
  have step := (told.append_right _).trans (H.report_perm takes isDue)
  rw [values, values] at step
  refine ⟨since.microtasks.trans waiting, (H.takes takes fewer).mild since,
    fun o n => ((since.get o n).trans (takes.get o n)).trans (R.get o n), w.stillDue o taken left,
    fun x watched => (since.due o x.name).trans (H.due_iff takes isDue watched), new ++ more, ?_, ?_⟩
  · rw [noted', noted, List.append_assoc]
  · rw [List.map_append, List.append_assoc]
    exact (step.append_left _).trans tally

/-! ### Flushes -/

/-- **A flush tells what is due.**  The hook of each watch of a property that is due is called once,
with the value of the property, and nobody else is called. -/
theorem Heard.flush (H : w.Heard o names watches) (rests : w.tasks.flushing = false)
    (isDue : ∀ x ∈ watches, w.Due o x.name ↔ x.name ∈ due) (mild : host.Mild notes)
    (enough : names.length + 2 ≤ rounds) :
    (Run.flushMicrotasks (machine host rounds (depth + 2))).Ends False w fun _ w' =>
      w'.Heard o names watches ∧ w'.tasks.flushing = false ∧ (∀ o n, w'.get o n = w.get o n) ∧
        (∀ x ∈ watches, ¬ w'.Due o x.name) ∧ ∃ new, notes w'.host = notes w.host ++ new ∧
          (new.map Note.call).Perm (w.report o watches due) := by
  have begun := (aside_markFlushing w true).mild H.wired
  have few := H.length_tasks_le
  rw [Run.ends_flush rests]
  refine (Run.ends_drainMicrotasks (fun tasks w' => w'.tasks.microtasks = tasks ∧
    Reporting notes w o names watches due w') (fun _ _ h => h.1) (fun task rest w₁ h => ?_)
    w.tasks.microtasks (Run.markFlushing true w) _ 0 ⟨rfl, H.mild begun, fun _ _ => rfl, due,
      fun x m => (begun.due o x.name).trans (isDue x m), [], (List.append_nil _).symm, .refl _⟩
    fun less => ?_).mono ?_
  · exact h.2.runMicrotask mild h.1
  · change rounds ≤ _ at less
    omega
  · rintro _ w₁ ⟨-, idle, R⟩
    have ended := (aside_markFlushing w₁ false).mild R.heard.wired
    obtain ⟨left, isDue, new, noted, tally⟩ := R.tally
    -- what is due has a microtask that waits, so nothing is left to report
    have none : ∀ x ∈ watches, ¬ w₁.Due o x.name := fun x _ isDue => by
      obtain ⟨task, m, -⟩ := R.heard.wired.exists_task_of_due isDue
      rw [idle] at m
      cases m
    have nothing : w.report o watches left = [] := by
      rw [report, List.map_eq_nil_iff, List.filter_eq_nil_iff]
      exact fun x m listed => none x m ((isDue x m).2 (of_decide_eq_true listed))
    rw [nothing, List.append_nil] at tally
    exact ⟨R.heard.mild ended, rfl, R.get, fun x m isDue => none x m ((ended.due o x.name).1 isDue),
      new, noted, tally⟩

end World

end ViewBinding
