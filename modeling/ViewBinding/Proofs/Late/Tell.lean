import ViewBinding.Machine
import ViewBinding.Proofs.Late.Roster

/-!
# Late — telling

The hooks of a host take note of what they are told and do nothing that bears on who is told what
(`Tame`); those of a passive host leave everything that is watched as it is.  A microtask pays the
leaves that it owes something by calling their hooks (`Informing`), also where a placeholder resolves
itself on the way, so it calls the watches that hear through these leaves, every one of them once
(`Watched.runMicrotask`).  A flush calls the hooks whom the batch is to be told, and no batch is left
(`Attended.flush`).
-/

namespace ViewBinding

/-- What a hook was told. -/
structure Note where
  hook : Ref .hook
  new : Value
  old : Value

/-- The hook and the value that it was told. -/
def Note.call (note : Note) : Ref .hook × Value := (note.hook, note.new)

variable {η : Type}

/-- The hooks take note of what they are told.  They neither write nor deliver nor subscribe nor
dispose. -/
def Host.Passive (host : Host η) (notes : η → List Note) : Prop :=
  ∀ (env : Env η) (hook : Ref .hook) (new old : Value) (w : World η), w.Wired →
    (host.fire env hook (.changed new old)).Ends False w fun _ w' =>
      w.Harmless w' ∧ notes w'.host = notes w.host ++ [⟨hook, new, old⟩]

/-- The hooks take note of what they are told, and what else they do is in a relation. -/
def Host.TakesNote (host : Host η) (R : World η → World η → Prop) (notes : η → List Note) : Prop :=
  ∀ (env : Env η) (hook : Ref .hook) (new old : Value) (w : World η), w.Wired →
    (host.fire env hook (.changed new old)).Ends False w fun _ w' =>
      R w w' ∧ notes w'.host = notes w.host ++ [⟨hook, new, old⟩]

theorem Host.Passive.takesNote {host : Host η} {notes : η → List Note} (h : host.Passive notes) :
    host.TakesNote World.Harmless notes := h

namespace World

variable {w w' w₀ w₁ : World η} {o : Ref .object} {P : String → Prop} {roster : Roster}
  {watches : List Watch} {R : World η → World η → Prop} {host : Host η} {notes : η → List Note}
  {rounds depth : Nat} {cut : Prop} {total : List (Ref .hook × Value)} {rest : List Microtask}
  {owed : List Leaf}

/-- What may happen while somebody is told: nothing or one thing after the other, that placeholders
resolve themselves, and only what is harmless. -/
structure Tame (R : World η → World η → Prop) : Prop where
  harmless : ∀ {w w'}, R w w' → w.Harmless w'
  refl : ∀ {w : World η}, w.Wired → R w w
  trans : ∀ {w w' w''}, R w w' → R w' w'' → R w w''
  stays : ∀ {w w' : World η}, w.Stays w' → (∀ o, w'.slots o = w.slots o) →
    (∀ l v, w.place? l = some v → w'.audience l = w.audience l) → R w w'

theorem tame_harmless : Tame (Harmless (η := η)) := ⟨id, .refl, .trans, Stays.harmless⟩

/-- Telling hooks calls each of them once. -/
theorem announceAll_hooks (tame : Tame R) (takesNote : host.TakesNote R notes)
    {subs : List Subscriber} (hooks : ∀ sub ∈ subs, ∃ h, sub = .hook h) (new old : Value) :
    ∀ {w : World η}, w.Wired →
      ((machine host rounds (depth + 2)).announceAll subs new old).Ends cut w fun _ w' =>
        R w w' ∧ ∃ more, notes w'.host = notes w.host ++ more ∧
          more.map Note.call = subs.filterMap fun sub => sub.hook?.map fun h => (h, new) := by
  induction subs with
  | nil => exact fun {w} wired => ⟨tame.refl wired, [], (List.append_nil _).symm, rfl⟩
  | cons sub rest ih =>
    intro w wired
    obtain ⟨hook, rfl⟩ := hooks sub List.mem_cons_self
    obtain ⟨_, w₁, fired, first, noted⟩ :=
      (takesNote (machine host rounds depth) hook new old w wired).exists_eq_ok
    -- a machine fires hooks in the machine below it, as deep as its calls may nest
    have told : ((machine host rounds (depth + 2)).announce (.hook hook) new old) w = (.ok (), w₁) :=
      fired
    have wired₁ := (tame.harmless first).wired
    rw [Env.announceAll, Run.ends_forEach_cons, Run.ends_of_eq_ok told]
    refine (ih (fun sub m => hooks sub (List.mem_cons_of_mem _ m)) wired₁).mono ?_
    rintro _ w₂ ⟨others, more, noted', called⟩
    refine ⟨tame.trans first others, ⟨hook, new, old⟩ :: more, ?_, ?_⟩
    · rw [noted', noted, List.append_assoc]
      rfl
    · simp only [List.map_cons, called, List.filterMap_cons, Subscriber.hook?, Option.map_some]
      rfl

/-! ### Microtasks -/

/-- From the world `w₁` on hooks have been told: the leaves in `owed` are still to be told, and with
their calls the calls will be `total`. -/
structure Informing (R : World η → World η → Prop) (notes : η → List Note) (w₁ : World η)
    (total : List (Ref .hook × Value)) (owed : List Leaf) (w : World η) : Prop where
  since : R w₁ w
  listed : ∀ l ∈ owed, (∃ v, w₁.place? l = some v) ∧ ∀ sub ∈ w₁.told l, ∃ h, sub = .hook h
  tally : ∃ new, notes w.host = notes w₁.host ++ new ∧
    new.map Note.call ++ owed.flatMap w₁.calls = total

/-- A placeholder that resolves itself tells nobody. -/
theorem Informing.resolve (I : Informing R notes w₁ total owed w) (tame : Tame R)
    {u : Ref .placeholder} (stays : w.Stays (w.resolvePlaceholder u))
    (audience : ∀ l v, w.place? l = some v → (w.resolvePlaceholder u).audience l = w.audience l) :
    Informing R notes w₁ total owed (w.resolvePlaceholder u) := by
  have same : (w.resolvePlaceholder u).host = w.host :=
    congrArg Backdrop.host stays.still.backdrop
  exact ⟨tame.trans I.since (tame.stays stays (slots_resolvePlaceholder w u) audience), I.listed,
    same ▸ I.tally⟩

/-- The next leaf is told. -/
theorem Informing.tell {l : Leaf} (I : Informing R notes w₁ total (l :: owed) w) (tame : Tame R)
    (takesNote : host.TakesNote R notes) (attentive : w₁.Attentive) {n : String}
    (place : w.place? l = some (o, n)) (old : Value) :
    ((machine host rounds (depth + 2)).announceAll (w.told l) (w.get o n) old).Ends cut w
      fun _ w' => Informing R notes w₁ total owed w' ∧
        ∀ l p, w.place? l = some p → w'.place? l = some p := by
  have harmless := tame.harmless I.since
  obtain ⟨⟨v, place₁⟩, hooks⟩ := I.listed l List.mem_cons_self
  have told : w.told l = w₁.told l := told_congr (harmless.audience l v place₁)
  refine (announceAll_hooks tame takesNote (told ▸ hooks) (w.get o n) old harmless.wired).mono ?_
  rintro _ w' ⟨since, more, noted, called⟩
  obtain ⟨new, noted₁, tally⟩ := I.tally
  have first : w₁.calls l = more.map Note.call := by
    rw [← harmless.calls attentive place₁, called, calls,
      leafValue_of_place? harmless.wired.toAttentive place]
  refine ⟨⟨tame.trans I.since since, fun l m => I.listed l (List.mem_cons_of_mem _ m), new ++ more,
    ?_, ?_⟩, (tame.harmless since).place?⟩
  · rw [noted, noted₁, List.append_assoc]
  · rw [List.map_append, List.append_assoc, ← first, ← List.flatMap_cons]
    exact tally

/-- **Telling pays** for what a microtask has taken. -/
theorem pays_informing (tame : Tame R) (takesNote : host.TakesNote R notes) :
    Pays (machine host rounds (depth + 2)) cut fun owed w => ∃ w₁ taken,
      w₀.Takes w₁ rest taken ∧ Informing R notes w₁ (taken.flatMap w₁.calls) owed w where
  wired owed w h := by
    obtain ⟨w₁, taken, -, I⟩ := h
    exact (tame.harmless I.since).wired
  resolve u owed w h stays audience := by
    obtain ⟨w₁, taken, takes, I⟩ := h
    exact ⟨w₁, taken, takes, I.resolve tame stays audience⟩
  tell l owed w o n old h place := by
    obtain ⟨w₁, taken, takes, I⟩ := h
    refine (I.tell tame takesNote takes.wired.toAttentive place old).mono fun _ w' h => ?_
    exact ⟨⟨w₁, taken, takes, h.1⟩, h.2⟩

/-- **A microtask calls the hooks that hear of what it takes**, each once and with the value of the
property, where nothing is due at other objects. -/
theorem Watched.runMicrotask (W : w.Watched o watches) (alone : ∀ o' n, w.Due o' n → o' = o)
    (tame : Tame R) (takesNote : host.TakesNote R notes) {task : Microtask}
    (tasks : w.tasks.microtasks = task :: rest) :
    (Run.runMicrotask (machine host rounds (depth + 2)) task).Ends cut
      { w with tasks := { w.tasks with microtasks := rest } } fun _ w' => ∃ w₁ taken new,
        w.Takes w₁ rest taken ∧ R w₁ w' ∧ notes w'.host = notes w.host ++ new ∧
          (new.map Note.call).Perm
            ((watches.filter (·.isAmong w o taken)).map fun x => (x.hook, w.get o x.name)) := by
  -- nothing has been told when the leaves have just been taken
  have start : ∀ w₁ taken, w.Takes w₁ rest taken → ∃ w₂ taken',
      w.Takes w₂ rest taken' ∧ Informing R notes w₂ (taken'.flatMap w₂.calls) taken w₁ := by
    intro w₁ taken takes
    refine ⟨w₁, taken, takes, tame.refl takes.wired, fun l m => ?_, [], (List.append_nil _).symm, rfl⟩
    obtain ⟨o', n, at', due⟩ := takes.handed l m
    obtain rfl := alone o' n due
    refine ⟨⟨(o', n), (takes.place? l).trans (W.wired.current o' n l at').1⟩, fun sub told => ?_⟩
    rw [told_congr (takes.audience l)] at told
    exact W.exists_hook at' told
  refine ((pays_informing tame takesNote).runMicrotask W.wired tasks start).mono ?_
  rintro _ w' ⟨w₁, taken, takes, I⟩
  obtain ⟨new, noted, told⟩ := I.tally
  rw [List.flatMap_nil, List.append_nil] at told
  have host : w₁.host = w.host := congrArg Backdrop.host takes.backdrop
  exact ⟨w₁, taken, new, takes, I.since, host ▸ noted, told ▸ takes.calls_perm W alone⟩

/-! ### Flushes -/

/-- What a flush has still to do, of the calls that it was to make from `w₀` on. -/
structure Flushing (notes : η → List Note) (w₀ : World η) (o : Ref .object) (P : String → Prop)
    (roster : Roster) (w : World η) : Prop where
  attended : w.Attended o P roster
  get : ∀ n, w.get o n = w₀.get o n
  tally : ∃ new, notes w.host = notes w₀.host ++ new ∧
    (new.map Note.call ++ w.bulletin o roster.live).Perm (w₀.bulletin o roster.live)

/-- A microtask tells the batch. -/
theorem Flushing.runMicrotask (F : Flushing notes w₀ o P roster w) (passive : host.Passive notes)
    {task : Microtask} (tasks : w.tasks.microtasks = task :: rest) :
    (Run.runMicrotask (machine host rounds (depth + 2)) task).Ends cut
      { w with tasks := { w.tasks with microtasks := rest } } fun _ w' =>
        w'.tasks.microtasks = rest ∧ Flushing notes w₀ o P roster w' := by
  have A := F.attended
  obtain rfl := A.tasks task (tasks ▸ List.mem_cons_self)
  obtain ⟨new, noted, tally⟩ := F.tally
  have alone : ∀ o' n, w.Due o' n → o' = o := fun o' n due => ((A.due_iff o' n).1 due).1
  refine (A.watched.runMicrotask alone tame_harmless passive.takesNote tasks).mono ?_
  rintro _ w' ⟨w₁, taken, more, takes, since, noted', told⟩
  rw [takes.bulletin_eq A tasks] at told
  have A' := (A.takes takes fun task m => tasks ▸ List.mem_cons_of_mem _ m).harmless since
  have waiting : w'.tasks.microtasks = rest :=
    since.microtasks.trans (congrArg Backdrop.microtasks takes.backdrop)
  have idle : Microtask.deliver o ∉ rest := (List.nodup_cons.1 (tasks ▸ A.wired.tasks)).1
  refine ⟨waiting, A', fun n => (since.get o n).trans ((takes.get o n).trans (F.get n)), new ++ more,
    ?_, ?_⟩
  · rw [noted', noted, List.append_assoc]
  · rw [bulletin_eq_nil _ (A'.wired.batch_eq_nil (waiting ▸ idle)), List.append_nil, List.map_append]
    exact (told.append_left _).trans tally

/-- **A flush tells the batch.**  Each hook that the batch is to be told is called once, and nobody
else. -/
theorem Attended.flush (A : w.Attended o P roster) (rests : w.tasks.flushing = false)
    (passive : host.Passive notes) (enough : 2 ≤ rounds) :
    (Run.flushMicrotasks (machine host rounds (depth + 2))).Ends False w fun _ w' =>
      w'.Attended o P roster ∧ w'.tasks.flushing = false ∧ w'.batch o = [] ∧
        ∃ new, notes w'.host = notes w.host ++ new ∧
          (new.map Note.call).Perm (w.bulletin o roster.live) := by
  have begun := (aside_markFlushing w true).harmless A.wired
  have few : w.tasks.microtasks.length ≤ 1 := by
    have nodup := A.wired.tasks
    match h : w.tasks.microtasks with
    | [] => exact Nat.zero_le _
    | [_] => exact Nat.le_refl _
    | task :: task' :: _ =>
      have first := A.tasks task (h ▸ List.mem_cons_self)
      have second := A.tasks task' (h ▸ List.mem_cons_of_mem _ List.mem_cons_self)
      rw [h, first, second, List.nodup_cons] at nodup
      exact absurd List.mem_cons_self nodup.1
  rw [Run.ends_flush rests]
  refine (Run.ends_drainMicrotasks (fun tasks w' => w'.tasks.microtasks = tasks ∧
    Flushing notes w o P roster w') (fun _ _ h => h.1) (fun task rest w₁ h => ?_)
    w.tasks.microtasks (Run.markFlushing true w) _ 0 ⟨rfl, A.harmless begun, fun _ => rfl, [],
      (List.append_nil _).symm, .refl _⟩ fun less => ?_).mono ?_
  · exact h.2.runMicrotask passive h.1
  · change rounds ≤ _ at less
    omega
  · rintro _ w₁ ⟨-, idle, F⟩
    have ended := (aside_markFlushing w₁ false).harmless F.attended.wired
    obtain ⟨new, noted, tally⟩ := F.tally
    have empty : w₁.batch o = [] := F.attended.wired.batch_eq_nil (by simp [idle])
    rw [bulletin_eq_nil _ empty, List.append_nil] at tally
    exact ⟨F.attended.harmless ended, rfl, empty, new, noted, tally⟩

end World

end ViewBinding
