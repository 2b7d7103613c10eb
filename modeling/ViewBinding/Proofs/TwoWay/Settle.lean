import ViewBinding.Proofs.TwoWay.Ties

/-!
# TwoWay — settling

The targets that do not show the value of the source are those that a change still waits to be told
to (`Paying`).  A microtask tells them, so nothing is left to tell after the microtasks that waited
when the flush began (`drainMicrotasks_calm`) — unless the value of the source is not the same as
itself.  Then every target writes it back as a change, and there is always something left to tell
(`drainMicrotasks_restless`).
-/

namespace ViewBinding

namespace World

variable {η : Type} {w w' : World η} {vm : Ref .object} {p : String}

/-- Every bound target shows the value of the source, or a change of the source is due. -/
def Shown (w : World η) (vm : Ref .object) (p : String) : Prop :=
  ∀ b cell, w.bindings.get? b = some cell →
    w.Due vm p ∨ (w.get vm p).Agrees (w.elementGet cell.element "value")

/-- No change of the source to a value that is not the same as itself waits to be told. -/
def Calm (w : World η) (vm : Ref .object) (p : String) : Prop :=
  ¬ ((w.get vm p).IsNaN ∧ w.Due vm p ∧ ∃ b, w.bindings.contains b = true)

/-- While a microtask that began `calm` or not tells the subscribers `now` and then the leaves
`owed`: whoever does not show the value `x` of the source will be told it.  If it was calm then
the other microtasks are still `rest`; otherwise a change is due again or about to be made. -/
structure Paying (vm : Ref .object) (p : String) (x : Value) (rest : List Microtask) (calm : Prop)
    (now : List Subscriber) (owed : List Leaf) (w : World η) : Prop where
  ties : w.Ties vm p
  get : w.get vm p = x
  named : ∀ sub ∈ now, ∃ b, sub = .source b ∧ w.bindings.contains b = true
  listed : ∀ l ∈ owed, (∃ v, w.place? l = some v) ∧ ∀ sub ∈ w.told l,
    w.place? l = some (vm, p) ∧ ∃ b, sub = .source b ∧ w.bindings.contains b = true
  shown : ∀ b cell, w.bindings.get? b = some cell → w.Due vm p ∨
    x.Agrees (w.elementGet cell.element "value") ∨ .source b ∈ now ∨ ∃ l ∈ owed, .source b ∈ w.told l
  quiet : calm → w.tasks.microtasks = rest ∧ (x.IsNaN → now = [] ∧ (∀ l ∈ owed, w.told l = []) ∧
    (w.Due vm p → ∀ b, w.bindings.contains b = false))
  restless : ¬ calm → x.IsNaN ∧ (∃ b, w.bindings.contains b = true) ∧
    (w.Due vm p ∨ now ≠ [] ∨ ∃ l ∈ owed, w.told l ≠ [])

/-- What is told is told to those who are enrolled. -/
theorem Ties.told (T : w.Ties vm p) {l : Leaf} {o : Ref .object} {n : String}
    (at' : w.leafAt? o n = some l) {sub : Subscriber} (m : sub ∈ w.told l) :
    o = vm ∧ n = p ∧ ∃ b, sub = .source b ∧ w.bindings.contains b = true := by
  obtain ⟨t, m⟩ := mem_told.1 m
  obtain ⟨s, own, voice⟩ := T.wired.voiced o n l t sub at' m
  exact T.only s o n sub ⟨own, l, t, voice, at', m⟩

/-- A microtask takes what is due. -/
theorem Takes.paying {rest : List Microtask} {owed : List Leaf} (T : w.Ties vm p)
    (shown : w.Shown vm p) (takes : w.Takes w' rest owed) :
    Paying vm p (w.get vm p) rest (w.Calm vm p) [] owed w' := by
  have bindings : w'.bindings = w.bindings := congrArg Backdrop.bindings takes.backdrop
  have elements : w'.elements = w.elements := congrArg Backdrop.elements takes.backdrop
  have observers : w'.elementProperties = w.elementProperties :=
    congrArg Backdrop.elementProperties takes.backdrop
  have told : ∀ l, w'.told l = w.told l := fun l => told_congr (takes.audience l)
  have T' : w'.Ties vm p := T.carry takes.wired takes.config ((takes.contains vm).trans T.live)
    ((takes.isFrozen vm).trans T.unfrozen) takes.has (takes.doubled vm p) bindings
    (fun r e b h => h.of_eq takes.config elements observers)
    fun s o n sub => takes.toTunes.enrolled
  -- a change that is due is still due, or it is owed to those who are enrolled
  have passed : w.Due vm p → ∀ b cell, w.bindings.get? b = some cell →
      w'.Due vm p ∨ ∃ l ∈ owed, .source b ∈ w'.told l := by
    intro due b cell e
    by_cases due' : w'.Due vm p
    · exact .inl due'
    · obtain ⟨s, -, l, t, -, at', m⟩ := (T.paired b cell e).heard
      exact .inr ⟨l, takes.owes vm p l due due' at' (List.ne_nil_of_mem m),
        (told l).symm ▸ mem_told.2 ⟨t, m⟩⟩
  have listed : ∀ l ∈ owed, (∃ v, w.place? l = some v) ∧ ∀ sub ∈ w.told l,
      (w.place? l = some (vm, p) ∧ w.Due vm p) ∧ ∃ b, sub = .source b ∧
        w.bindings.contains b = true := by
    intro l m
    obtain ⟨o, n, at', due⟩ := takes.handed l m
    refine ⟨⟨_, (T.wired.current o n l at').1⟩, fun sub heard => ?_⟩
    obtain ⟨rfl, rfl, named⟩ := T.told at' heard
    exact ⟨⟨(T.wired.current _ _ l at').1, due⟩, named⟩
  refine ⟨T', takes.get vm p, fun _ m => (List.not_mem_nil m).elim, fun l m => ?_, ?_, fun calm => ?_, fun restless => ?_⟩
  · obtain ⟨placed, all⟩ := listed l m
    refine ⟨?_, fun sub heard => ?_⟩
    · rw [takes.place?]
      exact placed
    · obtain ⟨⟨place, -⟩, named⟩ := all sub (told l ▸ heard)
      exact ⟨(takes.place? l).trans place, bindings ▸ named⟩
  · intro b cell e
    rw [bindings] at e
    rcases shown b cell e with due | agrees
    · exact (passed due b cell e).imp id fun owes => .inr (.inr owes)
    · refine .inr (.inl ?_)
      simpa only [elementGet, elements] using agrees
  · refine ⟨congrArg Backdrop.microtasks takes.backdrop, fun nan => ⟨rfl, fun l m => ?_, ?_⟩⟩
    · refine List.eq_nil_iff_forall_not_mem.2 fun sub heard => calm ⟨nan, ?_⟩
      obtain ⟨⟨-, due⟩, b, -, there⟩ := (listed l m).2 sub (told l ▸ heard)
      exact ⟨due, b, there⟩
    · intro due b
      rw [bindings]
      cases there : w.bindings.contains b with
      | false => rfl
      | true => exact absurd ⟨nan, takes.due vm p due, b, there⟩ calm
  · obtain ⟨nan, due, b, there⟩ := Classical.not_not.1 restless
    refine ⟨nan, ⟨b, bindings ▸ there⟩, ?_⟩
    obtain ⟨cell, e⟩ := Option.isSome_iff_exists.1 there
    refine (passed due b cell e).imp id fun owes => ?_
    obtain ⟨l, m, heard⟩ := owes
    exact .inr ⟨l, m, List.ne_nil_of_mem heard⟩

/-! ### Telling -/

section
variable {x : Value} {rest : List Microtask} {calm : Prop} {now : List Subscriber}
  {owed : List Leaf} {host : Host η} {rounds rounds' depth : Nat} {cut : Prop}

/-- **Telling one subscriber.** -/
theorem Paying.announce {sub : Subscriber} (P : Paying vm p x rest calm (sub :: now) owed w)
    (old : Value) : ((machine host rounds (depth + 2)).announce sub x old).Ends cut w fun _ w' =>
      Paying vm p x rest calm now owed w' ∧ ∀ l, w'.place? l = w.place? l := by
  obtain ⟨b, rfl, there⟩ := P.named sub List.mem_cons_self
  obtain ⟨cell, e⟩ := Option.isSome_iff_exists.1 there
  refine (announce_source P.ties e P.get old).mono fun _ w' A => ⟨?_, A.place?⟩
  have told : ∀ l, w'.told l = w.told l := fun l => told_congr (A.audience l)
  have number : calm → ¬ x.IsNaN := fun c nan => by cases ((P.quiet c).2 nan).1
  refine ⟨A.ties, A.get, fun sub m => ?_, fun l m => ?_, fun b' cell' e' => ?_, fun c => ?_,
    fun restless => ?_⟩
  · rw [A.bindings]
    exact P.named sub (List.mem_cons_of_mem _ m)
  · rw [A.place?, told, A.bindings]
    exact P.listed l m
  · rw [A.bindings] at e'
    by_cases same : cell'.element = cell.element
    · exact .inr (.inl (same ▸ A.shown))
    · rw [A.others _ same]
      rcases P.shown b' cell' e' with due | agrees | m | ⟨l, m, heard⟩
      · exact .inl (A.due due)
      · exact .inr (.inl agrees)
      · rcases List.mem_cons.1 m with is | m
        · cases is
          rw [e] at e'
          cases e'
          exact absurd rfl same
        · exact .inr (.inr (.inl m))
      · exact .inr (.inr (.inr ⟨l, m, (told l).symm ▸ heard⟩))
  · exact ⟨(A.quiet (number c)).trans (P.quiet c).1, fun nan => absurd nan (number c)⟩
  · obtain ⟨nan, there, -⟩ := P.restless restless
    exact ⟨nan, A.bindings ▸ there, .inl (A.restless nan)⟩

/-- Telling everybody who is told now. -/
theorem Paying.announceAll (P : Paying vm p x rest calm now owed w) (old : Value) :
    ((machine host rounds (depth + 2)).announceAll now x old).Ends cut w fun _ w' =>
      Paying vm p x rest calm [] owed w' ∧ ∀ l, w'.place? l = w.place? l := by
  refine Run.ends_forEach (fun now w' => Paying vm p x rest calm now owed w' ∧
    ∀ l, w'.place? l = w.place? l) ⟨P, fun _ => rfl⟩ fun sub now w' h => ?_
  exact (h.1.announce old).mono fun _ w'' h' => ⟨h'.1, fun l => (h'.2 l).trans (h.2 l)⟩

/-- The subscribers of the first leaf owed are told now. -/
theorem Paying.turn {l : Leaf} (P : Paying vm p x rest calm [] (l :: owed) w) :
    Paying vm p x rest calm (w.told l) owed w where
  ties := P.ties
  get := P.get
  named sub heard := ((P.listed l List.mem_cons_self).2 sub heard).2
  listed l' m := P.listed l' (List.mem_cons_of_mem _ m)
  shown b cell e := by
    rcases P.shown b cell e with due | agrees | m | ⟨l', m, heard⟩
    · exact .inl due
    · exact .inr (.inl agrees)
    · cases m
    · rcases List.mem_cons.1 m with rfl | m
      · exact .inr (.inr (.inl heard))
      · exact .inr (.inr (.inr ⟨l', m, heard⟩))
  quiet c := by
    obtain ⟨same, quiet⟩ := P.quiet c
    refine ⟨same, fun nan => ?_⟩
    obtain ⟨-, none, due⟩ := quiet nan
    exact ⟨none l List.mem_cons_self, fun l' m => none l' (List.mem_cons_of_mem _ m), due⟩
  restless r := by
    obtain ⟨nan, there, due | none | ⟨l', m, heard⟩⟩ := P.restless r
    · exact ⟨nan, there, .inl due⟩
    · exact absurd rfl none
    · rcases List.mem_cons.1 m with rfl | m
      · exact ⟨nan, there, .inr (.inl heard)⟩
      · exact ⟨nan, there, .inr (.inr ⟨l', m, heard⟩)⟩

/-- Nothing changes for those who are to be told when a placeholder resolves itself. -/
theorem Paying.stays (P : Paying vm p x rest calm [] owed w) (stays : w.Stays w')
    (audience : ∀ l v, w.place? l = some v → w'.audience l = w.audience l) :
    Paying vm p x rest calm [] owed w' := by
  have bindings : w'.bindings = w.bindings := congrArg Backdrop.bindings stays.still.backdrop
  have elements : w'.elements = w.elements := congrArg Backdrop.elements stays.still.backdrop
  have observers : w'.elementProperties = w.elementProperties :=
    congrArg Backdrop.elementProperties stays.still.backdrop
  have config : w'.config = w.config := congrArg Backdrop.config stays.still.backdrop
  have tasks : w'.tasks.microtasks = w.tasks.microtasks :=
    congrArg Backdrop.microtasks stays.still.backdrop
  have told : ∀ l ∈ owed, w'.told l = w.told l := fun l m => by
    obtain ⟨v, place⟩ := (P.listed l m).1
    exact told_congr (audience l v place)
  have due := stays.still.due vm p
  refine ⟨P.ties.carry stays.wired config ((stays.still.contains vm).trans P.ties.live)
    ((stays.still.isFrozen vm).trans P.ties.unfrozen) stays.has (stays.still.doubled vm p) bindings
    (fun r e b h => h.of_eq config elements observers) stays.enrolled_iff,
    (stays.still.get vm p).trans P.get, nofun, fun l m => ?_, fun b cell e => ?_, fun c => ?_,
    fun r => ?_⟩
  · obtain ⟨⟨v, place⟩, all⟩ := P.listed l m
    refine ⟨⟨v, stays.place? l v place⟩, fun sub heard => ?_⟩
    obtain ⟨place, named⟩ := all sub (told l m ▸ heard)
    exact ⟨stays.place? l _ place, bindings ▸ named⟩
  · rw [bindings] at e
    rw [due]
    rcases P.shown b cell e with due | agrees | m | ⟨l, m, heard⟩
    · exact .inl due
    · refine .inr (.inl ?_)
      simpa only [elementGet, elements] using agrees
    · cases m
    · exact .inr (.inr (.inr ⟨l, m, (told l m).symm ▸ heard⟩))
  · obtain ⟨same, quiet⟩ := P.quiet c
    refine ⟨tasks.trans same, fun nan => ?_⟩
    obtain ⟨-, none, noDue⟩ := quiet nan
    refine ⟨rfl, fun l m => (told l m).trans (none l m), fun d => ?_⟩
    rw [bindings]
    exact noDue (due.1 d)
  · obtain ⟨nan, there, d | none | ⟨l, m, heard⟩⟩ := P.restless r
    · exact ⟨nan, bindings ▸ there, .inl (due.2 d)⟩
    · exact absurd rfl none
    · exact ⟨nan, bindings ▸ there, .inr (.inr ⟨l, m, (told l m).symm ▸ heard⟩)⟩

/-- **Telling pays.** -/
theorem pays_paying : Pays (machine host rounds (depth + 2)) cut
    (fun owed w => Paying vm p x rest calm [] owed w) where
  wired owed w P := P.ties.wired
  resolve u owed w P stays audience := P.stays stays audience
  tell l owed w o n old P place := by
    have same : (machine host rounds (depth + 2)).announceAll (w.told l) (w.get o n) old =
        (machine host rounds (depth + 2)).announceAll (w.told l) x old := by
      by_cases none : w.told l = []
      · rw [none]
        rfl
      · obtain ⟨sub, heard⟩ := List.exists_mem_of_ne_nil _ none
        obtain ⟨place', -⟩ := (P.listed l List.mem_cons_self).2 sub heard
        rw [place, Option.some.injEq, Prod.mk.injEq] at place'
        rw [place'.1, place'.2, P.get]
    rw [same]
    exact (P.turn.announceAll old).mono fun _ w' h => ⟨h.1, fun l p e => (h.2 l).trans e⟩

/-! ### Flushing -/

/-- Between the microtasks of a flush nobody is being told. -/
theorem Paying.between (P : Paying vm p x rest calm [] [] w) :
    w.Ties vm p ∧ w.Shown vm p ∧ w.get vm p = x ∧ (calm → w.tasks.microtasks = rest ∧ w.Calm vm p) ∧
      (¬ calm → ¬ w.Calm vm p) := by
  refine ⟨P.ties, fun b cell e => ?_, P.get, fun c => ?_, fun r calm' => ?_⟩
  · rw [P.get]
    rcases P.shown b cell e with due | agrees | m | ⟨l, m, -⟩
    · exact .inl due
    · exact .inr agrees
    · cases m
    · cases m
  · obtain ⟨same, quiet⟩ := P.quiet c
    refine ⟨same, ?_⟩
    rintro ⟨nan, due, b, there⟩
    obtain ⟨-, -, none⟩ := quiet (P.get ▸ nan)
    rw [none due b] at there
    cases there
  · obtain ⟨nan, there, due | none | ⟨l, m, -⟩⟩ := P.restless r
    · exact calm' ⟨P.get.symm ▸ nan, due, there⟩
    · exact none rfl
    · cases m

/-- **The microtasks come to an end**, unless there are too few rounds for those that wait. -/
theorem drainMicrotasks_calm (tasks : List Microtask) : ∀ (w : World η) (rounds ran : Nat),
    w.Ties vm p → w.Shown vm p → w.Calm vm p → w.tasks.microtasks = tasks →
      (rounds ≤ tasks.length → cut) →
        (Run.drainMicrotasks (machine host rounds' (depth + 2)) rounds ran).Ends cut w
          fun ran' w' => ran' = ran + tasks.length ∧ w'.Ties vm p ∧ w'.Shown vm p ∧
            w'.tasks.microtasks = [] := by
  intro w rounds ran T shown calm waiting enough
  refine (Run.ends_drainMicrotasks (fun tasks w => w.tasks.microtasks = tasks ∧ w.Ties vm p ∧
    w.Shown vm p ∧ w.Calm vm p) (fun _ _ h => h.1) ?_ tasks w rounds ran
      ⟨waiting, T, shown, calm⟩ enough).mono ?_
  · rintro task rest w ⟨waiting, T, shown, calm⟩
    refine (pays_paying.runMicrotask T.wired waiting
      fun w' owed takes => takes.paying T shown).mono fun _ w' P => ?_
    obtain ⟨T', shown', -, quiet, -⟩ := P.between
    obtain ⟨same, calm'⟩ := quiet calm
    exact ⟨same, T', shown', calm'⟩
  · rintro ran' w' ⟨rfl, idle, T', shown', -⟩
    exact ⟨rfl, T', shown', idle⟩

/-- **The microtasks never come to an end** when a change to a value that is not the same as itself is
to be told. -/
theorem drainMicrotasks_restless : ∀ (rounds : Nat) (w : World η) (ran : Nat), w.Ties vm p →
    w.Shown vm p → ¬ w.Calm vm p →
      (Run.drainMicrotasks (machine host rounds' (depth + 2)) rounds ran).Ends True w
        fun _ _ => False
  | 0, w, ran, _, _, _ => trivial
  | rounds + 1, w, ran, T, shown, restless => by
    obtain ⟨-, due, -⟩ := Classical.not_not.1 restless
    cases tasks : w.tasks.microtasks with
    | nil => exact absurd due (T.wired.not_due tasks vm p)
    | cons task rest =>
      simp only [Run.drainMicrotasks, Run.ends_bind, Run.ends_read, tasks, Run.ends_modify]
      refine (pays_paying.runMicrotask T.wired tasks
        fun w' owed takes => takes.paying T shown).mono fun _ w' P => ?_
      obtain ⟨T', shown', -, -, restless'⟩ := P.between
      exact drainMicrotasks_restless rounds w' (ran + 1) T' shown' (restless' restless)

/-- Whether a flush is running has no part in the ties. -/
theorem Ties.markFlushing (T : w.Ties vm p) (flushing : Bool) :
    (Run.markFlushing flushing w).Ties vm p :=
  T.spares ((aside_markFlushing w flushing).spares T.wired) rfl
    fun _ _ _ h => h.of_eq rfl rfl rfl

end

end World

end ViewBinding
