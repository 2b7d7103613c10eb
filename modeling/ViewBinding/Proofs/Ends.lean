import ViewBinding.Tasks

/-!
# Ends — how a computation ends

`x.Ends cut w post` says of a computation `x` that starts from the world `w`: it gives a result and
a world that satisfy `post`.  It neither fails nor breaks off, and only if `cut` holds may it be cut
off instead; with `cut := False` it is total correctness.

The lemmas below take a computation apart along its structure, so that straight code is executed by
rewriting with them (`ends_bind`, `ends_read`, `ends_modify`, `ends_update`), and a loop by an
invariant (`ends_forEach`).
-/

namespace ViewBinding

namespace Run

variable {η α β : Type} {cut : Prop} {w : World η}

/-- From `w` the computation ends with a result and a world that satisfy `post`, or is cut off where
`cut` permits that. -/
def Ends (cut : Prop) (x : Run η α) (w : World η) (post : α → World η → Prop) : Prop :=
  match x w with
  | (.ok a, w') => post a w'
  | (.exhausted, _) => cut
  | _ => False

/-! ### Consequences -/

theorem Ends.mono {x : Run η α} {post post' : α → World η → Prop} (h : x.Ends cut w post)
    (weaker : ∀ a w', post a w' → post' a w') : x.Ends cut w post' := by
  unfold Ends at *
  split at h
  · exact weaker _ _ h
  · exact h
  · exact h.elim

/-- What is never cut off gives a result. -/
theorem Ends.exists_eq_ok {x : Run η α} {post : α → World η → Prop} (h : x.Ends False w post) :
    ∃ a w', x w = (.ok a, w') ∧ post a w' := by
  unfold Ends at h
  split at h
  next a w' e => exact ⟨a, w', e, h⟩
  · exact h.elim
  · exact h.elim

theorem ends_of_eq_ok {x : Run η α} {post : α → World η → Prop} {a : α} {w' : World η}
    (e : x w = (.ok a, w')) : x.Ends cut w post ↔ post a w' := by
  simp [Ends, e]

/-- A computation that ends in the world where it began does nothing. -/
theorem Ends.eq_ok {x : Run η Unit} (h : x.Ends False w fun _ w' => w' = w) :
    x w = (.ok (), w) := by
  obtain ⟨⟨⟩, w', ran, rfl⟩ := h.exists_eq_ok
  exact ran

/-- A computation gives what it gives, unless it is cut off. -/
theorem Ends.cases {x : Run η α} {post : α → World η → Prop} (h : x.Ends cut w post) :
    (∃ a w', x w = (.ok a, w') ∧ post a w') ∨ (∃ w', x w = (.exhausted, w')) ∧ cut := by
  unfold Ends at h
  split at h
  next a w' e => exact .inl ⟨a, w', e, h⟩
  next w' e => exact .inr ⟨⟨w', e⟩, h⟩
  · exact h.elim

/-- How a computation ends can be found out by running it. -/
instance {x : Run η α} {post : α → World η → Prop} [∀ a w', Decidable (post a w')] :
    Decidable (x.Ends False w post) :=
  match e : x w with
  | (.ok a, w') => decidable_of_iff (post a w') (ends_of_eq_ok e).symm
  | (.error _, _) | (.overflow, _) | (.exhausted, _) => .isFalse (by simp [Ends, e])

/-! ### Straight code -/

@[simp] theorem ends_pure {a : α} {post : α → World η → Prop} :
    (pure a : Run η α).Ends cut w post ↔ post a w := Iff.rfl

@[simp] theorem ends_pure' {a : α} {post : α → World η → Prop} :
    (Pure.pure a : Run η α).Ends cut w post ↔ post a w := Iff.rfl

@[simp] theorem ends_bind {x : Run η α} {f : α → Run η β} {post : β → World η → Prop} :
    (x >>= f).Ends cut w post ↔ x.Ends cut w fun a w' => (f a).Ends cut w' post := by
  change (Run.bind x f).Ends cut w post ↔ _
  unfold Ends Run.bind
  rcases x w with ⟨_ | _ | _ | _, w'⟩ <;> rfl

@[simp] theorem ends_map {x : Run η α} {f : α → β} {post : β → World η → Prop} :
    (f <$> x).Ends cut w post ↔ x.Ends cut w fun a w' => post (f a) w' :=
  ends_bind (f := fun a => Pure.pure (f a))

@[simp] theorem ends_discard {x : Run η α} {post : PUnit → World η → Prop} :
    (discard x : Run η PUnit).Ends cut w post ↔ x.Ends cut w fun _ w' => post ⟨⟩ w' :=
  ends_map

@[simp] theorem ends_world {post : World η → World η → Prop} :
    (world : Run η (World η)).Ends cut w post ↔ post w w := Iff.rfl

@[simp] theorem ends_read {f : World η → α} {post : α → World η → Prop} :
    (read f).Ends cut w post ↔ post (f w) w := Iff.rfl

@[simp] theorem ends_modify {f : World η → World η} {post : Unit → World η → Prop} :
    (modify f).Ends cut w post ↔ post () (f w) := Iff.rfl

@[simp] theorem ends_update {f : World η → α × World η} {post : α → World η → Prop} :
    (update f).Ends cut w post ↔ post (f w).1 (f w).2 := Iff.rfl

/-- A computation that does not fail is attempted with success. -/
theorem ends_attempt {x : Run η α} {post : Except BindingError α → World η → Prop}
    (h : x.Ends cut w fun a w' => post (.ok a) w') : x.attempt.Ends cut w post := by
  unfold Ends attempt at *
  rcases e : x w with ⟨_ | _ | _ | _, w'⟩ <;> simp_all

theorem ends_ignoreFailure {x : Run η Unit} {post : Unit → World η → Prop}
    (h : x.Ends cut w post) : (ignoreFailure x).Ends cut w post := by
  unfold ignoreFailure
  rw [ends_discard]
  exact ends_attempt (h.mono fun _ _ h => h)

theorem ends_ensuring {x : Run η α} {f : World η → World η} {post : α → World η → Prop} :
    (ensuring x f).Ends cut w post ↔ x.Ends cut w fun a w' => post a (f w') := by
  unfold Ends ensuring
  rcases x w with ⟨_ | _ | _ | _, w'⟩ <;> rfl

/-- A sequence gives a result when both of its parts do. -/
theorem bind_eq_ok {x : Run η α} {f : α → Run η β} {b : β} {w' : World η} :
    (x >>= f) w = (.ok b, w') ↔ ∃ a w₁, x w = (.ok a, w₁) ∧ f a w₁ = (.ok b, w') := by
  change Run.bind x f w = _ ↔ _
  unfold Run.bind
  rcases x w with ⟨a | _ | _ | _, w₁⟩
  · exact ⟨fun h => ⟨a, w₁, rfl, h⟩, fun ⟨_, _, e, h⟩ => by cases e; exact h⟩
  all_goals exact ⟨nofun, fun ⟨_, _, e, _⟩ => nomatch e⟩

/-- A sequence depends on what its first part does from there. -/
theorem bind_congr {x y : Run η α} {w w' : World η} (h : x w = y w') (f : α → Run η β) :
    (x >>= f) w = (y >>= f) w' := by
  change Run.bind x f w = Run.bind y f w'
  unfold Run.bind
  rw [h]

/-- A sequence goes on with the result of its first part. -/
theorem bind_of_ok {x : Run η α} {w' : World η} {b : α} (h : x w = (.ok b, w')) (f : α → Run η β) :
    (x >>= f) w = f b w' :=
  bind_congr (y := Pure.pure b) h f

theorem bind_read (f : World η → α) (g : α → Run η β) (w : World η) :
    (read f >>= g) w = g (f w) w := rfl

theorem bind_modify (f : World η → World η) (g : Unit → Run η β) (w : World η) :
    (modify f >>= g) w = g () (f w) := rfl

/-- A computation whose result is dropped has one. -/
theorem exists_of_discard {x : Run η α} {w' : World η}
    (h : (discard x : Run η PUnit) w = (.ok PUnit.unit, w')) : ∃ a, x w = (.ok a, w') := by
  change Run.bind x (fun _ => Run.pure PUnit.unit) w = _ at h
  unfold Run.bind at h
  split at h
  next a w₁ e => exact ⟨a, e.trans (congrArg (Prod.mk _) (Prod.mk.inj h).2)⟩
  all_goals cases h

/-- A choice ends the way that one of its sides ends. -/
theorem ite_cases {c : Prop} [Decidable c] {x y : Run η α} {ended : Outcome α × World η}
    (h : (if c then x else y) w = ended) : c ∧ x w = ended ∨ ¬ c ∧ y w = ended := by
  by_cases holds : c
  · exact .inl ⟨holds, by rwa [if_pos holds] at h⟩
  · exact .inr ⟨holds, by rwa [if_neg holds] at h⟩

/-! ### Loops -/

@[simp] theorem ends_forEach_nil {f : α → Run η Unit} {post : Unit → World η → Prop} :
    (forEach [] f).Ends cut w post ↔ post () w := Iff.rfl

@[simp] theorem ends_forEach_cons {a : α} {rest : List α} {f : α → Run η Unit}
    {post : Unit → World η → Prop} :
    (forEach (a :: rest) f).Ends cut w post ↔
      (f a).Ends cut w fun _ w' => (forEach rest f).Ends cut w' post :=
  ends_bind

theorem ends_forEach_append {items more : List α} {f : α → Run η Unit}
    {post : Unit → World η → Prop} :
    (forEach (items ++ more) f).Ends cut w post ↔
      (forEach items f).Ends cut w fun _ w' => (forEach more f).Ends cut w' post := by
  induction items generalizing w with
  | nil => rfl
  | cons a rest ih => simp only [List.cons_append, ends_forEach_cons, ih]

/-- **A loop keeps its invariant.**  `inv rest w` holds in `w` while the items `rest` are left. -/
theorem ends_forEach {f : α → Run η Unit} (inv : List α → World η → Prop) {items : List α}
    (start : inv items w)
    (step : ∀ a rest w, inv (a :: rest) w → (f a).Ends cut w fun _ w' => inv rest w') :
    (forEach items f).Ends cut w fun _ w' => inv [] w' := by
  induction items generalizing w with
  | nil => exact start
  | cons a rest ih =>
    rw [ends_forEach_cons]
    exact (step a rest w start).mono fun _ _ h => ih h

/-- **A flush runs the microtasks that wait**, and no others, if running the first of them leaves the
others waiting.  `inv tasks w` holds in `w` while the microtasks `tasks` are left. -/
theorem ends_drainMicrotasks {env : Env η} (inv : List Microtask → World η → Prop)
    (waiting : ∀ tasks w, inv tasks w → w.tasks.microtasks = tasks)
    (step : ∀ task rest w, inv (task :: rest) w →
      (runMicrotask env task).Ends cut { w with tasks := { w.tasks with microtasks := rest } }
        fun _ w' => inv rest w') (tasks : List Microtask) :
    ∀ (w : World η) (rounds ran : Nat), inv tasks w → (rounds ≤ tasks.length → cut) →
      (drainMicrotasks env rounds ran).Ends cut w
        fun ran' w' => ran' = ran + tasks.length ∧ inv [] w' := by
  induction tasks with
  | nil =>
    intro w rounds ran h enough
    cases rounds with
    | zero => exact enough (Nat.le_refl _)
    | succ rounds =>
      simp only [drainMicrotasks, ends_bind, ends_read, waiting [] w h]
      exact ⟨rfl, h⟩
  | cons task rest ih =>
    intro w rounds ran h enough
    cases rounds with
    | zero => exact enough (Nat.zero_le _)
    | succ rounds =>
      simp only [drainMicrotasks, ends_bind, ends_read, waiting _ w h, ends_modify]
      refine (step task rest w h).mono fun _ w' h' => ?_
      refine (ih w' rounds (ran + 1) h' fun few => enough (Nat.succ_le_succ few)).mono ?_
      rintro ran' w'' ⟨rfl, h''⟩
      exact ⟨by simp only [List.length_cons]; omega, h''⟩

/-- A flush that is not within a flush drains the microtasks, and marks when it begins and when it
ends. -/
theorem flushMicrotasks_of_rests (env : Env η) (rests : w.tasks.flushing = false) :
    flushMicrotasks env w =
      ensuring (drainMicrotasks env env.rounds 0) (markFlushing false) (markFlushing true w) := by
  rw [flushMicrotasks, bind_read, if_neg (by simp [rests]), bind_modify]

theorem ends_flush {env : Env η} {post : Nat → World η → Prop} (rests : w.tasks.flushing = false) :
    (flushMicrotasks env).Ends cut w post ↔ (drainMicrotasks env env.rounds 0).Ends cut
      (markFlushing true w) fun n w' => post n (markFlushing false w') := by
  have drains : (flushMicrotasks env).Ends cut w post ↔
      (ensuring (drainMicrotasks env env.rounds 0) (markFlushing false)).Ends cut
        (markFlushing true w) post := by
    simp only [Ends, flushMicrotasks_of_rests env rests]
  rw [drains, ends_ensuring]

end Run

end ViewBinding
