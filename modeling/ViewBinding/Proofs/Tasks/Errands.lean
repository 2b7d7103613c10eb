import ViewBinding.Proofs.Ends

/-!
# Tasks — errands

What a task or a listener of the host does may depend on all that it sees.  It is an `Errand`: made
of single steps, of which a relation between worlds says what they may be, and of flushes, which run
the errands of other tasks unless a flush is running.

`x.Meets w post fin` says of a computation that starts from `w`: it gives a result and a world that
satisfy `post`, or ends otherwise in a world that satisfies `fin`.  What is to hold at every moment
is what holds wherever a computation ends, since an errand may be cut off at any moment.

An invariant of the steps and of the flushes is one of the errands (`Errand.meets`), and an invariant
of the microtasks is one of draining them (`meets_drain`).
-/

namespace ViewBinding

namespace World

variable {η : Type}

/-- The world with other microtasks. -/
def withMicrotasks (w : World η) (microtasks : List Microtask) : World η :=
  { w with tasks := { w.tasks with microtasks } }

/-- The world with other frame tasks. -/
def withFrames (w : World η) (frames : List FrameTask) : World η :=
  { w with tasks := { w.tasks with frames } }

end World

namespace Run

variable {η α β : Type} {w : World η} {fin : World η → Prop}

/-- From `w` the computation gives a result and a world that satisfy `post`, or ends without a result
in a world that satisfies `fin`. -/
def Meets (x : Run η α) (w : World η) (post : α → World η → Prop) (fin : World η → Prop) : Prop :=
  match x w with
  | (.ok a, w') => post a w'
  | (_, w') => fin w'

theorem Meets.mono {x : Run η α} {post post' : α → World η → Prop} {fin' : World η → Prop}
    (h : x.Meets w post fin) (weaker : ∀ a w', post a w' → post' a w')
    (weaker' : ∀ w', fin w' → fin' w') : x.Meets w post' fin' := by
  unfold Meets at *
  rcases e : x w with ⟨_ | _ | _ | _, w'⟩ <;> rw [e] at h
  · exact weaker _ _ h
  all_goals exact weaker' _ h

/-- Where the computation gives a result. -/
theorem Meets.of_eq_ok {x : Run η α} {post : α → World η → Prop} (h : x.Meets w post fin) {a : α}
    {w' : World η} (e : x w = (.ok a, w')) : post a w' := by
  unfold Meets at h
  rwa [e] at h

/-- The postcondition may speak of the run itself. -/
theorem Meets.traced {x : Run η α} {post : α → World η → Prop} (h : x.Meets w post fin) :
    x.Meets w (fun a w' => x w = (.ok a, w') ∧ post a w') fin := by
  unfold Meets at *
  rcases e : x w with ⟨_ | _ | _ | _, w'⟩ <;> rw [e] at h
  · exact ⟨rfl, h⟩
  all_goals exact h

/-- What a computation meets depends on what it does from there. -/
theorem Meets.of_eq {x y : Run η α} {post : α → World η → Prop} (h : y.Meets w post fin)
    (same : x w = y w) : x.Meets w post fin := by
  unfold Meets at *
  rwa [same]

/-- Wherever the computation ends. -/
theorem Meets.every {x : Run η α} {post : α → World η → Prop} (h : x.Meets w post fin)
    (weaker : ∀ a w', post a w' → fin w') : fin (x w).2 := by
  unfold Meets at h
  rcases e : x w with ⟨_ | _ | _ | _, w'⟩ <;> rw [e] at h
  · exact weaker _ _ h
  all_goals exact h

theorem meets_of_eq_ok {x : Run η α} {post : α → World η → Prop} {a : α} {w' : World η}
    (e : x w = (.ok a, w')) : x.Meets w post fin ↔ post a w' := by
  unfold Meets
  rw [e]

@[simp] theorem meets_pure {a : α} {post : α → World η → Prop} :
    (Pure.pure a : Run η α).Meets w post fin ↔ post a w := Iff.rfl

@[simp] theorem meets_read {f : World η → α} {post : α → World η → Prop} :
    (read f).Meets w post fin ↔ post (f w) w := Iff.rfl

@[simp] theorem meets_modify {f : World η → World η} {post : Unit → World η → Prop} :
    (modify f).Meets w post fin ↔ post () (f w) := Iff.rfl

@[simp] theorem meets_update {f : World η → α × World η} {post : α → World η → Prop} :
    (update f).Meets w post fin ↔ post (f w).1 (f w).2 := Iff.rfl

@[simp] theorem meets_cutOff {post : α → World η → Prop} :
    (cutOff : Run η α).Meets w post fin ↔ fin w := Iff.rfl

@[simp] theorem meets_bind {x : Run η α} {f : α → Run η β} {post : β → World η → Prop} :
    (x >>= f).Meets w post fin ↔ x.Meets w (fun a w' => (f a).Meets w' post fin) fin := by
  change (Run.bind x f).Meets w post fin ↔ _
  unfold Meets Run.bind
  rcases x w with ⟨_ | _ | _ | _, w'⟩ <;> rfl

@[simp] theorem meets_discard {x : Run η α} {post : PUnit → World η → Prop} :
    (discard x : Run η PUnit).Meets w post fin ↔ x.Meets w (fun _ w' => post ⟨⟩ w') fin :=
  meets_bind (f := fun _ => Pure.pure PUnit.unit)

/-- **A loop keeps its invariant.**  `inv rest w` holds in `w` while the items `rest` are left. -/
theorem meets_forEach {f : α → Run η Unit} (items : List α) (inv : List α → World η → Prop)
    (start : inv items w)
    (step : ∀ a rest w, inv (a :: rest) w → (f a).Meets w (fun _ w' => inv rest w') fin) :
    (forEach items f).Meets w (fun _ w' => inv [] w') fin := by
  induction items generalizing w with
  | nil => exact start
  | cons a rest ih =>
    exact meets_bind.2 ((step a rest w start).mono (fun _ _ h => ih h) fun _ h => h)

/-! ### Flushing -/

variable {env : Env η}

/-- A flush within a flush does nothing. -/
theorem flushMicrotasks_of_flushing (env : Env η) (flushing : w.tasks.flushing = true) :
    flushMicrotasks env w = (.ok 0, w) := by
  rw [flushMicrotasks, bind_read, if_pos flushing]
  rfl

/-- A flush that is not within a flush drains the microtasks. -/
theorem meets_flush (idle : w.tasks.flushing = false) {post : Nat → World η → Prop}
    (h : (drainMicrotasks env env.rounds 0).Meets (markFlushing true w)
      (fun n w' => post n (markFlushing false w')) fun w' => fin (markFlushing false w')) :
    (flushMicrotasks env).Meets w post fin := by
  unfold Meets at *
  rw [flushMicrotasks_of_rests env idle, ensuring]
  rcases e : drainMicrotasks env env.rounds 0 (markFlushing true w) with ⟨_ | _ | _ | _, w'⟩ <;>
    rw [e] at h <;> exact h

/-- **Draining keeps what every microtask keeps.**  `inv n w` holds when `n` microtasks have run. -/
theorem meets_drain (inv : Nat → World η → Prop) (stop : ∀ n w, inv n w → fin w)
    (turn : ∀ n task rest w, inv n w → w.tasks.microtasks = task :: rest →
      (runMicrotask env task).Meets (w.withMicrotasks rest) (fun _ w' => inv (n + 1) w') fin) :
    ∀ {rounds n : Nat} {w : World η}, inv n w → (drainMicrotasks env rounds n).Meets w
      (fun n w' => inv n w' ∧ w'.tasks.microtasks = []) fin
  | 0, n, w, h => stop n w h
  | rounds + 1, n, w, h => by
    rw [drainMicrotasks, meets_bind, meets_read]
    cases next : w.tasks.microtasks with
    | nil => exact ⟨h, next⟩
    | cons task rest =>
      exact meets_bind.2 (meets_bind.2 ((turn n task rest w h next).mono
        (fun _ _ h' => meets_drain inv stop turn h') fun _ h' => h'))

end Run

variable {η α : Type} {envs : Env η → Prop} {step : World η → World η → Prop}

/-- A computation made of single steps and of flushes. -/
inductive Errand (envs : Env η → Prop) (step : World η → World η → Prop) :
    {α : Type} → Run η α → Prop
  | read {α : Type} (f : World η → α) : Errand envs step (Run.read f)
  | step {α : Type} {f : World η → α × World η} (h : ∀ w, step w (f w).2) :
      Errand envs step (Run.update f)
  | flush {env : Env η} (h : envs env) : Errand envs step (Run.flushMicrotasks env)
  | bind {α β : Type} {x : Run η α} {f : α → Run η β} (first : Errand envs step x)
      (next : ∀ a, Errand envs step (f a)) : Errand envs step (x >>= f)
  /-- Calling deeper than calls may nest. -/
  | cutOff {α : Type} : Errand envs step (Run.cutOff : Run η α)

namespace Errand

theorem pure (a : α) : Errand envs step (Pure.pure a : Run η α) := .read fun _ => a

theorem modify {f : World η → World η} (h : ∀ w, step w (f w)) : Errand envs step (Run.modify f) :=
  .step (f := fun w => ((), f w)) h

/-- **What every step and every flush keeps, every errand keeps.** -/
theorem meets {x : Run η α} (errand : Errand envs step x) (inv : World η → Prop)
    {fin : World η → Prop} (stop : ∀ w, inv w → fin w) (steps : ∀ w w', inv w → step w w' → inv w')
    (flushes : ∀ env w, envs env → inv w →
      (Run.flushMicrotasks env).Meets w (fun _ w' => inv w') fin) {w : World η} (start : inv w) :
    x.Meets w (fun _ w' => inv w') fin := by
  induction errand generalizing w with
  | read f => exact start
  | step h => exact steps w _ start (h w)
  | flush h => exact flushes _ w h start
  | bind _ _ first next =>
    exact Run.meets_bind.2 ((first start).mono (fun a _ h => next a h) fun _ h => h)
  | cutOff => exact stop w start

/-- While a flush is running, what every step keeps every errand keeps. -/
theorem meets_of_flushing {x : Run η α} (errand : Errand envs step x) {inv fin : World η → Prop}
    (stop : ∀ w, inv w → fin w) (steps : ∀ w w', inv w → step w w' → inv w')
    (flushing : ∀ w, inv w → w.tasks.flushing = true) {w : World η} (start : inv w) :
    x.Meets w (fun _ w' => inv w') fin :=
  errand.meets inv stop steps (fun env w _ h =>
    (Run.meets_of_eq_ok (Run.flushMicrotasks_of_flushing env (flushing w h))).2 h) start

end Errand

/-- An errand that begins with a note, unless it is cut off before. -/
inductive Begins (envs : Env η → Prop) (step note : World η → World η → Prop) : Run η Unit → Prop
  | note {f : World η → World η} {x : Run η Unit} (h : ∀ w, note w (f w))
      (errand : Errand envs step x) : Begins envs step note (Run.modify f >>= fun _ => x)
  | cutOff : Begins envs step note Run.cutOff

end ViewBinding
