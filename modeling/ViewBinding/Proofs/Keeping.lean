import ViewBinding.Proofs.Evaluating
import ViewBinding.Proofs.Tasks.Errands

/-!
# Keeping — what is so wherever a computation ends

`x.Keeps I` says of a computation: wherever it ends, with a result, with a failure or cut off, in the
middle of whatever it was about, `I` holds if it held before.  What evaluating touches by itself keeps
`I`, so evaluating an expression does, as long as what it calls back does (`Run.Evaluates.keeps`).
-/

namespace ViewBinding

variable {η α β : Type} {I : World η → Prop}

/-- What held before the computation holds wherever it ends. -/
def Run.Keeps (I : World η → Prop) (x : Run η α) : Prop := ∀ w : World η, I w → I (x w).2

/-- What evaluating calls back keeps `I`. -/
structure Env.Keeps (I : World η → Prop) (env : Env η) : Prop where
  call : ∀ f this args, (env.call f this args).Keeps I
  convert : ∀ c direction v args, (env.convert c direction v args).Keeps I
  fire : ∀ hook occasion, (env.fire hook occasion).Keeps I

namespace Run

variable {x : Run η α}

theorem Keeps.meets (h : x.Keeps I) {w : World η} (holds : I w) : x.Meets w (fun _ w' => I w') I := by
  have kept := h w holds
  unfold Meets
  rcases e : x w with ⟨_ | _ | _ | _, w'⟩ <;> rw [e] at kept <;> exact kept

theorem keeps_of_meets (h : ∀ w : World η, I w → x.Meets w (fun _ w' => I w') I) : x.Keeps I :=
  fun w holds => (h w holds).every fun _ _ h => h

theorem keeps_update {f : World η → α × World η} (h : ∀ w : World η, I w → I (f w).2) :
    (update f).Keeps I := h

theorem keeps_modify {f : World η → World η} (h : ∀ w : World η, I w → I (f w)) :
    (modify f).Keeps I := h

theorem keeps_pure (a : α) : (Pure.pure a : Run η α).Keeps I := fun _ h => h

theorem keeps_read (f : World η → α) : (read f).Keeps I := fun _ h => h

theorem keeps_fail (cause : BindingError) : (fail cause : Run η α).Keeps I := fun _ h => h

theorem keeps_cutOff : (cutOff : Run η α).Keeps I := fun _ h => h

theorem keeps_inspect (f : World η → Option α) : Keeps I (fun w => ofOption (f w) w : Run η α) :=
  fun w h => by
    dsimp only
    cases f w <;> exact h

theorem Keeps.bind (h : x.Keeps I) {f : α → Run η β} (h' : ∀ a, (f a).Keeps I) :
    (x >>= f).Keeps I := keeps_of_meets fun _ holds =>
  meets_bind.2 ((h.meets holds).mono (fun a _ holds => (h' a).meets holds) fun _ holds => holds)

theorem Keeps.attempt (h : x.Keeps I) : x.attempt.Keeps I := fun w holds => by
  have kept := h w holds
  unfold Run.attempt
  generalize x w = result at kept ⊢
  obtain ⟨a | e | _ | _, w'⟩ := result <;> exact kept

theorem keeps_ite {c : Prop} [Decidable c] {x y : Run η α} (h : x.Keeps I) (h' : y.Keeps I) :
    (if c then x else y).Keeps I := by
  split
  · exact h
  · exact h'

theorem keeps_forEach {items : List α} {f : α → Run η Unit} (h : ∀ a ∈ items, (f a).Keeps I) :
    (forEach items f).Keeps I := by
  induction items with
  | nil => exact keeps_pure ()
  | cons a rest ih =>
    exact (h a List.mem_cons_self).bind fun _ => ih fun a m => h a (List.mem_cons_of_mem _ m)

/-- **Evaluating keeps** what touches and callbacks keep. -/
theorem Evaluates.keeps {env : Env η} (h : x.Evaluates env)
    (touches : ∀ w w' : World η, I w → w.Touches w' → I w') (E : env.Keeps I) : x.Keeps I := by
  induction h with
  | step h => exact keeps_update fun w holds => touches w _ holds (h w)
  | inspect f => exact keeps_inspect f
  | fail cause => exact keeps_fail cause
  | call f this args => exact E.call f this args
  | callConvert c direction v args => exact E.convert c direction v args
  | fire hook occasion => exact E.fire hook occasion
  | bind _ _ first next => exact first.bind next

end Run

end ViewBinding
