import ViewBinding.Machine

/-!
# Queue — telling does not fail

What somebody does who is told about a change concerns nobody else: it comes to an end, or is cut
off or broken off, but it does not fail (`unfailing_react`).  So no frame task that was requested
before a frame began is lost because an earlier one has failed (`unfailing_runFrameTask`).
-/

namespace ViewBinding

variable {η α β : Type}

/-- The computation does not fail. -/
def Run.Unfailing (x : Run η α) : Prop :=
  ∀ w, match x w with
    | (.error _, _) => False
    | _ => True

/-- The hooks and the subscribers do not fail, and the clock does not. -/
structure Env.Unfailing (env : Env η) : Prop where
  fire : ∀ hook occasion, (env.fire hook occasion).Unfailing
  announce : ∀ s new old, (env.announce s new old).Unfailing
  late : env.late.Unfailing

namespace Run

theorem Unfailing.ne {x : Run η α} (h : x.Unfailing) {w w' : World η} {cause : BindingError} :
    x w ≠ (.error cause, w') := fun e => by
  have := h w
  rw [e] at this
  exact this

theorem unfailing_update (f : World η → α × World η) : (update f).Unfailing := fun _ => trivial

theorem unfailing_modify (f : World η → World η) : (modify f).Unfailing := fun _ => trivial

theorem unfailing_read (f : World η → α) : (read f).Unfailing := fun _ => trivial

theorem unfailing_pure (a : α) : (Pure.pure a : Run η α).Unfailing := fun _ => trivial

theorem unfailing_cutOff : (cutOff : Run η α).Unfailing := fun _ => trivial

theorem Unfailing.bind {x : Run η α} (h : x.Unfailing) {f : α → Run η β}
    (h' : ∀ a, (f a).Unfailing) : (x >>= f).Unfailing := by
  intro w
  have first := h w
  change match Run.bind x f w with | (.error _, _) => False | _ => True
  unfold Run.bind
  generalize x w = result at first ⊢
  obtain ⟨a | e | _ | _, w'⟩ := result
  · exact h' a w'
  · exact first
  · trivial
  · trivial

theorem unfailing_ite {c : Prop} [Decidable c] {x y : Run η α} (h : x.Unfailing)
    (h' : y.Unfailing) : (if c then x else y).Unfailing := by
  split
  · exact h
  · exact h'

theorem unfailing_attempt (x : Run η α) : x.attempt.Unfailing := by
  intro w
  unfold Run.attempt
  generalize x w = result
  obtain ⟨a | e | _ | _, w'⟩ := result <;> trivial

theorem unfailing_ignoreFailure (x : Run η Unit) : (ignoreFailure x).Unfailing :=
  (unfailing_attempt x).bind fun _ => unfailing_pure _

theorem unfailing_forEach {items : List α} {f : α → Run η Unit} (h : ∀ a, (f a).Unfailing) :
    (forEach items f).Unfailing := by
  induction items with
  | nil => exact unfailing_pure ()
  | cons a rest ih => exact (h a).bind fun _ => ih

variable {env : Env η}

theorem unfailing_notify (E : env.Unfailing) (callbacks : Listeners Subscriber)
    (new old : Value) : (env.notify callbacks new old).Unfailing :=
  unfailing_forEach fun s => E.announce s new old

/-! ### Those who are told -/

theorem unfailing_tellPath (E : env.Unfailing) (p : Ref .path) (new : Value) :
    (tellPath env p new).Unfailing := by
  refine (unfailing_read _).bind fun cell => ?_
  split
  · exact unfailing_pure _
  · exact (unfailing_modify _).bind fun _ => unfailing_notify E _ new _

theorem unfailing_pathObjectChanged (E : env.Unfailing) (p : Ref .path) (object : Value) :
    (pathObjectChanged env p object).Unfailing := by
  refine (unfailing_read _).bind fun cell => ?_
  split
  · exact unfailing_pure _
  · refine (unfailing_update _).bind fun right => (unfailing_modify _).bind fun _ => ?_
    split
    · exact unfailing_tellPath E p _
    · refine (unfailing_attempt _).bind fun result => ?_
      split
      · exact (unfailing_modify _).bind fun _ => (unfailing_read _).bind fun v =>
          unfailing_tellPath E p v
      · exact (unfailing_pure _).bind fun _ => (unfailing_read _).bind fun v =>
          unfailing_tellPath E p v

theorem unfailing_tellComposite (E : env.Unfailing) (c : Ref .composite) (new : Value) :
    (tellComposite env c new).Unfailing := by
  refine (unfailing_read _).bind fun cell => ?_
  split
  · exact unfailing_pure _
  · exact (unfailing_modify _).bind fun _ => unfailing_notify E _ _ _

theorem unfailing_reevaluate (E : env.Unfailing) (c : Ref .composite) :
    (reevaluate env c).Unfailing := by
  refine (unfailing_read _).bind fun cell => ?_
  split
  · exact unfailing_pure _
  · refine (unfailing_read _).bind fun cs => (unfailing_attempt _).bind fun result => ?_
    split
    · exact unfailing_pure _
    · exact unfailing_tellComposite E c _

theorem unfailing_settle (E : env.Unfailing) (c : Ref .composite) :
    ∀ rounds, (settle env c rounds).Unfailing
  | 0 => unfailing_cutOff
  | rounds + 1 =>
    (unfailing_reevaluate E c).bind fun _ => (unfailing_read _).bind fun _ =>
      (unfailing_ignoreFailure _).bind fun _ => (unfailing_read _).bind fun _ =>
        unfailing_ite ((unfailing_modify _).bind fun _ => unfailing_settle E c rounds)
          (unfailing_modify _)

theorem unfailing_partChanged (E : env.Unfailing) (c : Ref .composite) :
    (partChanged env c).Unfailing := by
  refine (unfailing_read _).bind fun cell => ?_
  split
  · exact unfailing_pure _
  · exact unfailing_ite (unfailing_modify _)
      ((unfailing_modify _).bind fun _ => unfailing_settle E c _)

theorem unfailing_sourceChanged (b : Ref .binding) (new : Value) :
    (sourceChanged env b new).Unfailing := by
  refine (unfailing_read _).bind fun cell => ?_
  split
  · exact (unfailing_read _).bind fun _ => unfailing_ite (unfailing_pure _)
      (unfailing_ignoreFailure _)
  · exact unfailing_pure _

/-- **Whoever is told something** does not fail. -/
theorem unfailing_react (E : env.Unfailing) (s : Subscriber) (new old : Value) :
    (react env s new old).Unfailing := by
  cases s with
  | pathObject p => exact unfailing_pathObjectChanged E p new
  | pathMember p => exact unfailing_tellPath E p new
  | part c => exact unfailing_partChanged E c
  | source b => exact unfailing_sourceChanged b new
  | target b => exact unfailing_ignoreFailure _
  | options r => exact unfailing_modify _
  | hook h => exact E.fire h _

/-- **The callbacks of a machine** do not fail if the hooks of its host do not. -/
theorem unfailing_machine {host : Host η}
    (fire : ∀ env hook occasion, (host.fire env hook occasion).Unfailing) (rounds : Nat) :
    ∀ depth, (machine host rounds depth).Unfailing
  | 0 => ⟨fun _ _ _ => trivial, fun _ _ _ _ => trivial, fun _ => trivial⟩
  | depth + 1 =>
    ⟨fire _, unfailing_react (unfailing_machine fire rounds depth), fun _ => trivial⟩

/-! ### Frames -/

theorem unfailing_poll (E : env.Unfailing) : (poll env).Unfailing := by
  refine (unfailing_modify _).bind fun _ => (unfailing_read _).bind fun tracked =>
    (unfailing_forEach fun r => ?_).bind fun _ => (unfailing_read _).bind fun _ =>
      unfailing_ite (unfailing_pure _) (unfailing_modify _)
  refine (unfailing_read _).bind fun _ => unfailing_ite ?_ (unfailing_pure _)
  refine (unfailing_read _).bind fun cell => ?_
  split
  · exact unfailing_pure _
  · exact (unfailing_read _).bind fun _ => (unfailing_modify _).bind fun _ =>
      unfailing_notify E _ _ _

theorem unfailing_drainConnects (E : env.Unfailing) :
    ∀ rounds connected, (drainConnects env rounds connected).Unfailing
  | 0, _ => unfailing_cutOff
  | rounds + 1, connected => by
    refine (unfailing_update _).bind fun next => ?_
    split
    · exact unfailing_pure _
    · exact (unfailing_ignoreFailure _).bind fun _ => unfailing_ite
        (E.late.bind fun _ => unfailing_ite (unfailing_pure _)
          (unfailing_drainConnects E rounds _)) (unfailing_drainConnects E rounds _)

theorem unfailing_flushConnects (E : env.Unfailing) : (flushConnects env).Unfailing :=
  (unfailing_drainConnects E _ 0).bind fun _ => (unfailing_modify _).bind fun _ =>
    (unfailing_read _).bind fun _ => unfailing_ite (unfailing_pure _) (unfailing_modify _)

/-- **A frame task** does not fail. -/
theorem unfailing_runFrameTask (E : env.Unfailing) (task : FrameTask) :
    (runFrameTask env task).Unfailing := by
  cases task with
  | poll => exact unfailing_poll E
  | connects => exact unfailing_flushConnects E
  | hook h => exact E.fire h _

end Run

end ViewBinding
