import ViewBinding.Proofs.Custody.Leaves
import ViewBinding.Proofs.Queue.Observers

/-!
# Custody — running

`x.Guards σ` says of a computation that it keeps custody of `σ`, whatever is in transit while it runs:
wherever it gives a result or fails, what was taken care of still is.  `x.Enters σ τ` says that besides
it gives a subscription, which is in transit if `τ` is `σ`.

An environment guards `σ` if its callbacks do (`Env.Guards`).  Evaluating, writing, connecting and
telling about changes then do as well, since they leave the subscriptions alone that bindings and
composites keep.
-/

namespace ViewBinding

variable {η α β : Type}

namespace Run

/-- From `w` the computation gives a result and a world that satisfy `post`, or fails in a world that
satisfies `fails`, or comes to no end. -/
def Yields (x : Run η α) (w : World η) (post : α → World η → Prop) (fails : World η → Prop) : Prop :=
  match x w with
  | (.ok a, w') => post a w'
  | (.error _, w') => fails w'
  | _ => True

section
variable {x : Run η α} {w : World η} {fails : World η → Prop}

theorem Yields.mono {post post' : α → World η → Prop} {fails' : World η → Prop}
    (h : x.Yields w post fails) (weaker : ∀ a w', post a w' → post' a w')
    (weaker' : ∀ w', fails w' → fails' w') : x.Yields w post' fails' := by
  unfold Yields at *
  split at h
  · exact weaker _ _ h
  · exact weaker' _ h
  · trivial

theorem Yields.and {post post' : α → World η → Prop} {fails' : World η → Prop}
    (h : x.Yields w post fails) (h' : x.Yields w post' fails') :
    x.Yields w (fun a w' => post a w' ∧ post' a w') fun w' => fails w' ∧ fails' w' := by
  unfold Yields at *
  split at h
  next e => simp only [e] at h' ⊢; exact ⟨h, h'⟩
  next e => simp only [e] at h' ⊢; exact ⟨h, h'⟩
  · trivial

/-- Where the computation gives a result. -/
theorem Yields.of_eq_ok {post : α → World η → Prop} (h : x.Yields w post fails) {a : α}
    {w' : World η} (e : x w = (.ok a, w')) : post a w' := by
  unfold Yields at h
  rwa [e] at h

/-- Where the computation fails. -/
theorem Yields.of_eq_error {post : α → World η → Prop} (h : x.Yields w post fails)
    {cause : BindingError} {w' : World η} (e : x w = (.error cause, w')) : fails w' := by
  unfold Yields at h
  rwa [e] at h

theorem yields_read {f : World η → α} {post : α → World η → Prop} :
    (read f).Yields w post fails ↔ post (f w) w := Iff.rfl

theorem yields_modify {f : World η → World η} {post : Unit → World η → Prop} :
    (modify f).Yields w post fails ↔ post () (f w) := Iff.rfl

theorem yields_update {f : World η → α × World η} {post : α → World η → Prop} :
    (update f).Yields w post fails ↔ post (f w).1 (f w).2 := Iff.rfl

theorem yields_bind {f : α → Run η β} {post : β → World η → Prop} :
    (x >>= f).Yields w post fails ↔
      x.Yields w (fun a w' => (f a).Yields w' post fails) fails := by
  change (Run.bind x f).Yields w post fails ↔ _
  unfold Yields Run.bind
  rcases x w with ⟨_ | _ | _ | _, w'⟩ <;> rfl

theorem yields_attempt {post : Except BindingError α → World η → Prop} :
    x.attempt.Yields w post fails ↔
      x.Yields w (fun a w' => post (.ok a) w') fun w' => ∀ cause, x w = (.error cause, w') →
        post (.error cause) w' := by
  unfold Yields Run.attempt
  rcases x w with ⟨_ | cause | _ | _, w'⟩
  · rfl
  · exact ⟨fun h _ is => by cases is; exact h, fun h => h cause rfl⟩
  · rfl
  · rfl

end

/-- The computation keeps custody of `σ`, whatever is in transit. -/
def Guards (σ : Subscriber) (x : Run η α) : Prop :=
  ∀ w loose pending, w.board.Custody σ loose pending →
    x.Yields w (fun _ w' => w'.board.Custody σ loose pending) fun w' =>
      w'.board.Custody σ loose pending

/-- The computation keeps custody of `σ`, and if `τ` is `σ` the subscription that it gives is in
transit. -/
def Enters (σ τ : Subscriber) (x : Run η (Ref .subscription)) : Prop :=
  ∀ w loose pending, w.board.Custody σ loose pending →
    x.Yields w (fun s w' => w'.board.Custody σ (σ.charge τ s loose) pending) fun w' =>
      w'.board.Custody σ loose pending

end Run

/-- The callbacks keep custody of `σ`. -/
structure Env.Guards (σ : Subscriber) (env : Env η) : Prop where
  call : ∀ f this args, (env.call f this args).Guards σ
  convert : ∀ c direction v args, (env.convert c direction v args).Guards σ
  fire : ∀ hook occasion, (env.fire hook occasion).Guards σ
  announce : ∀ τ new old, (env.announce τ new old).Guards σ
  subscribe : ∀ ob τ, (env.subscribe ob τ).Enters σ τ
  late : env.late.Guards σ

namespace Run

variable {σ τ : Subscriber} {env : Env η} {x : Run η α}

/-! ### Straight code -/

theorem guards_update {f : World η → α × World η} (h : ∀ w, World.Guards σ w (f w).2) :
    (update f).Guards σ := fun w loose pending A => h w loose pending A

theorem guards_modify {f : World η → World η} (h : ∀ w, World.Guards σ w (f w)) :
    (modify f).Guards σ := fun w loose pending A => h w loose pending A

/-- What does not show on the board. -/
theorem guards_unseen {f : World η → World η} (h : ∀ w, (f w).board = w.board) :
    (modify f).Guards σ := guards_modify fun w => .of_eq (h w)

theorem guards_unseenUpdate {f : World η → α × World η} (h : ∀ w, (f w).2.board = w.board) :
    (update f).Guards σ := guards_update fun w => .of_eq (h w)

theorem guards_read (f : World η → α) : (read f).Guards σ := fun _ _ _ A => A

theorem guards_pure (a : α) : (Pure.pure a : Run η α).Guards σ := fun _ _ _ A => A

theorem guards_fail (cause : BindingError) : (fail cause : Run η α).Guards σ := fun _ _ _ A => A

theorem guards_cutOff : (cutOff : Run η α).Guards σ := fun _ _ _ _ => trivial

theorem Guards.bind (h : x.Guards σ) {f : α → Run η β} (h' : ∀ a, (f a).Guards σ) :
    (x >>= f).Guards σ := fun w loose pending A =>
  yields_bind.2 ((h w loose pending A).mono (fun a w' A => h' a w' loose pending A) fun _ A => A)

theorem guards_ite {c : Prop} [Decidable c] {x y : Run η α} (h : x.Guards σ) (h' : y.Guards σ) :
    (if c then x else y).Guards σ := by
  split
  · exact h
  · exact h'

theorem Guards.map (h : x.Guards σ) (f : α → β) : (f <$> x).Guards σ :=
  h.bind fun a => guards_pure (f a)

theorem Guards.discard (h : x.Guards σ) : (discard x : Run η PUnit).Guards σ := h.map _

theorem Guards.attempt (h : x.Guards σ) : x.attempt.Guards σ := fun w loose pending A =>
  yields_attempt.2 ((h w loose pending A).mono (fun _ _ A => A) fun _ A _ _ => A)

theorem Guards.ignoreFailure {x : Run η Unit} (h : x.Guards σ) : (ignoreFailure x).Guards σ :=
  h.attempt.discard

theorem guards_forEach {items : List α} {f : α → Run η Unit} (h : ∀ a, (f a).Guards σ) :
    (forEach items f).Guards σ := by
  induction items with
  | nil => exact guards_pure ()
  | cons a rest ih => exact (h a).bind fun _ => ih

/-- Where a computation starts with a look at the world, it is enough to know what it does then. -/
theorem guards_inspect (f : World η → Option α) :
    Guards σ (fun w => ofOption (f w) w : Run η α) := by
  intro w loose pending A
  unfold Yields
  dsimp only
  cases f w with
  | none => trivial
  | some a => exact A

theorem enters_update {f : World η → Ref .subscription × World η}
    (h : ∀ w, World.Enters σ τ w (f w)) : (update f).Enters σ τ :=
  fun w loose pending A => h w loose pending A

/-- Subscribing somebody else keeps custody. -/
theorem Enters.guards {x : Run η (Ref .subscription)} (h : x.Enters σ τ) (other : τ ≠ σ) :
    x.Guards σ := fun w loose pending A =>
  (h w loose pending A).mono (fun s w' A => by rwa [Subscriber.charge_of_ne other] at A) fun _ A => A

theorem Guards.enters {x : Run η (Ref .subscription)} (h : x.Guards σ) : x.Enters σ τ :=
  fun w loose pending A => (h w loose pending A).mono
    (fun _ _ A => A.mono fun _ m => Subscriber.mem_charge.2 (.inl m)) fun _ A => A

/-! ### Evaluating, connecting and telling -/

end Run

theorem World.Touches.board {w w' : World η} (h : w.Touches w') : w'.board = w.board := by
  cases h with
  | nothing => rfl
  | _ => simp

theorem World.Assembles.board {w w' : World η} (h : w.Assembles w') : w'.board = w.board := by
  cases h with
  | part c loose => exact w.board_pushPart c _ loose
  | primary c info => exact w.board_modifyComposite c (fun _ => rfl) fun _ => rfl
  | _ => simp

section
variable {σ : Subscriber} {env : Env η}

/-- **Evaluating** keeps custody. -/
theorem Run.Evaluates.guards {x : Run η α} (h : x.Evaluates env) (E : env.Guards σ) :
    x.Guards σ := by
  induction h with
  | step h => exact Run.guards_unseenUpdate fun w => (h w).board
  | inspect f => exact Run.guards_inspect f
  | fail cause => exact Run.guards_fail cause
  | call f this args => exact E.call f this args
  | callConvert c direction v args => exact E.convert c direction v args
  | fire hook occasion => exact E.fire hook occasion
  | bind _ _ first next => exact first.bind next

/-- **Connecting** keeps custody. -/
theorem Run.Connects.guards {x : Run η α} (h : x.Connects env) (E : env.Guards σ) :
    x.Guards σ := by
  induction h with
  | evaluate h => exact h.guards E
  | assemble h => exact Run.guards_unseenUpdate fun w => (h w).board
  | bind _ _ first next => exact first.bind next

/-- **Telling** keeps custody. -/
theorem Run.Notifies.guards {x : Run η α} (h : x.Notifies env) (E : env.Guards σ) : x.Guards σ := by
  induction h with
  | connect h => exact h.guards E
  | step h => exact Run.guards_unseenUpdate fun w => (h w).2
  | announce s new old => exact E.announce s new old
  | attempt _ ih => exact ih.attempt
  | breakOff => exact fun _ _ _ _ => trivial
  | bind _ _ first next => exact first.bind next

theorem guards_eval (E : env.Guards σ) (cs : Converters) (scope : Scope) (e : Expr) :
    (e.eval env cs scope).Guards σ := (Run.Evaluates.eval cs scope e).guards E

theorem guards_connect (provider : Provider) (scope : Scope) (E : env.Guards σ) (e : Expr) :
    (e.connect env provider scope).Guards σ := (Run.Connects.connect provider scope e).guards E

end

namespace Run

variable {σ τ : Subscriber} {env : Env η}

/-! ### Subscribing to leaves -/

theorem enters_subscribeLeaf (leaf : Leaf) (τ : Subscriber) :
    (subscribeLeaf leaf τ : Run η (Ref .subscription)).Enters σ τ := by
  cases leaf <;> simp only [subscribeLeaf]
  case setter r => exact enters_update fun w => w.enters_subscribeSetter r τ
  case property r => exact enters_update fun w => w.enters_subscribeProperty r τ
  case placeholder r => exact enters_update fun w => w.enters_subscribePlaceholder r τ
  case element r =>
    intro w loose pending A
    rw [yields_bind, yields_read]
    split
    · split
      · exact w.enters_subscribeElement r τ loose pending A
      · exact A
    · exact (guards_update fun w => w.guards_newSubscription none).enters w loose pending A
  case select r => exact enters_update fun w => w.enters_subscribeSelect r τ
  case contents r => exact enters_update fun w => w.enters_subscribeContents r τ
  case poll r => exact enters_update fun w => w.enters_subscribePoll r τ

/-! ### Writing -/

theorem guards_writeSelect (keeper : σ.IsKeeper) (r : Ref .select) (v : Value) :
    (writeSelect r v : Run η Unit).Guards σ := by
  refine (guards_read _).bind fun cell => ?_
  split
  · exact guards_pure _
  next cell =>
    refine (guards_read _).bind fun live => ?_
    split
    · exact guards_pure _
    · refine (guards_read _).bind fun multiple => guards_ite (guards_fail _)
        (guards_ite (guards_pure _) ((guards_modify fun w => ?_).bind fun _ =>
          (guards_update fun w =>
            w.guards_followArray r v (keeper.ne (.options r) id).symm).bind fun array =>
              guards_unseen fun w => ?_))
      · exact .trans (.of_eq (by simp)) (World.guards_disposeOption _ _)
      · simp

theorem guards_writeLeaf (E : env.Guards σ) (keeper : σ.IsKeeper) (leaf : Leaf) (v : Value) :
    (writeLeaf env leaf v).Guards σ := by
  by_cases select : ∃ r, leaf = .select r
  · obtain ⟨r, rfl⟩ := select
    exact guards_writeSelect keeper r v
  · exact (Notifies.writeLeaf (fun r is => select ⟨r, is⟩) v).guards E

end Run

end ViewBinding
