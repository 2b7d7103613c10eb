import ViewBinding.Proofs.Evaluating
import ViewBinding.Proofs.Queue.Layer
import ViewBinding.Tasks

/-!
# Queue — computations that work beneath the bindings

`x.Moves T` says of a computation `x`: wherever it comes to an end, with a result or with a failure,
the world has moved as `T` says.  A relation is `Lenient` when it can be followed through several
computations and does not mind what happens beneath the layer of bindings.

`x.Observes K env` says that `x` is made of steps beneath the layer, which spare the flags of the
composites `K` too, and of what the callbacks of `env` do.  `Run.Beneath env x` says that `x` is made
of such steps whatever becomes of flags: calling back is all that it may do to bindings and connects.
What is shown by induction of such computations is shown of all that works beneath the bindings; that
they move the world as their callbacks do is a first example (`Beneath.moves`).
-/

namespace ViewBinding

variable {η α β : Type}

/-- A relation that does not mind what happens beneath the bindings. -/
structure Lenient (T : World η → World η → Prop) : Prop where
  still : ∀ {w w' : World η}, w'.layer = w.layer → T w w'
  trans : ∀ {w w' w'' : World η}, T w w' → T w' w'' → T w w''

theorem Lenient.of_canopy {T : World η → World η → Prop} (L : Lenient T) {w w' : World η}
    (same : w'.canopy = w.canopy) : T w w' := L.still (World.layer_of_canopy same)

/-- Wherever the computation comes to an end, the world has moved as `T` says. -/
def Run.Moves (T : World η → World η → Prop) (x : Run η α) : Prop :=
  ∀ w, match x w with
    | (.ok _, w') => T w w'
    | (.error _, w') => T w w'
    | _ => True

/-- The callbacks move the world as `T` says. -/
structure Env.Moves (env : Env η) (T : World η → World η → Prop) : Prop where
  call : ∀ f this args, (env.call f this args).Moves T
  convert : ∀ c direction v args, (env.convert c direction v args).Moves T
  fire : ∀ hook occasion, (env.fire hook occasion).Moves T
  announce : ∀ s new old, (env.announce s new old).Moves T
  subscribe : ∀ observer s, (env.subscribe observer s).Moves T
  late : env.late.Moves T

namespace Run

variable {T : World η → World η → Prop} {x : Run η α}

theorem Moves.of_eq_ok (h : x.Moves T) {w w' : World η} {a : α} (e : x w = (.ok a, w')) :
    T w w' := by
  have := h w
  rwa [e] at this

/-- A relation that can be followed through two computations. -/
theorem Moves.bind_of_trans (h : x.Moves T) (trans : ∀ {w w' w''}, T w w' → T w' w'' → T w w'')
    {f : α → Run η β} (h' : ∀ a, (f a).Moves T) : (x >>= f).Moves T := by
  intro w
  change match Run.bind x f w with | (.ok _, w') => T w w' | (.error _, w') => T w w' | _ => True
  have first := h w
  unfold Run.bind
  generalize x w = result at first
  obtain ⟨a | e | _ | _, w'⟩ := result
  · have second := h' a w'
    dsimp only at first ⊢
    generalize f a w' = result at second ⊢
    obtain ⟨b | e | _ | _, w''⟩ := result
    · exact trans first second
    · exact trans first second
    · trivial
    · trivial
  · exact first
  · trivial
  · trivial

theorem Moves.bind (L : Lenient T) (h : x.Moves T) {f : α → Run η β} (h' : ∀ a, (f a).Moves T) :
    (x >>= f).Moves T := h.bind_of_trans L.trans h'

theorem Moves.attempt (h : x.Moves T) : x.attempt.Moves T := by
  intro w
  have := h w
  unfold Run.attempt
  generalize x w = result at this
  obtain ⟨a | e | _ | _, w'⟩ := result <;> exact this

theorem Moves.ignoreFailure (L : Lenient T) {x : Run η Unit} (h : x.Moves T) :
    (ignoreFailure x).Moves T := h.attempt.bind L fun _ _ => L.still rfl

theorem moves_ite {c : Prop} [Decidable c] {x y : Run η α} (h : x.Moves T) (h' : y.Moves T) :
    (if c then x else y).Moves T := by
  split
  · exact h
  · exact h'

/-- The computation does beneath the bindings what spares the flags of the composites `K`, and calls
back through its environment, one after the other. -/
inductive Observes (K : Ref .composite → Prop) (env : Env η) : {α : Type} → Run η α → Prop
  | step {α : Type} {f : World η → α × World η}
      (layer : ∀ w, (f w).2.layer = w.layer) (flags : ∀ w k, K k → (f w).2.flags k = w.flags k) :
      Observes K env (update f)
  /-- Where something must be there, the computation is cut off without it. -/
  | inspect {α : Type} (f : World η → Option α) :
      Observes K env (fun w => ofOption (f w) w : Run η α)
  | fail {α : Type} (cause : BindingError) : Observes K env (Run.fail cause : Run η α)
  | breakOff {α : Type} : Observes K env (Run.breakOff : Run η α)
  | cutOff {α : Type} : Observes K env (Run.cutOff : Run η α)
  | call (f : Ref .function) (this : Value) (args : List Value) : Observes K env (env.call f this args)
  | convert (c : Converter) (direction : Direction) (v : Value) (args : List Value) :
      Observes K env (env.convert c direction v args)
  | fire (hook : Ref .hook) (occasion : Occasion) : Observes K env (env.fire hook occasion)
  | announce (s : Subscriber) (new old : Value) : Observes K env (env.announce s new old)
  | subscribe (observer : Observer) (s : Subscriber) : Observes K env (env.subscribe observer s)
  | bind {α β : Type} {x : Run η α} {f : α → Run η β} (first : Observes K env x)
      (next : ∀ a, Observes K env (f a)) : Observes K env (x >>= f)
  | attempt {α : Type} {x : Run η α} (h : Observes K env x) : Observes K env x.attempt
  /-- A computation after which something is changed, however it ends. -/
  | ensuring {α : Type} {x : Run η α} {f : World η → World η} (h : Observes K env x)
      (same : ∀ w, (f w).canopy = w.canopy) : Observes K env (ensuring x f)

/-- The computation touches the layer of bindings through its environment only. -/
def Beneath (env : Env η) (x : Run η α) : Prop := x.Observes (fun _ => False) env

/-- What follows a computation however it ends. -/
theorem Moves.ensuring (h : x.Moves T) (trans : ∀ {w w' w''}, T w w' → T w' w'' → T w w'')
    {f : World η → World η} (after : ∀ w, T w (f w)) : (ensuring x f).Moves T := by
  intro w
  have moved := h w
  unfold Run.ensuring
  generalize x w = result at moved
  obtain ⟨a | e | _ | _, w'⟩ := result
  · exact trans moved (after w')
  · exact trans moved (after w')
  · trivial
  · trivial

/-- **What observes** moves the world as its callbacks do. -/
theorem Observes.moves_of {K : Ref .composite → Prop} {env : Env η} (h : x.Observes K env)
    (still : ∀ {w w' : World η}, w'.layer = w.layer → (∀ k, K k → w'.flags k = w.flags k) → T w w')
    (trans : ∀ {w w' w'' : World η}, T w w' → T w' w'' → T w w'') (E : env.Moves T) : x.Moves T := by
  induction h with
  | step layer flags => exact fun w => still (layer w) (flags w)
  | inspect f =>
    intro w
    dsimp only
    cases f w with
    | none => trivial
    | some a => exact still rfl fun _ _ => rfl
  | fail cause => exact fun _ => still rfl fun _ _ => rfl
  | breakOff => exact fun _ => trivial
  | cutOff => exact fun _ => trivial
  | call f this args => exact E.call f this args
  | convert c direction v args => exact E.convert c direction v args
  | fire hook occasion => exact E.fire hook occasion
  | announce s new old => exact E.announce s new old
  | subscribe observer s => exact E.subscribe observer s
  | bind _ _ first next => exact first.bind_of_trans trans next
  | attempt _ ih => exact ih.attempt
  | ensuring _ same ih =>
    exact ih.ensuring trans fun w => still (World.layer_of_canopy (same w)) fun k _ =>
      congrFun (World.flags_of_canopy (same w)) k

/-- **What works beneath the bindings** moves the world as its callbacks do. -/
theorem Beneath.moves {env : Env η} (h : Beneath env x) (L : Lenient T) (E : env.Moves T) :
    x.Moves T := h.moves_of (fun same _ => L.still same) L.trans E

/-- An environment that cuts off whoever calls it. -/
def dead : Env η :=
  { rounds := 0, call := fun _ _ _ => Run.cutOff, convert := fun _ _ _ _ => Run.cutOff
    fire := fun _ _ => Run.cutOff, announce := fun _ _ _ => Run.cutOff
    subscribe := fun _ _ => Run.cutOff, late := Run.cutOff }

/-- Nobody is moved by calling nobody. -/
theorem dead_moves (T : World η → World η → Prop) : (dead : Env η).Moves T :=
  ⟨fun _ _ _ _ => trivial, fun _ _ _ _ _ => trivial, fun _ _ _ => trivial,
    fun _ _ _ _ => trivial, fun _ _ _ => trivial, fun _ => trivial⟩

/-- What touches the layer through no environment does not touch it. -/
theorem Beneath.moves_of_dead (h : Beneath dead x) (L : Lenient T) : x.Moves T :=
  h.moves L (dead_moves T)

variable {K : Ref .composite → Prop} {env : Env η}

/-! ### Straight code -/

theorem observes_update {f : World η → α × World η} (h : ∀ w, (f w).2.canopy = w.canopy) :
    Observes K env (update f) :=
  .step (fun w => World.layer_of_canopy (h w)) fun w k _ => congrFun (World.flags_of_canopy (h w)) k

theorem observes_modify {f : World η → World η} (h : ∀ w, (f w).canopy = w.canopy) :
    Observes K env (modify f) := observes_update (f := fun w => ((), f w)) h

theorem observes_read (f : World η → α) : Observes K env (read f) :=
  observes_update (f := fun w => (f w, w)) fun _ => rfl

theorem observes_pure (a : α) : Observes K env (Pure.pure a : Run η α) := observes_read fun _ => a

end Run

end ViewBinding
