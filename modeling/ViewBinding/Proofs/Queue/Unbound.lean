import ViewBinding.Proofs.Ends
import ViewBinding.Proofs.Queue.Scripts

/-!
# Queue — unbound bindings

An unbound binding is inert: it does nothing when it is told that its source or its target has
changed, and nothing when its turn comes to be connected (`inert_announce_source`,
`inert_announce_target`, `inert_connectBinding`).  Only binding it ends that.

`Aloof env b x` says that the computation `x` may do anything but bind `b`.  Every such computation,
the callbacks of an aloof host included, leaves an unbound `b` unbound (`Aloof.moves`).
-/

namespace ViewBinding

variable {η α β : Type}

/-- A relation that minds nothing but bindings. -/
structure OfBindings (T : World η → World η → Prop) : Prop where
  aside : ∀ {w w' : World η}, w'.bindings = w.bindings → T w w'
  trans : ∀ {w w' w'' : World η}, T w w' → T w' w'' → T w w''

theorem OfBindings.lenient {T : World η → World η → Prop} (B : OfBindings T) : Lenient T where
  still h := B.aside (congrArg Layer.bindings h)
  trans := B.trans

namespace World

variable {w w' : World η} {b b' : Ref .binding}

/-- What is unbound stays unbound. -/
def StaysUnbound (b : Ref .binding) (w w' : World η) : Prop :=
  w.sourceOf? b = none → w'.sourceOf? b = none

theorem sourceOf?_of_bindings (same : w'.bindings = w.bindings) (b : Ref .binding) :
    w'.sourceOf? b = w.sourceOf? b := by
  simp only [sourceOf?, same]

theorem staysUnbound_of_bindings (same : w'.bindings = w.bindings) : w.StaysUnbound b w' :=
  fun unbound => (sourceOf?_of_bindings same b).trans unbound

theorem ofBindings_staysUnbound (b : Ref .binding) : OfBindings (StaysUnbound (η := η) b) where
  aside := staysUnbound_of_bindings
  trans h h' unbound := h' (h unbound)

theorem lenient_staysUnbound (b : Ref .binding) : Lenient (StaysUnbound (η := η) b) :=
  (ofBindings_staysUnbound b).lenient

/-- Changes of other bindings, and changes of `b` that leave its source alone. -/
theorem staysUnbound_modifyBinding (w : World η) (b' : Ref .binding)
    (f : BindingCell → BindingCell) (h : b = b' → ∀ cell, cell.source = none → (f cell).source = none) :
    w.StaysUnbound b (w.modifyBinding b' f) := by
  intro unbound
  by_cases is : b = b'
  · subst is
    simp only [sourceOf?, modifyBinding, Store.get?_modify_self] at unbound ⊢
    cases get : w.bindings.get? b with
    | none => rfl
    | some cell =>
      rw [get] at unbound
      exact h rfl cell unbound
  · simpa only [sourceOf?, modifyBinding, Store.get?_modify_of_ne f is] using unbound

theorem staysUnbound_unbind (w : World η) (b' : Ref .binding) : w.StaysUnbound b (w.unbind b') := by
  unfold World.unbind
  split
  · exact id
  next cell get =>
    split
    · exact id
    · let idle := w.modifyBinding b' fun cell =>
        { cell with
          source := none, sourceObserver := none, sourceSubscription := none,
          targetSubscription := none }
      have unbinds : w.StaysUnbound b idle := staysUnbound_modifyBinding w b' _ fun _ _ _ => rfl
      have beneath : ∀ w' : World η, w'.canopy = idle.canopy → w.StaysUnbound b w' :=
        fun w' same =>
          (lenient_staysUnbound b).trans unbinds ((lenient_staysUnbound b).of_canopy same)
      dsimp only
      split
      · exact beneath _ (by simp [idle])
      · exact beneath _ (by simp [idle])

end World

/-! ### Inertness -/

section
variable {env : Env η} {w : World η} {b : Ref .binding}

theorem unbound_cases (unbound : w.sourceOf? b = none) : w.bindings.get? b = none ∨
    ∃ e element property mode target observer s s', w.bindings.get? b =
      some ⟨e, element, property, mode, target, none, observer, s, s'⟩ := by
  cases get : w.bindings.get? b with
  | none => exact .inl rfl
  | some cell =>
    obtain ⟨_, _, _, _, _, source, _, _, _⟩ := cell
    simp only [World.sourceOf?, get] at unbound
    obtain rfl : source = none := unbound
    exact .inr ⟨_, _, _, _, _, _, _, _, rfl⟩

theorem inert_sourceChanged (unbound : w.sourceOf? b = none) (new : Value) :
    Run.sourceChanged env b new w = (.ok (), w) := by
  refine Run.Ends.eq_ok ?_
  simp only [Run.sourceChanged, Run.ends_bind, Run.ends_read]
  obtain get | ⟨_, _, _, _, _, _, _, _, get⟩ := unbound_cases unbound
  · rw [get]
    rfl
  · rw [get]
    rfl

theorem inert_targetChanged (unbound : w.sourceOf? b = none) (new : Value) :
    Run.targetChanged env b new w = (.ok (), w) := by
  refine Run.Ends.eq_ok (Run.ends_ignoreFailure ?_)
  simp only [Run.updateSource, Run.ends_bind, Run.ends_read]
  obtain get | ⟨_, _, _, _, _, _, _, _, get⟩ := unbound_cases unbound
  · rw [get]
    rfl
  · rw [get]
    rfl

theorem inert_connectBinding (unbound : w.sourceOf? b = none) (evaluate : Bool) :
    Run.connectBinding env b evaluate w = (.ok (), w) := by
  refine Run.Ends.eq_ok ?_
  simp only [Run.connectBinding, Run.ends_bind, Run.ends_read]
  obtain get | ⟨_, _, _, _, _, _, _, _, get⟩ := unbound_cases unbound
  · rw [get]
    rfl
  · rw [get]
    rfl

end

/-! ### Connects and frames -/

namespace Run

/-- The computation connects bindings, and apart from that it works beneath the bindings or leaves
them alone. -/
inductive Joins (env : Env η) : {α : Type} → Run η α → Prop
  | beneath {α : Type} {x : Run η α} (h : Beneath env x) : Joins env x
  | aside {α : Type} {f : World η → α × World η} (h : ∀ w, (f w).2.bindings = w.bindings) :
      Joins env (update f)
  | connect (b : Ref .binding) (evaluate : Bool) : Joins env (connectBinding env b evaluate)
  /-- A look at the clock. -/
  | late : Joins env env.late
  | bind {α β : Type} {x : Run η α} {f : α → Run η β} (first : Joins env x)
      (next : ∀ a, Joins env (f a)) : Joins env (x >>= f)
  | attempt {α : Type} {x : Run η α} (h : Joins env x) : Joins env x.attempt

namespace Joins

variable {env : Env η} {x : Run η α}

/-- **What connects** moves the world as connecting and the callbacks do. -/
theorem moves {T : World η → World η → Prop} (h : Joins env x) (B : OfBindings T) (E : env.Moves T)
    (connect : ∀ b evaluate, (connectBinding env b evaluate).Moves T) : x.Moves T := by
  induction h with
  | beneath h => exact h.moves B.lenient E
  | aside h => exact fun w => B.aside (h w)
  | connect b evaluate => exact connect b evaluate
  | late => exact E.late
  | bind _ _ first next => exact first.bind B.lenient next
  | attempt _ h => exact h.attempt

theorem pure (a : α) : Joins env (Pure.pure a : Run η α) := .beneath (observes_pure a)

theorem modify {f : World η → World η} (h : ∀ w, (f w).bindings = w.bindings) :
    Joins env (modify f) := .aside (f := fun w => ((), f w)) h

theorem ite {c : Prop} [Decidable c] {x y : Run η α} (h : Joins env x) (h' : Joins env y) :
    Joins env (if c then x else y) := by
  split
  · exact h
  · exact h'

theorem ignoreFailure {x : Run η Unit} (h : Joins env x) : Joins env (ignoreFailure x) :=
  h.attempt.bind fun _ => pure _

theorem enqueueConnect (b : Ref .binding) : Joins env (enqueueConnect env b) := by
  have ask (request : Bool) : Joins env (if request then
      Run.modify fun w : World η => w.requestFrame .connects else Pure.pure ()) :=
    ite (modify fun _ => rfl) (pure ())
  refine .bind (.aside (by exact fun _ => rfl)) fun (now, request) => ?_
  exact ite ((connect b false).ignoreFailure.bind fun _ => ask request)
    ((pure ()).bind fun _ => ask request)

theorem drainConnects : ∀ rounds connected, Joins env (drainConnects env rounds connected)
  | 0, _ => .beneath .cutOff
  | rounds + 1, connected => by
    have goOn := drainConnects rounds (connected + 1)
    refine .bind (.aside fun w => ?_) fun next => ?_
    · cases w.connects.pop? <;> rfl
    cases next with
    | none => exact pure ()
    | some b =>
      refine (connect b true).ignoreFailure.bind fun _ => ite ?_ goOn
      exact late.bind fun late => ite (pure ()) goOn

theorem flushConnects : Joins env (flushConnects env) :=
  (drainConnects _ _).bind fun _ => .bind (modify (by exact fun _ => rfl)) fun _ =>
    .bind (.beneath (observes_read _)) fun _ => ite (pure ()) (modify (by exact fun _ => rfl))

/-- **A frame** connects bindings, and apart from that it leaves them alone. -/
theorem runFrame : Joins env (runFrame env) := by
  have tasks : ∀ frames, Joins env (forEach frames (runFrameTask env)) := by
    intro frames
    induction frames with
    | nil => exact pure ()
    | cons task rest ih =>
      refine .bind ?_ fun _ => ih
      cases task with
      | poll => exact .beneath beneath_poll
      | connects => exact flushConnects
      | hook h => exact .beneath (.fire h _)
  refine .bind (.aside (by exact fun _ => rfl)) fun frames => (tasks frames).bind fun _ => ?_
  exact .bind (.bind (.beneath beneath_flushMicrotasks) fun _ => pure _) fun _ => pure _

end Joins

end Run

/-! ### What binds no binding anew -/

/-- A relation that minds of bindings only their expressions and what they are bound to. -/
structure OfSources (T : World η → World η → Prop) : Prop extends OfBindings T where
  modify : ∀ (w : World η) (b : Ref .binding) (f : BindingCell → BindingCell),
    (∀ cell, (f cell).expression = cell.expression ∧ (f cell).source = cell.source) →
      T w (w.modifyBinding b f)

theorem World.ofSources_staysUnbound (b : Ref .binding) :
    OfSources (World.StaysUnbound (η := η) b) where
  toOfBindings := ofBindings_staysUnbound b
  modify w b' f h := staysUnbound_modifyBinding w b' f fun _ cell unbound => (h cell).2.trans unbound

namespace Run

variable {env : Env η} {T : World η → World η → Prop} {b : Ref .binding}

/-- Changes of a binding that leave its source alone, and a subscription less. -/
theorem moves_modifyBinding (B : OfSources T) (b : Ref .binding) (f : BindingCell → BindingCell)
    (h : ∀ cell, (f cell).expression = cell.expression ∧ (f cell).source = cell.source)
    (s : Option (Ref .subscription)) :
    (modify fun w : World η => (w.modifyBinding b f).disposeOption s).Moves T := fun w =>
  B.trans (B.modify w b f h) (B.lenient.of_canopy (by simp))

theorem moves_keepSource (B : OfSources T) (b : Ref .binding) (observer : Observer)
    (s : Ref .subscription) : (keepSource b observer s).Moves T := by
  have L := B.lenient
  refine Moves.bind L (fun w => L.still rfl) fun cell => ?_
  split
  · exact moves_modifyBinding B b (fun cell =>
      { cell with sourceObserver := some observer, sourceSubscription := some s })
      (fun _ => ⟨rfl, rfl⟩) _
  · exact fun w => L.of_canopy (by simp)

/-- Following what an expression has been connected to. -/
theorem moves_follow (B : OfSources T) (E : env.Moves T) (b : Ref .binding) (scope : Scope)
    (e : Expr) : Moves T (do
      let info ← e.connect env (.binding b) scope
      match info.observer with
      | some observer => keepSource b observer (← env.subscribe observer (.source b))
      | none => Pure.pure ()) := by
  have L := B.lenient
  refine Moves.bind L ((beneath_connect env _ scope e).moves L E) fun info => ?_
  split
  · exact Moves.bind L (E.subscribe _ _) fun s => moves_keepSource B b _ s
  · exact fun w => L.still rfl

/-- **Connecting** binds nothing. -/
theorem moves_connectBinding (B : OfSources T) (E : env.Moves T) (b : Ref .binding)
    (evaluate : Bool) : (connectBinding env b evaluate).Moves T := by
  have L := B.lenient
  refine Moves.bind L (fun w => L.still rfl) fun cell => ?_
  split
  · cases evaluate with
    | false => exact Moves.bind L (fun w => L.still rfl) fun _ => moves_follow B E b _ _
    | true =>
      refine Moves.bind L ((beneath_eval env _ _ _).moves L E) fun v => ?_
      exact Moves.bind L ((beneath_writeLeaf _ v).moves L E) fun _ => moves_follow B E b _ _
  · exact fun w => L.still rfl

theorem moves_subscribeTarget (B : OfSources T) (E : env.Moves T) (b : Ref .binding) :
    (subscribeTarget b).Moves T := by
  have L := B.lenient
  refine Moves.bind L (fun w => L.still rfl) fun cell => ?_
  split
  · exact fun w => L.still rfl
  · refine Moves.bind L ((beneath_subscribeLeaf _ _).moves L E) fun s =>
      Moves.bind L (fun w => L.still rfl) fun cell => ?_
    split
    · exact fun w => L.of_canopy (by simp)
    · exact moves_modifyBinding B b (fun cell => { cell with targetSubscription := some s })
        (fun _ => ⟨rfl, rfl⟩) _

/-- What starting a binding ends with. -/
theorem moves_mode (B : OfSources T) (E : env.Moves T) (b : Ref .binding) (mode : Mode) :
    Moves T (match mode with
      | .oneTime => Pure.pure ()
      | .toView => enqueueConnect env b
      | .twoWay => do
        connectBinding env b false
        subscribeTarget b
      | .fromView => subscribeTarget b) := by
  have L := B.lenient
  cases mode with
  | oneTime => exact fun w => L.still rfl
  | toView => exact (Joins.enqueueConnect b).moves B.toOfBindings E (moves_connectBinding B E)
  | twoWay =>
    exact Moves.bind L (moves_connectBinding B E b false) fun _ => moves_subscribeTarget B E b
  | fromView => exact moves_subscribeTarget B E b

theorem moves_startBinding (B : OfSources T) (E : env.Moves T) (b : Ref .binding)
    (cell : BindingCell) (scope : Scope) : (startBinding env b cell scope).Moves T := by
  have L := B.lenient
  have ends := moves_mode B E b cell.mode
  exact moves_ite
    (Moves.bind L ((beneath_eval env _ scope _).moves L E) fun v =>
      Moves.bind L ((beneath_writeLeaf _ v).moves L E) fun _ => ends)
    (Moves.bind L (fun w => L.still rfl) fun _ => ends)

/-- A binding that fails to start is unbound. -/
theorem moves_tryStart (B : OfSources T) (E : env.Moves T) {b : Ref .binding}
    (unbind : ∀ w : World η, T w (w.unbind b)) (cell : BindingCell) (scope : Scope) : Moves T (do
      match ← attempt (startBinding env b cell scope) with
      | .ok () => Pure.pure ()
      | .error cause =>
        modify fun w => w.unbind b
        fail cause) := by
  have L := B.lenient
  refine Moves.bind L (moves_startBinding B E b cell scope).attempt fun result => ?_
  split
  · exact fun w => L.still rfl
  · exact Moves.bind L (fun w => unbind w) fun _ w => L.still rfl

/-- **Binding** moves the world as unbinding and putting another source in place do. -/
theorem moves_bindTo (B : OfSources T) (E : env.Moves T) {b : Ref .binding}
    (unbind : ∀ w : World η, T w (w.unbind b)) {scope : Scope}
    (turn : ∀ w : World η, T w (w.modifyBinding b fun cell => { cell with source := some scope })) :
    (bindTo env b scope).Moves T := by
  have L := B.lenient
  refine Moves.bind L (fun w => L.still rfl) fun cell => ?_
  split
  · exact fun w => L.still rfl
  next cell =>
    refine Moves.bind L (fun w => L.trans (unbind w) (turn _)) fun _ => ?_
    split
    · exact Moves.bind L (fun w => L.of_canopy (by simp)) fun _ =>
        moves_tryStart B E unbind cell scope
    · exact Moves.bind L (fun w => L.still rfl) fun _ => moves_tryStart B E unbind cell scope

/-- **Connecting** leaves unbound what is unbound. -/
theorem unbinds_connectBinding (E : env.Moves (World.StaysUnbound b)) (b' : Ref .binding)
    (evaluate : Bool) : (connectBinding env b' evaluate).Moves (World.StaysUnbound b) :=
  moves_connectBinding (World.ofSources_staysUnbound b) E b' evaluate

/-- **Binding another binding** leaves a binding unbound. -/
theorem unbinds_bindTo (E : env.Moves (World.StaysUnbound b)) {b' : Ref .binding} (other : b ≠ b')
    (scope : Scope) : (bindTo env b' scope).Moves (World.StaysUnbound b) :=
  moves_bindTo (World.ofSources_staysUnbound b) E (fun w => World.staysUnbound_unbind w b')
    fun w => World.staysUnbound_modifyBinding w b' _ fun same => absurd same other

end Run

/-! ### Aloof computations -/

/-- What a host may do with an engine that does not bind `b`: anything that works beneath the
bindings, any change after which `b` is unbound if it was, binding other bindings, connecting,
flushing and running frames, one after the other and depending on all that it sees. -/
inductive Aloof (env : Env η) (b : Ref .binding) : {α : Type} → Run η α → Prop
  | beneath {α : Type} {x : Run η α} (h : Run.Beneath env x) : Aloof env b x
  | aside {α : Type} {f : World η → α × World η} (h : ∀ w, World.StaysUnbound b w (f w).2) :
      Aloof env b (Run.update f)
  | bind {α β : Type} {x : Run η α} {f : α → Run η β} (first : Aloof env b x)
      (next : ∀ a, Aloof env b (f a)) : Aloof env b (x >>= f)
  | attempt {α : Type} {x : Run η α} (h : Aloof env b x) : Aloof env b x.attempt
  | bindTo {b' : Ref .binding} (other : b ≠ b') (scope : Scope) :
      Aloof env b (Run.bindTo env b' scope)
  | connect (b' : Ref .binding) (evaluate : Bool) :
      Aloof env b (Run.connectBinding env b' evaluate)
  | flush : Aloof env b (Run.flushMicrotasks env)
  | frame : Aloof env b (Run.runFrame env)

/-- A host whose functions, converters and hooks do not bind `b`. -/
structure Host.Aloof (host : Host η) (b : Ref .binding) : Prop where
  call : ∀ env f this args, ViewBinding.Aloof env b (host.call env f this args)
  convert : ∀ env c direction v args, Run.Beneath env (host.convert c direction v args)
  fire : ∀ env hook occasion, ViewBinding.Aloof env b (host.fire env hook occasion)

section
variable {env : Env η} {b : Ref .binding} {host : Host η}

/-- **What does not bind** leaves unbound what is unbound. -/
theorem Aloof.moves {x : Run η α} (aloof : Aloof env b x)
    (E : env.Moves (World.StaysUnbound b)) : x.Moves (World.StaysUnbound b) := by
  have L := World.lenient_staysUnbound (η := η) b
  induction aloof with
  | beneath h => exact h.moves L E
  | aside h => exact h
  | bind _ _ first next => exact first.bind L next
  | attempt _ h => exact h.attempt
  | bindTo other scope => exact Run.unbinds_bindTo E other scope
  | connect b' evaluate => exact Run.unbinds_connectBinding E b' evaluate
  | flush => exact moves_flush L E
  | frame =>
    exact Run.Joins.runFrame.moves (World.ofBindings_staysUnbound b) E (Run.unbinds_connectBinding E)

/-- **The callbacks of a machine** move the world as the host's functions, converters and hooks do. -/
theorem Host.machine_moves {T : World η → World η → Prop} (B : OfBindings T) (rounds : Nat)
    (call : ∀ env : Env η, env.Moves T → ∀ f this args, (host.call env f this args).Moves T)
    (convert : ∀ c direction v args, (host.convert c direction v args).Moves T)
    (fire : ∀ env : Env η, env.Moves T → ∀ hook occasion, (host.fire env hook occasion).Moves T) :
    ∀ depth, (machine host rounds depth).Moves T := by
  have L := B.lenient
  have look : host.look.Moves T := fun w => B.aside rfl
  intro depth
  induction depth with
  | zero =>
    exact ⟨fun _ _ _ _ => trivial, convert, fun _ _ _ => trivial, fun _ _ _ _ => trivial,
      fun _ _ _ => trivial, look⟩
  | succ depth ih =>
    exact ⟨call _ ih, convert, fire _ ih, fun s new old => (Run.beneath_react s new old).moves L ih,
      fun observer s => (Run.beneath_subscribe observer s).moves L ih, look⟩

/-- **The callbacks of a machine** with an aloof host leave unbound what is unbound. -/
theorem Host.Aloof.moves_machine (aloof : host.Aloof b) (rounds : Nat) (depth : Nat) :
    (machine host rounds depth).Moves (World.StaysUnbound b) :=
  machine_moves (World.ofBindings_staysUnbound b) rounds
    (fun _ E f this args => (aloof.call _ f this args).moves E)
    (fun c direction v args =>
      (aloof.convert _ c direction v args).moves_of_dead (World.lenient_staysUnbound b))
    (fun _ E hook occasion => (aloof.fire _ hook occasion).moves E) depth

end

end ViewBinding
