import ViewBinding.Proofs.Queue.Observers
import ViewBinding.Proofs.Queue.Unfailing

/-!
# Queue — scripts

A script is what a host may do with an engine: anything that works beneath the bindings, anything
that leaves the connects alone, flushing, and, where the queue is at hand, enqueueing, changing the
threshold and running frames, one after the other and depending on all that it sees.  Binding,
unbinding and connecting are scripts.  The functions, converters and hooks of a scripted host are
scripts themselves, so a connect may enqueue other bindings, and a frame may run within a callback.

So what is shown by induction of scripts is shown of whatever such a host makes of an engine.
-/

namespace ViewBinding

variable {η α β : Type}

/-- What a host may do with an engine.  The operations of the queue are at hand if `queue` holds. -/
inductive Script (env : Env η) (queue : Prop) : {α : Type} → Run η α → Prop
  | beneath {α : Type} {x : Run η α} (h : Run.Beneath env x) : Script env queue x
  /-- Changes that leave the connects and the requests for them alone. -/
  | aside {α : Type} {f : World η → α × World η}
      (h : ∀ w, (f w).2.connects = w.connects ∧ (f w).2.requests = w.requests) :
      Script env queue (Run.update f)
  | bind {α β : Type} {x : Run η α} {f : α → Run η β} (first : Script env queue x)
      (next : ∀ a, Script env queue (f a)) : Script env queue (x >>= f)
  | attempt {α : Type} {x : Run η α} (h : Script env queue x) : Script env queue x.attempt
  | flush : Script env queue (Run.flushMicrotasks env)
  | setThreshold (h : queue) (f : World η → Nat) :
      Script env queue (Run.modify fun w => w.setThreshold (f w))
  | enqueue (h : queue) (b : Ref .binding) : Script env queue (Run.enqueueConnect env b)
  | frame (h : queue) : Script env queue (Run.runFrame env)

/-- A host that does nothing but take scripts.  Its hooks have nobody to fail to. -/
structure Host.Scripted (host : Host η) : Prop where
  call : ∀ env f this args, Script env True (host.call env f this args)
  convert : ∀ env c direction v args, Run.Beneath env (host.convert c direction v args)
  fire : ∀ env hook occasion, Script env True (host.fire env hook occasion)
  unfailing : ∀ env hook occasion, (host.fire env hook occasion).Unfailing

namespace Script

variable {env : Env η} {queue : Prop}

theorem pure (a : α) : Script env queue (Pure.pure a : Run η α) := .beneath (Run.observes_pure a)

theorem read (f : World η → α) : Script env queue (Run.read f) := .beneath (Run.observes_read f)

theorem ite {c : Prop} [Decidable c] {x y : Run η α} (h : Script env queue x)
    (h' : Script env queue y) : Script env queue (if c then x else y) := by
  split
  · exact h
  · exact h'

theorem map {x : Run η α} (h : Script env queue x) (f : α → β) : Script env queue (f <$> x) :=
  h.bind fun a => pure (f a)

theorem discard {x : Run η α} (h : Script env queue x) :
    Script env queue (discard x : Run η PUnit) := h.map _

theorem ignoreFailure {x : Run η Unit} (h : Script env queue x) :
    Script env queue (Run.ignoreFailure x) := h.attempt.discard

/-- A change of the world that leaves the connects and the requests for them alone. -/
theorem change {f : World η → World η}
    (h : ∀ w, (f w).connects = w.connects ∧ (f w).requests = w.requests) :
    Script env queue (Run.modify f) := aside (f := fun w => ((), f w)) h

/-- What leaves the layer of bindings alone leaves its connects alone. -/
theorem connects_of_canopy {w w' : World η} (h : w'.canopy = w.canopy) :
    w'.connects = w.connects ∧ w'.requests = w.requests :=
  ⟨congrArg (·.layer.connects) h, congrArg (·.layer.requests) h⟩

theorem connects_unbind (w : World η) (b : Ref .binding) :
    (w.unbind b).connects = w.connects ∧ (w.unbind b).requests = w.requests := by
  unfold World.unbind
  split
  · exact ⟨rfl, rfl⟩
  · split
    · exact ⟨rfl, rfl⟩
    · let idle := w.modifyBinding b fun cell =>
        { cell with
          source := none, sourceObserver := none, sourceSubscription := none,
          targetSubscription := none }
      dsimp only
      split
      · exact connects_of_canopy (w := idle) (by simp [idle])
      · exact connects_of_canopy (w := idle) (by simp [idle])

/-- Unbinding is a script. -/
theorem unbind (b : Ref .binding) : Script env queue (Run.modify fun w => w.unbind b) :=
  change fun w => connects_unbind w b

theorem enable : Script env True (Run.modify World.enableQueue) :=
  setThreshold trivial fun w => w.config.threshold

theorem disable : Script env True (Run.modify World.disableQueue) :=
  setThreshold trivial fun _ => Nat.pow 2 64 - 1

theorem newBinding (e : Ref .element) (property : String) (expression : Expr) (mode : Mode) :
    Script env queue (Run.update fun w => w.newBinding e property expression mode) :=
  aside fun w => by
    have found := connects_of_canopy (w.canopy_elementObserver e property)
    exact ⟨found.1, found.2⟩

/-- What changes bindings and disposes a subscription. -/
theorem modifyBinding (b : Ref .binding) (f : World η → BindingCell → BindingCell)
    (s : Option (Ref .subscription)) :
    Script env queue (Run.modify fun w => (w.modifyBinding b (f w)).disposeOption s) :=
  change fun w => connects_of_canopy (w := w.modifyBinding b (f w)) (by simp)

theorem keepSource (b : Ref .binding) (observer : Observer) (s : Ref .subscription) :
    Script env queue (Run.keepSource b observer s) := by
  refine (read _).bind fun cell => ?_
  split
  · exact modifyBinding b (fun _ cell =>
      { cell with sourceObserver := some observer, sourceSubscription := some s }) _
  · exact .beneath (Run.observes_modify (by simp))

/-- Subscribing to what an expression has been connected to. -/
theorem follow (b : Ref .binding) (scope : Scope) (e : Expr) : Script env queue (do
    let info ← e.connect env (.binding b) scope
    match info.observer with
    | some observer => Run.keepSource b observer (← env.subscribe observer (.source b))
    | none => Pure.pure ()) := by
  refine (beneath (beneath_connect env _ scope e)).bind fun info => ?_
  split
  · exact (beneath (Run.Observes.subscribe _ _)).bind fun s => keepSource b _ s
  · exact pure ()

/-- Connecting is a script. -/
theorem connect (b : Ref .binding) (evaluate : Bool) :
    Script env queue (Run.connectBinding env b evaluate) := by
  refine (read _).bind fun cell => ?_
  split
  · exact ite
      ((beneath (beneath_eval env _ _ _)).bind fun v =>
        (beneath (Run.beneath_writeLeaf _ v)).bind fun _ => follow b _ _)
      ((pure ()).bind fun _ => follow b _ _)
  · exact pure ()

theorem subscribeTarget (b : Ref .binding) : Script env queue (Run.subscribeTarget b) := by
  refine (read _).bind fun cell => ?_
  split
  · exact pure ()
  · refine (beneath (Run.beneath_subscribeLeaf _ _)).bind fun s => (read _).bind fun cell => ?_
    split
    · exact .beneath (Run.observes_modify (by simp))
    · exact modifyBinding b (fun _ cell => { cell with targetSubscription := some s }) _

/-- What starting a binding ends with. -/
theorem startMode (b : Ref .binding) (mode : Mode) : Script env True (match mode with
    | .oneTime => Pure.pure ()
    | .toView => Run.enqueueConnect env b
    | .twoWay => do
      Run.connectBinding env b false
      Run.subscribeTarget b
    | .fromView => Run.subscribeTarget b) := by
  cases mode with
  | oneTime => exact pure ()
  | toView => exact enqueue trivial b
  | twoWay => exact (connect b false).bind fun _ => subscribeTarget b
  | fromView => exact subscribeTarget b

theorem startBinding (b : Ref .binding) (cell : BindingCell) (scope : Scope) :
    Script env True (Run.startBinding env b cell scope) :=
  ite
    ((beneath (beneath_eval env _ scope _)).bind fun v =>
      (beneath (Run.beneath_writeLeaf _ v)).bind fun _ => startMode b cell.mode)
    ((pure ()).bind fun _ => startMode b cell.mode)

/-- A binding that fails to start is unbound again. -/
theorem tryStart (b : Ref .binding) (scope : Scope) (cell : BindingCell) : Script env True (do
    match ← Run.attempt (Run.startBinding env b cell scope) with
    | .ok () => Pure.pure ()
    | .error cause =>
      Run.modify fun w => w.unbind b
      Run.fail cause) := by
  refine (startBinding b cell scope).attempt.bind fun result => ?_
  split
  · exact pure ()
  · exact (unbind b).bind fun _ => beneath (Run.Observes.fail _)

/-- Binding is a script. -/
theorem bindTo (b : Ref .binding) (scope : Scope) : Script env True (Run.bindTo env b scope) := by
  refine (read _).bind fun cell => ?_
  split
  · exact pure ()
  next cell =>
    refine Script.bind (change fun w => connects_unbind w b) fun _ => ?_
    split
    · exact (beneath (Run.observes_modify (by simp))).bind fun _ => tryStart b scope cell
    · exact (pure ()).bind fun _ => tryStart b scope cell

end Script

/-- A flush moves the world as its callbacks do. -/
theorem moves_flush {env : Env η} {T : World η → World η → Prop} (L : Lenient T) (E : env.Moves T) :
    (Run.flushMicrotasks env).Moves T :=
  Run.beneath_flushMicrotasks.moves L E

end ViewBinding
