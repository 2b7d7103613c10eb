import ViewBinding.Proofs.Queue.Telling

/-!
# Queue — observing

Evaluating, subscribing, connecting, writing through observers and telling about changes touch
neither the layer of bindings nor what composites remember of their calls, but through their
environment: they observe, and spare the flags of any composites `K`.

Only a composite that handles a change touches flags, and only its own (`observes_settle`).  So all
of that works beneath the bindings, and so does whoever is told something (`beneath_react`).  What a
binding does then is no exception: it writes its target or its source, and leaves every binding as
it is.
-/

namespace ViewBinding

variable {η α β : Type}

theorem World.Touches.canopy {w w' : World η} (h : w.Touches w') :
    w'.canopy = w.canopy := by
  cases h with
  | nothing => rfl
  | _ => simp

theorem World.Assembles.canopy {w w' : World η} (h : w.Assembles w') : w'.canopy = w.canopy := by
  cases h with
  | primary c info => exact w.canopy_modifyComposite c fun _ => rfl
  | _ => simp

namespace Run

variable {K : Ref .composite → Prop} {env : Env η} {x : Run η α}

/-! ### Straight code -/

/-- A change of a composite, which is not one of its flags. -/
theorem observes_cell (c : Ref .composite) {f : CompositeCell → CompositeCell}
    (same : ∀ cell, (f cell).flags = cell.flags) :
    Observes K env (modify fun w => w.modifyComposite c f) :=
  observes_modify fun w => w.canopy_modifyComposite c same

/-- A change of a composite whose flags do not matter. -/
theorem observes_other {c : Ref .composite} (other : ¬ K c) (f : CompositeCell → CompositeCell) :
    Observes K env (modify fun w => w.modifyComposite c f) :=
  .step (f := fun w => ((), w.modifyComposite c f)) (fun _ => rfl) fun w k m =>
    have ne : k ≠ c := fun is => other (is ▸ m)
    w.flags_modifyComposite_of_ne ne f

theorem observes_ite {c : Prop} [Decidable c] {x y : Run η α} (h : Observes K env x)
    (h' : Observes K env y) : Observes K env (if c then x else y) := by
  split
  · exact h
  · exact h'

theorem Observes.map (h : Observes K env x) (f : α → β) : Observes K env (f <$> x) :=
  h.bind fun a => observes_pure (f a)

theorem Observes.discard (h : Observes K env x) : Observes K env (discard x : Run η PUnit) :=
  h.map _

theorem Observes.ignoreFailure {x : Run η Unit} (h : Observes K env x) :
    Observes K env (ignoreFailure x) := h.attempt.discard

theorem observes_forEach {items : List α} {f : α → Run η Unit} (h : ∀ a, Observes K env (f a)) :
    Observes K env (forEach items f) := by
  induction items with
  | nil => exact observes_pure ()
  | cons a rest ih => exact (h a).bind fun _ => ih

/-! ### Evaluating, connecting and telling -/

/-- **Evaluating** is observing. -/
theorem Evaluates.observes (h : x.Evaluates env) : Observes K env x := by
  induction h with
  | step h => exact observes_update fun w => (h w).canopy
  | inspect f => exact .inspect f
  | fail cause => exact .fail cause
  | call f this args => exact .call f this args
  | callConvert c direction v args => exact .convert c direction v args
  | fire hook occasion => exact .fire hook occasion
  | bind _ _ first next => exact first.bind next

/-- **Connecting** is observing. -/
theorem Connects.observes (h : x.Connects env) : Observes K env x := by
  induction h with
  | evaluate h => exact h.observes
  | assemble h => exact observes_update fun w => (h w).canopy
  | bind _ _ first next => exact first.bind next

/-- **Telling** is observing. -/
theorem Notifies.observes (h : x.Notifies env) : Observes K env x := by
  induction h with
  | connect h => exact h.observes
  | step h => exact observes_update fun w => (h w).1
  | announce s new old => exact .announce s new old
  | attempt _ ih => exact ih.attempt
  | breakOff => exact .breakOff
  | bind _ _ first next => exact first.bind next

/-! ### Subscribing to leaves, and writing through them -/

theorem observes_subscribeLeaf (leaf : Leaf) (s : Subscriber) :
    Observes K env (subscribeLeaf leaf s : Run η (Ref .subscription)) := by
  cases leaf <;> simp only [subscribeLeaf]
  case element r =>
    refine (observes_read _).bind fun cell => ?_
    split
    · exact observes_ite (observes_update (by simp)) (Observes.fail _)
    · exact observes_update (by simp)
  all_goals exact observes_update (by simp)

theorem observes_writeSelect (r : Ref .select) (v : Value) : Observes K env (writeSelect r v) := by
  refine (observes_read _).bind fun cell => ?_
  split
  · exact observes_pure _
  · refine (observes_read _).bind fun live => ?_
    split
    · exact observes_pure _
    · exact (observes_read _).bind fun multiple => observes_ite (Observes.fail _)
        (observes_ite (observes_pure _) ((observes_modify (by simp)).bind fun _ =>
          (observes_update (by simp)).bind fun _ => observes_modify (by simp)))

theorem observes_writeLeaf (leaf : Leaf) (v : Value) : Observes K env (writeLeaf env leaf v) := by
  by_cases select : ∃ r, leaf = .select r
  · obtain ⟨r, rfl⟩ := select
    exact observes_writeSelect r v
  · exact (Notifies.writeLeaf (fun r is => select ⟨r, is⟩) v).observes

/-! ### Paths -/

theorem observes_pathObjectChanged (p : Ref .path) (object : Value) :
    Observes K env (pathObjectChanged env p object) := by
  refine (observes_read _).bind fun cell => ?_
  split
  · exact observes_pure _
  · refine (observes_update (by simp)).bind fun right =>
      (observes_modify (by simp)).bind fun _ => ?_
    split
    · exact (Notifies.tellPath p _).observes
    next leaf =>
      refine (observes_subscribeLeaf leaf _).attempt.bind fun result => ?_
      split
      · exact (observes_modify (by simp)).bind fun _ => (observes_read _).bind fun v =>
          (Notifies.tellPath p v).observes
      · exact (observes_pure _).bind fun _ => (observes_read _).bind fun v =>
          (Notifies.tellPath p v).observes

theorem observes_activate (p : Ref .path) : Observes K env (activate env p) := by
  refine (observes_read _).bind fun cell => ?_
  split
  · exact observes_pure _
  · split
    · exact observes_pure _
    · refine (Observes.subscribe _ _).bind fun left =>
        ((observes_read _).bind fun right => ?_).bind fun _ => observes_modify (by simp)
      split
      · exact (observes_subscribeLeaf _ _).map _
      · exact observes_pure _

theorem observes_subscribePath (p : Ref .path) (s : Subscriber) :
    Observes K env (subscribePath env p s) := by
  refine (observes_update (by simp)).bind fun token => (observes_modify (by simp)).bind fun _ =>
    (observes_activate p).attempt.bind fun result => ?_
  split
  · exact observes_update (by simp)
  · exact (observes_modify (by simp)).bind fun _ => Observes.fail _

/-! ### Composites -/

theorem observes_followPart (c : Ref .composite) (index : Nat) (observer : Observer) :
    Observes K env (followPart env c index observer) := by
  refine (Observes.subscribe observer _).bind fun s => (observes_read _).bind fun part => ?_
  split <;> exact observes_modify (by simp)

theorem observes_reconnectPart (c : Ref .composite) (on : Bool) (primary : Option Value)
    (index : Nat) : Observes K env (reconnectPart env c on primary index) := by
  refine (observes_read _).bind fun part => ?_
  split
  · exact observes_pure _
  · split
    · refine (Notifies.partInfo c index _).observes.bind fun info => ?_
      split
      · exact observes_followPart c index _
      · exact observes_pure _
    · exact observes_modify (by simp)

theorem observes_reconnect (c : Ref .composite) (on : Bool) : Observes K env (reconnect env c on) :=
  (observes_read _).bind fun primary => (observes_read _).bind fun _ =>
    observes_forEach fun index => observes_reconnectPart c on primary index

/-- Handling changes touches no flags but those of the composite. -/
theorem observes_settle {c : Ref .composite} (other : ¬ K c) :
    ∀ rounds, Observes K env (settle env c rounds)
  | 0 => Observes.cutOff
  | rounds + 1 => by
    refine (Notifies.reevaluate c).observes.bind fun _ => (observes_read _).bind fun on =>
      (observes_reconnect c on).ignoreFailure.bind fun _ => (observes_read _).bind fun rerun => ?_
    split
    · exact (observes_other other _).bind fun _ => observes_settle other rounds
    · exact observes_other other _

theorem observes_partChanged {c : Ref .composite} (other : ¬ K c) :
    Observes K env (partChanged env c) := by
  refine (observes_read _).bind fun found => ?_
  split
  · exact observes_pure _
  · split
    · exact observes_other other _
    · exact (observes_other other _).bind fun _ => observes_settle other _

theorem observes_subscribeComposite (c : Ref .composite) (s : Subscriber) :
    Observes K env (subscribeComposite env c s) := by
  refine (observes_update (by simp)).bind fun token =>
    (observes_cell c (by exact fun _ => rfl)).bind fun _ =>
      (observes_read _).bind fun followers => ?_
  have made : Observes K env (update fun w : World η =>
      w.callbackSubscription (.composite c) token) := observes_update (by simp)
  split
  · refine (observes_reconnect c true).attempt.bind fun result => ?_
    split
    · exact (observes_pure _).bind fun _ => made
    · exact (observes_cell c (by exact fun _ => rfl)).bind fun _ =>
        (observes_reconnect c false).bind fun _ => (Observes.fail _).bind fun _ => made
  · exact (observes_pure _).bind fun _ => made

/-- **Subscribing** is observing. -/
theorem observes_subscribe (observer : Observer) (s : Subscriber) :
    Observes K env (subscribe env observer s) := by
  cases observer with
  | leaf leaf => exact observes_subscribeLeaf leaf s
  | path p => exact observes_subscribePath p s
  | composite c => exact observes_subscribeComposite c s

/-! ### Telling -/

theorem observes_tellPlaceholder (r : Ref .placeholder) (new old : Value) :
    Observes K env (tellPlaceholder env r new old) := by
  refine (observes_modify (by simp)).bind fun _ => (observes_read _).bind fun cell => ?_
  split
  · exact (Notifies.announceAll _ new old).observes
  · exact observes_pure _

theorem observes_dispatchRecords (d : Ref .dispatcher) (records : List ChangeRecord) :
    Observes K env (dispatchRecords env d records) := by
  refine (observes_read _).bind fun cell => ?_
  split
  · exact observes_pure _
  · refine (observes_read _).bind fun live => ?_
    split
    · refine observes_forEach fun target => ?_
      obtain ⟨leaf, record⟩ := target
      refine (observes_read _).bind fun new => ?_
      split
      · exact (Notifies.tellProperty _ new _).observes
      · exact observes_tellPlaceholder _ new _
      · exact observes_pure _
    · exact observes_pure _

theorem observes_deliver (o : Ref .object) : Observes K env (deliver env o) := by
  refine (observes_update (by simp)).bind fun (records, listeners) => ?_
  dsimp only
  split
  · exact observes_pure _
  · refine observes_forEach fun l => ?_
    cases l with
    | dispatcher d => exact observes_dispatchRecords d records
    | hook h => exact Observes.fire h _

theorem observes_writeObserver (observer : Observer) (v : Value) :
    Observes K env (writeObserver env observer v) := by
  cases observer with
  | leaf l => exact observes_writeLeaf l v
  | path r =>
    refine (observes_read _).bind fun right => ?_
    split
    · exact observes_writeLeaf _ v
    · exact observes_pure _
  | composite r =>
    refine (observes_read _).bind fun cell => ?_
    split
    · exact Observes.fail _
    · exact observes_pure _

theorem observes_runMicrotask (task : Microtask) : Observes K env (runMicrotask env task) := by
  cases task with
  | deliver o => exact observes_deliver o
  | setter s => exact (Notifies.tellSetter s).observes
  | contents c => exact (Notifies.tellContents c).observes
  | hook h => exact Observes.fire h _

theorem observes_drainMicrotasks :
    ∀ rounds ran, Observes K env (drainMicrotasks env rounds ran)
  | 0, _ => Observes.cutOff
  | rounds + 1, ran => by
    refine (observes_read _).bind fun tasks => ?_
    split
    · exact observes_pure _
    · refine (observes_modify ?_).bind fun _ => (observes_runMicrotask _).bind fun _ =>
        observes_drainMicrotasks rounds _
      exact fun w => rfl

/-- **Flushing** is observing. -/
theorem observes_flushMicrotasks : Observes K env (flushMicrotasks env) := by
  have mark : ∀ (on : Bool) (w : World η), (markFlushing on w).canopy = w.canopy :=
    fun _ _ => rfl
  exact (observes_read _).bind fun _ => observes_ite (observes_pure _)
    ((observes_modify (mark true)).bind fun _ =>
      (observes_drainMicrotasks _ _).ensuring (mark false))

/-! ### Reacting -/

theorem observes_updateTarget (b : Ref .binding) (v : Value) :
    Observes K env (updateTarget env b v) := by
  refine (observes_read _).bind fun cell => ?_
  split
  · exact observes_writeLeaf _ v
  · exact observes_pure _

theorem observes_sourceChanged (b : Ref .binding) (new : Value) :
    Observes K env (sourceChanged env b new) := by
  refine (observes_read _).bind fun cell => ?_
  split
  · refine (observes_read _).bind fun v => ?_
    split
    · exact observes_pure _
    · exact (observes_updateTarget b new).ignoreFailure
  · exact observes_pure _

/-- **Whoever is told something** reacts by observing, but for a composite whose flags matter. -/
theorem observes_react {s : Subscriber} (other : ∀ c, s = .part c → ¬ K c) (new old : Value) :
    Observes K env (react env s new old) := by
  cases s with
  | pathObject p => exact observes_pathObjectChanged p new
  | pathMember p => exact (Notifies.tellPath p new).observes
  | part c => exact observes_partChanged (other c rfl)
  | source b => exact observes_sourceChanged b new
  | target b => exact (Notifies.updateSource b new).observes.ignoreFailure
  | options r => exact observes_modify (by simp)
  | hook h => exact Observes.fire h _

/-! ### Beneath the bindings -/

/-- What observes works beneath the bindings, whatever it does to composites. -/
theorem Observes.beneath (h : Observes (fun _ => False) env x) : Beneath env x := h

theorem Evaluates.beneath (h : x.Evaluates env) : Beneath env x := h.observes.beneath

theorem Notifies.beneath (h : x.Notifies env) : Beneath env x := h.observes.beneath

theorem beneath_splice (a : Ref .array) (index count : Nat) (added : List Value) :
    Beneath env (splice env a index count added) := (Notifies.splice a index count added).beneath

theorem beneath_subscribeLeaf (leaf : Leaf) (s : Subscriber) :
    Beneath env (subscribeLeaf leaf s : Run η (Ref .subscription)) :=
  (observes_subscribeLeaf leaf s).beneath

theorem beneath_writeLeaf (leaf : Leaf) (v : Value) : Beneath env (writeLeaf env leaf v) :=
  (observes_writeLeaf leaf v).beneath

/-- **Subscribing** works beneath the bindings. -/
theorem beneath_subscribe (observer : Observer) (s : Subscriber) :
    Beneath env (subscribe env observer s) := (observes_subscribe observer s).beneath

theorem beneath_deliver (o : Ref .object) : Beneath env (deliver env o) :=
  (observes_deliver o).beneath

theorem beneath_poll : Beneath env (poll env) := Notifies.poll.beneath

theorem beneath_dispatchEvent (e : Ref .element) (event : String) :
    Beneath env (dispatchEvent env e event) := (Notifies.dispatchEvent e event).beneath

theorem beneath_appendChild (e child : Ref .element) : Beneath env (appendChild env e child) :=
  (Notifies.appendChild e child).beneath

theorem beneath_removeChild (e child : Ref .element) : Beneath env (removeChild env e child) :=
  (Notifies.removeChild e child).beneath

theorem beneath_writeObserver (observer : Observer) (v : Value) :
    Beneath env (writeObserver env observer v) := (observes_writeObserver observer v).beneath

theorem beneath_flushMicrotasks : Beneath env (flushMicrotasks env) :=
  observes_flushMicrotasks.beneath

theorem beneath_updateTarget (b : Ref .binding) (v : Value) : Beneath env (updateTarget env b v) :=
  (observes_updateTarget b v).beneath

theorem beneath_updateSource (b : Ref .binding) (v : Value) : Beneath env (updateSource env b v) :=
  (Notifies.updateSource b v).beneath

/-- **Whoever is told something** reacts beneath the bindings. -/
theorem beneath_react (s : Subscriber) (new old : Value) : Beneath env (react env s new old) :=
  (observes_react (fun _ _ => id) new old).beneath

end Run

open Run

theorem beneath_eval (env : Env η) (cs : Converters) (scope : Scope) (e : Expr) :
    Beneath env (e.eval env cs scope) := (Evaluates.eval cs scope e).beneath

/-- **Connecting** works beneath the bindings. -/
theorem beneath_connect (env : Env η) (provider : Provider) (scope : Scope) (e : Expr) :
    Beneath env (e.connect env provider scope) :=
  (Connects.connect provider scope e).observes.beneath

end ViewBinding
