import ViewBinding.Proofs.Composite.Accounts
import ViewBinding.Proofs.Custody.Runs

/-!
# Custody — paths, composites and telling

Subscribing to a path or a composite registers the subscriber first and makes its subscription last.
In between the observer follows what it watches, which may call back into anything, and where that fails
the registration is taken back (`enters_subscribePath`, `enters_subscribeComposite`).

A part of a composite keeps the subscription that it is handed, or disposes it if it has one by then
(`guards_followPart`), and disposes the one that it lets go (`guards_reconnectPart`).
-/

namespace ViewBinding

namespace World

variable {η : Type} {w : World η} {σ : Subscriber} {loose : List (Ref .subscription)}
  {pending : List (Observer × Token)} {c : Ref .composite} {i : Nat} {part : Part}
  {s : Ref .subscription}

/-! ### What the parts of a composite keep -/

theorem mem_keeps_part : s ∈ w.board.keeps (.part c) ↔ ∃ i, w.Retains c i s := by
  change s ∈ w.composites.listAt CompositeCell.kept c ↔ _
  constructor
  · intro m
    obtain ⟨cell, get, m⟩ := Store.exists_of_mem_listAt m
    obtain ⟨part, m, keeps⟩ := List.mem_filterMap.1 m
    obtain ⟨i, lt, rfl⟩ := List.mem_iff_getElem.1 m
    refine ⟨i, _, ?_, keeps⟩
    simp [part?, get]
  · rintro ⟨i, part, is, keeps⟩
    obtain ⟨cell, get, is⟩ := Option.bind_eq_some_iff.1 is
    rw [Store.listAt_of_get? get]
    refine List.mem_filterMap.2 ⟨part, ?_, keeps⟩
    exact Array.mem_toList_iff.2 (Array.mem_of_getElem? is)

/-- A part keeps a subscription, or lets one go. -/
theorem custody_modifyPart {f : Part → Part} {loose' : List (Ref .subscription)}
    (A : w.board.Custody σ loose pending) (is : w.part? c i = some part)
    (own : σ = .part c → ∀ s, part.subscription = some s ∨ s ∈ loose →
      (f part).subscription = some s ∨ s ∈ loose')
    (others : σ ≠ .part c → ∀ s ∈ loose, s ∈ loose') :
    (w.modifyPart c i f).board.Custody σ loose' pending := by
  have callbacks : (w.modifyPart c i f).board.composites = w.board.composites :=
    w.composites.listAt_modify c (by exact fun _ => rfl)
  have registered : (w.modifyPart c i f).board.registered = w.board.registered := by
    funext ob
    cases ob with
    | composite c' => exact congrFun callbacks c'
    | leaf l => cases l <;> rfl
    | path p => rfl
  refine A.rearranges registered rfl rfl rfl rfl fun s held => ?_
  by_cases mine : σ = .part c
  · subst mine
    obtain kept | m := held
    · obtain ⟨i', keeps⟩ := mem_keeps_part.1 kept
      by_cases here : i' = i
      · subst here
        obtain ⟨part', is', keeps⟩ := keeps
        cases is.symm.trans is'
        refine (own rfl s (.inl keeps)).imp_left fun keeps => mem_keeps_part.2 ⟨i', ?_⟩
        exact (retains_modifyPart is).2 (.inl ⟨rfl, rfl, keeps⟩)
      · refine .inl (mem_keeps_part.2 ⟨i', (retains_modifyPart is).2 (.inr ⟨?_, keeps⟩)⟩)
        exact fun same => here same.2
    · refine (own rfl s (.inr m)).imp_left fun keeps => mem_keeps_part.2 ⟨i, ?_⟩
      exact (retains_modifyPart is).2 (.inl ⟨rfl, rfl, keeps⟩)
  · refine held.imp (fun kept => ?_) (others mine s)
    cases σ with
    | part c' =>
      obtain ⟨i', keeps⟩ := mem_keeps_part.1 kept
      refine mem_keeps_part.2 ⟨i', (retains_modifyPart is).2 (.inr ⟨?_, keeps⟩)⟩
      rintro ⟨rfl, -⟩
      exact mine rfl
    | _ => exact kept

end World

namespace Run

variable {η : Type} {σ τ : Subscriber} {env : Env η}

/-! ### Paths -/

section
variable (E : env.Guards σ)
include E

theorem guards_pathObjectChanged (keeper : σ.IsKeeper) (p : Ref .path) (object : Value) :
    (pathObjectChanged env p object).Guards σ := by
  refine (guards_read _).bind fun cell => ?_
  split
  · exact guards_pure _
  · refine (guards_unseenUpdate (by simp)).bind fun right => (guards_modify fun w =>
      .trans (.of_eq (by simp)) (World.guards_disposeOption _ _)).bind fun _ => ?_
    split
    · exact (Notifies.tellPath p _).guards E
    next leaf =>
      refine ((enters_subscribeLeaf leaf _).guards (keeper.ne (.pathMember p) id)).attempt.bind
        fun result => ?_
      split
      · exact (guards_unseen (by simp)).bind fun _ => (guards_read _).bind fun v =>
          (Notifies.tellPath p v).guards E
      · exact (guards_pure _).bind fun _ => (guards_read _).bind fun v =>
          (Notifies.tellPath p v).guards E

theorem guards_activate (keeper : σ.IsKeeper) (p : Ref .path) : (activate env p).Guards σ := by
  refine (guards_read _).bind fun cell => ?_
  split
  · exact guards_pure _
  · split
    · exact guards_pure _
    · refine ((E.subscribe _ _).guards (keeper.ne (.pathObject p) id)).bind fun left =>
        ((guards_read _).bind fun right => ?_).bind fun _ => guards_unseen (by simp)
      split
      · exact ((enters_subscribeLeaf _ _).guards (keeper.ne (.pathMember p) id)).map _
      · exact guards_pure _

theorem enters_subscribePath (keeper : σ.IsKeeper) (p : Ref .path) (τ : Subscriber) :
    (subscribePath env p τ).Enters σ τ := by
  intro w loose pending A
  have added := World.custody_add (A.draws (World.draws_freshToken w)) (.path p) trivial
    w.freshToken.1 τ
  have followed := guards_activate E keeper p _ _ _ added
  refine yields_bind.2 (yields_update.2 (yields_bind.2 (yields_modify.2 (yields_bind.2
    (yields_attempt.2 (followed.mono (fun _ w' A => ?_) fun w' A cause _ => ?_))))))
  · exact World.custody_callbackSubscription A
  · have removed := World.custody_remove A trivial
    exact yields_bind.2 (yields_modify.2 removed)

/-! ### Composites -/

/-- **A part subscribes** and keeps the subscription, unless it has one by then. -/
theorem guards_followPart (c : Ref .composite) (index : Nat) (observer : Observer) :
    (followPart env c index observer).Guards σ := by
  intro w loose pending A
  refine yields_bind.2 ((E.subscribe observer (.part c) w loose pending A).mono (fun s w' A => ?_)
    fun _ A => A)
  refine yields_bind.2 (yields_read.2 ?_)
  split
  next is =>
    refine yields_modify.2 (World.custody_modifyPart A is (fun own s' held => ?_) fun other s' m => ?_)
    · obtain none | m := held
      · cases none
      · obtain m | ⟨rfl, -⟩ := Subscriber.mem_charge.1 m
        · exact .inr m
        · exact .inl rfl
    · exact (Subscriber.mem_charge.1 m).resolve_right fun own => other own.2.symm
  · exact World.custody_disposeEntered A

/-- **A part follows what it watches**, or lets its subscription go. -/
theorem guards_reconnectPart (c : Ref .composite) (on : Bool) (primary : Option Value)
    (index : Nat) : (reconnectPart env c on primary index).Guards σ := by
  intro w loose pending A
  refine yields_bind.2 (yields_read.2 ?_)
  split
  · exact A
  next part is =>
    split
    · refine (((Notifies.partInfo c index part).guards E).bind fun info => ?_) w loose pending A
      split
      · exact guards_followPart E c index _
      · exact guards_pure _
    · refine yields_modify.2 (World.custody_disposeOption
        (World.custody_modifyPart A is (fun _ s held => .inr ?_) fun _ s m => ?_))
      · exact List.mem_append.2 (held.imp_left Option.mem_toList.2)
      · exact List.mem_append_right _ m

theorem guards_reconnect (c : Ref .composite) (on : Bool) : (reconnect env c on).Guards σ :=
  (guards_read _).bind fun primary => (guards_read _).bind fun _ =>
    guards_forEach fun index => guards_reconnectPart E c on primary index

theorem guards_settle (c : Ref .composite) : ∀ rounds, (settle env c rounds).Guards σ
  | 0 => guards_cutOff
  | rounds + 1 => by
    refine ((Notifies.reevaluate c).guards E).bind fun _ => (guards_read _).bind fun on =>
      (guards_reconnect E c on).ignoreFailure.bind fun _ => (guards_read _).bind fun rerun => ?_
    split
    · exact (guards_unseen fun w => w.board_modifyComposite c (by simp) (by exact fun _ => rfl)).bind
        fun _ => guards_settle c rounds
    · exact guards_unseen fun w => w.board_modifyComposite c (by simp) (by exact fun _ => rfl)

theorem guards_partChanged (c : Ref .composite) : (partChanged env c).Guards σ := by
  refine (guards_read _).bind fun cell => ?_
  split
  · exact guards_pure _
  · split
    · exact guards_unseen fun w => w.board_modifyComposite c (by simp) (by exact fun _ => rfl)
    · exact (guards_unseen fun w => w.board_modifyComposite c (by simp) (by exact fun _ => rfl)).bind
        fun _ => guards_settle E c _

theorem enters_subscribeComposite (c : Ref .composite) (τ : Subscriber) :
    (subscribeComposite env c τ).Enters σ τ := by
  intro w loose pending A
  have added := World.custody_add (A.draws (World.draws_freshToken w)) (.composite c) trivial
    w.freshToken.1 τ
  refine yields_bind.2 (yields_update.2 (yields_bind.2 (yields_modify.2 (yields_bind.2
    (yields_read.2 ?_)))))
  split
  · refine yields_bind.2 (yields_attempt.2
      ((guards_reconnect E c true _ _ _ added).mono (fun _ w' A => ?_) fun w' A cause _ => ?_))
    · exact World.custody_callbackSubscription A
    · have removed := World.custody_remove A trivial
      exact yields_bind.2 (yields_modify.2 (yields_bind.2
        ((guards_reconnect E c false _ _ _ removed).mono (fun _ _ A => A) fun _ A => A)))
  · exact World.custody_callbackSubscription added

/-- **Subscribing** keeps custody. -/
theorem enters_subscribe (keeper : σ.IsKeeper) (observer : Observer) (τ : Subscriber) :
    (subscribe env observer τ).Enters σ τ := by
  cases observer with
  | leaf leaf => exact enters_subscribeLeaf leaf τ
  | path p => exact enters_subscribePath E keeper p τ
  | composite c => exact enters_subscribeComposite E c τ

/-! ### Telling -/

theorem guards_tellPlaceholder (r : Ref .placeholder) (new old : Value) :
    (tellPlaceholder env r new old).Guards σ := by
  refine (guards_modify fun w => w.guards_resolvePlaceholder r).bind fun _ =>
    (guards_read _).bind fun cell => ?_
  split
  · exact (Notifies.announceAll _ new old).guards E
  · exact guards_pure _

theorem guards_dispatchRecords (d : Ref .dispatcher) (records : List ChangeRecord) :
    (dispatchRecords env d records).Guards σ := by
  refine (guards_read _).bind fun cell => ?_
  split
  · exact guards_pure _
  · refine (guards_read _).bind fun live => ?_
    split
    · refine guards_forEach fun target => ?_
      obtain ⟨leaf, record⟩ := target
      refine (guards_read _).bind fun new => ?_
      split
      · exact (Notifies.tellProperty _ new _).guards E
      · exact guards_tellPlaceholder E _ new _
      · exact guards_pure _
    · exact guards_pure _

theorem guards_deliver (o : Ref .object) : (deliver env o).Guards σ := by
  refine (guards_unseenUpdate (by simp)).bind fun (records, listeners) => ?_
  dsimp only
  split
  · exact guards_pure _
  · refine guards_forEach fun l => ?_
    cases l with
    | dispatcher d => exact guards_dispatchRecords E d records
    | hook h => exact E.fire h _

/-! ### Writing -/

theorem guards_writeObserver (keeper : σ.IsKeeper) (observer : Observer) (v : Value) :
    (writeObserver env observer v).Guards σ := by
  cases observer with
  | leaf l => exact guards_writeLeaf E keeper l v
  | path r =>
    refine (guards_read _).bind fun right => ?_
    split
    · exact guards_writeLeaf E keeper _ v
    · exact guards_pure _
  | composite r =>
    refine (guards_read _).bind fun cell => ?_
    split
    · exact guards_fail _
    · exact guards_pure _

/-! ### Microtasks -/

theorem guards_runMicrotask (task : Microtask) : (runMicrotask env task).Guards σ := by
  cases task with
  | deliver o => exact guards_deliver E o
  | setter s => exact (Notifies.tellSetter s).guards E
  | contents c => exact (Notifies.tellContents c).guards E
  | hook h => exact E.fire h _

/-! ### Reacting -/

theorem guards_updateTarget (keeper : σ.IsKeeper) (b : Ref .binding) (v : Value) :
    (updateTarget env b v).Guards σ := by
  refine (guards_read _).bind fun cell => ?_
  split
  · exact guards_writeLeaf E keeper _ v
  · exact guards_pure _

theorem guards_sourceChanged (keeper : σ.IsKeeper) (b : Ref .binding) (new : Value) :
    (sourceChanged env b new).Guards σ := by
  refine (guards_read _).bind fun cell => ?_
  split
  · refine (guards_read _).bind fun v => ?_
    split
    · exact guards_pure _
    · exact (guards_updateTarget E keeper b new).ignoreFailure
  · exact guards_pure _

/-- **Whoever is told something** keeps custody. -/
theorem guards_react (keeper : σ.IsKeeper) (τ : Subscriber) (new old : Value) :
    (react env τ new old).Guards σ := by
  cases τ with
  | pathObject p => exact guards_pathObjectChanged E keeper p new
  | pathMember p => exact (Notifies.tellPath p new).guards E
  | part c => exact guards_partChanged E c
  | source b => exact guards_sourceChanged E keeper b new
  | target b => exact ((Notifies.updateSource b new).guards E).ignoreFailure
  | options r => exact guards_unseen (by simp)
  | hook h => exact E.fire h _

/-! ### Flushing -/

theorem guards_drainMicrotasks : ∀ rounds ran, (drainMicrotasks env rounds ran).Guards σ
  | 0, _ => guards_cutOff
  | rounds + 1, ran => by
    refine (guards_read _).bind fun tasks => ?_
    split
    · exact guards_pure _
    · exact (guards_unseen (by exact fun _ => rfl)).bind fun _ =>
        (guards_runMicrotask E _).bind fun _ => guards_drainMicrotasks rounds (ran + 1)

theorem guards_flushMicrotasks : (flushMicrotasks env).Guards σ := by
  refine (guards_read _).bind fun flushing => ?_
  split
  · exact guards_pure _
  · refine (guards_unseen (f := markFlushing true) fun _ => rfl).bind fun _ w loose pending A => ?_
    have drained := guards_drainMicrotasks E env.rounds 0 w loose pending A
    unfold Yields at *
    unfold ensuring
    generalize drainMicrotasks env env.rounds 0 w = result at drained ⊢
    obtain ⟨_ | _ | _ | _, w'⟩ := result <;> exact drained

end

end Run

end ViewBinding
