import ViewBinding.Proofs.Custody.Observers

/-!
# Custody — bindings

A binding keeps the subscription with its source and the one with its target, and disposes what it let
go (`guards_keepSource`, `guards_subscribeTarget`, `guards_unbind`).  So binding, connecting and
unbinding keep custody, of this binding and of any other (`guards_connectBinding`, `guards_bindTo`),
whatever the host does meanwhile.
-/

namespace ViewBinding

namespace World

variable {η : Type} {w : World η} {σ : Subscriber} {loose loose' : List (Ref .subscription)}
  {pending : List (Observer × Token)} {b : Ref .binding} {cell : BindingCell} {s : Ref .subscription}

/-! ### What a binding keeps -/

theorem keeps_source (get : w.bindings.get? b = some cell) :
    w.board.keeps (.source b) = cell.sourceSubscription.toList := Store.listAt_of_get? get

theorem keeps_target (get : w.bindings.get? b = some cell) :
    w.board.keeps (.target b) = cell.targetSubscription.toList := Store.listAt_of_get? get

/-- A binding keeps subscriptions, or lets them go. -/
theorem custody_modifyBinding {f : BindingCell → BindingCell}
    (A : w.board.Custody σ loose pending) (get : w.bindings.get? b = some cell)
    (source : σ = .source b → ∀ s, cell.sourceSubscription = some s ∨ s ∈ loose →
      (f cell).sourceSubscription = some s ∨ s ∈ loose')
    (target : σ = .target b → ∀ s, cell.targetSubscription = some s ∨ s ∈ loose →
      (f cell).targetSubscription = some s ∨ s ∈ loose')
    (others : σ ≠ .source b → σ ≠ .target b → ∀ s ∈ loose, s ∈ loose') :
    (w.modifyBinding b f).board.Custody σ loose' pending := by
  have registered : (w.modifyBinding b f).board.registered = w.board.registered := by
    funext ob
    cases ob with
    | leaf l => cases l <;> rfl
    | _ => rfl
  have get' : (w.modifyBinding b f).bindings.get? b = some (f cell) := by
    simp only [modifyBinding, Store.get?_modify_self, get, Option.map_some]
  refine A.rearranges registered rfl rfl rfl rfl fun s held => ?_
  by_cases ofSource : σ = .source b
  · subst ofSource
    rw [keeps_source get, Option.mem_toList] at held
    rw [keeps_source get', Option.mem_toList]
    exact source rfl s held
  by_cases ofTarget : σ = .target b
  · subst ofTarget
    rw [keeps_target get, Option.mem_toList] at held
    rw [keeps_target get', Option.mem_toList]
    exact target rfl s held
  have same : (w.modifyBinding b f).board.keeps σ = w.board.keeps σ := by
    cases σ with
    | source b' => exact Store.listAt_modify_of_ne _ _ _ fun is => ofSource (is ▸ rfl)
    | target b' => exact Store.listAt_modify_of_ne _ _ _ fun is => ofTarget (is ▸ rfl)
    | _ => rfl
  exact held.imp (fun kept => same ▸ kept) (others ofSource ofTarget s)

/-- Changes of a binding that leave alone what it keeps. -/
theorem guards_modifyBinding (w : World η) (b : Ref .binding) {f : BindingCell → BindingCell}
    (source : ∀ cell, (f cell).sourceSubscription = cell.sourceSubscription)
    (target : ∀ cell, (f cell).targetSubscription = cell.targetSubscription) :
    Guards σ w (w.modifyBinding b f) := by
  have sources : (w.modifyBinding b f).board.sources = w.board.sources :=
    w.bindings.listAt_modify b fun cell => congrArg Option.toList (source cell)
  have targets : (w.modifyBinding b f).board.targets = w.board.targets :=
    w.bindings.listAt_modify b fun cell => congrArg Option.toList (target cell)
  refine .of_eq ?_
  have shows : (w.modifyBinding b f).board = { w.board with
    sources := (w.modifyBinding b f).board.sources
    targets := (w.modifyBinding b f).board.targets } := rfl
  rw [shows, sources, targets]

@[simp] theorem board_newBinding (w : World η) (e : Ref .element) (property : String)
    (expression : Expr) (mode : Mode) :
    (w.newBinding e property expression mode).2.board = w.board := by
  have found := board_elementObserver w e property
  unfold newBinding
  generalize w.elementObserver e property = made at found
  obtain ⟨targetObserver, w'⟩ := made
  let cell : BindingCell := { expression, element := e, property, mode, targetObserver }
  have sources : (w'.bindings.alloc cell).listAt (·.sourceSubscription.toList) = w'.board.sources :=
    w'.bindings.listAt_alloc rfl
  have targets : (w'.bindings.alloc cell).listAt (·.targetSubscription.toList) = w'.board.targets :=
    w'.bindings.listAt_alloc rfl
  refine Eq.trans ?_ found
  change { w'.board with
    sources := (w'.bindings.alloc cell).listAt (·.sourceSubscription.toList)
    targets := (w'.bindings.alloc cell).listAt (·.targetSubscription.toList) } = _
  rw [sources, targets]

/-- **Unbinding** disposes what the binding kept. -/
theorem guards_unbind (w : World η) (b : Ref .binding) : Guards σ w (w.unbind b) := by
  intro loose pending A
  unfold unbind
  split
  · exact A
  next cell get =>
    split
    · exact A
    · have gone : ((w.modifyBinding b fun cell =>
          { cell with
            source := none, sourceObserver := none, sourceSubscription := none,
            targetSubscription := none }).board).Custody σ
          (cell.sourceSubscription.toList ++ (cell.targetSubscription.toList ++ loose)) pending := by
        refine custody_modifyBinding A get (fun _ s held => .inr ?_) (fun _ s held => .inr ?_)
          fun _ _ s m => ?_
        · simpa only [List.mem_append, Option.mem_toList] using held.imp_right Or.inr
        · simpa only [List.mem_append, Option.mem_toList] using Or.inr held
        · simpa only [List.mem_append] using Or.inr (Or.inr m)
      have disposed := custody_disposeOption (custody_disposeOption gone)
      dsimp only
      split
      · exact guards_unbindSelect _ _ loose pending disposed
      · exact disposed

end World

namespace Run

variable {η : Type} {σ : Subscriber} {env : Env η}

/-! ### Connecting -/

/-- **A binding keeps the subscription with its source**, or disposes it if it is unbound by then. -/
theorem yields_keepSource (b : Ref .binding) (observer : Observer) {w : World η}
    {s : Ref .subscription} {loose : List (Ref .subscription)} {pending : List (Observer × Token)}
    (A : w.board.Custody σ (σ.charge (.source b) s loose) pending) :
    (keepSource b observer s).Yields w (fun _ w' => w'.board.Custody σ loose pending) fun w' =>
      w'.board.Custody σ loose pending := by
  refine yields_bind.2 (yields_read.2 ?_)
  split
  next get =>
    refine yields_modify.2 (World.custody_disposeOption (World.custody_modifyBinding A get
      (fun own s' held => ?_) (fun own s' held => ?_) fun other _ s' m => ?_))
    · obtain kept | m := held
      · exact .inr (List.mem_append_left _ (Option.mem_toList.2 kept))
      · obtain m | ⟨rfl, -⟩ := Subscriber.mem_charge.1 m
        · exact .inr (List.mem_append_right _ m)
        · exact .inl rfl
    · rw [Subscriber.charge_of_ne (by rw [own]; nofun)] at held
      exact held.imp_right (List.mem_append_right _)
    · rw [Subscriber.charge_of_ne other.symm] at m
      exact List.mem_append_right _ m
  · exact World.custody_disposeEntered A

theorem guards_connectBinding (E : env.Guards σ) (keeper : σ.IsKeeper) (b : Ref .binding)
    (evaluate : Bool) : (connectBinding env b evaluate).Guards σ := by
  refine (guards_read _).bind fun cell => ?_
  split
  · split
    case' isTrue =>
      refine (guards_eval E _ _ _).bind fun v => (guards_writeLeaf E keeper _ v).bind fun _ => ?_
    all_goals
      refine (guards_connect _ _ E _).bind fun info => ?_
      split
      · intro w loose pending A
        exact yields_bind.2 ((E.subscribe _ (.source b) w loose pending A).mono
          (fun _ _ A => yields_keepSource b _ A) fun _ A => A)
      · exact guards_pure _
  · exact guards_pure _

/-- **A binding keeps the subscription with its target** in place of an earlier one. -/
theorem guards_subscribeTarget (b : Ref .binding) :
    (subscribeTarget b : Run η Unit).Guards σ := by
  refine (guards_read _).bind fun cell => ?_
  split
  · exact guards_pure _
  · intro w loose pending A
    refine yields_bind.2 ((enters_subscribeLeaf _ (.target b) w loose pending A).mono
      (fun s w' A => yields_bind.2 (yields_read.2 ?_)) fun _ A => A)
    split
    · exact World.custody_disposeEntered A
    next get =>
      refine yields_modify.2 (World.custody_disposeOption (World.custody_modifyBinding A get
        (fun own s' held => ?_) (fun own s' held => ?_) fun _ other s' m => ?_))
      · rw [Subscriber.charge_of_ne (by rw [own]; nofun)] at held
        exact held.imp_right (List.mem_append_right _)
      · obtain kept | m := held
        · exact .inr (List.mem_append_left _ (Option.mem_toList.2 kept))
        · obtain m | ⟨rfl, -⟩ := Subscriber.mem_charge.1 m
          · exact .inr (List.mem_append_right _ m)
          · exact .inl rfl
      · rw [Subscriber.charge_of_ne other.symm] at m
        exact List.mem_append_right _ m

/-! ### Binding -/

section
variable (E : env.Guards σ) (keeper : σ.IsKeeper)
include E keeper

theorem guards_enqueueConnect (b : Ref .binding) : (enqueueConnect env b).Guards σ := by
  refine (guards_unseenUpdate (by exact fun _ => rfl)).bind fun (now, request) => ?_
  have ask : (if request then modify fun w : World η => w.requestFrame .connects
      else Pure.pure ()).Guards σ := guards_ite (guards_unseen (by simp)) (guards_pure _)
  dsimp only
  split
  · exact (guards_connectBinding E keeper b false).ignoreFailure.bind fun _ => ask
  · exact (guards_pure _).bind fun _ => ask

theorem guards_startBinding (b : Ref .binding) (cell : BindingCell) (scope : Scope) :
    (startBinding env b cell scope).Guards σ := by
  have value := guards_eval E .registered scope cell.expression
  have target := guards_writeLeaf E keeper cell.targetObserver
  unfold startBinding
  cases cell.mode with
  | oneTime => exact value.bind fun v => (target v).bind fun _ => guards_pure _
  | toView => exact value.bind fun v => (target v).bind fun _ => guards_enqueueConnect E keeper b
  | twoWay =>
    exact value.bind fun v => (target v).bind fun _ =>
      (guards_connectBinding E keeper b false).bind fun _ => guards_subscribeTarget b
  | fromView => exact guards_subscribeTarget b

/-- **Binding** keeps custody, whether it fails or not. -/
theorem guards_bindTo (b : Ref .binding) (scope : Scope) : (bindTo env b scope).Guards σ := by
  refine (guards_read _).bind fun cell => ?_
  split
  · exact guards_pure _
  next cell =>
    refine (guards_modify fun w => (w.guards_unbind b).trans
      (World.guards_modifyBinding _ b (by exact fun _ => rfl) (by exact fun _ => rfl))).bind
        fun _ => ?_
    split
    case' h_1 => refine (guards_modify fun w => w.guards_bindSelect _).bind fun _ => ?_
    all_goals
      refine (guards_startBinding E keeper b cell scope).attempt.bind fun result => ?_
      split
      · exact guards_pure _
      · exact (guards_modify fun w => w.guards_unbind b).bind fun _ => guards_fail _

/-! ### Frames -/

theorem guards_drainConnects : ∀ rounds connected, (drainConnects env rounds connected).Guards σ
  | 0, _ => guards_cutOff
  | rounds + 1, connected => by
    refine (guards_unseenUpdate fun w => ?_).bind fun next => ?_
    · split <;> rfl
    cases next with
    | none => exact guards_pure _
    | some b =>
      refine (guards_connectBinding E keeper b true).ignoreFailure.bind fun _ => ?_
      split
      · refine E.late.bind fun late => ?_
        split
        · exact guards_pure _
        · exact guards_drainConnects rounds _
      · exact guards_drainConnects rounds _

theorem guards_flushConnects : (flushConnects env).Guards σ := by
  refine (guards_drainConnects E keeper _ _).bind fun _ => (guards_unseen (by exact fun _ => rfl)).bind
    fun _ => (guards_read _).bind fun size => ?_
  split
  · exact guards_pure _
  · exact guards_unseen (by simp)

/-- **A frame** keeps custody. -/
theorem guards_runFrame : (runFrame env).Guards σ := by
  refine (guards_unseenUpdate (by exact fun _ => rfl)).bind fun frames =>
    (guards_forEach fun task => ?_).bind fun _ =>
      (guards_flushMicrotasks E).discard.bind fun _ => guards_pure _
  cases task with
  | poll => exact Notifies.poll.guards E
  | connects => exact guards_flushConnects E keeper
  | hook h => exact E.fire h _

end

end Run

end ViewBinding
