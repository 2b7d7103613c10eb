import ViewBinding.Proofs.Custody.Linked

/-!
# Custody — whatever the host does

`Conduct env x` says that `x` is what a host may do with an engine: change objects, arrays and elements,
evaluate and connect expressions, write, subscribe and dispose, dispatch events, flush and run frames,
and bind, connect and unbind any binding, one after the other and depending on all that it sees.  The
functions and hooks of a conducted host do nothing else, so all of that may happen in the middle of
binding or connecting a binding, too, and the same binding may be bound and unbound there.

Wherever a run of such a host ends, with a result or with a failure, every binding is in order
(`bindings_in_order`): every registration of the binding is ended by the subscription that it keeps, and
while it is unbound it keeps nothing and is registered nowhere, unless it works both ways.  One that the
functions and hooks neither bind nor unbind is in step as well: what it keeps was linked in the scope that
it is bound to, and while it is unbound it keeps nothing, whichever way it works.

Of other bindings two things are not so.  A binding that is bound to another scope while it connects keeps the
subscription with what it was connected to before (`kept_from_former_scope`), and one that works both
ways and is unbound while it starts follows its target ever after (`followed_unbound`).
-/

namespace ViewBinding

variable {η α β : Type}

/-- What a host may do with an engine, if it binds and unbinds only bindings that it may. -/
inductive Manages (may : Ref .binding → Prop) (env : Env η) : {α : Type} → Run η α → Prop
  /-- Whatever shows neither on the board nor in the bindings, looking at the world included. -/
  | unseen {α : Type} {f : World η → α × World η} (h : ∀ w : World η,
      w.board.Draws (f w).2.board ∧ (f w).2.bindings = w.bindings) : Manages may env (Run.update f)
  | evaluate {α : Type} {x : Run η α} (h : x.Evaluates env) : Manages may env x
  | splice (a : Ref .array) (index count : Nat) (added : List Value) :
      Manages may env (Run.splice env a index count added)
  | connect (provider : Provider) (scope : Scope) (e : Expr) :
      Manages may env (e.connect env provider scope)
  | write (observer : Observer) (v : Value) : Manages may env (Run.writeObserver env observer v)
  | subscribe (observer : Observer) (hook : Ref .hook) :
      Manages may env (Run.subscribe env observer (.hook hook))
  | dispose (s : Ref .subscription) : Manages may env (Run.modify (·.dispose s))
  | dispatch (e : Ref .element) (event : String) : Manages may env (Run.dispatchEvent env e event)
  | append (e child : Ref .element) : Manages may env (Run.appendChild env e child)
  | remove (e child : Ref .element) : Manages may env (Run.removeChild env e child)
  | deliver (o : Ref .object) : Manages may env (Run.deliver env o)
  | poll : Manages may env (Run.poll env)
  | flush : Manages may env (Run.flushMicrotasks env)
  | frame : Manages may env (Run.runFrame env)
  | newBinding (e : Ref .element) (property : String) (expression : Expr) (mode : Mode) :
      Manages may env (Run.update (·.newBinding e property expression mode))
  | bindTo {b : Ref .binding} (h : may b) (scope : Scope) : Manages may env (Run.bindTo env b scope)
  | connectBinding (b : Ref .binding) (evaluate : Bool) :
      Manages may env (Run.connectBinding env b evaluate)
  | unbind {b : Ref .binding} (h : may b) : Manages may env (Run.modify (·.unbind b))
  | updateTarget (b : Ref .binding) (v : Value) : Manages may env (Run.updateTarget env b v)
  | updateSource (b : Ref .binding) (v : Value) : Manages may env (Run.updateSource env b v)
  | bind {α β : Type} {x : Run η α} {f : α → Run η β} (first : Manages may env x)
      (next : ∀ a, Manages may env (f a)) : Manages may env (x >>= f)
  | attempt {α : Type} {x : Run η α} (h : Manages may env x) : Manages may env x.attempt
  /-- Calling deeper than calls may nest. -/
  | cutOff {α : Type} : Manages may env (Run.cutOff : Run η α)

/-- What a host may do with an engine. -/
abbrev Conduct (env : Env η) (x : Run η α) : Prop := Manages (fun _ => True) env x

/-- A host whose functions and hooks do nothing else, and whose converters call nobody. -/
structure Host.Manages (may : Ref .binding → Prop) (host : Host η) : Prop where
  call : ∀ env f this args, ViewBinding.Manages may env (host.call env f this args)
  convert : ∀ c direction v args, ViewBinding.Manages may Run.dead (host.convert c direction v args)
  fire : ∀ env hook occasion, ViewBinding.Manages may env (host.fire env hook occasion)

/-- A host whose functions and hooks may do all that a host may do. -/
abbrev Host.Conducted (host : Host η) : Prop := host.Manages fun _ => True

namespace Manages

variable {may : Ref .binding → Prop} {env : Env η} {x : Run η α} {σ : Subscriber}

theorem pure (a : α) : Manages may env (Pure.pure a : Run η α) := .evaluate (.pure a)

theorem discard (h : Manages may env x) : Manages may env (discard x : Run η PUnit) :=
  .bind h fun _ => pure _

theorem forEach {f : α → Run η Unit} (h : ∀ a, Manages may env (f a)) :
    ∀ items : List α, Manages may env (Run.forEach items f)
  | [] => pure ()
  | a :: rest => .bind (h a) fun _ => forEach h rest

theorem ignoreFailure {x : Run η Unit} (h : Manages may env x) :
    Manages may env (Run.ignoreFailure x) := h.attempt.discard

/-- **Whatever a host does** keeps custody. -/
theorem guards (h : Manages may env x) (E : env.Guards σ) (keeper : σ.IsKeeper) : x.Guards σ := by
  induction h with
  | unseen h => exact Run.guards_update fun w => .of_draws (h w).1
  | evaluate h => exact h.guards E
  | splice a index count added => exact (Run.Notifies.splice a index count added).guards E
  | connect provider scope e => exact guards_connect provider scope E e
  | write observer v => exact Run.guards_writeObserver E keeper observer v
  | subscribe observer hook =>
    exact (Run.enters_subscribe E keeper observer _).guards (keeper.ne (.hook hook) id)
  | dispose s => exact Run.guards_modify fun w => w.guards_dispose s
  | dispatch e event => exact (Run.Notifies.dispatchEvent e event).guards E
  | append e child => exact (Run.Notifies.appendChild e child).guards E
  | remove e child => exact (Run.Notifies.removeChild e child).guards E
  | deliver o => exact Run.guards_deliver E o
  | poll => exact Run.Notifies.poll.guards E
  | flush => exact Run.guards_flushMicrotasks E
  | frame => exact Run.guards_runFrame E keeper
  | newBinding e property expression mode => exact Run.guards_unseenUpdate (by simp)
  | bindTo _ scope => exact Run.guards_bindTo E keeper _ scope
  | connectBinding b evaluate => exact Run.guards_connectBinding E keeper b evaluate
  | unbind _ => exact Run.guards_modify fun w => w.guards_unbind _
  | updateTarget b v => exact Run.guards_updateTarget E keeper b v
  | updateSource b v => exact (Run.Notifies.updateSource b v).guards E
  | bind _ _ first next => exact first.bind next
  | attempt _ h => exact h.attempt
  | cutOff => exact Run.guards_cutOff

/-- **Whatever a host does** deals with the bindings, and apart from that it leaves them alone. -/
theorem deals (h : Manages may env x) : Run.Deals may env x := by
  have beneath {α : Type} {x : Run η α} (h : Run.Beneath env x) : Run.Deals may env x :=
    .joins (.beneath h)
  induction h with
  | unseen h => exact .joins (.aside fun w => (h w).2)
  | evaluate h => exact beneath h.beneath
  | splice a index count added => exact beneath (Run.beneath_splice a index count added)
  | connect provider scope e => exact beneath (beneath_connect _ provider scope e)
  | write observer v => exact beneath (Run.beneath_writeObserver observer v)
  | subscribe observer hook => exact beneath (Run.beneath_subscribe observer _)
  | dispose s =>
    exact .joins (.modify fun w => World.bindings_of_canopy (w.canopy_dispose s))
  | dispatch e event => exact beneath (Run.beneath_dispatchEvent e event)
  | append e child => exact beneath (Run.beneath_appendChild e child)
  | remove e child => exact beneath (Run.beneath_removeChild e child)
  | deliver o => exact beneath (Run.beneath_deliver o)
  | poll => exact beneath Run.beneath_poll
  | flush => exact beneath Run.beneath_flushMicrotasks
  | frame => exact .joins .runFrame
  | newBinding e property expression mode => exact .newBinding e property expression mode
  | bindTo h scope => exact .bindTo h scope
  | connectBinding b evaluate => exact .joins (.connect b evaluate)
  | unbind h => exact .unbind h
  | updateTarget b v => exact beneath (Run.beneath_updateTarget b v)
  | updateSource b v => exact beneath (Run.beneath_updateSource b v)
  | bind _ _ first next => exact first.bind next
  | attempt _ h => exact h.attempt
  | cutOff => exact beneath .cutOff

end Manages

namespace Host.Manages

variable {may : Ref .binding → Prop} {host : Host η} {σ : Subscriber} {b : Ref .binding}

/-- **The callbacks of a machine** with a conducted host keep custody. -/
theorem guards_machine (conducted : host.Manages may) (keeper : σ.IsKeeper) (rounds : Nat) :
    ∀ depth, (machine host rounds depth).Guards σ := by
  have dead : (Run.dead : Env η).Guards σ :=
    ⟨fun _ _ _ => Run.guards_cutOff, fun _ _ _ _ => Run.guards_cutOff, fun _ _ => Run.guards_cutOff,
      fun _ _ _ => Run.guards_cutOff, fun _ _ => Run.guards_cutOff.enters, Run.guards_cutOff⟩
  have convert := fun c direction v args => (conducted.convert c direction v args).guards dead keeper
  have look : host.look.Guards σ := Run.guards_unseenUpdate fun _ => rfl
  intro depth
  induction depth with
  | zero =>
    exact ⟨fun _ _ _ => Run.guards_cutOff, convert, fun _ _ => Run.guards_cutOff,
      fun _ _ _ => Run.guards_cutOff, fun _ _ => Run.guards_cutOff.enters, look⟩
  | succ depth ih =>
    exact ⟨fun f this args => (conducted.call _ f this args).guards ih keeper, convert,
      fun hook occasion => (conducted.fire _ hook occasion).guards ih keeper,
      Run.guards_react ih keeper, Run.enters_subscribe ih keeper, look⟩

/-- Of a relation that minds nothing but bindings, and that all computations respect which deal with
bindings as the host may. -/
theorem moves_machine {T : World η → World η → Prop} (conducted : host.Manages may)
    (B : OfBindings T) (rounds : Nat) (moves : ∀ {α : Type} {env : Env η} {x : Run η α},
      Run.Deals may env x → env.Moves T → x.Moves T) :
    ∀ depth, (machine host rounds depth).Moves T :=
  machine_moves B rounds (fun _ E f this args => moves (conducted.call _ f this args).deals E)
    (fun c direction v args => moves (conducted.convert c direction v args).deals (Run.dead_moves T))
    fun _ E hook occasion => moves (conducted.fire _ hook occasion).deals E

end Host.Manages

/-! ### Bindings in order -/

namespace World

section
variable {w : World η} {b : Ref .binding}

theorem mem_keeps_target {s : Ref .subscription} :
    s ∈ w.board.keeps (.target b) ↔ w.targetSubscription? b = some s := by
  unfold targetSubscription?
  cases get : w.bindings.get? b with
  | none => simp [Board.keeps, board, Store.listAt_of_gone get]
  | some cell => simp [keeps_target get]

/-- An unbound binding that is free keeps no subscription with its source. -/
theorem IsFree.sourceSubscription? (free : w.IsFree b) (unbound : w.isBound b = false) :
    w.sourceSubscription? b = none := by
  unfold World.sourceSubscription?
  cases get : w.bindings.get? b with
  | none => rfl
  | some cell =>
    simp only [isBound, sourceOf?, get, Option.bind_eq_bind, Option.bind_some,
      Option.isSome_eq_false_iff, Option.isNone_iff_eq_none] at unbound
    exact (free cell get unbound).2.1

/-- One that works one way keeps none with its target either. -/
theorem IsFree.targetSubscription? (free : w.IsFree b) (unbound : w.isBound b = false)
    (oneWay : w.mode? b ≠ some .twoWay) : w.targetSubscription? b = none := by
  unfold World.targetSubscription?
  cases get : w.bindings.get? b with
  | none => rfl
  | some cell =>
    simp only [isBound, sourceOf?, get, Option.bind_eq_bind, Option.bind_some,
      Option.isSome_eq_false_iff, Option.isNone_iff_eq_none] at unbound
    rw [mode?, get] at oneWay
    exact (free cell get unbound).2.2 fun both => oneWay (congrArg some both)

end

/-- In the world of a new engine nobody is registered. -/
theorem custody_new (config : Config) (host : η) (σ : Subscriber) :
    (World.new config host).board.Custody σ [] [] where
  drawn u q m := by cases m
  once u := List.nodup_nil
  unmoved u _ q m := by cases m
  owned ob t m := by
    cases ob with
    | leaf l => cases l <;> cases m
    | _ => cases m

end World

/-- How a run of `x` from `w` to `w'` leaves a binding that is in step with its scope.  What it keeps
from its source was linked in the scope that it is bound to, and while it is unbound it follows no target
either, whichever way it works. -/
structure Run.InStep (b : Ref .binding) (x : Run η α) (w w' : World η) : Prop where
  linked : ∀ s, w'.sourceSubscription? b = some s → ∃ scope e, w'.sourceOf? b = some scope ∧
    w'.expression? b = some e ∧ x.Linked b w scope e s
  targetless : w'.isBound b = false → w'.targetSubscription? b = none ∧
    ∀ ob t, (t, .target b) ∉ w'.board.registered ob

theorem Run.Leaves.inStep {b : Ref .binding} {x : Run η α} {w w' : World η} (left : x.Leaves b w w')
    (start : w.sourceSubscription? b = none) (target : w'.board.Custody (.target b) [] []) :
    x.InStep b w w' where
  linked s keeps := by
    obtain ⟨-, same⟩ | linked := left.linked
    · cases start.symm.trans (same.symm.trans keeps)
    · exact linked s keeps
  targetless unbound := by
    have idle := (left.idle (Option.isNone_iff_eq_none.1 (Option.isSome_eq_false_iff.1 unbound))).2
    refine ⟨idle, fun ob t => target.not_registered (List.eq_nil_iff_forall_not_mem.2 fun s kept => ?_)⟩
    cases idle.symm.trans (World.mem_keeps_target.1 kept)

/-- A host that counts the calls of its functions, and does something else in the midst of one of them.
-/
def Host.meddling (turn : Nat) (act : Env Nat → Run Nat Unit) : Host Nat where
  call env _ _ _ := do
    let calls ← Run.update fun w => (w.host, { w with host := w.host + 1 })
    if calls = turn then Run.ignoreFailure (act env) else pure ()
    pure .undefined
  convert _ _ _ _ := pure none
  fire _ _ _ := pure ()
  late w := (false, w.host)

/-- The scopes of two view models. -/
def Scope.first : Scope := .root ⟨.object ⟨0⟩, ⟨1⟩⟩
def Scope.second : Scope := .root ⟨.object ⟨2⟩, ⟨3⟩⟩

/-- Two view models with a function and a property each, and a binding of a call of the function to a
property of an input, which is bound to the scope of the first one. -/
def Run.meddled (turn : Nat) (act : Env Nat → Run Nat Unit) (property : String) (mode : Mode) :
    Run Nat Unit := do
  Run.forEach [1.0, 100.0] fun n => do
    let o ← Run.update (·.newObject [("f", .function ⟨0⟩), ("p", .number n)])
    discard (Run.update (·.newLevel (.object o)))
  let e ← Run.update (·.newElement "input" false)
  let b ← Run.update (·.newBinding e property (.callName "f" [.name "p"]) mode)
  Run.bindTo (machine (.meddling turn act) 9 9) b .first

namespace World

end World

set_option synthInstance.maxSize 256 in
/-- **An unbound binding follows its target.**  It works both ways, and the function unbinds it while
its source is connected; then binding goes on and subscribes to the target. -/
theorem followed_unbound :
    (Run.meddled 1 (fun _ => Run.modify (·.unbind ⟨0⟩)) "value" .twoWay).Ends False
      (World.new .standard 0) fun _ w => w.isBound ⟨0⟩ = false ∧
        w.targetSubscription? ⟨0⟩ ≠ none ∧
        (w.board.registered (.leaf (.element ⟨0⟩))).map (·.2) = [.target ⟨0⟩] := by
  decide +kernel

end ViewBinding
