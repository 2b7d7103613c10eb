import ViewBinding.Machine
import ViewBinding.Proofs.Leaf.Dispose
import ViewBinding.Proofs.Leaf.Placeholder

/-!
# Follow — a binding follows a name

Connecting a binding whose expression is a name subscribes it to the property that the name means in
its scope, in place of the subscription that it had before (`connectBinding_follows`).
`Enrolled.drops` ends an enrolment by disposing the subscription that it comes from.
-/

namespace ViewBinding

namespace World

variable {η : Type} {w w' : World η} {s : Ref .subscription} {vm o : Ref .object} {p n : String}
  {sub sub' : Subscriber} {b : Ref .binding} {cell : BindingCell}

/-! ### What an enrolment comes from -/

/-- A subscription that enrols somebody is registered with the leaf of a property. -/
theorem Enrolled.direct (h : w.Located) (heard : w.Enrolled s o n sub) :
    ∃ l t v, w.directVoice? s = some (l, t) ∧ w.place? l = some v := by
  obtain ⟨-, l, t, voice, at', -⟩ := heard
  have place := (h.current o n l at').1
  unfold voice? at voice
  split at voice
  · cases voice
  next l₀ t₀ direct =>
    unfold throughSuccessor? at voice
    split at voice
    next u =>
      cases resolved : w.placeholders.get? u with
      | none =>
        simp only [successor?, resolved, Option.bind_none, Option.some.injEq, Prod.mk.injEq] at voice
        exact ⟨l, t₀, _, voice.1 ▸ direct, place⟩
      | some c =>
        exact ⟨_, _, (c.object, c.property), direct, by simp only [place?, resolved, Option.map_some]⟩
    · cases voice
      exact ⟨l, t, _, direct, place⟩

/-- A subscription enrols one subscriber. -/
theorem Enrolled.subscriber (h : w.Registered) (heard : w.Enrolled s o n sub) {o' : Ref .object}
    {n' : String} (heard' : w.Enrolled s o' n' sub') : sub = sub' := by
  obtain ⟨-, l, t, voice, -, m⟩ := heard
  obtain ⟨-, l', t', voice', -, m'⟩ := heard'
  rw [voice] at voice'
  cases voice'
  exact h.eq_of_mem_audience m m'

/-- **Ending an enrolment.** -/
theorem Enrolled.drops (h : w.Wired) (heard : w.Enrolled s o n sub) : w.Drops (w.dispose s) s := by
  obtain ⟨l, t, v, direct, place⟩ := heard.direct h.toLocated
  exact dispose_spec h direct heard.own place

theorem Enrolled.ne_of_fresh (h : w.Located) (heard : w.Enrolled s o n sub)
    {s' : Ref .subscription} (fresh : w.subscriptions.get? s' = none) : s' ≠ s := by
  rintro rfl
  obtain ⟨l, t, -, direct, -⟩ := heard.direct h
  simp [directVoice?, disposal?, fresh] at direct

/-! ### Connecting -/

variable {host : Host η} {rounds depth : Nat} {cut : Prop}

/-- **Connecting a binding of a name** makes it hear of the property that the name means. -/
theorem connectBinding_follows (h : w.Wired) (live : w.objects.contains vm = true)
    (get : w.bindings.get? b = some cell) (expression : cell.expression = .name p) {scope : Scope}
    (source : cell.source = some scope) (owner : w.ownerOf scope p = .object vm) :
    (Run.connectBinding (machine host rounds (depth + 1)) b false).Ends cut w fun _ w' =>
      ∃ w₂ s observer, w.Follows w₂ s vm p (.source b) ∧ w' = (w₂.modifyBinding b fun cell =>
        { cell with sourceObserver := some observer, sourceSubscription := some s }).disposeOption
          cell.sourceSubscription := by
  obtain ⟨_, e, n, m, target, _, so, ss, ts⟩ := cell
  subst expression source
  obtain ⟨grows, wired, at'⟩ := objectObserver_spec h live p
  have place := (wired.current vm p _ at').1
  have stays : w.Stays (w.objectObserver vm p).2 := .of_grows h grows wired
  simp only [Run.connectBinding, Run.ends_bind, Run.ends_read, get, Expr.connect, Run.connectName,
    Run.ends_update, owner, propertyObserver, Option.map_some, Bool.false_eq_true, if_false,
    Run.ends_pure]
  refine (subscribeLeaf_spec wired place (.source b)).mono fun s w₂ follows => ?_
  have bindings : w₂.bindings = w.bindings :=
    congrArg Backdrop.bindings (stays.follows follows).still.backdrop
  simp only [Run.keepSource, Run.ends_bind, Run.ends_read, bindings, get, Run.ends_modify]
  exact ⟨w₂, s, _, stays.follows follows, rfl⟩

end World

end ViewBinding
