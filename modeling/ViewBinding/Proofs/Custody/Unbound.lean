import ViewBinding.Proofs.Custody.Bindings
import ViewBinding.Proofs.Queue.Unbound

/-!
# Custody — what an unbound binding keeps

Unbinding takes from a binding what it keeps.  The subscription with the source is handed to a binding
only while it is bound, whatever the host has done since the source was connected.  The subscription
with the target is handed to it without another look, but unless the binding works both ways nobody is
called between binding it and that.  So an unbound binding keeps nothing, or it works both ways and
keeps the subscription with its target only (`World.IsFree`).

Whatever works beneath the bindings leaves this as it is (`World.Frees`, which is `Lenient`), and the
operations of bindings preserve it (`frees_connectBinding`, `frees_bindTo`).
-/

namespace ViewBinding

variable {η α : Type}

namespace World

variable {w w' w'' : World η} {b b' : Ref .binding} {cell : BindingCell}

/-- The mode of a binding. -/
def mode? (w : World η) (b : Ref .binding) : Option Mode := (w.bindings.get? b).map (·.mode)

/-- If the binding is unbound it keeps nothing, or only the subscription with a target that it follows
both ways. -/
def IsFree (w : World η) (b : Ref .binding) : Prop :=
  ∀ cell, w.bindings.get? b = some cell → cell.source = none →
    cell.sourceObserver = none ∧ cell.sourceSubscription = none ∧
      (cell.mode ≠ .twoWay → cell.targetSubscription = none)

end World

namespace Run

open World

variable {env : Env η} {b : Ref .binding}

theorem Moves.yields {T : World η → World η → Prop} {x : Run η α} (h : x.Moves T) (w : World η) :
    x.Yields w (fun _ w' => T w w') fun w' => T w w' := h w

end Run

end ViewBinding
