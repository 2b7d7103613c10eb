/-!
# Replay — states that events lead to

A partial step `step : σ → ε → Option σ` gives the state after an event, if the event is admitted.
Replaying events one after the other is `List.foldlM step`: it gives the state after all of them, if
each one is admitted where it happens.
-/

namespace ViewBinding

namespace Replay

variable {σ ε : Type} {step : σ → ε → Option σ} {s s' s'' : σ} {e : ε} {es es' : List ε}

theorem cons : (e :: es).foldlM step s = (step s e).bind fun s => es.foldlM step s :=
  List.foldlM_cons

theorem append (before : es.foldlM step s = some s') (later : es'.foldlM step s' = some s'') :
    (es ++ es').foldlM step s = some s'' := by
  rw [List.foldlM_append, before]
  exact later

theorem singleton (once : step s e = some s') : [e].foldlM step s = some s' := by
  rw [cons, once]
  rfl

/-- **What every event keeps**, a replay keeps. -/
theorem induct {P : σ → List ε → Prop} {d : List ε} (start : P s d)
    (each : ∀ {s s' d e}, P s d → step s e = some s' → P s' (d ++ [e]))
    (all : es.foldlM step s = some s') : P s' (d ++ es) := by
  induction es generalizing s d with
  | nil =>
    cases all
    rwa [List.append_nil]
  | cons e es ih =>
    rw [cons, Option.bind_eq_some_iff] at all
    obtain ⟨s₁, once, all⟩ := all
    rw [← List.singleton_append, ← List.append_assoc]
    exact ih (each start once) all

/-- An event is admitted where it happens. -/
theorem split {before after : List ε} (all : (before ++ e :: after).foldlM step s = some s') :
    ∃ s₁ s₂, before.foldlM step s = some s₁ ∧ step s₁ e = some s₂ := by
  rw [List.foldlM_append, Option.bind_eq_bind, Option.bind_eq_some_iff] at all
  obtain ⟨s₁, first, all⟩ := all
  rw [cons, Option.bind_eq_some_iff] at all
  obtain ⟨s₂, once, -⟩ := all
  exact ⟨s₁, s₂, first, once⟩

end Replay

end ViewBinding
