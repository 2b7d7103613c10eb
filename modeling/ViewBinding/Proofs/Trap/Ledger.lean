import ViewBinding.Proofs.Leaf.Write
import ViewBinding.Proofs.Replay

/-!
# Trap — the ledger of a trapped property

A trap keeps the value of its property.  The first write that changes the value queues a notification,
and when this one begins it takes the value and the one that the notification before it has taken.

What happens to a trapped property and to one callback of its observer are events: a value is written,
a notification begins, the callback is told something.  A `Ledger` has the value, the value that the
last notification took, whether a write has changed the value since, and what the callback is still to
be told.  It knows nothing of queues, and it admits only what should happen: a notification begins
after a write that changed the value, and the callback is told once what it is to be told
(`Ledger.after?`).

Whatever a ledger admits, notifications are chained (`Chained.of_afterAll?`), and each of them tells
the callback once (`Ledger.count_began`).  The observer of a trapped property keeps such a ledger
(`SetterCell.ledger`), and a write through the trap enters the value in it (`World.writeTrap_cases`).
-/

namespace ViewBinding

namespace SetterCell

/-- A new and an old value, as a callback is told them. -/
structure Telling where
  new : Value
  old : Value
deriving DecidableEq

/-- What happens to a trapped property and to one callback of its observer. -/
inductive Event where
  | wrote (v : Value)
  /-- A notification begins. -/
  | began
  | told (telling : Telling)
deriving DecidableEq

/-- Whether the host takes part in it, and can write it down. -/
def Event.isNoted : Event → Bool
  | .began => false
  | _ => true

/-- What the callback was told. -/
def tellings (es : List Event) : List Telling :=
  es.filterMap fun | .told telling => some telling | _ => none

@[simp] theorem tellings_append (es es' : List Event) :
    tellings (es ++ es') = tellings es ++ tellings es' := List.filterMap_append

/-- What there is to know about a trapped property and a callback. -/
structure Ledger where
  value : Value
  /-- The value that the last notification took, or the value at the beginning. -/
  told : Value
  /-- A write has changed the value since. -/
  changed : Bool := false
  /-- What the callback is still to be told. -/
  due : Option Telling := none
deriving DecidableEq

namespace Ledger

/-- The ledger of a property with a value, before anything happens. -/
def opened (v : Value) : Ledger := { value := v, told := v }

/-- The ledger after a write.  Writing what is there is no change. -/
def wrote (L : Ledger) (v : Value) : Ledger :=
  if L.value.same v then L else { L with value := v, changed := true }

/-- The ledger after an event, if the event is admitted. -/
def after? (L : Ledger) : Event → Option Ledger
  | .wrote v => some (L.wrote v)
  | .began =>
    if L.changed ∧ L.due = none then
      some { value := L.value, told := L.value, due := some ⟨L.value, L.told⟩ }
    else none
  | .told telling => if L.due = some telling then some { L with due := none } else none

/-- The ledger after events, if all of them are admitted. -/
def afterAll? (L : Ledger) (es : List Event) : Option Ledger := es.foldlM after? L

variable {L L' L'' : Ledger} {v : Value} {e : Event} {es es' : List Event}

@[simp] theorem afterAll?_nil (L : Ledger) : L.afterAll? [] = some L := rfl

theorem afterAll?_cons : L.afterAll? (e :: es) = (L.after? e).bind fun L => L.afterAll? es :=
  Replay.cons

theorem afterAll?_append (before : L.afterAll? es = some L') (later : L'.afterAll? es' = some L'') :
    L.afterAll? (es ++ es') = some L'' := Replay.append before later

/-- **What every event keeps**, a ledger keeps. -/
theorem afterAll?_induct {P : Ledger → List Event → Prop} {d : List Event} (start : P L d)
    (step : ∀ {L L' d e}, P L d → L.after? e = some L' → P L' (d ++ [e]))
    (admitted : L.afterAll? es = some L') : P L' (d ++ es) := Replay.induct start step admitted

/-! ### Single events -/

theorem after?_began (h : L.after? .began = some L') : L.changed = true ∧ L.due = none ∧
    L' = { value := L.value, told := L.value, due := some ⟨L.value, L.told⟩ } := by
  simp only [after?] at h
  split at h
  next admitted => exact ⟨admitted.1, admitted.2, (Option.some.inj h).symm⟩
  · cases h

theorem after?_told {telling : Telling} (h : L.after? (.told telling) = some L') :
    L.due = some telling ∧ L' = { L with due := none } := by
  simp only [after?] at h
  split at h
  next due => exact ⟨due, (Option.some.inj h).symm⟩
  · cases h

@[simp] theorem told_wrote (L : Ledger) (v : Value) : (L.wrote v).told = L.told := by
  unfold wrote
  split <;> rfl

@[simp] theorem due_wrote (L : Ledger) (v : Value) : (L.wrote v).due = L.due := by
  unfold wrote
  split <;> rfl

theorem wrote_of_not_changed (h : (L.wrote v).changed = false) : L.wrote v = L := by
  unfold wrote at *
  split at h
  next same => rw [if_pos same]
  · cases h

end Ledger

/-! ### What is told -/

/-- **Notifications are chained.**  Each telling calls old what the one before it called new, and the
first one calls `v` old.  The next one will call old what the last one called new, and if nothing has
changed since, that is the value. -/
structure Chained (v : Value) (L : Ledger) (ts : List Telling) : Prop where
  olds : ts.map (·.old) = (v :: ts.map (·.new)).dropLast
  next : (v :: ts.map (·.new)).getLast? = some ((L.due.map (·.old)).getD L.told)
  due : ∀ telling, L.due = some telling → telling.new = L.told
  rest : L.changed = false → L.told = L.value

namespace Chained

variable {v : Value} {L L' : Ledger} {e : Event} {es : List Event} {ts : List Telling}

/-- Before anything was told. -/
theorem start (v : Value) : Chained v (.opened v) [] := ⟨rfl, rfl, nofun, fun _ => rfl⟩

/-- Another telling. -/
theorem olds_append (telling : Telling) (olds : ts.map (·.old) = (v :: ts.map (·.new)).dropLast)
    (next : (v :: ts.map (·.new)).getLast? = some telling.old) :
    (ts ++ [telling]).map (·.old) = (v :: (ts ++ [telling]).map (·.new)).dropLast := by
  obtain ⟨news, is⟩ := List.getLast?_eq_some_iff.1 next
  rw [is, List.dropLast_concat] at olds
  rw [List.map_append, List.map_append, ← List.cons_append, is, List.map_singleton,
    List.map_singleton, List.dropLast_concat, olds]

/-- One event. -/
theorem of_after? (chained : Chained v L ts) (admitted : L.after? e = some L') :
    Chained v L' (ts ++ tellings [e]) := by
  obtain ⟨olds, next, due, rest⟩ := chained
  cases e with
  | wrote v =>
    cases admitted
    rw [show tellings [.wrote v] = [] from rfl, List.append_nil]
    refine ⟨olds, by simpa using next, by simpa using due, fun unchanged => ?_⟩
    have same := Ledger.wrote_of_not_changed unchanged
    rw [same] at unchanged ⊢
    exact rest unchanged
  | began =>
    obtain ⟨-, none, rfl⟩ := Ledger.after?_began admitted
    rw [none] at next
    rw [show tellings [.began] = [] from rfl, List.append_nil]
    exact ⟨olds, next, fun _ is => (Option.some.inj is) ▸ rfl, fun _ => rfl⟩
  | told telling =>
    obtain ⟨some, rfl⟩ := Ledger.after?_told admitted
    rw [some] at next
    refine ⟨olds_append telling olds next, ?_, nofun, rest⟩
    rw [List.map_append, ← List.cons_append]
    exact List.getLast?_concat.trans (congrArg Option.some (due telling some))

/-- **Whatever is admitted.** -/
theorem of_afterAll? (admitted : Ledger.afterAll? (.opened v) es = some L) :
    Chained v L (tellings es) := by
  refine Ledger.afterAll?_induct (d := []) (P := fun L es => Chained v L (tellings es)) (start v)
    ?_ admitted
  intro L L' done e chained once
  rw [tellings_append]
  exact chained.of_after? once

end Chained

/-- **Each notification tells the callback once**: as many times as notifications began, unless it is
still to be told what the last one took. -/
theorem Ledger.count_began {v : Value} {L : Ledger} {es : List Event}
    (admitted : afterAll? (opened v) es = some L) :
    es.count .began = (tellings es).length + L.due.toList.length := by
  refine afterAll?_induct (d := []) (P := fun L es => es.count .began =
    (tellings es).length + L.due.toList.length) rfl ?_ admitted
  intro L L' done e count once
  rw [List.count_append, tellings_append, List.length_append, count]
  cases e with
  | wrote v =>
    cases once
    rw [due_wrote]
    rfl
  | began =>
    obtain ⟨-, none, rfl⟩ := after?_began once
    rw [none]
    rfl
  | told telling =>
    obtain ⟨some, rfl⟩ := after?_told once
    rw [some]
    rfl

/-- The ledger that the observer of a trapped property keeps. -/
def ledger (cell : SetterCell) (due : Option Telling) : Ledger where
  value := cell.current
  told := if cell.queued then cell.old else cell.current
  changed := cell.queued
  due := due

end SetterCell

namespace World

variable {η : Type} {w : World η} {r : Ref .setter} {cell : SetterCell}

/-- **A write through a trap** is entered in the ledger, and queues a notification with the first
change of the value. -/
theorem writeTrap_cases (there : w.setters.get? r = some cell) (v : Value) : ∃ cell',
    (w.writeTrap r v).setters.get? r = some cell' ∧
      cell' = { cell with current := cell'.current, old := cell'.old, queued := cell'.queued } ∧
      (∀ due, cell'.ledger due = (cell.ledger due).wrote v) ∧
      (w.writeTrap r v).tasks.microtasks =
        w.tasks.microtasks ++ if cell'.queued && !cell.queued then [.setter r] else [] := by
  rw [writeTrap_eq there]
  split
  next same => exact ⟨cell, there, rfl, fun _ => (if_pos same).symm, by simp⟩
  next differs =>
    refine ⟨_, (setters_withCurrent there v _ r).trans (if_pos rfl), rfl, fun _ => ?_, ?_⟩
    · refine .trans ?_ (if_neg differs).symm
      cases queued : cell.queued <;> simp [SetterCell.ledger, queued]
    · cases cell.queued <;> rfl

end World

end ViewBinding
