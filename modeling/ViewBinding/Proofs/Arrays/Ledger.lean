import ViewBinding.Proofs.Arrays.Edits
import ViewBinding.Proofs.Replay

/-!
# Arrays — the ledger of an observed array

The observer of the contents of an array listens while somebody is subscribed, and collects the
splices it hears.  A notification takes what was collected, and the callbacks find it with the
observer.

What happens to the array and to its observer are events, and a `Ledger` is what they come to: the
items of the array, the changes since the last notification or, if that was later, since the
observer began to listen, and what had been collected before it began to listen and was never told.
It knows nothing of queues, and it admits only what should happen: a notification takes something,
and a callback finds what the last notification took (`Ledger.after?`).

Whatever a ledger admits, a callback finds what one notification took, and if nothing was left over
from before the observer began to listen, that is what has happened since, and taking it back gives
the items from then (`Ledger.told`).  The observer does leave something over: it keeps what it has
collected when the last subscriber leaves.
-/

namespace ViewBinding

namespace ContentsCell

/-- What happens to an array and to the observer of its contents. -/
inductive Event where
  | edited (edit : Edit)
  /-- The observer begins to listen. -/
  | began
  /-- The observer ends to listen. -/
  | ended
  /-- A notification begins, and takes what was collected. -/
  | took
  /-- A callback is told, and finds these changes with the observer. -/
  | told (callback : Ref .hook) (batch : List Splice)

/-- Whether the host takes part in it, and can write it down. -/
def Event.isNoted : Event → Bool
  | .took => false
  | _ => true

/-- What there is to know about an array and the observer of its contents. -/
structure Ledger where
  items : List Value
  listening : Bool := false
  /-- The items when the last notification began or, if that was later, when the observer began to
  listen. -/
  base : List Value
  /-- The changes since then. -/
  since : List Splice := []
  /-- What was collected before the observer began to listen, and was not told. -/
  waiting : List Splice := []
  /-- What the last notification took. -/
  last : Option (List Splice) := none

namespace Ledger

/-- The ledger of an array with these items, before anybody subscribes. -/
def opened (items : List Value) : Ledger := { items, base := items }

/-- The ledger after an edit.  One that does not fit changes nothing, and one that nobody listens to
is not collected. -/
def edited (L : Ledger) (edit : Edit) : Ledger :=
  if edit.Fits L.items.length then
    { L with
      items := edit.edited L.items
      since := if L.listening then L.since ++ [edit.asSplice L.items] else L.since }
  else L

/-- The ledger after an event, if the event is admitted. -/
def after? (L : Ledger) : Event → Option Ledger
  | .edited edit => some (L.edited edit)
  | .began =>
    if L.listening then none
    else some { L with
      listening := true, base := L.items, since := [], waiting := L.waiting ++ L.since }
  | .ended =>
    if L.listening then
      some { L with listening := false, since := [], waiting := L.waiting ++ L.since }
    else none
  | .took =>
    if L.waiting ++ L.since = [] then none
    else some { L with
      base := L.items, since := [], waiting := [], last := some (L.waiting ++ L.since) }
  | .told _ batch => if L.last = some batch then some L else none

/-- The ledger after events, if all of them are admitted. -/
def afterAll? (L : Ledger) (es : List Event) : Option Ledger := es.foldlM after? L

variable {L L' : Ledger} {e : Event} {es : List Event} {items : List Value}

/-! ### Single events -/

theorem after?_began (h : L.after? .began = some L') : L.listening = false ∧
    L' = { L with
      listening := true, base := L.items, since := [], waiting := L.waiting ++ L.since } := by
  simp only [after?] at h
  split at h
  · cases h
  next no => exact ⟨by simpa using no, (Option.some.inj h).symm⟩

theorem after?_ended (h : L.after? .ended = some L') : L.listening = true ∧
    L' = { L with listening := false, since := [], waiting := L.waiting ++ L.since } := by
  simp only [after?] at h
  split at h
  next listening => exact ⟨listening, (Option.some.inj h).symm⟩
  · cases h

theorem after?_took (h : L.after? .took = some L') : L.waiting ++ L.since ≠ [] ∧
    L' = { L with
      base := L.items, since := [], waiting := [], last := some (L.waiting ++ L.since) } := by
  simp only [after?] at h
  split at h
  · cases h
  next some => exact ⟨some, (Option.some.inj h).symm⟩

theorem after?_told {callback : Ref .hook} {batch : List Splice}
    (h : L.after? (.told callback batch) = some L') : L.last = some batch ∧ L' = L := by
  simp only [after?] at h
  split at h
  next last => exact ⟨last, (Option.some.inj h).symm⟩
  · cases h

/-! ### What is collected -/

/-- While the observer listens, taking back the changes since the base gives the base; otherwise
there are none. -/
def Faithful (L : Ledger) : Prop :=
  if L.listening then Splice.undoAll L.since L.items = L.base else L.since = []

theorem faithful_opened (items : List Value) : (opened items).Faithful := rfl

theorem Faithful.edited (faithful : L.Faithful) (edit : Edit) : (L.edited edit).Faithful := by
  unfold Ledger.edited
  split
  · unfold Faithful at *
    dsimp only
    split at faithful
    next listening =>
      rw [if_pos listening, if_pos listening, Splice.undoAll_append]
      refine Eq.trans (congrArg _ ?_) faithful
      exact edit.undo_asSplice L.items
    next idle => rwa [if_neg idle, if_neg idle]
  · exact faithful

/-- One event. -/
theorem Faithful.of_after? (faithful : L.Faithful) (admitted : L.after? e = some L') :
    L'.Faithful := by
  cases e with
  | edited edit =>
    cases admitted
    exact faithful.edited edit
  | began =>
    obtain ⟨-, rfl⟩ := after?_began admitted
    rfl
  | ended =>
    obtain ⟨-, rfl⟩ := after?_ended admitted
    rfl
  | took =>
    obtain ⟨-, rfl⟩ := after?_took admitted
    unfold Faithful
    dsimp only
    split <;> rfl
  | told callback batch =>
    obtain ⟨-, rfl⟩ := after?_told admitted
    exact faithful

theorem faithful_of_afterAll? (admitted : (opened items).afterAll? es = some L) : L.Faithful :=
  Replay.induct (P := fun L _ => L.Faithful) (d := []) (faithful_opened items)
    (fun faithful once => faithful.of_after? once) admitted

/-! ### What is told -/

/-- What the last notification took is what the ledger had then: what was left over, and what had
happened since. -/
def Recalls (items : List Value) (L : Ledger) (es : List Event) : Prop :=
  ∀ batch, L.last = some batch → ∃ earlier later M, es = earlier ++ .took :: later ∧
    .took ∉ later ∧ (opened items).afterAll? earlier = some M ∧ batch = M.waiting ++ M.since ∧
    batch ≠ []

/-- An event other than the beginning of a notification. -/
theorem Recalls.of_last (recalls : Recalls items L es) (other : e ≠ .took)
    (same : L'.last = L.last) : Recalls items L' (es ++ [e]) := by
  intro batch last
  obtain ⟨earlier, later, M, rfl, none, found, is, some⟩ := recalls batch (same ▸ last)
  refine ⟨earlier, later ++ [e], M, by simp, fun m => ?_, found, is, some⟩
  rcases List.mem_append.1 m with m | m
  · exact none m
  · exact other (List.mem_singleton.1 m).symm

/-- One event. -/
theorem Recalls.of_after? (recalls : Recalls items L es)
    (found : (opened items).afterAll? es = some L) (admitted : L.after? e = some L') :
    Recalls items L' (es ++ [e]) := by
  cases e with
  | edited edit =>
    cases admitted
    refine recalls.of_last nofun ?_
    unfold Ledger.edited
    split <;> rfl
  | began =>
    obtain ⟨-, rfl⟩ := after?_began admitted
    exact recalls.of_last nofun rfl
  | ended =>
    obtain ⟨-, rfl⟩ := after?_ended admitted
    exact recalls.of_last nofun rfl
  | took =>
    obtain ⟨some, rfl⟩ := after?_took admitted
    intro batch last
    obtain rfl := Option.some.inj last
    exact ⟨es, [], L, rfl, List.not_mem_nil, found, rfl, some⟩
  | told callback batch =>
    obtain ⟨-, rfl⟩ := after?_told admitted
    exact recalls.of_last nofun rfl

theorem recalls_of_afterAll? (admitted : (opened items).afterAll? es = some L) :
    Recalls items L es := by
  refine (Replay.induct (d := []) (P := fun L es => (opened items).afterAll? es = some L ∧
    Recalls items L es) ⟨rfl, nofun⟩ ?_ admitted).2
  rintro L L' done e ⟨found, recalls⟩ once
  exact ⟨Replay.append found (Replay.singleton once), recalls.of_after? found once⟩

/-- **What a callback is told** is what one notification took: what was left over from before the
observer began to listen, and all that has happened since.  If nothing was left over, then something
has happened since, and taking it back gives the items from then. -/
theorem told (admitted : (opened items).afterAll? es = some L) {before after : List Event}
    {callback : Ref .hook} {batch : List Splice}
    (is : es = before ++ .told callback batch :: after) :
    ∃ earlier later M, before = earlier ++ .took :: later ∧ .took ∉ later ∧
      (opened items).afterAll? earlier = some M ∧ batch = M.waiting ++ M.since ∧ batch ≠ [] ∧
      (M.waiting = [] → M.listening = true ∧ M.since ≠ [] ∧
        Splice.undoAll batch M.items = M.base) := by
  obtain ⟨L₁, L₂, first, once⟩ := Replay.split (is ▸ admitted)
  obtain ⟨last, -⟩ := after?_told once
  obtain ⟨earlier, later, M, rfl, none, found, took, some⟩ := recalls_of_afterAll? first batch last
  refine ⟨earlier, later, M, rfl, none, found, took, some, fun nothing => ?_⟩
  rw [nothing, List.nil_append] at took
  have faithful := faithful_of_afterAll? found
  unfold Faithful at faithful
  split at faithful
  next listening => exact ⟨listening, took ▸ some, took ▸ faithful⟩
  next idle => exact (some (took.trans faithful)).elim

end Ledger

end ContentsCell

end ViewBinding
