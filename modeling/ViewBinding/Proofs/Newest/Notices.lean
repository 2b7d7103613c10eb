import ViewBinding.Proofs.Late.Runs
import ViewBinding.Proofs.Newest.Enrolments

/-!
# Newest — notifications

There is one way to be notified for each kind of observer (`Notice`).  Each of them begins with a look
at who is registered, and then tells these one after the other, all about the same new and old value
(`Notice.tells`): the newest subscriber first, but those who are parked at a placeholder in the order of
their subscribing.

So a notification calls whoever has subscribed and not been disposed exactly once, whatever came before
(`notices_in_turn`).  Two hooks that are parked at a placeholder are told the older one first
(`parked_told_oldest_first`); what the observer of the property tells them later, it tells the newer one
first.
-/

namespace ViewBinding

/-- The order in which an observer tells those who subscribed to it, given the oldest first. -/
def Observer.inTurn {α : Type} : Observer → List α → List α
  | .leaf (.placeholder _), subscribers => subscribers
  | _, subscribers => subscribers.reverse

/-- A notification of an observer. -/
inductive Notice {η : Type} (env : Env η) : Observer → Run η Unit → Prop where
  | setter (r : Ref .setter) : Notice env (.leaf (.setter r)) (Run.tellSetter env r)
  | property (r : Ref .property) (new old : Value) :
    Notice env (.leaf (.property r)) (Run.tellProperty env r new old)
  | placeholder (r : Ref .placeholder) (new old : Value) :
    Notice env (.leaf (.placeholder r)) (Run.tellPlaceholder env r new old)
  | element (r : Ref .elementProperty) : Notice env (.leaf (.element r)) (Run.tellElement env r)
  | select (r : Ref .select) : Notice env (.leaf (.select r)) (Run.tellSelect env r)
  | contents (r : Ref .contents) : Notice env (.leaf (.contents r)) (Run.tellContents env r)
  | poll (r : Ref .poll) : Notice env (.leaf (.poll r)) (Run.tellPoll env r)
  | path (p : Ref .path) (new : Value) : Notice env (.path p) (Run.tellPath env p new)
  | composite (c : Ref .composite) (new : Value) :
    Notice env (.composite c) (Run.tellComposite env c new)

section

open World

variable {η : Type} {w : World η} {env : Env η} {ob : Observer} {x : Run η Unit}

/-- What a notification comes to: it changes nothing of what the host knows, and then the subscribers
are told. -/
def Run.Tells (x : Run η Unit) (env : Env η) (w : World η) (subscribers : List Subscriber) : Prop :=
  ∃ new old w₁, w₁.host = w.host ∧ x w = env.announceAll subscribers new old w₁

/-- A notification that looks for the observer, and calls its callbacks if it is there. -/
theorem Run.tells_newest {κ : Entity} {α : Type} {s : Store κ α} {r : Ref κ}
    {callbacks : α → Listeners Subscriber} (gone : s.get? r = none → x w = (.ok (), w))
    (there : ∀ cell, s.get? r = some cell →
      ∃ new old w₁, w₁.host = w.host ∧ x w = env.notify (callbacks cell) new old w₁) :
    x.Tells env w ((s.listAt (fun cell => (callbacks cell).entries) r).map (·.2)).reverse := by
  cases get : s.get? r with
  | none =>
    rw [Store.listAt_of_gone get]
    exact ⟨.undefined, .undefined, w, rfl, gone get⟩
  | some cell =>
    rw [Store.listAt_of_get? get]
    exact there cell get

/-- **A notification** tells everyone who is registered when it begins, in turn. -/
theorem Notice.tells (n : Notice env ob x) (w : World η) :
    x.Tells env w (ob.inTurn ((w.board.registered ob).map (·.2))) := by
  cases n with
  | setter r =>
    refine Run.tells_newest (s := w.setters) (fun get => ?_) fun cell get => ⟨cell.current, cell.old,
      w.modifySetter r fun cell => { cell with queued := false }, rfl, ?_⟩ <;>
      rw [Run.tellSetter, Run.bind_read, get] <;> rfl
  | property r new old =>
    refine Run.tells_newest (s := w.properties) (fun get => ?_) fun cell get =>
      ⟨new, old, w, rfl, ?_⟩ <;> rw [Run.tellProperty, Run.bind_read, get]
    rfl
  | placeholder r new old =>
    have bypasses : w.Bypasses (.leaf (.placeholder r)) (w.resolvePlaceholder r) :=
      bypasses_resolvePlaceholder w r fun p is => by cases is
    have same := bypasses.registered
    have host := host_resolvePlaceholder w r
    rw [← same, Observer.inTurn, Board.registered, List.map_map]
    refine ⟨new, old, w.resolvePlaceholder r, host, ?_⟩
    cases get : (w.resolvePlaceholder r).placeholders.get? r with
    | none =>
      have nobody : (w.resolvePlaceholder r).board.parked r = [] := Store.listAt_of_gone get _
      rw [Run.tellPlaceholder, Run.bind_modify, Run.bind_read, get, nobody]
      rfl
    | some cell =>
      have parked : (w.resolvePlaceholder r).board.parked r = cell.parked :=
        Store.listAt_of_get? get
      rw [Run.tellPlaceholder, Run.bind_modify, Run.bind_read, get, parked]
      rfl
  | element r =>
    refine Run.tells_newest (s := w.elementProperties) (fun get => ?_) fun cell get =>
      ⟨w.leafValue (.element r), cell.old, w.modifyElementProperty r fun cell =>
        { cell with old := w.leafValue (.element r) }, rfl, ?_⟩ <;>
      rw [Run.tellElement, Run.bind_read, get] <;> rfl
  | select r =>
    refine Run.tells_newest (s := w.selects) (fun get => ?_) fun cell get =>
      ⟨cell.value, cell.old, w, rfl, ?_⟩ <;> rw [Run.tellSelect, Run.bind_read, get]
    rfl
  | contents r =>
    let taken := w.modifyContents r fun cell =>
      { cell with queued := false, last := cell.pending, pending := [] }
    refine Run.tells_newest (s := w.contents) (fun get => ?_) fun cell get =>
      ⟨taken.leafValue (.contents r), taken.leafValue (.contents r), taken, rfl, ?_⟩ <;>
      rw [Run.tellContents, Run.bind_read, get] <;> rfl
  | poll r =>
    refine Run.tells_newest (s := w.polls) (fun get => ?_) fun cell get =>
      ⟨w.leafValue (.poll r), cell.old.getD .undefined, w.modifyPoll r fun cell =>
        { cell with old := some (w.leafValue (.poll r)) }, rfl, ?_⟩ <;>
      rw [Run.tellPoll, Run.bind_read, get] <;> rfl
  | path p new =>
    refine Run.tells_newest (s := w.paths) (fun get => ?_) fun cell get => ⟨new, cell.value,
      w.modifyPath p fun cell => { cell with value := new }, rfl, ?_⟩ <;>
      rw [Run.tellPath, Run.bind_read, get] <;> rfl
  | composite c new =>
    refine Run.tells_newest (s := w.composites) (fun get => ?_) fun cell get => ⟨new, cell.value,
      w.modifyComposite c fun cell => { cell with value := new }, rfl, ?_⟩ <;>
      rw [Run.tellComposite, Run.bind_read, get] <;> rfl

end

/-- **Who is told, and in which order.**  A notification calls those whose subscription is not disposed,
each of them once, whatever came before: the newest first, but those who are parked at a placeholder the
oldest first.  When a placeholder finds its property it hands these over to the observer of the property,
which has them behind the subscribers it had, and lets each go when the subscription with the placeholder
is disposed. -/
theorem notices_in_turn {η : Type} {env : Env η} {ob : Observer} {w : World η} {made : List Made}
    (h : Enrolments env ob w made) :
    (made.map (·.1)).Nodup ∧
    (∀ x, Notice env ob x → x.Tells env w (ob.inTurn ((w.undisposed made).map (·.2)))) ∧
    ∀ u p made', ob = .leaf (.placeholder u) → Enrolments env (.leaf (.property p)) w made' →
      w.successor? (.placeholder u) = none →
      (w.resolvePlaceholder u).successor? (.placeholder u) = some p →
      (w.resolvePlaceholder u).Has (.leaf (.property p)) →
      ∃ moved, Enrolments env (.leaf (.property p)) (w.resolvePlaceholder u) (made' ++ moved) ∧
        List.Forall₂ (fun old new => new.2 = old.2 ∧
          ((w.resolvePlaceholder u).dispose old.1).isDisposed new.1) (w.undisposed made) moved := by
  refine ⟨h.nodup, fun x n => ?_, ?_⟩
  · rw [← h.registered]
    exact n.tells w
  · rintro u p made' rfl h' waits found there
    exact h.migrate_undisposed h' waits found there

/-! ### Three hooks and a placeholder -/

namespace Parking

/-- The environment of the hooks. -/
abbrev env : Env (List Note) := machine Late.remembering 9 9

/-- An object without properties, and a placeholder for one. -/
def empty : World (List Note) :=
  (((World.new .standard []).newObject []).2.propertyObserver (.object ⟨0⟩) "book").2

/-- A hook subscribes to the placeholder. -/
def join (w : World (List Note)) (h : Nat) : World (List Note) :=
  (w.subscribePlaceholder ⟨0⟩ (.hook ⟨h⟩)).2

/-- Three hooks subscribe, the second one leaves, and the property is written. -/
def full : World (List Note) :=
  ((join (join (join empty 7) 8) 9).dispose ⟨1⟩).set ⟨0⟩ "book" (.string "Emma")

theorem unused_empty (ob : Observer) (s : Ref .subscription) (t : Token) :
    empty.disposal? s ≠ some (.callback ob t) := by
  have none : empty.disposal? s = none := by
    have : empty.subscriptions = .empty := rfl
    rw [World.disposal?, this, Store.get?_empty]
    rfl
  rw [none]
  exact (Option.some_ne_none _).symm

theorem enrolments_join {w : World (List Note)} {made : List Made}
    (h : Enrolments env (.leaf (.placeholder ⟨0⟩)) w made) (waits : w.Waits ⟨0⟩) (hook : Nat) :
    Enrolments env (.leaf (.placeholder ⟨0⟩)) (join w hook)
      (made ++ [((w.subscribePlaceholder ⟨0⟩ (.hook ⟨hook⟩)).1, .hook ⟨hook⟩)]) :=
  h.subscribe waits (fun _ started => by cases started; exact .refl _ _) rfl

theorem enrolments_full : Enrolments env (.leaf (.placeholder ⟨0⟩)) full
    [(⟨0⟩, .hook ⟨7⟩), (⟨1⟩, .hook ⟨8⟩), (⟨2⟩, .hook ⟨9⟩)] := by
  have none : Enrolments env (.leaf (.placeholder ⟨0⟩)) empty [] :=
    .start rfl (unused_empty _)
  have three := enrolments_join (enrolments_join (enrolments_join none ⟨_, rfl, rfl, rfl⟩ 7)
    ⟨_, rfl, rfl, rfl⟩ 8) ⟨_, rfl, rfl, rfl⟩ 9
  exact (three.dispose ⟨1⟩).aside (.of_board (by exact World.board_set ..) rfl)

/-- Nobody has subscribed to the property, which has just come. -/
theorem enrolments_property : Enrolments env (.leaf (.property ⟨0⟩)) full [] := by
  refine .start rfl fun s t is => ?_
  have there : s.index < 3 := World.index_lt_size_of_disposal? is
  obtain ⟨_ | _ | _ | n⟩ := s
  · cases is
  · cases is
  · cases is
  · exact absurd there (by simp)

end Parking

/-- The first and the third hook are told in this order, and go over to the observer of the property in
this order. -/
theorem parked_hooks_in_turn :
    Enrolments Parking.env (.leaf (.placeholder ⟨0⟩)) Parking.full
      [(⟨0⟩, .hook ⟨7⟩), (⟨1⟩, .hook ⟨8⟩), (⟨2⟩, .hook ⟨9⟩)] ∧
    (Run.tellPlaceholder Parking.env ⟨0⟩ (.string "Emma") .undefined).Tells Parking.env Parking.full
      [.hook ⟨7⟩, .hook ⟨9⟩] ∧
    ∃ moved, Enrolments Parking.env (.leaf (.property ⟨0⟩)) (Parking.full.resolvePlaceholder ⟨0⟩)
      moved ∧ moved.map (·.2) = [.hook ⟨7⟩, .hook ⟨9⟩] := by
  have undisposed : Parking.full.undisposed
      [(⟨0⟩, .hook ⟨7⟩), (⟨1⟩, .hook ⟨8⟩), (⟨2⟩, .hook ⟨9⟩)] =
        [(⟨0⟩, .hook ⟨7⟩), (⟨2⟩, .hook ⟨9⟩)] := by decide +kernel
  obtain ⟨-, told, migrated⟩ := notices_in_turn Parking.enrolments_full
  rw [undisposed] at told migrated
  obtain ⟨moved, enrolled, all⟩ := migrated ⟨0⟩ ⟨0⟩ [] rfl
    Parking.enrolments_property rfl rfl rfl
  refine ⟨Parking.enrolments_full, told _ (.placeholder _ _ _), moved, enrolled, ?_⟩
  obtain _ | ⟨first, _ | ⟨second, all⟩⟩ := all
  cases all
  rw [List.map_cons, List.map_cons, first.1, second.1, List.map_nil]

/-! ### A property that is not there yet -/

/-- Two hooks subscribe to a property that an object does not have; then it is written twice. -/
def Run.awaited (env : Env (List Note)) : Run (List Note) Unit := do
  let o ← update (·.newObject [])
  match ← update (·.propertyObserver (.object o) "book") with
  | some leaf =>
    forEach [⟨0⟩, ⟨1⟩] fun hook => discard (subscribeLeaf leaf (.hook hook))
    forEach ["Emma", "Persuasion"] fun title => do
      modify fun w => w.set o "book" (.string title)
      discard (flushMicrotasks env)
  | none => pure ()

/-- **Who waits for a property is told the older one first** when it comes, and the newer one first about
what becomes of it later. -/
theorem parked_told_oldest_first : (Run.awaited (machine Late.remembering 9 9)).Ends False
    (World.new .standard []) fun _ w => w.host.map Note.call =
      [(⟨0⟩, .string "Emma"), (⟨1⟩, .string "Emma"),
        (⟨1⟩, .string "Persuasion"), (⟨0⟩, .string "Persuasion")] := by
  decide +kernel

end ViewBinding
