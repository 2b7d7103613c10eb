import ViewBinding.Proofs.Leaf.Dispose
import ViewBinding.Proofs.Newest.Enlist

/-!
# Newest — the history of an observer

`Enrolments env ob w made` says how `ob` got from having no subscribers to how it is in `w`:
subscriptions were made with it, and subscriptions were disposed, in any order.  `made` lists the former.
The book of the observer follows (`Enrolments.exists_booked`), so those are registered whose subscription
is not disposed, in the order of subscribing.

A placeholder that finds its property hands its subscribers over to the observer of the property.  That
goes into the history of that observer, in the order of the parked (`Enrolments.migrate`), and whoever
disposes a subscription with the placeholder disposes the one that it was moved to
(`World.disposed_moved`).
-/

namespace ViewBinding

/-- A subscription that was made, and for whom. -/
abbrev Made := Ref .subscription × Subscriber

/-- The history of an observer. -/
inductive Enrolments {η : Type} (env : Env η) (ob : Observer) : World η → List Made → Prop where
  | start {w : World η} (nobody : w.board.registered ob = [])
      (unused : ∀ s t, w.disposal? s ≠ some (.callback ob t)) : Enrolments env ob w []
  /-- Somebody subscribes.  What a path and a composite do to follow what they watch does not concern
  their own subscribers. -/
  | subscribe {w w' : World η} {made : List Made} {σ : Subscriber} {s : Ref .subscription}
      (before : Enrolments env ob w made) (receives : w.Receives ob)
      (calm : ∀ w₂, Run.start env ob (w.inscribe σ ob) = (.ok (), w₂) →
        (w.inscribe σ ob).Bypasses ob w₂)
      (ran : Run.subscribe env ob σ w = (.ok s, w')) : Enrolments env ob w' (made ++ [(s, σ)])
  /-- Somebody subscribes to a placeholder that has found the property. -/
  | sent {w w' : World η} {made : List Made} {σ : Subscriber} {s : Ref .subscription}
      {u : Ref .placeholder} {p : Ref .property} (is : ob = .leaf (.property p))
      (before : Enrolments env ob w made) (receives : w.Receives ob)
      (found : w.successor? (.placeholder u) = some p)
      (ran : Run.subscribe env (.leaf (.placeholder u)) σ w = (.ok s, w')) :
      Enrolments env ob w' (made ++ [(s, σ)])
  /-- Some subscription is disposed, with the observer or not. -/
  | dispose {w : World η} {made : List Made} (before : Enrolments env ob w made)
      (s : Ref .subscription) : Enrolments env ob (w.dispose s) made
  /-- Something else happens. -/
  | aside {w w' : World η} {made : List Made} (before : Enrolments env ob w made)
      (by' : w.Bypasses ob w') : Enrolments env ob w' made

namespace World

variable {η : Type} {w w' : World η} {ob : Observer} {σ : Subscriber} {u : Ref .placeholder}
  {p : Ref .property} {s s' : Ref .subscription} {t : Token}

/-- Those of the subscriptions that are not disposed. -/
def undisposed (w : World η) (made : List Made) : List Made :=
  made.filter fun m => !w.isDisposed m.1

/-! ### Placeholders that find their property -/

theorem subscribePlaceholder_of_successor (found : w.successor? (.placeholder u) = some p)
    (σ : Subscriber) : w.subscribePlaceholder u σ = w.subscribeProperty p σ := by
  rw [subscribePlaceholder_eq, resolvePlaceholder_of_successor found, found]

/-- Subscribing to a property does not concern other observers. -/
theorem bypasses_subscribeProperty (w : World η) (σ : Subscriber)
    (other : ob ≠ .leaf (.property p)) : w.Bypasses ob (w.subscribeProperty p σ).2 := by
  have added : w.Bypasses ob (w.inscribe σ (.leaf (.property p))) :=
    ⟨registered_modifyCallbacks_of_ne (w := w.freshToken.2) other _, fun _ _ => .rfl,
      fun _ _ none => none, Nat.le_succ _, Nat.le_refl _⟩
  refine (added.trans ?_).trans (bypasses_newSubscription _ ?_)
  · split
    · exact bypasses_startObserving _ _
    · exact .refl _ _
  · rintro t is
    cases is
    exact other rfl

/-- Noting where a parked subscriber was moved. -/
theorem moves_noted (w : World η) (u : Ref .placeholder) (t : Token) (s : Ref .subscription) :
    w.board.Moves (w.modifyPlaceholder u fun cell => { cell with
      parked := cell.parked.map fun q => if q.token = t then { q with moved := some s } else q }).board
      u t s :=
  board_modifyPlaceholder w u (fun _ => rfl) (fun _ => rfl) rfl

theorem bypasses_moveParked (w : World η) (q : Parked) (other : ob ≠ .leaf (.property p)) :
    w.Bypasses ob (moveParked p u w q) := by
  have noted := moves_noted (w.subscribeProperty p q.subscriber).2 u q.token
    (w.subscribeProperty p q.subscriber).1
  exact (bypasses_subscribeProperty w q.subscriber other).trans
    ⟨congrFun noted.registered ob, fun _ _ => .rfl, fun _ _ none => none, Nat.le_refl _,
      Nat.le_refl _⟩

theorem bypasses_moveAll (other : ob ≠ .leaf (.property p)) (parked : List Parked) (w : World η) :
    w.Bypasses ob (parked.foldl (moveParked p u) w) := by
  induction parked generalizing w with
  | nil => exact .refl ob w
  | cons q rest ih => exact (bypasses_moveParked w q other).trans (ih _)

theorem dispatcherObserver_untold (w : World η) (d : Ref .dispatcher) (n : String) :
    (w.dispatcherObserver d n).2.subscriptions = w.subscriptions ∧
      (w.dispatcherObserver d n).2.host = w.host := by
  unfold dispatcherObserver
  split
  · exact ⟨rfl, rfl⟩
  · split
    · exact ⟨rfl, rfl⟩
    · dsimp only
      split <;> exact ⟨rfl, rfl⟩

/-- Noting the observer of the property moves nobody. -/
theorem bypasses_settle (w : World η) (u : Ref .placeholder) (p : Ref .property) :
    w.Bypasses ob (w.modifyPlaceholder u fun cell => { cell with actual := some p }) := by
  obtain ⟨actual, board, -, -⟩ := board_settlePlaceholder w u p
  refine ⟨?_, fun _ _ => .rfl, fun _ _ none => none, Nat.le_refl _, Nat.le_refl _⟩
  rw [board]
  rcases ob with l | p | c
  · cases l <;> rfl
  · rfl
  · rfl

/-- **What switching a placeholder does**: nothing that shows, or it notes the observer of the property
and moves those whom it parks. -/
theorem resolvePlaceholder_cases (w : World η) (u : Ref .placeholder) :
    (w.resolvePlaceholder u).board = w.board ∧
      (w.resolvePlaceholder u).subscriptions = w.subscriptions ∧
      (w.resolvePlaceholder u).host = w.host ∨
    ∃ (p : Ref .property) (w₁ : World η), w₁.board = w.board ∧ w₁.subscriptions = w.subscriptions ∧
      w₁.host = w.host ∧ w.resolvePlaceholder u = (w.board.parked u).foldl (moveParked p u)
        (w₁.modifyPlaceholder u fun cell => { cell with actual := some p }) := by
  unfold resolvePlaceholder
  split
  · exact .inl ⟨rfl, rfl, rfl⟩
  next cell get =>
    split
    · exact .inl ⟨rfl, rfl, rfl⟩
    · let w₀ := w.modifyDispatcher cell.dispatcher fun d =>
        { d with observers := Entries.erase cell.property d.observers }
      have board : (w₀.dispatcherObserver cell.dispatcher cell.property).2.board = w.board :=
        board_dispatcherObserver w₀ cell.dispatcher cell.property
      have same := dispatcherObserver_untold w₀ cell.dispatcher cell.property
      have parked : w.board.parked u = cell.parked := Store.listAt_of_get? get
      rw [parked]
      dsimp only
      split
      next p w₁ is =>
        have is' : w₀.dispatcherObserver cell.dispatcher cell.property = (.property p, w₁) := is
        rw [is'] at board same
        exact .inr ⟨p, w₁, board, same.1, same.2, rfl⟩
      next w₁ _ is =>
        have is' : w₀.dispatcherObserver cell.dispatcher cell.property = (_, w₁) := is
        rw [is'] at board same
        exact .inl ⟨board, same⟩

/-- Switching a placeholder to the property makes subscriptions with the property only. -/
theorem bypasses_resolvePlaceholder (w : World η) (u : Ref .placeholder)
    (other : ∀ p, ob ≠ .leaf (.property p)) : w.Bypasses ob (w.resolvePlaceholder u) := by
  obtain ⟨board, same, -⟩ | ⟨p, w₁, board, same, -, is⟩ := resolvePlaceholder_cases w u
  · exact .of_board board same
  · rw [is]
    exact ((Bypasses.of_board board same).trans (bypasses_settle w₁ u p)).trans
      (bypasses_moveAll (other p) _ _)

/-- The host learns nothing of it. -/
theorem host_resolvePlaceholder (w : World η) (u : Ref .placeholder) :
    (w.resolvePlaceholder u).host = w.host := by
  have started : ∀ (w : World η) (d : Ref .dispatcher), (w.startObserving d).host = w.host :=
    fun w d => by
      unfold startObserving
      split
      · rfl
      · split <;> rfl
  have moved : ∀ (p : Ref .property) (w : World η) (q : Parked),
      (moveParked p u w q).host = w.host := fun p w q => by
    dsimp only [moveParked, subscribeProperty]
    split
    · exact started _ _
    · rfl
  obtain ⟨-, -, same⟩ | ⟨p, w₁, -, -, same, is⟩ := resolvePlaceholder_cases w u
  · exact same
  · rw [is]
    refine Eq.trans ?_ same
    generalize w.board.parked u = parked
    change _ = (w₁.modifyPlaceholder u fun cell => { cell with actual := some p }).host
    generalize (w₁.modifyPlaceholder u fun cell => { cell with actual := some p }) = w₂
    induction parked generalizing w₂ with
    | nil => rfl
    | cons q rest ih => exact (ih _).trans (moved p w₂ q)

theorem properties_moveParked (w : World η) (p p' : Ref .property) (u : Ref .placeholder)
    (q : Parked) : (moveParked p u w q).properties.contains p' = w.properties.contains p' := by
  have started : ∀ (w : World η) (d : Ref .dispatcher),
      (w.startObserving d).properties = w.properties := fun w d => by
    unfold startObserving
    split
    · rfl
    · split <;> rfl
  have subscribed : (w.subscribeProperty p q.subscriber).2.properties =
      (w.inscribe q.subscriber (.leaf (.property p))).properties := by
    unfold subscribeProperty
    dsimp only
    split
    · exact started _ _
    · rfl
  exact (congrArg (·.contains p') subscribed).trans (Store.contains_modify ..)

theorem properties_moveAll (p p' : Ref .property) (u : Ref .placeholder) (parked : List Parked)
    (w : World η) :
    (parked.foldl (moveParked p u) w).properties.contains p' = w.properties.contains p' := by
  induction parked generalizing w with
  | nil => rfl
  | cons q rest ih => exact (ih _).trans (properties_moveParked w p p' u q)

theorem actual_moveAll (p : Ref .property) (u : Ref .placeholder) (parked : List Parked)
    (w : World η) : (parked.foldl (moveParked p u) w).board.actual = w.board.actual := by
  induction parked generalizing w with
  | nil => rfl
  | cons q rest ih =>
    have noted := moves_noted (w.subscribeProperty p q.subscriber).2 u q.token
      (w.subscribeProperty p q.subscriber).1
    have same : (w.subscribeProperty p q.subscriber).2.board.actual = w.board.actual :=
      congrArg (·.listAt (·.actual.toList)) (placeholders_subscribeProperty w p q.subscriber)
    refine (ih _).trans (Eq.trans ?_ same)
    exact congrArg (·.actual) noted

theorem actual_of_successor {p : Option (Ref .property)} (is : w.successor? (.placeholder u) = p) :
    w.board.actual u = p.toList := by
  subst is
  change w.placeholders.listAt _ u = _
  rw [Store.listAt, successor?]
  cases w.placeholders.get? u <;> rfl

/-! ### Disposing what was moved -/

theorem disposed_disposeWithin (depth : Nat) (s : Ref .subscription)
    (ended : w.disposal? s' = none) : (disposeWithin depth s w).disposal? s' = none :=
  disposeWithin_keeps (P := fun w => w.disposal? s' = none)
    (fun w s ended => by
      have same := congrFun (congrArg (·.disposal?) (board_endSubscription w s)) s'
      refine same.trans ?_
      dsimp only [Board.without]
      split
      · rfl
      · exact ended)
    (fun w d ended => by rw [disposal?, subscriptions_undo]; exact ended) depth s w ended

theorem disposed_disposeEach (depth : Nat) (more : List (Ref .subscription))
    (ended : w.disposal? s' = none) :
    (more.foldl (fun w s => disposeWithin depth s w) w).disposal? s' = none := by
  induction more generalizing w with
  | nil => exact ended
  | cons s rest ih => exact ih (disposed_disposeWithin depth s ended)

theorem disposed_disposeWithin_self (depth : Nat) (s : Ref .subscription) (w : World η) :
    (disposeWithin (depth + 1) s w).disposal? s = none := by
  unfold disposeWithin
  split
  next ended => exact ended
  next d _ => exact disposed_disposeEach depth _ ((disposal?_strike w s d s).trans (if_pos rfl))

/-- What is left to dispose is disposed, unless disposing is not allowed to go any deeper. -/
theorem disposed_disposeEach_of_mem {depth : Nat} {more : List (Ref .subscription)}
    (m : s' ∈ more) (enough : 0 < depth ∨ w.disposal? s' = none) :
    (more.foldl (fun w s => disposeWithin depth s w) w).disposal? s' = none := by
  obtain deep | ended := enough
  · obtain ⟨depth, rfl⟩ := Nat.exists_eq_succ_of_ne_zero (Nat.ne_of_gt deep)
    induction more generalizing w with
    | nil => cases m
    | cons s rest ih =>
      obtain rfl | m := List.mem_cons.1 m
      · exact disposed_disposeEach _ rest (disposed_disposeWithin_self depth s' w)
      · exact ih m
  · exact disposed_disposeEach depth more ended

/-- **Disposing a subscription with a placeholder** disposes the one that its subscriber was moved to. -/
theorem disposed_moved {q : Parked}
    (stands : w.disposal? s = some (.callback (.leaf (.placeholder u)) q.token))
    (parked : q ∈ w.board.parked u) (moved : q.moved = some s') :
    (w.dispose s).disposal? s' = none := by
  let d : Disposal := .callback (.leaf (.placeholder u)) q.token
  have there := index_lt_size_of_disposal? stands
  obtain ⟨depth, size⟩ := Nat.exists_eq_succ_of_ne_zero (Nat.ne_zero_of_lt there)
  have enough : 0 < depth ∨ (w.strike s d).disposal? s' = none := by
    rw [disposal?_strike]
    split
    · exact .inr rfl
    next other =>
      cases is : w.disposal? s' with
      | none => exact .inr rfl
      | some _ =>
        have there' := index_lt_size_of_disposal? is
        have apart : s'.index ≠ s.index := fun same => other (by cases s; cases s'; cases same; rfl)
        exact .inl (by omega)
  have more : s' ∈ ((w.modifySubscription s fun _ => ⟨none⟩).undo d).1 := by
    obtain ⟨cell, get, m⟩ := Store.exists_of_mem_listAt parked
    have get' : (w.modifySubscription s fun _ => ⟨none⟩).placeholders.get? u = some cell := get
    simp only [undo, d, undoCallback, get', List.mem_filterMap, List.mem_filter]
    exact ⟨q, ⟨m, decide_eq_true rfl⟩, moved⟩
  rw [dispose, size]
  unfold disposeWithin
  rw [stands]
  exact disposed_disposeEach_of_mem more enough

/-- A parked subscriber was moved, and its placeholder has noted where. -/
def Noted (w : World η) (u : Ref .placeholder) (q : Parked) (m : Made) : Prop :=
  m.2 = q.subscriber ∧ { q with moved := some m.1 } ∈ w.board.parked u

end World

namespace Enrolments

variable {η : Type} {w w' : World η} {env : Env η} {ob : Observer} {made made' : List Made}
  {u : Ref .placeholder} {p : Ref .property}

open World

/-- **The book of an observer** has a line for every subscription that was made. -/
theorem exists_booked (h : Enrolments env ob w made) :
    ∃ book, w.Booked ob book ∧ book.map (fun line => (line.handle, line.subscriber)) = made := by
  induction h with
  | start nobody unused => exact ⟨[], booked_nil nobody unused, rfl⟩
  | subscribe _ receives calm ran ih =>
    obtain ⟨book, booked, rfl⟩ := ih
    obtain ⟨t, joins⟩ := Run.enlists_subscribe receives calm ran
    exact ⟨_, booked.joins joins, List.map_append⟩
  | @sent w w' made σ s u p is _ receives found ran ih =>
    subst is
    obtain ⟨book, booked, rfl⟩ := ih
    obtain ⟨t, joins⟩ := enlists_subscribeProperty receives σ
    have sent : subscribePlaceholder w u σ = (s, w') := by
      cases ran
      rfl
    rw [← subscribePlaceholder_of_successor found, sent] at joins
    exact ⟨_, booked.joins joins, List.map_append⟩
  | dispose _ s ih =>
    obtain ⟨book, booked, rfl⟩ := ih
    exact ⟨book, booked.dispose s, rfl⟩
  | aside _ by' ih =>
    obtain ⟨book, booked, rfl⟩ := ih
    exact ⟨book, booked.bypasses by', rfl⟩

/-- **Who is registered**: those whose subscription is not disposed, in the order of subscribing. -/
theorem registered (h : Enrolments env ob w made) :
    (w.board.registered ob).map (·.2) = (w.undisposed made).map (·.2) := by
  obtain ⟨book, booked, rfl⟩ := h.exists_booked
  rw [booked.registered, World.undisposed, List.filter_map, List.map_map, List.map_map]
  rfl

/-- No subscription is made twice. -/
theorem nodup (h : Enrolments env ob w made) : (made.map (·.1)).Nodup := by
  obtain ⟨book, booked, rfl⟩ := h.exists_booked
  rw [List.map_map]
  exact booked.handles

/-! ### Migration -/

theorem moveParked (h : Enrolments env (.leaf (.property p)) w made)
    (there : w.Has (.leaf (.property p))) (q : Parked) :
    Enrolments env (.leaf (.property p)) (moveParked p u w q)
      (made ++ [((w.subscribeProperty p q.subscriber).1, q.subscriber)]) := by
  have subscribed : Enrolments env (.leaf (.property p)) (w.subscribeProperty p q.subscriber).2
      (made ++ [((w.subscribeProperty p q.subscriber).1, q.subscriber)]) :=
    h.subscribe there (fun w₂ started => by cases started; exact .refl _ _) rfl
  exact subscribed.aside
    ⟨rfl, fun _ _ => .rfl, fun _ _ none => none, Nat.le_refl _, Nat.le_refl _⟩

/-- The parked subscribers move, one after the other. -/
theorem moveAll : ∀ (rest : List Parked) {w : World η} {made : List Made},
    Enrolments env (.leaf (.property p)) w made → w.Has (.leaf (.property p)) →
      (∀ q ∈ rest, q ∈ w.board.parked u) → (rest.map (·.token)).Nodup →
    ∃ moved, Enrolments env (.leaf (.property p)) (rest.foldl (World.moveParked p u) w) (made ++ moved) ∧
      List.Forall₂ ((rest.foldl (World.moveParked p u) w).Noted u) rest moved ∧
      ∀ q ∈ w.board.parked u, q.token ∉ rest.map (·.token) →
        q ∈ (rest.foldl (World.moveParked p u) w).board.parked u
  | [], w, made, h, _, _, _ => ⟨[], by rwa [List.append_nil], .nil, fun q m _ => m⟩
  | q :: rest, w, made, h, there, waiting, once => by
    obtain ⟨fresh, once⟩ := List.nodup_cons.1 once
    let s := (w.subscribeProperty p q.subscriber).1
    have noted : (w.subscribeProperty p q.subscriber).2.board.Moves
        (World.moveParked p u w q).board u q.token s := moves_noted _ u q.token s
    have same : (w.subscribeProperty p q.subscriber).2.board.parked = w.board.parked :=
      congrArg (·.listAt (·.parked)) (placeholders_subscribeProperty w p q.subscriber)
    have still : (World.moveParked p u w q).Has (.leaf (.property p)) :=
      (properties_moveParked w p p u q).trans there
    have waiting' : ∀ q' ∈ rest, q' ∈ (World.moveParked p u w q).board.parked u := fun q' m =>
      noted.mem_other (same ▸ waiting q' (List.mem_cons_of_mem _ m)) fun _ is =>
        fresh (List.mem_map.2 ⟨q', m, is⟩)
    obtain ⟨moved, after, all, others⟩ := moveAll rest (h.moveParked there q) still waiting' once
    refine ⟨(s, q.subscriber) :: moved, ?_, .cons ⟨rfl, ?_⟩ all, fun q' m other => ?_⟩
    · rwa [List.append_assoc] at after
    · refine others _ (noted.mem_moved (same ▸ waiting q List.mem_cons_self)) fresh
    · rw [List.map_cons, List.mem_cons, not_or] at other
      exact others q' (noted.mem_other (same ▸ m) fun _ => other.1) other.2

/-- The parked subscribers have tokens of their own. -/
theorem parked_once (h : Enrolments env (.leaf (.placeholder u)) w made) :
    ((w.board.parked u).map (·.token)).Nodup := by
  obtain ⟨book, booked, -⟩ := h.exists_booked
  have tokens := congrArg (List.map (·.1)) booked.registered
  rw [Board.registered, List.map_map, List.map_map] at tokens
  exact tokens ▸ booked.tokens.sublist (List.filter_sublist.map Line.token)

/-- **A placeholder that finds its property** hands all over whom it parks, in their order. -/
theorem migrate (h : Enrolments env (.leaf (.placeholder u)) w made)
    (h' : Enrolments env (.leaf (.property p)) w made')
    (waits : w.successor? (.placeholder u) = none)
    (found : (w.resolvePlaceholder u).successor? (.placeholder u) = some p)
    (there : (w.resolvePlaceholder u).Has (.leaf (.property p))) :
    ∃ moved, Enrolments env (.leaf (.property p)) (w.resolvePlaceholder u) (made' ++ moved) ∧
      List.Forall₂ ((w.resolvePlaceholder u).Noted u) (w.board.parked u) moved := by
  have waits := actual_of_successor waits
  have found := actual_of_successor found
  obtain ⟨board, -⟩ | ⟨p', w₁, board, same, -, is⟩ := resolvePlaceholder_cases w u
  · rw [board, waits] at found
    cases found
  · let w₂ := w₁.modifyPlaceholder u fun cell => { cell with actual := some p' }
    have settled : p = p' := by
      rw [is, actual_moveAll] at found
      have m : p ∈ w₂.board.actual u := found ▸ List.mem_singleton.2 rfl
      obtain ⟨cell, get, here⟩ := Store.exists_of_mem_listAt m
      have get : (w₁.placeholders.modify u _).get? u = some cell := get
      rw [Store.get?_modify_self, Option.map_eq_some_iff] at get
      obtain ⟨cell, -, rfl⟩ := get
      exact List.mem_singleton.1 here
    subst settled
    rw [is] at there ⊢
    have after : Enrolments env (.leaf (.property p)) w₂ made' :=
      (h'.aside (.of_board board same)).aside (bypasses_settle w₁ u p)
    have parked : w₂.board.parked = w.board.parked := by
      obtain ⟨actual, settled, -⟩ := board_settlePlaceholder w₁ u p
      rw [settled, board]
    obtain ⟨moved, enrolled, all, -⟩ := after.moveAll (w.board.parked u)
      ((properties_moveAll p p u _ w₂).symm.trans there) (fun q m => parked ▸ m) h.parked_once
    exact ⟨moved, enrolled, all⟩

/-- **Whoever was parked is told by the observer of the property from then on**: it is with that observer
under a subscription that ends with the one with the placeholder. -/
theorem migrate_undisposed (h : Enrolments env (.leaf (.placeholder u)) w made)
    (h' : Enrolments env (.leaf (.property p)) w made')
    (waits : w.successor? (.placeholder u) = none)
    (found : (w.resolvePlaceholder u).successor? (.placeholder u) = some p)
    (there : (w.resolvePlaceholder u).Has (.leaf (.property p))) :
    ∃ moved, Enrolments env (.leaf (.property p)) (w.resolvePlaceholder u) (made' ++ moved) ∧
      List.Forall₂ (fun old new => new.2 = old.2 ∧
        ((w.resolvePlaceholder u).dispose old.1).isDisposed new.1) (w.undisposed made) moved := by
  obtain ⟨moved, enrolled, all⟩ := h.migrate h' waits found there
  refine ⟨moved, enrolled, ?_⟩
  obtain ⟨book, booked, rfl⟩ := h.exists_booked
  have by' : w.Bypasses (.leaf (.placeholder u)) (w.resolvePlaceholder u) :=
    bypasses_resolvePlaceholder w u nofun
  -- the lines of the book that stand are the parked ones, in the same order
  have lines : List.Forall₂ (fun (q : Parked) (line : Line) =>
      (q.token, q.subscriber) = (line.token, line.subscriber))
      (w.board.parked u) (book.filter w.standing) := by
    have registered := booked.registered
    rw [Board.registered] at registered
    exact List.forall₂_map_left_iff.1 (List.forall₂_map_right_iff.1
      (registered ▸ List.forall₂_refl _))
  have stands : ∀ line ∈ book.filter w.standing, (w.resolvePlaceholder u).disposal? line.handle =
      some (.callback (.leaf (.placeholder u)) line.token) := fun line m => by
    obtain ⟨m, standing⟩ := List.mem_filter.1 m
    obtain stands | ended := booked.stands line m
    · exact (by'.stands _ _).2 stands
    · rw [standing_of_none ended] at standing
      cases standing
  have undisposed : w.undisposed (book.map fun line => (line.handle, line.subscriber)) =
      (book.filter w.standing).map fun line => (line.handle, line.subscriber) := by
    rw [World.undisposed, List.filter_map]
    rfl
  rw [undisposed, List.forall₂_map_left_iff]
  clear enrolled undisposed
  generalize w.board.parked u = parked at all lines
  generalize book.filter w.standing = standing at lines stands
  induction lines generalizing moved with
  | nil =>
    cases all
    exact .nil
  | @cons q line parked standing same _ ih =>
    obtain ⟨token, subscriber⟩ := Prod.mk.inj same
    obtain _ | ⟨noted, all⟩ := all
    refine .cons ⟨noted.1.trans subscriber, ?_⟩
      (ih _ all fun line m => stands line (List.mem_cons_of_mem _ m))
    have ended := disposed_moved (token ▸ stands line List.mem_cons_self) noted.2 rfl
    rw [isDisposed, ended, Option.isNone_none]

end Enrolments

end ViewBinding
