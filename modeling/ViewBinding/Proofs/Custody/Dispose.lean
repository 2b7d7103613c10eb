import ViewBinding.Proofs.Custody.Effects
import ViewBinding.Proofs.Leaf.Slots

/-!
# Custody — disposing

Disposing a subscription takes back its registration, and what the observer kept for its subscribers is
disposed next.  Meanwhile all of that is in transit, so custody is kept (`custody_dispose`), as long as
disposing comes to an end: each subscription is disposed once, and there are no more of them than
disposing is allowed to go deep (`World.live`).
-/

namespace ViewBinding

namespace World

variable {η : Type} {w w' : World η} {σ τ : Subscriber} {loose : List (Ref .subscription)}
  {pending : List (Observer × Token)} {ob : Observer} {t : Token} {s : Ref .subscription}
  {more : List (Ref .subscription)}

/-! ### Taking back a registration -/

/-- Taking back the registrations with an observer that keeps nothing on the board. -/
theorem releases_modifyCallbacks (w : World η) (ob : Observer) (plain : ob.IsPlain) (t : Token)
    (more : List (Ref .subscription)) :
    w.board.Releases (w.modifyCallbacks (·.remove t) ob).board ob t more := by
  have A := agrees_modifyCallbacks w (·.remove t) ob
  refine ⟨fun ob' p m => ?_, fun u => A.parked ▸ .refl _, fun u q m => .inl (A.parked ▸ m), A.actual,
    fun σ s m => .inl (A.keeps ▸ m), A.disposal?, ?_⟩
  · obtain ⟨other, m⟩ | ⟨rfl, m⟩ := mem_registered_modifyCallbacks plain m
    · exact ⟨m, fun same => other same.1⟩
    · obtain ⟨m, kept⟩ := List.mem_filter.1 m
      exact ⟨m, fun same => of_decide_eq_true kept same.2⟩
  · cases ob with
    | leaf l => cases l <;> rfl
    | _ => rfl

/-- Nobody is registered with an observer that is gone. -/
theorem releases_gone (gone : w.board.registered ob = []) (t : Token)
    (more : List (Ref .subscription)) : w.board.Releases w.board ob t more where
  registered ob' p m := by
    refine ⟨m, ?_⟩
    rintro ⟨rfl, -⟩
    rw [gone] at m
    cases m
  parked _ := .refl _
  forwarded _ _ m := .inl m
  actual := rfl
  keeps _ _ m := .inl m
  disposal? := rfl
  drawn := rfl

/-- What changes callbacks like that. -/
theorem releases_of_eq (w : World η) (ob : Observer) (t : Token) (more : List (Ref .subscription))
    (plain : ob.IsPlain) {B : Board} (same : B = (w.modifyCallbacks (·.remove t) ob).board) :
    w.board.Releases B ob t more := same ▸ releases_modifyCallbacks w ob plain t more

theorem releases_undoPlaceholder (w : World η) (t : Token) (u : Ref .placeholder) :
    w.board.Releases (w.undoCallback t (.leaf (.placeholder u))).2.board (.leaf (.placeholder u)) t
      (w.undoCallback t (.leaf (.placeholder u))).1 := by
  unfold undoCallback
  dsimp only
  split
  next gone =>
    refine releases_gone ?_ t _
    exact congrArg (List.map fun q : Parked => (q.token, q.subscriber)) (Store.listAt_of_gone gone _)
  next cell get =>
    let stays := fun q : Parked => decide (q.token ≠ t)
    let f := fun cell : PlaceholderCell => { cell with parked := cell.parked.filter stays }
    have here : w.board.parked u = cell.parked := Store.listAt_of_get? get
    have parked : ∀ u', (w.modifyPlaceholder u f).board.parked u' =
        if u' = u then (w.board.parked u).filter stays else w.board.parked u' := fun u' => by
      split
      next same =>
        rw [same, here]
        refine Store.listAt_of_get? (a := f cell) ?_
        simp only [modifyPlaceholder, Store.get?_modify_self, get, Option.map_some]
      next other => exact Store.listAt_modify_of_ne _ _ _ other
    have actual : (w.modifyPlaceholder u f).board.actual = w.board.actual :=
      w.placeholders.listAt_modify u (by exact fun _ => rfl)
    change w.board.Releases (w.modifyPlaceholder u f).board _ t _
    refine ⟨fun ob' p m => ?_, fun u' => ?_, fun u' q m => ?_, actual, fun σ s m => .inl ?_, rfl, rfl⟩
    · cases ob' with
      | leaf l =>
        cases l with
        | placeholder u' =>
          obtain ⟨q, still, rfl⟩ := List.mem_map.1 m
          rw [parked] at still
          split at still
          next same =>
            obtain ⟨was, kept⟩ := List.mem_filter.1 still
            exact ⟨List.mem_map.2 ⟨q, same ▸ was, rfl⟩, fun gone => of_decide_eq_true kept gone.2⟩
          next other =>
            refine ⟨List.mem_map.2 ⟨q, still, rfl⟩, fun gone => other ?_⟩
            cases gone.1
            rfl
        | _ => exact ⟨m, fun same => by cases same.1⟩
      | _ => exact ⟨m, fun same => by cases same.1⟩
    · rw [parked]
      split
      next same => exact same ▸ List.filter_sublist
      · exact .refl _
    · rw [parked]
      split
      next same =>
        subst same
        by_cases leaves : q.token = t
        · refine .inr fun s moved => List.mem_filterMap.2 ⟨q, List.mem_filter.2 ⟨here ▸ m, ?_⟩, moved⟩
          exact decide_eq_true leaves
        · exact .inl (List.mem_filter.2 ⟨m, decide_eq_true leaves⟩)
      · exact .inl m
    · cases σ <;> exact m

theorem releases_undoComposite (w : World η) (t : Token) (c : Ref .composite) :
    w.board.Releases (w.undoCallback t (.composite c)).2.board (.composite c) t
      (w.undoCallback t (.composite c)).1 := by
  unfold undoCallback
  dsimp only
  split
  next gone =>
    refine releases_gone ?_ t _
    exact Store.listAt_of_gone gone _
  next cell get =>
    -- the callbacks are changed, and what the parts keep is kept or comes back
    have spec : ∀ {f : CompositeCell → CompositeCell} {more : List (Ref .subscription)},
        (f cell).callbacks = cell.callbacks.remove t →
        (∀ s ∈ cell.kept, s ∈ (f cell).kept ∨ s ∈ more) →
        w.board.Releases (w.modifyComposite c f).board (.composite c) t more :=
      fun {f more} h kept => by
      have callbacks : (w.modifyComposite c f).board.composites =
          (w.modifyCallbacks (·.remove t) (.composite c)).board.composites :=
        w.composites.listAt_modify_congr c fun a is => by
          cases get.symm.trans is
          exact congrArg (·.entries) h
      have R := releases_modifyCallbacks w (.composite c) trivial t more
      refine ⟨fun ob' p m => R.registered ob' p ?_, R.parked, R.forwarded, rfl, fun σ s m => ?_,
        rfl, rfl⟩
      · cases ob' with
        | composite c' => exact (congrFun callbacks c').subst (motive := fun l => p ∈ l) m
        | leaf l => cases l <;> exact m
        | path p => exact m
      · cases σ with
        | part c' =>
          by_cases same : c' = c
          · subst same
            have here : w.board.keeps (.part c') = cell.kept := Store.listAt_of_get? get
            have there : (w.modifyComposite c' f).board.keeps (.part c') = (f cell).kept := by
              refine Store.listAt_of_get? ?_
              simp only [modifyComposite, Store.get?_modify_self, get, Option.map_some]
            rw [there]
            exact kept s (here ▸ m)
          · have other : (w.modifyComposite c f).board.keeps (.part c') = w.board.keeps (.part c') :=
              Store.listAt_modify_of_ne _ _ _ same
            exact .inl (other ▸ m)
        | _ => exact .inl m
    split
    · exact spec rfl fun s m => .inr m
    · exact spec rfl fun s m => .inl m

/-- **Taking back a registration** takes back that one only, and gives what it kept. -/
theorem releases_undoCallback (w : World η) (t : Token) (ob : Observer) :
    w.board.Releases (w.undoCallback t ob).2.board ob t (w.undoCallback t ob).1 := by
  cases ob with
  | leaf l =>
    cases l with
    | setter r => exact releases_of_eq w (.leaf (.setter r)) t _ trivial rfl
    | property r => exact releases_of_eq w (.leaf (.property r)) t _ trivial rfl
    | placeholder u => exact releases_undoPlaceholder w t u
    | element r =>
      unfold undoCallback
      dsimp only
      split
      next gone =>
        refine releases_gone ?_ t _
        exact Store.listAt_of_gone gone _
      next cell get =>
        split
        · exact releases_of_eq w (.leaf (.element r)) t _ trivial
            (board_modifyElementProperty_congr w get rfl)
        · exact releases_of_eq w (.leaf (.element r)) t _ trivial
            (board_modifyElementProperty_congr w get rfl)
    | select r =>
      unfold undoCallback
      dsimp only
      split
      next gone =>
        refine releases_gone ?_ t _
        exact Store.listAt_of_gone gone _
      next cell get =>
        split
        · exact releases_of_eq w (.leaf (.select r)) t _ trivial (board_modifySelect_congr w get rfl)
        · exact releases_of_eq w (.leaf (.select r)) t _ trivial (board_modifySelect_congr w get rfl)
    | contents r =>
      unfold undoCallback
      dsimp only
      split
      next gone =>
        refine releases_gone ?_ t _
        exact Store.listAt_of_gone gone _
      next cell get =>
        split
        · split
          · exact releases_of_eq w (.leaf (.contents r)) t _ trivial
              ((board_unlistenSplices _ _ _).trans (board_modifyContents_congr w get rfl))
          · exact releases_of_eq w (.leaf (.contents r)) t _ trivial
              (board_modifyContents_congr w get rfl)
        · exact releases_of_eq w (.leaf (.contents r)) t _ trivial
            (board_modifyContents_congr w get rfl)
    | poll r =>
      unfold undoCallback
      dsimp only
      split
      next gone =>
        refine releases_gone ?_ t _
        exact Store.listAt_of_gone gone _
      next cell get =>
        split
        · exact releases_of_eq w (.leaf (.poll r)) t _ trivial
            ((board_withPolling _ _).trans (board_modifyPoll_congr w get rfl))
        · exact releases_of_eq w (.leaf (.poll r)) t _ trivial (board_modifyPoll_congr w get rfl)
  | path r =>
    unfold undoCallback
    dsimp only
    split
    next gone =>
      refine releases_gone ?_ t _
      exact Store.listAt_of_gone gone _
    next cell get =>
      split
      · exact releases_of_eq w (.path r) t _ trivial (board_modifyPath_congr w get rfl)
      · exact releases_of_eq w (.path r) t _ trivial (board_modifyPath_congr w get rfl)
  | composite r => exact releases_undoComposite w t r

/-! ### How deep disposing goes -/

/-- How many subscriptions are not disposed. -/
def live (w : World η) : Nat :=
  w.subscriptions.cells.toList.countP fun cell => (cell.bind (·.disposal)).isSome

theorem live_le_size (w : World η) : w.live ≤ w.subscriptions.size := List.countP_le_length

theorem countP_modify_const {α : Type} {l : List α} {i : Nat} {p : α → Bool} {f : α → α}
    (gone : ∀ a, p (f a) = false) : (l.modify i f).countP p =
      l.countP p - if (l[i]?.map p).getD false then 1 else 0 := by
  rw [List.modify_eq_set_getElem?]
  cases get : l[i]? with
  | none => simp
  | some a =>
    obtain ⟨lt, rfl⟩ := List.getElem?_eq_some_iff.1 get
    change (l.set i (f l[i])).countP p = _
    rw [List.countP_set lt, gone]
    rfl

/-- One subscription fewer, unless it was disposed before. -/
theorem live_endSubscription (w : World η) (s : Ref .subscription) :
    (w.modifySubscription s fun _ => ⟨none⟩).live =
      w.live - if (w.disposal? s).isSome then 1 else 0 := by
  let isLive := fun cell : Option SubscriptionCell => (cell.bind (·.disposal)).isSome
  have there : ((w.subscriptions.cells.toList[s.index]?).map isLive).getD false =
      (w.disposal? s).isSome := by
    simp only [disposal?, Store.get?, Array.getElem?_toList]
    cases w.subscriptions.cells[s.index]? with
    | none => rfl
    | some cell => cases cell <;> rfl
  have counted := countP_modify_const (l := w.subscriptions.cells.toList) (i := s.index)
    (p := isLive) (f := Option.map fun _ => ⟨none⟩) fun cell => by cases cell <;> rfl
  rw [there] at counted
  simpa only [live, modifySubscription, Store.modify, Array.toList_modify] using counted

theorem live_endSubscription_le (w : World η) (s : Ref .subscription) :
    (w.modifySubscription s fun _ => ⟨none⟩).live ≤ w.live :=
  live_endSubscription w s ▸ Nat.sub_le _ _

theorem live_pos {d : Disposal} (stands : w.disposal? s = some d) : 0 < w.live := by
  refine List.countP_pos_iff.2 ⟨some ⟨some d⟩, ?_, rfl⟩
  simp only [disposal?, Store.get?] at stands
  cases get : w.subscriptions.cells[s.index]? with
  | none => simp [get] at stands
  | some cell =>
    rw [get] at stands
    obtain rfl : cell = some ⟨some d⟩ := by
      rcases cell with _ | ⟨_ | d'⟩
      · cases stands
      · cases stands
      · cases stands
        rfl
    exact List.mem_of_getElem? (Array.getElem?_toList.trans get)

theorem live_of_subscriptions (same : w'.subscriptions = w.subscriptions) : w'.live = w.live := by
  simp only [live, same]

theorem live_undo (w : World η) (d : Disposal) : (w.undo d).2.live = w.live :=
  undo_keeps (P := fun w' => w'.live = w.live)
    (fun w' t ob h => (live_of_subscriptions (undoCallback_leaves w' t ob).2).trans h)
    (fun _ _ _ h => h) w d rfl

theorem live_disposeWithin_le (depth : Nat) (s : Ref .subscription) (w : World η) :
    (disposeWithin depth s w).live ≤ w.live :=
  disposeWithin_keeps (P := fun w' => w'.live ≤ w.live)
    (fun w' s h => Nat.le_trans (live_endSubscription_le w' s) h)
    (fun w' d h => live_undo w' d ▸ h) depth s w (Nat.le_refl _)

/-! ### Disposing -/

theorem board_endSubscription (w : World η) (s : Ref .subscription) :
    (w.modifySubscription s fun _ => ⟨none⟩).board = w.board.without s := by
  refine congrArg (fun l => { w.board with disposal? := l }) (funext fun s' => ?_)
  simp only [disposal?, modifySubscription, Store.get?_modify]
  split
  · cases w.subscriptions.get? s <;> rfl
  · rfl

/-- An element that stops listening is no business of the board. -/
theorem board_undoEvents (w : World η) (e : Ref .element) (tokens : List Token) :
    (w.undo (.events e tokens)).2.board = w.board := by
  change (tokens.foldl (fun w token => w.unlistenEvents e token) w).board = w.board
  induction tokens generalizing w with
  | nil => rfl
  | cons token rest ih => exact ih (w.unlistenEvents e token)

/-- What a subscription stands for has been taken back, and what that kept is in transit. -/
theorem custody_undo (A : w.board.Custody σ (s :: loose) pending) {d : Disposal}
    (stands : w.disposal? s = some d) :
    ((w.modifySubscription s fun _ => ⟨none⟩).undo d).2.board.Custody σ
      (((w.modifySubscription s fun _ => ⟨none⟩).undo d).1 ++ loose) pending := by
  cases d with
  | callback ob t =>
    have R := releases_undoCallback (w.modifySubscription s fun _ => ⟨none⟩) t ob
    rw [board_endSubscription] at R
    exact A.releases stands R
  | events e tokens =>
    have ended := A.ended fun ob t is => by cases stands.symm.trans is
    rw [← board_endSubscription, ← board_undoEvents _ e tokens] at ended
    exact ended

/-- **Disposing** keeps custody, with one subscription fewer in transit. -/
theorem custody_disposeWithin : ∀ (depth : Nat) (s : Ref .subscription) (w : World η)
    (loose : List (Ref .subscription)), w.live ≤ depth → w.board.Custody σ (s :: loose) pending →
      (disposeWithin depth s w).board.Custody σ loose pending
  | 0, s, w, loose, enough, A =>
    A.forget fun _ _ stands => Nat.not_lt.2 enough (live_pos stands)
  | depth + 1, s, w, loose, enough, A => by
    unfold disposeWithin
    split
    next gone => exact A.forget fun ob t stands => by cases gone.symm.trans stands
    next d stands =>
      dsimp only
      have taken := custody_undo A stands
      have fewer : ((w.modifySubscription s fun _ => ⟨none⟩).undo d).2.live ≤ depth := by
        rw [live_undo, live_endSubscription, stands]
        exact Nat.sub_le_of_le_add enough
      generalize ((w.modifySubscription s fun _ => ⟨none⟩).undo d).1 = more at taken
      generalize ((w.modifySubscription s fun _ => ⟨none⟩).undo d).2 = w' at taken fewer
      induction more generalizing w' with
      | nil => exact taken
      | cons s' rest ih =>
        exact ih _ (custody_disposeWithin depth s' w' (rest ++ loose) fewer taken)
          (Nat.le_trans (live_disposeWithin_le depth s' w') fewer)

theorem custody_dispose (A : w.board.Custody σ (s :: loose) pending) :
    (w.dispose s).board.Custody σ loose pending :=
  custody_disposeWithin _ s w loose w.live_le_size A

theorem custody_disposeOption {s : Option (Ref .subscription)}
    (A : w.board.Custody σ (s.toList ++ loose) pending) :
    (w.disposeOption s).board.Custody σ loose pending := by
  cases s with
  | none => exact A
  | some s => exact custody_dispose A

/-- Whoever disposes a subscription, custody is kept. -/
theorem guards_dispose (w : World η) (s : Ref .subscription) : Guards σ w (w.dispose s) :=
  fun _ _ A => custody_dispose (A.mono fun _ => List.mem_cons_of_mem _)

theorem guards_disposeOption (w : World η) (s : Option (Ref .subscription)) :
    Guards σ w (w.disposeOption s) := by
  cases s with
  | none => exact .refl σ w
  | some s => exact guards_dispose w s

/-- The new subscription is not wanted any more. -/
theorem custody_disposeEntered (A : w.board.Custody σ (σ.charge τ s loose) pending) :
    (w.dispose s).board.Custody σ loose pending := by
  by_cases own : τ = σ
  · subst own
    rw [Subscriber.charge_self] at A
    exact custody_dispose A
  · rw [Subscriber.charge_of_ne own] at A
    exact guards_dispose w s loose pending A

end World

end ViewBinding
