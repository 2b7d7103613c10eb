import ViewBinding.Proofs.Custody.Dispose

/-!
# Custody — subscribing to leaves

Subscribing to a leaf registers a subscriber and makes the subscription that ends the registration
(`enters_subscribeSetter`, …).  A placeholder parks its subscribers, and once the property is there
it subscribes each of them to the property and keeps what ends that (`guards_resolvePlaceholder`).
-/

namespace ViewBinding

namespace World

variable {η : Type} {w w' : World η} {σ τ : Subscriber} {loose : List (Ref .subscription)}
  {pending : List (Observer × Token)} {s : Ref .subscription}

/-! ### Leaves that are there -/

theorem guards_startObserving (w : World η) (d : Ref .dispatcher) :
    Guards σ w (w.startObserving d) := .of_draws (draws_startObserving w d)

theorem enters_subscribeSetter (w : World η) (r : Ref .setter) (τ : Subscriber) :
    Enters σ τ w (w.subscribeSetter r τ) := by
  intro loose pending A
  have added := custody_add (A.draws (draws_freshToken w)) (.leaf (.setter r)) trivial
    w.freshToken.1 τ
  refine custody_callbackSubscription ?_
  split
  · split
    · exact added
    · exact added.draws (.of_eq (board_installTrap _ r))
  · exact added

theorem enters_subscribeProperty (w : World η) (p : Ref .property) (τ : Subscriber) :
    Enters σ τ w (w.subscribeProperty p τ) := by
  intro loose pending A
  have added := custody_add (A.draws (draws_freshToken w)) (.leaf (.property p)) trivial
    w.freshToken.1 τ
  refine custody_callbackSubscription ?_
  split
  · exact guards_startObserving _ _ _ _ added
  · exact added

theorem enters_subscribeElement (w : World η) (r : Ref .elementProperty) (τ : Subscriber) :
    Enters σ τ w (w.subscribeElement r τ) := by
  refine (enters_add (.leaf (.element r)) trivial _ τ id fun w => .refl σ w).after ?_
  split
  next cell _ =>
    split
    · exact .refl σ w
    · exact (guards_handleEvents w _ _ _).trans
        (.of_eq (board_modifyElementProperty _ r fun _ => rfl))
  · exact .refl σ w

theorem enters_subscribeSelect (w : World η) (r : Ref .select) (τ : Subscriber) :
    Enters σ τ w (w.subscribeSelect r τ) := by
  refine (enters_add (.leaf (.select r)) trivial _ τ id fun w => .refl σ w).after ?_
  split
  next cell _ =>
    split
    · exact .refl σ w
    · exact (guards_handleEvents w cell.element ["change"] (.select r)).trans
        (.of_eq (by exact board_modifySelect _ r fun _ => rfl))
  · exact .refl σ w

theorem enters_subscribeContents (w : World η) (c : Ref .contents) (τ : Subscriber) :
    Enters σ τ w (w.subscribeContents c τ) :=
  enters_add (.leaf (.contents c)) trivial w τ (·.startListening c) fun w =>
    .of_draws (draws_startListening w c)

theorem enters_subscribePoll (w : World η) (r : Ref .poll) (τ : Subscriber) :
    Enters σ τ w (w.subscribePoll r τ) := by
  intro loose pending A
  have added := custody_add (A.draws (draws_freshToken w)) (.leaf (.poll r)) trivial
    w.freshToken.1 τ
  refine custody_callbackSubscription ?_
  split
  · refine added.draws (.of_eq ?_)
    rw [board_track]
    exact board_modifyPoll _ r fun _ => rfl
  · exact added

/-! ### Placeholders -/

theorem board_modifyPlaceholder (w : World η) (u : Ref .placeholder)
    {f : PlaceholderCell → PlaceholderCell} {k : List Parked → List Parked}
    (same : ∀ c, (f c).actual = c.actual) (shows : ∀ c, (f c).parked = k c.parked)
    (nothing : k [] = []) : (w.modifyPlaceholder u f).board = { w.board with
      parked := fun u' => if u' = u then k (w.board.parked u) else w.board.parked u' } := by
  have parked : (w.placeholders.modify u f).listAt (·.parked) = _ :=
    funext (w.placeholders.listAt_modify_map u shows nothing)
  have actual : (w.placeholders.modify u f).listAt (·.actual.toList) =
      w.placeholders.listAt (·.actual.toList) :=
    w.placeholders.listAt_modify u fun c => congrArg Option.toList (same c)
  simp only [board, modifyPlaceholder, parked, actual]
  rfl

theorem placeholders_startObserving (w : World η) (d : Ref .dispatcher) :
    (w.startObserving d).placeholders = w.placeholders := by
  unfold startObserving
  split
  · rfl
  · split <;> rfl

theorem placeholders_subscribeProperty (w : World η) (p : Ref .property) (τ : Subscriber) :
    (w.subscribeProperty p τ).2.placeholders = w.placeholders := by
  simp only [subscribeProperty, callbackSubscription, newSubscription]
  split
  · exact placeholders_startObserving _ _
  · rfl

theorem disposal?_subscribeProperty (w : World η) (p : Ref .property) (τ : Subscriber) :
    (w.subscribeProperty p τ).2.disposal? (w.subscribeProperty p τ).1 =
      some (.callback (.leaf (.property p)) w.freshToken.1) :=
  (disposal?_newSubscription _ _ _).trans (if_pos rfl)

/-- In the middle of moving the subscribers of a placeholder, where `rest` are still to be moved. -/
structure Transferring (σ : Subscriber) (loose : List (Ref .subscription))
    (pending : List (Observer × Token)) (u : Ref .placeholder) (rest : List Parked) (w : World η) :
    Prop where
  custody : w.board.Custody σ loose pending
  there : rest ≠ [] → w.board.actual u ≠ []
  waiting : ∀ q ∈ rest, q ∈ w.board.parked u ∧ q.moved = none
  once : (rest.map (·.token)).Nodup

theorem Transferring.moveParked {u : Ref .placeholder} {q : Parked} {rest : List Parked}
    (h : w.Transferring σ loose pending u (q :: rest)) (p : Ref .property) :
    (moveParked p u w q).Transferring σ loose pending u rest := by
  have entered := enters_subscribeProperty w p q.subscriber loose pending h.custody
  have stands := disposal?_subscribeProperty w p q.subscriber
  have same := placeholders_subscribeProperty w p q.subscriber
  unfold World.moveParked
  generalize w.subscribeProperty p q.subscriber = made at entered stands same ⊢
  obtain ⟨s, w'⟩ := made
  have actual : w'.board.actual = w.board.actual := congrArg (·.listAt (·.actual.toList)) same
  have parked : w'.board.parked = w.board.parked := congrArg (·.listAt (·.parked)) same
  have moves : w'.board.Moves (w'.modifyPlaceholder u fun cell =>
      { cell with parked := cell.parked.map fun q' =>
        if q'.token = q.token then { q' with moved := some s } else q' }).board u q.token s :=
    board_modifyPlaceholder w' u (fun _ => rfl) (fun _ => rfl) rfl
  obtain ⟨here, unmoved⟩ := h.waiting q List.mem_cons_self
  obtain ⟨fresh, once⟩ := List.nodup_cons.1 h.once
  have there : w'.board.actual u ≠ [] := actual ▸ h.there (List.cons_ne_nil _ _)
  refine ⟨entered.moves moves there (parked ▸ here) unmoved stands, fun _ => ?_, ?_, once⟩
  · rw [moves]
    exact there
  · intro q' m
    obtain ⟨waits, unmoved'⟩ := h.waiting q' (List.mem_cons_of_mem _ m)
    exact ⟨moves.mem_other (parked ▸ waits) fun _ is => fresh (List.mem_map.2 ⟨q', m, is⟩), unmoved'⟩

theorem Transferring.moveAll {u : Ref .placeholder} (p : Ref .property) : ∀ (rest : List Parked)
    (w : World η), w.Transferring σ loose pending u rest →
      (rest.foldl (World.moveParked p u) w).Transferring σ loose pending u []
  | [], _, h => h
  | _ :: rest, _, h => moveAll p rest _ (h.moveParked p)

/-- The observer of the property is noted, if the placeholder is there. -/
theorem board_settlePlaceholder (w : World η) (u : Ref .placeholder) (p : Ref .property) :
    ∃ actual, (w.modifyPlaceholder u fun cell => { cell with actual := some p }).board =
        { w.board with actual } ∧
      (∀ u', actual u' = [] → w.board.actual u' = []) ∧
      ∀ q ∈ w.board.parked u, actual u ≠ [] := by
  let f := fun cell : PlaceholderCell => { cell with actual := some p }
  have parked : (w.placeholders.modify u f).listAt (·.parked) = w.placeholders.listAt (·.parked) :=
    w.placeholders.listAt_modify u (by exact fun _ => rfl)
  have here : ∀ c, w.placeholders.get? u = some c →
      (w.placeholders.modify u f).listAt (·.actual.toList) u = [p] := fun c get => by
    refine Store.listAt_of_get? (a := f c) ?_
    rw [Store.get?_modify_self, get]
    rfl
  refine ⟨(w.placeholders.modify u f).listAt (·.actual.toList), ?_, fun u' waits => ?_,
    fun q m => ?_⟩
  · simp only [board, modifyPlaceholder, f, ← parked]
    rfl
  · by_cases same : u' = u
    · subst same
      cases get : w.placeholders.get? u' with
      | none => exact Store.listAt_of_gone get _
      | some c =>
        rw [here c get] at waits
        cases waits
    · rwa [Store.listAt_modify_of_ne _ _ _ same] at waits
  · obtain ⟨c, get, -⟩ := Store.exists_of_mem_listAt m
    rw [here c get]
    exact List.cons_ne_nil _ _

/-- **Switching a placeholder to the property**, with all whom it parks. -/
theorem guards_resolvePlaceholder (w : World η) (u : Ref .placeholder) :
    Guards σ w (w.resolvePlaceholder u) := by
  intro loose pending A
  unfold resolvePlaceholder
  split
  · exact A
  next cell get =>
    split
    · exact A
    next waits =>
      have found := board_dispatcherObserver (w.modifyDispatcher cell.dispatcher fun d =>
        { d with observers := Entries.erase cell.property d.observers }) cell.dispatcher cell.property
      rw [board_modifyDispatcher] at found
      dsimp only
      split
      next p w' is =>
        rw [is] at found
        dsimp only at found
        obtain ⟨actual, board, still, there⟩ := board_settlePlaceholder w' u p
        rw [found] at board still there
        have here : w.board.parked u = cell.parked := Store.listAt_of_get? get
        have idle : w.board.actual u = [] := by
          refine (Store.listAt_of_get? get).trans ?_
          cases e : cell.actual with
          | none => rfl
          | some p =>
            rw [e] at waits
            exact absurd rfl waits
        refine (Transferring.moveAll p cell.parked _ ⟨?_, fun some => ?_, fun q m => ?_, ?_⟩).custody
        · rw [board]
          exact A.appears still
        · rw [board]
          obtain ⟨q, m⟩ := List.exists_mem_of_ne_nil _ some
          exact there q (here ▸ m)
        · rw [board]
          exact ⟨here ▸ m, A.unmoved u idle q (here ▸ m)⟩
        · exact here ▸ A.once u
      next w' _ is =>
        rw [is] at found
        exact A.draws (.of_eq found)

/-- Gives a subscriber a place at a placeholder. -/
def lodge (w : World η) (u : Ref .placeholder) (t : Token) (τ : Subscriber) : World η :=
  w.modifyPlaceholder u fun cell => { cell with parked := cell.parked ++ [⟨t, τ, none⟩] }

theorem admits_lodge {cell : PlaceholderCell} {u : Ref .placeholder}
    (get : w.placeholders.get? u = some cell) (τ : Subscriber) :
    w.board.Admits (w.freshToken.2.lodge u w.freshToken.1 τ).board u w.freshToken.1 τ := by
  let q : Parked := ⟨w.freshToken.1, τ, none⟩
  let f := fun cell : PlaceholderCell => { cell with parked := cell.parked ++ [q] }
  have actual : (w.placeholders.modify u f).listAt (·.actual.toList) =
      w.placeholders.listAt (·.actual.toList) :=
    w.placeholders.listAt_modify u (by exact fun _ => rfl)
  have parked : (w.placeholders.modify u f).listAt (·.parked) = fun u' => if u' = u then
      w.placeholders.listAt (·.parked) u ++ [q] else w.placeholders.listAt (·.parked) u' := by
    funext u'
    split
    next same =>
      have here : (w.placeholders.modify u f).get? u = some (f cell) := by
        rw [Store.get?_modify_self, get]
        rfl
      rw [same, Store.listAt_of_get? get, Store.listAt_of_get? here]
    next other => exact Store.listAt_modify_of_ne _ f _ other
  refine ⟨Nat.le_refl _, Nat.lt_succ_self _, ?_⟩
  have shows : (w.freshToken.2.lodge u w.freshToken.1 τ).board = { w.board with
      parked := (w.placeholders.modify u f).listAt (·.parked)
      actual := (w.placeholders.modify u f).listAt (·.actual.toList)
      drawn := w.nextToken + 1 } := rfl
  rw [shows, parked, actual]
  rfl

/-- A placeholder that is gone parks nobody. -/
theorem lodge_of_gone {u : Ref .placeholder} (gone : w.placeholders.get? u = none) (t : Token)
    (τ : Subscriber) : (w.lodge u t τ).board = w.board := by
  have same : w.lodge u t τ = w.modifyPlaceholder u fun cell => cell :=
    congrArg (fun l => { w with placeholders := l })
      (Store.modify_congr fun a is => nomatch gone.symm.trans is)
  rw [same, board_modifyPlaceholder w u (k := id) (fun _ => rfl) (fun _ => rfl) rfl]
  refine congrArg (fun l => { w.board with parked := l }) (funext fun u' => ?_)
  split
  next is =>
    subst is
    rfl
  · rfl

theorem enters_lodge (w : World η) (u : Ref .placeholder) (τ : Subscriber) :
    Enters σ τ w ((w.freshToken.2.lodge u w.freshToken.1 τ).callbackSubscription
      (.leaf (.placeholder u)) w.freshToken.1) := by
  intro loose pending A
  refine custody_callbackSubscription ?_
  have still : ∀ x ∈ pending, x ∈ σ.charge τ (.leaf (.placeholder u), w.freshToken.1) pending :=
    fun x m => Subscriber.mem_charge.2 (.inl m)
  cases get : w.placeholders.get? u with
  | none =>
    have same : (w.freshToken.2.lodge u w.freshToken.1 τ).board = w.freshToken.2.board :=
      lodge_of_gone (w := w.freshToken.2) get _ τ
    exact ((A.draws (draws_freshToken w)).draws (.of_eq same)).mono_pending still
  | some cell =>
    exact A.admits (admits_lodge get τ) (fun own => Subscriber.mem_charge.2 (.inr ⟨rfl, own⟩)) still

theorem enters_subscribePlaceholder (w : World η) (u : Ref .placeholder) (τ : Subscriber) :
    Enters σ τ w (w.subscribePlaceholder u τ) := by
  refine Enters.after ?_ (guards_resolvePlaceholder w u)
  unfold subscribePlaceholder
  dsimp only
  split
  next p _ => exact enters_subscribeProperty _ p τ
  · refine (enters_lodge _ u τ).after ?_
    split
    · exact guards_startObserving _ _
    · exact .refl σ _

/-! ### Selects -/

theorem guards_followArray (w : World η) (r : Ref .select) (v : Value) (keeper : σ ≠ .options r) :
    Guards σ w (w.followArray r v).2 := by
  unfold followArray
  split
  next a =>
    have found := board_contentsObserver w a
    intro loose pending A
    have entered := enters_subscribeContents (σ := σ) (w.contentsObserver a).2
      (w.contentsObserver a).1 (.options r) loose pending (A.draws (.of_eq found))
    rwa [Subscriber.charge_of_ne fun is => keeper is.symm] at entered
  · exact .refl σ w

theorem guards_bindSelect (w : World η) (r : Ref .select) : Guards σ w (w.bindSelect r) :=
  .of_draws (draws_bindSelect w r)

theorem guards_unbindSelect (w : World η) (r : Ref .select) : Guards σ w (w.unbindSelect r) := by
  unfold unbindSelect
  split
  · exact .refl σ w
  next cell _ =>
    refine Guards.trans (.of_eq ?_) (guards_disposeOption _ cell.array)
    split
    · rw [unlistenChildren, board_modifyElement]
      exact board_modifySelect w r fun _ => rfl
    · exact board_modifySelect w r fun _ => rfl

end World

end ViewBinding
