import ViewBinding.Proofs.Custody.Leaves

/-!
# Newest — the book of an observer

Who is registered with an observer is settled by who subscribed to it and by which of these
subscriptions have been disposed.  `World.Booked w ob book` says that `book` lists all subscriptions
ever made with `ob`, the oldest first, and that those of them that stand are the registrations, in the
same order.

Subscribing writes a line at the end of the book (`Booked.joins`).  Disposing strikes lines out, those
of subscriptions that fall with the disposed one as well, and moves none (`Booked.dispose`).  Nothing
else concerns the book (`World.Bypasses`, `Booked.bypasses`).
-/

namespace ViewBinding

/-- Something is added to the list of something that is there. -/
theorem Store.listAt_modify_append {κ : Entity} {α β : Type} {s : Store κ α} {r : Ref κ}
    (there : s.contains r) {f : α → α} {g : α → List β} {x : β} (shows : ∀ a, g (f a) = g a ++ [x]) :
    (s.modify r f).listAt g r = s.listAt g r ++ [x] := by
  obtain ⟨a, get⟩ := Option.isSome_iff_exists.1 there
  rw [listAt, get?_modify_self, listAt_of_get? get, get, Option.map_some, Option.map_some, shows]
  rfl

namespace World

variable {η : Type} {w w' w'' : World η} {ob ob' : Observer} {σ : Subscriber}
  {s s' : Ref .subscription} {t t' : Token}

/-! ### Taking back a registration -/

/-- Taking a registration back shows in what is registered as the removal of its token. -/
theorem registered_modifyCallbacks_remove (w : World η) (t : Token) (plain : ob.IsPlain)
    (ob' : Observer) :
    (w.modifyCallbacks (·.remove t) ob).board.registered ob' =
      if ob' = ob then (w.board.registered ob).filter (·.1 ≠ t) else w.board.registered ob' := by
  split
  next same =>
    subst same
    rcases ob' with (r | r | r | r | r | r | r) | r | r <;>
      first
      | exact plain.elim
      | exact (Store.listAt_modify_map _ r (by exact fun _ => rfl) rfl r).trans (if_pos rfl)
  next other => exact registered_modifyCallbacks_of_ne other _

/-- The registrations with a composite, whatever becomes of its parts. -/
theorem registered_modifyComposite_congr (w : World η) {c : Ref .composite} {cell : CompositeCell}
    {f f' : CompositeCell → CompositeCell} (get : w.composites.get? c = some cell)
    (same : (f cell).callbacks = (f' cell).callbacks) :
    (w.modifyComposite c f).board.registered ob = (w.modifyComposite c f').board.registered ob := by
  have callbacks : (w.composites.modify c f).listAt (·.callbacks.entries) =
      (w.composites.modify c f').listAt (·.callbacks.entries) :=
    w.composites.listAt_modify_congr c fun a is => by
      cases get.symm.trans is
      exact congrArg (·.entries) same
  cases ob with
  | composite c' => exact congrFun callbacks c'
  | leaf l => cases l <;> rfl
  | path p => rfl

/-- **Taking back a registration** removes that one, and no other from any observer. -/
theorem registered_undoCallback (w : World η) (t : Token) (ob ob' : Observer) :
    (w.undoCallback t ob).2.board.registered ob' =
      if ob' = ob then (w.board.registered ob).filter (·.1 ≠ t) else w.board.registered ob' := by
  have gone : ∀ {ob : Observer}, w.board.registered ob = [] → w.board.registered ob' =
      if ob' = ob then (w.board.registered ob).filter (·.1 ≠ t) else w.board.registered ob' :=
    fun {ob} none => by
      split
      next same => rw [same, none, List.filter_nil]
      · rfl
  have plain : ∀ (ob : Observer) {B : Board}, ob.IsPlain →
      B = (w.modifyCallbacks (·.remove t) ob).board → B.registered ob' =
        if ob' = ob then (w.board.registered ob).filter (·.1 ≠ t) else w.board.registered ob' :=
    fun _ _ plain same => same ▸ registered_modifyCallbacks_remove w t plain ob'
  cases ob with
  | leaf l =>
    cases l with
    | setter r => exact plain _ trivial rfl
    | property r => exact plain _ trivial rfl
    | placeholder u =>
      unfold undoCallback
      dsimp only
      split
      next none => exact gone (congrArg (List.map _) (Store.listAt_of_gone none _))
      next cell _ =>
        have board := board_modifyPlaceholder w u (f := fun cell =>
          { cell with parked := cell.parked.filter (·.token ≠ t) }) (fun _ => rfl) (fun _ => rfl) rfl
        dsimp only
        rw [board]
        cases ob' with
        | leaf l =>
          cases l with
          | placeholder u' =>
            by_cases same : u' = u
            · subst same
              simp only [Board.registered, if_true, List.filter_map, Function.comp_def]
            · have other : Observer.leaf (.placeholder u') ≠ .leaf (.placeholder u) :=
                fun is => same (by cases is; rfl)
              simp only [Board.registered, if_neg same, if_neg other]
          | _ => rfl
        | _ => rfl
    | element r =>
      unfold undoCallback
      dsimp only
      split
      next none => exact gone (Store.listAt_of_gone none _)
      next cell get =>
        split <;> exact plain (.leaf (.element r)) trivial
          (board_modifyElementProperty_congr w get rfl)
    | select r =>
      unfold undoCallback
      dsimp only
      split
      next none => exact gone (Store.listAt_of_gone none _)
      next cell get =>
        split <;> exact plain (.leaf (.select r)) trivial
          (board_modifySelect_congr w get rfl)
    | contents r =>
      unfold undoCallback
      dsimp only
      split
      next none => exact gone (Store.listAt_of_gone none _)
      next cell get =>
        split
        · split <;> exact plain (.leaf (.contents r)) trivial
            (board_modifyContents_congr w get rfl)
        · exact plain (.leaf (.contents r)) trivial
            (board_modifyContents_congr w get rfl)
    | poll r =>
      unfold undoCallback
      dsimp only
      split
      next none => exact gone (Store.listAt_of_gone none _)
      next cell get =>
        split <;> exact plain (.leaf (.poll r)) trivial
          (board_modifyPoll_congr w get rfl)
  | path r =>
    unfold undoCallback
    dsimp only
    split
    next none => exact gone (Store.listAt_of_gone none _)
    next cell get =>
      split <;> exact plain (.path r) trivial
        (board_modifyPath_congr w get rfl)
  | composite r =>
    unfold undoCallback
    dsimp only
    split
    next none => exact gone (Store.listAt_of_gone none _)
    next cell get =>
      have plain : (Observer.composite r).IsPlain := trivial
      have same := registered_modifyCallbacks_remove w t plain ob'
      split
      · refine Eq.trans ?_ same
        exact registered_modifyComposite_congr w get rfl
      · refine Eq.trans ?_ same
        exact registered_modifyComposite_congr w get rfl

/-! ### What does not concern an observer -/

/-- What is registered with an observer, and the subscriptions that stand for that, are as they were.
Other subscriptions may come and go. -/
structure Bypasses (ob : Observer) (w w' : World η) : Prop where
  registered : w'.board.registered ob = w.board.registered ob
  stands : ∀ s t, w'.disposal? s = some (.callback ob t) ↔ w.disposal? s = some (.callback ob t)
  ended : ∀ s, s.index < w.subscriptions.size → w.disposal? s = none → w'.disposal? s = none
  drawn : w.nextToken ≤ w'.nextToken
  made : w.subscriptions.size ≤ w'.subscriptions.size

theorem Bypasses.refl (ob : Observer) (w : World η) : w.Bypasses ob w :=
  ⟨rfl, fun _ _ => .rfl, fun _ _ ended => ended, Nat.le_refl _, Nat.le_refl _⟩

theorem Bypasses.trans (h : w.Bypasses ob w') (h' : w'.Bypasses ob w'') : w.Bypasses ob w'' where
  registered := h'.registered.trans h.registered
  stands s t := (h'.stands s t).trans (h.stands s t)
  ended s old none := h'.ended s (Nat.lt_of_lt_of_le old h.made) (h.ended s old none)
  drawn := Nat.le_trans h.drawn h'.drawn
  made := Nat.le_trans h.made h'.made

/-- What shows on the board at most as tokens that are drawn. -/
theorem Bypasses.of_draws (draws : w.board.Draws w'.board)
    (same : w'.subscriptions = w.subscriptions) : w.Bypasses ob w' := by
  obtain ⟨n, more, board⟩ := draws
  have disposal : w'.disposal? = w.disposal? := congrArg (·.disposal?) board
  have drawn : w'.nextToken = n := congrArg (·.drawn) board
  refine ⟨?_, fun s t => disposal ▸ .rfl, fun s _ none => disposal ▸ none, drawn ▸ more,
    same ▸ Nat.le_refl _⟩
  rw [board]
  rcases ob with l | p | c
  · cases l <;> rfl
  · rfl
  · rfl

theorem Bypasses.of_board (board : w'.board = w.board)
    (same : w'.subscriptions = w.subscriptions) : w.Bypasses ob w' :=
  .of_draws (.of_eq board) same

/-! ### The book -/

/-- A line of the book of an observer: a subscription, and the registration that it stands for. -/
structure Line where
  handle : Ref .subscription
  token : Token
  subscriber : Subscriber

/-- A line that is not struck out: its subscription is not disposed. -/
def standing (w : World η) (line : Line) : Bool := !w.isDisposed line.handle

/-- `book` lists the subscriptions ever made with an observer, the oldest first, and the registrations
are those lines that stand. -/
structure Booked (w : World η) (ob : Observer) (book : List Line) : Prop where
  registered :
    w.board.registered ob = (book.filter w.standing).map fun line => (line.token, line.subscriber)
  stands : ∀ line ∈ book, w.disposal? line.handle = some (.callback ob line.token) ∨
    w.disposal? line.handle = none
  only : ∀ s t, w.disposal? s = some (.callback ob t) → ∃ line ∈ book, line.handle = s
  handles : (book.map Line.handle).Nodup
  tokens : (book.map Line.token).Nodup
  made : ∀ line ∈ book, line.handle.index < w.subscriptions.size
  drawn : ∀ line ∈ book, line.token.index < w.nextToken

variable {book : List Line}

theorem standing_of_some {line : Line} {d : Disposal} (stands : w.disposal? line.handle = some d) :
    w.standing line = true := by
  simp only [standing, isDisposed, stands, Option.isNone_some, Bool.not_false]

theorem standing_of_none {line : Line} (ended : w.disposal? line.handle = none) :
    w.standing line = false := by
  simp only [standing, isDisposed, ended, Option.isNone_none, Bool.not_true]

/-- The book of an observer that nobody ever subscribed to. -/
theorem booked_nil (nobody : w.board.registered ob = [])
    (unused : ∀ s t, w.disposal? s ≠ some (.callback ob t)) : w.Booked ob [] where
  registered := nobody
  stands _ m := nomatch m
  only s t stands := (unused s t stands).elim
  handles := List.nodup_nil
  tokens := List.nodup_nil
  made _ m := nomatch m
  drawn _ m := nomatch m

theorem Booked.bypasses (h : w.Booked ob book) (by' : w.Bypasses ob w') : w'.Booked ob book := by
  have stands : ∀ line ∈ book, w'.disposal? line.handle = some (.callback ob line.token) ∨
      w'.disposal? line.handle = none := fun line m =>
    (h.stands line m).imp (by'.stands _ _).2 (by'.ended _ (h.made line m))
  refine ⟨by'.registered.trans (h.registered.trans ?_), stands,
    fun s t is => h.only s t ((by'.stands s t).1 is), h.handles, h.tokens,
    fun line m => Nat.lt_of_lt_of_le (h.made line m) by'.made,
    fun line m => Nat.lt_of_lt_of_le (h.drawn line m) by'.drawn⟩
  refine congrArg _ (List.filter_congr fun line m => ?_)
  obtain is | none := h.stands line m
  · rw [standing_of_some is, standing_of_some ((by'.stands _ _).2 is)]
  · rw [standing_of_none none, standing_of_none (by'.ended _ (h.made line m) none)]

/-! ### Subscribing -/

/-- A subscriber registers with an observer, and `s` is the subscription that stands for that. -/
structure Enlists (ob : Observer) (t : Token) (σ : Subscriber) (s : Ref .subscription)
    (w w' : World η) : Prop where
  registered : w'.board.registered ob = w.board.registered ob ++ [(t, σ)]
  stands : w'.disposal? s = some (.callback ob t)
  others : ∀ s', s' ≠ s → ∀ t',
    w'.disposal? s' = some (.callback ob t') ↔ w.disposal? s' = some (.callback ob t')
  ended : ∀ s', s'.index < w.subscriptions.size → w.disposal? s' = none → w'.disposal? s' = none
  fresh : w.nextToken ≤ t.index
  drawn : t.index < w'.nextToken
  new : w.subscriptions.size ≤ s.index
  made : s.index < w'.subscriptions.size

/-- **Subscribing** writes a line at the end of the book. -/
theorem Booked.joins (h : w.Booked ob book) (joins : Enlists ob t σ s w w') :
    w'.Booked ob (book ++ [⟨s, t, σ⟩]) := by
  have other : ∀ line ∈ book, line.handle ≠ s := fun line m is =>
    Nat.not_le.2 (h.made line m) (is ▸ joins.new)
  have stands : ∀ line ∈ book, w'.disposal? line.handle = some (.callback ob line.token) ∨
      w'.disposal? line.handle = none := fun line m =>
    (h.stands line m).imp (joins.others _ (other line m) _).2 (joins.ended _ (h.made line m))
  have older : book.filter w'.standing = book.filter w.standing :=
    List.filter_congr fun line m => by
      obtain is | none := h.stands line m
      · rw [standing_of_some is, standing_of_some ((joins.others _ (other line m) _).2 is)]
      · rw [standing_of_none none, standing_of_none (joins.ended _ (h.made line m) none)]
  have newest : w'.standing ⟨s, t, σ⟩ = true := standing_of_some joins.stands
  refine ⟨?_, fun line m => ?_, fun s' t' is => ?_, ?_, ?_, fun line m => ?_, fun line m => ?_⟩
  · rw [joins.registered, h.registered, List.filter_append, older, List.filter_singleton, newest,
      List.map_append]
    rfl
  · obtain m | m := List.mem_append.1 m
    · exact stands line m
    · cases List.mem_singleton.1 m
      exact .inl joins.stands
  · by_cases same : s' = s
    · exact ⟨_, List.mem_append_right _ (List.mem_singleton.2 rfl), same.symm⟩
    · obtain ⟨line, m, is⟩ := h.only s' t' ((joins.others s' same t').1 is)
      exact ⟨line, List.mem_append_left _ m, is⟩
  · rw [List.map_append, List.nodup_append]
    refine ⟨h.handles, List.nodup_singleton _, fun s₁ m₁ s₂ m₂ is => ?_⟩
    obtain ⟨line, m, rfl⟩ := List.mem_map.1 m₁
    exact other line m (is.trans (List.mem_singleton.1 m₂))
  · rw [List.map_append, List.nodup_append]
    refine ⟨h.tokens, List.nodup_singleton _, fun t₁ m₁ t₂ m₂ is => ?_⟩
    obtain ⟨line, m, rfl⟩ := List.mem_map.1 m₁
    have older := h.drawn line m
    rw [is, List.mem_singleton.1 m₂] at older
    exact Nat.not_le.2 older joins.fresh
  · obtain m | m := List.mem_append.1 m
    · exact Nat.lt_trans (h.made line m) (Nat.lt_of_le_of_lt joins.new joins.made)
    · cases List.mem_singleton.1 m
      exact joins.made
  · obtain m | m := List.mem_append.1 m
    · exact Nat.lt_trans (h.drawn line m) (Nat.lt_of_le_of_lt joins.fresh joins.drawn)
    · cases List.mem_singleton.1 m
      exact joins.drawn

/-! ### Disposing -/

theorem subscriptions_undo (w : World η) (d : Disposal) :
    (w.undo d).2.subscriptions = w.subscriptions :=
  undo_keeps (P := fun w' => w'.subscriptions = w.subscriptions)
    (fun w' t ob h => (undoCallback_leaves w' t ob).2.trans h) (fun _ _ _ h => h) w d rfl

theorem nextToken_undo (w : World η) (d : Disposal) : (w.undo d).2.nextToken = w.nextToken :=
  undo_keeps (P := fun w' => w'.nextToken = w.nextToken)
    (fun w' t ob h => (releases_undoCallback w' t ob).drawn.trans h) (fun _ _ _ h => h) w d rfl

/-- What an ended subscription stood for is taken back. -/
def strike (w : World η) (s : Ref .subscription) (d : Disposal) : World η :=
  ((w.modifySubscription s fun _ => ⟨none⟩).undo d).2

theorem disposal?_strike (w : World η) (s : Ref .subscription) (d : Disposal)
    (s' : Ref .subscription) :
    (w.strike s d).disposal? s' = if s' = s then none else w.disposal? s' := by
  have same : (w.strike s d).disposal? s' =
      (w.modifySubscription s fun _ => ⟨none⟩).disposal? s' := by
    simp only [strike, disposal?, subscriptions_undo]
  rw [same]
  exact congrFun (congrArg (·.disposal?) (board_endSubscription w s)) s'

theorem size_strike (w : World η) (s : Ref .subscription) (d : Disposal) :
    (w.strike s d).subscriptions.size = w.subscriptions.size := by
  rw [strike, subscriptions_undo]
  exact Array.size_modify ..

/-- Taking back a registration with another observer, or with an element. -/
theorem bypasses_strike {d : Disposal} (is : w.disposal? s = some d)
    (other : ∀ t, d ≠ .callback ob t) : w.Bypasses ob (w.strike s d) where
  registered := by
    have ended : (w.modifySubscription s fun _ => ⟨none⟩).board.registered ob =
        w.board.registered ob := by
      rw [board_endSubscription, Board.registered_without]
    refine Eq.trans ?_ ended
    cases d with
    | callback ob' t =>
      refine (registered_undoCallback _ t ob' ob).trans (if_neg ?_)
      rintro rfl
      exact other t rfl
    | events e tokens =>
      rw [World.strike, board_undoEvents]
  stands s' t := by
    rw [disposal?_strike]
    split
    next same =>
      rw [same, is]
      exact ⟨nofun, fun is => (other t (Option.some.inj is)).elim⟩
    · exact .rfl
  ended s' _ none := by
    rw [disposal?_strike, none, ite_self]
  drawn := Nat.le_of_eq (nextToken_undo (w.modifySubscription s fun _ => ⟨none⟩) d).symm
  made := Nat.le_of_eq (size_strike w s d).symm

/-- **A subscription that ends** strikes its line out. -/
theorem Booked.strike (h : w.Booked ob book) {d : Disposal} (is : w.disposal? s = some d) :
    (w.strike s d).Booked ob book := by
  by_cases own : ∃ t, d = .callback ob t
  swap
  · exact h.bypasses (bypasses_strike is fun t same => own ⟨t, same⟩)
  obtain ⟨t, rfl⟩ := own
  obtain ⟨line, m, rfl⟩ := h.only s t is
  have token : line.token = t := by
    obtain stands | none := h.stands line m
    · cases stands.symm.trans is
      rfl
    · cases none.symm.trans is
  subst token
  -- handles and tokens tell the lines of a book apart
  have struck : ∀ line' ∈ book, (w.strike line.handle (.callback ob line.token)).standing line' =
      (decide (line'.token ≠ line.token) && w.standing line') := fun line' m' => by
    by_cases same : line' = line
    · subst same
      rw [standing_of_none ((disposal?_strike ..).trans (if_pos rfl))]
      simp
    · have handle : line'.handle ≠ line.handle := fun is =>
        same (List.inj_on_of_nodup_map h.handles m' m is)
      have token : line'.token ≠ line.token := fun is =>
        same (List.inj_on_of_nodup_map h.tokens m' m is)
      simp only [standing, isDisposed, disposal?_strike, if_neg handle, decide_eq_true token,
        Bool.true_and]
  refine ⟨?_, fun line' m' => ?_, fun s t is' => ?_, h.handles, h.tokens, fun line' m' => ?_,
    fun line' m' => ?_⟩
  · have registered := registered_undoCallback (w.modifySubscription line.handle fun _ => ⟨none⟩)
      line.token ob ob
    rw [if_pos rfl, board_endSubscription, Board.registered_without, h.registered, List.filter_map,
      List.filter_filter] at registered
    refine registered.trans (congrArg _ (List.filter_congr fun line' m' => ?_))
    exact (struck line' m').symm
  · rw [disposal?_strike]
    split
    · exact .inr rfl
    · exact h.stands line' m'
  · rw [disposal?_strike] at is'
    split at is'
    · cases is'
    · exact h.only s t is'
  · exact size_strike w line.handle _ ▸ h.made line' m'
  · refine Nat.lt_of_lt_of_eq (h.drawn line' m') ?_
    exact (nextToken_undo (w.modifySubscription line.handle fun _ => ⟨none⟩) _).symm

/-- **Disposing** strikes lines out and does nothing else to the book. -/
theorem Booked.disposeWithin (h : w.Booked ob book) (depth : Nat) (s : Ref .subscription) :
    (World.disposeWithin depth s w).Booked ob book := by
  induction depth generalizing s w with
  | zero => exact h
  | succ depth ih =>
    unfold World.disposeWithin
    split
    · exact h
    next d is =>
      have struck := h.strike is
      unfold World.strike at struck
      dsimp only
      generalize ((w.modifySubscription s fun _ => ⟨none⟩).undo d).1 = more
      generalize ((w.modifySubscription s fun _ => ⟨none⟩).undo d).2 = w' at struck
      induction more generalizing w' with
      | nil => exact struck
      | cons s' rest each => exact each _ (ih struck s')

theorem Booked.dispose (h : w.Booked ob book) (s : Ref .subscription) :
    (w.dispose s).Booked ob book := h.disposeWithin _ s

end World

end ViewBinding
