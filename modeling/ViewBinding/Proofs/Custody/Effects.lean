import ViewBinding.Proofs.Custody.Owned

/-!
# Custody — what operations do to the board

Every operation on a world shows on the board as one of the changes that keep custody, or as several of
them: tokens are drawn, registrations come and go (`World.modifyCallbacks`), subscriptions are made.
`World.Guards σ w w'` says that custody of `σ` is kept, whatever is in transit.  Subscribing `τ` guards
`σ` as well, but where `τ` is `σ` the new subscription is in transit afterwards (`World.Enters`).
-/

namespace ViewBinding

/-- What a subscriber has to take care of when a subscriber registers: that, if it is itself. -/
def Subscriber.charge {α : Type} (σ τ : Subscriber) (x : α) (xs : List α) : List α :=
  if τ = σ then x :: xs else xs

/-- An observer that is no placeholder: who registers is not parked. -/
def Observer.IsPlain : Observer → Prop
  | .leaf (.placeholder _) => False
  | _ => True

namespace Subscriber

variable {α : Type} {σ τ : Subscriber} {x y : α} {xs : List α}

theorem mem_charge : y ∈ σ.charge τ x xs ↔ y ∈ xs ∨ y = x ∧ τ = σ := by
  unfold charge
  split
  next own => simp [own, or_comm]
  next other => simp [other]

@[simp] theorem charge_self : σ.charge σ x xs = x :: xs := if_pos rfl

/-- A keeper is none of those who keep nothing. -/
theorem IsKeeper.ne (keeper : σ.IsKeeper) (τ : Subscriber) (idle : ¬ τ.IsKeeper) : τ ≠ σ :=
  fun is => idle (is ▸ keeper)

theorem charge_of_ne (other : τ ≠ σ) : σ.charge τ x xs = xs := if_neg other

end Subscriber

namespace World

variable {η : Type} {w w' w'' : World η} {σ τ : Subscriber} {loose : List (Ref .subscription)}
  {pending : List (Observer × Token)} {ob : Observer} {t : Token} {s : Ref .subscription}

/-- Custody of `σ` is kept, whatever is in transit. -/
def Guards (σ : Subscriber) (w w' : World η) : Prop :=
  ∀ loose pending, w.board.Custody σ loose pending → w'.board.Custody σ loose pending

theorem Guards.refl (σ : Subscriber) (w : World η) : w.Guards σ w := fun _ _ A => A

theorem Guards.trans (h : Guards σ w w') (h' : Guards σ w' w'') : Guards σ w w'' :=
  fun loose pending A => h' loose pending (h loose pending A)

theorem Guards.of_draws (h : w.board.Draws w'.board) : Guards σ w w' := fun _ _ A => A.draws h

theorem Guards.of_eq (same : w'.board = w.board) : Guards σ w w' := .of_draws (.of_eq same)

/-! ### Drawing tokens -/

theorem draws_freshToken (w : World η) : w.board.Draws w.freshToken.2.board :=
  ⟨w.nextToken + 1, Nat.le_succ _, rfl⟩

theorem draws_listenRecords (w : World η) (o : Ref .object) (l : RecordListener) :
    w.board.Draws (w.listenRecords o l).2.board := draws_freshToken w

theorem draws_listenSplices (w : World η) (a : Ref .array) (l : SpliceListener) :
    w.board.Draws (w.listenSplices a l).2.board := draws_freshToken w

theorem draws_listenEvents (w : World η) (e : Ref .element) (event : String) (l : EventListener) :
    w.board.Draws (w.listenEvents e event l).2.board := draws_freshToken w

theorem draws_listenChildren (w : World η) (e : Ref .element) (l : ChildListener) :
    w.board.Draws (w.listenChildren e l).2.board := draws_freshToken w

theorem draws_startObserving (w : World η) (d : Ref .dispatcher) :
    w.board.Draws (w.startObserving d).board := by
  unfold startObserving
  split
  · exact .refl _
  · split
    · exact .refl _
    · exact (draws_listenRecords w _ _).trans (.of_eq (board_modifyDispatcher _ d _))

theorem draws_startListening (w : World η) (c : Ref .contents) :
    w.board.Draws (w.startListening c).board := by
  unfold startListening
  split
  · exact .refl _
  · split
    · exact .refl _
    · exact (draws_listenSplices w _ _).trans (.of_eq (board_modifyContents _ c fun _ => rfl))

theorem draws_bindSelect (w : World η) (r : Ref .select) :
    w.board.Draws (w.bindSelect r).board := by
  unfold bindSelect
  split
  · exact .refl _
  · split
    · exact .refl _
    · exact (draws_listenChildren w _ _).trans (.of_eq (board_modifySelect _ r fun _ => rfl))

/-- Listening to one event after the other. -/
theorem draws_listenEach (e : Ref .element) (l : EventListener) (events : List String) :
    ∀ (tokens : List Token) (w : World η), w.board.Draws (events.foldl (fun (tokens, w) event =>
      let (token, w) := w.listenEvents e event l
      (tokens ++ [token], w)) (tokens, w)).2.board := by
  induction events with
  | nil => exact fun _ w => .refl _
  | cons event rest ih => exact fun _ w => (draws_listenEvents w e event l).trans (ih _ _)

/-! ### Making subscriptions -/

theorem disposal?_newSubscription (w : World η) (d : Option Disposal) (s : Ref .subscription) :
    (w.newSubscription d).2.disposal? s =
      if s = w.subscriptions.next then d else w.disposal? s := by
  simp only [disposal?, newSubscription, Store.get?_alloc]
  split <;> rfl

theorem issues_newSubscription (w : World η) (d : Option Disposal) :
    w.board.Issues (w.newSubscription d).2.board (w.newSubscription d).1 d := by
  refine ⟨?_, ?_⟩
  · simp only [board, disposal?, newSubscription, Store.get?_next]
    rfl
  · exact congrArg (fun l => { w.board with disposal? := l })
      (funext (disposal?_newSubscription w d))

/-- Making a subscription that ends no registration of `σ`, or one that is taken care of. -/
theorem guards_newSubscription (w : World η) (d : Option Disposal) :
    Guards σ w (w.newSubscription d).2 := fun _ _ A =>
  A.issues (issues_newSubscription w d) (fun _ _ => .inl) fun _ => id

/-- **The subscription of a registration** is made. -/
theorem custody_callbackSubscription (A : w.board.Custody σ loose (σ.charge τ (ob, t) pending)) :
    (w.callbackSubscription ob t).2.board.Custody σ
      (σ.charge τ (w.callbackSubscription ob t).1 loose) pending := by
  refine A.issues (issues_newSubscription w _) (fun ob' t' transit => ?_)
    fun s kept => Subscriber.mem_charge.2 (.inl kept)
  obtain old | ⟨is, own⟩ := Subscriber.mem_charge.1 transit
  · exact .inl old
  · cases is
    exact .inr ⟨rfl, Subscriber.mem_charge.2 (.inr ⟨rfl, own⟩)⟩

theorem guards_handleEvents (w : World η) (e : Ref .element) (events : List String)
    (l : EventListener) : Guards σ w (w.handleEvents e events l).2 :=
  (Guards.of_draws (draws_listenEach e l events [] w)).trans (guards_newSubscription _ _)

/-! ### Registering -/

/-- Changes the callbacks of an observer that has some. -/
def modifyCallbacks (w : World η) (f : Listeners Subscriber → Listeners Subscriber) :
    Observer → World η
  | .leaf (.setter r) => w.modifySetter r fun c => { c with callbacks := f c.callbacks }
  | .leaf (.property r) => w.modifyProperty r fun c => { c with callbacks := f c.callbacks }
  | .leaf (.placeholder _) => w
  | .leaf (.element r) =>
    w.modifyElementProperty r fun c => { c with callbacks := f c.callbacks }
  | .leaf (.select r) => w.modifySelect r fun c => { c with callbacks := f c.callbacks }
  | .leaf (.contents r) => w.modifyContents r fun c => { c with callbacks := f c.callbacks }
  | .leaf (.poll r) => w.modifyPoll r fun c => { c with callbacks := f c.callbacks }
  | .path r => w.modifyPath r fun c => { c with callbacks := f c.callbacks }
  | .composite r => w.modifyComposite r fun c => { c with callbacks := f c.callbacks }

theorem agrees_modifyCallbacks (w : World η) (f : Listeners Subscriber → Listeners Subscriber)
    (ob : Observer) : w.board.Agrees (w.modifyCallbacks f ob).board := by
  cases ob with
  | leaf l => cases l <;> exact ⟨rfl, rfl, rfl, rfl, Nat.le_refl _⟩
  | path p => exact ⟨rfl, rfl, rfl, rfl, Nat.le_refl _⟩
  | composite c =>
    refine ⟨rfl, rfl, funext fun σ => ?_, rfl, Nat.le_refl _⟩
    cases σ with
    | part c' => exact congrFun (w.composites.listAt_modify c (by exact fun _ => rfl)) c'
    | _ => rfl

/-- Other observers have the registrations that they had. -/
theorem registered_modifyCallbacks_of_ne {ob' : Observer} (other : ob' ≠ ob)
    (f : Listeners Subscriber → Listeners Subscriber) :
    (w.modifyCallbacks f ob).board.registered ob' = w.board.registered ob' := by
  rcases ob with (r | r | r | r | r | r | r) | r | r <;>
    rcases ob' with (r' | r' | r' | r' | r' | r' | r') | r' | r' <;>
    first
    | rfl
    | exact Store.listAt_modify_of_ne _ _ _ fun same => other (same ▸ rfl)

/-- The registrations with an observer whose callbacks are changed; if it is gone there are none. -/
theorem mem_registered_modifyCallbacks_self {f : Listeners Subscriber → Listeners Subscriber}
    {p : Token × Subscriber} (plain : ob.IsPlain)
    (m : p ∈ (w.modifyCallbacks f ob).board.registered ob) :
    p ∈ (f ⟨w.board.registered ob⟩).entries := by
  rcases ob with (r | r | r | r | r | r | r) | r | r <;>
    first
    | exact plain.elim
    | exact Store.mem_listAt_modify (fun l => (f ⟨l⟩).entries) (by exact fun _ => rfl) m

/-- What is registered after a change of the callbacks of an observer. -/
theorem mem_registered_modifyCallbacks {f : Listeners Subscriber → Listeners Subscriber}
    {ob' : Observer} {p : Token × Subscriber} (plain : ob.IsPlain)
    (m : p ∈ (w.modifyCallbacks f ob).board.registered ob') :
    ob' ≠ ob ∧ p ∈ w.board.registered ob' ∨
      ob' = ob ∧ p ∈ (f ⟨w.board.registered ob⟩).entries := by
  by_cases same : ob' = ob
  · subst same
    exact .inr ⟨rfl, mem_registered_modifyCallbacks_self plain m⟩
  · exact .inl ⟨same, registered_modifyCallbacks_of_ne same f ▸ m⟩

/-- **A subscriber registers** with an observer. -/
theorem custody_add (A : w.board.Custody σ loose pending) (ob : Observer) (plain : ob.IsPlain) (t : Token)
    (τ : Subscriber) :
    (w.modifyCallbacks (·.add t τ) ob).board.Custody σ loose (σ.charge τ (ob, t) pending) := by
  refine A.registers (agrees_modifyCallbacks w _ ob) fun ob' t' m => ?_
  obtain ⟨-, m⟩ | ⟨rfl, m⟩ := mem_registered_modifyCallbacks plain m
  · exact .inr ⟨m, fun transit => Subscriber.mem_charge.2 (.inl transit)⟩
  · obtain m | m := List.mem_append.1 m
    · exact .inr ⟨m, fun transit => Subscriber.mem_charge.2 (.inl transit)⟩
    · cases List.mem_singleton.1 m
      exact .inl (Subscriber.mem_charge.2 (.inr ⟨rfl, rfl⟩))

/-- **A registration is taken back** whose subscription has not been made. -/
theorem custody_remove (A : w.board.Custody σ loose (σ.charge τ (ob, t) pending))
    (plain : ob.IsPlain) :
    (w.modifyCallbacks (·.remove t) ob).board.Custody σ loose pending := by
  refine A.registers (agrees_modifyCallbacks w _ ob) fun ob' t' m => .inr ?_
  obtain ⟨other, m⟩ | ⟨rfl, m⟩ := mem_registered_modifyCallbacks plain m
  · refine ⟨m, fun transit => (Subscriber.mem_charge.1 transit).resolve_right ?_⟩
    rintro ⟨same, -⟩
    cases same
    exact other rfl
  · obtain ⟨m, kept⟩ := List.mem_filter.1 m
    refine ⟨m, fun transit => (Subscriber.mem_charge.1 transit).resolve_right ?_⟩
    rintro ⟨same, -⟩
    cases same
    exact of_decide_eq_true kept rfl

/-! ### Subscribing to leaves -/

/-- Subscribing `τ` guards `σ`, and if `τ` is `σ` the new subscription is in transit. -/
def Enters (σ τ : Subscriber) (w : World η) (made : Ref .subscription × World η) : Prop :=
  ∀ loose pending, w.board.Custody σ loose pending →
    made.2.board.Custody σ (σ.charge τ made.1 loose) pending

theorem Enters.after {made : Ref .subscription × World η} (e : Enters σ τ w' made)
    (h : Guards σ w w') : Enters σ τ w made :=
  fun loose pending A => e loose pending (h loose pending A)

/-- A subscriber registers with an observer, which then starts to watch. -/
theorem enters_add (ob : Observer) (plain : ob.IsPlain) (w : World η) (τ : Subscriber)
    (watch : World η → World η) (calm : ∀ w, Guards σ w (watch w)) :
    Enters σ τ w ((watch (w.freshToken.2.modifyCallbacks (·.add w.freshToken.1 τ) ob))
      |>.callbackSubscription ob w.freshToken.1) := fun _ _ A =>
  custody_callbackSubscription
    (calm _ _ _ (custody_add (A.draws (draws_freshToken w)) ob plain w.freshToken.1 τ))

end World

end ViewBinding
