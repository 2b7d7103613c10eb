import ViewBinding.Proofs.Newest.Book

/-!
# Newest — subscribing writes a line

Every observer registers its subscribers at the end of its list, whatever else it does when it is
subscribed to: it installs a trap, listens to records, events or splices, or starts to poll
(`enlists_subscribeSetter`, …).  A path and a composite register the subscriber before they follow what
they watch, and make its subscription afterwards (`Run.enlists_subscribePath`,
`Run.enlists_subscribeComposite`).
-/

namespace ViewBinding

namespace World

variable {η : Type} {w w₁ w₂ w' : World η} {ob : Observer} {σ : Subscriber}
  {s : Ref .subscription} {t : Token}

/-- The observer is there. -/
def Has (w : World η) : Observer → Prop
  | .leaf (.setter r) => w.setters.contains r
  | .leaf (.property r) => w.properties.contains r
  | .leaf (.placeholder r) => w.placeholders.contains r
  | .leaf (.element r) => w.elementProperties.contains r
  | .leaf (.select r) => w.selects.contains r
  | .leaf (.contents r) => w.contents.contains r
  | .leaf (.poll r) => w.polls.contains r
  | .path r => w.paths.contains r
  | .composite r => w.composites.contains r

/-- Registers a subscriber with an observer under a new token, and does nothing else. -/
def inscribe (w : World η) (σ : Subscriber) : Observer → World η
  | .leaf (.placeholder u) => w.freshToken.2.lodge u w.freshToken.1 σ
  | ob => w.freshToken.2.modifyCallbacks (·.add w.freshToken.1 σ) ob

theorem registered_inscribe (there : w.Has ob) (σ : Subscriber) :
    (w.inscribe σ ob).board.registered ob = w.board.registered ob ++ [(w.freshToken.1, σ)] := by
  rcases ob with (r | r | u | r | r | r | r) | r | r
  case leaf.placeholder =>
    have parked : (w.inscribe σ (.leaf (.placeholder u))).board.parked u =
        w.board.parked u ++ [⟨w.freshToken.1, σ, none⟩] :=
      Store.listAt_modify_append there (by exact fun _ => rfl)
    simp only [Board.registered, parked, List.map_append, List.map_cons, List.map_nil]
  all_goals exact Store.listAt_modify_append there (by exact fun _ => rfl)

theorem subscriptions_inscribe (w : World η) (σ : Subscriber) (ob : Observer) :
    (w.inscribe σ ob).subscriptions = w.subscriptions := by
  rcases ob with (r | r | u | r | r | r | r) | r | r <;> rfl

theorem nextToken_inscribe (w : World η) (σ : Subscriber) (ob : Observer) :
    (w.inscribe σ ob).nextToken = w.nextToken + 1 := by
  rcases ob with (r | r | u | r | r | r | r) | r | r <;> rfl

/-- **A subscriber is registered**, what follows does not concern the observer, and the subscription is
made. -/
theorem enlists_callbackSubscription (there : w.Has ob) (after : (w.inscribe σ ob).Bypasses ob w₂) :
    Enlists ob w.freshToken.1 σ (w₂.callbackSubscription ob w.freshToken.1).1 w
      (w₂.callbackSubscription ob w.freshToken.1).2 := by
  have subscriptions := subscriptions_inscribe w σ ob
  have disposal : ∀ s, (w.inscribe σ ob).disposal? s = w.disposal? s := fun s => by
    rw [disposal?, disposal?, subscriptions]
  have size : w.subscriptions.size ≤ w₂.subscriptions.size := subscriptions ▸ after.made
  have made := disposal?_newSubscription w₂ (some (.callback ob w.freshToken.1))
  refine ⟨?_, ?_, fun s' other t' => ?_, fun s' old none => ?_, Nat.le_refl _, ?_, size, ?_⟩
  · have issued : (w₂.callbackSubscription ob w.freshToken.1).2.board.registered ob =
        w₂.board.registered ob := by
      rw [callbackSubscription, (issues_newSubscription w₂ _).2]
      rcases ob with l | p | c
      · cases l <;> rfl
      · rfl
      · rfl
    rw [issued, after.registered, registered_inscribe there]
  · exact (made _).trans (if_pos rfl)
  · exact ((made s').trans (if_neg other)) ▸ (after.stands s' t').trans (disposal s' ▸ .rfl)
  · have other : s' ≠ w₂.subscriptions.next := fun is =>
      Nat.not_le.2 old (is ▸ size)
    refine ((made s').trans (if_neg other)).trans (after.ended s' (subscriptions ▸ old) ?_)
    exact (disposal s').trans none
  · have later := after.drawn
    rw [nextToken_inscribe] at later
    exact later
  · simp [callbackSubscription, newSubscription, Store.size, Store.alloc, Store.next]

theorem Bypasses.enlists (h : w.Bypasses ob w₁) (joins : Enlists ob t σ s w₁ w₂) :
    Enlists ob t σ s w w₂ where
  registered := joins.registered.trans (congrArg (· ++ _) h.registered)
  stands := joins.stands
  others s' other t' := (joins.others s' other t').trans (h.stands s' t')
  ended s' old none := joins.ended s' (Nat.lt_of_lt_of_le old h.made) (h.ended s' old none)
  fresh := Nat.le_trans h.drawn joins.fresh
  drawn := joins.drawn
  new := Nat.le_trans h.made joins.new
  made := joins.made

/-! ### Leaves -/

theorem subscriptions_startObserving (w : World η) (d : Ref .dispatcher) :
    (w.startObserving d).subscriptions = w.subscriptions := by
  unfold startObserving
  split
  · rfl
  · split <;> rfl

theorem bypasses_startObserving (w : World η) (d : Ref .dispatcher) :
    w.Bypasses ob (w.startObserving d) :=
  .of_draws (draws_startObserving w d) (subscriptions_startObserving w d)

theorem bypasses_installTrap (w : World η) (r : Ref .setter) : w.Bypasses ob (w.installTrap r) := by
  refine .of_board (board_installTrap w r) ?_
  unfold installTrap
  split
  · rfl
  · split
    · dsimp only [defineSlot]
      split <;> rfl
    · rfl

theorem bypasses_startListening (w : World η) (c : Ref .contents) :
    w.Bypasses ob (w.startListening c) := by
  refine .of_draws (draws_startListening w c) ?_
  unfold startListening
  split
  · rfl
  · split <;> rfl

theorem bypasses_track (w : World η) (r : Ref .poll) : w.Bypasses ob (w.track r) := by
  refine .of_board (board_track w r) ?_
  unfold track schedulePolling
  split <;> rfl

/-- A subscription that stands for no registration with an observer. -/
theorem bypasses_newSubscription (w : World η) {d : Option Disposal}
    (other : ∀ t, d ≠ some (.callback ob t)) : w.Bypasses ob (w.newSubscription d).2 := by
  have issues := issues_newSubscription w d
  have size : (w.newSubscription d).2.subscriptions.size = w.subscriptions.size + 1 := by
    simp [newSubscription, Store.size, Store.alloc]
  refine ⟨?_, fun s t => ?_, fun s old none => ?_, Nat.le_refl _, size ▸ Nat.le_succ _⟩
  · rw [issues.2]
    rcases ob with l | p | c
    · cases l <;> rfl
    · rfl
    · rfl
  · rw [disposal?_newSubscription]
    split
    next same =>
      have fresh : w.disposal? s = none := same ▸ issues.1
      rw [fresh]
      exact iff_of_false (other t) (Option.some_ne_none _).symm
    · exact .rfl
  · rw [disposal?_newSubscription, if_neg, none]
    exact fun is => Nat.lt_irrefl _ (is ▸ old : w.subscriptions.next.index < w.subscriptions.size)

/-- Listening to events of an element, one after the other, makes no subscription. -/
theorem leaves_listenEach (e : Ref .element) (l : EventListener) (events : List String) :
    ∀ (tokens : List Token) (w : World η), let w' := (events.foldl (fun (tokens, w) event =>
        let (token, w) := w.listenEvents e event l
        (tokens ++ [token], w)) (tokens, w)).2
      w'.subscriptions = w.subscriptions ∧ w'.elementProperties = w.elementProperties ∧
        w'.selects = w.selects := by
  induction events with
  | nil => exact fun _ _ => ⟨rfl, rfl, rfl⟩
  | cons event rest ih => exact fun _ w => ih _ (w.listenEvents e event l).2

theorem bypasses_handleEvents (w : World η) (e : Ref .element) (events : List String)
    (l : EventListener) : w.Bypasses ob (w.handleEvents e events l).2 :=
  (Bypasses.of_draws (draws_listenEach e l events [] w) (leaves_listenEach e l events [] w).1).trans
    (bypasses_newSubscription _ nofun)

theorem enlists_subscribeSetter {r : Ref .setter} (there : w.Has (.leaf (.setter r)))
    (σ : Subscriber) : ∃ t, Enlists (.leaf (.setter r)) t σ (w.subscribeSetter r σ).1 w
      (w.subscribeSetter r σ).2 := by
  refine ⟨_, enlists_callbackSubscription there ?_⟩
  split
  · split
    · exact .refl _ _
    · exact bypasses_installTrap _ r
  · exact .refl _ _

theorem enlists_subscribeProperty {p : Ref .property} (there : w.Has (.leaf (.property p)))
    (σ : Subscriber) : ∃ t, Enlists (.leaf (.property p)) t σ (w.subscribeProperty p σ).1 w
      (w.subscribeProperty p σ).2 := by
  refine ⟨_, enlists_callbackSubscription there ?_⟩
  split
  · exact bypasses_startObserving _ _
  · exact .refl _ _

/-- The observer of an element property listens to the element, unless it does or cannot. -/
def listenElement (w : World η) (r : Ref .elementProperty) : World η :=
  match w.elementProperties.get? r with
  | some cell =>
    if cell.handler.isSome || !w.elements.contains cell.element then w
    else
      let (s, w) := w.handleEvents cell.element w.config.observedEvents (.property r)
      w.modifyElementProperty r fun cell => { cell with handler := some s }
  | none => w

/-- The observer of a select listens to the element, unless it does or cannot. -/
def listenSelect (w : World η) (r : Ref .select) : World η :=
  match w.selects.get? r with
  | some cell =>
    if cell.handler.isSome || !w.elements.contains cell.element then w
    else
      let (s, w) := w.handleEvents cell.element ["change"] (.select r)
      w.modifySelect r fun cell => { cell with handler := some s }
  | none => w

theorem bypasses_listenElement (w : World η) (r : Ref .elementProperty) :
    w.Bypasses ob (w.listenElement r) := by
  unfold listenElement
  split
  · split
    · exact .refl _ _
    · exact (bypasses_handleEvents w _ _ _).trans
        (.of_board (board_modifyElementProperty _ r fun _ => rfl) rfl)
  · exact .refl _ _

theorem bypasses_listenSelect (w : World η) (r : Ref .select) :
    w.Bypasses ob (w.listenSelect r) := by
  unfold listenSelect
  split
  next cell _ =>
    split
    · exact .refl _ _
    · exact (bypasses_handleEvents w cell.element ["change"] (.select r)).trans
        (.of_board (by exact board_modifySelect _ r fun _ => rfl) rfl)
  · exact .refl _ _

theorem has_listenElement {r : Ref .elementProperty} (there : w.Has (.leaf (.element r))) :
    (w.listenElement r).Has (.leaf (.element r)) := by
  unfold listenElement
  split
  next cell _ =>
    split
    · exact there
    · refine (Store.contains_modify ..).trans ?_
      have same := (leaves_listenEach cell.element (.property r) w.config.observedEvents [] w).2.1
      exact (congrArg (Store.contains · r) same).trans there
  · exact there

theorem has_listenSelect {r : Ref .select} (there : w.Has (.leaf (.select r))) :
    (w.listenSelect r).Has (.leaf (.select r)) := by
  unfold listenSelect
  split
  next cell _ =>
    split
    · exact there
    · refine (Store.contains_modify ..).trans ?_
      have same := (leaves_listenEach cell.element (.select r) ["change"] [] w).2.2
      exact (congrArg (Store.contains · r) same).trans there
  · exact there

theorem enlists_subscribeElement {r : Ref .elementProperty} (there : w.Has (.leaf (.element r)))
    (σ : Subscriber) : ∃ t, Enlists (.leaf (.element r)) t σ (w.subscribeElement r σ).1 w
      (w.subscribeElement r σ).2 :=
  ⟨_, (bypasses_listenElement w r).enlists
    (enlists_callbackSubscription (has_listenElement there) (.refl _ _))⟩

theorem enlists_subscribeSelect {r : Ref .select} (there : w.Has (.leaf (.select r)))
    (σ : Subscriber) : ∃ t, Enlists (.leaf (.select r)) t σ (w.subscribeSelect r σ).1 w
      (w.subscribeSelect r σ).2 :=
  ⟨_, (bypasses_listenSelect w r).enlists
    (enlists_callbackSubscription (has_listenSelect there) (.refl _ _))⟩

theorem enlists_subscribeContents {c : Ref .contents} (there : w.Has (.leaf (.contents c)))
    (σ : Subscriber) : ∃ t, Enlists (.leaf (.contents c)) t σ (w.subscribeContents c σ).1 w
      (w.subscribeContents c σ).2 :=
  ⟨_, enlists_callbackSubscription there (bypasses_startListening _ c)⟩

theorem enlists_subscribePoll {r : Ref .poll} (there : w.Has (.leaf (.poll r)))
    (σ : Subscriber) : ∃ t, Enlists (.leaf (.poll r)) t σ (w.subscribePoll r σ).1 w
      (w.subscribePoll r σ).2 := by
  refine ⟨_, enlists_callbackSubscription there ?_⟩
  split
  · refine Bypasses.trans ?_ (bypasses_track _ r)
    exact .of_board (board_modifyPoll _ r fun _ => rfl) rfl
  · exact .refl _ _

/-! ### Placeholders -/

/-- A placeholder whose property is not there yet, or will never be seen to be there. -/
def Waits (w : World η) (u : Ref .placeholder) : Prop :=
  ∃ cell, w.placeholders.get? u = some cell ∧ cell.actual = none ∧
    (w.dispatchers.contains cell.dispatcher && w.has cell.object cell.property) = false

/-- A subscriber who comes now stays with the observer itself: a placeholder that has found the
property sends its subscribers on. -/
def Receives (w : World η) : Observer → Prop
  | .leaf (.placeholder u) => w.Waits u
  | ob => w.Has ob

theorem Receives.has (h : w.Receives ob) : w.Has ob := by
  rcases ob with (r | r | u | r | r | r | r) | r | r
  case leaf.placeholder =>
    obtain ⟨cell, get, -⟩ := h
    exact Option.isSome_iff_exists.2 ⟨cell, get⟩
  all_goals exact h

theorem Waits.resolvePlaceholder {u : Ref .placeholder} (h : w.Waits u) :
    w.resolvePlaceholder u = w := by
  obtain ⟨cell, get, unsettled, absent⟩ := h
  have stays : (cell.actual.isSome || !w.dispatchers.contains cell.dispatcher ||
      !w.has cell.object cell.property) = true := by
    rw [unsettled, Option.isSome_none, Bool.false_or, ← Bool.not_and, absent, Bool.not_false]
  unfold World.resolvePlaceholder
  rw [get]
  exact if_pos stays

/-- Parking a subscriber at a placeholder. -/
theorem enlists_park {u : Ref .placeholder} (there : w.Has (.leaf (.placeholder u)))
    (σ : Subscriber) : ∃ t, Enlists (.leaf (.placeholder u)) t σ (w.park u σ).1 w (w.park u σ).2 := by
  unfold park
  split
  next cell _ =>
    have same := placeholders_startObserving w cell.dispatcher
    have still : (w.startObserving cell.dispatcher).Has (.leaf (.placeholder u)) :=
      (congrArg (Store.contains · u) same).trans there
    exact ⟨_, (bypasses_startObserving w cell.dispatcher).enlists
      (enlists_callbackSubscription still (.refl _ _))⟩
  · exact ⟨_, enlists_callbackSubscription there (.refl _ _)⟩

theorem enlists_subscribePlaceholder {u : Ref .placeholder} (waits : w.Waits u) (σ : Subscriber) :
    ∃ t, Enlists (.leaf (.placeholder u)) t σ (w.subscribePlaceholder u σ).1 w
      (w.subscribePlaceholder u σ).2 := by
  have receives : w.Receives (.leaf (.placeholder u)) := waits
  have there := receives.has
  obtain ⟨cell, get, unsettled, -⟩ := id waits
  rw [subscribePlaceholder_eq, waits.resolvePlaceholder]
  simp only [successor?, get, Option.bind_some, unsettled]
  exact enlists_park there σ

end World

namespace Run

variable {η : Type} {w w' : World η} {env : Env η} {ob : Observer} {σ : Subscriber}
  {s : Ref .subscription}

/-! ### Observers that follow others -/

/-- What an observer does for a subscriber between registering it and making its subscription: a path
and a composite follow what they watch. -/
def start (env : Env η) : Observer → Run η Unit
  | .leaf _ => pure ()
  | .path p => activate env p
  | .composite c => do
    if (← read fun w => w.followerCount c) = 1 then reconnect env c true else pure ()

theorem enlists_subscribeLeaf {leaf : Leaf} (receives : w.Receives (.leaf leaf))
    (ran : subscribeLeaf leaf σ w = (.ok s, w')) :
    ∃ t, World.Enlists (.leaf leaf) t σ s w w' := by
  cases leaf with
  | setter r =>
    cases ran
    exact World.enlists_subscribeSetter receives σ
  | property r =>
    cases ran
    exact World.enlists_subscribeProperty receives σ
  | placeholder u =>
    cases ran
    exact World.enlists_subscribePlaceholder receives σ
  | element r =>
    obtain ⟨cell, get⟩ := Option.isSome_iff_exists.1 receives
    simp only [subscribeLeaf, bind_read, get] at ran
    split at ran
    · cases ran
      exact World.enlists_subscribeElement receives σ
    · cases ran
  | select r =>
    cases ran
    exact World.enlists_subscribeSelect receives σ
  | contents c =>
    cases ran
    exact World.enlists_subscribeContents receives σ
  | poll r =>
    cases ran
    exact World.enlists_subscribePoll receives σ

/-- A path or a composite whose subscription was made got to the end of following what it watches. -/
theorem enlists_of_start (receives : w.Receives ob)
    (calm : ∀ w₂, start env ob (w.inscribe σ ob) = (.ok (), w₂) → (w.inscribe σ ob).Bypasses ob w₂)
    (ran : ∃ w₂, start env ob (w.inscribe σ ob) = (.ok (), w₂) ∧
      (s, w') = w₂.callbackSubscription ob w.freshToken.1) :
    ∃ t, World.Enlists ob t σ s w w' := by
  obtain ⟨w₂, started, made⟩ := ran
  obtain ⟨rfl, rfl⟩ := Prod.mk.inj made
  exact ⟨_, World.enlists_callbackSubscription receives.has (calm w₂ started)⟩

theorem attempt_eq_ok {α : Type} {x : Run η α} {r : Except BindingError α} {w' : World η}
    (ran : x.attempt w = (.ok r, w')) :
    (∃ a, r = .ok a ∧ x w = (.ok a, w')) ∨ ∃ cause, r = .error cause ∧ x w = (.error cause, w') := by
  unfold attempt at ran
  split at ran <;> cases ran
  next a ran => exact .inl ⟨a, rfl, ran⟩
  next cause ran => exact .inr ⟨cause, rfl, ran⟩

theorem start_of_subscribePath {p : Ref .path} (ran : subscribePath env p σ w = (.ok s, w')) :
    ∃ w₂, start env (.path p) (w.inscribe σ (.path p)) = (.ok (), w₂) ∧
      (s, w') = w₂.callbackSubscription (.path p) w.freshToken.1 := by
  change (attempt (activate env p) >>= _) (w.inscribe σ (.path p)) = _ at ran
  obtain ⟨r, w₂, started, ran⟩ := bind_eq_ok.1 ran
  obtain ⟨⟨⟩, rfl, followed⟩ | ⟨cause, rfl, -⟩ := attempt_eq_ok started
  · cases ran
    exact ⟨w₂, followed, rfl⟩
  · cases ran

theorem start_of_subscribeComposite {c : Ref .composite}
    (ran : subscribeComposite env c σ w = (.ok s, w')) :
    ∃ w₂, start env (.composite c) (w.inscribe σ (.composite c)) = (.ok (), w₂) ∧
      (s, w') = w₂.callbackSubscription (.composite c) w.freshToken.1 := by
  let w₁ := w.inscribe σ (.composite c)
  have first : start env (.composite c) w₁ =
      (if w₁.followerCount c = 1 then reconnect env c true else pure ()) w₁ := rfl
  rw [first]
  change (if w₁.followerCount c = 1 then _ else _ : Run η _) w₁ = _ at ran
  split at ran
  next alone =>
    rw [if_pos alone]
    obtain ⟨r, w₂, started, ran⟩ := bind_eq_ok.1 ran
    obtain ⟨⟨⟩, rfl, followed⟩ | ⟨cause, rfl, -⟩ := attempt_eq_ok started
    · cases ran
      exact ⟨w₂, followed, rfl⟩
    · obtain ⟨_, _, _, ran⟩ := bind_eq_ok.1 ran
      obtain ⟨_, _, _, ran⟩ := bind_eq_ok.1 ran
      cases ran
  next others =>
    rw [if_neg others]
    cases ran
    exact ⟨w₁, rfl, rfl⟩

/-- **Subscribing** to an observer registers the subscriber behind all others. -/
theorem enlists_subscribe (receives : w.Receives ob)
    (calm : ∀ w₂, start env ob (w.inscribe σ ob) = (.ok (), w₂) → (w.inscribe σ ob).Bypasses ob w₂)
    (ran : subscribe env ob σ w = (.ok s, w')) : ∃ t, World.Enlists ob t σ s w w' := by
  cases ob with
  | leaf l => exact enlists_subscribeLeaf receives ran
  | path p => exact enlists_of_start receives calm (start_of_subscribePath ran)
  | composite c => exact enlists_of_start receives calm (start_of_subscribeComposite ran)

end Run

end ViewBinding
