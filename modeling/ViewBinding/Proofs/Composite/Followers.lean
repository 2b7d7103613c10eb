import ViewBinding.Proofs.Composite.Passes

/-!
# Composite — those who follow it, and being told

The first follower makes a composite subscribe to its parts, in one pass
(`honest_subscribeComposite`).  When the last one goes, the parts let go of everything, and what they
kept is disposed (`Accounted.leave`).

Only parts are told about properties, and only the host is told about composites.  A composite whose
part changed evaluates its expression, tells its followers and makes a pass over its parts, again and
again while changes are reported meanwhile; each of these keeps the account (`honest_partChanged`).
So whatever is delivered, flushed or polled keeps it (`honest_deliver`, `honest_flush`,
`honest_poll`).
-/

namespace ViewBinding

namespace World

variable {η : Type} {w : World η} {P : Ref .object → String → Prop} {c : Ref .composite}
  {s : Ref .subscription} {cell : CompositeCell} {loose : List (Ref .subscription)}

/-- **Other followers**, of whom there are none only if there were none. -/
theorem Accounted.followers {f : CompositeCell → CompositeCell} (A : w.Accounted P loose)
    (same : ∀ cell, ((f cell).scope, (f cell).parts) = (cell.scope, cell.parts))
    (hooks : ∀ p, p ∈ (w.modifyComposite c f).followersOf c →
      p ∈ w.followersOf c ∨ ∃ h, p.2 = .hook h)
    (idle : (w.modifyComposite c f).followersOf c = [] → w.followersOf c = []) :
    (w.modifyComposite c f).Accounted P loose := by
  have part : ∀ c' i, (w.modifyComposite c f).part? c' i = w.part? c' i := fun c' i => by
    rw [part?_modifyComposite]
    split
    next here =>
      rw [here, World.part?]
      cases w.composites.get? c with
      | none => rfl
      | some cell => exact congrArg (·[i]?) (Prod.mk.inj (same cell)).2
    · rfl
  have follows : ∀ c', c' ≠ c → (w.modifyComposite c f).followersOf c' = w.followersOf c' :=
    fun c' other => by rw [followersOf, modifyComposite, Store.get?_modify_of_ne f other]; rfl
  have rearranges : w.Rearranges (w.modifyComposite c f) [] :=
    { directVoice? := fun _ => rfl
      audience := fun l => by cases l <;> rfl
      place? := fun l => by cases l <;> exact id
      collectors := fun _ => rfl
      nextToken := Nat.le_refl _
      followers := fun c' p m => by
        by_cases here : c' = c
        · exact here ▸ hooks p (here ▸ m)
        · exact .inl (follows c' here ▸ m)
      fits := fun c' i part' info is some => .inl ⟨part', part c' i ▸ is, some⟩
      watches := fun c' i part' l is watches => ⟨part', (part c' i).trans is, watches⟩
      retains := fun c' i s => by simp [Retains, part]
      lost := fun s m => absurd m List.not_mem_nil
      apart := List.nodup_nil
      idle := fun c' alone => by
        by_cases here : c' = c
        · exact .inl (here ▸ idle (here ▸ alone))
        · exact .inl (follows c' here ▸ alone) }
  refine ⟨A.furnished.settings ⟨rfl, rfl, fun _ => rfl, fun l => by cases l <;> exact id,
    fun _ _ _ => id⟩, fun c' i part' scope is unconnected at' => ?_, A.accounts.rearranges rearranges⟩
  rw [scopeOf?_modifyComposite w c c' fun cell => (Prod.mk.inj (same cell)).1] at at'
  exact A.plain c' i part' scope (part c' i ▸ is) unconnected at'

/-- What the parts of a composite keep. -/
theorem mem_filterMap_subscription (get : w.composites.get? c = some cell) {s : Ref .subscription} :
    s ∈ cell.parts.toList.filterMap (·.subscription) ↔ ∃ i, w.Retains c i s := by
  simp only [List.mem_filterMap, Array.mem_toList_iff, Array.mem_iff_getElem?, Retains, World.part?,
    get, Option.bind_eq_bind, Option.bind_some]
  constructor
  · rintro ⟨part, ⟨i, is⟩, keeps⟩
    exact ⟨i, part, is, keeps⟩
  · rintro ⟨i, part, is, keeps⟩
    exact ⟨part, ⟨i, is⟩, keeps⟩

theorem nodup_filterMap_subscription (A : w.Accounts loose) (get : w.composites.get? c = some cell) :
    (cell.parts.toList.filterMap (·.subscription)).Nodup := by
  refine List.pairwise_filterMap.2 (List.pairwise_iff_getElem.2
    fun i j hi hj lt s is s' is' same => ?_)
  have keeps : ∀ {k : Nat} {s} (hk : k < cell.parts.toList.length),
      cell.parts.toList[k].subscription = some s → w.Retains c k s := fun {k s} hk is =>
    ⟨cell.parts.toList[k], by simp [World.part?, get], is⟩
  have := (A.once c c i j s (keeps hi is) (same ▸ keeps hj is')).2
  omega

/-- **The last follower goes**: all that the parts keep becomes loose. -/
theorem Accounted.empties {callbacks : Listeners Subscriber} (A : w.Accounted P [])
    (get : w.composites.get? c = some cell) (empty : callbacks.entries = []) :
    (w.modifyComposite c fun cell => { cell with
      callbacks, parts := cell.parts.map fun part =>
        { part with subscription := none } }).Accounted P
      (cell.parts.toList.filterMap (·.subscription)) := by
  generalize made : (w.modifyComposite c fun cell => { cell with
    callbacks, parts := cell.parts.map fun part => { part with subscription := none } }) = w'
  have part : ∀ c' i, w'.part? c' i = if c' = c then
      (w.part? c i).map fun part => { part with subscription := none } else w.part? c' i :=
    fun c' i => by
      rw [← made, part?_modifyComposite]
      simp only [World.part?, get, Option.bind_eq_bind, Option.bind_some, Array.getElem?_map]
  have follows : ∀ c', w'.followersOf c' = if c' = c then [] else w.followersOf c' := fun c' => by
    simp only [← made, followersOf, modifyComposite, Store.get?_modify]
    split
    · rw [get]
      exact empty
    · rfl
  have mine := fun s => mem_filterMap_subscription (s := s) get
  have retains : ∀ c' i s, w'.Retains c' i s ↔ c' ≠ c ∧ w.Retains c' i s := fun c' i s => by
    simp only [Retains, part]
    split
    next here =>
      refine ⟨?_, fun keeps => absurd here keeps.1⟩
      rintro ⟨part', is, keeps⟩
      obtain ⟨part₀, -, rfl⟩ := Option.map_eq_some_iff.1 is
      cases keeps
    next other => exact ⟨fun keeps => ⟨other, keeps⟩, And.right⟩
  -- a part is what it was, but for its subscription
  have old : ∀ c' i part', w'.part? c' i = some part' → ∃ part₀, w.part? c' i = some part₀ ∧
      part₀.expression = part'.expression ∧ part₀.info = part'.info := fun c' i part' is => by
    rw [part] at is
    split at is
    next here =>
      obtain ⟨part₀, is₀, rfl⟩ := Option.map_eq_some_iff.1 is
      exact ⟨part₀, here ▸ is₀, rfl, rfl⟩
    · exact ⟨part', is, rfl, rfl⟩
  have rearranges : w.Rearranges w' (cell.parts.toList.filterMap (·.subscription)) :=
    { directVoice? := fun _ => made ▸ rfl
      audience := fun l => made ▸ by cases l <;> rfl
      place? := fun l => made ▸ by cases l <;> exact id
      collectors := fun _ => made ▸ rfl
      nextToken := made ▸ Nat.le_refl _
      followers := fun c' p m => by
        rw [follows] at m
        split at m
        · cases m
        · exact .inl m
      fits := fun c' i part' info is some => by
        obtain ⟨part₀, is₀, -, same⟩ := old c' i part' is
        exact .inl ⟨part₀, is₀, same.trans some⟩
      watches := fun c' i part₀ l is watches => by
        obtain ⟨info, some, ob⟩ := watches
        rw [part]
        split
        next here =>
          subst here
          exact ⟨_, congrArg (Option.map _) is, info, some, ob⟩
        · exact ⟨part₀, is, info, some, ob⟩
      retains := fun c' i s => by
        rw [retains, mine]
        constructor
        · rintro ⟨other, keeps⟩
          refine ⟨keeps, ?_⟩
          rintro ⟨i', keeps'⟩
          exact other (A.accounts.once _ _ _ _ s keeps keeps').1
        · rintro ⟨keeps, left⟩
          refine ⟨?_, keeps⟩
          rintro rfl
          exact left ⟨i, keeps⟩
      lost := fun s m => ⟨c, (mine s).1 m⟩
      apart := nodup_filterMap_subscription A.accounts get
      idle := fun c' alone => by
        rw [follows] at alone
        split at alone
        next here => exact .inr fun i s keeps => (mine s).2 ⟨i, here ▸ keeps⟩
        · exact .inl alone }
  refine ⟨A.furnished.settings (made ▸ ⟨rfl, rfl, fun _ => rfl, fun l => by cases l <;> exact id,
    fun _ _ _ => id⟩), fun c' i part' scope is unconnected at' => ?_, ?_⟩
  · obtain ⟨part₀, is₀, expression, info⟩ := old c' i part' is
    have same : w'.scopeOf? c' = w.scopeOf? c' := by
      rw [← made]
      exact scopeOf?_modifyComposite w c c' fun _ => rfl
    exact expression ▸ A.plain c' i part₀ scope is₀ (info.trans unconnected) (same ▸ at')
  · have accounts := A.accounts.rearranges rearranges
    rwa [List.append_nil] at accounts

end World

/-! ### The first and the last -/

namespace World

variable {η : Type} {w : World η} {P : Ref .object → String → Prop} {s : Ref .subscription}

/-- A subscription that is not with a leaf is not in the account. -/
theorem steady_newSubscription (w : World η) {disposal : Option Disposal}
    (other : ∀ l t, disposal ≠ some (.callback (.leaf l) t)) :
    w.Steady P (w.newSubscription disposal).2 := by
  refine .of_settings (fun _ => rfl) (fun s => ?_) (fun l => by cases l <;> rfl) (fun _ => rfl)
    (Nat.le_refl _) ⟨rfl, rfl, fun _ => rfl, fun l => by cases l <;> exact id, fun _ _ _ => id⟩
  by_cases same : s = w.subscriptions.next
  · have new : (w.newSubscription disposal).2.disposal? s = disposal := by
      simp [disposal?, newSubscription, same]
    have none : w.directVoice? s = none := by simp [directVoice?, disposal?, same]
    rw [none, directVoice?, new]
    split
    next l t => exact absurd rfl (other l t)
    · rfl
  · simp only [directVoice?, disposal?, newSubscription, Store.get?_alloc_of_ne _ same]

/-- So is its end. -/
theorem steady_endSubscription (silent : w.directVoice? s = none) :
    w.Steady P (w.modifySubscription s fun _ => ⟨none⟩) := by
  refine .of_settings (fun _ => rfl) (fun s' => ?_) (fun l => by cases l <;> rfl) (fun _ => rfl)
    (Nat.le_refl _) ⟨rfl, rfl, fun _ => rfl, fun l => by cases l <;> exact id, fun _ _ _ => id⟩
  by_cases same : s' = s
  · rw [directVoice?, disposal?_modifySubscription, if_pos same, same, silent]
  · simp only [directVoice?, disposal?_modifySubscription, if_neg same]

/-- Disposes a subscription with a composite. -/
def leave (w : World η) (s : Ref .subscription) : World η :=
  match w.disposal? s with
  | some (.callback (.composite _) _) => w.dispose s
  | _ => w

theorem followersOf_add (w : World η) (c : Ref .composite) (t : Token) (subscriber : Subscriber) :
    (w.modifyComposite c fun cell =>
        { cell with callbacks := cell.callbacks.add t subscriber }).followersOf c = w.followersOf c ∨
      (w.modifyComposite c fun cell =>
        { cell with callbacks := cell.callbacks.add t subscriber }).followersOf c =
          w.followersOf c ++ [(t, subscriber)] := by
  simp only [followersOf, modifyComposite, Store.get?_modify_self]
  cases w.composites.get? c with
  | none => exact .inl rfl
  | some cell => exact .inr rfl

/-- What taking back the registration of a follower leaves loose. -/
theorem Accounted.undo (A : w.Accounted P []) (c : Ref .composite) (t : Token) :
    (w.undoCallback t (.composite c)).2.Accounted P (w.undoCallback t (.composite c)).1 := by
  unfold undoCallback
  dsimp only
  split
  · exact A
  next cell get =>
    split
    next last =>
      exact A.empties get (List.isEmpty_iff.1 (Bool.and_eq_true_iff.1 last).2)
    next more =>
      generalize made : (w.modifyComposite c fun cell' =>
        { cell' with callbacks := cell.callbacks.remove t }) = w'
      have follows : w'.followersOf c = (cell.callbacks.remove t).entries := by
        simp only [← made, followersOf, modifyComposite, Store.get?_modify_self, get,
          Option.map_some, Option.getD_some]
      have followed : w.followersOf c = cell.callbacks.entries := by
        simp only [followersOf, get, Option.map_some, Option.getD_some]
      rw [← made] at follows ⊢
      refine A.followers (fun _ => rfl) (fun p m => ?_) fun alone => ?_
      · rw [follows] at m
        exact .inl (followed ▸ (List.mem_filter.1 m).1)
      · rw [follows] at alone
        -- nobody is left, so the token was not there
        have away : cell.callbacks.contains t = false := by
          refine Bool.eq_false_iff.2 fun there => more (Bool.and_eq_true_iff.2 ⟨there, ?_⟩)
          exact List.isEmpty_iff.2 alone
        rw [followed, ← alone, Listeners.remove]
        refine (List.filter_eq_self.2 fun p m => ?_).symm
        have other : p.1 ≠ t := fun same => by
          rw [show cell.callbacks.contains t = true from
            List.any_eq_true.2 ⟨p, m, decide_eq_true same⟩] at away
          cases away
        exact decide_eq_true other

/-- **A follower goes.** -/
theorem Accounted.leave (A : w.Accounted P []) (s : Ref .subscription) :
    (w.leave s).Accounted P [] := by
  unfold World.leave
  split
  next c t disposal =>
    obtain ⟨depth, deep⟩ : ∃ depth, w.subscriptions.size = depth + 1 :=
      ⟨w.subscriptions.size - 1, by have := index_lt_size_of_disposal? disposal; omega⟩
    have ended := (A.steady (steady_endSubscription (s := s) (by
      simp only [directVoice?, disposal]))).undo c t
    have step : disposeWithin (depth + 1) s w =
        ((w.modifySubscription s fun _ => ⟨none⟩).undoCallback t (.composite c)).1.foldl
          (fun w s => disposeWithin depth s w)
          ((w.modifySubscription s fun _ => ⟨none⟩).undoCallback t (.composite c)).2 := by
      simp only [disposeWithin, disposal]
      rfl
    rw [World.dispose, deep, step]
    have gone := (disposal?_modifySubscription w s s).trans (if_pos rfl)
    have kept : ((w.modifySubscription s fun _ => ⟨none⟩).undoCallback t
        (.composite c)).2.subscriptions = _ := (undoCallback_leaves _ t (.composite c)).2
    have size : (w.modifySubscription s fun _ => ⟨none⟩).subscriptions.size = depth + 1 :=
      Array.size_modify.trans deep
    generalize w.modifySubscription s (fun _ => ⟨none⟩) = w₁ at ended gone kept size ⊢
    generalize w₁.undoCallback t (.composite c) = undone at ended kept ⊢
    obtain ⟨more, w₂⟩ := undone
    cases depth with
    | succ depth => exact Accounted.dropAll depth more ((List.append_nil more).symm ▸ ended)
    | zero =>
      cases more with
      | nil => exact ended
      | cons s' rest =>
        -- there is no other subscription that a part could have kept
        obtain ⟨l, t', voice, -⟩ := ended.accounts.leafy s' List.mem_cons_self
        have disposal' := disposal?_of_directVoice? voice
        have room := index_lt_size_of_disposal? disposal
        have room' := index_lt_size_of_disposal? disposal'
        rw [kept, size] at room'
        have same : s' = s := by
          cases s
          cases s'
          simp only [deep, Ref.mk.injEq] at room room' ⊢
          omega
        rw [same, World.disposal?, kept] at disposal'
        cases gone.symm.trans disposal'
  · exact A

end World

namespace Run

open World

variable {η : Type} {w : World η} {P : Ref .object → String → Prop} {env : Env η}

/-- **A follower comes.**  The first one makes the composite subscribe to its parts. -/
theorem honest_subscribeComposite (E : env.Honest P) (c : Ref .composite) (h : Ref .hook) :
    (subscribeComposite env c (.hook h)).Honest P := by
  refine honest_of_meets fun w A => ?_
  have last : ∀ (t : Token) {w : World η}, w.Accounted P [] →
      (update fun w => w.callbackSubscription (.composite c) t : Run η _).Meets w
        (fun _ w' => w'.Accounted P []) (·.Accounted P []) := fun t w A =>
    A.steady (steady_newSubscription w fun l t => by simp)
  rw [subscribeComposite, meets_bind, meets_update, meets_bind, meets_modify]
  have A₁ := A.steady (steady_freshToken w)
  generalize w.freshToken.2 = w₁ at A₁ ⊢
  generalize w.freshToken.1 = t
  have A₂ : (w₁.modifyComposite c fun cell =>
      { cell with callbacks := cell.callbacks.add t (.hook h) }).Accounted P [] := by
    rcases followersOf_add w₁ c t (.hook h) with same | more
    · exact A₁.followers (fun _ => rfl) (fun p m => .inl (same ▸ m)) fun alone => same ▸ alone
    · refine A₁.followers (fun _ => rfl) (fun p m => ?_) fun alone => ?_
      · rw [more] at m
        exact (List.mem_append.1 m).imp_right fun m => ⟨h, congrArg Prod.snd (List.mem_singleton.1 m)⟩
      · rw [more] at alone
        exact (List.append_eq_nil_iff.1 alone).1
  generalize w₁.modifyComposite c _ = w₂ at A₂ ⊢
  dsimp only
  rw [meets_bind, meets_read]
  split
  next first =>
    have pass : w₂.Passing P c true := ⟨A₂, fun _ none => by
      rw [followerCount_eq, none] at first
      cases first⟩
    refine meets_bind.2 (Proceeds.meets (Proceeds.attempt ?_))
    exact (proceeds_reconnect E pass).mono fun _ _ pass => last t pass.accounted
  · exact last t A₂

end Run

namespace Run

open World

variable {η : Type} {w : World η} {P : Ref .object → String → Prop} {env : Env η}

/-! ### Those who are told -/

/-- Parts and hooks of the host are told. -/
theorem honest_announceAll (E : env.Honest P) {subscribers : List Subscriber} {new old : Value}
    (known : ∀ s ∈ subscribers, (∃ c, s = .part c) ∨ ∃ h, s = .hook h) :
    (env.announceAll subscribers new old).Honest P := by
  refine keeps_forEach fun s m => ?_
  rcases known s m with ⟨c, rfl⟩ | ⟨h, rfl⟩
  · exact E.part c new old
  · exact E.hook h new old

theorem exists_of_mem_newestFirst {callbacks : Listeners Subscriber} {s : Subscriber}
    (m : s ∈ callbacks.newestFirst) : ∃ p ∈ callbacks.entries, p.2 = s := by
  obtain ⟨p, m, same⟩ := List.mem_map.1 (List.mem_reverse.1 m)
  exact ⟨p, m, same⟩

/-- Whoever is registered with a property is told. -/
theorem honest_notifyParts (E : env.Honest P) (A : w.Accounted P []) {l : Leaf}
    {callbacks : Listeners Subscriber} (same : w.audience l = callbacks.entries) (new old : Value) :
    (env.notify callbacks new old).Honest P := by
  refine honest_announceAll E fun s m => ?_
  obtain ⟨p, there, rfl⟩ := exists_of_mem_newestFirst m
  exact .inl (A.accounts.told l p (same ▸ there)).2

theorem honest_notifyFollowers (E : env.Honest P) (A : w.Accounted P []) {c : Ref .composite}
    {callbacks : Listeners Subscriber} (same : w.followersOf c = callbacks.entries)
    (new old : Value) : (env.notify callbacks new old).Honest P := by
  refine honest_announceAll E fun s m => ?_
  obtain ⟨p, there, rfl⟩ := exists_of_mem_newestFirst m
  exact .inr (A.accounts.followers c p (same ▸ there))

/-! ### A part changed -/

theorem honest_tellComposite (E : env.Honest P) (c : Ref .composite) (new : Value) :
    (tellComposite env c new).Honest P := by
  refine honest_read_bind fun w A => ?_
  cases get : w.composites.get? c with
  | none => exact A
  | some cell =>
    have told : w.followersOf c = cell.callbacks.entries := by
      simp only [followersOf, get, Option.map_some, Option.getD_some]
    refine ((honest_modify fun w => ?_).bind fun _ =>
      honest_notifyFollowers E A told new cell.value) w A
    exact steady_modifyComposite w c fun _ => rfl

theorem honest_reevaluate (E : env.Honest P) (c : Ref .composite) :
    (reevaluate env c).Honest P := by
  refine honest_read_bind fun w A => ?_
  cases w.composites.get? c with
  | none => exact A
  | some cell =>
    refine Honest.bind (keeps_read _) (fun converters => Honest.bind
      ((Evaluates.eval converters cell.scope cell.expression).honest E).attempt fun result => ?_) w A
    split
    · exact keeps_pure ()
    · exact honest_tellComposite E c _

/-- **Handling changes until none is left.** -/
theorem honest_settle (E : env.Honest P) (c : Ref .composite) :
    ∀ rounds, (settle env c rounds).Honest P
  | 0 => keeps_cutOff
  | rounds + 1 => by
    refine (honest_reevaluate E c).bind fun _ => honest_of_meets fun w A => ?_
    have pass : w.Passing P c (w.followerCount c != 0) := ⟨A, fun yes none => by
      rw [followerCount_eq, none] at yes
      cases yes⟩
    rw [meets_bind, meets_read, ignoreFailure, meets_bind, meets_discard]
    refine Proceeds.meets (Proceeds.attempt ?_)
    refine (proceeds_reconnect E pass).mono fun _ w' pass => Honest.meets ?_ pass.accounted
    refine (keeps_read _).bind fun rerun => keeps_ite ((honest_modify fun w => ?_).bind fun _ =>
      honest_settle E c rounds) (honest_modify fun w => ?_)
    all_goals exact steady_modifyComposite w c fun _ => rfl

/-- **A composite whose part changed** keeps the account. -/
theorem honest_partChanged (E : env.Honest P) (c : Ref .composite) :
    (partChanged env c).Honest P := by
  refine honest_read_bind fun w A => ?_
  cases w.composites.get? c with
  | none => exact A
  | some cell =>
    refine keeps_ite (honest_modify fun w => ?_) ((honest_modify fun w => ?_).bind fun _ =>
      honest_settle E c env.rounds) w A
    all_goals exact steady_modifyComposite w c fun _ => rfl

/-! ### Properties -/

theorem honest_tellProperty (E : env.Honest P) (r : Ref .property) (new old : Value) :
    (tellProperty env r new old).Honest P := by
  refine honest_read_bind fun w A => ?_
  cases get : w.properties.get? r with
  | none => exact A
  | some cell =>
    exact honest_notifyParts E A (l := .property r) (by simp [audience, get]) new old w A

theorem honest_tellSetter (E : env.Honest P) (r : Ref .setter) : (tellSetter env r).Honest P := by
  refine honest_read_bind fun w A => ?_
  cases get : w.setters.get? r with
  | none => exact A
  | some cell =>
    refine ((honest_modify fun w => ?_).bind fun _ =>
      honest_notifyParts E A (l := .setter r) (by simp [audience, get]) cell.current cell.old) w A
    exact steady_modifySetter w r (fun _ => rfl) fun _ => rfl

theorem honest_tellPoll (E : env.Honest P) (r : Ref .poll) : (tellPoll env r).Honest P := by
  refine honest_read_bind fun w A => ?_
  cases get : w.polls.get? r with
  | none => exact A
  | some cell =>
    refine ((keeps_read _).bind fun new => (honest_modify fun w => ?_).bind fun _ =>
      honest_notifyParts E A (l := .poll r) (by simp [audience, get]) _ _) w A
    exact steady_modifyPoll w r (fun _ => rfl) fun _ => rfl

/-- Nobody is told about the contents of an array. -/
theorem honest_tellContents (r : Ref .contents) : (tellContents env r).Honest P := by
  refine honest_read_bind fun w A => ?_
  cases get : w.contents.get? r with
  | none => exact A
  | some cell =>
    have nobody : cell.callbacks.newestFirst = [] := by
      have none := A.accounts.collectors r
      simp only [collectorsOf, get, Option.map_some, Option.getD_some] at none
      simp [Listeners.newestFirst, Listeners.toList, none]
    refine ((honest_modify fun w => ?_).bind fun _ => (keeps_read _).bind fun value => ?_) w A
    · exact steady_modifyContents w r fun _ => rfl
    · rw [Env.notify, nobody]
      exact keeps_pure ()

theorem mem_latestRecords_filterMap {observers : List (String × Leaf)} {records : List ChangeRecord}
    {p : Leaf × ChangeRecord}
    (m : p ∈ (latestRecords records).filterMap fun record =>
      (Entries.get? record.name observers).map fun leaf => (leaf, record)) :
    ∃ n, (n, p.1) ∈ observers := by
  obtain ⟨record, -, found⟩ := List.mem_filterMap.1 m
  obtain ⟨leaf, at', rfl⟩ := Option.map_eq_some_iff.1 found
  exact ⟨record.name, Entries.mem_of_get? at'⟩

theorem honest_dispatchRecords (E : env.Honest P) (d : Ref .dispatcher)
    (records : List ChangeRecord) : (dispatchRecords env d records).Honest P := by
  refine honest_read_bind fun w A => ?_
  cases get : w.dispatchers.get? d with
  | none => exact A
  | some cell =>
    refine (Honest.bind (P := P) (keeps_read _) fun live => keeps_ite
      (keeps_forEach fun p m => ?_) (keeps_pure ())) w A
    obtain ⟨n, m⟩ := mem_latestRecords_filterMap m
    obtain ⟨direct, -⟩ := A.furnished.handed d cell (n, p.1) get m
    obtain ⟨leaf, record⟩ := p
    refine (keeps_read _).bind fun new => ?_
    cases leaf with
    | property r => exact honest_tellProperty E r new record.old
    | placeholder r => exact direct.elim
    | _ => exact keeps_pure ()

/-- **Delivering change records** keeps the account. -/
theorem honest_deliver (E : env.Honest P) (o : Ref .object) : (deliver env o).Honest P := by
  refine (honest_update fun w => steady_takeRecords w o).bind fun taken => ?_
  refine keeps_ite (keeps_pure ()) (keeps_forEach fun listener _ => ?_)
  cases listener with
  | dispatcher d => exact honest_dispatchRecords E d taken.1
  | hook h => exact E.fire h _

/-! ### Tasks -/

theorem honest_runMicrotask (E : env.Honest P) (task : Microtask) :
    (runMicrotask env task).Honest P := by
  cases task with
  | deliver o => exact honest_deliver E o
  | setter r => exact honest_tellSetter E r
  | contents r => exact honest_tellContents r
  | hook h => exact E.fire h _

theorem steady_tasks (w : World η) (tasks : TaskQueue) : w.Steady P { w with tasks } :=
  .of_registry rfl fun _ _ _ => id

theorem honest_drainMicrotasks (E : env.Honest P) :
    ∀ rounds ran, (drainMicrotasks env rounds ran).Honest P
  | 0, _ => keeps_cutOff
  | rounds + 1, ran => by
    refine (keeps_read _).bind fun tasks => ?_
    cases tasks with
    | nil => exact keeps_pure _
    | cons task rest =>
      exact (honest_modify fun w => steady_tasks w _).bind fun _ =>
        (honest_runMicrotask E task).bind fun _ => honest_drainMicrotasks E rounds (ran + 1)

/-- **A flush** keeps the account. -/
theorem honest_flush (E : env.Honest P) : (flushMicrotasks env).Honest P := by
  refine (keeps_read _).bind fun flushing => keeps_ite (keeps_pure _) ?_
  refine (honest_modify fun w => steady_tasks w _).bind fun _ => ?_
  exact fun w A => (honest_drainMicrotasks E env.rounds 0 w A).steady (steady_tasks _ _)

/-- **Polling** keeps the account. -/
theorem honest_poll (E : env.Honest P) : (poll env).Honest P := by
  refine (honest_modify fun w => ?_).bind fun _ => (keeps_read _).bind fun tracked =>
    (keeps_forEach fun r _ => ?_).bind fun _ => ?_
  · exact .of_registry rfl fun _ _ _ => id
  · exact (keeps_read _).bind fun dirty => keeps_ite (honest_tellPoll E r) (keeps_pure ())
  · exact (keeps_read _).bind fun none => keeps_ite (keeps_pure ())
      (honest_modify steady_schedulePolling)

end Run

end ViewBinding
