import ViewBinding.Observer.Composite
import ViewBinding.Proofs.Leaf.Dispose

/-!
# Composite — the account that composites give

A composite keeps the subscriptions with its parts.  `w.Accounts loose` says that all composites
account for them: every registration of a part comes from one subscription, which one part keeps, and
a composite without followers keeps none.  The subscriptions `loose` are those that were made and are
not kept yet, or that are kept no longer and are not disposed yet.

There are four ways to change that.  There is one registration more, of a loose subscription
(`Accounts.registers`); a part keeps a loose subscription (`Accounts.keep`); parts and followers come
and go and what was kept becomes loose (`Accounts.rearranges`); a loose subscription is disposed
(`Accounts.drop`).
-/

namespace ViewBinding

/-- A leaf that watches a property which its object had when the leaf was made. -/
def Leaf.IsDirect : Leaf → Prop
  | .setter _ | .property _ | .poll _ => True
  | _ => False

/-- Connecting the part gave the leaf `l`. -/
def Part.Watches (part : Part) (l : Leaf) : Prop :=
  ∃ info, part.info = some info ∧ info.observer = some (.leaf l)

theorem Part.Watches.unique {part : Part} {l l' : Leaf} (h : part.Watches l)
    (h' : part.Watches l') : l = l' := by
  obtain ⟨info, is, ob⟩ := h
  obtain ⟨info', is', ob'⟩ := h'
  cases is.symm.trans is'
  cases ob.symm.trans ob'
  rfl

namespace World

variable {η : Type} {w w' w'' : World η} {loose gone : List (Ref .subscription)}
  {s : Ref .subscription} {l : Leaf} {t : Token} {c : Ref .composite} {i : Nat} {part : Part}

/-- A direct leaf that is there. -/
def Rooted (w : World η) (l : Leaf) : Prop := l.IsDirect ∧ w.place? l ≠ none

/-- A part may watch what connecting gave. -/
def Admits (w : World η) (info : ConnectInfo) : Prop :=
  ∀ ob, info.observer = some ob → ∃ l, ob = .leaf l ∧ w.Rooted l

/-- A part of a composite keeps a subscription. -/
def Retains (w : World η) (c : Ref .composite) (i : Nat) (s : Ref .subscription) : Prop :=
  ∃ part, w.part? c i = some part ∧ part.subscription = some s

/-- The registrations with a composite, the oldest first. -/
def followersOf (w : World η) (c : Ref .composite) : List (Token × Subscriber) :=
  ((w.composites.get? c).map (·.callbacks.entries)).getD []

/-- The registrations with an observer of the contents of an array, the oldest first. -/
def collectorsOf (w : World η) (c : Ref .contents) : List (Token × Subscriber) :=
  ((w.contents.get? c).map (·.callbacks.entries)).getD []

theorem followerCount_eq (w : World η) (c : Ref .composite) :
    w.followerCount c = (w.followersOf c).length := by
  simp only [followerCount, followersOf]
  cases w.composites.get? c <;> rfl

/-- Composites account for the subscriptions with their parts, but for the `loose` ones. -/
structure Accounts (w : World η) (loose : List (Ref .subscription)) : Prop where
  issued : ∀ s l t, w.directVoice? s = some (l, t) → t.index < w.nextToken
  alone : ∀ s s' l l' t, w.directVoice? s = some (l, t) → w.directVoice? s' = some (l', t) → s = s'
  heard : ∀ l p, p ∈ w.audience l → p.1.index < w.nextToken
  distinct : ∀ l, Entries.Distinct (w.audience l)
  /-- Nobody but parts is told about properties. -/
  told : ∀ l p, p ∈ w.audience l → l.IsDirect ∧ ∃ c, p.2 = .part c
  collectors : ∀ c, w.collectorsOf c = []
  /-- Nobody but the host is told about composites. -/
  followers : ∀ c p, p ∈ w.followersOf c → ∃ h, p.2 = .hook h
  /-- A part watches a property, if it watches at all. -/
  fits : ∀ c i part info, w.part? c i = some part → part.info = some info → w.Admits info
  kept : ∀ c i part s, w.part? c i = some part → part.subscription = some s →
    ∃ l t, part.Watches l ∧ w.directVoice? s = some (l, t) ∧ (t, .part c) ∈ w.audience l
  once : ∀ c c' i i' s, w.Retains c i s → w.Retains c' i' s → c = c' ∧ i = i'
  booked : ∀ l t c, (t, .part c) ∈ w.audience l →
    ∃ s, w.directVoice? s = some (l, t) ∧ (s ∈ loose ∨ ∃ i, w.Retains c i s)
  leafy : ∀ s ∈ loose, ∃ l t, w.directVoice? s = some (l, t) ∧ w.Rooted l
  free : ∀ s ∈ loose, ∀ c i, ¬ w.Retains c i s
  apart : loose.Nodup
  /-- A composite without followers keeps nothing. -/
  idle : ∀ c i s, w.followersOf c = [] → ¬ w.Retains c i s

theorem Accounts.rooted (A : w.Accounts loose) (is : w.part? c i = some part)
    (watches : part.Watches l) : w.Rooted l := by
  obtain ⟨info, some, ob⟩ := watches
  obtain ⟨_, ⟨⟩, rooted⟩ := A.fits c i part info is some _ ob
  exact rooted

/-! ### Coming and going -/

/-- `w'` has the registrations of `w`, and parts that keep what they kept but for the subscriptions
`gone`. -/
structure Rearranges (w w' : World η) (gone : List (Ref .subscription)) : Prop where
  directVoice? : ∀ s, w'.directVoice? s = w.directVoice? s
  audience : ∀ l, w'.audience l = w.audience l
  place? : ∀ l, w.place? l ≠ none → w'.place? l ≠ none
  collectors : ∀ c, w'.collectorsOf c = w.collectorsOf c
  nextToken : w.nextToken ≤ w'.nextToken
  followers : ∀ c p, p ∈ w'.followersOf c → p ∈ w.followersOf c ∨ ∃ h, p.2 = .hook h
  fits : ∀ c i part info, w'.part? c i = some part → part.info = some info →
    (∃ part₀, w.part? c i = some part₀ ∧ part₀.info = some info) ∨ w'.Admits info
  watches : ∀ c i part l, w.part? c i = some part → part.Watches l →
    ∃ part', w'.part? c i = some part' ∧ part'.Watches l
  retains : ∀ c i s, w'.Retains c i s ↔ w.Retains c i s ∧ s ∉ gone
  lost : ∀ s ∈ gone, ∃ c i, w.Retains c i s
  apart : gone.Nodup
  idle : ∀ c, w'.followersOf c = [] → w.followersOf c = [] ∨ ∀ i s, w.Retains c i s → s ∈ gone

theorem Rearranges.rooted (h : w.Rearranges w' gone) (rooted : w.Rooted l) : w'.Rooted l :=
  ⟨rooted.1, h.place? l rooted.2⟩

theorem Admits.mono {info : ConnectInfo} (rooted : ∀ l, w.Rooted l → w'.Rooted l)
    (admits : w.Admits info) : w'.Admits info := by
  intro ob watched
  obtain ⟨l, same, there⟩ := admits ob watched
  exact ⟨l, same, rooted l there⟩

/-- **Parts and followers come and go**, and what was kept becomes loose. -/
theorem Accounts.rearranges (A : w.Accounts loose) (h : w.Rearranges w' gone) :
    w'.Accounts (gone ++ loose) where
  issued s l t is := Nat.lt_of_lt_of_le (A.issued s l t (h.directVoice? s ▸ is)) h.nextToken
  alone s s' l l' t is is' :=
    A.alone s s' l l' t (h.directVoice? s ▸ is) (h.directVoice? s' ▸ is')
  heard l p m := Nat.lt_of_lt_of_le (A.heard l p (h.audience l ▸ m)) h.nextToken
  distinct l := h.audience l ▸ A.distinct l
  told l p m := A.told l p (h.audience l ▸ m)
  collectors c := (h.collectors c).trans (A.collectors c)
  followers c p m := (h.followers c p m).elim (A.followers c p) id
  fits c i part info is some := by
    rcases h.fits c i part info is some with ⟨part₀, is₀, some₀⟩ | new
    · exact (A.fits c i part₀ info is₀ some₀).mono fun _ => h.rooted
    · exact new
  kept c i part s is keeps := by
    obtain ⟨part₀, is₀, keeps₀⟩ := ((h.retains c i s).1 ⟨part, is, keeps⟩).1
    obtain ⟨l, t, watches, voice, m⟩ := A.kept c i part₀ s is₀ keeps₀
    obtain ⟨part', is', watches'⟩ := h.watches c i part₀ l is₀ watches
    cases is.symm.trans is'
    exact ⟨l, t, watches', (h.directVoice? s).trans voice, (h.audience l).symm ▸ m⟩
  once c c' i i' s keeps keeps' :=
    A.once c c' i i' s ((h.retains c i s).1 keeps).1 ((h.retains c' i' s).1 keeps').1
  booked l t c m := by
    obtain ⟨s, voice, there⟩ := A.booked l t c (h.audience l ▸ m)
    refine ⟨s, (h.directVoice? s).trans voice, ?_⟩
    by_cases lost : s ∈ gone
    · exact .inl (List.mem_append_left _ lost)
    · exact there.imp (List.mem_append_right _)
        (Exists.imp fun i keeps => (h.retains c i s).2 ⟨keeps, lost⟩)
  leafy s m := by
    rcases List.mem_append.1 m with m | m
    · obtain ⟨c, i, part, is, keeps⟩ := h.lost s m
      obtain ⟨l, t, watches, voice, -⟩ := A.kept c i part s is keeps
      exact ⟨l, t, (h.directVoice? s).trans voice, h.rooted (A.rooted is watches)⟩
    · obtain ⟨l, t, voice, rooted⟩ := A.leafy s m
      exact ⟨l, t, (h.directVoice? s).trans voice, h.rooted rooted⟩
  free s m c i keeps := by
    obtain ⟨kept, left⟩ := (h.retains c i s).1 keeps
    exact (List.mem_append.1 m).elim left fun m => A.free s m c i kept
  apart := by
    refine List.nodup_append.2 ⟨h.apart, A.apart, fun s lost s' m same => ?_⟩
    obtain ⟨c, i, keeps⟩ := h.lost s lost
    exact A.free s' m c i (same ▸ keeps)
  idle c i s alone keeps := by
    obtain ⟨kept, left⟩ := (h.retains c i s).1 keeps
    rcases h.idle c alone with alone | all
    · exact A.idle c i s alone kept
    · exact left (all i s kept)

/-! ### One registration more -/

/-- `w'` has one registration of a part more than `w`, and the subscription `s` that ends it. -/
structure Registers (w w' : World η) (s : Ref .subscription) (l : Leaf) (c : Ref .composite)
    (t : Token) : Prop where
  part? : ∀ c i, w'.part? c i = w.part? c i
  followersOf : ∀ c, w'.followersOf c = w.followersOf c
  new : w.directVoice? s = none
  directVoice? : ∀ s', w'.directVoice? s' = if s' = s then some (l, t) else w.directVoice? s'
  audience : ∀ l', w'.audience l' =
    if l' = l then w.audience l ++ [(t, .part c)] else w.audience l'
  place? : ∀ l, w.place? l ≠ none → w'.place? l ≠ none
  collectors : ∀ c, w'.collectorsOf c = w.collectorsOf c
  drawn : w.nextToken ≤ t.index
  token : t.index < w'.nextToken

namespace Registers

theorem nextToken (h : w.Registers w' s l c t) : w.nextToken ≤ w'.nextToken :=
  Nat.le_trans h.drawn (Nat.le_of_lt h.token)

theorem retains (h : w.Registers w' s l c t) (c' : Ref .composite) (i : Nat)
    (s' : Ref .subscription) : w'.Retains c' i s' ↔ w.Retains c' i s' := by
  simp only [Retains, h.part?]

theorem directVoice?_self (h : w.Registers w' s l c t) : w'.directVoice? s = some (l, t) := by
  rw [h.directVoice?, if_pos rfl]

theorem mem_audience (h : w.Registers w' s l c t) {l' : Leaf} {p : Token × Subscriber} :
    p ∈ w'.audience l' ↔ p ∈ w.audience l' ∨ l' = l ∧ p = (t, .part c) := by
  rw [h.audience]
  split
  next same => simp [same]
  next other => simp [other]

theorem rooted (h : w.Registers w' s l c t) {l' : Leaf} (rooted : w.Rooted l') : w'.Rooted l' :=
  ⟨rooted.1, h.place? l' rooted.2⟩

end Registers

/-- **A registration more**: its subscription is loose. -/
theorem Accounts.registers (A : w.Accounts loose) (h : w.Registers w' s l c t) (rooted : w.Rooted l) :
    w'.Accounts (s :: loose) := by
  have other : ∀ {s' v}, w.directVoice? s' = some v → s' ≠ s := by
    rintro s' v is rfl
    cases h.new.symm.trans is
  have old : ∀ {s' v}, w.directVoice? s' = some v → w'.directVoice? s' = some v := fun is => by
    rw [h.directVoice?, if_neg (other is), is]
  have was : ∀ {s' l' t'}, w'.directVoice? s' = some (l', t') →
      s' = s ∧ t' = t ∨ w.directVoice? s' = some (l', t') := fun is => by
    rw [h.directVoice?] at is
    split at is
    next same =>
      cases is
      exact .inl ⟨same, rfl⟩
    · exact .inr is
  have fresh : ∀ {t'}, t'.index < w.nextToken → t' ≠ t := fun lt same => by
    have := h.drawn
    rw [same] at lt
    omega
  have unkept : ∀ c i, ¬ w.Retains c i s := by
    rintro c i ⟨part, is, keeps⟩
    obtain ⟨l, t, -, voice, -⟩ := A.kept c i part _ is keeps
    exact other voice rfl
  refine
    { issued := fun s l' t' is => ?_, alone := fun s s' l₁ l₂ t' is is' => ?_
      heard := fun l' p m => ?_, distinct := fun l' => ?_, told := fun l' p m => ?_
      collectors := fun c => (h.collectors c).trans (A.collectors c)
      followers := fun c p m => A.followers c p (h.followersOf c ▸ m)
      fits := fun c i part info is some =>
        (A.fits c i part info (h.part? c i ▸ is) some).mono fun _ => h.rooted
      kept := fun c i part s is keeps => ?_
      once := fun c c' i i' s keeps keeps' => A.once c c' i i' s ((h.retains c i s).1 keeps)
        ((h.retains c' i' s).1 keeps')
      booked := fun l' t' c m => ?_, leafy := fun s m => ?_, free := fun s m c i keeps => ?_
      apart := ?_
      idle := fun c i s alone keeps =>
        A.idle c i s (h.followersOf c ▸ alone) ((h.retains c i s).1 keeps) }
  · rcases was is with ⟨-, rfl⟩ | is
    · exact h.token
    · exact Nat.lt_of_lt_of_le (A.issued s l' t' is) h.nextToken
  · rcases was is, was is' with ⟨⟨rfl, rfl⟩ | is, ⟨rfl, same⟩ | is'⟩
    · rfl
    · exact absurd rfl (fresh (A.issued _ _ _ is'))
    · exact absurd same (fresh (A.issued _ _ _ is))
    · exact A.alone _ _ _ _ _ is is'
  · rcases h.mem_audience.1 m with m | ⟨-, rfl⟩
    · exact Nat.lt_of_lt_of_le (A.heard l' p m) h.nextToken
    · exact h.token
  · rw [h.audience]
    split
    · rw [Entries.Distinct, Entries.keys, List.map_append, List.nodup_append]
      refine ⟨A.distinct l, List.pairwise_singleton _ _, fun t₁ m t₂ m' same => ?_⟩
      obtain ⟨p, there, rfl⟩ := List.mem_map.1 m
      exact fresh (A.heard l p there) (same.trans (List.mem_singleton.1 m'))
    · exact A.distinct l'
  · rcases h.mem_audience.1 m with m | ⟨rfl, rfl⟩
    · exact A.told l' p m
    · exact ⟨rooted.1, _, rfl⟩
  · obtain ⟨l', t', watches, voice, m⟩ := A.kept c i part s (h.part? c i ▸ is) keeps
    exact ⟨l', t', watches, old voice, h.mem_audience.2 (.inl m)⟩
  · rcases h.mem_audience.1 m with m | ⟨rfl, same⟩
    · obtain ⟨s, voice, there⟩ := A.booked l' t' c m
      exact ⟨s, old voice, there.imp (List.mem_cons_of_mem _)
        (Exists.imp fun i => (h.retains c i s).2)⟩
    · cases same
      exact ⟨s, h.directVoice?_self, .inl List.mem_cons_self⟩
  · rcases List.mem_cons.1 m with rfl | m
    · exact ⟨l, t, h.directVoice?_self, h.rooted rooted⟩
    · obtain ⟨l', t', voice, rooted'⟩ := A.leafy s m
      exact ⟨l', t', old voice, h.rooted rooted'⟩
  · rcases List.mem_cons.1 m with rfl | m
    · exact unkept c i ((h.retains _ _ _).1 keeps)
    · exact A.free s m c i ((h.retains c i s).1 keeps)
  · refine List.nodup_cons.2 ⟨fun m => ?_, A.apart⟩
    obtain ⟨l', t', voice, -⟩ := A.leafy _ m
    exact other voice rfl

/-! ### One registration less -/

theorem undoCallback_fst_of_isDirect (w : World η) (t : Token) (direct : l.IsDirect) :
    (w.undoCallback t (.leaf l)).1 = [] := by
  cases l with
  | setter | property => rfl
  | poll r =>
    unfold undoCallback
    dsimp only
    split
    · rfl
    · split <;> rfl
  | _ => exact direct.elim

/-- **A loose subscription is disposed.** -/
theorem Accounts.drop (A : w.Accounts (s :: loose)) (depth : Nat) :
    (disposeWithin (depth + 1) s w).Accounts loose := by
  obtain ⟨l, t, voice, direct, place⟩ := A.leafy s List.mem_cons_self
  obtain ⟨quits, rests⟩ := quits_withoutCallback (s := s) (t := t) (.inl place)
  rw [disposeWithin_succ depth voice, undoCallback_fst_of_isDirect _ _ direct, List.foldl_nil]
  generalize w.withoutCallback s l t = w' at quits rests
  have composites : w'.composites = w.composites := congrArg Backdrop.composites rests.backdrop
  have contents : w'.contents = w.contents := congrArg Backdrop.contents rests.backdrop
  have parts : ∀ c i, w'.part? c i = w.part? c i := fun c i => by
    simp only [World.part?, composites]
  have retains : ∀ {c i s}, w'.Retains c i s ↔ w.Retains c i s := fun {c i s} => by
    simp only [Retains, parts]
  have unkept : ∀ c i, ¬ w.Retains c i s := A.free s List.mem_cons_self
  have was : ∀ {s' v}, w'.directVoice? s' = some v → w.directVoice? s' = some v := fun is => by
    rw [quits.directVoice?] at is
    split at is
    · cases is
    · exact is
  have other : ∀ {s' v}, s' ≠ s → w.directVoice? s' = some v → w'.directVoice? s' = some v :=
    fun ne is => by rw [quits.directVoice?, if_neg ne, is]
  -- registrations under other tokens are left
  have left : ∀ {l' p}, p.1 ≠ t → p ∈ w.audience l' → p ∈ w'.audience l' := fun ne m => by
    rw [quits.audience]
    split
    next same => exact List.mem_filter.2 ⟨same ▸ m, decide_eq_true ne⟩
    · exact m
  have rooted : ∀ {l'}, w.Rooted l' → w'.Rooted l' := fun {l'} there =>
    ⟨there.1, (quits.place? l').symm ▸ there.2⟩
  refine
    { issued := fun s l t is => quits.nextToken.symm ▸ A.issued s l t (was is)
      alone := fun s s' l l' t is is' => A.alone s s' l l' t (was is) (was is')
      heard := fun l p m => quits.nextToken.symm ▸ A.heard l p (quits.audience_subset m)
      distinct := fun l' => ?_, told := fun l p m => A.told l p (quits.audience_subset m)
      collectors := fun c => ?_, followers := fun c p m => ?_
      fits := fun c i part info is some =>
        (A.fits c i part info (parts c i ▸ is) some).mono fun _ => rooted
      kept := fun c i part s' is keeps => ?_
      once := fun c c' i i' s k k' => A.once c c' i i' s (retains.1 k) (retains.1 k')
      booked := fun l' t' c m => ?_, leafy := fun s' m => ?_
      free := fun s' m c i k => A.free s' (List.mem_cons_of_mem _ m) c i (retains.1 k)
      apart := (List.nodup_cons.1 A.apart).2, idle := fun c i s alone k => ?_ }
  · rw [quits.audience]
    split
    · exact List.Nodup.sublist (List.filter_sublist.map _) (A.distinct l)
    · exact A.distinct l'
  · rw [collectorsOf, contents]
    exact A.collectors c
  · rw [followersOf, composites] at m
    exact A.followers c p m
  · rw [parts] at is
    obtain ⟨l', t', watches, voice', m⟩ := A.kept c i part s' is keeps
    have ne : s' ≠ s := by
      rintro rfl
      exact unkept c i ⟨part, is, keeps⟩
    refine ⟨l', t', watches, other ne voice', left ?_ m⟩
    rintro rfl
    exact ne (A.alone _ _ _ _ _ voice' voice)
  · obtain ⟨s', voice', there⟩ := A.booked l' t' c (quits.audience_subset m)
    have ne : s' ≠ s := by
      rintro rfl
      cases voice.symm.trans voice'
      rw [quits.audience, if_pos rfl] at m
      exact of_decide_eq_true (List.mem_filter.1 m).2 rfl
    exact ⟨s', other ne voice', there.imp (fun m => (List.mem_cons.1 m).resolve_left ne)
      (Exists.imp fun i => retains.2)⟩
  · obtain ⟨l', t', voice', rooted'⟩ := A.leafy s' (List.mem_cons_of_mem _ m)
    have ne : s' ≠ s := by
      rintro rfl
      exact (List.nodup_cons.1 A.apart).1 m
    exact ⟨l', t', other ne voice', rooted rooted'⟩
  · rw [followersOf, composites] at alone
    exact A.idle c i s alone (retains.1 k)

/-! ### Parts of composites -/

theorem part?_modifyComposite (w : World η) (c c' : Ref .composite) (i : Nat)
    (f : CompositeCell → CompositeCell) : (w.modifyComposite c f).part? c' i =
      if c' = c then (w.composites.get? c).bind (f · |>.parts[i]?) else w.part? c' i := by
  simp only [World.part?, modifyComposite, Store.get?_modify]
  split
  · cases w.composites.get? c <;> rfl
  · rfl

theorem part?_modifyPart (w : World η) (c c' : Ref .composite) (i i' : Nat) (f : Part → Part) :
    (w.modifyPart c i f).part? c' i' =
      if c' = c ∧ i' = i then (w.part? c i).map f else w.part? c' i' := by
  rw [modifyPart, part?_modifyComposite]
  by_cases same : c' = c
  · subst same
    simp only [if_true, true_and, World.part?]
    cases w.composites.get? c' with
    | none => simp
    | some cell =>
      simp only [Option.bind_eq_bind, Option.bind_some, Array.getElem?_modify]
      by_cases at' : i' = i
      · subst at'
        simp
      · simp [at', Ne.symm at']
  · simp [same]

theorem followersOf_modifyComposite (w : World η) (c c' : Ref .composite)
    {f : CompositeCell → CompositeCell} (same : ∀ cell, (f cell).callbacks = cell.callbacks) :
    (w.modifyComposite c f).followersOf c' = w.followersOf c' := by
  simp only [followersOf, modifyComposite]
  rw [Store.map_get?_modify _ _ _ fun cell => by rw [same]]

theorem followersOf_modifyPart (w : World η) (c c' : Ref .composite) (i : Nat) (f : Part → Part) :
    (w.modifyPart c i f).followersOf c' = w.followersOf c' :=
  followersOf_modifyComposite w c c' fun _ => rfl

/-- What a part keeps after a change of one part. -/
theorem retains_modifyPart {f : Part → Part} {c' : Ref .composite} {i' : Nat}
    (is : w.part? c i = some part) : (w.modifyPart c i f).Retains c' i' s ↔
      c' = c ∧ i' = i ∧ (f part).subscription = some s ∨
        ¬ (c' = c ∧ i' = i) ∧ w.Retains c' i' s := by
  simp only [Retains, part?_modifyPart]
  by_cases same : c' = c ∧ i' = i
  · obtain ⟨rfl, rfl⟩ := same
    simp [is]
  · simp only [if_neg same]
    exact ⟨fun h => .inr ⟨same, h⟩, fun h => h.elim (fun h => absurd ⟨h.1, h.2.1⟩ same) And.right⟩

/-- A change of one part that leaves alone what it watches. -/
theorem Rearranges.modifyPart {f : Part → Part} (is : w.part? c i = some part)
    (fits : ∀ info, (f part).info = some info → part.info = some info ∨ w.Admits info)
    (watches : ∀ l, part.Watches l → (f part).Watches l)
    (retains : ∀ c' i' s, (w.modifyPart c i f).Retains c' i' s ↔ w.Retains c' i' s ∧ s ∉ gone)
    (lost : ∀ s ∈ gone, ∃ c i, w.Retains c i s) (apart : gone.Nodup) :
    w.Rearranges (w.modifyPart c i f) gone where
  directVoice? _ := rfl
  audience l := by cases l <;> rfl
  place? l := by cases l <;> exact id
  collectors _ := rfl
  nextToken := Nat.le_refl _
  followers c' p m := .inl (followersOf_modifyPart w c c' i f ▸ m)
  fits c' i' part' info is' some := by
    rw [part?_modifyPart] at is'
    split at is'
    next same =>
      obtain ⟨rfl, rfl⟩ := same
      rw [is, Option.map_some, Option.some.injEq] at is'
      subst is'
      exact (fits info some).imp (fun old => ⟨part, is, old⟩) fun new => new
    · exact .inl ⟨part', is', some⟩
  watches c' i' part' l is' watched := by
    rw [part?_modifyPart]
    split
    next same =>
      obtain ⟨rfl, rfl⟩ := same
      cases is.symm.trans is'
      exact ⟨f part, by rw [is]; rfl, watches l watched⟩
    · exact ⟨part', is', watched⟩
  retains := retains
  lost := lost
  apart := apart
  idle c' alone := .inl (followersOf_modifyPart w c c' i f ▸ alone)

/-- **A part lets its subscription go**, which is loose then. -/
theorem Accounts.letGo (A : w.Accounts loose) (is : w.part? c i = some part) :
    (w.modifyPart c i fun part => { part with subscription := none }).Accounts
      (part.subscription.toList ++ loose) := by
  refine A.rearranges (.modifyPart is (fun info some => .inl some) (fun l watches => watches)
    (fun c' i' s => ?_) (fun s m => ⟨c, i, part, is, Option.mem_toList.1 m⟩) ?_)
  · rw [retains_modifyPart is]
    constructor
    · rintro (⟨-, -, none⟩ | ⟨other, keeps⟩)
      · cases none
      · exact ⟨keeps, fun m =>
          other (A.once _ _ _ _ s keeps ⟨part, is, Option.mem_toList.1 m⟩)⟩
    · rintro ⟨keeps, left⟩
      refine .inr ⟨?_, keeps⟩
      rintro ⟨rfl, rfl⟩
      obtain ⟨part', is', keeps⟩ := keeps
      cases is.symm.trans is'
      exact left (Option.mem_toList.2 keeps)
  · cases part.subscription <;> simp

theorem rearranges_connects (is : w.part? c i = some part) (unconnected : part.info = none)
    {info : ConnectInfo} (admits : w.Admits info) :
    w.Rearranges (w.modifyPart c i fun part => { part with info := some info }) [] := by
  refine .modifyPart is (fun info' some => .inr ?_) (fun l watches => ?_)
    (fun c' i' s => ?_) (fun s m => absurd m List.not_mem_nil) List.nodup_nil
  · cases some
    exact admits
  · obtain ⟨info', some, -⟩ := watches
    cases unconnected.symm.trans some
  · rw [retains_modifyPart is]
    simp only [List.not_mem_nil, not_false_eq_true, and_true]
    constructor
    · rintro (⟨rfl, rfl, keeps⟩ | ⟨-, keeps⟩)
      · exact ⟨part, is, keeps⟩
      · exact keeps
    · intro keeps
      by_cases same : c' = c ∧ i' = i
      · obtain ⟨rfl, rfl⟩ := same
        obtain ⟨part', is', keeps⟩ := keeps
        cases is.symm.trans is'
        exact .inl ⟨rfl, rfl, keeps⟩
      · exact .inr ⟨same, keeps⟩

/-- **A part is connected.** -/
theorem Accounts.connects (A : w.Accounts loose) (is : w.part? c i = some part)
    (unconnected : part.info = none) {info : ConnectInfo} (admits : w.Admits info) :
    (w.modifyPart c i fun part => { part with info := some info }).Accounts loose :=
  A.rearranges (rearranges_connects is unconnected admits)

/-- **A part keeps a loose subscription**, if it watches the leaf that this is with. -/
theorem Accounts.keep (A : w.Accounts (s :: loose)) (is : w.part? c i = some part)
    (unsubscribed : part.subscription = none) (watches : part.Watches l)
    (voice : w.directVoice? s = some (l, t)) (mine : (t, .part c) ∈ w.audience l)
    (followed : w.followersOf c ≠ []) :
    (w.modifyPart c i fun part => { part with subscription := some s }).Accounts loose := by
  have keeps : ∀ {c' i' s'}, (w.modifyPart c i fun part =>
      { part with subscription := some s }).Retains c' i' s' ↔
        c' = c ∧ i' = i ∧ s = s' ∨ ¬ (c' = c ∧ i' = i) ∧ w.Retains c' i' s' := by
    intro c' i' s'
    rw [retains_modifyPart is]
    simp only [Option.some.injEq]
  have unkept := A.free s List.mem_cons_self
  have follows := fun c' => followersOf_modifyPart w c c' i fun part =>
    { part with subscription := some s }
  refine
    { A with
      followers := fun c' p m => A.followers c' p (follows c' ▸ m)
      fits := fun c' i' part' info is' some => ?_
      kept := fun c' i' part' s' is' keeps' => ?_, once := fun c₁ c₂ i₁ i₂ s' k k' => ?_
      booked := fun l' t' c' m => ?_, leafy := fun s m => A.leafy s (List.mem_cons_of_mem _ m)
      free := fun s' m c' i' k => ?_, apart := (List.nodup_cons.1 A.apart).2
      idle := fun c' i' s' alone k => ?_ }
  · rw [part?_modifyPart] at is'
    split at is'
    · rw [is] at is'
      cases is'
      exact A.fits c i part info is some
    · exact A.fits c' i' part' info is' some
  · rw [part?_modifyPart] at is'
    split at is'
    next at' =>
      obtain ⟨rfl, rfl⟩ := at'
      rw [is] at is'
      cases is'
      cases keeps'
      exact ⟨l, t, watches, voice, mine⟩
    · exact A.kept c' i' part' s' is' keeps'
  · rcases keeps.1 k, keeps.1 k' with ⟨⟨rfl, rfl, rfl⟩ | ⟨-, k₁⟩, ⟨rfl, rfl, same⟩ | ⟨-, k₂⟩⟩
    · exact ⟨rfl, rfl⟩
    · exact absurd k₂ (unkept _ _)
    · exact absurd k₁ (same ▸ unkept _ _)
    · exact A.once _ _ _ _ s' k₁ k₂
  · obtain ⟨s', voice', there⟩ := A.booked l' t' c' m
    refine ⟨s', voice', ?_⟩
    rcases there with there | ⟨i', k⟩
    · rcases List.mem_cons.1 there with rfl | there
      · -- the registration is the one that the part keeps now
        cases voice.symm.trans voice'
        cases (A.distinct _).eq_of_mem m mine
        exact .inr ⟨i, keeps.2 (.inl ⟨rfl, rfl, rfl⟩)⟩
      · exact .inl there
    · refine .inr ⟨i', keeps.2 (.inr ⟨?_, k⟩)⟩
      rintro ⟨rfl, rfl⟩
      obtain ⟨part', is', keeps'⟩ := k
      cases is.symm.trans is'
      cases unsubscribed.symm.trans keeps'
  · rcases keeps.1 k with ⟨-, -, rfl⟩ | ⟨-, k⟩
    · exact (List.nodup_cons.1 A.apart).1 m
    · exact A.free s' (List.mem_cons_of_mem _ m) c' i' k
  · replace alone := follows c' ▸ alone
    rcases keeps.1 k with ⟨rfl, -, -⟩ | ⟨-, k⟩
    · exact followed alone
    · exact A.idle c' i' s' alone k

end World

end ViewBinding
