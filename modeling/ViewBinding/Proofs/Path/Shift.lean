import ViewBinding.Proofs.Leaf.Aside
import ViewBinding.Proofs.Leaf.Dispose
import ViewBinding.Proofs.Leaf.Placeholder

/-!
# Path — moving some subscribers

A path moves its subscription from one property to another.  While it does, everybody else hears of
what they heard before, in the order of before (`Shifts`), and no value changes.
-/

namespace ViewBinding

namespace World

variable {η : Type} {w w' w'' : World η} {moved moved' : Subscriber → Prop}

/-- Who is registered with a placeholder for a property hears of the property. -/
def Listed (w : World η) (u : Ref .placeholder) (o : Ref .object) (n : String) : Prop :=
  ∀ t sub, (t, sub) ∈ w.audience (.placeholder u) →
    ∃ s, w.Enrolled s o n sub ∧ w.directVoice? s = some (.placeholder u, t)

/-- Whoever is not `moved` hears in `w'` of what they heard in `w`. -/
structure Carries (w w' : World η) (moved : Subscriber → Prop) : Prop where
  wired : w'.Wired
  contains : ∀ o, w'.objects.contains o = w.objects.contains o
  has : ∀ o n, w.has o n = true → w'.has o n = true
  bindings : w'.bindings = w.bindings
  attached : w'.attached = w.attached
  place? : ∀ l v, w.place? l = some v → w'.place? l = some v
  enrolled : ∀ s o n sub, ¬ moved sub → (w'.Enrolled s o n sub ↔ w.Enrolled s o n sub)
  direct : ∀ s o n sub, ¬ moved sub → w.Enrolled s o n sub →
    w'.directVoice? s = w.directVoice? s
  before : ∀ s s' o o' n n' sub sub', ¬ moved sub → ¬ moved sub' → w.Enrolled s o n sub →
    w.Enrolled s' o' n' sub' → w.Before s s' → w'.Before s s'
  registered : ∀ s o n sub l t, ¬ moved sub → w.Enrolled s o n sub →
    w.directVoice? s = some (l, t) → (t, sub) ∈ w.audience l → (t, sub) ∈ w'.audience l
  listed : ∀ u o n, w.place? (.placeholder u) = some (o, n) → w.has o n = true →
    w.Listed u o n → w'.Listed u o n

/-- `w'` differs from `w` in what the subscribers that are `moved` hear, and in nothing that is due
or has a value. -/
structure Shifts (w w' : World η) (moved : Subscriber → Prop) : Prop
    extends Carries w w' moved where
  get : ∀ o n, w'.get o n = w.get o n
  isFrozen : ∀ o, w'.isFrozen o = w.isFrozen o
  due : ∀ o n, w'.Due o n ↔ w.Due o n
  doubled : ∀ o n, w'.IsDoubled o n → w.IsDoubled o n
  config : w'.config = w.config
  microtasks : w'.tasks.microtasks = w.tasks.microtasks
  flushing : w'.tasks.flushing = w.tasks.flushing

theorem Carries.trans (h : w.Carries w' moved) (h' : w'.Carries w'' moved) :
    w.Carries w'' moved where
  wired := h'.wired
  contains o := (h'.contains o).trans (h.contains o)
  has o n e := h'.has o n (h.has o n e)
  bindings := h'.bindings.trans h.bindings
  attached := h'.attached.trans h.attached
  place? l v e := h'.place? l v (h.place? l v e)
  enrolled s o n sub stays := (h'.enrolled s o n sub stays).trans (h.enrolled s o n sub stays)
  direct s o n sub stays e :=
    (h'.direct s o n sub stays ((h.enrolled s o n sub stays).2 e)).trans (h.direct s o n sub stays e)
  before s s' o o' n n' sub sub' stays stays' e e' b :=
    h'.before s s' o o' n n' sub sub' stays stays' ((h.enrolled s o n sub stays).2 e)
      ((h.enrolled s' o' n' sub' stays').2 e')
      (h.before s s' o o' n n' sub sub' stays stays' e e' b)
  registered s o n sub l t stays e direct m :=
    h'.registered s o n sub l t stays ((h.enrolled s o n sub stays).2 e)
      ((h.direct s o n sub stays e).trans direct) (h.registered s o n sub l t stays e direct m)
  listed u o n place has listed :=
    h'.listed u o n (h.place? _ _ place) (h.has o n has) (h.listed u o n place has listed)

theorem Shifts.trans (h : w.Shifts w' moved) (h' : w'.Shifts w'' moved) : w.Shifts w'' moved where
  toCarries := h.toCarries.trans h'.toCarries
  get o n := (h'.get o n).trans (h.get o n)
  isFrozen o := (h'.isFrozen o).trans (h.isFrozen o)
  due o n := (h'.due o n).trans (h.due o n)
  doubled o n e := h.doubled o n (h'.doubled o n e)
  config := h'.config.trans h.config
  microtasks := h'.microtasks.trans h.microtasks
  flushing := h'.flushing.trans h.flushing

/-- More subscribers may move. -/
theorem Shifts.mono (h : w.Shifts w' moved) (weaker : ∀ sub, moved sub → moved' sub) :
    w.Shifts w' moved' := by
  have stays : ∀ {sub}, ¬ moved' sub → ¬ moved sub := fun no is => no (weaker _ is)
  exact { h with
    enrolled := fun s o n sub no => h.enrolled s o n sub (stays no)
    direct := fun s o n sub no => h.direct s o n sub (stays no)
    before := fun s s' o o' n n' sub sub' no no' =>
      h.before s s' o o' n n' sub sub' (stays no) (stays no')
    registered := fun s o n sub l t no => h.registered s o n sub l t (stays no) }

theorem Keeps.directVoice? (h : w.Keeps w') {s : Ref .subscription} {v : Leaf × Token}
    (direct : w.directVoice? s = some v) : w'.directVoice? s = some v := by
  have disposal := disposal?_of_directVoice? (l := v.1) (t := v.2) direct
  cases get : w.subscriptions.get? s with
  | none => simp [disposal?, get] at disposal
  | some c =>
    simpa only [World.directVoice?, disposal?, h.subscriptions s c get, get] using direct

/-- Who is heard has a registration of its own. -/
theorem Enrolled.exists_directVoice? {s : Ref .subscription} {o : Ref .object} {n : String}
    {sub : Subscriber} (e : w.Enrolled s o n sub) : ∃ v, w.directVoice? s = some v := by
  obtain ⟨-, l, t, voice, -⟩ := e
  unfold voice? at voice
  split at voice
  · cases voice
  next direct => exact ⟨_, direct⟩

theorem Keeps.directVoice?_of_enrolled (h : w.Keeps w') {s : Ref .subscription} {o : Ref .object}
    {n : String} {sub : Subscriber} (e : w.Enrolled s o n sub) :
    w'.directVoice? s = w.directVoice? s := by
  obtain ⟨v, direct⟩ := e.exists_directVoice?
  rw [direct, h.directVoice? direct]

/-- What keeps every enrolment moves nobody. -/
theorem Stays.shifts (h : w.Stays w') : w.Shifts w' moved where
  wired := h.wired
  get := h.still.get
  contains := h.still.contains
  isFrozen := h.still.isFrozen
  has o n e := (h.has o n).trans e
  due := h.still.due
  doubled := h.still.doubled
  config := congrArg Backdrop.config h.still.backdrop
  microtasks := congrArg Backdrop.microtasks h.still.backdrop
  flushing := congrArg Backdrop.flushing h.still.backdrop
  bindings := congrArg Backdrop.bindings h.still.backdrop
  attached := congrArg Backdrop.attached h.still.backdrop
  place? := h.place?
  enrolled s o n sub _ := h.enrolled_iff s o n sub
  direct _ _ _ _ _ e := h.directVoice?_of_enrolled e
  before s s' _ _ _ _ _ _ _ _ _ _ b := h.before s s' b
  registered _ _ _ sub l t _ _ _ m := h.heard l t sub m
  listed u o n place _ listed t sub m := by
    rw [h.parked u _ place] at m
    obtain ⟨s, e, direct⟩ := listed t sub m
    exact ⟨s, (h.enrolled_iff s o n sub).2 e, h.directVoice? direct⟩

/-- A subscription more moves its subscriber. -/
theorem Follows.shifts {s : Ref .subscription} {o : Ref .object} {n : String} {sub : Subscriber}
    (h : w.Follows w' s o n sub) (is : moved sub) : w.Shifts w' moved where
  wired := h.wired
  get := h.still.get
  contains := h.still.contains
  isFrozen := h.still.isFrozen
  has := h.has
  due := h.still.due
  doubled := h.still.doubled
  config := congrArg Backdrop.config h.still.backdrop
  microtasks := congrArg Backdrop.microtasks h.still.backdrop
  flushing := congrArg Backdrop.flushing h.still.backdrop
  bindings := congrArg Backdrop.bindings h.still.backdrop
  attached := congrArg Backdrop.attached h.still.backdrop
  place? := h.place?
  enrolled s' o' n' sub' stays := by
    rw [h.enrolled_iff]
    refine ⟨fun e => e.resolve_right ?_, .inl⟩
    rintro ⟨-, -, -, rfl⟩
    exact stays is
  direct _ _ _ _ _ e := h.directVoice?_of_enrolled e
  before s s' _ _ _ _ _ _ _ _ _ _ b := h.before s s' b
  registered _ _ _ sub l t _ _ _ m := h.heard l t sub m
  listed u o' n' place has listed t sub' m := by
    rw [h.parked u o' n' place has] at m
    obtain ⟨s', e, direct⟩ := listed t sub' m
    exact ⟨s', (h.enrolled_iff s' o' n' sub').2 (.inl e), h.directVoice? direct⟩

/-- A subscription less moves its subscriber. -/
theorem Drops.shifts {s : Ref .subscription} (h : w.Drops w' s)
    (is : ∀ o n sub, w.Enrolled s o n sub → moved sub) : w.Shifts w' moved := by
  have other : ∀ {s' o n sub}, ¬ moved sub → w.Enrolled s' o n sub → s' ≠ s := by
    rintro s' o n sub stays e rfl
    exact stays (is o n sub e)
  have direct : ∀ {s'}, ¬ w.IsMoved s' → s' ≠ s → w'.directVoice? s' = w.directVoice? s' :=
    fun own ne => by simp only [directVoice?, h.kept _ own ne]
  exact {
    wired := h.wired
    get := h.still.get
    contains := h.still.contains
    isFrozen := h.still.isFrozen
    has := fun o n e => (h.has o n).trans e
    due := h.still.due
    doubled := h.still.doubled
    config := congrArg Backdrop.config h.still.backdrop
    microtasks := congrArg Backdrop.microtasks h.still.backdrop
    flushing := congrArg Backdrop.flushing h.still.backdrop
    bindings := congrArg Backdrop.bindings h.still.backdrop
    attached := congrArg Backdrop.attached h.still.backdrop
    place? := fun l v e => (h.place? l).trans e
    enrolled := fun s' o n sub stays => by
      rw [h.enrolled_iff]
      exact ⟨And.left, fun e => ⟨e, other stays e⟩⟩
    direct := fun s' o n sub stays e => direct e.own (other stays e)
    before := fun s₁ s₂ o o' n n' sub sub' stays stays' e e' b =>
      h.before s₁ s₂ e.own e'.own (other stays e) (other stays' e') b
    registered := fun s' o n sub l t stays e direct m =>
      h.registered s' e.own (other stays e) l t sub direct m
    listed := fun u o n _ _ listed t sub m => by
      obtain ⟨s', e, direct'⟩ := listed t sub (h.audience _ _ m)
      have ne : s' ≠ s := by
        rintro rfl
        exact h.heard _ t direct' sub m
      exact ⟨s', (h.enrolled_iff s' o n sub).2 ⟨e, ne⟩, (direct e.own ne).trans direct'⟩ }

/-- A change of values moves nobody. -/
theorem Tunes.carries (h : w.Tunes w') (wired : w'.Wired)
    (has : ∀ o n, w.has o n = true → w'.has o n = true) (bindings : w'.bindings = w.bindings)
    (attached : w'.attached = w.attached) : w.Carries w' moved where
  wired := wired
  contains := h.contains
  has := has
  bindings := bindings
  attached := attached
  place? l v e := (h.place? l).trans e
  enrolled _ _ _ _ _ := h.enrolled
  direct s _ _ _ _ _ := by simp only [directVoice?, h.disposal?]
  before s s' _ _ _ _ _ _ _ _ _ _ b := by simpa only [Before, h.voice?, h.audience] using b
  registered _ _ _ _ l _ _ _ _ m := (h.audience l).symm ▸ m
  listed u o n _ _ listed t sub m := by
    obtain ⟨s, e, direct⟩ := listed t sub (h.audience (.placeholder u) ▸ m)
    exact ⟨s, h.enrolled.2 e, by simpa only [directVoice?, h.disposal?] using direct⟩

/-- What spares the properties of objects leaves everybody where they hear. -/
theorem Spares.carries (h : w.Spares w') (bindings : w'.bindings = w.bindings)
    (attached : w'.attached = w.attached) : w.Carries w' moved := by
  have direct : ∀ {s v}, w.directVoice? s = some v → w'.directVoice? s = some v := by
    intro s v direct
    have disposal := disposal?_of_directVoice? (l := v.1) (t := v.2) direct
    cases get : w.subscriptions.get? s with
    | none => simp [disposal?, get] at disposal
    | some c =>
      simpa only [World.directVoice?, disposal?, h.subscriptions s c get, get] using direct
  exact {
    wired := h.wired
    contains := h.contains
    has := fun o n e => (h.has o n).trans e
    bindings
    attached
    place? := fun l v e => (h.place? l).trans e
    enrolled := fun s o n sub _ => h.enrolled s o n sub
    direct := fun s o n sub _ e => by
      obtain ⟨v, is⟩ := e.exists_directVoice?
      rw [is, direct is]
    before := fun s s' _ _ _ _ _ _ _ _ _ _ b => h.before s s' b
    registered := fun _ _ _ _ l _ _ _ _ m => (h.audience l).symm ▸ m
    listed := fun u o n _ _ listed t sub m => by
      obtain ⟨s, e, is⟩ := listed t sub (h.audience (.placeholder u) ▸ m)
      exact ⟨s, (h.enrolled s o n sub).2 e, direct is⟩ }

/-- What spares the properties of objects moves nobody. -/
theorem Spares.shifts (h : w.Spares w') (bindings : w'.bindings = w.bindings)
    (attached : w'.attached = w.attached) (flushing : w'.tasks.flushing = w.tasks.flushing) :
    w.Shifts w' moved where
  toCarries := h.carries bindings attached
  get := h.get
  isFrozen := h.isFrozen
  due := h.due
  doubled o n := (h.doubled o n).1
  config := h.config
  microtasks := h.microtasks
  flushing := flushing

/-- A change of other things moves nobody. -/
theorem Aside.shifts (h : w.Aside w') (wired : w.Wired) (bindings : w'.bindings = w.bindings)
    (attached : w'.attached = w.attached) (flushing : w'.tasks.flushing = w.tasks.flushing) :
    w.Shifts w' moved :=
  (h.spares wired).shifts bindings attached flushing

end World

end ViewBinding
