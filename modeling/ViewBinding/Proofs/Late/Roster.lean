import Mathlib.Data.List.Nodup
import Mathlib.Data.List.Perm.Basic
import ViewBinding.Proofs.Follow
import ViewBinding.Proofs.Leaf.Aside
import ViewBinding.Proofs.Leaf.Deliver

/-!
# Late — who watches an object

Somebody asks for observers of the properties of an object, also of properties that it does not have,
and subscribes hooks to them.  `Roster` is what is known from outside: the observers handed out, the
subscriptions made and those of them that are not disposed.  `w.Watched o watches` says that in the
world `w` the hooks of the watches hear of the properties of `o` and nobody else does, and
`w.Attended o P roster` that this is so of the live subscriptions of the roster.

What leaves of the object call are the hooks of the watches that hear through them, each called once
(`Watched.calls_perm`).  A batch of change records is to be told to the hooks whose subscriptions live
and whose names it records (`World.bulletin`), and these are the watches that hear through the leaves
to which a microtask owes the batch (`Takes.bulletin_eq`).
-/

namespace ViewBinding

/-- A subscription of a hook to a property. -/
structure Watch where
  subscription : Ref .subscription
  name : String
  hook : Ref .hook
deriving DecidableEq

/-- What is known to those who watch an object. -/
structure Roster where
  /-- The observers that have been asked for, with the names of their properties. -/
  handles : List (String × Leaf) := []
  made : List (Ref .subscription) := []
  /-- The subscriptions that have been made and not disposed. -/
  live : List Watch := []

/-- Whether a watch hears of its property through one of these leaves. -/
def Watch.isAmong {η : Type} (x : Watch) (w : World η) (o : Ref .object) (leaves : List Leaf) :
    Bool :=
  (w.leafAt? o x.name).any (· ∈ leaves)

/-- The hook among subscribers. -/
def Subscriber.hook? : Subscriber → Option (Ref .hook)
  | .hook h => some h
  | _ => none

namespace World

variable {η : Type} {w w' w'' : World η} {o : Ref .object} {P : String → Prop} {roster : Roster}
  {watches : List Watch}

/-! ### Changes that concern nobody -/

/-- What somebody may have done who neither writes, delivers, subscribes nor disposes: every object
has its properties, and the same subscribers hear of them. -/
structure Harmless (w w' : World η) : Prop where
  wired : w'.Wired
  contains : ∀ o, w'.objects.contains o = w.objects.contains o
  isDispatched : ∀ o, w'.isDispatched o = w.isDispatched o
  microtasks : w'.tasks.microtasks = w.tasks.microtasks
  slots : ∀ o, w'.slots o = w.slots o
  get : ∀ o n, w'.get o n = w.get o n
  place? : ∀ l v, w.place? l = some v → w'.place? l = some v
  audience : ∀ l v, w.place? l = some v → w'.audience l = w.audience l
  enrolled : ∀ s o n sub, w'.Enrolled s o n sub ↔ w.Enrolled s o n sub
  subscriptions : ∀ s c, w.subscriptions.get? s = some c → w'.subscriptions.get? s = some c

theorem Harmless.refl (h : w.Wired) : w.Harmless w :=
  ⟨h, fun _ => rfl, fun _ => rfl, rfl, fun _ => rfl, fun _ _ => rfl, fun _ _ e => e,
    fun _ _ _ => rfl, fun _ _ _ _ => Iff.rfl, fun _ _ e => e⟩

theorem Harmless.trans (h : w.Harmless w') (h' : w'.Harmless w'') : w.Harmless w'' where
  wired := h'.wired
  contains o := (h'.contains o).trans (h.contains o)
  isDispatched o := (h'.isDispatched o).trans (h.isDispatched o)
  microtasks := h'.microtasks.trans h.microtasks
  slots o := (h'.slots o).trans (h.slots o)
  get o n := (h'.get o n).trans (h.get o n)
  place? l v e := h'.place? l v (h.place? l v e)
  audience l v e := (h'.audience l v (h.place? l v e)).trans (h.audience l v e)
  enrolled s o n sub := (h'.enrolled s o n sub).trans (h.enrolled s o n sub)
  subscriptions s c e := h'.subscriptions s c (h.subscriptions s c e)

theorem Stays.harmless (h : w.Stays w') (slots : ∀ o, w'.slots o = w.slots o)
    (audience : ∀ l v, w.place? l = some v → w'.audience l = w.audience l) : w.Harmless w' where
  wired := h.wired
  contains := h.still.contains
  isDispatched o := by
    have config : w'.config = w.config := congrArg Backdrop.config h.still.backdrop
    simp only [World.isDispatched, h.still.isFrozen, config]
  microtasks := congrArg Backdrop.microtasks h.still.backdrop
  slots := slots
  get := h.still.get
  place? := h.place?
  audience := audience
  enrolled := h.enrolled_iff
  subscriptions := h.subscriptions

/-- Asking for observers is harmless. -/
theorem Grows.harmless (h : w.Grows w') (wired : w.Wired) (wired' : w'.Wired) : w.Harmless w' :=
  (Stays.of_grows wired h wired').harmless (fun _ => by simp only [slots, h.objects])
    fun l _ _ => h.audience l

/-- Changes of other things are harmless. -/
theorem Aside.harmless (h : w.Aside w') (wired : w.Wired) : w.Harmless w' where
  wired := h.wired wired
  contains _ := by rw [h.objects]
  isDispatched := h.isDispatched
  microtasks := h.microtasks
  slots _ := by simp only [World.slots, h.objects]
  get := h.get
  place? l _ e := (h.place? l).trans e
  audience l _ _ := h.audience l
  enrolled _ _ _ _ := h.enrolled
  subscriptions _ _ e := h.subscriptions ▸ e

/-! ### Watches -/

/-- The hooks of the watches hear of the properties of an object, and nobody else does. -/
structure Watched (w : World η) (o : Ref .object) (watches : List Watch) : Prop where
  wired : w.Wired
  enrolled : ∀ s n sub, w.Enrolled s o n sub ↔ ∃ h, sub = .hook h ∧ ⟨s, n, h⟩ ∈ watches
  once : (watches.map (·.subscription)).Nodup

namespace Watched

theorem harmless (W : w.Watched o watches) (h : w.Harmless w') : w'.Watched o watches where
  wired := h.wired
  enrolled s n sub := (h.enrolled s o n sub).trans (W.enrolled s n sub)
  once := W.once

theorem tunes (W : w.Watched o watches) (h : w.Tunes w') (wired : w'.Wired) :
    w'.Watched o watches where
  wired := wired
  enrolled s n sub := h.enrolled.trans (W.enrolled s n sub)
  once := W.once

/-- A watch makes its hook hear of its property. -/
theorem heard (W : w.Watched o watches) {x : Watch} (watched : x ∈ watches) :
    w.Enrolled x.subscription o x.name (.hook x.hook) :=
  (W.enrolled _ _ _).2 ⟨x.hook, rfl, watched⟩

/-- A hook has been subscribed. -/
theorem subscribe (W : w.Watched o watches) {s : Ref .subscription} {n : String} {hook : Ref .hook}
    (follows : w.Follows w' s o n (.hook hook)) :
    w'.Watched o (watches ++ [⟨s, n, hook⟩]) where
  wired := follows.wired
  enrolled s' n' sub := by
    rw [follows.enrolled_iff, W.enrolled]
    simp only [List.mem_append, List.mem_singleton, Watch.mk.injEq]
    constructor
    · rintro (⟨h, rfl, m⟩ | ⟨rfl, -, rfl, rfl⟩)
      · exact ⟨h, rfl, .inl m⟩
      · exact ⟨hook, rfl, .inr ⟨rfl, rfl, rfl⟩⟩
    · rintro ⟨h, rfl, m | ⟨rfl, rfl, rfl⟩⟩
      · exact .inl ⟨h, rfl, m⟩
      · exact .inr ⟨rfl, ⟨⟩, rfl, rfl⟩
  once := by
    rw [List.map_append, List.nodup_append]
    refine ⟨W.once, List.pairwise_singleton _ _, fun s₁ m s₂ m' same => ?_⟩
    obtain ⟨x, watched, rfl⟩ := List.mem_map.1 m
    rw [List.mem_singleton.1 m'] at same
    exact (W.heard watched).ne_of_fresh W.wired.toLocated follows.fresh same.symm

/-- Whoever a leaf of the object tells is a hook. -/
theorem exists_hook (W : w.Watched o watches) {n : String} {l : Leaf}
    (at' : w.leafAt? o n = some l) {sub : Subscriber} (m : sub ∈ w.told l) :
    ∃ h, sub = .hook h := by
  obtain ⟨t, m⟩ := mem_told.1 m
  obtain ⟨s, own, voice⟩ := W.wired.voiced o n l t sub at' m
  obtain ⟨h, is, -⟩ := (W.enrolled s n sub).1 ⟨own, l, t, voice, at', m⟩
  exact ⟨h, is⟩

end Watched

/-! ### Attendance -/

/-- An object whose changes are recorded has no watchers but those of the roster, and nothing waits
but the delivery of its records.  Properties with names in `P` hold what is written to them. -/
structure Attended (w : World η) (o : Ref .object) (P : String → Prop) (roster : Roster) : Prop where
  wired : w.Wired
  live : w.objects.contains o = true
  dispatched : w.isDispatched o = true
  tasks : ∀ task ∈ w.tasks.microtasks, task = .deliver o
  distinct : Entries.Distinct (w.slots o)
  plain : ∀ n, P n → ¬ w.IsDoubled o n
  handles : ∀ x ∈ roster.handles, w.place? x.2 = some (o, x.1)
  enrolled : ∀ s n sub, w.Enrolled s o n sub ↔ ∃ h, sub = .hook h ∧ ⟨s, n, h⟩ ∈ roster.live
  once : (roster.live.map (·.subscription)).Nodup
  made : ∀ s ∈ roster.made, s ∈ roster.live.map (·.subscription) ∨
    w.subscriptions.get? s = some ⟨none⟩

namespace Attended

theorem watched (A : w.Attended o P roster) : w.Watched o roster.live := ⟨A.wired, A.enrolled, A.once⟩

theorem harmless (A : w.Attended o P roster) (h : w.Harmless w') : w'.Attended o P roster where
  wired := h.wired
  live := (h.contains o).trans A.live
  dispatched := (h.isDispatched o).trans A.dispatched
  tasks := h.microtasks ▸ A.tasks
  distinct := h.slots o ▸ A.distinct
  plain n p e := A.plain n p ((isDoubled_of_slots (h.slots o) n).1 e)
  handles x m := h.place? _ _ (A.handles x m)
  enrolled := (A.watched.harmless h).enrolled
  once := A.once
  made s m := (A.made s m).imp_right (h.subscriptions s _)

theorem takes {rest : List Microtask} {owed : List Leaf} (A : w.Attended o P roster)
    (h : w.Takes w' rest owed) (fewer : ∀ task ∈ rest, task ∈ w.tasks.microtasks) :
    w'.Attended o P roster where
  wired := h.wired
  live := (h.contains o).trans A.live
  dispatched := (h.isDispatched o).trans A.dispatched
  tasks task m := by
    have waiting : w'.tasks.microtasks = rest := congrArg Backdrop.microtasks h.backdrop
    exact A.tasks task (fewer task (waiting ▸ m))
  distinct := h.slots o ▸ A.distinct
  plain n p e := A.plain n p (h.doubled o n e)
  handles x m := (h.place? x.2).trans (A.handles x m)
  enrolled := (A.watched.tunes h.toTunes h.wired).enrolled
  once := A.once
  made s m := (A.made s m).imp_right fun e => h.subscriptions ▸ e

end Attended

/-! ### Batches -/

/-- The records of an object that wait for their delivery. -/
def batch (w : World η) (o : Ref .object) : List ChangeRecord :=
  ((w.objects.get? o).map (·.pending)).getD []

/-- Whom the batch of an object is to be told, and what: the hooks of the live subscriptions to the
properties that it records, and what these properties are now. -/
def bulletin (w : World η) (o : Ref .object) (live : List Watch) : List (Ref .hook × Value) :=
  (live.filter fun x => (w.batch o).any (·.name = x.name)).map fun x => (x.hook, w.get o x.name)

/-- Without a delivery that waits there are no records. -/
theorem Attentive.batch_eq_nil (a : w.Attentive) (idle : Microtask.deliver o ∉ w.tasks.microtasks) :
    w.batch o = [] := by
  unfold batch
  cases e : w.objects.get? o with
  | none => rfl
  | some c =>
    refine Classical.byContradiction fun some => idle ?_
    exact (a.scheduled o c e).1 (a.pending o c e some).1

theorem bulletin_eq_nil (live : List Watch) (empty : w.batch o = []) : w.bulletin o live = [] := by
  simp [bulletin, empty]

theorem Attended.due_iff (A : w.Attended o P roster) (o' : Ref .object) (n : String) :
    w.Due o' n ↔ o' = o ∧ (w.batch o).any (·.name = n) = true := by
  constructor
  · rintro (⟨c, e, record, m, rfl⟩ | ⟨r, c, e, -, -, queued⟩)
    · have waits := (A.wired.scheduled o' c e).1 (A.wired.pending o' c e (List.ne_nil_of_mem m)).1
      cases A.tasks _ waits
      refine ⟨rfl, List.any_eq_true.2 ⟨record, ?_, decide_eq_true rfl⟩⟩
      simp only [batch, e, Option.map_some, Option.getD_some, m]
    · have waits := (A.wired.queued r c e).1 queued
      cases A.tasks _ waits
  · rintro ⟨rfl, recorded⟩
    obtain ⟨record, m, name⟩ := List.any_eq_true.1 recorded
    unfold batch at m
    cases e : w.objects.get? o' with
    | none => simp [e] at m
    | some c =>
      simp only [e, Option.map_some, Option.getD_some] at m
      exact .inl ⟨c, e, record, m, of_decide_eq_true name⟩

/-! ### What a leaf calls -/

/-- The hooks that a leaf tells, each with the value that it is told. -/
def calls (w : World η) (l : Leaf) : List (Ref .hook × Value) :=
  (w.told l).filterMap fun sub => sub.hook?.map fun h => (h, w.leafValue l)

/-- The same hooks are told in another order. -/
theorem calls_perm (w : World η) (l : Leaf) : (w.calls l).Perm
    ((w.audience l).filterMap fun q => q.2.hook?.map fun h => (h, w.leafValue l)) := by
  have told : (w.told l).Perm ((w.audience l).map (·.2)) := by
    cases l <;> first | exact .refl _ | exact (List.reverse_perm _).map _
  have := told.filterMap fun sub => sub.hook?.map fun h => (h, w.leafValue l)
  rwa [List.filterMap_map] at this

theorem Harmless.calls (h : w.Harmless w') (a : w.Attentive) {l : Leaf} {n : String}
    (place : w.place? l = some (o, n)) : w'.calls l = w.calls l := by
  have value : w'.leafValue l = w.leafValue l := by
    rw [leafValue_of_place? h.wired.toAttentive (h.place? l _ place), leafValue_of_place? a place,
      h.get]
  simp only [World.calls, told_congr (h.audience l _ place), value]

/-! ### Voices -/

/-- Two subscriptions that are heard under one registration are one. -/
theorem Registered.eq_of_voices (r : w.Registered) {s s' : Ref .subscription} {l : Leaf} {t : Token}
    (own : ¬ w.IsMoved s) (own' : ¬ w.IsMoved s') (voice : w.voice? s = some (l, t))
    (voice' : w.voice? s' = some (l, t)) : s = s' := by
  have cases : ∀ {s}, w.voice? s = some (l, t) → w.directVoice? s = some (l, t) ∨
      ∃ u t₀ s₀, w.directVoice? s = some (.placeholder u, t₀) ∧ w.movedTo? u t₀ = some s₀ ∧
        w.directVoice? s₀ = some (l, t) := by
    intro s voice
    unfold voice? at voice
    split at voice
    · cases voice
    next l₀ t₀ direct =>
      unfold throughSuccessor? at voice
      split at voice
      next u =>
        split at voice
        · exact .inl (direct.trans voice)
        · split at voice
          · cases voice
          next s₀ moved => exact .inr ⟨u, t₀, s₀, direct, moved, voice⟩
      · exact .inl (direct.trans voice)
  rcases cases voice with direct | ⟨u, t₀, s₀, direct, moved, behind⟩
  · exact (r.eq_of_voice? direct own voice').symm
  · rcases cases voice' with direct' | ⟨u', t₀', s₀', direct', moved', behind'⟩
    · exact r.eq_of_voice? direct' own' voice
    · cases r.eq_of_directVoice? behind behind'
      obtain ⟨rfl, rfl⟩ := r.movedAlone _ _ _ _ _ moved moved'
      exact r.eq_of_directVoice? direct direct'

/-- A subscription that has been disposed is there, and stands for nothing. -/
theorem Drops.get?_self {s : Ref .subscription} (h : w.Drops w' s)
    (there : w.subscriptions.get? s ≠ none) : w'.subscriptions.get? s = some ⟨none⟩ := by
  have gone := h.gone
  have there' := h.there s
  rw [Option.isSome_iff_ne_none.2 there, Option.isSome_iff_exists] at there'
  obtain ⟨⟨d⟩, e⟩ := there'
  obtain rfl : d = none := by simpa [disposal?, e] using gone
  exact e

/-! ### Leaves and those who hear through them -/

section
variable {leaves : List Leaf}

/-- The registrations at some leaves, with the voices that they have. -/
def registrations (w : World η) (leaves : List Leaf) : List (Option (Leaf × Token) × Subscriber) :=
  leaves.flatMap fun l => (w.audience l).map fun q => (some (l, q.1), q.2)

theorem Registered.nodup_registrations (r : w.Registered) (once : leaves.Nodup) :
    (w.registrations leaves).Nodup := by
  refine List.nodup_flatMap.2 ⟨fun l _ => ?_, once.imp fun other x m m' => other ?_⟩
  · refine List.Nodup.map (fun q q' same => ?_) ((r.sorted l).imp fun lt same => ?_)
    · simp only [Prod.mk.injEq, Option.some.injEq, true_and] at same
      exact Prod.ext same.1 same.2
    · exact Nat.lt_irrefl _ (same ▸ lt)
  · obtain ⟨q, -, rfl⟩ := List.mem_map.1 m
    obtain ⟨q', -, same⟩ := List.mem_map.1 m'
    exact (Prod.mk.inj (Option.some.inj (Prod.mk.inj same).1)).1.symm

theorem isAmong_of_leafAt? {x : Watch} {l : Leaf} (at' : w.leafAt? o x.name = some l) :
    x.isAmong w o leaves = true ↔ l ∈ leaves := by
  simp [Watch.isAmong, at']

namespace Watched

/-- The registrations at leaves of the object are those of the watches that hear through them. -/
theorem registrations_perm (W : w.Watched o watches) (once : leaves.Nodup)
    (places : ∀ l ∈ leaves, ∃ n, w.leafAt? o n = some l) :
    (w.registrations leaves).Perm ((watches.filter (·.isAmong w o leaves)).map fun x =>
      (w.voice? x.subscription, .hook x.hook)) := by
  have distinct : ((watches.filter (·.isAmong w o leaves)).map fun x =>
      (w.voice? x.subscription, Subscriber.hook x.hook)).Nodup := by
    refine List.Nodup.map_on (fun x m x' m' same => ?_) ((List.Nodup.of_map _ W.once).filter _)
    have m := List.mem_of_mem_filter m
    have m' := List.mem_of_mem_filter m'
    obtain ⟨own, l, t, voice, -⟩ := W.heard m
    have voice' := (Prod.mk.inj same).1.symm.trans voice
    exact List.inj_on_of_nodup_map W.once m m'
      (W.wired.eq_of_voices own (W.heard m').own voice voice')
  refine (List.perm_ext_iff_of_nodup (W.wired.nodup_registrations once) distinct).2 ?_
  rintro ⟨v, sub⟩
  simp only [registrations, List.mem_flatMap, List.mem_map, List.mem_filter, Prod.mk.injEq,
    Prod.exists]
  constructor
  · rintro ⟨l, among, t, sub, m, rfl, rfl⟩
    obtain ⟨n, at'⟩ := places l among
    obtain ⟨s, own, voice⟩ := W.wired.voiced o n l t sub at' m
    obtain ⟨hook, rfl, watched⟩ := (W.enrolled s n sub).1 ⟨own, l, t, voice, at', m⟩
    exact ⟨⟨s, n, hook⟩, ⟨watched, (isAmong_of_leafAt? at').2 among⟩, voice, rfl⟩
  · rintro ⟨x, ⟨watched, among⟩, rfl, rfl⟩
    obtain ⟨-, l, t, voice, at', m⟩ := W.heard watched
    exact ⟨l, (isAmong_of_leafAt? at').1 among, t, _, m, voice.symm, rfl⟩

/-- **The hooks that leaves of the object call** are those of the watches that hear through them, each
with the value of its property. -/
theorem calls_perm (W : w.Watched o watches) (once : leaves.Nodup)
    (places : ∀ l ∈ leaves, ∃ n, w.leafAt? o n = some l) :
    (leaves.flatMap w.calls).Perm
      ((watches.filter (·.isAmong w o leaves)).map fun x => (x.hook, w.get o x.name)) := by
  -- a registration is a call of its hook with the value of its leaf
  let call (q : Option (Leaf × Token) × Subscriber) : Option (Ref .hook × Value) :=
    q.1.bind fun v => q.2.hook?.map fun h => (h, w.leafValue v.1)
  have called : (leaves.flatMap w.calls).Perm ((w.registrations leaves).filterMap call) := by
    rw [registrations, List.filterMap_flatMap]
    refine List.Perm.flatMap_left _ fun l _ => ?_
    rw [List.filterMap_map]
    exact w.calls_perm l
  have heard : ((watches.filter (·.isAmong w o leaves)).map fun x =>
      (w.voice? x.subscription, Subscriber.hook x.hook)).filterMap call =
      (watches.filter (·.isAmong w o leaves)).map fun x => (x.hook, w.get o x.name) := by
    rw [List.filterMap_map, ← List.filterMap_eq_map]
    refine List.filterMap_congr fun x m => ?_
    obtain ⟨-, l, t, voice, at', -⟩ := W.heard (List.mem_of_mem_filter m)
    have value := leafValue_of_place? W.wired.toAttentive (W.wired.current o x.name l at').1
    simp only [call, Function.comp_apply, voice, Option.bind_some, Subscriber.hook?, Option.map_some,
      value]
  exact heard ▸ called.trans ((W.registrations_perm once places).filterMap call)

end Watched

end

/-! ### What a microtask owes -/

section
variable {rest : List Microtask} {owed : List Leaf}

/-- The watches that hear through the leaves to which a microtask owes something are those of the
properties that it takes. -/
theorem Takes.isAmong_iff (h : w.Takes w' rest owed) (W : w.Watched o watches) {x : Watch}
    (watched : x ∈ watches) :
    x.isAmong w o owed = true ↔ w.Due o x.name ∧ ¬ w'.Due o x.name := by
  obtain ⟨-, l, t, -, at', m⟩ := W.heard watched
  rw [isAmong_of_leafAt? at']
  constructor
  · intro owes
    obtain ⟨o', n, at'', due⟩ := h.handed l owes
    -- a leaf has one place
    have place := (W.wired.current o x.name l at').1.symm.trans (W.wired.current o' n l at'').1
    obtain ⟨rfl, rfl⟩ := Prod.mk.inj (Option.some.inj place)
    exact ⟨due, h.taken l owes o x.name at'⟩
  · rintro ⟨due, taken⟩
    exact h.owes o x.name l due taken at' (List.ne_nil_of_mem m)

/-- **The hooks called for what is owed**, where nothing is due at other objects. -/
theorem Takes.calls_perm (h : w.Takes w' rest owed) (W : w.Watched o watches)
    (alone : ∀ o' n, w.Due o' n → o' = o) : (owed.flatMap w'.calls).Perm
      ((watches.filter (·.isAmong w o owed)).map fun x => (x.hook, w.get o x.name)) := by
  have places : ∀ l ∈ owed, ∃ n, w.leafAt? o n = some l := fun l m => by
    obtain ⟨o', n, at', due⟩ := h.handed l m
    exact ⟨n, alone o' n due ▸ at'⟩
  have same : owed.flatMap w'.calls = owed.flatMap w.calls := List.flatMap_congr fun l m => by
    obtain ⟨n, at'⟩ := places l m
    have place := (W.wired.current o n l at').1
    have value : w'.leafValue l = w.leafValue l := by
      rw [leafValue_of_place? h.wired.toAttentive ((h.place? l).trans place),
        leafValue_of_place? W.wired.toAttentive place, h.get]
    simp only [calls, told_congr (h.audience l), value]
  exact same ▸ W.calls_perm h.once places

/-- **What is owed is what the batch is to be told.** -/
theorem Takes.bulletin_eq (h : w.Takes w' rest owed) (A : w.Attended o P roster)
    (tasks : w.tasks.microtasks = .deliver o :: rest) :
    ((roster.live.filter (·.isAmong w o owed)).map fun x => (x.hook, w.get o x.name)) =
      w.bulletin o roster.live := by
  have A' := A.takes h fun task m => tasks ▸ List.mem_cons_of_mem _ m
  have waiting : w'.tasks.microtasks = rest := congrArg Backdrop.microtasks h.backdrop
  have idle : Microtask.deliver o ∉ rest := (List.nodup_cons.1 (tasks ▸ A.wired.tasks)).1
  rw [bulletin]
  refine congrArg _ (List.filter_congr fun x m => Bool.eq_iff_iff.2 ?_)
  rw [h.isAmong_iff A.watched m, A.due_iff, A'.due_iff, A'.wired.batch_eq_nil (waiting ▸ idle)]
  simp

end

end World

end ViewBinding
