import ViewBinding.Proofs.Leaf.Aside

/-!
# Leaf — one registration fewer

Disposing a subscription with the leaf of a property ends the enrolment of its subscriber and
nothing else (`dispose_spec`).  A subscription with a placeholder that has a successor is disposed
in two steps: its own registration goes first, and then the one that the placeholder made for it.
Each step is one registration fewer (`Quits`).  Where a subscription with something else ends, nobody
hears less (`Drops.of_foreign`).
-/

namespace ViewBinding

/-- What one sees of a trapping observer apart from who is registered with it. -/
def SetterCell.core (c : SetterCell) : Ref .object × String × Bool × Bool × Bool × Value :=
  (c.object, c.property, c.observing, c.queued, c.refused, c.current)

namespace World

variable {η : Type} {w w' w'' : World η}

/-- `w'` is `w` without the subscription `s` and its registration at the leaf `l`. -/
structure Quits (w w' : World η) (s : Ref .subscription) (l : Leaf) (t : Token) : Prop
    extends Aligned w w' where
  audience : ∀ l', w'.audience l' =
    if l' = l then (w.audience l).filter (·.1 ≠ t) else w.audience l'
  movedTo? : ∀ u t', w'.movedTo? u t' =
    if l = .placeholder u ∧ t' = t then none else w.movedTo? u t'
  disposal? : ∀ s', w'.disposal? s' = if s' = s then none else w.disposal? s'
  there : ∀ s', (w'.subscriptions.get? s').isSome = (w.subscriptions.get? s').isSome
  nextToken : w'.nextToken = w.nextToken

/-- Who is heard under the registration of a subscription is this subscription. -/
theorem Registered.eq_of_voice? (r : w.Registered) {s s' : Ref .subscription} {l : Leaf} {t : Token}
    (direct : w.directVoice? s = some (l, t)) (own : ¬ w.IsMoved s)
    (voice : w.voice? s' = some (l, t)) : s' = s := by
  unfold voice? at voice
  split at voice
  · cases voice
  next l' t' direct' =>
    unfold throughSuccessor? at voice
    split at voice
    · split at voice
      · cases voice
        exact r.eq_of_directVoice? direct' direct
      · split at voice
        · cases voice
        next s'' moved =>
          have same := r.eq_of_directVoice? voice direct
          exact absurd ⟨_, _, same ▸ moved⟩ own
    · cases voice
      exact r.eq_of_directVoice? direct' direct

namespace Quits

variable {s s₁ s₂ : Ref .subscription} {l : Leaf} {t : Token}

theorem directVoice? (h : w.Quits w' s l t) (s' : Ref .subscription) :
    w'.directVoice? s' = if s' = s then none else w.directVoice? s' := by
  by_cases same : s' = s <;> simp only [World.directVoice?, h.disposal?, same, if_true, if_false]

theorem of_isMoved (h : w.Quits w' s l t) (m : w'.IsMoved s₁) : w.IsMoved s₁ := by
  obtain ⟨u, t', e⟩ := m
  rw [h.movedTo?] at e
  split at e
  · cases e
  · exact ⟨u, t', e⟩

/-- Other subscriptions are heard where they were. -/
theorem voice?_of_ne (h : w.Quits w' s l t) (r : w.Registered)
    (direct : w.directVoice? s = some (l, t)) (own : ¬ w.IsMoved s) (ne : s₁ ≠ s) :
    w'.voice? s₁ = w.voice? s₁ := by
  simp only [World.voice?, h.directVoice?, if_neg ne, throughSuccessor?, h.successor?, h.movedTo?]
  cases e : w.directVoice? s₁ with
  | none => rfl
  | some v =>
    obtain ⟨l', t'⟩ := v
    cases l' with
    | placeholder u =>
        have other : ¬ (l = .placeholder u ∧ t' = t) := by
          rintro ⟨rfl, rfl⟩
          exact ne (r.eq_of_directVoice? e direct)
        simp only [if_neg other]
        cases w.successor? (.placeholder u) with
        | none => rfl
        | some p =>
          cases moved : w.movedTo? u t' with
          | none => rfl
          | some s' =>
            have : s' ≠ s := by
              rintro rfl
              exact own ⟨u, t', moved⟩
            simp only [if_neg this]
    | _ => rfl

/-- The subscription is not heard any more. -/
theorem voice?_self (h : w.Quits w' s l t) : w'.voice? s = none := by
  simp only [World.voice?, h.directVoice?, if_true]

/-- Registrations of others are still there. -/
theorem mem_audience (h : w.Quits w' s l t) (r : w.Registered)
    (direct : w.directVoice? s = some (l, t)) (own : ¬ w.IsMoved s) (ne : s₁ ≠ s) {l' : Leaf}
    {t' : Token} {sub : Subscriber} (voice : w.voice? s₁ = some (l', t'))
    (m : (t', sub) ∈ w.audience l') : (t', sub) ∈ w'.audience l' := by
  rw [h.audience]
  split
  next same =>
    subst same
    refine List.mem_filter.2 ⟨m, decide_eq_true fun same => ?_⟩
    obtain rfl : t' = t := same
    exact ne (r.eq_of_voice? direct own voice)
  · exact m

theorem audience_subset (h : w.Quits w' s l t) {l' : Leaf} {q : Token × Subscriber}
    (m : q ∈ w'.audience l') : q ∈ w.audience l' := by
  rw [h.audience] at m
  split at m
  next same => exact same ▸ (List.mem_filter.1 m).1
  · exact m

/-- Registrations that others made are still there. -/
theorem mem_audience_of_direct (h : w.Quits w' s l t) (r : w.Registered)
    (direct : w.directVoice? s = some (l, t)) (ne : s₁ ≠ s) {l' : Leaf} {t' : Token}
    {sub : Subscriber} (direct' : w.directVoice? s₁ = some (l', t'))
    (m : (t', sub) ∈ w.audience l') : (t', sub) ∈ w'.audience l' := by
  rw [h.audience]
  split
  next same =>
    subst same
    refine List.mem_filter.2 ⟨m, decide_eq_true fun same => ?_⟩
    obtain rfl : t' = t := same
    exact ne (r.eq_of_directVoice? direct' direct)
  · exact m

theorem registered (h : w.Quits w' s l t) (r : w.Registered)
    (direct : w.directVoice? s = some (l, t)) (own : ¬ w.IsMoved s) : w'.Registered where
  issued s' ob t' e := by
    rw [h.disposal?] at e
    split at e
    · cases e
    · exact h.nextToken ▸ r.issued s' ob t' e
  alone s₁ s₂ ob ob' t' e e' := by
    rw [h.disposal?] at e e'
    split at e
    · cases e
    · split at e'
      · cases e'
      · exact r.alone s₁ s₂ ob ob' t' e e'
  sorted l' := by
    rw [h.audience]
    split
    · exact (r.sorted l).filter _
    · exact r.sorted l'
  heard l' t' sub m := h.nextToken ▸ r.heard l' t' sub (h.audience_subset m)
  unmoved u t' e := by
    rw [h.movedTo?]
    split
    · rfl
    · exact r.unmoved u t' (h.successor? _ ▸ e)
  moved u t' s' e := by
    rw [h.movedTo?] at e
    split at e
    · cases e
    · exact (h.there s').trans (r.moved u t' s' e)
  movedKind u t₁ s' d e v := by
    rw [h.movedTo?] at e
    rw [h.disposal?] at v
    split at e
    · cases e
    · split at v
      · cases v
      · exact r.movedKind u t₁ s' d e v
  movedAlone u u' t₁ t₂ s' e e' := by
    rw [h.movedTo?] at e e'
    split at e
    · cases e
    · split at e'
      · cases e'
      · exact r.movedAlone u u' t₁ t₂ s' e e'
  voiced o n l' t' sub at' m := by
    rw [h.leafAt?] at at'
    obtain ⟨s₁, own₁, voice⟩ := r.voiced o n l' t' sub at' (h.audience_subset m)
    by_cases same : s₁ = s
    · -- the registration was made for a parked subscriber, and is on its own now
      subst same
      simp only [World.voice?, direct] at voice
      unfold throughSuccessor? at voice
      split at voice
      next u =>
        split at voice
        · cases voice
          rw [h.audience, if_pos rfl] at m
          exact absurd rfl (of_decide_eq_true (List.mem_filter.1 m).2)
        · split at voice
          · cases voice
          next s₂ moved =>
            have ne : s₂ ≠ s₁ := by
              rintro rfl
              exact own ⟨_, _, moved⟩
            have direct₂ : w'.directVoice? s₂ = some (l', t') := by
              rw [h.directVoice?, if_neg ne, voice]
            refine ⟨s₂, ?_, ?_⟩
            · rintro ⟨u', t'', e⟩
              rw [h.movedTo?] at e
              split at e
              · cases e
              next other =>
                obtain ⟨rfl, rfl⟩ := r.movedAlone _ _ _ _ _ e moved
                exact other ⟨rfl, rfl⟩
            · obtain ⟨p, rfl⟩ := r.movedDirect moved voice
              simp only [World.voice?, direct₂, throughSuccessor?]
      · cases voice
        rw [h.audience, if_pos rfl] at m
        exact absurd rfl (of_decide_eq_true (List.mem_filter.1 m).2)
    · exact ⟨s₁, fun m => own₁ (h.of_isMoved m), (h.voice?_of_ne r direct own same).trans voice⟩

/-- Others stay enrolled. -/
theorem kept (h : w.Quits w' s l t) (r : w.Registered) (direct : w.directVoice? s = some (l, t))
    (own : ¬ w.IsMoved s) (ne : s₁ ≠ s) {o : Ref .object} {n : String} {sub : Subscriber}
    (e : w.Enrolled s₁ o n sub) : w'.Enrolled s₁ o n sub := by
  obtain ⟨own₁, l', t', voice, at', m⟩ := e
  exact ⟨fun m => own₁ (h.of_isMoved m), l', t', (h.voice?_of_ne r direct own ne).trans voice,
    (h.leafAt? o n).trans at', h.mem_audience r direct own ne voice m⟩

/-- Who is enrolled was enrolled, or its registration had been made for the subscription. -/
theorem of_enrolled (h : w.Quits w' s l t) (r : w.Registered)
    (direct : w.directVoice? s = some (l, t)) (own : ¬ w.IsMoved s) {o : Ref .object} {n : String}
    {sub : Subscriber} (e : w'.Enrolled s₁ o n sub) :
    s₁ ≠ s ∧ (w.Enrolled s₁ o n sub ∨ ∃ u, l = .placeholder u ∧ w.movedTo? u t = some s₁) := by
  obtain ⟨own₁, l', t', voice, at', m⟩ := e
  have ne : s₁ ≠ s := by
    rintro rfl
    rw [h.voice?_self] at voice
    cases voice
  refine ⟨ne, ?_⟩
  rw [h.voice?_of_ne r direct own ne] at voice
  by_cases moved : w.IsMoved s₁
  · obtain ⟨u, t'', e⟩ := moved
    by_cases own₂ : l = .placeholder u ∧ t'' = t
    · exact .inr ⟨u, own₂.1, own₂.2 ▸ e⟩
    · exact absurd ⟨u, t'', by rw [h.movedTo?, if_neg own₂, e]⟩ own₁
  · exact .inl ⟨moved, l', t', voice, h.leafAt? o n ▸ at', h.audience_subset m⟩

theorem before (h : w.Quits w' s l t) (r : w.Registered) (direct : w.directVoice? s = some (l, t))
    (own : ¬ w.IsMoved s) (ne₁ : s₁ ≠ s) (ne₂ : s₂ ≠ s) (b : w.Before s₁ s₂) :
    w'.Before s₁ s₂ := by
  obtain ⟨l', t₁, t₂, sub₁, sub₂, v₁, v₂, m₁, m₂, lt⟩ := b
  exact ⟨l', t₁, t₂, sub₁, sub₂, (h.voice?_of_ne r direct own ne₁).trans v₁,
    (h.voice?_of_ne r direct own ne₂).trans v₂, h.mem_audience r direct own ne₁ v₁ m₁,
    h.mem_audience r direct own ne₂ v₂ m₂, lt⟩

end Quits

/-! ### Taking back one registration -/

section
variable {s : Ref .subscription} {l : Leaf} {t : Token}

/-- `w'` has the objects and dispatchers of `w`, and traps that differ in their registrations. -/
structure Rests (w w' : World η) : Prop where
  objects : w'.objects = w.objects
  dispatchers : w'.dispatchers = w.dispatchers
  setters : ∀ r, (w'.setters.get? r).map SetterCell.core = (w.setters.get? r).map SetterCell.core
  backdrop : w'.backdrop = w.backdrop

namespace Rests

theorem setter (h : w.Rests w') {r : Ref .setter} {c : SetterCell}
    (e : w.setters.get? r = some c) :
    ∃ c', w'.setters.get? r = some c' ∧ c'.core = c.core := by
  have same := h.setters r
  rwa [e, Option.map_some, Option.map_eq_some_iff] at same

theorem setter' (h : w.Rests w') {r : Ref .setter} {c' : SetterCell}
    (e : w'.setters.get? r = some c') :
    ∃ c, w.setters.get? r = some c ∧ c.core = c'.core := by
  have same := (h.setters r).symm
  rwa [e, Option.map_some, Option.map_eq_some_iff] at same

theorem has (h : w.Rests w') (o : Ref .object) (n : String) : w'.has o n = w.has o n := by
  simp only [World.has, slot?, h.objects]

theorem still (h : w.Rests w') : w.Still w' where
  get o n := by
    have value : ∀ slot, w'.slotValue slot = w.slotValue slot := fun slot => by
      cases slot with
      | trap r =>
          have same := congrArg (Option.map fun x => x.2.2.2.2.2) (h.setters r)
          simp only [Option.map_map] at same
          simp only [slotValue]
          exact congrArg (Option.getD · Value.undefined) same
      | _ => rfl
    simp only [World.get, slot?, h.objects, value]
  contains _ := by rw [h.objects]
  isFrozen _ := by simp only [World.isFrozen, h.objects]
  backdrop := h.backdrop
  due o n := by
    simp only [Due, h.objects]
    refine or_congr Iff.rfl ⟨?_, ?_⟩
    · rintro ⟨r, c, e, rfl, rfl, queued⟩
      obtain ⟨c', e', same⟩ := h.setter' e
      simp only [SetterCell.core, Prod.mk.injEq] at same
      exact ⟨r, c', e', same.1, same.2.1, same.2.2.2.1.trans queued⟩
    · rintro ⟨r, c, e, rfl, rfl, queued⟩
      obtain ⟨c', e', same⟩ := h.setter e
      simp only [SetterCell.core, Prod.mk.injEq] at same
      exact ⟨r, c', e', same.1, same.2.1, same.2.2.2.1.trans queued⟩
  doubled _ _ := by simp only [IsDoubled, slot?, h.objects, imp_self]

theorem attentive (h : w.Rests w') (quits : w.Quits w' s l t) (a : w.Attentive) :
    w'.Attentive := by
  have microtasks : w'.tasks.microtasks = w.tasks.microtasks :=
    congrArg Backdrop.microtasks h.backdrop
  refine ⟨?_, ?_, ?_, ?_, ?_, ?_, ?_, ?_, ?_, ?_, ?_⟩
  · simpa only [h.objects, h.dispatchers] using a.listener
  · simpa only [h.objects, h.dispatchers] using a.listens
  · intro o n l' at' heard dispatched
    rw [quits.leafAt?] at at'
    rw [quits.isDispatched] at dispatched
    obtain ⟨q, m⟩ := List.exists_mem_of_ne_nil _ heard
    rw [h.dispatchers]
    exact a.hearing o n l' at' (List.ne_nil_of_mem (quits.audience_subset m)) dispatched
  · intro r c e registered
    obtain ⟨c', e', same⟩ := h.setter' e
    simp only [SetterCell.core, Prod.mk.injEq] at same
    obtain ⟨q, m⟩ := List.exists_mem_of_ne_nil _ registered
    have heard : q ∈ w'.audience (.setter r) := by
      simpa only [World.audience, e, Option.map_some, Option.getD_some] using m
    have : q ∈ c'.callbacks.entries := by
      simpa only [World.audience, e', Option.map_some, Option.getD_some] using
        quits.audience_subset heard
    rw [← same.2.2.1]
    exact a.trapping r c' e' (List.ne_nil_of_mem this)
  · intro r c e
    obtain ⟨c', e', same⟩ := h.setter' e
    simp only [SetterCell.core, Prod.mk.injEq] at same
    exact same.2.2.2.2.1.symm.trans (a.willing r c' e')
  · intro o n r
    have : w'.slot? o n = w.slot? o n := by simp only [slot?, h.objects]
    rw [this, a.trap o n r]
    constructor
    · rintro ⟨c, e, rfl, rfl, observing⟩
      obtain ⟨c', e', same⟩ := h.setter e
      simp only [SetterCell.core, Prod.mk.injEq] at same
      exact ⟨c', e', same.1, same.2.1, same.2.2.1.trans observing⟩
    · rintro ⟨c, e, rfl, rfl, observing⟩
      obtain ⟨c', e', same⟩ := h.setter' e
      simp only [SetterCell.core, Prod.mk.injEq] at same
      exact ⟨c', e', same.1, same.2.1, same.2.2.1.trans observing⟩
  · simpa only [h.objects, microtasks] using a.scheduled
  · simpa only [h.objects] using a.pending
  · intro r c e
    obtain ⟨c', e', same⟩ := h.setter' e
    simp only [SetterCell.core, Prod.mk.injEq] at same
    rw [microtasks, ← same.2.2.2.1]
    exact a.queued r c' e'
  · rw [microtasks]
    exact a.tasks
  · intro task m
    rw [microtasks] at m
    rcases a.known task m with live | ⟨r, c, rfl, e⟩
    · exact .inl (by simpa only [h.objects] using live)
    · obtain ⟨c', e', -⟩ := h.setter e
      exact .inr ⟨r, c', rfl, e'⟩

end Rests

/-- A world in which a subscription is disposed and its registration is taken back. -/
def withoutCallback (w : World η) (s : Ref .subscription) (l : Leaf) (t : Token) : World η :=
  ((w.modifySubscription s fun _ => ⟨none⟩).undoCallback t (.leaf l)).2

theorem disposal?_modifySubscription (w : World η) (s s' : Ref .subscription) :
    (w.modifySubscription s fun _ => ⟨none⟩).disposal? s' =
      if s' = s then none else w.disposal? s' := by
  simp only [disposal?, modifySubscription, Store.get?_modify]
  split
  next same =>
    subst same
    cases w.subscriptions.get? s' <;> rfl
  · rfl

/-- What a placeholder parks for others. -/
theorem find?_filter_token (parked : List Parked) (t' : Token) :
    ((parked.filter (·.token ≠ t)).find? (·.token = t')) =
      if t' = t then none else parked.find? (·.token = t') := by
  induction parked with
  | nil => split <;> rfl
  | cons q rest ih =>
    by_cases is : q.token = t <;> by_cases same : t' = t <;> by_cases is' : q.token = t' <;>
      simp_all

/-- Tokens of parked subscribers are their own. -/
theorem filterMap_moved (parked : List Parked)
    (sorted : parked.Pairwise fun q q' => q.token.index < q'.token.index) :
    (parked.filter (·.token = t)).filterMap (·.moved) =
      ((parked.find? (·.token = t)).bind (·.moved)).toList := by
  induction parked with
  | nil => rfl
  | cons q rest ih =>
    obtain ⟨later, sorted⟩ := List.pairwise_cons.1 sorted
    by_cases is : q.token = t
    · have none : rest.filter (·.token = t) = [] := by
        refine List.filter_eq_nil_iff.2 fun q' m same => ?_
        have := later q' m
        rw [is, of_decide_eq_true same] at this
        exact Nat.lt_irrefl _ this
      simp only [List.filter_cons, is, decide_true, if_true, none, List.find?_cons,
        Option.bind_some]
      cases moved : q.moved <;> simp [moved]
    · simp only [List.filter_cons, is, decide_false, Bool.false_eq_true, if_false, List.find?_cons]
      exact ih sorted

/-- **Taking back a registration** with the leaf of a property. -/
theorem quits_withoutCallback (place : w.place? l ≠ none ∨ ∃ r, l = .property r) :
    w.Quits (w.withoutCallback s l t) s l t ∧ w.Rests (w.withoutCallback s l t) := by
  have there : ∀ s', ((w.modifySubscription s fun _ => ⟨none⟩).subscriptions.get? s').isSome =
    (w.subscriptions.get? s').isSome := fun s' => Store.contains_modify _ _ _ _
  have disposal := disposal?_modifySubscription w s
  cases l with
  | setter r =>
      refine ⟨⟨⟨rfl, fun _ => rfl, rfl, rfl, fun _ => rfl, fun _ => rfl, fun _ => rfl, fun _ => rfl,
        fun _ => rfl, fun l' => ?_, fun _ => rfl⟩, fun l' => ?_, fun _ _ => ?_, disposal, there,
        rfl⟩, rfl, rfl, fun r' => Store.map_get?_modify _ _ _ fun _ => rfl, rfl⟩
      · cases l' with
        | setter r' => exact Store.map_get?_modify _ _ _ fun _ => rfl
        | _ => rfl
      · cases l' with
        | setter r' =>
            change Option.getD (Option.map _ ((w.setters.modify r _).get? r')) _ = _
            simp only [Store.get?_modify, Leaf.setter.injEq, audience]
            split
            next same => cases w.setters.get? r <;> rfl
            · rfl
        | _ => rfl
      · rw [if_neg (by rintro ⟨⟨⟩, -⟩)]
        rfl
  | property r =>
      refine ⟨⟨⟨rfl, fun _ => rfl, rfl, rfl, fun _ => rfl, fun _ => rfl, fun _ => rfl,
        fun r' => Store.map_get?_modify _ _ _ fun _ => rfl, fun _ => rfl, fun l' => ?_,
        fun _ => rfl⟩, fun l' => ?_, fun _ _ => ?_, disposal, there, rfl⟩, rfl, rfl, fun _ => rfl,
        rfl⟩
      · cases l' with
        | property r' => exact Store.map_get?_modify _ _ _ fun _ => rfl
        | _ => rfl
      · cases l' with
        | property r' =>
            change Option.getD (Option.map _ ((w.properties.modify r _).get? r')) _ = _
            simp only [Store.get?_modify, Leaf.property.injEq, audience]
            split
            next same => cases w.properties.get? r <;> rfl
            · rfl
        | _ => rfl
      · rw [if_neg (by rintro ⟨⟨⟩, -⟩)]
        rfl
  | placeholder u =>
      obtain ⟨c, e⟩ : ∃ c, w.placeholders.get? u = some c := by
        simpa [place?, Option.ne_none_iff_exists'] using place
      have result : w.withoutCallback s (.placeholder u) t =
          (w.modifySubscription s fun _ => ⟨none⟩).modifyPlaceholder u fun cell =>
            { cell with parked := cell.parked.filter (·.token ≠ t) } := by
        have e' : (w.modifySubscription s fun _ => ⟨none⟩).placeholders.get? u = some c := e
        simp only [withoutCallback, undoCallback, e']
      rw [result]
      refine ⟨⟨⟨rfl, fun _ => rfl, rfl, rfl, fun _ => rfl, fun _ => rfl, fun _ => rfl, fun _ => rfl,
        fun r' => Store.map_get?_modify _ _ _ fun _ => rfl, fun l' => ?_, fun l' => ?_⟩,
        fun l' => ?_, fun u' t' => ?_, disposal, there, rfl⟩, rfl, rfl, fun _ => rfl, rfl⟩
      · cases l' with
        | placeholder r' => exact Store.map_get?_modify _ _ _ fun _ => rfl
        | _ => rfl
      · cases l' with
        | placeholder u' =>
            have e' : (w.modifySubscription s fun _ => ⟨none⟩).placeholders.get? u = some c := e
            simp only [successor?, modifyPlaceholder, Store.get?_modify]
            split
            next same => rw [same, e', e]; rfl
            · rfl
        | _ => rfl
      · cases l' with
        | placeholder u' =>
            change Option.getD (Option.map _ ((w.placeholders.modify u _).get? u')) _ = _
            simp only [Store.get?_modify, Leaf.placeholder.injEq, audience]
            split
            next same =>
              rw [e]
              simp only [Option.map_some, Option.getD_some, List.filter_map]
              rfl
            · rfl
        | _ => rfl
      · simp only [World.movedTo?, modifyPlaceholder, modifySubscription, Store.get?_modify,
          Leaf.placeholder.injEq]
        by_cases same : u' = u
        · subst same
          simp only [if_true, e, Option.map_some, find?_filter_token, true_and]
          split <;> rfl
        · rw [if_neg same, if_neg fun both => same both.1.symm]
  | poll r =>
      obtain ⟨c, e⟩ : ∃ c, w.polls.get? r = some c := by
        simpa [place?, Option.ne_none_iff_exists'] using place
      obtain ⟨polling, old, result⟩ : ∃ (polling : Polling) (old : PollCell → Option Value), w.withoutCallback s (.poll r) t =
          { (w.modifySubscription s fun _ => ⟨none⟩).modifyPoll r fun cell =>
              { cell with callbacks := c.callbacks.remove t, old := old cell } with polling } := by
        have e' : (w.modifySubscription s fun _ => ⟨none⟩).polls.get? r = some c := e
        simp only [withoutCallback, undoCallback, e']
        split
        · exact ⟨_, fun _ => none, rfl⟩
        · exact ⟨_, fun cell => cell.old, rfl⟩
      rw [result]
      refine ⟨⟨⟨rfl, fun _ => rfl, rfl, rfl, fun _ => rfl, fun _ => rfl, fun _ => rfl, fun _ => rfl,
        fun _ => rfl, fun l' => ?_, fun _ => rfl⟩, fun l' => ?_, fun _ _ => ?_, disposal, there,
        rfl⟩, rfl, rfl, fun _ => rfl, rfl⟩
      · cases l' with
        | poll r' => exact Store.map_get?_modify _ _ _ fun _ => rfl
        | _ => rfl
      · cases l' with
        | poll r' =>
            change Option.getD (Option.map _ ((w.polls.modify r _).get? r')) _ = _
            simp only [Store.get?_modify, Leaf.poll.injEq, audience]
            split
            next same => rw [e]; rfl
            · rfl
        | _ => rfl
      · rw [if_neg (by rintro ⟨⟨⟩, -⟩)]
        rfl
  | element r =>
      rcases place with no | ⟨_, same⟩
      · exact absurd rfl no
      · cases same
  | select r =>
      rcases place with no | ⟨_, same⟩
      · exact absurd rfl no
      · cases same
  | contents r =>
      rcases place with no | ⟨_, same⟩
      · exact absurd rfl no
      · cases same

end

/-! ### Disposing -/

/-- The subscription that a placeholder made for a registration with it. -/
def behind (w : World η) (l : Leaf) (t : Token) : List (Ref .subscription) :=
  match l with
  | .placeholder u => (w.movedTo? u t).toList
  | _ => []

/-- `w'` is `w` without what the subscription `s` with the leaf of a property stood for. -/
structure Drops (w w' : World η) (s : Ref .subscription) : Prop where
  wired : w'.Wired
  still : w.Still w'
  has : ∀ o n, w'.has o n = w.has o n
  place? : ∀ l, w'.place? l = w.place? l
  leafAt? : ∀ o n, w'.leafAt? o n = w.leafAt? o n
  enrolled_iff : ∀ s' o n sub, w'.Enrolled s' o n sub ↔ w.Enrolled s' o n sub ∧ s' ≠ s
  audience : ∀ l q, q ∈ w'.audience l → q ∈ w.audience l
  heard : ∀ l t, w.directVoice? s = some (l, t) → ∀ sub, (t, sub) ∉ w'.audience l
  registered : ∀ s', ¬ w.IsMoved s' → s' ≠ s → ∀ l t sub, w.directVoice? s' = some (l, t) →
    (t, sub) ∈ w.audience l → (t, sub) ∈ w'.audience l
  kept : ∀ s', ¬ w.IsMoved s' → s' ≠ s → w'.disposal? s' = w.disposal? s'
  gone : w'.disposal? s = none
  there : ∀ s', (w'.subscriptions.get? s').isSome = (w.subscriptions.get? s').isSome
  before : ∀ s₁ s₂, ¬ w.IsMoved s₁ → ¬ w.IsMoved s₂ → s₁ ≠ s → s₂ ≠ s → w.Before s₁ s₂ →
    w'.Before s₁ s₂

section
variable {s : Ref .subscription} {l : Leaf} {t : Token}

theorem Quits.wired (h : w.Quits w' s l t) (rests : w.Rests w') (wired : w.Wired)
    (direct : w.directVoice? s = some (l, t)) (own : ¬ w.IsMoved s) : w'.Wired :=
  ⟨h.located wired.toLocated, h.registered wired.toRegistered direct own,
    rests.attentive h wired.toAttentive⟩

/-- A subscription that is not heard through another one. -/
theorem Quits.drops (h : w.Quits w' s l t) (rests : w.Rests w') (wired : w.Wired)
    (direct : w.directVoice? s = some (l, t)) (own : ¬ w.IsMoved s)
    (alone : ∀ u, l = .placeholder u → w.movedTo? u t = none) : w.Drops w' s where
  wired := h.wired rests wired direct own
  still := rests.still
  has := rests.has
  place? := h.place?
  leafAt? := h.leafAt?
  enrolled_iff s' o n sub := by
    refine ⟨fun e => ?_, fun ⟨e, ne⟩ => h.kept wired.toRegistered direct own ne e⟩
    obtain ⟨ne, e | ⟨u, is, moved⟩⟩ := h.of_enrolled wired.toRegistered direct own e
    · exact ⟨e, ne⟩
    · rw [alone u is] at moved
      cases moved
  audience _ _ m := h.audience_subset m
  heard l' t' e sub m := by
    rw [direct] at e
    cases e
    rw [h.audience, if_pos rfl] at m
    exact of_decide_eq_true (List.mem_filter.1 m).2 rfl
  registered _ _ ne _ _ _ direct' m := h.mem_audience_of_direct wired.toRegistered direct ne direct' m
  kept s' _ ne := (h.disposal? s').trans (if_neg ne)
  gone := (h.disposal? s).trans (if_pos rfl)
  there := h.there
  before _ _ _ _ ne₁ ne₂ := h.before wired.toRegistered direct own ne₁ ne₂

/-- A subscription that is heard through another one, which goes with it. -/
theorem Quits.drops_moved {u : Ref .placeholder} (h : w.Quits w' s (.placeholder u) t) (rests : w.Rests w')
    (wired : w.Wired) (direct : w.directVoice? s = some (.placeholder u, t)) (own : ¬ w.IsMoved s)
    {s' : Ref .subscription} (moved : w.movedTo? u t = some s')
    (h' : w'.Drops w'' s') : w.Drops w'' s := by
  have ne : ∀ {s₁}, ¬ w.IsMoved s₁ → s₁ ≠ s' := fun own₁ same => own₁ (same ▸ ⟨u, t, moved⟩)
  have other : s ≠ s' := ne own
  have own' : ∀ {s₁}, ¬ w.IsMoved s₁ → ¬ w'.IsMoved s₁ := fun own₁ m => own₁ (h.of_isMoved m)
  refine ⟨h'.wired, rests.still.trans h'.still, fun o n => (h'.has o n).trans (rests.has o n),
    fun l => (h'.place? l).trans (h.place? l), fun o n => (h'.leafAt? o n).trans (h.leafAt? o n),
    fun s₁ o n sub => ?_, fun l q m => h.audience_subset (h'.audience l q m), fun l t' e sub m => ?_,
    fun s₁ own₁ ne₁ l t' sub direct' m => ?_, fun s₁ own₁ ne₁ => ?_, ?_,
    fun s₁ => (h'.there s₁).trans (h.there s₁),
    fun s₁ s₂ own₁ own₂ ne₁ ne₂ b => ?_⟩
  · rw [h'.enrolled_iff]
    constructor
    · rintro ⟨e, ne₁⟩
      obtain ⟨ne₂, e | ⟨u', same, moved'⟩⟩ := h.of_enrolled wired.toRegistered direct own e
      · exact ⟨e, ne₂⟩
      · cases same
        rw [moved] at moved'
        exact absurd (Option.some.inj moved').symm ne₁
    · rintro ⟨e, ne₁⟩
      exact ⟨h.kept wired.toRegistered direct own ne₁ e, ne e.own⟩
  · rw [direct] at e
    cases e
    have m' := h'.audience _ _ m
    rw [h.audience, if_pos rfl] at m'
    exact of_decide_eq_true (List.mem_filter.1 m').2 rfl
  · refine h'.registered s₁ (own' own₁) (ne own₁) l t' sub ?_
      (h.mem_audience_of_direct wired.toRegistered direct ne₁ direct' m)
    rw [h.directVoice?, if_neg ne₁, direct']
  · rw [h'.kept s₁ (own' own₁) (ne own₁), h.disposal?, if_neg ne₁]
  · rw [h'.kept s (own' own) other, h.disposal?, if_pos rfl]
  · exact h'.before s₁ s₂ (own' own₁) (own' own₂) (ne own₁) (ne own₂)
      (h.before wired.toRegistered direct own ne₁ ne₂ b)

/-- What is left to dispose once a registration is taken back. -/
theorem undoCallback_fst (r : w.Registered) {v : Ref .object × String}
    (place : w.place? l = some v) :
    ((w.modifySubscription s fun _ => ⟨none⟩).undoCallback t (.leaf l)).1 = w.behind l t := by
  cases l with
  | placeholder u =>
      simp only [World.place?, Option.map_eq_some_iff] at place
      obtain ⟨c, e, -⟩ := place
      have e' : (w.modifySubscription s fun _ => ⟨none⟩).placeholders.get? u = some c := e
      have sorted : c.parked.Pairwise fun q q' => q.token.index < q'.token.index := by
        have := r.sorted (.placeholder u)
        simpa only [World.audience, e, Option.map_some, Option.getD_some, List.pairwise_map] using this
      simp only [undoCallback, e', behind, World.movedTo?, e]
      exact filterMap_moved c.parked sorted
  | poll r =>
      simp only [World.place?, Option.map_eq_some_iff] at place
      obtain ⟨c, e, -⟩ := place
      have e' : (w.modifySubscription s fun _ => ⟨none⟩).polls.get? r = some c := e
      simp only [undoCallback, e', behind]
      split <;> rfl
  | setter r => rfl
  | property r => rfl
  | element r => cases place
  | select r => cases place
  | contents r => cases place

theorem index_lt_size_of_disposal? {d : Disposal} (e : w.disposal? s = some d) :
    s.index < w.subscriptions.size := by
  simp only [World.disposal?] at e
  cases get : w.subscriptions.get? s with
  | none => simp [get] at e
  | some c => exact Store.index_lt_size_of_get? get

theorem disposeWithin_of_none (depth : Nat) (none : w.disposal? s = none) :
    disposeWithin depth s w = w := by
  cases depth with
  | zero => rfl
  | succ depth => simp only [disposeWithin, none]

theorem Drops.of_gone (h : w.Wired) (none : w.disposal? s = none) : w.Drops w s where
  wired := h
  still := .refl w
  has _ _ := rfl
  place? _ := rfl
  leafAt? _ _ := rfl
  enrolled_iff s' o n sub := by
    refine ⟨fun e => ⟨e, ?_⟩, And.left⟩
    rintro rfl
    obtain ⟨-, l, t, voice, -⟩ := e
    simp [World.voice?, World.directVoice?, none] at voice
  audience _ _ m := m
  heard l t e := by simp [World.directVoice?, none] at e
  registered _ _ _ _ _ _ _ m := m
  kept _ _ _ := rfl
  gone := none
  there _ := rfl
  before _ _ _ _ _ _ b := b

theorem disposeWithin_succ (depth : Nat) (direct : w.directVoice? s = some (l, t)) :
    disposeWithin (depth + 1) s w =
      ((w.modifySubscription s fun _ => ⟨none⟩).undoCallback t (.leaf l)).1.foldl
        (fun w s => disposeWithin depth s w) (w.withoutCallback s l t) := by
  simp only [disposeWithin, disposal?_of_directVoice? direct]
  rfl

/-- **Disposing a subscription with the leaf of a property.** -/
theorem dispose_spec {v : Ref .object × String} (h : w.Wired)
    (direct : w.directVoice? s = some (l, t)) (own : ¬ w.IsMoved s) (place : w.place? l = some v) :
    w.Drops (w.dispose s) s := by
  obtain ⟨quits, rests⟩ := quits_withoutCallback (s := s) (t := t) (.inl fun none => by
    rw [none] at place
    cases place)
  have more := undoCallback_fst (s := s) (t := t) h.toRegistered place
  have room := index_lt_size_of_disposal? (disposal?_of_directVoice? direct)
  obtain ⟨depth, size⟩ : ∃ depth, w.subscriptions.size = depth + 1 :=
    ⟨w.subscriptions.size - 1, by omega⟩
  rw [dispose, size, disposeWithin_succ depth direct, more]
  -- whether somebody is registered on behalf of the subscription
  by_cases alone : ∀ u, l = .placeholder u → w.movedTo? u t = none
  · have none : w.behind l t = [] := by
      cases l with
      | placeholder u => simp only [behind, alone u rfl, Option.toList_none]
      | _ => rfl
    rw [none]
    exact quits.drops rests h direct own alone
  · obtain ⟨u, rfl, s', moved⟩ : ∃ u, l = .placeholder u ∧ ∃ s', w.movedTo? u t = some s' := by
      refine Classical.byContradiction fun no => alone fun u is => ?_
      cases moved : w.movedTo? u t with
      | none => rfl
      | some s' => exact absurd ⟨u, is, s', moved⟩ no
    simp only [behind, moved, Option.toList_some, List.foldl_cons, List.foldl_nil]
    have wired := quits.wired rests h direct own
    have ne : s' ≠ s := by
      rintro rfl
      exact own ⟨u, t, moved⟩
    have own' : ¬ (w.withoutCallback s (.placeholder u) t).IsMoved s' := by
      rintro ⟨u', t', e⟩
      rw [quits.movedTo?] at e
      split at e
      · cases e
      next other =>
        obtain ⟨rfl, rfl⟩ := h.movedAlone _ _ _ _ _ e moved
        exact other ⟨rfl, rfl⟩
    refine quits.drops_moved rests h direct own moved ?_
    cases disposal : (w.withoutCallback s (.placeholder u) t).disposal? s' with
    | none =>
      rw [disposeWithin_of_none depth disposal]
      exact .of_gone wired disposal
    | some d =>
      obtain ⟨p, t', rfl⟩ := h.movedKind u t s' d moved
        ((if_neg ne).symm.trans ((quits.disposal? s').symm.trans disposal))
      have direct' : (w.withoutCallback s (.placeholder u) t).directVoice? s' =
          some (.property p, t') := by
        simp only [directVoice?, disposal]
      obtain ⟨depth', rfl⟩ : ∃ depth', depth = depth' + 1 := by
        have room' := index_lt_size_of_disposal?
          ((if_neg ne).symm.trans ((quits.disposal? s').symm.trans disposal))
        have : s'.index ≠ s.index := fun same => ne (by cases s; cases s'; cases same; rfl)
        exact ⟨depth - 1, by omega⟩
      obtain ⟨quits', rests'⟩ := quits_withoutCallback (s := s') (t := t')
        (w := w.withoutCallback s (.placeholder u) t) (.inr ⟨p, rfl⟩)
      rw [disposeWithin_succ depth' direct']
      exact quits'.drops rests' wired direct' own' fun _ is => by cases is

end

/-! ### Subscriptions with other things -/

section
variable {s s' : Ref .subscription} {d : Disposal}

/-- A world in which a subscription is disposed, and nothing is taken back. -/
def ended (w : World η) (s : Ref .subscription) : World η := w.modifySubscription s fun _ => ⟨none⟩

theorem directVoice?_ended (ne : s' ≠ s) : (w.ended s).directVoice? s' = w.directVoice? s' := by
  simp only [directVoice?, ended, disposal?_modifySubscription, if_neg ne]

theorem voice?_ended_self : (w.ended s).voice? s = none := by
  simp only [voice?, directVoice?, ended, disposal?_modifySubscription, if_true]

/-- Whoever is heard through another subscription is not heard through this one. -/
theorem voice?_ended (own : ¬ w.IsMoved s) (ne : s' ≠ s) : (w.ended s).voice? s' = w.voice? s' := by
  have successor : ∀ l, (w.ended s).successor? l = w.successor? l := fun l => by cases l <;> rfl
  have movedTo : ∀ u t, (w.ended s).movedTo? u t = w.movedTo? u t := fun _ _ => rfl
  simp only [voice?, directVoice?_ended ne]
  cases w.directVoice? s' with
  | none => rfl
  | some v =>
    obtain ⟨l, t⟩ := v
    cases l with
    | placeholder u =>
      simp only [throughSuccessor?, successor, movedTo]
      cases w.successor? (.placeholder u) with
      | none => rfl
      | some p =>
        cases moved : w.movedTo? u t with
        | none => rfl
        | some s'' => exact directVoice?_ended fun same => own ⟨u, t, same ▸ moved⟩
    | _ => rfl

/-- **Disposing a subscription with something else** concerns nobody who watches a property. -/
theorem Drops.of_foreign (h : w.Wired) (is : w.disposal? s = some d) (foreign : IsForeign d) :
    w.Drops (w.ended s) s := by
  have disposal := disposal?_modifySubscription w s
  have rests : w.Rests (w.ended s) := ⟨rfl, rfl, fun _ => rfl, rfl⟩
  have there : ∀ s', ((w.ended s).subscriptions.get? s').isSome =
    (w.subscriptions.get? s').isSome := fun s' => Store.contains_modify _ _ _ _
  have own : ¬ w.IsMoved s := by
    rintro ⟨u, t, moved⟩
    obtain ⟨r, t', rfl⟩ := h.movedKind u t s d moved is
    exact foreign
  have other : ∀ {s' o n l t}, w.voice? s' = some (l, t) → w.leafAt? o n = some l → s' ≠ s := by
    rintro s' o n l t voice at' rfl
    exact not_fits_of_foreign is foreign voice o (h.current o n l at').2.2
  have fewer : ∀ {s' d'}, (w.ended s).disposal? s' = some d' → w.disposal? s' = some d' := by
    intro s' d' e
    rw [ended, disposal] at e
    split at e
    · cases e
    · exact e
  have registered : (w.ended s).Registered := by
    refine ⟨fun s' ob t e => h.issued s' ob t (fewer e),
      fun s₁ s₂ ob ob' t e e' => h.alone s₁ s₂ ob ob' t (fewer e) (fewer e'), h.sorted, h.heard,
      h.unmoved, fun u t s' e => (there s').trans (h.moved u t s' e),
      fun u t s' d' e e' => h.movedKind u t s' d' e (fewer e'), h.movedAlone, ?_⟩
    intro o n l t sub at' m
    obtain ⟨s', own', voice⟩ := h.voiced o n l t sub at' m
    exact ⟨s', own', (voice?_ended own (other voice at')).trans voice⟩
  have enrolled : ∀ s' o n sub, (w.ended s).Enrolled s' o n sub ↔ w.Enrolled s' o n sub ∧ s' ≠ s := by
    intro s' o n sub
    constructor
    · rintro ⟨own', l, t, voice, at', m⟩
      have ne : s' ≠ s := by
        rintro rfl
        rw [voice?_ended_self] at voice
        cases voice
      exact ⟨⟨own', l, t, (voice?_ended own ne).symm.trans voice, at', m⟩, ne⟩
    · rintro ⟨⟨own', l, t, voice, at', m⟩, ne⟩
      exact ⟨own', l, t, (voice?_ended own ne).trans voice, at', m⟩
  exact {
    wired := ⟨⟨h.liveDispatchers, h.liveProperties, h.liveElements, h.liveContents, h.dispatcher,
      h.found, h.current, h.unique, h.propertyHome, h.placeholderHome⟩, registered, ⟨h.listener,
      h.listens, h.hearing, h.trapping, h.willing, h.trap, h.scheduled, h.pending, h.queued, h.tasks,
      h.known⟩⟩
    still := rests.still
    has := rests.has
    place? := fun l => by cases l <;> rfl
    leafAt? := fun _ _ => rfl
    enrolled_iff := enrolled
    audience := fun _ _ m => m
    heard := fun l t e sub m => by
      have nobody : w.audience l = [] := by
        have same := is.symm.trans (disposal?_of_directVoice? e)
        obtain rfl := Option.some.inj same
        cases l <;> first | rfl | exact foreign.elim
      exact List.not_mem_nil (nobody ▸ m)
    registered := fun _ _ _ _ _ _ _ m => m
    kept := fun s' _ ne => (disposal s').trans (if_neg ne)
    gone := (disposal s).trans (if_pos rfl)
    there := there
    before := fun s₁ s₂ _ _ ne₁ ne₂ ⟨l, t₁, t₂, sub₁, sub₂, v₁, v₂, m₁, m₂, lt⟩ =>
      ⟨l, t₁, t₂, sub₁, sub₂, (voice?_ended own ne₁).trans v₁, (voice?_ended own ne₂).trans v₂, m₁, m₂,
        lt⟩ }

end

end World

end ViewBinding
