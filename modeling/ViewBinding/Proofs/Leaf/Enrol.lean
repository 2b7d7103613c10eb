import ViewBinding.Proofs.Leaf.Tune

/-!
# Leaf — one more registration

`w.Enrols w' l t sub` says that `w'` differs from `w` by one registration, of `sub` at the leaf `l`
with the token `t`, and by the new subscription that ends it.  The new subscription enrols `sub`
(`Enrols.enrolled`), and every enrolment from before stays (`Enrols.kept`).
-/

namespace ViewBinding

namespace World

variable {η : Type} {w w' w'' : World η}

/-- `w'` has one registration more than `w`, and the subscription that ends it. -/
structure Enrols (w w' : World η) (l : Leaf) (t : Token) (sub : Subscriber) : Prop
    extends Aligned w w' where
  audience : ∀ l', w'.audience l' = if l' = l then w.audience l ++ [(t, sub)] else w.audience l'
  movedTo? : ∀ u t', w'.movedTo? u t' = w.movedTo? u t'
  subscriptions : w'.subscriptions = w.subscriptions.alloc ⟨some (.callback (.leaf l) t)⟩
  issued : ∀ s ob t', w.disposal? s = some (.callback ob t') → t'.index < t.index
  heard : ∀ l' t' sub', (t', sub') ∈ w.audience l' → t'.index < t.index
  token : t.index < w'.nextToken
  nextToken : w.nextToken ≤ w'.nextToken

/-! ### Voices -/

theorem disposal?_of_directVoice? {s : Ref .subscription} {l : Leaf} {t : Token}
    (e : w.directVoice? s = some (l, t)) : w.disposal? s = some (.callback (.leaf l) t) := by
  unfold directVoice? at e
  split at e
  next l' t' e' =>
    cases e
    exact e'
  · cases e

/-- What a placeholder made for a parked subscriber is a registration with a property observer. -/
theorem Registered.movedDirect (r : w.Registered) {u : Ref .placeholder} {t t' : Token}
    {s : Ref .subscription} {l : Leaf} (moved : w.movedTo? u t = some s)
    (direct : w.directVoice? s = some (l, t')) : ∃ p, l = .property p := by
  obtain ⟨p, t'', same⟩ := r.movedKind u t s _ moved (disposal?_of_directVoice? direct)
  cases same
  exact ⟨p, rfl⟩

/-- The token of a voice is the token of some subscription's registration. -/
theorem exists_disposal?_of_voice? {s : Ref .subscription} {l : Leaf} {t : Token}
    (e : w.voice? s = some (l, t)) : ∃ s', w.disposal? s' = some (.callback (.leaf l) t) := by
  unfold voice? at e
  split at e
  · cases e
  next l' t' direct =>
    unfold throughSuccessor? at e
    split at e
    · split at e
      · cases e
        exact ⟨s, disposal?_of_directVoice? direct⟩
      · split at e
        · cases e
        next s' _ => exact ⟨s', disposal?_of_directVoice? e⟩
    · cases e
      exact ⟨s, disposal?_of_directVoice? direct⟩

theorem voice?_next (w : World η) : w.voice? w.subscriptions.next = none := by
  simp [voice?, directVoice?, disposal?]

/-- What is heard at a placeholder is registered with it. -/
theorem Registered.directVoice?_of_voice? (r : w.Registered) {s : Ref .subscription}
    {u : Ref .placeholder} {t : Token} (e : w.voice? s = some (.placeholder u, t)) :
    w.directVoice? s = some (.placeholder u, t) := by
  unfold voice? at e
  split at e
  · cases e
  next l' t' direct =>
    unfold throughSuccessor? at e
    split at e
    · split at e
      · cases e
        exact direct
      · split at e
        · cases e
        next s' moved =>
          obtain ⟨p, e'⟩ := r.movedDirect moved e
          cases e'
    · cases e
      exact direct

/-- A leaf and a token are the voice of one subscription that is not moved. -/
theorem Registered.eq_of_directVoice? (r : w.Registered) {s s' : Ref .subscription}
    {v : Leaf × Token} (e : w.directVoice? s = some v) (e' : w.directVoice? s' = some v) :
    s = s' :=
  r.alone s s' _ _ v.2 (disposal?_of_directVoice? e) (disposal?_of_directVoice? e')

/-- Who is registered with a token at a leaf is one subscriber. -/
theorem Registered.eq_of_mem_audience (r : w.Registered) {l : Leaf} {t : Token}
    {sub sub' : Subscriber} (m : (t, sub) ∈ w.audience l) (m' : (t, sub') ∈ w.audience l) :
    sub = sub' := by
  have sorted := List.pairwise_iff_getElem.1 (r.sorted l)
  obtain ⟨i, hi, e⟩ := List.getElem_of_mem m
  obtain ⟨j, hj, e'⟩ := List.getElem_of_mem m'
  rcases Nat.lt_trichotomy i j with lt | rfl | lt
  · have := sorted i j hi hj lt
    rw [e, e'] at this
    exact absurd this (Nat.lt_irrefl _)
  · rw [e] at e'
    cases e'
    rfl
  · have := sorted j i hj hi lt
    rw [e, e'] at this
    exact absurd this (Nat.lt_irrefl _)

namespace Enrols

variable {l : Leaf} {t : Token} {sub : Subscriber}

theorem mem_audience (h : w.Enrols w' l t sub) {l' : Leaf} {p : Token × Subscriber} :
    p ∈ w'.audience l' ↔ p ∈ w.audience l' ∨ l' = l ∧ p = (t, sub) := by
  rw [h.audience]
  split
  next e => simp [e]
  next ne => simp [ne]

theorem disposal?_next (h : w.Enrols w' l t sub) :
    w'.disposal? w.subscriptions.next = some (.callback (.leaf l) t) := by
  simp [disposal?, h.subscriptions]

theorem disposal?_of_ne (h : w.Enrols w' l t sub) {s : Ref .subscription}
    (ne : s ≠ w.subscriptions.next) : w'.disposal? s = w.disposal? s := by
  simp only [disposal?, h.subscriptions, Store.get?_alloc_of_ne _ ne]

theorem isMoved (h : w.Enrols w' l t sub) (s : Ref .subscription) :
    w'.IsMoved s ↔ w.IsMoved s := by
  simp only [IsMoved, h.movedTo?]

theorem next_not_moved (h : w.Enrols w' l t sub) (r : w.Registered) :
    ¬ w'.IsMoved w.subscriptions.next := by
  rintro ⟨u, t', e⟩
  rw [h.movedTo?] at e
  have := r.moved u t' _ e
  simp at this

/-- Earlier subscriptions are registered where they were. -/
theorem voice?_of_ne (h : w.Enrols w' l t sub) (r : w.Registered) {s : Ref .subscription}
    (ne : s ≠ w.subscriptions.next) : w'.voice? s = w.voice? s := by
  have direct : ∀ s, s ≠ w.subscriptions.next → w'.directVoice? s = w.directVoice? s :=
    fun s ne => by simp only [directVoice?, h.disposal?_of_ne ne]
  simp only [World.voice?, direct s ne, throughSuccessor?, h.successor?, h.movedTo?]
  cases w.directVoice? s with
  | none => rfl
  | some p =>
    obtain ⟨l', t'⟩ := p
    cases l' with
    | placeholder u =>
        dsimp only
        cases w.successor? (.placeholder u) with
        | none => rfl
        | some _ =>
          cases e : w.movedTo? u t' with
          | none => rfl
          | some s' =>
            refine direct s' ?_
            rintro rfl
            have := r.moved u t' _ e
            simp at this
    | _ => rfl

/-- The new subscription is registered at the leaf, unless a property observer has taken the
leaf's place. -/
theorem voice?_next (h : w.Enrols w' l t sub) (unresolved : w.successor? l = none) :
    w'.voice? w.subscriptions.next = some (l, t) := by
  simp only [World.voice?, directVoice?, h.disposal?_next, throughSuccessor?, h.successor?]
  cases l <;> simp_all

/-- An enrolment from before stays. -/
theorem kept (h : w.Enrols w' l t sub) (r : w.Registered) {s : Ref .subscription}
    {o : Ref .object} {n : String} {sub' : Subscriber} (e : w.Enrolled s o n sub') :
    w'.Enrolled s o n sub' := by
  obtain ⟨own, l', t', voice, at', mem⟩ := e
  have ne : s ≠ w.subscriptions.next := by
    rintro rfl
    rw [World.voice?_next] at voice
    cases voice
  exact ⟨fun m => own ((h.isMoved s).1 m), l', t', h.voice?_of_ne r ne ▸ voice,
    h.leafAt? o n ▸ at', h.mem_audience.2 (.inl mem)⟩

/-- The new subscription enrols the subscriber. -/
theorem enrolled (h : w.Enrols w' l t sub) (wired : w.Located) (r : w.Registered)
    {o : Ref .object} {n : String} (at' : w.leafAt? o n = some l) :
    w'.Enrolled w.subscriptions.next o n sub := by
  obtain ⟨-, unresolved, -⟩ := wired.current o n l at'
  exact ⟨h.next_not_moved r, l, t, h.voice?_next unresolved, h.leafAt? o n ▸ at',
    h.mem_audience.2 (.inr ⟨rfl, rfl⟩)⟩

/-- Who is enrolled is the new subscriber, or was enrolled before. -/
theorem enrolled_iff (h : w.Enrols w' l t sub) (wired : w.Located) (r : w.Registered)
    {o : Ref .object} {n : String} (at' : w.leafAt? o n = some l) {s : Ref .subscription}
    {o' : Ref .object} {n' : String} {sub' : Subscriber} :
    w'.Enrolled s o' n' sub' ↔ w.Enrolled s o' n' sub' ∨
      s = w.subscriptions.next ∧ o' = o ∧ n' = n ∧ sub' = sub := by
  constructor
  · rintro ⟨own, l', t', voice, at₁, m⟩
    rw [h.leafAt?] at at₁
    rw [h.isMoved] at own
    by_cases ne : s = w.subscriptions.next
    · obtain ⟨place, unresolved, -⟩ := wired.current o n l at'
      rw [ne, h.voice?_next unresolved] at voice
      cases voice
      obtain ⟨place', -, -⟩ := wired.current o' n' l at₁
      rw [place, Option.some.injEq, Prod.mk.injEq] at place'
      rcases h.mem_audience.1 m with m | ⟨-, e⟩
      · exact absurd (h.heard l t sub' m) (Nat.lt_irrefl _)
      · exact .inr ⟨ne, place'.1.symm, place'.2.symm, (Prod.mk.inj e).2⟩
    · rw [h.voice?_of_ne r ne] at voice
      rcases h.mem_audience.1 m with m | ⟨rfl, e⟩
      · exact .inl ⟨own, l', t', voice, at₁, m⟩
      · cases e
        obtain ⟨s', e⟩ := exists_disposal?_of_voice? voice
        exact absurd (h.issued s' _ t e) (Nat.lt_irrefl _)
  · rintro (e | ⟨rfl, rfl, rfl, rfl⟩)
    · exact h.kept r e
    · exact h.enrolled wired r at'

theorem registered (h : w.Enrols w' l t sub) (wired : w.Located) (r : w.Registered) :
    w'.Registered where
  issued s ob t' e := by
    by_cases ne : s = w.subscriptions.next
    · rw [ne, h.disposal?_next] at e
      cases e
      exact h.token
    · rw [h.disposal?_of_ne ne] at e
      exact Nat.lt_trans (h.issued s ob t' e) h.token
  alone s s' ob ob' t' e e' := by
    by_cases ne : s = w.subscriptions.next <;> by_cases ne' : s' = w.subscriptions.next
    · rw [ne, ne']
    · rw [ne, h.disposal?_next] at e
      cases e
      rw [h.disposal?_of_ne ne'] at e'
      exact absurd (h.issued s' ob' _ e') (Nat.lt_irrefl _)
    · rw [ne', h.disposal?_next] at e'
      cases e'
      rw [h.disposal?_of_ne ne] at e
      exact absurd (h.issued s ob _ e) (Nat.lt_irrefl _)
    · rw [h.disposal?_of_ne ne] at e
      rw [h.disposal?_of_ne ne'] at e'
      exact r.alone s s' ob ob' t' e e'
  sorted l' := by
    rw [h.audience]
    split
    · refine List.pairwise_append.2 ⟨r.sorted l, List.pairwise_singleton _ _, ?_⟩
      intro p m p' m'
      rw [List.mem_singleton.1 m']
      exact h.heard l p.1 p.2 m
    · exact r.sorted l'
  heard l' t' sub' m := by
    rcases h.mem_audience.1 m with m | ⟨-, e⟩
    · exact Nat.lt_trans (h.heard l' t' sub' m) h.token
    · cases e
      exact h.token
  unmoved u t' e := (h.movedTo? u t').trans (r.unmoved u t' (h.successor? _ ▸ e))
  moved u t' s e := by
    rw [h.movedTo?] at e
    have := r.moved u t' s e
    rw [h.subscriptions, Store.get?_alloc]
    split <;> simp [this]
  movedKind u t₁ s d e v := by
    rw [h.movedTo?] at e
    have ne : s ≠ w.subscriptions.next := by
      rintro rfl
      have := r.moved u t₁ _ e
      simp at this
    exact r.movedKind u t₁ s d e (h.disposal?_of_ne ne ▸ v)
  movedAlone u u' t t' s e e' :=
    r.movedAlone u u' t t' s (h.movedTo? u t ▸ e) (h.movedTo? u' t' ▸ e')
  voiced o n l' t' sub' at' m := by
    rw [h.leafAt?] at at'
    rcases h.mem_audience.1 m with m | ⟨rfl, e⟩
    · obtain ⟨s, own, v⟩ := r.voiced o n l' t' sub' at' m
      have ne : s ≠ w.subscriptions.next := by
        rintro rfl
        rw [World.voice?_next] at v
        cases v
      exact ⟨s, fun e => own ((h.isMoved s).1 e), h.voice?_of_ne r ne ▸ v⟩
    · cases e
      obtain ⟨-, unresolved, -⟩ := wired.current o n l' at'
      exact ⟨_, h.next_not_moved r, h.voice?_next unresolved⟩

end Enrols

end World

end ViewBinding
