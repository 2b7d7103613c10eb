import Mathlib.Data.List.Nodup
import ViewBinding.Proofs.Custody.Board

/-!
# Custody — every registration has a keeper

A binding registers itself with its source and its target, a composite with its parts, and each of
them keeps the subscriptions that end these registrations.  `B.Custody σ loose pending` says of a board
that every registration of `σ` is taken care of: it is in transit (`pending`), as long as the
subscription that ends it has not been made, or some subscription ends it that `σ` keeps, or that is in
transit itself (`loose`), or that a placeholder keeps for `σ`, having moved it to the property.

What is in transit is so within one operation.  Where nothing is, every registration of `σ` is ended
by a subscription that `σ` keeps (`Custody.exists_ends`), and if `σ` keeps none it is registered nowhere
(`Custody.not_registered`).

There are five ways to change a board.  Registrations come and go (`Custody.registers`), a subscription
is made (`Custody.issues`), subscriptions change hands (`Custody.rearranges`), a subscriber is parked or
moved (`Custody.admits`, `Custody.moves`), and what a subscription stands for is taken back
(`Custody.releases`).
-/

namespace ViewBinding

/-- The subscribers that keep what ends their registrations, on the board. -/
def Subscriber.IsKeeper : Subscriber → Prop
  | .source _ | .target _ | .part _ => True
  | _ => False

namespace Board

variable {B B' B'' : Board} {σ : Subscriber} {loose loose' : List (Ref .subscription)}
  {pending pending' : List (Observer × Token)} {ob : Observer} {t : Token} {s : Ref .subscription}

/-- A placeholder keeps a subscription for `σ`, which it has moved to the property. -/
def Forwards (B : Board) (σ : Subscriber) (s : Ref .subscription) : Prop :=
  ∃ u, ∃ q ∈ B.parked u, q.subscriber = σ ∧ q.moved = some s

/-- Somebody takes care of a subscription that ends a registration of `σ` with an observer. -/
def Holds (B : Board) (σ : Subscriber) (loose : List (Ref .subscription)) (ob : Observer)
    (s : Ref .subscription) : Prop :=
  s ∈ B.keeps σ ∨ s ∈ loose ∨ (∃ p, ob = .leaf (.property p)) ∧ B.Forwards σ s

/-- Those who are parked can be told apart, and are moved only once the property is there. -/
structure Parks (B : Board) : Prop where
  drawn : ∀ u, ∀ q ∈ B.parked u, q.token.index < B.drawn
  once : ∀ u, ((B.parked u).map (·.token)).Nodup
  unmoved : ∀ u, B.actual u = [] → ∀ q ∈ B.parked u, q.moved = none

/-- Every registration of `σ` is taken care of. -/
structure Custody (B : Board) (σ : Subscriber) (loose : List (Ref .subscription))
    (pending : List (Observer × Token)) : Prop extends B.Parks where
  owned : ∀ ob t, (t, σ) ∈ B.registered ob →
    (ob, t) ∈ pending ∨ ∃ s, B.disposal? s = some (.callback ob t) ∧ B.Holds σ loose ob s

/-! ### Where nothing is in transit -/

/-- The subscription ends a registration: it stands for it, or for the place of a subscriber that a
placeholder has moved to the property. -/
def Ends (B : Board) (s : Ref .subscription) (ob : Observer) (t : Token) : Prop :=
  B.disposal? s = some (.callback ob t) ∨
    ∃ u, ∃ q ∈ B.parked u, ∃ s', B.disposal? s = some (.callback (.leaf (.placeholder u)) q.token) ∧
      q.moved = some s' ∧ B.disposal? s' = some (.callback ob t)

theorem registered_of_parked {u : Ref .placeholder} {q : Parked} (m : q ∈ B.parked u) :
    (q.token, q.subscriber) ∈ B.registered (.leaf (.placeholder u)) :=
  List.mem_map_of_mem m

namespace Custody

/-- Every registration is ended by a subscription that is kept. -/
theorem exists_ends (A : B.Custody σ [] []) (m : (t, σ) ∈ B.registered ob) :
    ∃ s ∈ B.keeps σ, B.Ends s ob t := by
  obtain h | ⟨s, stands, keeps | h | ⟨-, u, q, parked, rfl, moved⟩⟩ := A.owned ob t m
  · cases h
  · exact ⟨s, keeps, .inl stands⟩
  · cases h
  · -- the subscriber is parked, and so registered with the placeholder as well
    obtain h | ⟨s₀, stands₀, keeps | h | ⟨⟨p, other⟩, -⟩⟩ :=
      A.owned (.leaf (.placeholder u)) q.token (registered_of_parked parked)
    · cases h
    · exact ⟨s₀, keeps, .inr ⟨u, q, parked, s, stands₀, moved, stands⟩⟩
    · cases h
    · cases other

/-- Who keeps nothing is registered nowhere. -/
theorem not_registered (A : B.Custody σ [] []) (keeps : B.keeps σ = []) :
    (t, σ) ∉ B.registered ob := by
  intro m
  obtain ⟨s, kept, -⟩ := A.exists_ends m
  rw [keeps] at kept
  cases kept

end Custody

/-! ### Registrations come and go -/

/-- `B'` has what `B` has, but for registrations with observers that are no placeholders. -/
structure Agrees (B B' : Board) : Prop where
  parked : B'.parked = B.parked
  actual : B'.actual = B.actual
  keeps : B'.keeps = B.keeps
  disposal? : B'.disposal? = B.disposal?
  drawn : B.drawn ≤ B'.drawn

theorem Agrees.refl (B : Board) : B.Agrees B := ⟨rfl, rfl, rfl, rfl, Nat.le_refl _⟩

theorem Agrees.holds (h : B.Agrees B') : B'.Holds σ loose ob s ↔ B.Holds σ loose ob s := by
  simp only [Holds, Forwards, h.parked, h.keeps]

theorem Parks.agrees (P : B.Parks) (h : B.Agrees B') : B'.Parks where
  drawn u q m := Nat.lt_of_lt_of_le (P.drawn u q (h.parked ▸ m)) h.drawn
  once u := h.parked ▸ P.once u
  unmoved u waits q m := P.unmoved u (h.actual ▸ waits) q (h.parked ▸ m)

/-- **Registrations come**, whose subscriptions are still to be made, **and go**. -/
theorem Custody.registers (A : B.Custody σ loose pending) (h : B.Agrees B')
    (registered : ∀ ob t, (t, σ) ∈ B'.registered ob → (ob, t) ∈ pending' ∨
      (t, σ) ∈ B.registered ob ∧ ((ob, t) ∈ pending → (ob, t) ∈ pending')) :
    B'.Custody σ loose pending' where
  toParks := A.toParks.agrees h
  owned ob t m := by
    obtain new | ⟨old, still⟩ := registered ob t m
    · exact .inl new
    · obtain transit | ⟨s, stands, held⟩ := A.owned ob t old
      · exact .inl (still transit)
      · exact .inr ⟨s, h.disposal? ▸ stands, h.holds.2 held⟩

/-- `B'` is `B` with more tokens drawn. -/
def Draws (B B' : Board) : Prop := ∃ n, B.drawn ≤ n ∧ B' = { B with drawn := n }

theorem Draws.refl (B : Board) : B.Draws B := ⟨B.drawn, Nat.le_refl _, rfl⟩

theorem Draws.of_eq (same : B' = B) : B.Draws B' := same ▸ .refl B

theorem Draws.trans (h : B.Draws B') (h' : B'.Draws B'') : B.Draws B'' := by
  obtain ⟨n, more, rfl⟩ := h
  obtain ⟨n', more', rfl⟩ := h'
  exact ⟨n', Nat.le_trans more more', rfl⟩

theorem Custody.draws (A : B.Custody σ loose pending) (h : B.Draws B') :
    B'.Custody σ loose pending := by
  obtain ⟨n, more, rfl⟩ := h
  exact A.registers ⟨rfl, rfl, rfl, rfl, more⟩ fun ob t m => .inr ⟨by cases ob with
    | leaf l => cases l <;> exact m
    | _ => exact m, id⟩

/-! ### A subscription is made -/

/-- `B'` is `B` with a new subscription that takes something back. -/
def Issues (B B' : Board) (s : Ref .subscription) (d : Option Disposal) : Prop :=
  B.disposal? s = none ∧
    B' = { B with disposal? := fun s' => if s' = s then d else B.disposal? s' }

theorem Custody.issues {d : Option Disposal} (A : B.Custody σ loose pending) (h : B.Issues B' s d)
    (settled : ∀ ob t, (ob, t) ∈ pending → (ob, t) ∈ pending' ∨
      d = some (.callback ob t) ∧ s ∈ loose')
    (still : ∀ s ∈ loose, s ∈ loose') : B'.Custody σ loose' pending' := by
  obtain ⟨fresh, rfl⟩ := h
  refine ⟨⟨A.drawn, A.once, A.unmoved⟩, fun ob t m => ?_⟩
  have was : (t, σ) ∈ B.registered ob := by
    cases ob with
    | leaf l => cases l <;> exact m
    | _ => exact m
  obtain transit | ⟨s', stands, held⟩ := A.owned ob t was
  · obtain transit | ⟨is, kept⟩ := settled ob t transit
    · exact .inl transit
    · exact .inr ⟨s, by simp only [if_true, is], .inr (.inl kept)⟩
  · have other : s' ≠ s := by
      rintro rfl
      cases fresh.symm.trans stands
    refine .inr ⟨s', by simp only [if_neg other, stands], ?_⟩
    obtain keeps | kept | forwards := held
    · exact .inl (by cases σ <;> exact keeps)
    · exact .inr (.inl (still s' kept))
    · exact .inr (.inr forwards)

/-! ### Subscriptions change hands -/

/-- **Subscriptions change hands.** -/
theorem Custody.rearranges (A : B.Custody σ loose pending)
    (registered : B'.registered = B.registered) (parked : B'.parked = B.parked)
    (actual : B'.actual = B.actual) (disposal? : B'.disposal? = B.disposal?)
    (drawn : B'.drawn = B.drawn)
    (held : ∀ s, s ∈ B.keeps σ ∨ s ∈ loose → s ∈ B'.keeps σ ∨ s ∈ loose') :
    B'.Custody σ loose' pending where
  drawn u q m := drawn ▸ A.drawn u q (parked ▸ m)
  once u := parked ▸ A.once u
  unmoved u waits q m := A.unmoved u (actual ▸ waits) q (parked ▸ m)
  owned ob t m := by
    obtain transit | ⟨s, stands, keeps | kept | ⟨leaf, u, q, m, forwards⟩⟩ :=
      A.owned ob t (registered ▸ m)
    · exact .inl transit
    · exact .inr ⟨s, disposal? ▸ stands, (held s (.inl keeps)).imp_right .inl⟩
    · exact .inr ⟨s, disposal? ▸ stands, (held s (.inr kept)).imp_right .inl⟩
    · exact .inr ⟨s, disposal? ▸ stands, .inr (.inr ⟨leaf, u, q, parked ▸ m, forwards⟩)⟩

/-- More may be in transit. -/
theorem Custody.mono (A : B.Custody σ loose pending) (more : ∀ s ∈ loose, s ∈ loose') :
    B.Custody σ loose' pending :=
  A.rearranges rfl rfl rfl rfl rfl fun s => Or.imp_right (more s)

theorem Custody.mono_pending (A : B.Custody σ loose pending) (more : ∀ x ∈ pending, x ∈ pending') :
    B.Custody σ loose pending' :=
  ⟨A.toParks, fun ob t m => (A.owned ob t m).imp_left (more _)⟩

/-- A subscription that stands for nothing ends nothing. -/
theorem Custody.forget (A : B.Custody σ (s :: loose) pending)
    (nothing : ∀ ob t, B.disposal? s ≠ some (.callback ob t)) : B.Custody σ loose pending where
  toParks := A.toParks
  owned ob t m := by
    obtain transit | ⟨s', stands, held⟩ := A.owned ob t m
    · exact .inl transit
    · refine .inr ⟨s', stands, held.imp_right (.imp_left fun kept => ?_)⟩
      refine (List.mem_cons.1 kept).resolve_left ?_
      rintro rfl
      exact nothing ob t stands

/-! ### Subscribers are parked and moved -/

/-- `B'` has one subscriber more parked at a placeholder, under a token that `B` had not drawn. -/
structure Admits (B B' : Board) (u : Ref .placeholder) (t : Token) (τ : Subscriber) : Prop where
  fresh : B.drawn ≤ t.index
  more : t.index < B'.drawn
  board : B' = { B with
    parked := fun u' => if u' = u then B.parked u ++ [⟨t, τ, none⟩] else B.parked u'
    drawn := B'.drawn }

theorem Admits.mem_parked {u u' : Ref .placeholder} {τ : Subscriber} {q : Parked}
    (h : B.Admits B' u t τ) : q ∈ B'.parked u' ↔
      q ∈ B.parked u' ∨ u' = u ∧ q = ⟨t, τ, none⟩ := by
  rw [h.board]
  dsimp only
  split
  next is => simp [is]
  next other => simp [other]

theorem Parks.admits {u : Ref .placeholder} {τ : Subscriber} (P : B.Parks) (h : B.Admits B' u t τ) :
    B'.Parks where
  drawn u' q m := by
    obtain m | ⟨-, rfl⟩ := h.mem_parked.1 m
    · exact Nat.lt_trans (Nat.lt_of_lt_of_le (P.drawn u' q m) h.fresh) h.more
    · exact h.more
  once u' := by
    rw [h.board]
    dsimp only
    split
    next is =>
      rw [List.map_append, List.nodup_append]
      refine ⟨P.once u, List.pairwise_singleton _ _, fun t₁ m t₂ m' same => ?_⟩
      obtain ⟨q, parked, rfl⟩ := List.mem_map.1 m
      have older := P.drawn u q parked
      rw [same, List.mem_singleton.1 m'] at older
      exact Nat.not_lt.2 h.fresh older
    · exact P.once u'
  unmoved u' waits q m := by
    rw [h.board] at waits
    obtain m | ⟨-, rfl⟩ := h.mem_parked.1 m
    · exact P.unmoved u' waits q m
    · rfl

/-- **A subscriber is parked**, and its subscription is still to be made. -/
theorem Custody.admits {u : Ref .placeholder} {τ : Subscriber} (A : B.Custody σ loose pending)
    (h : B.Admits B' u t τ) (transit : τ = σ → (.leaf (.placeholder u), t) ∈ pending')
    (still : ∀ x ∈ pending, x ∈ pending') : B'.Custody σ loose pending' where
  toParks := A.toParks.admits h
  owned ob t' m := by
    have was : (t', σ) ∈ B.registered ob ∨
        ob = .leaf (.placeholder u) ∧ t' = t ∧ τ = σ := by
      cases ob with
      | leaf l =>
        cases l with
        | placeholder u' =>
          obtain ⟨q, parked, is⟩ := List.mem_map.1 m
          obtain parked | ⟨rfl, rfl⟩ := h.mem_parked.1 parked
          · exact .inl (List.mem_map.2 ⟨q, parked, is⟩)
          · cases is
            exact .inr ⟨rfl, rfl, rfl⟩
        | _ => rw [h.board] at m; exact .inl m
      | _ => rw [h.board] at m; exact .inl m
    obtain was | ⟨rfl, rfl, own⟩ := was
    · have disposals : B'.disposal? = B.disposal? := by rw [h.board]
      have keeps : B'.keeps σ = B.keeps σ := by
        rw [h.board]
        cases σ <;> rfl
      obtain old | ⟨s, stands, held⟩ := A.owned ob t' was
      · exact .inl (still _ old)
      · refine .inr ⟨s, disposals ▸ stands, ?_⟩
        obtain kept | kept | ⟨leaf, u', q, parked, forwards⟩ := held
        · exact .inl (keeps ▸ kept)
        · exact .inr (.inl kept)
        · exact .inr (.inr ⟨leaf, u', q, h.mem_parked.2 (.inl parked), forwards⟩)
    · exact .inl (transit own)

/-- The property is there that a placeholder waited for. -/
theorem Custody.appears (A : B.Custody σ loose pending)
    {actual : Ref .placeholder → List (Ref .property)}
    (still : ∀ u, actual u = [] → B.actual u = []) :
    ({ B with actual } : Board).Custody σ loose pending where
  drawn := A.drawn
  once := A.once
  unmoved u waits := A.unmoved u (still u waits)
  owned ob t m := by
    have was : (t, σ) ∈ B.registered ob := by
      cases ob with
      | leaf l => cases l <;> exact m
      | _ => exact m
    obtain transit | ⟨s, stands, kept | held⟩ := A.owned ob t was
    · exact .inl transit
    · exact .inr ⟨s, stands, .inl (by cases σ <;> exact kept)⟩
    · exact .inr ⟨s, stands, .inr held⟩

/-- `B'` is `B` with a parked subscriber moved: its placeholder keeps a subscription for it. -/
def Moves (B B' : Board) (u : Ref .placeholder) (t : Token) (s : Ref .subscription) : Prop :=
  B' = { B with
    parked := fun u' => if u' = u then
      (B.parked u).map fun q => if q.token = t then { q with moved := some s } else q
      else B.parked u' }

/-- The one who is moved is still parked. -/
theorem Moves.mem_moved {u : Ref .placeholder} {q : Parked} (h : B.Moves B' u q.token s)
    (m : q ∈ B.parked u) : { q with moved := some s } ∈ B'.parked u := by
  rw [h]
  dsimp only
  rw [if_pos rfl]
  exact List.mem_map.2 ⟨q, m, by rw [if_pos rfl]⟩

/-- Others are parked as they were. -/
theorem Moves.mem_other {u u' : Ref .placeholder} {q : Parked} (h : B.Moves B' u t s)
    (m : q ∈ B.parked u') (other : u' = u → q.token ≠ t) : q ∈ B'.parked u' := by
  rw [h]
  dsimp only
  split
  next is =>
    subst is
    exact List.mem_map.2 ⟨q, m, by rw [if_neg (other rfl)]⟩
  · exact m

/-- Those who are parked are the same as before, each under its token. -/
theorem Moves.map_parked {β : Type} {u : Ref .placeholder} (h : B.Moves B' u t s)
    {g : Parked → β} (same : ∀ q s, g { q with moved := s } = g q) (u' : Ref .placeholder) :
    (B'.parked u').map g = (B.parked u').map g := by
  rw [h]
  dsimp only
  split
  next is =>
    rw [is, List.map_map]
    refine List.map_congr_left fun q _ => ?_
    simp only [Function.comp_apply]
    split
    · exact same q _
    · rfl
  · rfl

theorem Moves.registered {u : Ref .placeholder} (h : B.Moves B' u t s) :
    B'.registered = B.registered := by
  funext ob
  cases ob with
  | leaf l =>
    cases l with
    | placeholder u' => exact h.map_parked (fun _ _ => rfl) u'
    | _ => rw [h]; rfl
  | _ => rw [h]; rfl

theorem Parks.moves {u : Ref .placeholder} (P : B.Parks) (h : B.Moves B' u t s)
    (there : B.actual u ≠ []) : B'.Parks where
  drawn u' q m := by
    have drawn : B'.drawn = B.drawn := by rw [h]
    have m : q.token ∈ (B'.parked u').map (·.token) := List.mem_map_of_mem m
    rw [h.map_parked (fun _ _ => rfl) u'] at m
    obtain ⟨q', parked, same⟩ := List.mem_map.1 m
    rw [drawn, ← same]
    exact P.drawn u' q' parked
  once u' := by
    rw [h.map_parked (fun _ _ => rfl) u']
    exact P.once u'
  unmoved u' waits q m := by
    rw [h] at waits m
    dsimp only at waits m
    have other : u' ≠ u := by
      rintro rfl
      exact there waits
    rw [if_neg other] at m
    exact P.unmoved u' waits q m

/-- **A parked subscriber is moved** to the property, with a subscription of its own. -/
theorem Custody.moves {u : Ref .placeholder} {q : Parked} {p : Ref .property} {t : Token}
    (A : B.Custody σ (if q.subscriber = σ then s :: loose else loose) pending)
    (h : B.Moves B' u q.token s) (there : B.actual u ≠ []) (parked : q ∈ B.parked u)
    (unmoved : q.moved = none) (stands : B.disposal? s = some (.callback (.leaf (.property p)) t)) :
    B'.Custody σ loose pending where
  toParks := A.toParks.moves h there
  owned ob t' m := by
    have disposals : B'.disposal? = B.disposal? := by rw [h]
    have keeps : B'.keeps σ = B.keeps σ := by
      rw [h]
      cases σ <;> rfl
    obtain transit | ⟨s', stands', kept | kept | ⟨leaf, u', q', parked', own, moved⟩⟩ :=
      A.owned ob t' (h.registered ▸ m)
    · exact .inl transit
    · exact .inr ⟨s', disposals ▸ stands', .inl (keeps ▸ kept)⟩
    · have place : s' ∈ loose ∨ s' = s ∧ q.subscriber = σ := by
        split at kept
        next own => exact (List.mem_cons.1 kept).symm.imp_right fun is => ⟨is, own⟩
        · exact .inl kept
      obtain kept | ⟨rfl, own⟩ := place
      · exact .inr ⟨s', disposals ▸ stands', .inr (.inl kept)⟩
      · cases stands.symm.trans stands'
        exact .inr ⟨s', disposals ▸ stands',
          .inr (.inr ⟨⟨p, rfl⟩, u, _, h.mem_moved parked, own, rfl⟩)⟩
    · have still : q' ∈ B'.parked u' := by
        refine h.mem_other parked' ?_
        rintro rfl same
        -- the one who is moved is parked only once, and was not moved before
        cases List.inj_on_of_nodup_map (A.once u') parked' parked same
        cases unmoved.symm.trans moved
      exact .inr ⟨s', disposals ▸ stands', .inr (.inr ⟨leaf, u', q', still, own, moved⟩)⟩

/-! ### What a subscription stands for is taken back -/

/-- The board on which a subscription is disposed. -/
def without (B : Board) (s : Ref .subscription) : Board :=
  { B with disposal? := fun s' => if s' = s then none else B.disposal? s' }

theorem registered_without (B : Board) (s : Ref .subscription) :
    (B.without s).registered = B.registered := by
  funext ob
  cases ob with
  | leaf l => cases l <;> rfl
  | _ => rfl

theorem keeps_without (B : Board) (s : Ref .subscription) : (B.without s).keeps = B.keeps := by
  funext σ
  cases σ <;> rfl

theorem disposal?_without {s' : Ref .subscription} (other : s' ≠ s) :
    (B.without s).disposal? s' = B.disposal? s' := if_neg other

theorem Parks.without (P : B.Parks) (s : Ref .subscription) : (B.without s).Parks :=
  ⟨P.drawn, P.once, P.unmoved⟩

/-- `B'` is `B` without the registrations with an observer under a token; what they kept comes back as
`more`. -/
structure Releases (B B' : Board) (ob : Observer) (t : Token) (more : List (Ref .subscription)) :
    Prop where
  registered : ∀ ob' p, p ∈ B'.registered ob' → p ∈ B.registered ob' ∧ ¬ (ob' = ob ∧ p.1 = t)
  parked : ∀ u, (B'.parked u).Sublist (B.parked u)
  forwarded : ∀ u, ∀ q ∈ B.parked u, q ∈ B'.parked u ∨ ∀ s, q.moved = some s → s ∈ more
  actual : B'.actual = B.actual
  keeps : ∀ σ, ∀ s ∈ B.keeps σ, s ∈ B'.keeps σ ∨ s ∈ more
  disposal? : B'.disposal? = B.disposal?
  drawn : B'.drawn = B.drawn

theorem Parks.releases {more : List (Ref .subscription)} (P : B.Parks)
    (h : B.Releases B' ob t more) : B'.Parks where
  drawn u q m := h.drawn ▸ P.drawn u q ((h.parked u).subset m)
  once u := (P.once u).sublist ((h.parked u).map _)
  unmoved u waits q m := P.unmoved u (h.actual ▸ waits) q ((h.parked u).subset m)

/-- **A subscription is disposed**, and what its registration kept is in transit. -/
theorem Custody.releases {more : List (Ref .subscription)} (A : B.Custody σ (s :: loose) pending)
    (stands : B.disposal? s = some (.callback ob t)) (h : (B.without s).Releases B' ob t more) :
    B'.Custody σ (more ++ loose) pending where
  toParks := (A.toParks.without s).releases h
  owned ob' t' m := by
    obtain ⟨was, kept⟩ := h.registered ob' _ m
    rw [registered_without] at was
    obtain transit | ⟨s', stands', held⟩ := A.owned ob' t' was
    · exact .inl transit
    · have other : s' ≠ s := by
        rintro rfl
        cases stands.symm.trans stands'
        exact kept ⟨rfl, rfl⟩
      refine .inr ⟨s', by rw [h.disposal?, disposal?_without other, stands'], ?_⟩
      obtain keeps | kept | ⟨leaf, u, q, parked, own, moved⟩ := held
      · rw [← keeps_without B s] at keeps
        exact (h.keeps σ s' keeps).imp_right fun m => .inl (List.mem_append_left _ m)
      · exact .inr (.inl (List.mem_append_right _ ((List.mem_cons.1 kept).resolve_left other)))
      · obtain parked | back := h.forwarded u q parked
        · exact .inr (.inr ⟨leaf, u, q, parked, own, moved⟩)
        · exact .inr (.inl (List.mem_append_left _ (back s' moved)))

/-- A subscription is disposed that stands for no registration. -/
theorem Custody.ended (A : B.Custody σ (s :: loose) pending)
    (nothing : ∀ ob t, B.disposal? s ≠ some (.callback ob t)) :
    (B.without s).Custody σ loose pending where
  toParks := A.toParks.without s
  owned ob t m := by
    rw [registered_without] at m
    obtain transit | ⟨s', stands, held⟩ := (A.forget nothing).owned ob t m
    · exact .inl transit
    · have other : s' ≠ s := by
        rintro rfl
        exact nothing ob t stands
      refine .inr ⟨s', (disposal?_without other).trans stands, held.imp_left fun keeps => ?_⟩
      rwa [keeps_without]

end Board

end ViewBinding
