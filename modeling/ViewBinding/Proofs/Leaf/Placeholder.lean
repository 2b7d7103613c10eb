import ViewBinding.Proofs.Ends
import ViewBinding.Proofs.Leaf.Subscribe

/-!
# Leaf — subscribers that wait for a property

A placeholder parks its subscribers while the property does not exist (`park_spec`).  Once the
property exists the placeholder is resolved: the dispatcher hands out a property observer in its
place, and every parked subscriber is registered there under a subscription of its own, in the
order of parking.  Whoever was enrolled stays enrolled (`resolvePlaceholder_spec`).
-/

namespace ViewBinding

namespace World

variable {η : Type} {w w' w'' : World η}

/-! ### Parking -/

/-- A world with a subscriber parked at a placeholder. -/
def withParked (w : World η) (u : Ref .placeholder) (t : Token) (sub : Subscriber) : World η :=
  { w.modifyPlaceholder u fun cell =>
      { cell with parked := cell.parked ++ [⟨t, sub, none⟩] } with
    subscriptions := w.subscriptions.alloc ⟨some (.callback (.leaf (.placeholder u)) t)⟩ }

section
variable {u : Ref .placeholder} {c : PlaceholderCell} {t : Token} {sub : Subscriber}
  {o : Ref .object} {n : String}

theorem enrols_withParked (e : w.placeholders.get? u = some c)
    (issued : ∀ s ob t', w.disposal? s = some (.callback ob t') → t'.index < t.index)
    (heard : ∀ l' t' sub', (t', sub') ∈ w.audience l' → t'.index < t.index)
    (token : t.index < w.nextToken) :
    w.Enrols (w.withParked u t sub) (.placeholder u) t sub where
  config := rfl
  elements _ := rfl
  arrays := rfl
  locator := rfl
  contains _ := rfl
  isFrozen _ := rfl
  dispatchers _ := rfl
  properties _ := rfl
  placeholders _ := Store.map_get?_modify _ _ _ fun _ => rfl
  place? l := by
    cases l with
    | placeholder r => exact Store.map_get?_modify _ _ _ fun _ => rfl
    | _ => rfl
  successor? l := by
    cases l with
    | placeholder r =>
        simp only [World.successor?, withParked, modifyPlaceholder, Store.get?_modify]
        split
        next same => simp [same, e]
        · rfl
    | _ => rfl
  audience l := by
    cases l with
    | placeholder r =>
        simp only [audience, withParked, modifyPlaceholder, Store.get?_modify,
          Leaf.placeholder.injEq]
        split
        next same => simp [e]
        · rfl
    | _ => rfl
  movedTo? u' t' := by
    simp only [World.movedTo?, withParked, modifyPlaceholder, Store.get?_modify]
    by_cases same : u' = u
    · subst same
      simp only [if_true, e, Option.map_some, List.find?_append]
      cases c.parked.find? fun q => decide (q.token = t') with
      | some q => rfl
      | none =>
        simp only [Option.none_or, List.find?_singleton]
        split <;> rfl
    · simp only [if_neg same]
  subscriptions := rfl
  issued := issued
  heard := heard
  token := token
  nextToken := Nat.le_refl _

/-- The cell of the placeholder at a property, with its dispatcher. -/
theorem Located.placeholder (h : w.Located) (at' : w.leafAt? o n = some (.placeholder u)) :
    ∃ c dc, w.placeholders.get? u = some c ∧ c.object = o ∧ c.property = n ∧ c.actual = none ∧
      w.dispatchers.get? c.dispatcher = some dc ∧ dc.object = o ∧
      w.objects.contains o = true := by
  obtain ⟨place, unresolved, -⟩ := h.current o n _ at'
  simp only [place?, Option.map_eq_some_iff, Prod.mk.injEq] at place
  obtain ⟨c, e, rfl, rfl⟩ := place
  simp only [successor?, e, Option.bind_some] at unresolved
  have home := h.placeholderHome u c e
  obtain ⟨dc, e', eo⟩ := h.dispatcher _ _ home
  exact ⟨c, dc, e, rfl, rfl, unresolved, e', eo, h.liveDispatchers _ (Entries.mem_of_get? home)⟩

/-- What subscribing to a placeholder does whose property does not exist. -/
def park (w : World η) (u : Ref .placeholder) (sub : Subscriber) : Ref .subscription × World η :=
  let w :=
    match w.placeholders.get? u with
    | some cell => w.startObserving cell.dispatcher
    | none => w
  (w.subscriptions.next, w.drawToken.withParked u ⟨w.nextToken⟩ sub)

theorem park_spec (h : w.Wired) (at' : w.leafAt? o n = some (.placeholder u)) (sub : Subscriber) :
    (w.park u sub).1 = w.subscriptions.next ∧
      ∃ t, w.Joins (w.park u sub).2 (.placeholder u) t sub := by
  obtain ⟨c, dc, e, rfl, rfl, -, e', eo, live⟩ := h.toLocated.placeholder at'
  obtain ⟨tunes, still, wired₁, dc', e₁, eo₁, listening⟩ :=
    startObserving_spec h e' (eo ▸ live)
  have has := has_startObserving w c.dispatcher
  have result : w.park u sub =
      ((w.startObserving c.dispatcher).subscriptions.next,
        (w.startObserving c.dispatcher).drawToken.withParked u
          ⟨(w.startObserving c.dispatcher).nextToken⟩ sub) := by
    simp only [park, e]
  rw [result]
  have same : (w.startObserving c.dispatcher).placeholders = w.placeholders := by
    rw [startObserving_eq e' (eo ▸ live)]
    split <;> rfl
  generalize w.startObserving c.dispatcher = w₁ at *
  have drawn := tunes_drawToken w₁
  have first : w₁.Still w₁.drawToken := .of_eq rfl rfl rfl
  have enrols : w₁.drawToken.Enrols (w₁.drawToken.withParked u ⟨w₁.nextToken⟩ sub) (.placeholder u)
      ⟨w₁.nextToken⟩ sub :=
    enrols_withParked (same ▸ e)
      (fun s ob t' e => wired₁.issued s ob t' (drawn.disposal? s ▸ e))
      (fun l' t' sub' m => wired₁.heard l' t' sub' (drawn.audience l' ▸ m)) (Nat.lt_succ_self _)
  have still' : w₁.drawToken.Still (w₁.drawToken.withParked u ⟨w₁.nextToken⟩ sub) :=
    .of_eq rfl rfl rfl
  have wiredDrawn := wired₁.drawToken
  refine ⟨congrArg Store.next tunes.subscriptions, ⟨w₁.nextToken⟩, ⟨_, tunes.trans drawn, enrols⟩,
    tunes.nextToken, ⟨enrols.located wiredDrawn.toLocated, enrols.registered wiredDrawn.toLocated
      wiredDrawn.toRegistered, ?_⟩, (still.trans first).trans still',
    fun o n e => (has o n).trans e, fun o n e => .inl ((has o n).symm.trans e)⟩
  refine ⟨wired₁.listener, wired₁.listens, ?_, wired₁.trapping, wired₁.willing, wired₁.trap,
    wired₁.scheduled, wired₁.pending, wired₁.queued, wired₁.tasks, wired₁.known⟩
  intro o n l at₁ heard dispatched
  rw [enrols.leafAt?] at at₁
  rw [enrols.isDispatched] at dispatched
  obtain ⟨q, m⟩ := List.exists_mem_of_ne_nil _ heard
  rcases enrols.mem_audience.1 m with m | ⟨rfl, -⟩
  · exact wiredDrawn.hearing o n l at₁ (List.ne_nil_of_mem m) dispatched
  · obtain ⟨place, -, -⟩ := wiredDrawn.current o n _ at₁
    have placeU : w₁.drawToken.place? (.placeholder u) = some (c.object, c.property) := by
      simp only [place?, drawToken, same, e, Option.map_some]
    rw [placeU, Option.some.injEq, Prod.mk.injEq] at place
    exact ⟨_, dc', e₁, eo₁.trans (eo.trans place.1), listening⟩

end

/-! ### Moving one subscriber -/

/-- `w'` is `w` except that the registration with the token `t` at the placeholder `u` is heard
through the subscription `s`. -/
structure Moves (w w' : World η) (u : Ref .placeholder) (t : Token) (s : Ref .subscription) : Prop
    extends Aligned w w' where
  audience : ∀ l, w'.audience l = w.audience l
  movedTo? : ∀ u' t', w'.movedTo? u' t' = if u' = u ∧ t' = t then some s else w.movedTo? u' t'
  subscriptions : w'.subscriptions = w.subscriptions
  nextToken : w'.nextToken = w.nextToken

namespace Moves

variable {u : Ref .placeholder} {t t' : Token} {s s' : Ref .subscription} {p : Ref .property}

theorem directVoice? (h : w.Moves w' u t s) (s' : Ref .subscription) :
    w'.directVoice? s' = w.directVoice? s' := by
  simp only [World.directVoice?, disposal?, h.subscriptions]

theorem isMoved (h : w.Moves w' u t s) (none : w.movedTo? u t = none) (s' : Ref .subscription) :
    w'.IsMoved s' ↔ w.IsMoved s' ∨ s' = s := by
  constructor
  · rintro ⟨u', t', e⟩
    rw [h.movedTo?] at e
    split at e
    · exact .inr (Option.some.inj e).symm
    · exact .inl ⟨u', t', e⟩
  · rintro (⟨u', t', e⟩ | rfl)
    · refine ⟨u', t', ?_⟩
      rw [h.movedTo?, if_neg, e]
      rintro ⟨rfl, rfl⟩
      rw [none] at e
      cases e
    · exact ⟨u, t, (h.movedTo? u t).trans (if_pos ⟨rfl, rfl⟩)⟩

/-- The parked subscription is now heard where the new subscription is. -/
theorem voice?_self (h : w.Moves w' u t s) (resolved : w.successor? (.placeholder u) = some p)
    (own : w.directVoice? s' = some (.placeholder u, t)) : w'.voice? s' = w.directVoice? s := by
  simp only [World.voice?, h.directVoice?, own, throughSuccessor?, h.successor?, resolved,
    h.movedTo?, and_self, if_true]

/-- Every other subscription is heard where it was. -/
theorem voice?_of_ne (h : w.Moves w' u t s)
    (other : w.directVoice? s' ≠ some (.placeholder u, t)) : w'.voice? s' = w.voice? s' := by
  simp only [World.voice?, h.directVoice?, throughSuccessor?, h.successor?, h.movedTo?]
  cases e : w.directVoice? s' with
  | none => rfl
  | some v =>
    obtain ⟨l, t'⟩ := v
    cases l with
    | placeholder u' =>
        have : ¬ (u' = u ∧ t' = t) := by
          rintro ⟨eu, et⟩
          exact other (by rw [e, eu, et])
        simp only [if_neg this]
    | _ => rfl

end Moves

section
variable {u : Ref .placeholder} {t t' : Token} {s own : Ref .subscription} {p : Ref .property}

/-- **Moving one subscriber.**  Its own subscription enrols it in place of the one that the
placeholder made for it. -/
theorem Moves.registered (h : w.Moves w' u t s) (r : w.Registered)
    (resolved : w.successor? (.placeholder u) = some p) (none : w.movedTo? u t = none)
    (new : w.directVoice? s = some (.property p, t')) (fresh : ¬ w.IsMoved s)
    (ownVoice : w.directVoice? own = some (.placeholder u, t)) (unmoved : ¬ w.IsMoved own) :
    w'.Registered where
  issued s ob t e := by
    simp only [disposal?, h.subscriptions] at e
    exact h.nextToken ▸ r.issued s ob t e
  alone s s' ob ob' t e e' := by
    simp only [disposal?, h.subscriptions] at e e'
    exact r.alone s s' ob ob' t e e'
  sorted l := h.audience l ▸ r.sorted l
  heard l t sub m := by
    rw [h.nextToken]
    exact r.heard l t sub (h.audience l ▸ m)
  unmoved u' t' e := by
    rw [h.successor?] at e
    rw [h.movedTo?, if_neg, r.unmoved u' t' e]
    rintro ⟨rfl, -⟩
    rw [resolved] at e
    cases e
  moved u' t₁ s' e := by
    rw [h.movedTo?] at e
    rw [h.subscriptions]
    split at e
    · cases e
      simp only [World.directVoice?, disposal?] at new
      cases cell : w.subscriptions.get? s with
      | none => simp [cell] at new
      | some c => rfl
    · exact r.moved u' t₁ s' e
  movedKind u' t₁ s' d e v := by
    simp only [disposal?, h.subscriptions] at v
    rw [h.movedTo?] at e
    split at e
    · cases e
      have := (disposal?_of_directVoice? new).symm.trans v
      cases this
      exact ⟨p, t', rfl⟩
    · exact r.movedKind u' t₁ s' d e v
  movedAlone u₁ u₂ t₁ t₂ s' e₁ e₂ := by
    rw [h.movedTo?] at e₁ e₂
    split at e₁ <;> split at e₂
    next b₁ b₂ => exact ⟨b₁.1.trans b₂.1.symm, b₁.2.trans b₂.2.symm⟩
    · cases e₁
      exact absurd ⟨u₂, t₂, e₂⟩ fresh
    · cases e₂
      exact absurd ⟨u₁, t₁, e₁⟩ fresh
    · exact r.movedAlone u₁ u₂ t₁ t₂ s' e₁ e₂
  voiced o' n' l t₁ sub' e m := by
    rw [h.leafAt?] at e
    rw [h.audience] at m
    obtain ⟨s', own', v⟩ := r.voiced o' n' l t₁ sub' e m
    have voiceNew : w.voice? s = some (.property p, t') := by
      simp only [World.voice?, new, throughSuccessor?]
    by_cases same : s' = s
    · -- what the new subscription was registered for, is heard through the parked one
      rw [same, voiceNew] at v
      cases v
      refine ⟨own, ?_, (h.voice?_self resolved ownVoice).trans new⟩
      rw [h.isMoved none]
      rintro (m | rfl)
      · exact unmoved m
      · rw [new] at ownVoice
        cases ownVoice
    · refine ⟨s', fun m => ?_, (h.voice?_of_ne ?_).trans v⟩
      · exact ((h.isMoved none s').1 m).elim own' same
      · intro direct
        simp only [World.voice?, direct, throughSuccessor?, resolved, none] at v
        cases v

/-- Who is enrolled after one subscriber has moved. -/
theorem Moves.enrolled_iff (h : w.Moves w' u t s) (r : w.Registered)
    (resolved : w.successor? (.placeholder u) = some p) (none : w.movedTo? u t = none)
    (new : w.directVoice? s = some (.property p, t'))
    (ownVoice : w.directVoice? own = some (.placeholder u, t)) (unmoved : ¬ w.IsMoved own)
    {s' : Ref .subscription} {o' : Ref .object} {n' : String} {sub' : Subscriber} :
    w'.Enrolled s' o' n' sub' ↔ w.Enrolled s' o' n' sub' ∧ s' ≠ s ∨
      s' = own ∧ ∃ l t₁, w.directVoice? s = some (l, t₁) ∧ w.leafAt? o' n' = some l
        ∧ (t₁, sub') ∈ w.audience l := by
  have silent : w.voice? own = Option.none := by
    simp only [World.voice?, ownVoice, throughSuccessor?, resolved, none]
  have direct : ∀ s', w.directVoice? s' = some (.placeholder u, t) → s' = own := fun s' e =>
    r.alone s' own _ _ t (disposal?_of_directVoice? e) (disposal?_of_directVoice? ownVoice)
  constructor
  · rintro ⟨own', l, t₁, voice, at₁, m⟩
    rw [h.leafAt?] at at₁
    rw [h.audience] at m
    by_cases same : s' = own
    · rw [same, h.voice?_self resolved ownVoice] at voice
      exact .inr ⟨same, l, t₁, voice, at₁, m⟩
    · rw [h.voice?_of_ne fun e => same (direct s' e)] at voice
      have := mt (h.isMoved none s').2 own'
      exact .inl ⟨⟨fun m => this (.inl m), l, t₁, voice, at₁, m⟩, fun e => this (.inr e)⟩
  · rintro (⟨⟨own', l, t₁, voice, at₁, m⟩, ne⟩ | ⟨rfl, l, t₁, voice, at₁, m⟩)
    · refine ⟨fun m => ((h.isMoved none s').1 m).elim own' ne, l, t₁, ?_, h.leafAt? o' n' ▸ at₁,
        h.audience l ▸ m⟩
      rw [h.voice?_of_ne, voice]
      intro e
      rw [direct s' e, silent] at voice
      cases voice
    · refine ⟨fun m => ?_, l, t₁, (h.voice?_self resolved ownVoice).trans voice,
        h.leafAt? o' n' ▸ at₁, h.audience l ▸ m⟩
      rcases (h.isMoved none s').1 m with m | rfl
      · exact unmoved m
      · rw [new] at ownVoice
        cases ownVoice

end

/-! ### Succession -/

/-- A world in which a property observer has taken the place of a placeholder. -/
def withSuccessor (w : World η) (u : Ref .placeholder) (d : Ref .dispatcher) (o : Ref .object)
    (n : String) : World η :=
  { w with
    properties := w.properties.alloc { dispatcher := d, object := o, property := n }
    dispatchers := w.dispatchers.modify d fun cell =>
      { cell with observers :=
        Entries.put n (.property w.properties.next) (Entries.erase n cell.observers) }
    placeholders := w.placeholders.modify u fun cell =>
      { cell with actual := some w.properties.next } }

section
variable {u : Ref .placeholder} {c : PlaceholderCell} {o : Ref .object} {n : String}

theorem leafAt?_withSuccessor (h : w.Located) (at' : w.leafAt? o n = some (.placeholder u))
    (e : w.placeholders.get? u = some c) (o' : Ref .object) (n' : String) :
    (w.withSuccessor u c.dispatcher o n).leafAt? o' n' =
      if o' = o ∧ n' = n then some (.property w.properties.next) else w.leafAt? o' n' := by
  obtain ⟨c', dc, e', rfl, rfl, -, ed, eo, -⟩ := h.placeholder at'
  rw [e] at e'
  cases e'
  obtain ⟨found, -, dispatched⟩ := h.found _ dc ed
  unfold leafAt?
  change (if w.isDispatched o' then _ else _) = _
  simp only [withSuccessor, Store.get?_modify]
  rw [eo] at found dispatched
  by_cases same : o' = c.object
  · subst same
    by_cases en : n' = c.property
    · simp [dispatched, found, ed, en]
    · simp [dispatched, found, ed, en, Entries.get?_put_of_ne, Entries.get?_erase_of_ne]
  · rw [if_neg (c := o' = c.object ∧ n' = c.property) fun both => same both.1]
    split
    · cases e' : Entries.get? o' w.locator.dispatchers with
      | none => rfl
      | some d' =>
        have : d' ≠ c.dispatcher := by
          rintro rfl
          obtain ⟨dc', e₁, e₂⟩ := h.dispatcher o' _ e'
          rw [ed] at e₁
          cases e₁
          exact same (e₂.symm.trans eo)
        simp only [if_neg this]
    · rfl

theorem place?_withSuccessor (w : World η) (u : Ref .placeholder) (d : Ref .dispatcher)
    (o : Ref .object) (n : String) (l : Leaf) : (w.withSuccessor u d o n).place? l =
      if l = .property w.properties.next then some (o, n) else w.place? l := by
  cases l with
  | property r =>
      simp only [place?, withSuccessor, Store.get?_alloc, Leaf.property.injEq]
      split <;> rfl
  | placeholder r => exact Store.map_get?_modify _ _ _ fun _ => rfl
  | _ => rfl

theorem successor?_withSuccessor (e : w.placeholders.get? u = some c) (d : Ref .dispatcher)
    (o : Ref .object) (n : String) (l : Leaf) : (w.withSuccessor u d o n).successor? l =
      if l = .placeholder u then some w.properties.next else w.successor? l := by
  cases l with
  | placeholder r =>
      simp only [successor?, withSuccessor, Store.get?_modify, Leaf.placeholder.injEq]
      split <;> simp [e]
  | _ => rfl

theorem audience_withSuccessor (w : World η) (u : Ref .placeholder) (d : Ref .dispatcher)
    (o : Ref .object) (n : String) (l : Leaf) :
    (w.withSuccessor u d o n).audience l = w.audience l := by
  cases l with
  | property r =>
      simp only [audience, withSuccessor, Store.get?_alloc]
      split
      next new => simp [new, Listeners.empty]
      · rfl
  | placeholder r =>
      exact congrArg (Option.getD · []) (Store.map_get?_modify _ _ _ fun _ => rfl)
  | _ => rfl

theorem movedTo?_withSuccessor (w : World η) (u : Ref .placeholder) (d : Ref .dispatcher)
    (o : Ref .object) (n : String) (u' : Ref .placeholder) (t : Token) :
    (w.withSuccessor u d o n).movedTo? u' t = w.movedTo? u' t := by
  simp only [movedTo?, withSuccessor, Store.get?_modify]
  by_cases same : u' = u
  · subst same
    simp only [if_true]
    cases w.placeholders.get? u' <;> rfl
  · simp only [if_neg same]

theorem located_withSuccessor (h : w.Located) (at' : w.leafAt? o n = some (.placeholder u))
    (e : w.placeholders.get? u = some c) :
    (w.withSuccessor u c.dispatcher o n).Located := by
  have handed := leafAt?_withSuccessor h at' e
  have place := place?_withSuccessor w u c.dispatcher o n
  have successor := successor?_withSuccessor e c.dispatcher o n
  obtain ⟨placeU, -, dispatched⟩ := h.current o n _ at'
  obtain ⟨c', dc, e', eo', en', -, ed, eo, live⟩ := h.placeholder at'
  rw [e] at e'
  cases e'
  have fits : ∀ o l, (w.withSuccessor u c.dispatcher o n).Fits o l ↔ w.Fits o l := fun o l => by
    cases l <;> exact Iff.rfl
  refine ⟨h.liveDispatchers, h.liveProperties, h.liveElements, h.liveContents, ?_, ?_, ?_, ?_, ?_,
    ?_⟩
  · intro o' d e'
    obtain ⟨dc', e₁, rfl⟩ := h.dispatcher o' d e'
    simp only [withSuccessor, Store.get?_modify]
    split
    next same =>
      rw [← same, e₁]
      exact ⟨_, rfl, rfl⟩
    · exact ⟨dc', e₁, rfl⟩
  · intro d dc' e'
    change Entries.get? dc'.object w.locator.dispatchers = _ ∧ _ ∧ w.isDispatched _ = _
    simp only [withSuccessor, Store.get?_modify] at e'
    split at e'
    next same =>
      rw [ed] at e'
      cases e'
      obtain ⟨found, distinct, rest⟩ := h.found _ dc ed
      exact ⟨same ▸ found, distinct.erase.put, rest⟩
    · exact h.found d dc' e'
  · intro o' n' l e'
    rw [handed] at e'
    rw [place, successor]
    split at e'
    next both =>
      cases e'
      obtain ⟨rfl, rfl⟩ := both
      exact ⟨if_pos rfl, if_neg (fun e => by cases e), dispatched⟩
    next ne =>
      obtain ⟨p, unresolved, fits⟩ := h.current o' n' l e'
      have notU : l ≠ .placeholder u := by
        rintro rfl
        rw [placeU, Option.some.injEq, Prod.mk.injEq] at p
        exact ne ⟨p.1.symm, p.2.symm⟩
      refine ⟨?_, (if_neg notU).trans unresolved, by cases l <;> exact fits⟩
      rw [if_neg, p]
      rintro rfl
      simp [place?] at p
  · intro o' n' l p
    rw [handed, successor]
    rw [place] at p
    split at p
    next new =>
      cases p
      exact .inl (by rw [if_pos ⟨rfl, rfl⟩, new])
    · by_cases both : o' = o ∧ n' = n
      · obtain ⟨rfl, rfl⟩ := both
        rcases h.unique o' n' l p with e' | ⟨r, -, e'⟩
        · rw [at'] at e'
          cases e'
          exact .inr ⟨_, if_pos rfl, if_pos ⟨rfl, rfl⟩⟩
        · rw [at'] at e'
          cases e'
      · simp only [if_neg both]
        rcases h.unique o' n' l p with e' | ⟨r, er, e'⟩
        · exact .inl e'
        · refine .inr ⟨r, ?_, e'⟩
          rw [if_neg, er]
          rintro rfl
          rw [placeU, Option.some.injEq, Prod.mk.injEq] at p
          exact both ⟨p.1.symm, p.2.symm⟩
  · intro r c₁ e₁
    change Entries.get? c₁.object w.locator.dispatchers = _
    simp only [withSuccessor, Store.get?_alloc] at e₁
    split at e₁
    · cases e₁
      rw [← eo']
      exact h.placeholderHome u c e
    · exact h.propertyHome r c₁ e₁
  · intro r c₁ e₁
    change Entries.get? c₁.object w.locator.dispatchers = _
    simp only [withSuccessor, Store.get?_modify] at e₁
    split at e₁
    next same =>
      rw [e] at e₁
      cases e₁
      exact h.placeholderHome u c e
    · exact h.placeholderHome r c₁ e₁

/-- The subscriptions of the placeholder's subscribers are silent until they are moved; all others
are heard as before. -/
theorem voice?_withSuccessor (h : w.Located) (r : w.Registered)
    (at' : w.leafAt? o n = some (.placeholder u)) (e : w.placeholders.get? u = some c)
    (s : Ref .subscription) (v : Leaf × Token) :
    (w.withSuccessor u c.dispatcher o n).voice? s = some v ↔
      w.voice? s = some v ∧ v.1 ≠ .placeholder u := by
  have unresolved : w.successor? (.placeholder u) = none := (h.current o n _ at').2.1
  have direct : ∀ s, (w.withSuccessor u c.dispatcher o n).directVoice? s = w.directVoice? s :=
    fun _ => rfl
  simp only [voice?, direct]
  cases w.directVoice? s with
  | none => simp
  | some v' =>
    obtain ⟨l, t⟩ := v'
    cases l with
    | placeholder u' =>
        simp only [throughSuccessor?, successor?_withSuccessor e, movedTo?_withSuccessor,
          Leaf.placeholder.injEq, direct]
        by_cases same : u' = u
        · subst same
          simp only [if_true, r.unmoved u' t unresolved, unresolved, Option.some.injEq]
          constructor
          · intro e
            cases e
          · rintro ⟨rfl, ne⟩
            exact absurd rfl ne
        · simp only [if_neg same]
          cases w.successor? (.placeholder u') with
          | none =>
            simp only [Option.some.injEq]
            constructor
            · rintro rfl
              exact ⟨rfl, fun e => same (Leaf.placeholder.inj e)⟩
            · exact fun both => both.1
          | some r' =>
            cases moved : w.movedTo? u' t with
            | none => simp
            | some s' =>
              refine ⟨fun e' => ⟨e', ?_⟩, fun both => both.1⟩
              obtain ⟨p, e''⟩ := r.movedDirect moved e'
              rw [e'']
              exact fun e => by cases e
    | _ =>
        simp only [throughSuccessor?, Option.some.injEq]
        constructor
        · rintro rfl
          exact ⟨rfl, fun e => by cases e⟩
        · exact fun both => both.1

theorem registered_withSuccessor (h : w.Located) (r : w.Registered)
    (at' : w.leafAt? o n = some (.placeholder u)) (e : w.placeholders.get? u = some c) :
    (w.withSuccessor u c.dispatcher o n).Registered where
  issued := r.issued
  alone := r.alone
  sorted l := audience_withSuccessor w u c.dispatcher o n l ▸ r.sorted l
  heard l t sub m := r.heard l t sub (audience_withSuccessor w u c.dispatcher o n l ▸ m)
  unmoved u' t e' := by
    rw [successor?_withSuccessor e] at e'
    rw [movedTo?_withSuccessor]
    split at e'
    · cases e'
    · exact r.unmoved u' t e'
  moved u' t s e' := r.moved u' t s (movedTo?_withSuccessor w u _ o n u' t ▸ e')
  movedKind u' t s d e' v := r.movedKind u' t s d (movedTo?_withSuccessor w u _ o n u' t ▸ e') v
  movedAlone u₁ u₂ t₁ t₂ s e₁ e₂ := r.movedAlone u₁ u₂ t₁ t₂ s
    (movedTo?_withSuccessor w u _ o n u₁ t₁ ▸ e₁) (movedTo?_withSuccessor w u _ o n u₂ t₂ ▸ e₂)
  voiced o' n' l t sub e' m := by
    rw [leafAt?_withSuccessor h at' e] at e'
    rw [audience_withSuccessor] at m
    split at e'
    · cases e'
      simp [audience] at m
    next ne =>
      obtain ⟨s, own, v⟩ := r.voiced o' n' l t sub e' m
      refine ⟨s, ?_, (voice?_withSuccessor h r at' e s (l, t)).2 ⟨v, ?_⟩⟩
      · simpa only [IsMoved, movedTo?_withSuccessor] using own
      · rintro rfl
        have place := (h.current o n _ at').1
        rw [(h.current o' n' _ e').1, Option.some.injEq, Prod.mk.injEq] at place
        exact ne place

theorem attentive_withSuccessor (h : w.Located) (a : w.Attentive)
    (at' : w.leafAt? o n = some (.placeholder u)) (e : w.placeholders.get? u = some c) :
    (w.withSuccessor u c.dispatcher o n).Attentive := by
  have dispatchers : ∀ d, ((w.withSuccessor u c.dispatcher o n).dispatchers.get? d).map
      (fun dc => (dc.object, dc.listener)) =
      (w.dispatchers.get? d).map fun dc => (dc.object, dc.listener) :=
    fun d => Store.map_get?_modify _ _ _ fun _ => rfl
  have kept : ∀ d dc, w.dispatchers.get? d = some dc →
      ∃ dc', (w.withSuccessor u c.dispatcher o n).dispatchers.get? d = some dc' ∧
        dc'.object = dc.object ∧ dc'.listener = dc.listener := by
    intro d dc e'
    have same := dispatchers d
    rw [e', Option.map_some, Option.map_eq_some_iff] at same
    obtain ⟨dc', e'', same⟩ := same
    exact ⟨dc', e'', (Prod.mk.inj same).1, (Prod.mk.inj same).2⟩
  refine ⟨?_, ?_, ?_, a.trapping, a.willing, a.trap, a.scheduled, a.pending, a.queued, a.tasks,
    a.known⟩
  · intro o' c' t l e' m
    obtain ⟨d, dc, rfl, ed, eo, el⟩ := a.listener o' c' t l e' m
    obtain ⟨dc', ed', eo', el'⟩ := kept d dc ed
    exact ⟨d, dc', rfl, ed', eo'.trans eo, el'.trans el⟩
  · intro d dc t e' el
    have same := (dispatchers d).symm
    rw [e', Option.map_some, Option.map_eq_some_iff] at same
    obtain ⟨dc', e'', same⟩ := same
    rw [← (Prod.mk.inj same).1]
    exact a.listens d dc' t e'' ((Prod.mk.inj same).2.trans el)
  · intro o' n' l e' heard dispatched
    rw [leafAt?_withSuccessor h at' e] at e'
    rw [audience_withSuccessor] at heard
    split at e'
    · cases e'
      simp [audience] at heard
    · obtain ⟨d, dc, ed, eo, el⟩ := a.hearing o' n' l e' heard dispatched
      obtain ⟨dc', ed', eo', el'⟩ := kept d dc ed
      exact ⟨d, dc', ed', eo'.trans eo, el' ▸ el⟩

theorem wired_withSuccessor (h : w.Wired) (at' : w.leafAt? o n = some (.placeholder u))
    (e : w.placeholders.get? u = some c) : (w.withSuccessor u c.dispatcher o n).Wired where
  toLocated := located_withSuccessor h.toLocated at' e
  toRegistered := registered_withSuccessor h.toLocated h.toRegistered at' e
  toAttentive := attentive_withSuccessor h.toLocated h.toAttentive at' e

end

/-! ### Moving everybody -/

/-- A world in which a parked registration is heard through a subscription. -/
def withMove (w : World η) (u : Ref .placeholder) (t : Token) (s : Ref .subscription) : World η :=
  w.modifyPlaceholder u fun cell =>
    { cell with parked := cell.parked.map fun q => if q.token = t then { q with moved := some s } else q }

section
variable {u : Ref .placeholder} {t : Token} {s : Ref .subscription}

theorem token_withMove (t : Token) (s : Ref .subscription) (q : Parked) :
    (if q.token = t then { q with moved := some s } else q).token = q.token ∧
      (if q.token = t then { q with moved := some s } else q).subscriber = q.subscriber := by
  split <;> exact ⟨rfl, rfl⟩

theorem moves_withMove {sub : Subscriber} (m : (t, sub) ∈ w.audience (.placeholder u)) :
    w.Moves (w.withMove u t s) u t s where
  config := rfl
  elements _ := rfl
  arrays := rfl
  locator := rfl
  contains _ := rfl
  isFrozen _ := rfl
  dispatchers _ := rfl
  properties _ := rfl
  placeholders _ := Store.map_get?_modify _ _ _ fun _ => rfl
  place? l := by
    cases l with
    | placeholder r => exact Store.map_get?_modify _ _ _ fun _ => rfl
    | _ => rfl
  successor? l := by
    cases l with
    | placeholder r =>
        simp only [World.successor?, withMove, modifyPlaceholder, Store.get?_modify]
        split
        next same =>
          rw [same]
          cases w.placeholders.get? u <;> rfl
        · rfl
    | _ => rfl
  audience l := by
    cases l with
    | placeholder r =>
        refine congrArg (Option.getD · []) (Store.map_get?_modify _ _ _ fun cell => ?_)
        simp only [List.map_map]
        refine List.map_congr_left fun q _ => ?_
        simp only [Function.comp_apply, token_withMove]
    | _ => rfl
  movedTo? u' t' := by
    simp only [World.movedTo?, withMove, modifyPlaceholder, Store.get?_modify]
    by_cases same : u' = u
    · subst same
      cases e : w.placeholders.get? u' with
      | none => simp [audience, e] at m
      | some cell =>
        have find : ∀ parked : List Parked,
            (parked.map fun q => if q.token = t then { q with moved := some s } else q).find?
              (fun q => decide (q.token = t')) = (parked.find? fun q => decide (q.token = t')).map
                fun q => if q.token = t then { q with moved := some s } else q := by
          intro parked
          rw [List.find?_map]
          refine congrArg _ (congrArg (List.find? · parked) (funext fun q => ?_))
          simp only [Function.comp_apply, token_withMove]
        simp only [if_true, Option.map_some, find, true_and]
        by_cases et : t' = t
        · subst et
          simp only [if_true]
          obtain ⟨q, mq, eq⟩ : ∃ q ∈ cell.parked, (q.token, q.subscriber) = (t', sub) := by
            simpa [audience, e] using m
          have : (cell.parked.find? fun q => decide (q.token = t')).isSome := by
            rw [List.find?_isSome]
            exact ⟨q, mq, by simpa using (Prod.mk.inj eq).1⟩
          obtain ⟨q', found⟩ := Option.isSome_iff_exists.1 this
          have : q'.token = t' := by simpa using List.find?_some found
          simp [found, this]
        · simp only [if_neg et]
          cases found : cell.parked.find? fun q => decide (q.token = t') with
          | none => rfl
          | some q =>
            have : q.token = t' := by simpa using List.find?_some found
            simp [this, et]
    · simp [same]
  subscriptions := rfl
  nextToken := rfl

theorem moveParked_eq (p : Ref .property) (u : Ref .placeholder) (w : World η) (q : Parked) :
    moveParked p u w q = (w.subscribeProperty p q.subscriber).2.withMove u q.token
      (w.subscribeProperty p q.subscriber).1 := rfl

end

/-- `W` is `w` after a property observer has taken the place of the placeholder `u` and all of its
subscribers but `rest` have moved there. -/
structure Moving (w W : World η) (u : Ref .placeholder) (p : Ref .property) (o : Ref .object)
    (n : String) (rest : List Parked) : Prop where
  wired : W.Wired
  still : w.Still W
  place? : ∀ l v, w.place? l = some v → W.place? l = some v
  subscriptions : ∀ s c, w.subscriptions.get? s = some c → W.subscriptions.get? s = some c
  draws : w.Draws W
  has : ∀ o n, W.has o n = w.has o n
  handed : W.leafAt? o n = some (.property p)
  resolved : W.successor? (.placeholder u) = some p
  audience : ∀ l, l ≠ .property p → W.audience l = w.audience l
  heard : ∀ l t sub, (t, sub) ∈ w.audience l → (t, sub) ∈ W.audience l
  left : ∀ q ∈ rest, W.movedTo? u q.token = none
  notMoved : ∀ s c, w.subscriptions.get? s = some c → W.IsMoved s → w.IsMoved s
  enrolled_iff : ∀ s o' n' sub, W.Enrolled s o' n' sub ↔
    w.Enrolled s o' n' sub ∧ ∀ q ∈ rest, w.voice? s ≠ some (.placeholder u, q.token)
  before : ∀ s s', w.Before s s' → (∀ q ∈ rest, w.voice? s ≠ some (.placeholder u, q.token)) →
    (∀ q ∈ rest, w.voice? s' ≠ some (.placeholder u, q.token)) → W.Before s s'

namespace Moving

variable {W : World η} {u : Ref .placeholder} {p : Ref .property} {o : Ref .object} {n : String}
  {q : Parked} {rest : List Parked}

theorem directVoice? (M : w.Moving W u p o n rest) {s : Ref .subscription} {v : Leaf × Token}
    (e : w.directVoice? s = some v) : W.directVoice? s = some v := by
  have := disposal?_of_directVoice? e
  simp only [disposal?] at this
  cases cell : w.subscriptions.get? s with
  | none => simp [cell] at this
  | some c =>
    simp only [World.directVoice?, disposal?, cell] at e
    simp only [World.directVoice?, disposal?, M.subscriptions s c cell]
    exact e

/-- **One more subscriber has moved.** -/
theorem step (M : w.Moving W u p o n (q :: rest)) (h : w.Wired)
    (at' : w.leafAt? o n = some (.placeholder u))
    (mem : (q.token, q.subscriber) ∈ w.audience (.placeholder u))
    (sorted : ∀ q' ∈ rest, q.token.index < q'.token.index)
    (all : ∀ t sub, (t, sub) ∈ w.audience (.placeholder u) → q.token.index < t.index →
      ∃ q' ∈ rest, q'.token = t) : w.Moving (moveParked p u W q) u p o n rest := by
  -- the subscription by which `w` parked the subscriber
  obtain ⟨own, unmoved, ownVoice⟩ := h.voiced o n _ _ _ at' mem
  have ownDirect := h.directVoice?_of_voice? ownVoice
  have isOwn : ∀ s, w.voice? s = some (.placeholder u, q.token) → s = own := fun s e =>
    h.toRegistered.eq_of_directVoice? (h.directVoice?_of_voice? e) ownDirect
  obtain ⟨ownCell, eOwn⟩ : ∃ c, w.subscriptions.get? own = some c := by
    have := disposal?_of_directVoice? ownDirect
    cases cell : w.subscriptions.get? own with
    | none => simp [disposal?, cell] at this
    | some c => exact ⟨c, rfl⟩
  have ownEnrolled : w.Enrolled own o n q.subscriber := ⟨unmoved, _, _, ownVoice, at', mem⟩
  -- the subscription with the property observer
  obtain ⟨fst, placeholders, joins⟩ := subscribeProperty_spec M.wired M.handed q.subscriber
  have F := joins.follows M.wired M.handed fun _ is => by cases is
  obtain ⟨⟨w₁, tunes, enrols⟩, -⟩ := joins
  rw [moveParked_eq, fst]
  generalize (W.subscribeProperty p q.subscriber).2 = W' at *
  have new : W'.directVoice? W.subscriptions.next = some (.property p, ⟨W.nextToken⟩) := by
    have := enrols.disposal?_next
    rw [tunes.subscriptions] at this
    simp only [World.directVoice?, this]
  have resolved : W'.successor? (.placeholder u) = some p := by
    simp only [successor?, placeholders]
    exact M.resolved
  have audienceU : W'.audience (.placeholder u) = w.audience (.placeholder u) := by
    have same := M.audience (.placeholder u) fun e => by cases e
    simp only [World.audience, placeholders] at same ⊢
    exact same
  have movedTo : ∀ t, W'.movedTo? u t = W.movedTo? u t := fun t => by
    simp only [movedTo?, placeholders]
  have isMoved : ∀ s, W'.IsMoved s ↔ W.IsMoved s := fun s => by
    simp only [IsMoved, movedTo?, placeholders]
  have none : W'.movedTo? u q.token = none :=
    (movedTo q.token).trans (M.left q (List.mem_cons_self))
  have fresh : ¬ W'.IsMoved W.subscriptions.next :=
    ((F.enrolled_iff _ o n q.subscriber).2 (.inr ⟨rfl, rfl, rfl, rfl⟩)).own
  have ownDirect' : W'.directVoice? own = some (.placeholder u, q.token) := by
    have := M.directVoice? ownDirect
    simp only [World.directVoice?, disposal?, M.subscriptions own ownCell eOwn] at this
    simp only [World.directVoice?, disposal?,
      F.subscriptions own ownCell (M.subscriptions own ownCell eOwn)]
    exact this
  have unmoved' : ¬ W'.IsMoved own := fun m => unmoved (M.notMoved own ownCell eOwn ((isMoved own).1 m))
  have moves : W'.Moves (W'.withMove u q.token W.subscriptions.next) u q.token W.subscriptions.next :=
    moves_withMove (audienceU ▸ mem)
  have still : W'.Still (W'.withMove u q.token W.subscriptions.next) := .of_eq rfl rfl rfl
  have wired : (W'.withMove u q.token W.subscriptions.next).Wired := by
    refine ⟨moves.located F.wired.toLocated, moves.registered F.wired.toRegistered resolved none new
      fresh ownDirect' unmoved', ?_⟩
    have a := F.wired.toAttentive
    exact ⟨a.listener, a.listens, fun o n l e heard => a.hearing o n l (moves.leafAt? o n ▸ e)
      (moves.audience l ▸ heard), a.trapping, a.willing, a.trap, a.scheduled, a.pending, a.queued,
      a.tasks, a.known⟩
  have enrolled : ∀ s o' n' sub, (W'.withMove u q.token W.subscriptions.next).Enrolled s o' n' sub ↔
      W.Enrolled s o' n' sub ∨ s = own ∧ o' = o ∧ n' = n ∧ sub = q.subscriber := by
    intro s o' n' sub
    rw [moves.enrolled_iff F.wired.toRegistered resolved none new ownDirect' unmoved', F.enrolled_iff]
    constructor
    · rintro (⟨e | ⟨rfl, -⟩, ne⟩ | ⟨rfl, l, t₁, direct, at₁, m⟩)
      · exact .inl e
      · exact absurd rfl ne
      · have : W'.Enrolled W.subscriptions.next o' n' sub := by
          refine ⟨fresh, l, t₁, ?_, at₁, m⟩
          rw [new] at direct
          cases direct
          simp only [World.voice?, new, throughSuccessor?]
        rcases (F.enrolled_iff _ _ _ _).1 this with e | ⟨-, rest⟩
        · obtain ⟨-, l, t, v, -⟩ := e
          rw [World.voice?_next] at v
          cases v
        · exact .inr ⟨rfl, rest⟩
    · rintro (e | ⟨rfl, rfl, rfl, rfl⟩)
      · refine .inl ⟨.inl e, ?_⟩
        rintro rfl
        obtain ⟨-, l, t, v, -⟩ := e
        rw [World.voice?_next] at v
        cases v
      · obtain ⟨-, l, t, v, at₁, m⟩ := (F.enrolled_iff _ o' n' q.subscriber).2
          (.inr ⟨rfl, rfl, rfl, rfl⟩)
        simp only [World.voice?, new, throughSuccessor?, Option.some.injEq, Prod.mk.injEq] at v
        obtain ⟨rfl, rfl⟩ := v
        exact .inr ⟨rfl, _, _, new, at₁, m⟩
  -- voices and their order
  have newVoice : W'.voice? W.subscriptions.next = some (.property p, ⟨W.nextToken⟩) := by
    simp only [World.voice?, new, throughSuccessor?]
  have voice : ∀ s, s ≠ own →
      (W'.withMove u q.token W.subscriptions.next).voice? s = W'.voice? s := fun s ne =>
    moves.voice?_of_ne fun e => ne (F.wired.toRegistered.eq_of_directVoice? e ownDirect')
  have ownVoice' : (W'.withMove u q.token W.subscriptions.next).voice? own =
      W'.voice? W.subscriptions.next :=
    (moves.voice?_self resolved ownDirect').trans (new.trans newVoice.symm)
  have before : ∀ s s', w.Before s s' → (∀ q' ∈ rest, w.voice? s ≠ some (.placeholder u, q'.token)) →
      (∀ q' ∈ rest, w.voice? s' ≠ some (.placeholder u, q'.token)) →
      (W'.withMove u q.token W.subscriptions.next).Before s s' := by
    intro s s' b hs hs'
    have notLeft : ∀ s, s ≠ own → (∀ q' ∈ rest, w.voice? s ≠ some (.placeholder u, q'.token)) →
        ∀ q' ∈ q :: rest, w.voice? s ≠ some (.placeholder u, q'.token) := by
      intro s ne hs q' m
      rcases List.mem_cons.1 m with rfl | m
      · exact fun e => ne (isOwn s e)
      · exact hs q' m
    by_cases own₂ : s' = own
    · obtain ⟨l, t, t', sub, sub', v, v', m, m', lt⟩ := b
      rw [own₂, ownVoice] at v'
      cases v'
      by_cases own₁ : s = own
      · rw [own₁, ownVoice] at v
        cases v
        exact absurd lt (Nat.lt_irrefl _)
      · have direct := h.directVoice?_of_voice? v
        have enrolledS : w.Enrolled s o n sub := by
          refine ⟨?_, _, t, v, at', m⟩
          rintro ⟨u', t', moved⟩
          obtain ⟨p', e⟩ := h.movedDirect moved direct
          cases e
        have := F.later s sub ((M.enrolled_iff s o n sub).2 ⟨enrolledS, notLeft s own₁ hs⟩)
        simpa only [Before, voice s own₁, own₂, ownVoice', moves.audience] using this
    · by_cases own₁ : s = own
      · obtain ⟨l, t, t', sub, sub', v, v', m, m', lt⟩ := b
        rw [own₁, ownVoice] at v
        cases v
        obtain ⟨q', m, rfl⟩ := all t' sub' m' lt
        exact absurd v' (hs' q' m)
      · have := F.before s s' (M.before s s' b (notLeft s own₁ hs) (notLeft s' own₂ hs'))
        simpa only [Before, voice s own₁, voice s' own₂, moves.audience] using this
  have notSetter : W.config.strategy ≠ .setter := by
    have : W.isDispatched o = true := (M.wired.current o n _ M.handed).2.2
    simp only [World.isDispatched, Bool.and_eq_true, decide_eq_true_eq] at this
    rw [this.2]
    exact fun e => by cases e
  refine ⟨wired, (M.still.trans F.still).trans still, fun l v e => ?_, fun s c e => ?_, ?_, ?_, ?_,
    ?_, fun l other => ?_, fun l t sub m => ?_, ?_, ?_, ?_, before⟩
  · rw [moves.place?, F.place? l v (M.place? l v e)]
  · exact F.subscriptions s c (M.subscriptions s c e)
  · exact (M.draws.trans F.toDraws).trans (.of_eq rfl (Nat.le_refl _))
  · intro o' n'
    have : W'.has o' n' = W.has o' n' := by
      rw [Bool.eq_iff_iff]
      refine ⟨fun e => ?_, F.has o' n'⟩
      rcases F.hadOr o' n' e with e | ⟨setter, -⟩
      · exact e
      · exact absurd setter notSetter
    exact this.trans (M.has o' n')
  · rw [moves.leafAt?, enrols.leafAt?, tunes.leafAt?]
    exact M.handed
  · rw [moves.successor?, resolved]
  · rw [moves.audience, enrols.audience, if_neg other, tunes.audience, M.audience l other]
  · exact moves.audience l ▸ F.heard l t sub (M.heard l t sub m)
  · intro q' m
    rw [moves.movedTo?, if_neg, movedTo, M.left q' (List.mem_cons_of_mem _ m)]
    rintro ⟨-, e⟩
    have := sorted q' m
    rw [e] at this
    exact absurd this (Nat.lt_irrefl _)
  · intro s c e m
    rcases (moves.isMoved none s).1 m with m | rfl
    · exact M.notMoved s c e ((isMoved s).1 m)
    · have := M.subscriptions _ c e
      simp at this
  · intro s o' n' sub
    rw [enrolled, M.enrolled_iff]
    constructor
    · rintro (⟨e, left⟩ | ⟨rfl, rfl, rfl, rfl⟩)
      · exact ⟨e, fun q' m => left q' (List.mem_cons_of_mem _ m)⟩
      · refine ⟨ownEnrolled, fun q' m e => ?_⟩
        rw [ownVoice] at e
        have := sorted q' m
        rw [(Prod.mk.inj (Option.some.inj e)).2] at this
        exact absurd this (Nat.lt_irrefl _)
    · rintro ⟨e, left⟩
      by_cases same : s = own
      · subst same
        obtain ⟨-, l, t, v, at₁, m⟩ := e
        rw [ownVoice] at v
        cases v
        have place := (h.current o n _ at').1
        rw [(h.current o' n' _ at₁).1, Option.some.injEq, Prod.mk.injEq] at place
        exact .inr ⟨rfl, place.1, place.2, h.eq_of_mem_audience m mem⟩
      · refine .inl ⟨e, fun q' m e' => ?_⟩
        rcases List.mem_cons.1 m with rfl | m
        · exact same (isOwn s e')
        · exact left q' m e'

/-- The property observer has just taken the place of the placeholder. -/
theorem start (h : w.Wired) (at' : w.leafAt? o n = some (.placeholder u)) {c : PlaceholderCell}
    (e : w.placeholders.get? u = some c) :
    w.Moving (w.withSuccessor u c.dispatcher o n) u w.properties.next o n c.parked := by
  have handed := leafAt?_withSuccessor h.toLocated at' e
  have voice := voice?_withSuccessor h.toLocated h.toRegistered at' e
  have audience := audience_withSuccessor w u c.dispatcher o n
  have movedTo := movedTo?_withSuccessor w u c.dispatcher o n
  have unresolved := (h.current o n _ at').2.1
  have isMoved : ∀ s, (w.withSuccessor u c.dispatcher o n).IsMoved s ↔ w.IsMoved s := fun s => by
    simp only [IsMoved, movedTo]
  have parked : ∀ t sub, (t, sub) ∈ w.audience (.placeholder u) → ∃ q ∈ c.parked, q.token = t := by
    intro t sub m
    simp only [World.audience, e, Option.map_some, Option.getD_some, List.mem_map] at m
    obtain ⟨q, m, same⟩ := m
    exact ⟨q, m, congrArg Prod.fst same⟩
  refine ⟨wired_withSuccessor h at' e, .of_eq rfl rfl rfl, fun l v p => ?_, fun _ _ e => e,
    .of_eq rfl (Nat.le_refl _), fun _ _ => rfl, (handed o n).trans (if_pos ⟨rfl, rfl⟩),
    (successor?_withSuccessor e _ o n _).trans (if_pos rfl), fun l _ => audience l,
    fun l _ _ m => audience l ▸ m, fun q _ => ?_,
    fun s _ _ m => (isMoved s).1 m, fun s o' n' sub => ?_, ?_⟩
  · rw [place?_withSuccessor, if_neg, p]
    rintro rfl
    simp [World.place?] at p
  · exact (movedTo u q.token).trans (h.unmoved u q.token unresolved)
  · constructor
    · rintro ⟨own, l, t, v, at₁, m⟩
      obtain ⟨v, ne⟩ := (voice s (l, t)).1 v
      rw [audience] at m
      rw [handed] at at₁
      split at at₁
      · cases at₁
        simp [World.audience] at m
      · refine ⟨⟨fun m => own ((isMoved s).2 m), l, t, v, at₁, m⟩, fun q _ v' => ?_⟩
        rw [v, Option.some.injEq, Prod.mk.injEq] at v'
        exact ne v'.1
    · rintro ⟨⟨own, l, t, v, at₁, m⟩, left⟩
      have ne : l ≠ .placeholder u := by
        rintro rfl
        obtain ⟨q, mq, rfl⟩ := parked t sub m
        exact left q mq v
      refine ⟨fun m => own ((isMoved s).1 m), l, t, (voice s (l, t)).2 ⟨v, ne⟩, ?_,
        (audience l).symm ▸ m⟩
      rw [handed, if_neg, at₁]
      rintro ⟨rfl, rfl⟩
      rw [at', Option.some.injEq] at at₁
      exact ne at₁.symm
  · rintro s s' ⟨l, t, t', sub, sub', v, v', m, m', lt⟩ hs hs'
    have ne : l ≠ .placeholder u := by
      rintro rfl
      obtain ⟨q, mq, rfl⟩ := parked t sub m
      exact hs q mq v
    exact ⟨l, t, t', sub, sub', (voice s _).2 ⟨v, ne⟩, (voice s' _).2 ⟨v', ne⟩,
      (audience l).symm ▸ m, (audience l).symm ▸ m', lt⟩

/-- Everybody moves, the longest parked first. -/
theorem finish (h : w.Wired) (at' : w.leafAt? o n = some (.placeholder u)) {c : PlaceholderCell}
    (e : w.placeholders.get? u = some c) (rest : List Parked) : ∀ (W : World η) (left : List Parked),
    c.parked = left ++ rest → w.Moving W u p o n rest →
      w.Moving (rest.foldl (moveParked p u) W) u p o n [] := by
  have audience : w.audience (.placeholder u) = c.parked.map fun q => (q.token, q.subscriber) := by
    simp only [World.audience, e, Option.map_some, Option.getD_some]
  have sorted : c.parked.Pairwise fun q q' => q.token.index < q'.token.index := by
    have := h.sorted (.placeholder u)
    rwa [audience, List.pairwise_map] at this
  induction rest with
  | nil => exact fun W left _ M => M
  | cons q rest ih =>
    intro W left split M
    rw [split, List.pairwise_append, List.pairwise_cons] at sorted
    obtain ⟨-, ⟨later, -⟩, earlier⟩ := sorted
    refine ih _ (left ++ [q]) (by simp [split]) (M.step h at' ?_ later fun t sub m lt => ?_)
    · rw [audience, split]
      exact List.mem_map_of_mem (by simp)
    · rw [audience, split, List.mem_map] at m
      obtain ⟨q', m, same⟩ := m
      cases same
      rcases List.mem_append.1 m with m | m
      · exact absurd (earlier q' m q (by simp)) (by omega)
      · rcases List.mem_cons.1 m with rfl | m
        · exact absurd lt (Nat.lt_irrefl _)
        · exact ⟨q', m, rfl⟩

theorem stays (M : w.Moving W u p o n []) : w.Stays W where
  wired := M.wired
  still := M.still
  place? := M.place?
  subscriptions := M.subscriptions
  toDraws := M.draws
  heard := M.heard
  before s s' b := M.before s s' b (fun _ m => nomatch m) fun _ m => nomatch m
  enrolled_iff s o n sub :=
    (M.enrolled_iff s o n sub).trans ⟨And.left, fun e => ⟨e, fun _ m => nomatch m⟩⟩
  has := M.has
  parked u' _ _ := M.audience (.placeholder u') nofun

end Moving

/-! ### Resolving -/

section
variable {u : Ref .placeholder} {o : Ref .object} {n : String}

/-- What subscribing to a placeholder does once it has tried to resolve itself. -/
theorem subscribePlaceholder_eq (w : World η) (u : Ref .placeholder) (sub : Subscriber) :
    w.subscribePlaceholder u sub =
      match (w.resolvePlaceholder u).successor? (.placeholder u) with
      | some p => (w.resolvePlaceholder u).subscribeProperty p sub
      | none => (w.resolvePlaceholder u).park u sub := rfl

/-- A placeholder that has a successor stays as it is. -/
theorem resolvePlaceholder_of_successor {p : Ref .property}
    (resolved : w.successor? (.placeholder u) = some p) : w.resolvePlaceholder u = w := by
  simp only [successor?] at resolved
  cases e : w.placeholders.get? u with
  | none => simp [e] at resolved
  | some c =>
    rw [e, Option.bind_some] at resolved
    simp only [resolvePlaceholder, e, resolved, Option.isSome_some, Bool.true_or, if_true]

/-- The dispatcher makes a property observer for a property that the object has. -/
theorem dispatcherObserver_of_has {d : Ref .dispatcher} {dc : DispatcherCell}
    (e : w.dispatchers.get? d = some dc) (new : Entries.get? n dc.observers = none)
    (has : w.has dc.object n = true) :
    w.dispatcherObserver d n = (.property w.properties.next,
      { w with properties := w.properties.alloc { dispatcher := d, object := dc.object, property := n }
      }.modifyDispatcher d fun cell =>
        { cell with observers := Entries.put n (.property w.properties.next) cell.observers }) := by
  simp only [dispatcherObserver, e, new, if_pos has]

/-- **Resolving a placeholder** keeps every enrolment, and every leaf keeps its audience.  If the
property exists, its observer has taken the place of the placeholder. -/
theorem resolvePlaceholder_spec (h : w.Wired) (at' : w.leafAt? o n = some (.placeholder u)) :
    w.Stays (w.resolvePlaceholder u) ∧
      (∀ l v, w.place? l = some v → (w.resolvePlaceholder u).audience l = w.audience l) ∧
      (w.has o n = false ∧ w.resolvePlaceholder u = w ∨
        ∃ p, (w.resolvePlaceholder u).successor? (.placeholder u) = some p ∧
          (w.resolvePlaceholder u).leafAt? o n = some (.property p)) := by
  obtain ⟨c, dc, e, rfl, rfl, unresolved, ed, eo, live⟩ := h.toLocated.placeholder at'
  have there : w.dispatchers.contains c.dispatcher = true := by
    simp [Store.contains, ed]
  cases has : w.has c.object c.property with
  | false =>
    have same : w.resolvePlaceholder u = w := by
      simp only [resolvePlaceholder, e, unresolved, has, Option.isSome_none, Bool.not_false,
        Bool.or_true, if_true]
    rw [same]
    exact ⟨.refl h, fun _ _ _ => rfl, .inl ⟨rfl, rfl⟩⟩
  | true =>
    have found : Entries.get? c.property (Entries.erase c.property dc.observers) = none :=
      (h.found _ dc ed).2.1.get?_erase_self
    have result : w.resolvePlaceholder u = c.parked.foldl (moveParked w.properties.next u)
        (w.withSuccessor u c.dispatcher c.object c.property) := by
      let erased := w.modifyDispatcher c.dispatcher fun d =>
        { d with observers := Entries.erase c.property d.observers }
      have made := dispatcherObserver_of_has (w := erased) (d := c.dispatcher) (n := c.property)
        ((Store.get?_modify_self w.dispatchers c.dispatcher _).trans (congrArg _ ed)) found
        (show w.has dc.object c.property = true from eo ▸ has)
      simp only [resolvePlaceholder, e, unresolved, there, has, Option.isSome_none, Bool.not_true,
        Bool.or_false, Bool.false_eq_true, if_false]
      rw [made]
      simp only [erased, modifyDispatcher, Store.modify_modify, eo]
      rfl
    have M := Moving.finish h at' e c.parked _ [] rfl (Moving.start h at' e)
    rw [result]
    refine ⟨M.stays, fun l v place => M.audience l ?_, .inr ⟨_, M.resolved, M.handed⟩⟩
    rintro rfl
    simp [place?] at place

theorem subscribePlaceholder_spec (h : w.Wired) (at' : w.leafAt? o n = some (.placeholder u))
    (sub : Subscriber) :
    w.Follows (w.subscribePlaceholder u sub).2 (w.subscribePlaceholder u sub).1 o n sub := by
  obtain ⟨stays, -, ⟨absent, same⟩ | ⟨p, resolved, handed⟩⟩ := resolvePlaceholder_spec h at'
  · rw [subscribePlaceholder_eq, same, (h.current o n _ at').2.1]
    obtain ⟨fst, t, joins⟩ := park_spec h at' sub
    exact fst ▸ joins.follows h at' fun _ _ => absent
  · rw [subscribePlaceholder_eq, resolved]
    obtain ⟨fst, -, joins⟩ := subscribeProperty_spec stays.wired handed sub
    exact stays.follows (fst ▸ joins.follows stays.wired handed nofun)

end

/-! ### Any leaf -/

/-- **Subscribing to the leaf of a property** enrols the subscriber there. -/
theorem subscribeLeaf_spec {l : Leaf} {o : Ref .object} {n : String} {cut : Prop} (h : w.Wired)
    (place : w.place? l = some (o, n)) (sub : Subscriber) :
    (Run.subscribeLeaf l sub).Ends cut w fun s w' => w.Follows w' s o n sub := by
  cases l with
  | setter r =>
    rcases h.unique o n _ place with at' | ⟨p, e, -⟩
    · obtain ⟨fst, joins⟩ := subscribeSetter_spec h at' sub
      simp only [Run.subscribeLeaf, Run.ends_update]
      exact fst ▸ joins.follows h at' fun _ is => by cases is
    · cases e
  | property p =>
    rcases h.unique o n _ place with at' | ⟨p, e, -⟩
    · obtain ⟨fst, -, joins⟩ := subscribeProperty_spec h at' sub
      simp only [Run.subscribeLeaf, Run.ends_update]
      exact fst ▸ joins.follows h at' fun _ is => by cases is
    · cases e
  | poll r =>
    rcases h.unique o n _ place with at' | ⟨p, e, -⟩
    · obtain ⟨fst, joins⟩ := subscribePoll_spec h at' sub
      simp only [Run.subscribeLeaf, Run.ends_update]
      exact fst ▸ joins.follows h at' fun _ is => by cases is
    · cases e
  | placeholder u =>
    simp only [Run.subscribeLeaf, Run.ends_update]
    rcases h.unique o n _ place with at' | ⟨p, resolved, at'⟩
    · exact subscribePlaceholder_spec h at' sub
    · -- the placeholder has a successor, which is subscribed to in its place
      rw [subscribePlaceholder_eq, resolvePlaceholder_of_successor resolved, resolved]
      obtain ⟨fst, -, joins⟩ := subscribeProperty_spec h at' sub
      exact fst ▸ joins.follows h at' fun _ is => by cases is
  | _ => cases place

end World

end ViewBinding
