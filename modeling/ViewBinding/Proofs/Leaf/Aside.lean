import ViewBinding.Elements
import ViewBinding.Proofs.Leaf.Subscribe

/-!
# Leaf — changes of other things

Elements, bindings, paths and composites have nothing to do with how the properties of objects are
watched.  A change of these (`Aside`) and a subscription with something else than the leaf of a
property (`withSubscription`) leave the values, the wiring and every enrolment as they are.
-/

namespace ViewBinding

namespace World

variable {η : Type} {w w' w'' : World η}

/-- `w'` differs from `w` only in things that are not about the properties of objects. -/
structure Aside (w w' : World η) : Prop where
  config : w'.config = w.config
  objects : w'.objects = w.objects
  setters : w'.setters = w.setters
  dispatchers : w'.dispatchers = w.dispatchers
  properties : w'.properties = w.properties
  placeholders : w'.placeholders = w.placeholders
  polls : w'.polls = w.polls
  subscriptions : w'.subscriptions = w.subscriptions
  microtasks : w'.tasks.microtasks = w.tasks.microtasks
  nextToken : w.nextToken ≤ w'.nextToken
  dispatcherCache : w'.locator.dispatchers = w.locator.dispatchers
  propertyCache : w'.locator.properties = w.locator.properties
  liveElements : (∀ p ∈ w.locator.elements, w.elements.contains p.1.1 = true) →
    ∀ p ∈ w'.locator.elements, w'.elements.contains p.1.1 = true
  liveContents : (∀ p ∈ w.locator.contents, w.arrays.contains p.1 = true) →
    ∀ p ∈ w'.locator.contents, w'.arrays.contains p.1 = true

theorem Aside.refl (w : World η) : w.Aside w :=
  ⟨rfl, rfl, rfl, rfl, rfl, rfl, rfl, rfl, rfl, Nat.le_refl _, rfl, rfl, id, id⟩

theorem Aside.trans (h : w.Aside w') (h' : w'.Aside w'') : w.Aside w'' where
  config := h'.config.trans h.config
  objects := h'.objects.trans h.objects
  setters := h'.setters.trans h.setters
  dispatchers := h'.dispatchers.trans h.dispatchers
  properties := h'.properties.trans h.properties
  placeholders := h'.placeholders.trans h.placeholders
  polls := h'.polls.trans h.polls
  subscriptions := h'.subscriptions.trans h.subscriptions
  microtasks := h'.microtasks.trans h.microtasks
  nextToken := Nat.le_trans h.nextToken h'.nextToken
  dispatcherCache := h'.dispatcherCache.trans h.dispatcherCache
  propertyCache := h'.propertyCache.trans h.propertyCache
  liveElements live := h'.liveElements (h.liveElements live)
  liveContents live := h'.liveContents (h.liveContents live)

/-- Whether a flush is running is another thing. -/
theorem aside_markFlushing (w : World η) (flushing : Bool) :
    w.Aside (Run.markFlushing flushing w) :=
  ⟨rfl, rfl, rfl, rfl, rfl, rfl, rfl, rfl, rfl, Nat.le_refl _, rfl, rfl, id, id⟩

namespace Aside

theorem slot? (h : w.Aside w') (o : Ref .object) (n : String) : w'.slot? o n = w.slot? o n := by
  simp only [World.slot?, h.objects]

theorem get (h : w.Aside w') (o : Ref .object) (n : String) : w'.get o n = w.get o n :=
  (Holds.of_eq h.objects h.setters).get o n

theorem has (h : w.Aside w') (o : Ref .object) (n : String) : w'.has o n = w.has o n := by
  simp only [World.has, h.slot?]

theorem isFrozen (h : w.Aside w') (o : Ref .object) : w'.isFrozen o = w.isFrozen o := by
  simp only [World.isFrozen, h.objects]

theorem isDispatched (h : w.Aside w') (o : Ref .object) :
    w'.isDispatched o = w.isDispatched o := by
  simp only [World.isDispatched, h.isFrozen, h.config]

theorem leafAt? (h : w.Aside w') (o : Ref .object) (n : String) :
    w'.leafAt? o n = w.leafAt? o n := by
  simp only [World.leafAt?, h.isDispatched, h.dispatcherCache, h.dispatchers, h.propertyCache]

theorem place? (h : w.Aside w') (l : Leaf) : w'.place? l = w.place? l := by
  cases l <;> simp only [World.place?, h.setters, h.properties, h.placeholders, h.polls]

theorem successor? (h : w.Aside w') (l : Leaf) : w'.successor? l = w.successor? l := by
  cases l <;> simp only [World.successor?, h.placeholders]

theorem audience (h : w.Aside w') (l : Leaf) : w'.audience l = w.audience l := by
  cases l <;> simp only [World.audience, h.setters, h.properties, h.placeholders, h.polls]

theorem movedTo? (h : w.Aside w') (u : Ref .placeholder) (t : Token) :
    w'.movedTo? u t = w.movedTo? u t := by
  simp only [World.movedTo?, h.placeholders]

theorem isMoved (h : w.Aside w') (s : Ref .subscription) : w'.IsMoved s ↔ w.IsMoved s := by
  simp only [IsMoved, h.movedTo?]

theorem disposal? (h : w.Aside w') (s : Ref .subscription) : w'.disposal? s = w.disposal? s := by
  simp only [World.disposal?, h.subscriptions]

theorem directVoice? (h : w.Aside w') (s : Ref .subscription) :
    w'.directVoice? s = w.directVoice? s := by
  simp only [World.directVoice?, h.disposal?]

theorem voice? (h : w.Aside w') (s : Ref .subscription) : w'.voice? s = w.voice? s := by
  simp only [World.voice?, throughSuccessor?, h.directVoice?, h.successor?, h.movedTo?]

theorem before (h : w.Aside w') (s s' : Ref .subscription) : w'.Before s s' ↔ w.Before s s' := by
  simp only [Before, h.voice?, h.audience]

theorem enrolled (h : w.Aside w') {s : Ref .subscription} {o : Ref .object} {n : String}
    {sub : Subscriber} : w'.Enrolled s o n sub ↔ w.Enrolled s o n sub := by
  constructor <;> rintro ⟨own, l, t, voice, at', m⟩
  · refine ⟨fun m => own ((h.isMoved s).2 m), l, t, (h.voice? s).symm.trans voice,
      (h.leafAt? o n).symm.trans at', h.audience l ▸ m⟩
  · refine ⟨fun m => own ((h.isMoved s).1 m), l, t, (h.voice? s).trans voice,
      (h.leafAt? o n).trans at', (h.audience l).symm ▸ m⟩

theorem due (h : w.Aside w') (o : Ref .object) (n : String) : w'.Due o n ↔ w.Due o n := by
  simp only [Due, h.objects, h.setters]

theorem isDoubled (h : w.Aside w') (o : Ref .object) (n : String) :
    w'.IsDoubled o n ↔ w.IsDoubled o n := by
  simp only [IsDoubled, h.slot?]

theorem fits (h : w.Aside w') (o : Ref .object) (l : Leaf) : w'.Fits o l ↔ w.Fits o l := by
  cases l <;> simp only [Fits, h.isFrozen, h.config, h.isDispatched]

theorem located (h : w.Aside w') (l : w.Located) : w'.Located where
  liveDispatchers := by simpa only [h.dispatcherCache, h.objects] using l.liveDispatchers
  liveProperties := by simpa only [h.propertyCache, h.objects] using l.liveProperties
  liveElements := h.liveElements l.liveElements
  liveContents := h.liveContents l.liveContents
  dispatcher := by simpa only [h.dispatcherCache, h.dispatchers] using l.dispatcher
  found := by simpa only [h.dispatcherCache, h.dispatchers, h.isDispatched] using l.found
  current := by simpa only [h.leafAt?, h.place?, h.successor?, h.fits] using l.current
  unique := by simpa only [h.leafAt?, h.place?, h.successor?] using l.unique
  propertyHome := by simpa only [h.dispatcherCache, h.properties] using l.propertyHome
  placeholderHome := by simpa only [h.dispatcherCache, h.placeholders] using l.placeholderHome

theorem registered (h : w.Aside w') (r : w.Registered) : w'.Registered where
  issued s ob t e := Nat.lt_of_lt_of_le (r.issued s ob t (h.disposal? s ▸ e)) h.nextToken
  alone s s' ob ob' t e e' := r.alone s s' ob ob' t (h.disposal? s ▸ e) (h.disposal? s' ▸ e')
  sorted l := h.audience l ▸ r.sorted l
  heard l t sub m := Nat.lt_of_lt_of_le (r.heard l t sub (h.audience l ▸ m)) h.nextToken
  unmoved := by simpa only [h.successor?, h.movedTo?] using r.unmoved
  moved := by simpa only [h.movedTo?, h.subscriptions] using r.moved
  movedKind := by simpa only [h.movedTo?, h.disposal?] using r.movedKind
  movedAlone := by simpa only [h.movedTo?] using r.movedAlone
  voiced := by simpa only [h.leafAt?, h.audience, h.isMoved, h.voice?] using r.voiced

theorem attentive (h : w.Aside w') (a : w.Attentive) : w'.Attentive where
  listener := by simpa only [h.objects, h.dispatchers] using a.listener
  listens := by simpa only [h.objects, h.dispatchers] using a.listens
  hearing := by
    simpa only [h.leafAt?, h.audience, h.isDispatched, h.dispatchers] using a.hearing
  trapping := by simpa only [h.setters] using a.trapping
  willing := by simpa only [h.setters] using a.willing
  trap := by simpa only [h.slot?, h.setters] using a.trap
  scheduled := by simpa only [h.objects, h.microtasks] using a.scheduled
  pending := by simpa only [h.objects] using a.pending
  queued := by simpa only [h.setters, h.microtasks] using a.queued
  tasks := by simpa only [h.microtasks] using a.tasks
  known := by simpa only [h.microtasks, h.objects, h.setters] using a.known

theorem wired (h : w.Aside w') (wired : w.Wired) : w'.Wired :=
  ⟨h.located wired.toLocated, h.registered wired.toRegistered, h.attentive wired.toAttentive⟩

end Aside

/-- As far as the properties of objects are concerned `w'` is `w`: it has the same values, the same
leaves with their audiences, the same enrolments and the same changes to tell. -/
structure Spares (w w' : World η) : Prop where
  wired : w'.Wired
  config : w'.config = w.config
  microtasks : w'.tasks.microtasks = w.tasks.microtasks
  get : ∀ o n, w'.get o n = w.get o n
  has : ∀ o n, w'.has o n = w.has o n
  contains : ∀ o, w'.objects.contains o = w.objects.contains o
  isFrozen : ∀ o, w'.isFrozen o = w.isFrozen o
  doubled : ∀ o n, w'.IsDoubled o n ↔ w.IsDoubled o n
  leafAt? : ∀ o n, w'.leafAt? o n = w.leafAt? o n
  place? : ∀ l, w'.place? l = w.place? l
  audience : ∀ l, w'.audience l = w.audience l
  enrolled : ∀ s o n sub, w'.Enrolled s o n sub ↔ w.Enrolled s o n sub
  before : ∀ s s', w.Before s s' → w'.Before s s'
  due : ∀ o n, w'.Due o n ↔ w.Due o n
  subscriptions : ∀ s c, w.subscriptions.get? s = some c → w'.subscriptions.get? s = some c

theorem Spares.refl (h : w.Wired) : w.Spares w :=
  ⟨h, rfl, rfl, fun _ _ => rfl, fun _ _ => rfl, fun _ => rfl, fun _ => rfl, fun _ _ => Iff.rfl,
    fun _ _ => rfl, fun _ => rfl, fun _ => rfl, fun _ _ _ _ => Iff.rfl, fun _ _ e => e,
    fun _ _ => Iff.rfl, fun _ _ e => e⟩

theorem Spares.trans (h : w.Spares w') (h' : w'.Spares w'') : w.Spares w'' where
  wired := h'.wired
  config := h'.config.trans h.config
  microtasks := h'.microtasks.trans h.microtasks
  get o n := (h'.get o n).trans (h.get o n)
  has o n := (h'.has o n).trans (h.has o n)
  contains o := (h'.contains o).trans (h.contains o)
  isFrozen o := (h'.isFrozen o).trans (h.isFrozen o)
  doubled o n := (h'.doubled o n).trans (h.doubled o n)
  leafAt? o n := (h'.leafAt? o n).trans (h.leafAt? o n)
  place? l := (h'.place? l).trans (h.place? l)
  audience l := (h'.audience l).trans (h.audience l)
  enrolled s o n sub := (h'.enrolled s o n sub).trans (h.enrolled s o n sub)
  before s s' b := h'.before s s' (h.before s s' b)
  due o n := (h'.due o n).trans (h.due o n)
  subscriptions s c e := h'.subscriptions s c (h.subscriptions s c e)

theorem Aside.spares (h : w.Aside w') (wired : w.Wired) : w.Spares w' where
  wired := h.wired wired
  config := h.config
  microtasks := h.microtasks
  get := h.get
  has := h.has
  contains _ := by rw [h.objects]
  isFrozen := h.isFrozen
  doubled := h.isDoubled
  leafAt? := h.leafAt?
  place? := h.place?
  audience := h.audience
  enrolled _ _ _ _ := h.enrolled
  before s s' := (h.before s s').2
  due := h.due
  subscriptions _ _ e := h.subscriptions ▸ e

/-! ### Subscriptions with other things -/

/-- What a subscription takes back is not a registration with the leaf of an object's property. -/
def IsForeign : Disposal → Prop
  | .callback (.leaf l) _ =>
    match l with
    | .element _ | .select _ | .contents _ => True
    | _ => False
  | _ => True

/-- A world with a subscription more. -/
def withSubscription (w : World η) (d : Disposal) : World η :=
  { w with subscriptions := w.subscriptions.alloc ⟨some d⟩ }

section
variable {d : Disposal}

theorem disposal?_withSubscription (w : World η) (d : Disposal) (s : Ref .subscription) :
    (w.withSubscription d).disposal? s =
      if s = w.subscriptions.next then some d else w.disposal? s := by
  simp only [disposal?, withSubscription, Store.get?_alloc]
  split <;> rfl

theorem directVoice?_withSubscription {s : Ref .subscription} (ne : s ≠ w.subscriptions.next) :
    (w.withSubscription d).directVoice? s = w.directVoice? s := by
  simp only [directVoice?, disposal?_withSubscription, if_neg ne]

theorem voice?_withSubscription (r : w.Registered) {s : Ref .subscription}
    (ne : s ≠ w.subscriptions.next) : (w.withSubscription d).voice? s = w.voice? s := by
  simp only [voice?, directVoice?_withSubscription ne]
  cases w.directVoice? s with
  | none => rfl
  | some v =>
    obtain ⟨l, t⟩ := v
    cases l with
    | placeholder u =>
        have moved : (w.withSubscription d).movedTo? u t = w.movedTo? u t := rfl
        have successor : (w.withSubscription d).successor? (.placeholder u) =
          w.successor? (.placeholder u) := rfl
        simp only [throughSuccessor?, moved, successor]
        cases w.successor? (.placeholder u) with
        | none => rfl
        | some p =>
          cases e : w.movedTo? u t with
          | none => rfl
          | some s' =>
            refine directVoice?_withSubscription ?_
            rintro rfl
            simpa using r.moved u t _ e
    | _ => rfl

/-- A subscription with something else is not heard at the leaf of a property. -/
theorem not_fits_of_foreign {s : Ref .subscription} (is : w.disposal? s = some d)
    (foreign : IsForeign d) {l : Leaf} {t : Token} (voice : w.voice? s = some (l, t))
    (o : Ref .object) : ¬ w.Fits o l := by
  intro fits
  simp only [voice?, directVoice?, is] at voice
  cases d with
  | events e tokens => cases voice
  | callback ob t' =>
    cases ob with
    | leaf l' =>
      cases l' with
      | element _ | select _ | contents _ =>
        cases voice
        exact fits
      | _ => exact foreign
    | _ => cases voice

theorem not_enrolled_next (h : w.Located) (foreign : IsForeign d) (o : Ref .object) (n : String)
    (sub : Subscriber) : ¬ (w.withSubscription d).Enrolled w.subscriptions.next o n sub := by
  rintro ⟨-, l, t, voice, at', -⟩
  have is : (w.withSubscription d).disposal? w.subscriptions.next = some d := by
    rw [disposal?_withSubscription, if_pos rfl]
  exact not_fits_of_foreign is foreign voice o (h.current o n l at').2.2

/-- **A subscription with something else** concerns nobody who watches a property. -/
theorem spares_withSubscription (h : w.Wired) (foreign : IsForeign d)
    (token : ∀ ob t, d = .callback ob t → t.index < w.nextToken ∧
      ∀ s ob', w.disposal? s ≠ some (.callback ob' t)) : w.Spares (w.withSubscription d) := by
  have isMoved : ∀ s, (w.withSubscription d).IsMoved s ↔ w.IsMoved s := fun _ => Iff.rfl
  have voice : ∀ {s}, s ≠ w.subscriptions.next → (w.withSubscription d).voice? s = w.voice? s :=
    voice?_withSubscription h.toRegistered
  have heard : ∀ {s v}, w.voice? s = some v → (w.withSubscription d).voice? s = some v := by
    intro s v e
    rw [voice, e]
    rintro rfl
    rw [World.voice?_next] at e
    cases e
  refine ⟨⟨⟨h.liveDispatchers, h.liveProperties, h.liveElements, h.liveContents, h.dispatcher,
    h.found, h.current, h.unique, h.propertyHome, h.placeholderHome⟩, ?_, ⟨h.listener, h.listens,
    h.hearing, h.trapping, h.willing, h.trap, h.scheduled, h.pending, h.queued, h.tasks, h.known⟩⟩,
    rfl, rfl, fun _ _ => rfl, fun _ _ => rfl, fun _ => rfl, fun _ => rfl, fun _ _ => Iff.rfl,
    fun _ _ => rfl, fun l => by cases l <;> rfl, fun l => by cases l <;> rfl, ?_, ?_,
    fun _ _ => Iff.rfl, ?_⟩
  · refine ⟨?_, ?_, h.sorted, h.heard, h.unmoved, ?_, ?_, h.movedAlone, ?_⟩
    · intro s ob t e
      rw [disposal?_withSubscription] at e
      split at e
      · exact (token ob t (Option.some.inj e)).1
      · exact h.issued s ob t e
    · intro s s' ob ob' t e e'
      rw [disposal?_withSubscription] at e e'
      split at e <;> split at e'
      next same same' => exact same.trans same'.symm
      · exact absurd e' ((token ob t (Option.some.inj e)).2 s' ob')
      · exact absurd e ((token ob' t (Option.some.inj e')).2 s ob)
      · exact h.alone s s' ob ob' t e e'
    · intro u t s e
      have some := h.moved u t s e
      cases cell : w.subscriptions.get? s with
      | none => simp [cell] at some
      | some c =>
        simp [withSubscription, Store.get?_alloc_of_ne _ (Store.ne_next_of_get? cell), cell]
    · intro u t s d' e v
      rw [disposal?_withSubscription, if_neg] at v
      · exact h.movedKind u t s d' e v
      · rintro rfl
        simpa using h.moved u t _ e
    · intro o n l t sub at' m
      obtain ⟨s, own, v⟩ := h.voiced o n l t sub at' m
      exact ⟨s, own, heard v⟩
  · intro s o n sub
    by_cases same : s = w.subscriptions.next
    · subst same
      refine ⟨fun e => absurd e (not_enrolled_next h.toLocated foreign o n sub), ?_⟩
      rintro ⟨-, l, t, v, -⟩
      rw [World.voice?_next] at v
      cases v
    · constructor <;> rintro ⟨own, l, t, v, rest⟩
      · exact ⟨own, l, t, (voice same).symm.trans v, rest⟩
      · exact ⟨own, l, t, (voice same).trans v, rest⟩
  · rintro s s' ⟨l, t, t', sub, sub', v, v', m, m', lt⟩
    exact ⟨l, t, t', sub, sub', heard v, heard v', m, m', lt⟩
  · intro s c e
    simp only [withSubscription, Store.get?_alloc_of_ne _ (Store.ne_next_of_get? e), e]

/-- A callback that is registered with something else under a token of its own is nobody who
watches a property. -/
theorem Aside.spares_callback (h : w.Aside w') (wired : w.Wired) {ob : Observer}
    (foreign : IsForeign (.callback ob ⟨w.nextToken⟩)) (drawn : w.nextToken < w'.nextToken) :
    w.Spares (w'.withSubscription (.callback ob ⟨w.nextToken⟩)) := by
  refine (h.spares wired).trans (spares_withSubscription (h.wired wired) foreign ?_)
  intro ob' t same
  obtain ⟨-, same⟩ := Disposal.callback.inj same
  refine ⟨by rw [← same]; exact drawn, fun s ob'' e => ?_⟩
  rw [← same, h.disposal?] at e
  exact Nat.lt_irrefl _ (wired.issued s ob'' _ e)

end

/-! ### Elements -/

section
variable {e e' : Ref .element}

theorem aside_elementSet (w : World η) (e : Ref .element) (n : String) (v : Value) :
    w.Aside (w.elementSet e n v) where
  config := rfl
  objects := rfl
  setters := rfl
  dispatchers := rfl
  properties := rfl
  placeholders := rfl
  polls := rfl
  subscriptions := rfl
  microtasks := rfl
  nextToken := Nat.le_refl _
  dispatcherCache := rfl
  propertyCache := rfl
  liveElements live p m := (Store.contains_modify _ _ _ _).trans (live p m)
  liveContents := id

theorem elementGet_elementSet_self {n : String} (live : w.elements.contains e = true) (v : Value) :
    (w.elementSet e n v).elementGet e n = v := by
  obtain ⟨c, get⟩ := Option.isSome_iff_exists.1 live
  simp [elementGet, World.elementSet, modifyElement, get]

theorem elementGet_elementSet_of_ne (n n' : String) (v : Value) (ne : e' ≠ e) :
    (w.elementSet e n v).elementGet e' n' = w.elementGet e' n' := by
  simp [elementGet, World.elementSet, modifyElement, Store.get?_modify_of_ne _ ne]

theorem contains_elementSet (w : World η) (e e' : Ref .element) (n : String) (v : Value) :
    (w.elementSet e n v).elements.contains e' = w.elements.contains e' :=
  Store.contains_modify _ _ _ _

end

end World

end ViewBinding
