import ViewBinding.Machine
import ViewBinding.Proofs.Leaf.Place

/-!
# Leaf — worlds in which nothing is watched

The world of a new engine and what the host puts there before anything is watched: objects, elements
and levels of scopes.  Such a world is wired, and every run starts from one.
-/

namespace ViewBinding

namespace World

variable {η : Type} {w : World η}

/-- Nothing is watched, and nothing waits to be told. -/
structure Unwatched (w : World η) : Prop where
  setters : ∀ r, w.setters.get? r = none
  dispatchers : ∀ d, w.dispatchers.get? d = none
  properties : ∀ r, w.properties.get? r = none
  placeholders : ∀ r, w.placeholders.get? r = none
  polls : ∀ r, w.polls.get? r = none
  subscriptions : ∀ s, w.subscriptions.get? s = none
  dispatcherCache : w.locator.dispatchers = []
  propertyCache : w.locator.properties = []
  elementCache : w.locator.elements = []
  contentsCache : w.locator.contents = []
  objects : ∀ o c, w.objects.get? o = some c →
    c.listeners.entries = [] ∧ c.pending = [] ∧ c.scheduled = false
  untrapped : ∀ o n r, w.slot? o n ≠ some (.trap r)
  microtasks : w.tasks.microtasks = []

namespace Unwatched

theorem leafAt? (h : w.Unwatched) (o : Ref .object) (n : String) : w.leafAt? o n = none := by
  simp only [World.leafAt?, h.dispatcherCache, h.propertyCache]
  split <;> rfl

theorem place? (h : w.Unwatched) (l : Leaf) : w.place? l = none := by
  cases l <;> simp [World.place?, h.setters, h.properties, h.placeholders, h.polls]

theorem audience (h : w.Unwatched) (l : Leaf) : w.audience l = [] := by
  cases l <;> simp [World.audience, h.setters, h.properties, h.placeholders, h.polls]

theorem disposal? (h : w.Unwatched) (s : Ref .subscription) : w.disposal? s = none := by
  simp [World.disposal?, h.subscriptions]

theorem movedTo? (h : w.Unwatched) (u : Ref .placeholder) (t : Token) :
    w.movedTo? u t = none := by
  simp only [World.movedTo?, h.placeholders]

theorem located (h : w.Unwatched) : w.Located where
  liveDispatchers p m := by simp [h.dispatcherCache] at m
  liveProperties p m := by simp [h.propertyCache] at m
  liveElements p m := by simp [h.elementCache] at m
  liveContents p m := by simp [h.contentsCache] at m
  dispatcher o d e := by simp [h.dispatcherCache, Entries.get?] at e
  found d c e := by simp [h.dispatchers] at e
  current o n l e := by simp [h.leafAt?] at e
  unique o n l e := by simp [h.place?] at e
  propertyHome r c e := by simp [h.properties] at e
  placeholderHome r c e := by simp [h.placeholders] at e

theorem registered (h : w.Unwatched) : w.Registered where
  issued s ob t e := by simp [h.disposal?] at e
  alone s s' ob ob' t e := by simp [h.disposal?] at e
  sorted l := by rw [h.audience]; exact .nil
  heard l t sub m := by simp [h.audience] at m
  unmoved u t _ := h.movedTo? u t
  moved u t s e := by simp [h.movedTo?] at e
  movedKind u t s d e := by simp [h.movedTo?] at e
  movedAlone u u' t t' s e := by simp [h.movedTo?] at e
  voiced o n l t sub e := by simp [h.leafAt?] at e

theorem attentive (h : w.Unwatched) : w.Attentive where
  listener o c t l e m := by simp [(h.objects o c e).1] at m
  listens d dc t e := by simp [h.dispatchers] at e
  hearing o n l e := by simp [h.leafAt?] at e
  trapping r c e := by simp [h.setters] at e
  willing r c e := by simp [h.setters] at e
  trap o n r := ⟨fun e => absurd e (h.untrapped o n r), fun ⟨c, e, _⟩ => by simp [h.setters] at e⟩
  scheduled o c e := by simp [(h.objects o c e).2.2, h.microtasks]
  pending o c e some := absurd (h.objects o c e).2.1 some
  queued r c e := by simp [h.setters] at e
  tasks := by rw [h.microtasks]; exact .nil
  known task m := by simp [h.microtasks] at m

/-- **Where nothing is watched the wiring is in order.** -/
theorem wired (h : w.Unwatched) : w.Wired := ⟨h.located, h.registered, h.attentive⟩

end Unwatched

/-! ### How such worlds come about -/

theorem unwatched_new (config : Config) (host : η) : (World.new config host).Unwatched := by
  refine ⟨?_, ?_, ?_, ?_, ?_, ?_, rfl, rfl, rfl, rfl, ?_, ?_, rfl⟩
  all_goals intros
  all_goals simp_all [World.new, slot?]

/-- New objects have plain properties. -/
theorem plain_newObject (properties : List (String × Value)) (slots : List (String × Slot))
    (plain : ∀ n s, Entries.get? n slots = some s → ∃ v, s = .data v) (n : String) (s : Slot)
    (e : Entries.get? n
      (properties.foldl (fun slots (name, v) => Entries.put name (.data v) slots) slots) = some s) :
    ∃ v, s = .data v := by
  induction properties generalizing slots with
  | nil => exact plain n s e
  | cons p rest ih =>
    refine ih _ (fun n' s' e' => ?_) e
    rw [Entries.get?_put] at e'
    split at e'
    · exact ⟨p.2, (Option.some.inj e').symm⟩
    · exact plain n' s' e'

theorem Unwatched.newObject (h : w.Unwatched) (properties : List (String × Value)) :
    (w.newObject properties).2.Unwatched := by
  refine ⟨h.setters, h.dispatchers, h.properties, h.placeholders, h.polls, h.subscriptions,
    h.dispatcherCache, h.propertyCache, h.elementCache, h.contentsCache, ?_, ?_, h.microtasks⟩
  · intro o c e
    simp only [World.newObject, Store.get?_alloc] at e
    split at e
    · cases e
      exact ⟨rfl, rfl, rfl⟩
    · exact h.objects o c e
  · intro o n r e
    simp only [World.newObject, slot?, Store.get?_alloc] at e
    split at e
    · obtain ⟨v, e⟩ := plain_newObject properties [] (fun _ _ e => by cases e) n _ e
      cases e
    · exact h.untrapped o n r e

theorem Unwatched.newLevel (h : w.Unwatched) (context : Value) :
    (w.newLevel context).2.Unwatched :=
  h.newObject []

theorem Unwatched.newElement (h : w.Unwatched) (tag : String) (svg : Bool) :
    (w.newElement tag svg).2.Unwatched :=
  ⟨h.setters, h.dispatchers, h.properties, h.placeholders, h.polls, h.subscriptions,
    h.dispatcherCache, h.propertyCache, h.elementCache, h.contentsCache, h.objects, h.untrapped,
    h.microtasks⟩

end World

/-- A host that has no functions and no converters, and that reacts to nothing.  Its time is never
up. -/
def Host.silent {η : Type} : Host η where
  call _ _ _ _ := pure .undefined
  convert _ _ _ _ := pure none
  fire _ _ _ := pure ()
  late w := (false, w.host)

end ViewBinding
