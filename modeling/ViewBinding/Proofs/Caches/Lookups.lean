import Mathlib.Logic.Relation
import ViewBinding.Proofs.Caches.Ages

/-!
# Caches — bounded, and faithful to what lives

Whoever asks for an observer or a dispatcher twice gets the same one, as long as what it is for
lives: pruning, on request or in the middle of a lookup, takes out entries of what is gone and no
other.  And the caches stay small: after every lookup they hold at most twice as many entries as the
last pruning in a lookup left, or 256.

A lookup is of a property of a value, a dispatcher, a property of an element, or the contents of an
array (`CacheLookup`).  `CacheTurn` is whatever happens between lookups too: pruning on request, things going
that nobody holds, and anything that does not touch the caches.

* `Consults`: what one lookup does to the caches, and what it leaves in them.
* `Reckons`: the books of one lookup, with the entries that the last pruning in a lookup left.
* `caches_serve_the_living`: what every run of such turns from a new world leaves.

The observer of a property of an object that is not frozen is cached under the setter strategy only;
otherwise it is the dispatcher that is cached, and the dispatcher hands out the observer.
-/

namespace ViewBinding

namespace World

variable {η : Type} {w w' w₁ w₂ : World η} {key : CacheKey} {x : Watcher}

/-! ### Making room -/

theorem afterCreation_cases (w : World η) :
    w.cachedCount < w.locator.pruneAt ∧ w.afterCreation = w ∨
      w.locator.pruneAt ≤ w.cachedCount ∧ w.afterCreation = { w.dropStale with
        locator := { w.dropStale.locator with
          pruneAt := max (w.dropStale.cachedCount * 2) pruneFloor } } := by
  unfold afterCreation
  split
  next small => exact .inl ⟨small, rfl⟩
  next large => exact .inr ⟨Nat.not_lt.1 large, rfl⟩

/-- Making room takes out nothing that lives. -/
theorem watcherAt_afterCreation (lives : w.lives key = true) :
    w.afterCreation.watcherAt key = w.watcherAt key := by
  obtain ⟨-, same⟩ | ⟨-, pruned⟩ := w.afterCreation_cases
  · rw [same]
  · rw [pruned]
    refine Eq.trans ?_ ((watcherAt_dropStale w key).trans (if_pos lives))
    cases key <;> rfl

theorem sameThings_afterCreation (w : World η) : w.SameThings w.afterCreation := by
  obtain ⟨-, same⟩ | ⟨-, pruned⟩ := w.afterCreation_cases
  · rw [same]
    exact .refl w
  · rw [pruned]
    exact ⟨rfl, rfl, rfl⟩

/-! ### One lookup -/

/-- Somebody asks for an entry: it is there, or it is made, entered, and room is made after it. -/
inductive Consults (w : World η) (key : CacheKey) (x : Watcher) : World η → Prop
  | found : w.watcherAt key = some x → Consults w key x w
  | made {w₁ : World η} : w.watcherAt key = none → w.Remembers key x w₁ → w.SameThings w₁ →
      Consults w key x w₁.afterCreation

theorem Consults.sameThings (h : w.Consults key x w') : w.SameThings w' := by
  cases h with
  | found _ => exact .refl w
  | made _ _ sameThings => exact sameThings.trans (sameThings_afterCreation _)

/-- What was asked for is cached, if what it is for lives. -/
theorem Consults.watcherAt_self (h : w.Consults key x w') (lives : w.lives key = true) :
    w'.watcherAt key = some x := by
  cases h with
  | found is => exact is
  | made _ remembers sameThings =>
    rw [watcherAt_afterCreation ((sameThings.lives key).trans lives), remembers.self]

/-- **A lookup loses no entry of what lives.** -/
theorem Consults.watcherAt_of_lives (h : w.Consults key x w') {k : CacheKey} {y : Watcher}
    (cached : w.watcherAt k = some y) (lives : w.lives k = true) : w'.watcherAt k = some y := by
  cases h with
  | found _ => exact cached
  | made absent remembers sameThings =>
    have ne : k ≠ key := fun is => by rw [is, absent] at cached; cases cached
    rw [watcherAt_afterCreation ((sameThings.lives k).trans lives), remembers.other k ne, cached]

/-- The caches are smaller than the size at which they are pruned next, which is twice as large as
the last pruning in a lookup left them. -/
structure Roomy (w : World η) (left : Nat) : Prop where
  pruneAt : w.locator.pruneAt = max 256 (2 * left)
  count : w.cachedCount ≤ w.locator.pruneAt

theorem Roomy.elsewhere {left : Nat} (R : w.Roomy left) (h : w.Elsewhere w') : w'.Roomy left :=
  ⟨h.locator ▸ R.pruneAt, by rw [cachedCount_of_locator h.locator, h.locator]; exact R.count⟩

/-- The caches before and after a lookup, and beside them how many entries the last pruning in a
lookup left.  The lookup found its entry; or it entered a new one while the caches were small; or,
as the new entry made them large enough, it took out all entries of what is gone, counted what it
left, and set the next pruning to twice that size or the least one. -/
inductive Reckons (w : World η) : Nat → World η → Nat → Prop
  | found {w' : World η} (left : Nat) : w'.entries = w.entries →
      w'.locator.pruneAt = w.locator.pruneAt → Reckons w left w' left
  | entered {w' : World η} (left : Nat) (e : CacheKey × Watcher) :
      w.cachedCount + 1 < w.locator.pruneAt → w'.entries.Perm (e :: w.entries) →
      w'.locator.pruneAt = w.locator.pruneAt → Reckons w left w' left
  | pruned {w' : World η} (left : Nat) (e : CacheKey × Watcher) :
      w.locator.pruneAt ≤ w.cachedCount + 1 →
      w'.entries.Perm ((e :: w.entries).filter fun e => w.lives e.1) →
      w'.locator.pruneAt = max 256 (2 * w'.cachedCount) → Reckons w left w' w'.cachedCount

theorem Consults.reckons (h : w.Consults key x w') (left : Nat) : ∃ left', w.Reckons left w' left' := by
  cases h with
  | found _ => exact ⟨left, .found left rfl rfl⟩
  | @made w₁ _ remembers sameThings =>
    obtain ⟨small, same⟩ | ⟨large, pruned⟩ := w₁.afterCreation_cases
    · rw [remembers.count, remembers.pruneAt] at small
      rw [same]
      exact ⟨left, .entered left _ small remembers.entries remembers.pruneAt⟩
    · rw [remembers.count, remembers.pruneAt] at large
      have kept : w₁.afterCreation.entries = w₁.entries.filter fun e => w.lives e.1 := by
        rw [pruned]
        refine (entries_dropStale w₁).trans (List.filter_congr fun e _ => ?_)
        exact sameThings.lives e.1
      refine ⟨_, .pruned left _ large (kept ▸ remembers.entries.filter _) ?_⟩
      rw [pruned]
      exact (Nat.max_comm _ _).trans (congrArg (max pruneFloor) (Nat.mul_comm _ _))

/-- The books go by the caches only. -/
theorem Reckons.of_locator {left left' : Nat} (h : w.Reckons left w₁ left')
    (same : w₂.locator = w₁.locator) : w.Reckons left w₂ left' := by
  have entries := entries_of_locator same
  cases h with
  | found _ kept pruneAt => exact .found left (entries.trans kept) (same ▸ pruneAt)
  | entered _ e small more pruneAt => exact .entered left e small (entries ▸ more) (same ▸ pruneAt)
  | pruned _ e large kept pruneAt =>
    rw [← cachedCount_of_locator same] at pruneAt ⊢
    exact .pruned left e large (entries ▸ kept) (same ▸ pruneAt)

theorem Reckons.roomy {left left' : Nat} (h : w.Reckons left w' left') (R : w.Roomy left) :
    w'.Roomy left' := by
  cases h with
  | found _ kept pruneAt =>
    refine ⟨pruneAt.trans R.pruneAt, ?_⟩
    rw [pruneAt, cachedCount_eq_length, kept, ← cachedCount_eq_length]
    exact R.count
  | entered _ e small more pruneAt =>
    refine ⟨pruneAt.trans R.pruneAt, ?_⟩
    rw [pruneAt, cachedCount_eq_length, more.length_eq, List.length_cons, ← cachedCount_eq_length]
    exact Nat.le_of_lt small
  | pruned _ e _ _ pruneAt =>
    refine ⟨pruneAt, pruneAt ▸ ?_⟩
    exact Nat.le_trans (Nat.le_mul_of_pos_left _ (by decide)) (Nat.le_max_right _ _)

theorem consults_objectDispatcher (w : World η) (o : Ref .object) :
    w.Consults (.dispatcher o) (.dispatcher (w.objectDispatcher o).1) (w.objectDispatcher o).2 := by
  unfold objectDispatcher
  split
  next d get => exact .found (by simp [watcherAt, get])
  next absent =>
    exact .made (by simp [watcherAt, absent]) (remembers_dispatcher rfl absent)
      ⟨rfl, rfl, rfl⟩

theorem consults_cachedProperty (w : World η) (o : Ref .object) (n : String)
    {make : World η → Leaf × World η} (locator : (make w).2.locator = w.locator)
    (sameThings : w.SameThings (make w).2) :
    w.Consults (.property o n) (.leaf (w.cachedProperty o n make).1)
      (w.cachedProperty o n make).2 := by
  unfold cachedProperty
  split
  next l get => exact .found (by simp [watcherAt, get])
  next absent =>
    exact .made (by simp [watcherAt, absent]) (remembers_property locator absent)
      (sameThings.trans ⟨rfl, rfl, rfl⟩)

theorem makeElementObserver_leaves (w : World η) (e : Ref .element) (n : String) :
    (w.makeElementObserver e n).2.locator = w.locator ∧ w.SameThings (w.makeElementObserver e n).2 := by
  unfold makeElementObserver
  split <;> exact ⟨rfl, rfl, rfl, rfl⟩

theorem consults_elementObserver (w : World η) (e : Ref .element) (n : String) :
    w.Consults (.element e n) (.leaf (w.elementObserver e n).1) (w.elementObserver e n).2 := by
  unfold elementObserver
  split
  next l get => exact .found (by simp [watcherAt, get])
  next absent =>
    obtain ⟨locator, sameThings⟩ := makeElementObserver_leaves w e n
    exact .made (by simp [watcherAt, absent]) (remembers_element locator absent)
      (sameThings.trans ⟨rfl, rfl, rfl⟩)

theorem consults_contentsObserver (w : World η) (a : Ref .array) :
    w.Consults (.contents a) (.leaf (.contents (w.contentsObserver a).1))
      (w.contentsObserver a).2 := by
  unfold contentsObserver
  split
  next c get => exact .found (by simp [watcherAt, get])
  next absent =>
    exact .made (by simp [watcherAt, absent]) (remembers_contents rfl absent)
      ⟨rfl, rfl, rfl⟩

theorem dispatcherObserver_leaves (w : World η) (d : Ref .dispatcher) (n : String) :
    (w.dispatcherObserver d n).2.locator = w.locator ∧ w.SameThings (w.dispatcherObserver d n).2 := by
  unfold dispatcherObserver
  split
  · exact ⟨rfl, .refl w⟩
  · split
    · exact ⟨rfl, .refl w⟩
    · dsimp only
      split <;> exact ⟨rfl, rfl, rfl, rfl⟩

/-- Whether an observer of a property of an object is cached itself, and not by a dispatcher. -/
def cachesProperty (w : World η) (o : Ref .object) : Bool :=
  w.isFrozen o || w.config.strategy == .setter

theorem consults_objectObserver (n : String) {o : Ref .object} (h : w.cachesProperty o = true) :
    w.Consults (.property o n) (.leaf (w.objectObserver o n).1) (w.objectObserver o n).2 := by
  unfold objectObserver
  split
  · exact w.consults_cachedProperty o n rfl ⟨rfl, rfl, rfl⟩
  next thawed =>
    split
    next strategy => simp [cachesProperty, thawed, strategy] at h
    · exact w.consults_cachedProperty o n rfl ⟨rfl, rfl, rfl⟩

/-- Where dispatchers hand out the observers, the lookup of a property is one of a dispatcher. -/
theorem objectObserver_of_dispatched (n : String) {o : Ref .object}
    (h : w.cachesProperty o = false) :
    w.objectObserver o n = (w.objectDispatcher o).2.dispatcherObserver (w.objectDispatcher o).1 n := by
  simp only [cachesProperty, Bool.or_eq_false_iff, beq_eq_false_iff_ne] at h
  unfold objectObserver
  rw [if_neg (by rw [h.1]; decide)]
  split
  · rfl
  next strategy => exact absurd strategy h.2

end World

/-- Somebody asks the locator for an observer or a dispatcher. -/
inductive CacheLookup where
  | property (v : Value) (name : String)
  | dispatcher (o : Ref .object)
  | element (e : Ref .element) (name : String)
  | contents (a : Ref .array)

namespace CacheLookup

variable {η : Type} {w : World η}

/-- What the locator answers, and what the lookup leaves. -/
def run (w : World η) : CacheLookup → Option Watcher × World η
  | .property v n =>
    let (l, w) := w.propertyObserver v n
    (l.map .leaf, w)
  | .dispatcher o =>
    let (d, w) := w.objectDispatcher o
    (some (.dispatcher d), w)
  | .element e n =>
    let (l, w) := w.elementObserver e n
    (some (.leaf l), w)
  | .contents a =>
    let (c, w) := w.contentsObserver a
    (some (.leaf (.contents c)), w)

/-- The entry that a lookup consults. -/
def consulted? (w : World η) : CacheLookup → Option CacheKey
  | .property (.object o) n => some (if w.cachesProperty o then .property o n else .dispatcher o)
  | .property _ _ => none
  | .dispatcher o => some (.dispatcher o)
  | .element e n => some (.element e n)
  | .contents a => some (.contents a)

/-- The entry that answers a lookup. -/
def key? (w : World η) : CacheLookup → Option CacheKey
  | .property (.object o) n => if w.cachesProperty o then some (.property o n) else none
  | k => k.consulted? w

/-- **One lookup** consults one entry, if any, and does not touch the caches otherwise. -/
theorem run_spec (w : World η) (k : CacheLookup) :
    (k.consulted? w = none ∧ (k.run w).2 = w) ∨
      ∃ key x w₁, k.consulted? w = some key ∧ w.Consults key x w₁ ∧
        ((k.run w).2.locator = w₁.locator ∧ w₁.SameThings (k.run w).2) ∧
        ∀ key', k.key? w = some key' → key' = key ∧ (k.run w).1 = some x := by
  cases k with
  | property v n =>
    cases v with
    | object o =>
      refine .inr ?_
      simp only [run, World.propertyObserver, consulted?, key?]
      cases h : w.cachesProperty o with
      | true => exact ⟨_, _, _, rfl, World.consults_objectObserver n h, ⟨rfl, .refl _⟩, by simp⟩
      | false =>
        rw [World.objectObserver_of_dispatched n h]
        exact ⟨_, _, _, rfl, w.consults_objectDispatcher o,
          World.dispatcherObserver_leaves _ _ _, by simp⟩
    | _ => exact .inl ⟨rfl, rfl⟩
  | dispatcher o =>
    exact .inr ⟨_, _, _, rfl, w.consults_objectDispatcher o, ⟨rfl, .refl _⟩,
      by simp [key?, consulted?, run]⟩
  | element e n =>
    exact .inr ⟨_, _, _, rfl, w.consults_elementObserver e n, ⟨rfl, .refl _⟩,
      by simp [key?, consulted?, run]⟩
  | contents a =>
    exact .inr ⟨_, _, _, rfl, w.consults_contentsObserver a, ⟨rfl, .refl _⟩,
      by simp [key?, consulted?, run]⟩

/-- A lookup touches no object, element or array. -/
theorem sameThings_run (w : World η) (k : CacheLookup) : w.SameThings (k.run w).2 := by
  obtain ⟨-, same⟩ | ⟨key, x, w₁, -, consults, ⟨-, sameThings⟩, -⟩ := k.run_spec w
  · rw [same]
    exact .refl w
  · exact consults.sameThings.trans sameThings

theorem watcherAt_run {key : CacheKey} {x : Watcher} (k : CacheLookup)
    (cached : w.watcherAt key = some x)
    (lives : w.lives key = true) : (k.run w).2.watcherAt key = some x := by
  obtain ⟨-, same⟩ | ⟨_, _, w₁, -, consults, ⟨locator, -⟩, -⟩ := k.run_spec w
  · rw [same, cached]
  · exact (World.watcherAt_of_locator locator key).trans (consults.watcherAt_of_lives cached lives)

/-- **Every lookup keeps the books.** -/
theorem reckons_run (w : World η) (k : CacheLookup) (left : Nat) :
    ∃ left', w.Reckons left (k.run w).2 left' := by
  obtain ⟨-, same⟩ | ⟨_, _, w₁, -, consults, ⟨locator, -⟩, -⟩ := k.run_spec w
  · rw [same]
    exact ⟨left, .found left rfl rfl⟩
  · obtain ⟨left', reckons⟩ := consults.reckons left
    exact ⟨left', reckons.of_locator locator⟩

theorem consulted?_of_key? {k : CacheLookup} {key : CacheKey} (h : k.key? w = some key) :
    k.consulted? w = some key := by
  cases k with
  | property v n =>
    cases v with
    | object o =>
      simp only [key?, consulted?] at h ⊢
      split at h
      next caches => rwa [if_pos caches]
      · cases h
    | _ => cases h
  | _ => exact h

/-- The answer that comes from an entry is cached afterwards. -/
theorem watcherAt_key {k : CacheLookup} {key : CacheKey} (caches : k.key? w = some key)
    (lives : w.lives key = true) :
    ∃ x, (k.run w).1 = some x ∧ (k.run w).2.watcherAt key = some x ∧
      ∀ y, w.watcherAt key = some y → x = y := by
  obtain ⟨none, -⟩ | ⟨key', x, w₁, -, consults, ⟨locator, -⟩, answers⟩ := k.run_spec w
  · rw [consulted?_of_key? caches] at none
    cases none
  · obtain ⟨rfl, answer⟩ := answers key caches
    refine ⟨x, answer,
    (World.watcherAt_of_locator locator key).trans (consults.watcherAt_self lives), ?_⟩
    intro y cached
    cases consults with
    | found is => exact Option.some.inj (is.symm.trans cached)
    | made absent _ _ => rw [absent] at cached; cases cached

end CacheLookup

/-! ### Runs -/

variable {η : Type} {w w' : World η} {left left' : Nat}

/-- Something happens: a lookup, a pruning on request, things go that nobody holds, or the caches are
not touched.  Beside the world stands how many entries the last pruning in a lookup left. -/
inductive CacheTurn : World η × Nat → World η × Nat → Prop
  | lookup {w : World η} {left left' : Nat} (k : CacheLookup) : w.Reckons left (k.run w).2 left' →
      CacheTurn (w, left) ((k.run w).2, left')
  | prune (w : World η) (left : Nat) : CacheTurn (w, left) (w.prune.2, left)
  | drop {w w' : World η} (left : Nat) (roots : List Thing) : w' = w.collect roots →
      CacheTurn (w, left) (w', left)
  | elsewhere {w w' : World η} (left : Nat) : w.Elsewhere w' → CacheTurn (w, left) (w', left)

namespace CacheTurn

variable {p q : World η × Nat}

theorem elsewhere_of_eq {roots : List Thing} (is : w' = w.collect roots) : w.Elsewhere w' := by
  rw [is]
  exact w.elsewhere_collect roots

theorem ages (h : CacheTurn p q) : p.1.Ages q.1 := by
  cases h with
  | @lookup w _ _ k _ => exact (k.sameThings_run w).ages
  | prune w left => exact World.SameThings.ages ⟨rfl, rfl, rfl⟩
  | drop left roots is => exact (elsewhere_of_eq is).ages
  | elsewhere left elsewhere => exact elsewhere.ages

/-- **Nothing that happens takes out an entry of what lives.** -/
theorem watcherAt_of_lives (h : CacheTurn p q) {key : CacheKey} {x : Watcher}
    (cached : p.1.watcherAt key = some x) (lived : p.1.lives key = true) : q.1.watcherAt key = some x := by
  cases h with
  | lookup k _ => exact k.watcherAt_run cached lived
  | prune w left => exact ((World.watcherAt_dropStale w key).trans (if_pos lived)).trans cached
  | drop left roots is =>
    exact (World.watcherAt_of_locator (elsewhere_of_eq is).locator key).trans cached
  | elsewhere left elsewhere => exact (World.watcherAt_of_locator elsewhere.locator key).trans cached

theorem roomy (h : CacheTurn p q) (R : p.1.Roomy p.2) : q.1.Roomy q.2 := by
  cases h with
  | lookup k reckons => exact reckons.roomy R
  | prune w left => exact ⟨R.pruneAt, Nat.le_trans (World.cachedCount_dropStale_le w) R.count⟩
  | drop left roots is => exact R.elsewhere (elsewhere_of_eq is)
  | elsewhere left elsewhere => exact R.elsewhere elsewhere

/-- Nothing that is gone comes back in a run. -/
theorem run_ages (h : Relation.ReflTransGen CacheTurn p q) : p.1.Ages q.1 := by
  induction h with
  | refl => exact .refl _
  | tail _ turn ih => exact ih.trans turn.ages

/-- An entry stays for a whole run through which what it is for lives. -/
theorem run_watcherAt (h : Relation.ReflTransGen CacheTurn p q) {key : CacheKey} {x : Watcher}
    (made : p.1.made key) (cached : p.1.watcherAt key = some x) (lives : q.1.lives key = true) :
    q.1.watcherAt key = some x := by
  induction h with
  | refl => exact cached
  | tail before turn ih =>
    have lived := turn.ages.gone key ((run_ages before).made key made) lives
    exact turn.watcherAt_of_lives (ih lived) lived

theorem run_roomy (h : Relation.ReflTransGen CacheTurn p q) (R : p.1.Roomy p.2) :
    q.1.Roomy q.2 := by
  induction h with
  | refl => exact R
  | tail _ turn ih => exact turn.roomy ih

end CacheTurn

/-- **The caches are bounded and never forget what lives.**  After every run of lookups, prunings and
whatever else happens from a new world,

* the caches hold at most 256 entries, or twice as many as the last pruning in a lookup left, and
  that is the size at which they are pruned next;
* whatever is looked up next keeps the books: it finds its entry or enters it, and if that makes the
  caches large enough it takes out the entries of what is gone, no other, and counts what is left;
* pruning takes out the entries of what is gone, no other, and tells how many they were;
* a lookup takes out no entry of what lives;
* a lookup that an entry answers is answered in the same way after every further run, if what it is
  for has lived until then. -/
theorem caches_serve_the_living (config : Config) (host : η)
    (history : Relation.ReflTransGen CacheTurn (World.new config host, 0) (w, left)) :
    (w.cachedCount ≤ max 256 (2 * left) ∧ w.locator.pruneAt = max 256 (2 * left)) ∧
    (∀ k : CacheLookup, ∃ left', w.Reckons left (k.run w).2 left') ∧
    (w.prune.2.entries = w.entries.filter (fun e => w.lives e.1) ∧
      w.prune.1 = w.entries.countP fun e => !w.lives e.1) ∧
    (∀ (k : CacheLookup) key x, w.watcherAt key = some x → w.lives key = true →
      (k.run w).2.watcherAt key = some x) ∧
    ∀ (k : CacheLookup) key, k.key? w = some key → w.lives key = true →
      ∃ x, (k.run w).1 = some x ∧ ∀ l w' l',
        Relation.ReflTransGen CacheTurn ((k.run w).2, l) (w', l') → w'.lives key = true →
          k.key? w' = some key → (k.run w').1 = some x := by
  have roomy := CacheTurn.run_roomy history ⟨rfl, Nat.zero_le _⟩
  refine ⟨⟨roomy.pruneAt ▸ roomy.count, roomy.pruneAt⟩, fun k => k.reckons_run w left,
    w.entries_prune, fun k key x => k.watcherAt_run, fun k key caches lives => ?_⟩
  obtain ⟨x, answer, cached, -⟩ := CacheLookup.watcherAt_key caches lives
  refine ⟨x, answer, fun l w' l' later lives' caches' => ?_⟩
  have made : (k.run w).2.made key := (k.sameThings_run w).ages.made key (World.made_of_lives lives)
  have still := CacheTurn.run_watcherAt later made cached lives'
  obtain ⟨y, answer', -, same⟩ := CacheLookup.watcherAt_key caches' lives'
  rw [answer', same x still]

/-- A configuration with the setter strategy. -/
def Config.trapping : Config := { Config.standard with strategy := .setter }

/-- A new world of the setter strategy with one object. -/
def World.lonely : World Unit := ((World.new Config.trapping ()).newObject [("p", .null)]).2

/-- The trap of the one property is the same after a pruning. -/
theorem same_trap_after_pruning :
    let k := CacheLookup.property (.object ⟨0⟩) "p"
    ∃ x, (k.run World.lonely).1 = some x ∧
      (k.run (k.run World.lonely).2.prune.2).1 = some x := by
  obtain ⟨-, -, -, -, served⟩ := caches_serve_the_living Config.trapping ()
    (.single (.elsewhere 0 (World.elsewhere_newObject _ [("p", .null)])))
  obtain ⟨x, answer, stays⟩ :=
    served (.property (.object ⟨0⟩) "p") (.property ⟨0⟩ "p") rfl rfl
  exact ⟨x, answer, stays 0 _ 0 (.single (.prune _ _)) rfl rfl⟩

end ViewBinding
