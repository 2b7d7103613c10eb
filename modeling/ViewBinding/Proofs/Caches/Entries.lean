import ViewBinding.Locator

/-!
# Caches — the entries of the locator

The locator keeps four caches.  An entry of any of them says who watches something; `World.watcherAt`
looks one up by what it is for, and `World.entries` lists them all.  An entry outlives its object
until it is pruned: `World.lives` tells whether the object is still there.

* `watcherAt_dropStale`, `entries_prune`: pruning keeps the entries of what lives and no other.
* `Remembers`: what caching something new does to the caches.
-/

namespace ViewBinding

/-! ### Lists of entries -/

namespace Entries

variable {κ κ' α β : Type} [DecidableEq κ] [DecidableEq κ']

theorem get?_filter (p : κ → Bool) (key : κ) (entries : List (κ × α)) :
    get? key (entries.filter fun e => p e.1) = if p key then get? key entries else none := by
  induction entries with
  | nil => simp [get?]
  | cons e rest ih =>
    by_cases is : e.1 = key
    · subst is
      cases keep : p e.1 <;> simp [get?, keep, ih]
    · cases keep : p e.1 <;> simp [get?, keep, is, ih]

theorem get?_append (key : κ) (xs ys : List (κ × α)) :
    get? key (xs ++ ys) = (get? key xs).or (get? key ys) := by
  induction xs with
  | nil => rfl
  | cons e rest ih => by_cases is : e.1 = key <;> simp [get?, is, ih]

/-- Renaming keys without confusing them renames the entries. -/
theorem get?_map {f : κ → κ'} (inj : ∀ a b, f a = f b → a = b) (g : α → β) (key : κ)
    (entries : List (κ × α)) :
    get? (f key) (entries.map fun e => (f e.1, g e.2)) = (get? key entries).map g := by
  induction entries with
  | nil => rfl
  | cons e rest ih =>
    by_cases is : e.1 = key
    · simp [get?, is]
    · have : f e.1 ≠ f key := fun same => is (inj _ _ same)
      simp [get?, is, this, ih]

omit [DecidableEq κ] in
theorem get?_map_of_ne {f : κ → κ'} {key : κ'} (other : ∀ a, f a ≠ key) (g : α → β)
    (entries : List (κ × α)) : get? key (entries.map fun e => (f e.1, g e.2)) = none := by
  induction entries with
  | nil => rfl
  | cons e rest ih => simp [get?, other, ih]

/-- A new key goes to the end. -/
theorem put_of_get?_eq_none {key : κ} (a : α) {entries : List (κ × α)}
    (h : get? key entries = none) : put key a entries = entries ++ [(key, a)] := by
  induction entries with
  | nil => rfl
  | cons e rest ih =>
    by_cases is : e.1 = key
    · simp [get?, is] at h
    · simp only [get?, if_neg is] at h
      simp [put, is, ih h]

end Entries

/-- What the locator has an observer or a dispatcher for. -/
inductive CacheKey where
  | dispatcher (o : Ref .object)
  | property (o : Ref .object) (name : String)
  | element (e : Ref .element) (name : String)
  | contents (a : Ref .array)
deriving DecidableEq

/-- The key of a pair under which an observer of a property is cached. -/
def CacheKey.ofProperty (p : Ref .object × String) : CacheKey := .property p.1 p.2

/-- The key of a pair under which an observer of an element property is cached. -/
def CacheKey.ofElement (p : Ref .element × String) : CacheKey := .element p.1 p.2

/-- An observer or a dispatcher. -/
inductive Watcher where
  | dispatcher (d : Ref .dispatcher)
  | leaf (l : Leaf)
deriving DecidableEq

namespace World

variable {η : Type} {w w' : World η}

/-- The cached observer or dispatcher. -/
def watcherAt (w : World η) : CacheKey → Option Watcher
  | .dispatcher o => (Entries.get? o w.locator.dispatchers).map .dispatcher
  | .property o n => (Entries.get? (o, n) w.locator.properties).map .leaf
  | .element e n => (Entries.get? (e, n) w.locator.elements).map .leaf
  | .contents a => (Entries.get? a w.locator.contents).map fun c => .leaf (.contents c)

/-- Whether the object, element or array of an entry is still there. -/
def lives (w : World η) : CacheKey → Bool
  | .dispatcher o => w.objects.contains o
  | .property o _ => w.objects.contains o
  | .element e _ => w.elements.contains e
  | .contents a => w.arrays.contains a

/-- The entries of the cache of dispatchers. -/
def dispatcherEntries (w : World η) : List (CacheKey × Watcher) :=
  w.locator.dispatchers.map fun p => (.dispatcher p.1, .dispatcher p.2)

/-- The entries of the cache of observers of properties. -/
def propertyEntries (w : World η) : List (CacheKey × Watcher) :=
  w.locator.properties.map fun p => (.ofProperty p.1, .leaf p.2)

/-- The entries of the cache of observers of element properties. -/
def elementEntries (w : World η) : List (CacheKey × Watcher) :=
  w.locator.elements.map fun p => (.ofElement p.1, .leaf p.2)

/-- The entries of the cache of observers of contents. -/
def contentsEntries (w : World η) : List (CacheKey × Watcher) :=
  w.locator.contents.map fun p => (.contents p.1, .leaf (.contents p.2))

/-- The entries of all caches. -/
def entries (w : World η) : List (CacheKey × Watcher) :=
  w.dispatcherEntries ++ w.propertyEntries ++ w.elementEntries ++ w.contentsEntries

theorem cachedCount_eq_length (w : World η) : w.cachedCount = w.entries.length := by
  simp [cachedCount, entries, dispatcherEntries, propertyEntries, elementEntries, contentsEntries,
    Nat.add_assoc]

theorem get?_dispatcherEntries (w : World η) (key : CacheKey) :
    Entries.get? key w.dispatcherEntries =
      match key with
      | .dispatcher _ => w.watcherAt key
      | _ => none := by
  cases key with
  | dispatcher o =>
    exact Entries.get?_map (f := CacheKey.dispatcher) (fun _ _ => CacheKey.dispatcher.inj) _ o _
  | _ => exact Entries.get?_map_of_ne (f := CacheKey.dispatcher) (by simp) _ _

theorem get?_propertyEntries (w : World η) (key : CacheKey) :
    Entries.get? key w.propertyEntries =
      match key with
      | .property _ _ => w.watcherAt key
      | _ => none := by
  cases key with
  | property o n =>
    exact Entries.get?_map (f := CacheKey.ofProperty)
      (fun _ _ is => Prod.ext (CacheKey.property.inj is).1 (CacheKey.property.inj is).2) _ (o, n) _
  | _ => exact Entries.get?_map_of_ne (f := CacheKey.ofProperty) (by simp [CacheKey.ofProperty]) _ _

theorem get?_elementEntries (w : World η) (key : CacheKey) :
    Entries.get? key w.elementEntries =
      match key with
      | .element _ _ => w.watcherAt key
      | _ => none := by
  cases key with
  | element e n =>
    exact Entries.get?_map (f := CacheKey.ofElement)
      (fun _ _ is => Prod.ext (CacheKey.element.inj is).1 (CacheKey.element.inj is).2) _ (e, n) _
  | _ => exact Entries.get?_map_of_ne (f := CacheKey.ofElement) (by simp [CacheKey.ofElement]) _ _

theorem get?_contentsEntries (w : World η) (key : CacheKey) :
    Entries.get? key w.contentsEntries =
      match key with
      | .contents _ => w.watcherAt key
      | _ => none := by
  cases key with
  | contents a =>
    exact Entries.get?_map (f := CacheKey.contents) (fun _ _ => CacheKey.contents.inj)
      (fun c => Watcher.leaf (.contents c)) a _
  | _ =>
    exact Entries.get?_map_of_ne (f := CacheKey.contents) (by simp)
      (fun c => Watcher.leaf (.contents c)) _

/-- The watcher is the one of the entry. -/
theorem watcherAt_eq_get?_entries (w : World η) (key : CacheKey) :
    w.watcherAt key = Entries.get? key w.entries := by
  simp only [entries, Entries.get?_append, get?_dispatcherEntries, get?_propertyEntries,
    get?_elementEntries, get?_contentsEntries]
  cases key <;> simp

/-! ### Pruning -/

/-- Pruning keeps the entries of what lives, in their order, and no other. -/
theorem entries_dropStale (w : World η) :
    w.dropStale.entries = w.entries.filter fun e => w.lives e.1 := by
  simp only [entries, dispatcherEntries, propertyEntries, elementEntries, contentsEntries,
    List.filter_append, List.filter_map]
  rfl

@[simp] theorem lives_dropStale (w : World η) (key : CacheKey) :
    w.dropStale.lives key = w.lives key := by cases key <;> rfl

theorem watcherAt_dropStale (w : World η) (key : CacheKey) :
    w.dropStale.watcherAt key = if w.lives key then w.watcherAt key else none := by
  rw [watcherAt_eq_get?_entries, entries_dropStale, watcherAt_eq_get?_entries, Entries.get?_filter]

theorem cachedCount_dropStale_le (w : World η) : w.dropStale.cachedCount ≤ w.cachedCount := by
  rw [cachedCount_eq_length, cachedCount_eq_length, entries_dropStale]
  exact List.length_filter_le _ _

/-- **Pruning takes out what is gone** and tells how many entries that were. -/
theorem entries_prune (w : World η) :
    w.prune.2.entries = w.entries.filter (fun e => w.lives e.1) ∧
      w.prune.1 = w.entries.countP fun e => !w.lives e.1 := by
  refine ⟨entries_dropStale w, ?_⟩
  have both := List.length_eq_countP_add_countP (fun e => w.lives e.1) (l := w.entries)
  simp only [prune, cachedCount_eq_length, entries_dropStale, ← List.countP_eq_length_filter]
  simp only [Bool.not_eq_true, Bool.decide_eq_false] at both
  omega

/-! ### Remembering -/

/-- `w'` is `w` with one more entry in the caches. -/
structure Remembers (w : World η) (key : CacheKey) (x : Watcher) (w' : World η) : Prop where
  self : w'.watcherAt key = some x
  other : ∀ k ≠ key, w'.watcherAt k = w.watcherAt k
  entries : w'.entries.Perm ((key, x) :: w.entries)
  pruneAt : w'.locator.pruneAt = w.locator.pruneAt

theorem Remembers.count {key : CacheKey} {x : Watcher} (h : w.Remembers key x w') :
    w'.cachedCount = w.cachedCount + 1 := by
  rw [cachedCount_eq_length, cachedCount_eq_length, h.entries.length_eq, List.length_cons]

/-- An entry more at the end of a cache is an entry more. -/
theorem perm_cons_append (x : CacheKey × Watcher) (before cache : List (CacheKey × Watcher)) :
    (before ++ (cache ++ [x])).Perm (x :: (before ++ cache)) :=
  ((List.perm_append_singleton x cache).append_left before).trans List.perm_middle

variable {o : Ref .object} {n : String} {e : Ref .element} {a : Ref .array}

theorem remembers_dispatcher {d : Ref .dispatcher} (same : w'.locator = w.locator)
    (absent : Entries.get? o w.locator.dispatchers = none) :
    w.Remembers (.dispatcher o) (.dispatcher d) { w' with
      locator := { w'.locator with
        dispatchers := Entries.put o d w'.locator.dispatchers } } where
  self := by simp [watcherAt]
  other k ne := by
    rw [same]
    cases k with
    | dispatcher o' =>
      simp only [watcherAt]
      rw [Entries.get?_put_of_ne _ _ fun is => ne (by rw [is])]
    | _ => rfl
  entries := by
    rw [same]
    simp only [entries, dispatcherEntries, propertyEntries, elementEntries, contentsEntries,
      Entries.put_of_get?_eq_none _ absent, List.map_append, List.map_cons, List.map_nil]
    exact (((List.perm_append_singleton _ _).append_right _).append_right _).append_right _
  pruneAt := by rw [same]

theorem remembers_property {l : Leaf} (same : w'.locator = w.locator)
    (absent : Entries.get? (o, n) w.locator.properties = none) :
    w.Remembers (.property o n) (.leaf l) { w' with
      locator := { w'.locator with
        properties := Entries.put (o, n) l w'.locator.properties } } where
  self := by simp [watcherAt]
  other k ne := by
    rw [same]
    cases k with
    | property o' n' =>
      simp only [watcherAt]
      rw [Entries.get?_put_of_ne _ _ fun is => ne (by cases is; rfl)]
    | _ => rfl
  entries := by
    rw [same]
    simp only [entries, dispatcherEntries, propertyEntries, elementEntries, contentsEntries,
      Entries.put_of_get?_eq_none _ absent, List.map_append, List.map_cons, List.map_nil]
    exact ((perm_cons_append _ _ _).append_right _).append_right _
  pruneAt := by rw [same]

theorem remembers_element {l : Leaf} (same : w'.locator = w.locator)
    (absent : Entries.get? (e, n) w.locator.elements = none) :
    w.Remembers (.element e n) (.leaf l) { w' with
      locator := { w'.locator with
        elements := Entries.put (e, n) l w'.locator.elements } } where
  self := by simp [watcherAt]
  other k ne := by
    rw [same]
    cases k with
    | element e' n' =>
      simp only [watcherAt]
      rw [Entries.get?_put_of_ne _ _ fun is => ne (by cases is; rfl)]
    | _ => rfl
  entries := by
    rw [same]
    simp only [entries, dispatcherEntries, propertyEntries, elementEntries, contentsEntries,
      Entries.put_of_get?_eq_none _ absent, List.map_append, List.map_cons, List.map_nil]
    exact (perm_cons_append _ _ _).append_right _
  pruneAt := by rw [same]

theorem remembers_contents {c : Ref .contents} (same : w'.locator = w.locator)
    (absent : Entries.get? a w.locator.contents = none) :
    w.Remembers (.contents a) (.leaf (.contents c)) { w' with
      locator := { w'.locator with
        contents := Entries.put a c w'.locator.contents } } where
  self := by simp [watcherAt]
  other k ne := by
    rw [same]
    cases k with
    | contents a' =>
      simp only [watcherAt]
      rw [Entries.get?_put_of_ne _ _ fun is => ne (by rw [is])]
    | _ => rfl
  entries := by
    rw [same]
    simp only [entries, dispatcherEntries, propertyEntries, elementEntries, contentsEntries,
      Entries.put_of_get?_eq_none _ absent, List.map_append, List.map_cons, List.map_nil]
    exact perm_cons_append _ _ _
  pruneAt := by rw [same]

end World

end ViewBinding
