import ViewBinding.Lifetime
import ViewBinding.Proofs.Caches.Entries
import ViewBinding.Proofs.Leaf.Slots

/-!
# Caches — what goes does not come back

References are not used again: an object, element or array that is gone stays gone, and what is made
later has another reference.  `World.Ages` says so of two worlds one of which came from the other.

* `Elsewhere`: the change did not touch the caches either.
* `elsewhere_collect`: things that nobody holds go without the caches being touched.
-/

namespace ViewBinding

namespace Store

variable {entity : Entity} {α : Type} {s s' s'' : Store entity α}

/-- References are made in order, and nothing that is gone comes back. -/
structure Ages (s s' : Store entity α) : Prop where
  size : s.size ≤ s'.size
  gone : ∀ r, r.index < s.size → s'.contains r = true → s.contains r = true

theorem Ages.refl (s : Store entity α) : s.Ages s := ⟨Nat.le_refl _, fun _ _ => id⟩

theorem ages_alloc (s : Store entity α) (a : α) : s.Ages (s.alloc a) where
  size := by simp [size, alloc]
  gone r old there := by
    have ne : r ≠ s.next := fun is => by rw [is] at old; exact Nat.lt_irrefl _ old
    rwa [contains, get?_alloc_of_ne a ne] at there

theorem ages_modify (s : Store entity α) (r : Ref entity) (f : α → α) : s.Ages (s.modify r f) where
  size := by simp [size, modify]
  gone r' _ there := by rwa [contains_modify] at there

theorem ages_erase (s : Store entity α) (r : Ref entity) : s.Ages (s.erase r) where
  size := by simp [size, erase]
  gone r' _ there := by
    by_cases is : r' = r
    · rw [contains, is, get?_erase_self] at there
      cases there
    · rwa [contains, get?_erase_of_ne is] at there

theorem index_lt_size_of_contains {r : Ref entity} (h : s.contains r = true) : r.index < s.size := by
  obtain ⟨a, get⟩ := Option.isSome_iff_exists.1 h
  exact index_lt_size_of_get? get

end Store

namespace World

variable {η : Type} {w w' w'' : World η}

/-- The object, element or array of an entry has been made. -/
def made (w : World η) : CacheKey → Prop
  | .dispatcher o => o.index < w.objects.size
  | .property o _ => o.index < w.objects.size
  | .element e _ => e.index < w.elements.size
  | .contents a => a.index < w.arrays.size

theorem made_of_lives {key : CacheKey} (h : w.lives key) : w.made key := by
  cases key <;> exact Store.index_lt_size_of_contains h

/-- What has been made stays made, and nothing that is gone comes back. -/
structure Ages (w w' : World η) : Prop where
  made : ∀ key, w.made key → w'.made key
  gone : ∀ key, w.made key → w'.lives key = true → w.lives key = true

theorem Ages.refl (w : World η) : w.Ages w := ⟨fun _ => id, fun _ _ => id⟩

theorem Ages.trans (h : w.Ages w') (h' : w'.Ages w'') : w.Ages w'' where
  made key m := h'.made key (h.made key m)
  gone key m there := h.gone key m (h'.gone key (h.made key m) there)

theorem ages_of_stores (objects : w.objects.Ages w'.objects)
    (elements : w.elements.Ages w'.elements) (arrays : w.arrays.Ages w'.arrays) : w.Ages w' where
  made key m := by
    cases key with
    | dispatcher _ | property _ _ => exact Nat.lt_of_lt_of_le m objects.size
    | element _ _ => exact Nat.lt_of_lt_of_le m elements.size
    | contents _ => exact Nat.lt_of_lt_of_le m arrays.size
  gone key m there := by
    cases key with
    | dispatcher o | property o _ => exact objects.gone o m there
    | element e _ => exact elements.gone e m there
    | contents a => exact arrays.gone a m there

/-- Nothing happened to objects, elements and arrays. -/
structure SameThings (w w' : World η) : Prop where
  objects : w'.objects = w.objects
  elements : w'.elements = w.elements
  arrays : w'.arrays = w.arrays

theorem SameThings.refl (w : World η) : w.SameThings w := ⟨rfl, rfl, rfl⟩

theorem SameThings.trans (h : w.SameThings w') (h' : w'.SameThings w'') : w.SameThings w'' :=
  ⟨h'.objects.trans h.objects, h'.elements.trans h.elements, h'.arrays.trans h.arrays⟩

theorem SameThings.ages (h : w.SameThings w') : w.Ages w' :=
  ages_of_stores (h.objects ▸ .refl _) (h.elements ▸ .refl _) (h.arrays ▸ .refl _)

theorem SameThings.lives (h : w.SameThings w') (key : CacheKey) : w'.lives key = w.lives key := by
  cases key <;> simp [World.lives, h.objects, h.elements, h.arrays]

/-! ### Changes elsewhere -/

/-- A change that did not touch the caches. -/
structure Elsewhere (w w' : World η) : Prop where
  locator : w'.locator = w.locator
  ages : w.Ages w'

theorem Elsewhere.refl (w : World η) : w.Elsewhere w := ⟨rfl, .refl w⟩

theorem Elsewhere.trans (h : w.Elsewhere w') (h' : w'.Elsewhere w'') : w.Elsewhere w'' :=
  ⟨h'.locator.trans h.locator, h.ages.trans h'.ages⟩

/-- What touches no object, element or array, and no cache. -/
theorem Elsewhere.of_eq (locator : w'.locator = w.locator) (objects : w'.objects = w.objects)
    (elements : w'.elements = w.elements) (arrays : w'.arrays = w.arrays) : w.Elsewhere w' :=
  ⟨locator, SameThings.ages ⟨objects, elements, arrays⟩⟩

theorem watcherAt_of_locator (h : w'.locator = w.locator) (key : CacheKey) :
    w'.watcherAt key = w.watcherAt key := by
  cases key <;> simp [watcherAt, h]

theorem entries_of_locator (h : w'.locator = w.locator) : w'.entries = w.entries := by
  simp only [entries, dispatcherEntries, propertyEntries, elementEntries, contentsEntries, h]

theorem cachedCount_of_locator (h : w'.locator = w.locator) : w'.cachedCount = w.cachedCount := by
  simp [cachedCount, h]

theorem elsewhere_newObject (w : World η) (properties : List (String × Value)) :
    w.Elsewhere (w.newObject properties).2 :=
  ⟨rfl, ages_of_stores (Store.ages_alloc _ _) (.refl _) (.refl _)⟩

theorem elsewhere_modifyObject (w : World η) (o : Ref .object) (f : ObjectCell → ObjectCell) :
    w.Elsewhere (w.modifyObject o f) :=
  ⟨rfl, ages_of_stores (Store.ages_modify _ _ _) (.refl _) (.refl _)⟩

theorem elsewhere_modifyArray (w : World η) (a : Ref .array) (f : ArrayCell → ArrayCell) :
    w.Elsewhere (w.modifyArray a f) :=
  ⟨rfl, ages_of_stores (.refl _) (.refl _) (Store.ages_modify _ _ _)⟩

theorem elsewhere_modifyElement (w : World η) (e : Ref .element) (f : ElementCell → ElementCell) :
    w.Elsewhere (w.modifyElement e f) :=
  ⟨rfl, ages_of_stores (.refl _) (Store.ages_modify _ _ _) (.refl _)⟩

theorem elsewhere_unlistenRecords (w : World η) (o : Ref .object) (t : Token) :
    w.Elsewhere (w.unlistenRecords o t) := elsewhere_modifyObject w o _

theorem elsewhere_unlistenSplices (w : World η) (a : Ref .array) (t : Token) :
    w.Elsewhere (w.unlistenSplices a t) := elsewhere_modifyArray w a _

/-! ### Going -/

theorem elsewhere_undoCallback (w : World η) (t : Token) (ob : Observer) :
    w.Elsewhere (w.undoCallback t ob).2 := by
  cases ob with
  | leaf l =>
    cases l with
    | setter _ | property _ => exact .of_eq rfl rfl rfl rfl
    | placeholder _ =>
      simp only [undoCallback]
      split <;> exact .of_eq rfl rfl rfl rfl
    | contents r =>
      simp only [undoCallback]
      split
      · exact .refl w
      · split
        · have left : ∀ f, w.Elsewhere (w.modifyContents r f) := fun _ => .of_eq rfl rfl rfl rfl
          split
          · exact (left _).trans (elsewhere_unlistenSplices _ _ _)
          · exact left _
        · exact .of_eq rfl rfl rfl rfl
    | element _ | select _ | poll _ =>
      simp only [undoCallback]
      split
      · exact .refl w
      · split <;> exact .of_eq rfl rfl rfl rfl
  | path _ | composite _ =>
    simp only [undoCallback]
    split
    · exact .refl w
    · split <;> exact .of_eq rfl rfl rfl rfl

theorem elsewhere_dispose (w : World η) (s : Ref .subscription) : w.Elsewhere (w.dispose s) :=
  disposeWithin_keeps (P := fun w' => w.Elsewhere w')
    (fun _ _ h => h.trans (.of_eq rfl rfl rfl rfl))
    (undo_keeps (fun w' t ob h => h.trans (elsewhere_undoCallback w' t ob))
      fun w' e _ h => h.trans (elsewhere_modifyElement w' e _)) _ s w (.refl w)

theorem elsewhere_disposeOption (w : World η) (s : Option (Ref .subscription)) :
    w.Elsewhere (w.disposeOption s) := by
  cases s with
  | none => exact .refl w
  | some s => exact elsewhere_dispose w s

theorem elsewhere_foldl {α : Type} {f : World η → α → World η}
    (h : ∀ (w : World η) (a : α), w.Elsewhere (f w a)) :
    ∀ (items : List α) (w : World η), w.Elsewhere (items.foldl f w)
  | [], w => .refl w
  | a :: rest, w => (h w a).trans (elsewhere_foldl h rest (f w a))

/-- A thing goes without the caches being touched. -/
theorem elsewhere_release (w : World η) (t : Thing) : w.Elsewhere (w.release t) := by
  unfold release
  split
  · exact ⟨rfl, ages_of_stores (Store.ages_erase _ _) (.refl _) (.refl _)⟩
  · exact ⟨rfl, ages_of_stores (.refl _) (.refl _) (Store.ages_erase _ _)⟩
  · exact ⟨rfl, ages_of_stores (.refl _) (Store.ages_erase _ _) (.refl _)⟩
  · exact .of_eq rfl rfl rfl rfl
  · unfold releaseDispatcher
    split
    · exact .refl w
    · have erased : w.Elsewhere { w with dispatchers := w.dispatchers.erase ⟨t.index⟩ } :=
        .of_eq rfl rfl rfl rfl
      dsimp only
      split
      · exact erased.trans (elsewhere_unlistenRecords _ _ _)
      · exact erased
  · exact .of_eq rfl rfl rfl rfl
  · exact .of_eq rfl rfl rfl rfl
  · exact .of_eq rfl rfl rfl rfl
  · exact .of_eq rfl rfl rfl rfl
  · unfold releaseContents
    split
    · exact .refl w
    · have erased : w.Elsewhere { w with contents := w.contents.erase ⟨t.index⟩ } :=
        .of_eq rfl rfl rfl rfl
      dsimp only
      split
      · exact erased.trans (elsewhere_unlistenSplices _ _ _)
      · exact erased
  · exact .of_eq rfl rfl rfl rfl
  · unfold releasePath
    split
    · exact .refl w
    · have erased : w.Elsewhere { w with paths := w.paths.erase ⟨t.index⟩ } :=
        .of_eq rfl rfl rfl rfl
      exact (erased.trans (elsewhere_disposeOption _ _)).trans (elsewhere_disposeOption _ _)
  · unfold releaseComposite
    split
    · exact .refl w
    · have erased : w.Elsewhere { w with composites := w.composites.erase ⟨t.index⟩ } :=
        .of_eq rfl rfl rfl rfl
      dsimp only
      rw [← Array.foldl_toList]
      exact erased.trans
        (elsewhere_foldl (fun w part => elsewhere_disposeOption w (Part.subscription part)) _ _)
  · exact .of_eq rfl rfl rfl rfl
  · unfold releaseBinding
    split
    · exact .refl w
    · have erased : w.Elsewhere { w with bindings := w.bindings.erase ⟨t.index⟩ } :=
        .of_eq rfl rfl rfl rfl
      exact (erased.trans (elsewhere_disposeOption _ _)).trans (elsewhere_disposeOption _ _)
  · exact .refl w
  · exact .refl w

/-- **What nobody holds goes**, and the caches keep their entries for it. -/
theorem elsewhere_collect (w : World η) (roots : List Thing) : w.Elsewhere (w.collect roots) := by
  unfold collect
  generalize w.things.length = rounds
  induction rounds generalizing w with
  | zero => exact .refl w
  | succ rounds ih =>
    rw [collectWithin]
    generalize w.things.filter _ = gone
    cases gone with
    | nil => exact .refl w
    | cons t rest => exact (elsewhere_foldl elsewhere_release (t :: rest) w).trans (ih _)

end World

end ViewBinding
