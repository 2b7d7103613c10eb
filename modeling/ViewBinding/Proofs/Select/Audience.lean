import ViewBinding.Machine
import ViewBinding.Proofs.Ends
import ViewBinding.Proofs.Leaf.Dispose
import ViewBinding.Proofs.Select.Options

/-!
# Select — who hears of an array

Observers of contents listen to arrays and tell the select whose value the array is.  `Menu` says
how these registrations fit together in a world in which nobody else is told by arrays but the host;
`Heeds` says that a select is among those who hear of the array that is its value.

What neither touches registrations nor the select keeps both (`Beside`).  The other lemmas are about
one change each: of an observer of contents, of the registrations with an array, of the select, and
of the subscriptions.
-/

namespace ViewBinding

namespace World

variable {η : Type} {w w' w'' : World η} {r : Ref .select} {e : Ref .element} {a a' : Ref .array}
  {c c' : Ref .contents} {t : Token} {waiting waiting' : List Microtask}

/-- The registrations with an array. -/
def ears (w : World η) (a : Ref .array) : List (Token × SpliceListener) :=
  ((w.arrays.get? a).map (·.listeners.entries)).getD []

/-- The microtasks that arrays and the host queue. -/
inductive IsMild : Microtask → Prop
  | contents (c : Ref .contents) : IsMild (.contents c)
  | hook (h : Ref .hook) : IsMild (.hook h)

/-- What only a select and the host hear of: `r` is the select of the element `e`, and `waiting` are
the microtasks that wait. -/
structure Menu (w : World η) (r : Ref .select) (e : Ref .element) (waiting : List Microtask) :
    Prop where
  element : (w.selects.get? r).map (·.element) = some e
  live : w.elements.contains e = true
  /-- Only the host is told about the value of the select. -/
  watched : ∀ cell s, w.selects.get? r = some cell → s ∈ cell.callbacks.toList → ∃ h, s = .hook h
  /-- What the select holds is a subscription with the contents of an array. -/
  follows : ∀ cell s d, w.selects.get? r = some cell → cell.array = some s → w.disposal? s = some d →
    ∃ c t, d = .callback (.leaf (.contents c)) t
  told : ∀ c cell s, w.contents.get? c = some cell → s ∈ cell.callbacks.toList →
    s = .options r ∨ ∃ h, s = .hook h
  queued : ∀ c cell, w.contents.get? c = some cell → cell.queued = true → .contents c ∈ waiting
  mild : ∀ task ∈ waiting, IsMild task
  /-- An observer that remembers a registration is registered. -/
  listens : ∀ c cell t, w.contents.get? c = some cell → cell.listener = some t →
    (t, .contents c) ∈ w.ears cell.array
  cached : ∀ p ∈ w.locator.contents, ∃ cell, w.contents.get? p.2 = some cell ∧ cell.array = p.1
  issued : ∀ a x, x ∈ w.ears a → x.1.index < w.nextToken
  distinct : ∀ a, Entries.Distinct (w.ears a)

/-- The select `r` has the array `a` as its value and hears of it from `c`. -/
structure Heeds (w : World η) (r : Ref .select) (a : Ref .array) (c : Ref .contents) :
    Prop where
  value : (w.selects.get? r).map (·.value) = some (.array a)
  hears : ∃ cell t, w.contents.get? c = some cell ∧ cell.array = a ∧ cell.listener = some t ∧
    .options r ∈ cell.callbacks.toList

/-! ### What happens beside -/

/-- `w'` has the registrations and selects of `w`. -/
structure Beside (w w' : World η) : Prop where
  ears : ∀ a, w'.ears a = w.ears a
  contents : w'.contents = w.contents
  cached : w'.locator.contents = w.locator.contents
  selects : w'.selects = w.selects
  subscriptions : w'.subscriptions = w.subscriptions
  nextToken : w.nextToken ≤ w'.nextToken
  live : ∀ e, w.elements.contains e = true → w'.elements.contains e = true

theorem Beside.refl (w : World η) : w.Beside w :=
  ⟨fun _ => rfl, rfl, rfl, rfl, rfl, Nat.le_refl _, fun _ => id⟩

theorem Beside.trans (h : w.Beside w') (h' : w'.Beside w'') : w.Beside w'' where
  ears a := (h'.ears a).trans (h.ears a)
  contents := h'.contents.trans h.contents
  cached := h'.cached.trans h.cached
  selects := h'.selects.trans h.selects
  subscriptions := h'.subscriptions.trans h.subscriptions
  nextToken := Nat.le_trans h.nextToken h'.nextToken
  live e := h'.live e ∘ h.live e

theorem Menu.beside (M : w.Menu r e waiting) (h : w.Beside w') : w'.Menu r e waiting where
  element := by rw [h.selects, M.element]
  live := h.live e M.live
  watched := by rw [h.selects]; exact M.watched
  follows := by
    have disposal : ∀ s, w'.disposal? s = w.disposal? s := fun s => by
      simp only [disposal?, h.subscriptions]
    simp only [h.selects, disposal]
    exact M.follows
  told := by rw [h.contents]; exact M.told
  queued := by rw [h.contents]; exact M.queued
  mild := M.mild
  listens := by
    simp only [h.contents, h.ears]
    exact M.listens
  cached := by rw [h.cached, h.contents]; exact M.cached
  issued a x m := Nat.lt_of_lt_of_le (M.issued a x (h.ears a ▸ m)) h.nextToken
  distinct a := h.ears a ▸ M.distinct a

theorem Heeds.beside (F : w.Heeds r a c) (h : w.Beside w') : w'.Heeds r a c where
  value := by rw [h.selects, F.value]
  hears := by rw [h.contents]; exact F.hears

/-- Where the registrations with arrays are the same, changes of elements are beside. -/
theorem beside_of_eq (h : w' = { w with elements := w'.elements })
    (live : ∀ e, w.elements.contains e = true → w'.elements.contains e = true) : w.Beside w' := by
  rw [h] at live ⊢
  exact ⟨fun _ => rfl, rfl, rfl, rfl, rfl, Nat.le_refl _, live⟩

theorem Marks.beside (h : w.Marks w') : w.Beside w' :=
  beside_of_eq h.rest fun e live => (h.contains e).trans live

theorem beside_modifyElement (w : World η) (e : Ref .element) (f : ElementCell → ElementCell) :
    w.Beside (w.modifyElement e f) :=
  beside_of_eq rfl fun e' live => (Store.contains_modify w.elements e e' f).trans live

/-- Changing the items of an array is beside. -/
theorem beside_modifyArray {f : ArrayCell → ArrayCell}
    (h : ∀ cell, (f cell).listeners = cell.listeners) : w.Beside (w.modifyArray a f) where
  ears a' := by
    have same := Store.map_get?_modify (g := (·.listeners.entries)) w.arrays a a' (f := f)
      fun cell => congrArg Listeners.entries (h cell)
    exact congrArg (·.getD []) same
  contents := rfl
  cached := rfl
  selects := rfl
  subscriptions := rfl
  nextToken := Nat.le_refl _
  live _ := id

/-- A new array has no registrations. -/
theorem ears_newArray (w : World η) (items : List Value) (a : Ref .array) :
    (w.newArray items).2.ears a = w.ears a := by
  simp only [ears, newArray, Store.get?_alloc]
  split
  next same => rw [same, Store.get?_next]; rfl
  · rfl

theorem beside_newArray (w : World η) (items : List Value) : w.Beside (w.newArray items).2 where
  ears := ears_newArray w items
  contents := rfl
  cached := rfl
  selects := rfl
  subscriptions := rfl
  nextToken := Nat.le_refl _
  live _ := id

/-! ### One change each -/

/-- An observer of contents changes. -/
theorem Menu.modifyContents (M : w.Menu r e waiting) {f : ContentsCell → ContentsCell}
    (array : ∀ cell, (f cell).array = cell.array)
    (told : ∀ cell s, w.contents.get? c = some cell → s ∈ (f cell).callbacks.toList →
      s = .options r ∨ ∃ h, s = .hook h)
    (listens : ∀ cell t, w.contents.get? c = some cell → (f cell).listener = some t →
      (t, .contents c) ∈ w.ears cell.array)
    (queued : ∀ cell, w.contents.get? c = some cell → (f cell).queued = true →
      .contents c ∈ waiting')
    (more : ∀ c', c' ≠ c → .contents c' ∈ waiting → .contents c' ∈ waiting')
    (mild : ∀ task ∈ waiting', IsMild task) : (w.modifyContents c f).Menu r e waiting' := by
  -- what an observer is now comes from what it was
  have now : ∀ {c' cell'}, (w.modifyContents c f).contents.get? c' = some cell' →
      (c' = c ∧ ∃ cell, w.contents.get? c = some cell ∧ f cell = cell') ∨
        c' ≠ c ∧ w.contents.get? c' = some cell' := fun {c' cell'} get => by
    by_cases same : c' = c
    · subst same
      rw [World.modifyContents, Store.get?_modify_self] at get
      exact .inl ⟨rfl, Option.map_eq_some_iff.1 get⟩
    · exact .inr ⟨same, (Store.get?_modify_of_ne f same).symm.trans get⟩
  refine { M with told := ?_, queued := ?_, mild, listens := ?_, cached := ?_ }
  · intro c' cell' s get m
    obtain ⟨rfl, cell, was, rfl⟩ | ⟨-, was⟩ := now get
    · exact told cell s was m
    · exact M.told c' cell' s was m
  · intro c' cell' get is
    obtain ⟨rfl, cell, was, rfl⟩ | ⟨ne, was⟩ := now get
    · exact queued cell was is
    · exact more c' ne (M.queued c' cell' was is)
  · intro c' cell' t get is
    obtain ⟨rfl, cell, was, rfl⟩ | ⟨-, was⟩ := now get
    · exact array cell ▸ listens cell t was is
    · exact M.listens c' cell' t was is
  · intro p m
    obtain ⟨cell, was, is⟩ := M.cached p m
    by_cases same : p.2 = c
    · refine ⟨f cell, ?_, (array cell).trans is⟩
      rw [World.modifyContents, same, Store.get?_modify_self, ← same, was, Option.map_some]
    · exact ⟨cell, (Store.get?_modify_of_ne f same).trans was, is⟩

theorem Heeds.modifyContents (F : w.Heeds r a c) {f : ContentsCell → ContentsCell}
    (array : ∀ cell, (f cell).array = cell.array)
    (listener : ∀ cell, (f cell).listener = cell.listener)
    (callbacks : ∀ cell, (f cell).callbacks = cell.callbacks) (c' : Ref .contents) :
    (w.modifyContents c' f).Heeds r a c where
  value := F.value
  hears := by
    obtain ⟨cell, t, get, is, listens, m⟩ := F.hears
    by_cases same : c = c'
    · subst same
      refine ⟨f cell, t, ?_, (array cell).trans is, (listener cell).trans listens, ?_⟩
      · rw [World.modifyContents, Store.get?_modify_self, get, Option.map_some]
      · rwa [callbacks]
    · exact ⟨cell, t, (Store.get?_modify_of_ne f same).trans get, is, listens, m⟩

/-- The registrations after one more. -/
theorem ears_listenSplices (live : w.arrays.contains a = true) (l : SpliceListener)
    (a' : Ref .array) :
    (w.listenSplices a l).2.ears a' =
      if a' = a then w.ears a ++ [(⟨w.nextToken⟩, l)] else w.ears a' := by
  obtain ⟨cell, get⟩ := Option.isSome_iff_exists.1 live
  simp only [ears, listenSplices, freshToken, modifyArray, Store.get?_modify]
  split
  · simp only [get, Option.map_some, Option.getD_some, Listeners.add]
  · rfl

/-- An observer registers with an array. -/
theorem Menu.listenSplices (M : w.Menu r e waiting) (live : w.arrays.contains a = true)
    (l : SpliceListener) : (w.listenSplices a l).2.Menu r e waiting where
  element := M.element
  live := M.live
  watched := M.watched
  follows := M.follows
  told := M.told
  queued := M.queued
  mild := M.mild
  listens c cell t get is := by
    rw [ears_listenSplices live]
    have m := M.listens c cell t get is
    split
    next same => exact List.mem_append_left _ (same ▸ m)
    · exact m
  cached := M.cached
  issued a' x m := by
    rw [ears_listenSplices live] at m
    have later : w.nextToken ≤ (w.listenSplices a l).2.nextToken := Nat.le_succ _
    split at m
    · rcases List.mem_append.1 m with m | m
      · exact Nat.lt_of_lt_of_le (M.issued a x m) later
      · exact List.mem_singleton.1 m ▸ Nat.lt_succ_self _
    · exact Nat.lt_of_lt_of_le (M.issued a' x m) later
  distinct a' := by
    rw [ears_listenSplices live]
    split
    · rw [Entries.Distinct, Entries.keys, List.map_append, List.nodup_append]
      refine ⟨M.distinct a, List.pairwise_singleton _ _, fun t m t' m' same => ?_⟩
      obtain ⟨x, mx, rfl⟩ := List.mem_map.1 m
      have issued := M.issued a x mx
      rw [same, List.mem_singleton.1 m'] at issued
      exact Nat.lt_irrefl _ issued
    · exact M.distinct a'

theorem ears_unlistenSplices (w : World η) (a : Ref .array) (t : Token) (a' : Ref .array) :
    (w.unlistenSplices a t).ears a' =
      if a' = a then (w.ears a).filter (·.1 ≠ t) else w.ears a' := by
  simp only [ears, unlistenSplices, modifyArray, Store.get?_modify]
  split
  · cases w.arrays.get? a <;> rfl
  · rfl

/-- A registration with an array that no observer remembers ends. -/
theorem Menu.unlistenSplices (M : w.Menu r e waiting)
    (unused : ∀ c cell, w.contents.get? c = some cell → cell.array = a → cell.listener ≠ some t) :
    (w.unlistenSplices a t).Menu r e waiting where
  element := M.element
  live := M.live
  watched := M.watched
  follows := M.follows
  told := M.told
  queued := M.queued
  mild := M.mild
  listens c cell t' get is := by
    rw [ears_unlistenSplices]
    have m := M.listens c cell t' get is
    split
    next same =>
      refine List.mem_filter.2 ⟨same ▸ m, decide_eq_true fun used => ?_⟩
      exact unused c cell get same (used ▸ is)
    · exact m
  cached := M.cached
  issued a' x m := by
    rw [ears_unlistenSplices] at m
    split at m
    · exact M.issued a x (List.mem_filter.1 m).1
    · exact M.issued a' x m
  distinct a' := by
    rw [ears_unlistenSplices]
    split
    · exact List.Nodup.sublist (List.filter_sublist.map _) (M.distinct a)
    · exact M.distinct a'

/-- The select changes. -/
theorem Menu.modifySelect (M : w.Menu r e waiting) {f : SelectCell → SelectCell}
    (element : ∀ cell, (f cell).element = cell.element)
    (callbacks : ∀ cell, (f cell).callbacks = cell.callbacks)
    (follows : ∀ cell s d, w.selects.get? r = some cell → (f cell).array = some s →
      w.disposal? s = some d → ∃ c t, d = .callback (.leaf (.contents c)) t) :
    (w.modifySelect r f).Menu r e waiting := by
  have now : ∀ {cell'}, (w.modifySelect r f).selects.get? r = some cell' →
      ∃ cell, w.selects.get? r = some cell ∧ f cell = cell' := fun get => by
    rw [World.modifySelect, Store.get?_modify_self] at get
    exact Option.map_eq_some_iff.1 get
  refine { M with element := ?_, watched := ?_, follows := ?_ }
  · rw [World.modifySelect, Store.map_get?_modify _ _ _ element, M.element]
  · intro cell' s get m
    obtain ⟨cell, was, rfl⟩ := now get
    exact M.watched cell s was (callbacks cell ▸ m)
  · intro cell' s d get is
    obtain ⟨cell, was, rfl⟩ := now get
    exact follows cell s d was is

/-- A subscription with the contents of an array is made. -/
theorem Menu.withSubscription (M : w.Menu r e waiting) (c : Ref .contents) (t : Token) :
    (w.withSubscription (.callback (.leaf (.contents c)) t)).Menu r e waiting :=
  { M with
    follows := fun cell s d get is some => by
      rw [disposal?_withSubscription] at some
      split at some
      · exact ⟨c, t, (Option.some.inj some).symm⟩
      · exact M.follows cell s d get is some }

end World

end ViewBinding
