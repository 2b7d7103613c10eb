import ViewBinding.Proofs.Select.Audience

/-!
# Select — taking another value

A select that is assigned a value ends its subscription with the array it had, and subscribes to the
contents of the new value if this is an array, so that it hears of it (`writeSelect_spec`).  Rebuilding
the value from the selected options makes a new array too, but nobody listens to that one
(`synchronizeValue_spec`).
-/

namespace ViewBinding

namespace World

variable {η : Type} {w w' w'' : World η} {r : Ref .select} {e : Ref .element} {a : Ref .array}
  {c : Ref .contents} {t : Token} {waiting : List Microtask}

/-- `w'` has other registrations than `w`, but the same selects and the same tasks. -/
structure Rewires (w w' : World η) : Prop where
  selects : w'.selects = w.selects
  tasks : w'.tasks = w.tasks
  arrays : ∀ a, w'.arrays.contains a = w.arrays.contains a

theorem Rewires.refl (w : World η) : w.Rewires w := ⟨rfl, rfl, fun _ => rfl⟩

theorem Rewires.trans (h : w.Rewires w') (h' : w'.Rewires w'') : w.Rewires w'' :=
  ⟨h'.selects.trans h.selects, h'.tasks.trans h.tasks, fun a => (h'.arrays a).trans (h.arrays a)⟩

/-! ### Leaving an array -/

/-- A registration with the contents of an array ends, and with the last one the registration with
the array. -/
theorem Menu.undoCallback (M : w.Menu r e waiting) (t : Token) (c : Ref .contents) :
    ∃ w', w.undoCallback t (.leaf (.contents c)) = ([], w') ∧ w'.Menu r e waiting ∧
      w.Rewires w' := by
  cases get : w.contents.get? c with
  | none => exact ⟨w, by simp only [World.undoCallback, get], M, .refl w⟩
  | some cell =>
    -- those who remain were told before
    have told : ∀ cell' s, w.contents.get? c = some cell' →
        s ∈ (cell.callbacks.remove t).toList → s = .options r ∨ ∃ h, s = .hook h := by
      intro _ s _ m
      obtain ⟨x, mx, rfl⟩ := List.mem_map.1 m
      exact M.told c cell x.2 get (List.mem_map_of_mem (List.mem_filter.1 mx).1)
    have queued : ∀ cell', w.contents.get? c = some cell' → cell'.queued = true →
        .contents c ∈ waiting := fun cell' get' => M.queued c cell' get'
    have leaves := M.modifyContents (c := c)
      (f := fun cell' => { cell' with callbacks := cell.callbacks.remove t, listener := none })
      (fun _ => rfl) told (fun _ _ _ is => by cases is) queued (fun _ _ => id) M.mild
    have stays := M.modifyContents (c := c)
      (f := fun cell' => { cell' with callbacks := cell.callbacks.remove t })
      (fun _ => rfl) told (fun cell' t' get' => M.listens c cell' t' get') queued (fun _ _ => id)
      M.mild
    simp only [World.undoCallback, get]
    split
    · split
      next l listener =>
        refine ⟨_, rfl, leaves.unlistenSplices fun c' cell' get' array is => ?_,
          ⟨rfl, rfl, fun a' => Store.contains_modify w.arrays cell.array a' _⟩⟩
        by_cases same : c' = c
        · subst same
          rw [World.modifyContents, Store.get?_modify_self, get] at get'
          cases get'
          cases is
        · -- two observers do not share a registration
          have was : w.contents.get? c' = some cell' :=
            (Store.get?_modify_of_ne _ same).symm.trans get'
          have m := M.listens c' cell' l was is
          rw [array] at m
          have shared := (M.distinct cell.array).eq_of_mem m (M.listens c cell l get listener)
          exact same (SpliceListener.contents.inj shared)
      · exact ⟨_, rfl, leaves, rfl, rfl, fun _ => rfl⟩
    · exact ⟨_, rfl, stays, rfl, rfl, fun _ => rfl⟩

/-- The select disposes the subscription that it held. -/
theorem Menu.disposeOption (M : w.Menu r e waiting) {held : Option (Ref .subscription)}
    (is : ∀ s d, held = some s → w.disposal? s = some d →
      ∃ c t, d = .callback (.leaf (.contents c)) t) :
    (w.disposeOption held).Menu r e waiting ∧ w.Rewires (w.disposeOption held) := by
  cases held with
  | none => exact ⟨M, .refl w⟩
  | some s =>
    change (w.dispose s).Menu r e waiting ∧ w.Rewires (w.dispose s)
    unfold dispose
    cases disposal : w.disposal? s with
    | none =>
      rw [disposeWithin_of_none _ disposal]
      exact ⟨M, .refl w⟩
    | some d =>
      obtain ⟨c, t, rfl⟩ := is s d rfl disposal
      have size := index_lt_size_of_disposal? disposal
      obtain ⟨n, size⟩ : ∃ n, w.subscriptions.size = n + 1 := ⟨w.subscriptions.size - 1, by omega⟩
      -- the subscription is marked as disposed
      have marked : (w.modifySubscription s fun _ => ⟨none⟩).Menu r e waiting :=
        { M with
          follows := fun cell s' d get array some => by
            rw [disposal?_modifySubscription] at some
            split at some
            · cases some
            · exact M.follows cell s' d get array some }
      obtain ⟨w', undone, M', rewires⟩ := marked.undoCallback t c
      simp only [size, disposeWithin, disposal, World.undo, undone, List.foldl_nil]
      exact ⟨M', rewires.selects, rewires.tasks, rewires.arrays⟩

/-! ### Hearing of an array -/

/-- Pruning the caches drops entries. -/
theorem exists_afterCreation (w : World η) : ∃ locator, w.afterCreation = { w with locator } ∧
    ∀ p ∈ locator.contents, p ∈ w.locator.contents := by
  unfold afterCreation
  split
  · exact ⟨w.locator, rfl, fun _ => id⟩
  · exact ⟨_, rfl, fun _ m => (List.mem_filter.1 m).1⟩

/-- An observer of the contents of an array is made. -/
theorem Menu.newContents (M : w.Menu r e waiting) (a : Ref .array) :
    (w.newContents a).2.Menu r e waiting := by
  -- the new observer has no subscribers and listens to nothing
  have now : ∀ {c cell}, (w.newContents a).2.contents.get? c = some cell →
      cell = { array := a } ∨ w.contents.get? c = some cell := fun {c cell} get => by
    change (w.contents.alloc _).get? c = _ at get
    rw [Store.get?_alloc] at get
    split at get
    · exact .inl (Option.some.inj get).symm
    · exact .inr get
  refine { M with told := ?_, queued := ?_, listens := ?_, cached := ?_ }
  · intro c cell s get m
    obtain rfl | was := now get
    · cases m
    · exact M.told c cell s was m
  · intro c cell get is
    obtain rfl | was := now get
    · cases is
    · exact M.queued c cell was is
  · intro c cell t get is
    obtain rfl | was := now get
    · cases is
    · exact M.listens c cell t was is
  · intro p m
    obtain ⟨cell, was, is⟩ := M.cached p m
    exact ⟨cell, (Store.get?_alloc_of_ne _ (Store.ne_next_of_get? was)).trans was, is⟩

/-- The observer of the contents of an array, which is made at the first request. -/
theorem Menu.contentsObserver (M : w.Menu r e waiting) (a : Ref .array) :
    ∃ c w' cell, w.contentsObserver a = (c, w') ∧ w'.Menu r e waiting ∧ w.Rewires w' ∧
      w'.contents.get? c = some cell ∧ cell.array = a := by
  unfold World.contentsObserver
  split
  next c known =>
    obtain ⟨cell, get, is⟩ := M.cached _ (Entries.mem_of_get? known)
    exact ⟨c, w, cell, rfl, M, .refl w, get, is⟩
  · obtain ⟨locator, pruned, kept⟩ := exists_afterCreation { (w.newContents a).2 with
      locator := { w.locator with
        contents := Entries.put a (w.newContents a).1 w.locator.contents } }
    have get : (w.newContents a).2.contents.get? (w.newContents a).1 = some { array := a } :=
      Store.get?_alloc_next _ _
    refine ⟨(w.newContents a).1, { (w.newContents a).2 with locator }, { array := a },
      congrArg (Prod.mk _) pruned, { M.newContents a with cached := fun p m => ?_ },
      ⟨rfl, rfl, fun _ => rfl⟩, get, rfl⟩
    obtain rfl | m := Entries.mem_put (kept p m)
    · exact ⟨_, get, rfl⟩
    · exact (M.newContents a).cached p m

/-- The first registration with an observer of contents makes it listen to its array. -/
theorem Menu.startListening {cell : ContentsCell} (M : w.Menu r e waiting)
    (get : w.contents.get? c = some cell) (live : w.arrays.contains cell.array = true) :
    (w.startListening c).Menu r e waiting ∧ w.Rewires (w.startListening c) ∧
      ∃ t, (w.startListening c).contents.get? c = some { cell with listener := some t } := by
  unfold World.startListening
  simp only [get, live, Bool.not_true, Bool.or_false]
  cases listener : cell.listener with
  | some t =>
    refine ⟨M, .refl w, t, get.trans (congrArg some ?_)⟩
    rw [← listener]
  | none =>
    have listens := M.listenSplices live (.contents c)
    refine ⟨listens.modifyContents (fun _ => rfl) (fun cell' s get' => M.told c cell' s get') ?_
      (fun cell' get' => M.queued c cell' get') (fun _ _ => id) M.mild, ⟨rfl, rfl, fun a' =>
        Store.contains_modify w.arrays cell.array a' _⟩, ⟨w.nextToken⟩, ?_⟩
    · intro cell' t get' is
      obtain rfl : cell' = cell := Option.some.inj (get'.symm.trans get)
      obtain rfl := Option.some.inj is
      rw [ears_listenSplices live, if_pos rfl]
      exact List.mem_append_right _ (List.mem_singleton.2 rfl)
    · change (w.contents.modify c _).get? c = _
      rw [Store.get?_modify_self, get]
      rfl

/-- The select subscribes to the contents of an array. -/
theorem Menu.subscribeContents {cell : ContentsCell} (M : w.Menu r e waiting)
    (get : w.contents.get? c = some cell) (live : w.arrays.contains cell.array = true) :
    ∃ s w' t cell', w.subscribeContents c (.options r) = (s, w') ∧ w'.Menu r e waiting ∧
      w.Rewires w' ∧ w'.disposal? s = some (.callback (.leaf (.contents c)) t) ∧
      w'.contents.get? c = some cell' ∧ cell'.array = cell.array ∧ cell'.listener.isSome = true ∧
      .options r ∈ cell'.callbacks.toList := by
  -- the select is among the subscribers
  have drawn : w.freshToken.2.Menu r e waiting :=
    M.beside ⟨fun _ => rfl, rfl, rfl, rfl, rfl, Nat.le_succ _, fun _ => id⟩
  have added := drawn.modifyContents (c := c)
    (f := fun cell => { cell with callbacks := cell.callbacks.add ⟨w.nextToken⟩ (.options r) })
    (fun _ => rfl) (fun cell' s get' m => by
      rw [Listeners.toList_add, List.mem_append, List.mem_singleton] at m
      exact m.elim (M.told c cell' s get') .inl)
    (fun cell' t get' => M.listens c cell' t get') (fun cell' get' => M.queued c cell' get')
    (fun _ _ => id) M.mild
  have get' : (w.freshToken.2.modifyContents c fun cell =>
      { cell with callbacks := cell.callbacks.add ⟨w.nextToken⟩ (.options r) }).contents.get? c =
        some { cell with callbacks := cell.callbacks.add ⟨w.nextToken⟩ (.options r) } := by
    change (w.contents.modify c _).get? c = _
    rw [Store.get?_modify_self, get, Option.map_some]
  -- it hears of the array
  obtain ⟨M', rewires, t, get''⟩ := added.startListening get' live
  refine ⟨_, _, ⟨w.nextToken⟩, _, rfl, M'.withSubscription c ⟨w.nextToken⟩,
    ⟨rewires.selects, rewires.tasks, rewires.arrays⟩, ?_, get'', rfl, rfl, ?_⟩
  · exact (disposal?_withSubscription _ _ _).trans (if_pos rfl)
  · rw [Listeners.toList_add]
    exact List.mem_append_right _ (List.mem_singleton.2 rfl)

/-- What a select holds and hears when it follows a value: nothing, unless that is an array. -/
theorem Menu.followArray (M : w.Menu r e waiting) {v : Value}
    (live : ∀ a, v = .array a → w.arrays.contains a = true) :
    ∃ held w', w.followArray r v = (held, w') ∧ w'.Menu r e waiting ∧ w.Rewires w' ∧
      (∀ s d, held = some s → w'.disposal? s = some d →
        ∃ c t, d = .callback (.leaf (.contents c)) t) ∧
      ∀ a, v = .array a → ∃ c cell, w'.contents.get? c = some cell ∧ cell.array = a ∧
        cell.listener.isSome = true ∧ .options r ∈ cell.callbacks.toList := by
  cases v with
  | array a =>
    obtain ⟨c, w₁, cell, made, M₁, rewires₁, get, rfl⟩ := M.contentsObserver a
    obtain ⟨s, w₂, t, cell', subscribed, M₂, rewires₂, disposal, get', array, listens, told⟩ :=
      M₁.subscribeContents get ((rewires₁.arrays _).trans (live _ rfl))
    refine ⟨some s, w₂, by simp only [World.followArray, made, subscribed], M₂,
      rewires₁.trans rewires₂, ?_, ?_⟩
    · intro _ d same is
      obtain rfl := Option.some.inj same
      exact ⟨c, t, Option.some.inj (is.symm.trans disposal)⟩
    · rintro a same
      exact ⟨c, cell', get', array.trans (Value.array.inj same), listens, told⟩
  | _ => exact ⟨none, w, rfl, M, .refl w, fun _ _ is => (by cases is), fun _ is => (by cases is)⟩

/-! ### Another value -/

/-- The world in which a select takes another value. -/
def choose (w : World η) (r : Ref .select) (held : Option (Ref .subscription)) (v : Value) :
    World η :=
  let left := (w.modifySelect r fun cell => { cell with array := none }).disposeOption held
  let (array, followed) := left.followArray r v
  (followed.modifySelect r fun cell => { cell with array, value := v }).synchronizeOptions r

/-- Assigning fails, or the select has that value already, or it takes another value. -/
theorem writeSelect_cases {cell : SelectCell} {v : Value} (get : w.selects.get? r = some cell)
    (live : w.elements.contains cell.element = true)
    (assigned : Run.writeSelect r v w = (.ok (), w')) :
    cell.value.same v = true ∧ w' = w ∨ cell.value.same v = false ∧ w' = w.choose r cell.array v := by
  simp only [Run.writeSelect, bind, Run.bind, Run.read, get, live, Bool.not_true,
    Bool.false_eq_true, if_false] at assigned
  obtain ⟨-, failed⟩ | ⟨-, assigned⟩ := Run.ite_cases assigned
  · cases failed
  · obtain ⟨same, kept⟩ | ⟨other, chosen⟩ := Run.ite_cases assigned
    · exact .inl ⟨same, (Prod.mk.inj kept).2.symm⟩
    · exact .inr ⟨Bool.eq_false_iff.2 other, (Prod.mk.inj chosen).2.symm⟩

/-- Taking another value keeps the registrations in order, and an array is heard of. -/
theorem Menu.choose {held : Option (Ref .subscription)} {v : Value} (M : w.Menu r e waiting)
    (is : ∀ s d, held = some s → w.disposal? s = some d →
      ∃ c t, d = .callback (.leaf (.contents c)) t)
    (live : ∀ a, v = .array a → w.arrays.contains a = true) :
    (w.choose r held v).Menu r e waiting ∧ (w.choose r held v).tasks = w.tasks ∧
      ∀ a, v = .array a → ∃ c, (w.choose r held v).Heeds r a c := by
  have emptied : (w.modifySelect r fun cell => { cell with array := none }).Menu r e waiting :=
    M.modifySelect (fun _ => rfl) (fun _ => rfl) fun _ _ _ _ none => by cases none
  obtain ⟨left, leaves⟩ := emptied.disposeOption is
  obtain ⟨array, w₁, followed, M₁, follows, holds, hears⟩ :=
    left.followArray (v := v) fun a same => (leaves.arrays a).trans (live a same)
  have chosen := M₁.modifySelect (f := fun cell => { cell with array, value := v })
    (fun _ => rfl) (fun _ => rfl) fun cell s d _ => holds s d
  -- the options are selected anew
  have marks := marks_synchronizeOptions
    (w₁.modifySelect r fun cell => { cell with array, value := v }) r
  simp only [World.choose, followed]
  refine ⟨chosen.beside marks.beside, marks.tasks.trans (follows.tasks.trans leaves.tasks),
    fun a same => ?_⟩
  · obtain ⟨c, cell, get, array', listens, told⟩ := hears a same
    obtain ⟨t, listener⟩ := Option.isSome_iff_exists.1 listens
    obtain ⟨select, get', -⟩ := Option.map_eq_some_iff.1 M₁.element
    have value : ((w₁.modifySelect r fun cell => { cell with array, value := v }).selects.get? r).map
        (·.value) = some (.array a) := by
      rw [World.modifySelect, Store.get?_modify_self, get']
      exact congrArg some same
    exact ⟨c, Heeds.beside ⟨value, cell, t, get, array', listener, told⟩ marks.beside⟩

/-- **Assigning** keeps the registrations in order.  A select that is assigned another value than it
has, and that an array, hears of the array. -/
theorem Menu.writeSelect {v : Value} (M : w.Menu r e waiting)
    (live : ∀ a, v = .array a → w.arrays.contains a = true)
    (assigned : Run.writeSelect r v w = (.ok (), w')) :
    w'.Menu r e waiting ∧ w'.tasks = w.tasks ∧
      ∀ old, (w.selects.get? r).map (·.value) = some old →
        (old.same v = true → w' = w) ∧
        (old.same v = false → ∀ a, v = .array a → ∃ c, w'.Heeds r a c) := by
  obtain ⟨cell, get, rfl⟩ := Option.map_eq_some_iff.1 M.element
  have value : (w.selects.get? r).map (·.value) = some cell.value := by rw [get, Option.map_some]
  obtain ⟨same, rfl⟩ | ⟨other, rfl⟩ := writeSelect_cases get M.live assigned
  · refine ⟨M, rfl, fun old is => ?_⟩
    obtain rfl := Option.some.inj (value.symm.trans is)
    exact ⟨fun _ => rfl, fun other => absurd (same.symm.trans other) Bool.noConfusion⟩
  · obtain ⟨M', tasks, heeds⟩ := M.choose (M.follows cell · · get) live
    refine ⟨M', tasks, fun old is => ?_⟩
    obtain rfl := Option.some.inj (value.symm.trans is)
    exact ⟨fun same => absurd (other.symm.trans same) Bool.noConfusion, fun _ => heeds⟩

end World

end ViewBinding
