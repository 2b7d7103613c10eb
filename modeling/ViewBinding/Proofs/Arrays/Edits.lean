import ViewBinding.Proofs.Keeping

/-!
# Arrays — edits and their splices

An `Edit` is a change of the items of an array.  What it makes of the items is a matter of lists:
`Edit.edited` gives the items afterwards and `Edit.asSplice` the splice that tells about the change.
Taking the splice back gives the items from before (`Edit.undo_asSplice`).

An edit that fits does just this to the array and reports the splice to everyone who listens, the
oldest first (`Edit.run_of_fits`); one that does not fit changes nothing and tells nobody
(`Edit.run_of_not_fits`).  An edit does not fit when it puts a value at an index that is too large,
or when the range that it takes out ends past the last index there is, which breaks it off
(`edits_described`).
-/

namespace ViewBinding

/-- A change of the items of an array. -/
inductive Edit where
  | put (index : Nat) (v : Value)
  | push (v : Value)
  | splice (index count : Nat) (added : List Value)
  | replace (items : List Value)

/-- Carries out a change of an array. -/
def Edit.run {η : Type} (env : Env η) (a : Ref .array) : Edit → Run η Unit
  | put index v => Run.setItem env a index v
  | push v => Run.pushItem env a v
  | splice index count added => discard (Run.splice env a index count added)
  | replace items => Run.replaceItems env a items

/-! ### Lists -/

namespace Splice

/-- Takes a change back: what was added is taken out, and what was removed is put there. -/
def undo (splice : Splice) (items : List Value) : List Value :=
  items.take splice.index ++ splice.removed ++ items.drop (splice.index + splice.added)

/-- Takes changes back, the last one first. -/
def undoAll (splices : List Splice) (items : List Value) : List Value := splices.foldr undo items

@[simp] theorem undoAll_nil (items : List Value) : undoAll [] items = items := rfl

@[simp] theorem undoAll_append (splices splices' : List Splice) (items : List Value) :
    undoAll (splices ++ splices') items = undoAll splices (undoAll splices' items) :=
  List.foldr_append

end Splice

namespace Edit

/-- Whether an edit of so many items goes through. -/
def Fits (length : Nat) : Edit → Prop
  | put index _ => index < maxLength
  | push _ => True
  | splice index count _ => min index length + count < Number.indexBound
  | replace _ => length < Number.indexBound

instance (length : Nat) : (edit : Edit) → Decidable (edit.Fits length)
  | put index _ => inferInstanceAs (Decidable (index < maxLength))
  | push _ => inferInstanceAs (Decidable True)
  | splice index count _ => inferInstanceAs (Decidable (min index length + count < Number.indexBound))
  | replace _ => inferInstanceAs (Decidable (length < Number.indexBound))

/-- The items after an edit. -/
def edited (items : List Value) : Edit → List Value
  | put index v => (items ++ List.replicate (index + 1 - items.length) Value.undefined).set index v
  | push v => items ++ [v]
  | splice index count added =>
    let start := min index items.length
    let stop := min (start + count) items.length
    items.take start ++ added ++ items.drop stop
  | replace items => items

/-- The splice that tells about an edit. -/
def asSplice (items : List Value) : Edit → Splice
  | put index _ =>
    if index < items.length then ⟨index, items[index]?.toList, 1⟩
    else ⟨items.length, [], index + 1 - items.length⟩
  | push _ => ⟨items.length, [], 1⟩
  | splice index count added =>
    let start := min index items.length
    let stop := min (start + count) items.length
    ⟨start, items.extract start stop, added.length⟩
  | replace added => ⟨0, items, added.length⟩

/-- **Taking the splice back** gives the items from before the edit. -/
theorem undo_asSplice (items : List Value) (edit : Edit) :
    (edit.asSplice items).undo (edit.edited items) = items := by
  cases edit with
  | put index v =>
    by_cases present : index < items.length
    · have none : index + 1 - items.length = 0 := by omega
      simp only [asSplice, edited, present, if_true, Splice.undo, none, List.replicate_zero,
        List.append_nil, List.getElem?_eq_getElem present, Option.toList_some]
      rw [List.take_set_of_le (Nat.le_refl _), List.drop_set_of_lt (Nat.lt_succ_self _),
        List.append_assoc, List.singleton_append, List.getElem_cons_drop, List.take_append_drop]
    · have all : items.length + (index + 1 - items.length) = index + 1 := by omega
      simp only [asSplice, edited, present, if_false, Splice.undo, all, List.append_nil]
      rw [List.take_set_of_le (Nat.not_lt.1 present), List.take_left,
        List.drop_eq_nil_of_le (by simp; omega), List.append_nil]
  | push v => simp [asSplice, edited, Splice.undo]
  | splice index count added =>
    have start : min index items.length ≤ items.length := Nat.min_le_right _ _
    have stop : min index items.length ≤
        min (min index items.length + count) items.length := by omega
    simp only [asSplice, edited, Splice.undo]
    generalize min index items.length = i at *
    generalize min (i + count) items.length = j at *
    have taken : (items.take i).length = i := List.length_take_of_le start
    rw [List.append_assoc (items.take i), List.take_left' taken, ← List.drop_drop,
      List.drop_left' taken, List.drop_left, List.append_assoc, List.extract_eq_take_drop]
    have rest : items.drop j = (items.drop i).drop (j - i) := by
      rw [List.drop_drop, Nat.add_sub_cancel' stop]
    rw [rest, List.take_append_drop, List.take_append_drop]
  | replace added => simp [asSplice, edited, Splice.undo]

end Edit

/-! ### Runs -/

variable {η α : Type}

/-- Tells those who listen to an array about a splice, in the order of the list. -/
def Env.reportSplice (env : Env η) (splice : Splice) (listeners : List SpliceListener) :
    Run η Unit :=
  Run.forEach listeners fun
    | .contents c => Run.modify (·.collectSplice c splice)
    | .hook h => env.fire h (.spliced splice)

namespace World

/-- The world with other items in an array. -/
def withItems (w : World η) (a : Ref .array) (items : List Value) : World η :=
  w.modifyArray a fun cell => { cell with items := items.toArray }

variable {w : World η} {a : Ref .array} {cell : ArrayCell}

theorem items_eq (there : w.arrays.get? a = some cell) : w.items a = cell.items.toList := by
  simp only [items, there, Option.map_some, Option.getD_some]

theorem length_eq (there : w.arrays.get? a = some cell) : w.length a = cell.items.size := by
  simp only [length, there, Option.map_some, Option.getD_some]

theorem arrays_withItems (there : w.arrays.get? a = some cell) (items : List Value) :
    (w.withItems a items).arrays.get? a = some { cell with items := items.toArray } := by
  simp only [withItems, modifyArray, Store.get?_modify_self, there, Option.map_some]

theorem modifyArray_eq_withItems (there : w.arrays.get? a = some cell)
    {f : ArrayCell → ArrayCell} {items : List Value}
    (is : f cell = { cell with items := items.toArray }) :
    w.modifyArray a f = w.withItems a items := by
  refine congrArg (fun arrays => { w with arrays }) (Store.modify_congr fun cell' get => ?_)
  cases there.symm.trans get
  exact is

/-- **Putting a value** at an index is the edit. -/
theorem setItem_eq (there : w.arrays.get? a = some cell) (index : Nat) (v : Value) :
    w.setItem a index v = ((Edit.put index v).asSplice cell.items.toList,
      w.withItems a ((Edit.put index v).edited cell.items.toList)) := by
  simp only [setItem, there, Edit.asSplice, Edit.edited, Array.length_toList]
  split
  next present =>
    refine Prod.ext (by simp [present]) (modifyArray_eq_withItems there ?_)
    rw [show index + 1 - cell.items.size = 0 by omega, List.replicate_zero, List.append_nil,
      ← Array.toList_setIfInBounds]
  next absent =>
    refine congrArg (Prod.mk _) (modifyArray_eq_withItems there ?_)
    obtain ⟨n, rfl⟩ := Nat.exists_eq_add_of_le (Nat.not_lt.1 absent)
    rw [show cell.items.size + n - cell.items.size = n by omega,
      show cell.items.size + n + 1 - cell.items.size = n + 1 by omega, List.replicate_succ']
    simp [← List.append_assoc]

/-- **Replacing a range** is the edit. -/
theorem spliceItems_eq (there : w.arrays.get? a = some cell) (index count : Nat)
    (added : List Value) :
    w.spliceItems a index count added = ((Edit.splice index count added).asSplice cell.items.toList,
      w.withItems a ((Edit.splice index count added).edited cell.items.toList)) := by
  simp only [spliceItems, items_eq there, Edit.asSplice, Edit.edited, List.extract_eq_take_drop]
  rfl

end World

namespace Run

variable {env : Env η} {w : World η} {a : Ref .array} {cell : ArrayCell}

/-- The listeners are told. -/
theorem tellSplice_eq (there : w.arrays.get? a = some cell) (splice : Splice) :
    tellSplice env a splice w = env.reportSplice splice cell.listeners.toList w := by
  rw [tellSplice, bind_read, there]
  rfl

/-- A change that leaves the listeners alone is made, and reported to all of them. -/
theorem changeArray_eq (there : w.arrays.get? a = some cell) {change : World η → Splice × World η}
    {splice : Splice} {items : List Value} (changes : change w = (splice, w.withItems a items)) :
    changeArray env a change w =
      (env.reportSplice splice cell.listeners.toList >>= fun _ => Pure.pure splice)
        (w.withItems a items) := by
  change (tellSplice env a (change w).1 >>= fun _ => Pure.pure (change w).1) (change w).2 = _
  rw [changes]
  exact bind_congr (tellSplice_eq (World.arrays_withItems there items) splice) _

/-- Dropping a result that is known leaves nothing but the computation. -/
theorem discard_bind_pure (x : Run η Unit) {β : Type} (b : β) :
    (discard (x >>= fun _ => Pure.pure b) : Run η PUnit) = x := by
  funext w
  change Run.bind (Run.bind x fun _ => Run.pure b) (fun _ => Run.pure PUnit.unit) w = x w
  unfold Run.bind
  rcases x w with ⟨⟨⟩ | _ | _ | _, w'⟩ <;> rfl

theorem setItem_of_fits (there : w.arrays.get? a = some cell) {index : Nat} {v : Value}
    (fits : index < maxLength) :
    setItem env a index v w =
      env.reportSplice ((Edit.put index v).asSplice cell.items.toList) cell.listeners.toList
        (w.withItems a ((Edit.put index v).edited cell.items.toList)) := by
  rw [setItem, if_neg (Nat.not_le.2 fits)]
  refine (bind_congr (changeArray_eq there (World.setItem_eq there index v)) _).trans ?_
  exact congrFun (discard_bind_pure _ _) _

theorem pushItem_eq (there : w.arrays.get? a = some cell) (v : Value) :
    pushItem env a v w =
      env.reportSplice ((Edit.push v).asSplice cell.items.toList) cell.listeners.toList
        (w.withItems a ((Edit.push v).edited cell.items.toList)) := by
  have changes : w.pushItem a v = ((Edit.push v).asSplice cell.items.toList,
      w.withItems a ((Edit.push v).edited cell.items.toList)) := by
    rw [World.pushItem, World.length_eq there]
    exact congrArg (Prod.mk _) (World.modifyArray_eq_withItems there (by
      rw [Edit.edited, ← Array.toList_push]))
  refine (bind_congr (changeArray_eq there changes) _).trans ?_
  exact congrFun (discard_bind_pure _ _) _

theorem splice_of_fits (there : w.arrays.get? a = some cell) {index count : Nat}
    {added : List Value} (fits : (Edit.splice index count added).Fits cell.items.size) :
    splice env a index count added w =
      (env.reportSplice ((Edit.splice index count added).asSplice cell.items.toList)
          cell.listeners.toList >>= fun _ =>
        Pure.pure ((Edit.splice index count added).asSplice cell.items.toList).removed)
        (w.withItems a ((Edit.splice index count added).edited cell.items.toList)) := by
  rw [splice, bind_read, World.length_eq there, if_neg (Nat.not_le.2 fits)]
  have changes := World.spliceItems_eq there index count added
  refine (bind_congr (changeArray_eq there changes) _).trans ?_
  change Run.bind (Run.bind _ _) _ _ = Run.bind _ _ _
  unfold Run.bind
  rcases env.reportSplice _ _ _ with ⟨⟨⟩ | _ | _ | _, w'⟩ <;> rfl

theorem splice_of_not_fits (there : w.arrays.get? a = some cell) {index count : Nat}
    {added : List Value} (misfit : ¬ (Edit.splice index count added).Fits cell.items.size) :
    splice env a index count added w = (.overflow, w) := by
  rw [splice, bind_read, World.length_eq there, if_pos (Nat.not_lt.1 misfit)]
  rfl

/-- Dropping a result changes nothing else. -/
theorem world_discard (x : Run η α) (w : World η) : ((discard x : Run η PUnit) w).2 = (x w).2 := by
  change (Run.bind x (fun _ => Run.pure PUnit.unit) w).2 = _
  unfold Run.bind
  rcases x w with ⟨_ | _ | _ | _, w'⟩ <;> rfl

/-- What breaks off has no result to drop. -/
theorem discard_of_overflow {x : Run η α} {w : World η} (h : x w = (.overflow, w)) :
    (discard x : Run η PUnit) w = (.overflow, w) := by
  change Run.bind x (fun _ => Run.pure PUnit.unit) w = _
  unfold Run.bind
  rw [h]

/-- Replacing all items is replacing the range that they are. -/
theorem splice_all (items : List Value) (added : List Value) :
    (Edit.splice 0 items.length added).asSplice items = (Edit.replace added).asSplice items ∧
      (Edit.splice 0 items.length added).edited items = (Edit.replace added).edited items := by
  simp [Edit.asSplice, Edit.edited]

end Run

namespace Edit

variable {env : Env η} {w : World η} {a : Ref .array} {cell : ArrayCell} {edit : Edit}

/-- **An edit that fits** is made and reported to everyone who listens. -/
theorem run_of_fits (there : w.arrays.get? a = some cell) (fits : edit.Fits cell.items.size) :
    edit.run env a w = env.reportSplice (edit.asSplice cell.items.toList) cell.listeners.toList
      (w.withItems a (edit.edited cell.items.toList)) := by
  cases edit with
  | put index v => exact Run.setItem_of_fits there fits
  | push v => exact Run.pushItem_eq there v
  | splice index count added =>
    refine (Run.bind_congr (Run.splice_of_fits there fits) _).trans ?_
    exact congrFun (Run.discard_bind_pure _ _) _
  | replace added =>
    have fits' : (Edit.splice 0 cell.items.size added).Fits cell.items.size := by
      simpa [Fits] using fits
    obtain ⟨same, same'⟩ := Run.splice_all cell.items.toList added
    rw [Array.length_toList] at same same'
    rw [run, Run.replaceItems, Run.bind_read, World.length_eq there, ← same, ← same']
    refine (Run.bind_congr (Run.splice_of_fits there fits') _).trans ?_
    exact congrFun (Run.discard_bind_pure _ _) _

/-- How an edit ends that does not fit. -/
def misfit : Edit → Outcome Unit
  | put .. => .error .invalidArrayLength
  | _ => .overflow

/-- **An edit that does not fit** changes nothing and is reported to nobody. -/
theorem run_of_not_fits (there : w.arrays.get? a = some cell)
    (misfits : ¬ edit.Fits cell.items.size) : edit.run env a w = (edit.misfit, w) := by
  cases edit with
  | put index v =>
    rw [run, Run.setItem, if_pos (Nat.not_lt.1 misfits)]
    rfl
  | push v => exact (misfits trivial).elim
  | splice index count added =>
    exact Run.discard_of_overflow (Run.splice_of_not_fits there misfits)
  | replace added =>
    have misfits' : ¬ (Edit.splice 0 cell.items.size added).Fits cell.items.size := by
      simpa [Fits] using misfits
    rw [run, Run.replaceItems, Run.bind_read, World.length_eq there]
    exact Run.discard_of_overflow (Run.splice_of_not_fits there misfits')

end Edit

/-! ### What everyone is told -/

/-- Hooks that are told of a splice come back. -/
def Env.Listens (env : Env η) : Prop :=
  ∀ h splice w, ∃ w', env.fire h (.spliced splice) w = (.ok (), w')

/-- Hooks that are told of a splice leave the items of an array alone. -/
def Env.Spares (env : Env η) (a : Ref .array) : Prop :=
  ∀ h splice w, (env.fire h (.spliced splice) w).2.items a = w.items a

section

variable {env : Env η} {w : World η} {a : Ref .array}

theorem World.items_collectSplice (w : World η) (a : Ref .array) (c : Ref .contents)
    (splice : Splice) : (w.collectSplice c splice).items a = w.items a := by
  unfold World.collectSplice
  split
  · rfl
  · dsimp only
    split <;> rfl

/-- Everyone is told. -/
theorem Env.Listens.reports (listens : env.Listens) (splice : Splice)
    (listeners : List SpliceListener) (w : World η) :
    ∃ w', env.reportSplice splice listeners w = (.ok (), w') := by
  have told : (env.reportSplice splice listeners).Ends False w fun _ _ => True := by
    refine Run.ends_forEach (fun _ _ => True) trivial fun listener _ w₁ _ => ?_
    cases listener with
    | contents c => trivial
    | hook h =>
      obtain ⟨w₂, fired⟩ := listens h splice w₁
      exact (Run.ends_of_eq_ok fired).2 trivial
  obtain ⟨⟨⟩, w', ran, -⟩ := told.exists_eq_ok
  exact ⟨w', ran⟩

/-- The items stay, however far the report comes. -/
theorem Env.Spares.reports (spares : env.Spares a) (splice : Splice)
    (listeners : List SpliceListener) (w : World η) :
    (env.reportSplice splice listeners w).2.items a = w.items a := by
  refine Run.keeps_forEach (I := fun w' => w'.items a = w.items a) (fun listener _ => ?_) w rfl
  cases listener with
  | contents c => exact fun w₁ so => (w₁.items_collectSplice a c splice).trans so
  | hook h => exact fun w₁ so => (spares h splice w₁).trans so

/-- What a change made of the items stays, however far the report comes. -/
theorem Env.Spares.changes (spares : env.Spares a) (change : World η → Splice × World η)
    (w : World η) : (Run.changeArray env a change w).2.items a = (change w).2.items a := by
  have told : (Run.tellSplice env a (change w).1).Keeps
      fun w' => w'.items a = (change w).2.items a :=
    (Run.keeps_read _).bind fun listeners w₁ so => (spares.reports _ listeners w₁).trans so
  exact told.bind (fun _ => Run.keeps_pure (change w).1) (change w).2 rfl

end

variable {env : Env η} {w : World η} {a : Ref .array} {cell : ArrayCell}

/-- **What the changes of an array do.**  Replacing a range takes out what is between its ends, both
cut off at the end of the array, puts the new items there and tells everyone about just that, unless
the range ends past the last index there is: that breaks it off.  Putting a value at an index that
is too large fails, and then nothing has happened.  Every other change makes of the items what it
should, and tells everyone about a splice that gives the items from before when it is taken back;
the new items stay if those who are told leave them alone. -/
theorem edits_described (there : w.arrays.get? a = some cell)
    (short : cell.items.size < Number.indexBound) (listens : env.Listens) :
    let xs := cell.items.toList
    (∀ index count added,
      let start := min index xs.length
      let stop := min (start + count) xs.length
      (start + count < Number.indexBound → ∃ w',
        Run.splice env a index count added w = (.ok (xs.extract start stop), w') ∧
        env.reportSplice ⟨start, xs.extract start stop, added.length⟩ cell.listeners.toList
          (w.withItems a (xs.take start ++ added ++ xs.drop stop)) = (.ok (), w')) ∧
      (Number.indexBound ≤ start + count →
        Run.splice env a index count added w = (.overflow, w))) ∧
    (∀ index v, maxLength ≤ index →
      Run.setItem env a index v w = (.error .invalidArrayLength, w)) ∧
    Run.clearItems env a = (Edit.replace []).run env a ∧
    ∀ edit : Edit, (match edit with
        | .put index _ => index < maxLength
        | .splice index count _ => min index xs.length + count < Number.indexBound
        | .push _ | .replace _ => True) →
      (edit.asSplice xs).undo (edit.edited xs) = xs ∧
      ∃ w', edit.run env a w = (.ok (), w') ∧
        env.reportSplice (edit.asSplice xs) cell.listeners.toList
          (w.withItems a (edit.edited xs)) = (.ok (), w') ∧
        (env.Spares a → w'.items a = edit.edited xs) := by
  refine ⟨fun index count added => ⟨fun fits => ?_, fun misfits => ?_⟩, fun index v large => ?_,
    rfl, fun edit fits => ⟨edit.undo_asSplice _, ?_⟩⟩
  · obtain ⟨w', told⟩ := listens.reports ((Edit.splice index count added).asSplice _)
      cell.listeners.toList (w.withItems a ((Edit.splice index count added).edited _))
    refine ⟨w', (Run.splice_of_fits there fits).trans ?_, told⟩
    exact Run.bind_eq_ok.2 ⟨(), w', told, rfl⟩
  · exact Run.splice_of_not_fits there (Nat.not_lt.2 misfits)
  · exact (Edit.run_of_not_fits there (Nat.not_lt.2 large) : (Edit.put index v).run env a w = _)
  · have fits' : edit.Fits cell.items.size := by
      cases edit with
      | push v => trivial
      | replace added => exact short
      | _ => exact fits
    obtain ⟨w', told⟩ := listens.reports (edit.asSplice _) cell.listeners.toList
      (w.withItems a (edit.edited _))
    refine ⟨w', (Edit.run_of_fits there fits').trans told, told, fun spares => ?_⟩
    have kept := spares.reports (edit.asSplice cell.items.toList) cell.listeners.toList
      (w.withItems a (edit.edited cell.items.toList))
    rw [told] at kept
    exact kept.trans (World.items_eq (World.arrays_withItems there _))

/-! ### A shelf -/

namespace Shelf

/-- Hooks note the splices that they are told. -/
def scribe : Env (List Splice) where
  rounds := 0
  call _ _ _ := Run.cutOff
  convert _ _ v _ := Pure.pure (some v)
  fire _
    | .spliced splice => Run.modify fun w => { w with host := w.host ++ [splice] }
    | _ => Pure.pure ()
  announce _ _ _ := Pure.pure ()
  subscribe _ _ := Run.cutOff
  late := Pure.pure false

/-- Three books, and a hook that listens. -/
def books : World (List Splice) :=
  let (a, w) := (World.new .standard []).newArray [.string "a", .string "b", .string "c"]
  (w.listenSplices a (.hook ⟨0⟩)).2

theorem books_there : books.arrays.get? ⟨0⟩ = some
    ⟨#[.string "a", .string "b", .string "c"], ⟨[(⟨0⟩, .hook ⟨0⟩)]⟩⟩ := rfl

theorem listens_scribe : scribe.Listens := fun _ _ _ => ⟨_, rfl⟩

theorem spares_scribe (a : Ref .array) : scribe.Spares a := fun _ _ _ => rfl

/-- From the second on, everything is taken out and a book is put there. -/
theorem books_described : ∃ cell w', books.arrays.get? ⟨0⟩ = some cell ∧
    cell.items.size < Number.indexBound ∧ scribe.Listens ∧
    (Edit.splice 1 7 [.string "x"]).run scribe ⟨0⟩ books = (.ok (), w') ∧
    w'.items ⟨0⟩ = [.string "a", .string "x"] := by
  have short : 3 < Number.indexBound := by decide +kernel
  obtain ⟨-, -, -, described⟩ := edits_described books_there short listens_scribe
  obtain ⟨-, w', ran, -, items⟩ := described (.splice 1 7 [.string "x"]) (by decide +kernel)
  exact ⟨_, w', books_there, short, listens_scribe, ran, items (spares_scribe ⟨0⟩)⟩

/-- **A count that is too large breaks off.**  From the second book on the shelf has two, so taking
out as many as there are indices should take out these two; instead nothing comes of it. -/
theorem count_breaks_off : min (1 + (Number.indexBound - 1)) (books.length ⟨0⟩) = 3 ∧
    Run.splice scribe ⟨0⟩ 1 (Number.indexBound - 1) [.string "x"] books = (.overflow, books) :=
  ⟨by decide +kernel, Run.splice_of_not_fits books_there (by decide +kernel)⟩

end Shelf

end ViewBinding
