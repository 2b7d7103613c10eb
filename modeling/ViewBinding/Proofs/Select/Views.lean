import ViewBinding.Proofs.Leaf.Slots
import ViewBinding.Proofs.Sameness
import ViewBinding.Proofs.Select.Runs

/-!
# Select — a value and the options it selects

A select turns its value into marks of its options, and the marks of its options into a value.  If the
options can be told apart by their values (`Distinguished`), then each of the two undoes the other
(`value_and_options_agree`): what is selected stays selected when the value is rebuilt and the options
are synchronized with it, and a value that is assigned comes back when it is rebuilt.

This takes for granted that those who are told about the rebuilt value leave the select and its options
alone (`ToldSafely`).  And it leaves out what is not meant to come back.  An array selects the options whose
values it contains, also where only one may be selected, so that an option whose value is an array is
not selected by it (`listed_option_deselected`).  Assigning the value that a select has does nothing,
even if its options were picked since (`null_unnoticed`).
-/

namespace ViewBinding

/-- What an element is to a select: its tag, its children and its properties. -/
def ElementCell.face (cell : ElementCell) :
    String × List (Ref .element) × List (String × Value) :=
  (cell.tag, cell.children, cell.properties)

namespace World

variable {η : Type} {w w' w'' : World η} {r : Ref .select} {e o o' : Ref .element}
  {a : Ref .array} {v : Value} {cell : SelectCell} {env : Env η}

/-- An option is selected. -/
def isPicked (w : World η) (o : Ref .element) : Bool := (w.elementGet o "selected").isTruthy

/-- The options of an element can be told apart by their values: each value is strictly equal to itself
and to that of no other option, and where only one option may be selected, none stands for nothing. -/
structure Distinguished (w : World η) (e : Ref .element) : Prop where
  apart : (w.options e).Pairwise fun o o' => (w.optionValue o).same (w.optionValue o') = false
  comparable : ∀ o ∈ w.options e, ¬ (w.optionValue o).IsNaN
  present : w.isMultiple e = false → ∀ o ∈ w.options e, (w.optionValue o).isNullish = false

/-- A value stands for a selection: nothing, or an array of option values where several options may be
selected, or else an option value that is no array. -/
inductive StandsFor (w : World η) (e : Ref .element) : Value → Prop
  | nothing : StandsFor w e .null
  | several {a : Ref .array} (multiple : w.isMultiple e = true)
      (offered : ∀ v ∈ w.items a, ∃ o ∈ w.options e, v.same (w.optionValue o) = true) :
      StandsFor w e (.array a)
  | one {o : Ref .element} (single : w.isMultiple e = false) (m : o ∈ w.options e)
      (scalar : ∀ a, w.optionValue o ≠ .array a) : StandsFor w e (w.optionValue o)

/-- What is selected can be told by a value: any options where several may be selected, or else at most
one, and that not by an array. -/
def Tellable (w : World η) (e : Ref .element) : Prop :=
  w.isMultiple e = false → (w.selectedOptions e).length ≤ 1 ∧
    ∀ o ∈ w.selectedOptions e, ∀ a, w.optionValue o ≠ .array a

/-- `w'` has the value of the select `r`, and the options of the element `e` with their values. -/
structure Untouched (w w' : World η) (r : Ref .select) (e : Ref .element) : Prop where
  select : (w'.selects.get? r).map (fun cell => (cell.element, cell.value)) =
    (w.selects.get? r).map fun cell => (cell.element, cell.value)
  options : w'.options e = w.options e
  optionValue : ∀ o ∈ w.options e, w'.optionValue o = w.optionValue o
  items : ∀ a, (w.selects.get? r).map (·.value) = some (.array a) → w'.items a = w.items a

/-- Those who are told about the value of a select leave it and its options alone. -/
def ToldSafely (env : Env η) (w : World η) (r : Ref .select) (e : Ref .element) : Prop :=
  (Run.tellSelect env r).Ends False w fun _ w' => w.Untouched w' r e

/-- The world in which the value of a select is rebuilt from the selected options. -/
def rebuild (w : World η) (r : Ref .select) (e : Ref .element) : World η :=
  (w.selectedValue e).2.modifySelect r fun cell =>
    { cell with value := (w.selectedValue e).1, old := cell.value }

/-! ### Options and values -/

theorem containsItem_eq_any (w : World η) (a : Ref .array) (v : Value) :
    w.containsItem a v = (w.items a).any (·.same v) :=
  List.findIdx?_isSome

theorem containsItem_iff : w.containsItem a v = true ↔ ∃ i ∈ w.items a, i.same v = true := by
  rw [containsItem_eq_any, List.any_eq_true]

/-- An option is known by its value. -/
theorem Distinguished.eq_of_same (D : w.Distinguished e) (m : o ∈ w.options e)
    (m' : o' ∈ w.options e) (same : (w.optionValue o).same (w.optionValue o') = true) : o = o' := by
  have eq : (w.options e).Pairwise fun o o' =>
      (w.optionValue o).same (w.optionValue o') = true → o = o' :=
    D.apart.imp fun differ same => by cases differ.symm.trans same
  have eq' : (w.options e).Pairwise (flip fun o o' =>
      (w.optionValue o).same (w.optionValue o') = true → o = o') :=
    D.apart.imp fun differ same => by cases differ.symm.trans (Value.same_symm same)
  exact eq.forall_of_forall_of_flip (fun _ _ _ => rfl) eq' m m' same

theorem Distinguished.same_self (D : w.Distinguished e) (m : o ∈ w.options e) :
    (w.optionValue o).same (w.optionValue o) = true :=
  Bool.not_eq_false _ ▸ D.comparable o m

/-- The value of an option that is no array is matched by this option alone. -/
theorem Distinguished.optionMatches_iff (D : w.Distinguished e) (single : w.isMultiple e = false)
    (m : o ∈ w.options e) (m' : o' ∈ w.options e) (scalar : ∀ a, w.optionValue o ≠ .array a) :
    w.optionMatches (w.optionValue o) o' = true ↔ o' = o := by
  have present := D.present single o m
  have is : w.optionMatches (w.optionValue o) o' = (w.optionValue o).same (w.optionValue o') := by
    cases value : w.optionValue o with
    | undefined | null => rw [value] at present; cases present
    | array a => exact absurd value (scalar a)
    | _ => rfl
  rw [is]
  constructor
  · exact fun same => (D.eq_of_same m m' same).symm
  · rintro rfl
    exact D.same_self m

/-- Among the values of the selected options are those of no others. -/
theorem Distinguished.any_selected (D : w.Distinguished e) (m : o ∈ w.options e) :
    ((w.selectedOptions e).map w.optionValue).any (·.same (w.optionValue o)) = w.isPicked o := by
  rw [Bool.eq_iff_iff, List.any_map, List.any_eq_true]
  constructor
  · rintro ⟨o', m', same⟩
    obtain ⟨option, picked⟩ := List.mem_filter.1 m'
    obtain rfl := D.eq_of_same option m same
    exact picked
  · exact fun picked => ⟨o, List.mem_filter.2 ⟨m, picked⟩, D.same_self m⟩

/-! ### What registering leaves as it was -/

/-- `w'` has other registrations than `w`, but what elements are, what arrays contain, and what
elements the selects are of has not changed. -/
structure Reregisters (w w' : World η) : Prop where
  faces : ∀ e, (w'.elements.get? e).map ElementCell.face = (w.elements.get? e).map ElementCell.face
  items : ∀ a, w'.items a = w.items a
  selects : ∀ r, (w'.selects.get? r).map (·.element) = (w.selects.get? r).map (·.element)

theorem Reregisters.refl (w : World η) : w.Reregisters w :=
  ⟨fun _ => rfl, fun _ => rfl, fun _ => rfl⟩

theorem Reregisters.trans (h : w.Reregisters w') (h' : w'.Reregisters w'') : w.Reregisters w'' :=
  ⟨fun e => (h'.faces e).trans (h.faces e), fun a => (h'.items a).trans (h.items a),
    fun r => (h'.selects r).trans (h.selects r)⟩

theorem Reregisters.elementGet (h : w.Reregisters w') (o : Ref .element) (n : String) :
    w'.elementGet o n = w.elementGet o n := by
  have shown : ∀ w : World η, w.elementGet o n = (((w.elements.get? o).map ElementCell.face).bind
      fun face => Entries.get? n face.2.2).getD .undefined := fun w => by
    unfold World.elementGet
    cases w.elements.get? o <;> rfl
  rw [shown, shown, h.faces]

theorem Reregisters.optionValue (h : w.Reregisters w') (o : Ref .element) :
    w'.optionValue o = w.optionValue o := by
  have shown : ∀ w : World η, w.elementHas o "model" = (((w.elements.get? o).map
      ElementCell.face).map fun face => Entries.has "model" face.2.2).getD false := fun w => by
    unfold World.elementHas
    cases w.elements.get? o <;> rfl
  simp only [World.optionValue, h.elementGet, shown, h.faces]

theorem Reregisters.options (h : w.Reregisters w') (e : Ref .element) :
    w'.options e = w.options e := by
  have tags : ∀ w : World η, w.tag = fun o =>
      (((w.elements.get? o).map ElementCell.face).map (·.1)).getD "" := fun w => funext fun o => by
    unfold World.tag
    cases w.elements.get? o <;> rfl
  have children : ∀ w : World η, w.children e =
      (((w.elements.get? e).map ElementCell.face).map (·.2.1)).getD [] := fun w => by
    unfold World.children
    cases w.elements.get? e <;> rfl
  simp only [World.options, tags, children, h.faces]

theorem Reregisters.isMultiple (h : w.Reregisters w') (e : Ref .element) :
    w'.isMultiple e = w.isMultiple e :=
  congrArg Value.isTruthy (h.elementGet e "multiple")

theorem Reregisters.optionMatches (h : w.Reregisters w') (v : Value) :
    w'.optionMatches v = w.optionMatches v := by
  funext o
  cases v <;> simp only [World.optionMatches, h.optionValue, containsItem_eq_any, h.items]

theorem Reregisters.contains (h : w.Reregisters w') (e : Ref .element) :
    w'.elements.contains e = w.elements.contains e := by
  have shown : ∀ w : World η, w.elements.contains e =
      ((w.elements.get? e).map ElementCell.face).isSome := fun _ => Option.isSome_map.symm
  rw [shown, shown, h.faces]

theorem reregisters_of_eq (elements : w'.elements = w.elements) (arrays : w'.arrays = w.arrays)
    (selects : w'.selects = w.selects) : w.Reregisters w' :=
  ⟨fun _ => by rw [elements], fun _ => by rw [items, items, arrays], fun _ => by rw [selects]⟩

theorem reregisters_modifySelect {f : SelectCell → SelectCell}
    (element : ∀ cell, (f cell).element = cell.element) : w.Reregisters (w.modifySelect r f) :=
  ⟨fun _ => rfl, fun _ => rfl, fun r' => Store.map_get?_modify w.selects r r' element⟩

theorem reregisters_modifyArray {f : ArrayCell → ArrayCell}
    (items : ∀ cell, (f cell).items = cell.items) : w.Reregisters (w.modifyArray a f) := by
  refine ⟨fun _ => rfl, fun a' => ?_, fun _ => rfl⟩
  have same := Store.map_get?_modify (g := (·.items.toList)) w.arrays a a' (f := f)
    fun cell => congrArg Array.toList (items cell)
  exact congrArg (·.getD []) same

/-- Ending a registration. -/
theorem reregisters_undoCallback (w : World η) (t : Token) (ob : Observer) :
    w.Reregisters (w.undoCallback t ob).2 := by
  cases ob with
  | leaf l =>
    cases l with
    | setter _ | property _ => exact reregisters_of_eq rfl rfl rfl
    | placeholder _ =>
      simp only [undoCallback]
      split <;> exact reregisters_of_eq rfl rfl rfl
    | element _ | poll _ =>
      simp only [undoCallback]
      split
      · exact .refl w
      · split <;> exact reregisters_of_eq rfl rfl rfl
    | select _ =>
      simp only [undoCallback]
      split
      · exact .refl w
      · split <;> exact reregisters_modifySelect fun _ => rfl
    | contents c =>
      simp only [undoCallback]
      split
      · exact .refl w
      · have changed : ∀ f, w.Reregisters (w.modifyContents c f) := fun _ =>
          reregisters_of_eq rfl rfl rfl
        split
        · split
          · exact (changed _).trans (reregisters_modifyArray fun _ => rfl)
          · exact changed _
        · exact changed _
  | path _ | composite _ =>
    simp only [undoCallback]
    split
    · exact .refl w
    · split <;> exact reregisters_of_eq rfl rfl rfl

/-- Disposing a subscription, whatever it takes back. -/
theorem reregisters_disposeOption (w : World η) (held : Option (Ref .subscription)) :
    w.Reregisters (w.disposeOption held) := by
  cases held with
  | none => exact .refl w
  | some s =>
    refine disposeWithin_keeps (P := w.Reregisters)
      (fun _ _ h => h.trans (reregisters_of_eq rfl rfl rfl)) (undo_keeps ?_ ?_) _ s w (.refl w)
    · exact fun w' t ob h => h.trans (reregisters_undoCallback w' t ob)
    · exact fun w' e t h => h.trans ⟨fun e' => Store.map_get?_modify w'.elements e e' fun _ => rfl,
        fun _ => rfl, fun _ => rfl⟩

theorem reregisters_afterCreation (w : World η) : w.Reregisters w.afterCreation := by
  obtain ⟨locator, pruned, -⟩ := exists_afterCreation w
  rw [pruned]
  exact reregisters_of_eq rfl rfl rfl

theorem reregisters_contentsObserver (w : World η) (a : Ref .array) :
    w.Reregisters (w.contentsObserver a).2 := by
  unfold contentsObserver
  split
  · exact .refl w
  · dsimp only
    refine Reregisters.trans ?_ (reregisters_afterCreation _)
    exact reregisters_of_eq rfl rfl rfl

theorem reregisters_startListening (w : World η) (c : Ref .contents) :
    w.Reregisters (w.startListening c) := by
  unfold startListening
  split
  · exact .refl w
  next cell _ =>
    split
    · exact .refl w
    · have listens : w.freshToken.2.Reregisters (w.listenSplices cell.array (.contents c)).2 :=
        reregisters_modifyArray fun _ => rfl
      have drawn : w.Reregisters w.freshToken.2 := reregisters_of_eq rfl rfl rfl
      exact (drawn.trans listens).trans (reregisters_of_eq rfl rfl rfl)

theorem reregisters_subscribeContents (w : World η) (c : Ref .contents) (s : Subscriber) :
    w.Reregisters (w.subscribeContents c s).2 := by
  have added : w.Reregisters (w.freshToken.2.modifyContents c fun cell =>
      { cell with callbacks := cell.callbacks.add w.freshToken.1 s }) :=
    reregisters_of_eq rfl rfl rfl
  exact (added.trans (reregisters_startListening _ c)).trans (reregisters_of_eq rfl rfl rfl)

/-- Hearing of an array. -/
theorem reregisters_followArray (w : World η) (r : Ref .select) (v : Value) :
    w.Reregisters (w.followArray r v).2 := by
  cases v with
  | array a =>
    exact (reregisters_contentsObserver w a).trans (reregisters_subscribeContents _ _ (.options r))
  | _ => exact .refl w

/-! ### From a value to the options -/

/-- In `w'` the select `r` of the element `e` shows the value `v`: those of the options in `w` are
selected that match it there. -/
structure Displays (w w' : World η) (r : Ref .select) (e : Ref .element) (v : Value) : Prop where
  select : (w'.selects.get? r).map (·.element) = some e
  live : w'.elements.contains e = true
  multiple : w'.isMultiple e = w.isMultiple e
  options : w'.options e = w.options e
  optionValue : ∀ o, w'.optionValue o = w.optionValue o
  picked : ∀ o ∈ w.options e, w'.isPicked o = w.optionMatches v o

/-- A select that takes a value shows it. -/
theorem displays_choose (get : w.selects.get? r = some cell)
    (live : w.elements.contains cell.element = true) (held : Option (Ref .subscription)) (v : Value) :
    w.Displays (w.choose r held v) r cell.element v := by
  have emptied : w.Reregisters (w.modifySelect r fun cell => { cell with array := none }) :=
    reregisters_modifySelect fun _ => rfl
  have left := emptied.trans (reregisters_disposeOption _ held)
  have followed := left.trans (reregisters_followArray _ r v)
  unfold World.choose
  dsimp only
  generalize (((w.modifySelect r fun cell => { cell with array := none }).disposeOption
    held).followArray r v).1 = array
  generalize (((w.modifySelect r fun cell => { cell with array := none }).disposeOption
    held).followArray r v).2 = w₁ at followed
  -- the select takes the value
  have taken : w.Reregisters (w₁.modifySelect r fun cell => { cell with array, value := v }) :=
    followed.trans (reregisters_modifySelect fun _ => rfl)
  obtain ⟨cell₁, get₁, element⟩ : ∃ cell₁, w₁.selects.get? r = some cell₁ ∧
      cell₁.element = cell.element :=
    Option.map_eq_some_iff.1 ((followed.selects r).trans (by rw [get, Option.map_some]))
  have get₂ : (w₁.modifySelect r fun cell => { cell with array, value := v }).selects.get? r =
      some { cell₁ with array, value := v } := by
    rw [World.modifySelect, Store.get?_modify_self, get₁, Option.map_some]
  -- and marks its options
  have marks := marks_synchronizeOptions
    (w₁.modifySelect r fun cell => { cell with array, value := v }) r
  generalize w₁.modifySelect r (fun cell => { cell with array, value := v }) = w₂ at taken get₂ marks
  refine ⟨?_, ?_, ?_, ?_, fun o => ?_, fun o m => ?_⟩
  · rw [marks.rest]
    exact (congrArg (Option.map (·.element)) get₂).trans (congrArg some element)
  · rw [marks.contains, taken.contains, live]
  · exact (congrArg Value.isTruthy (marks.get _ "multiple" (by decide))).trans (taken.isMultiple _)
  · rw [marks.options, taken.options]
  · rw [marks.optionValue, taken.optionValue]
  · rw [← taken.options, ← element] at m
    rw [isPicked, elementGet_synchronizeOptions get₂ m, taken.optionMatches]
    rfl

/-- **Assigning** a value that stands for a selection succeeds, and the select shows it, if the select has
another value before or shows this one. -/
theorem writeSelect_displays (get : w.selects.get? r = some cell)
    (live : w.elements.contains cell.element = true) (stands : w.StandsFor cell.element v)
    (news : cell.value.same v = false ∨
      ∀ o ∈ w.options cell.element, w.isPicked o = w.optionMatches v o) :
    (Run.writeSelect r v).Ends False w fun _ w' => w.Displays w' r cell.element v := by
  simp only [Run.writeSelect, Run.ends_bind, Run.ends_read, get, live, Bool.not_true,
    Bool.false_eq_true, if_false]
  rw [if_neg]
  · by_cases same : cell.value.same v = true
    · have shown := news.resolve_left fun differs => by cases differs.symm.trans same
      rw [if_pos same]
      exact ⟨by rw [get, Option.map_some], live, rfl, rfl, fun _ => rfl, shown⟩
    · rw [if_neg same]
      exact displays_choose get live cell.array v
  · cases stands with
    | nothing => exact Bool.noConfusion
    | several => simp
    | one single => simp [single]

/-! ### From the options to a value -/

/-- Rebuilding the value and telling about it. -/
theorem synchronizeValue_eq (get : w.selects.get? r = some cell)
    (live : w.elements.contains cell.element = true) :
    Run.synchronizeValue env r w = Run.tellSelect env r (w.rebuild r cell.element) := by
  rw [Run.synchronizeValue, Run.bind_read, get]
  dsimp only
  rw [Run.bind_read, live]
  rfl

theorem selects_selectedValue (w : World η) (e : Ref .element) :
    (w.selectedValue e).2.selects = w.selects := by
  unfold selectedValue
  dsimp only
  split <;> rfl

theorem get?_rebuild (get : w.selects.get? r = some cell) (e : Ref .element) :
    (w.rebuild r e).selects.get? r =
      some { cell with value := (w.selectedValue e).1, old := cell.value } := by
  rw [rebuild, modifySelect, Store.get?_modify_self, selects_selectedValue, get, Option.map_some]

theorem options_rebuild (w : World η) (r : Ref .select) (e : Ref .element) :
    (w.rebuild r e).options = w.options ∧ (w.rebuild r e).optionValue = w.optionValue := by
  have elements : (w.rebuild r e).elements = w.elements := by
    unfold rebuild selectedValue
    dsimp only
    split <;> rfl
  have tag : (w.rebuild r e).tag = w.tag := funext fun o => by rw [World.tag, elements, World.tag]
  refine ⟨funext fun o => ?_, funext fun o => ?_⟩
  · rw [World.options, World.options, World.children, World.children, elements, tag]
  · simp only [World.optionValue, elementHas, elementGet, elements]
    rfl

/-- Where several options may be selected, their values make a new array. -/
theorem selectedValue_of_multiple (multiple : w.isMultiple e = true) (r : Ref .select) :
    ∃ a, (w.selectedValue e).1 = .array a ∧
      (w.rebuild r e).items a = (w.selectedOptions e).map w.optionValue := by
  refine ⟨w.arrays.next, by simp only [selectedValue, multiple, if_true, newArray], ?_⟩
  simp only [rebuild, selectedValue, multiple, if_true, newArray, World.items, modifySelect,
    Store.get?_alloc_next, Option.map_some, Option.getD_some]

/-- Where one option may be selected, the value of the first makes the value. -/
theorem selectedValue_of_single (single : w.isMultiple e = false) :
    (w.selectedValue e).1 = (((w.selectedOptions e).map w.optionValue).head?).getD .null := by
  simp only [selectedValue, single, Bool.false_eq_true, if_false]

/-- What a select has as its value afterwards. -/
theorem Untouched.value (U : (w.rebuild r e).Untouched w' r e) (get : w.selects.get? r = some cell)
    (element : cell.element = e) : ∃ cell', w'.selects.get? r = some cell' ∧ cell'.element = e ∧
      cell'.value = (w.selectedValue e).1 := by
  have same := U.select
  rw [get?_rebuild get, Option.map_some, element] at same
  obtain ⟨cell', get', is⟩ := Option.map_eq_some_iff.1 same
  exact ⟨cell', get', (Prod.mk.inj is).1, (Prod.mk.inj is).2⟩

/-! ### There and back -/

/-- A value that is no array is matched by the values of options alone. -/
theorem optionMatches_congr (scalar : ∀ a, v ≠ .array a)
    (same : w'.optionValue o = w.optionValue o) : w'.optionMatches v o = w.optionMatches v o := by
  cases v with
  | array a => exact absurd rfl (scalar a)
  | _ => simp only [World.optionMatches, same]

/-- Those options match the rebuilt value that it was made from. -/
theorem Distinguished.optionMatches_selectedValue (D : w.Distinguished e)
    (tellable : w.Tellable e) (value : (w.rebuild r e).selects.get? r = some cell)
    (is : cell.value = (w.selectedValue e).1) (U : (w.rebuild r e).Untouched w' r e) (m : o ∈ w.options e) :
    w'.optionMatches (w.selectedValue e).1 o = w.isPicked o := by
  obtain ⟨options, optionValue⟩ := options_rebuild w r e
  have same : w'.optionValue o = w.optionValue o := by
    rw [U.optionValue o (options ▸ m), optionValue]
  cases multiple : w.isMultiple e with
  | true =>
    obtain ⟨a, array, items⟩ := selectedValue_of_multiple multiple r
    have kept : w'.items a = (w.rebuild r e).items a :=
      U.items a (by rw [value, Option.map_some, is, array])
    rw [array, ← D.any_selected m, ← items, ← kept, ← same]
    exact containsItem_eq_any w' a _
  | false =>
    obtain ⟨few, scalar⟩ := tellable multiple
    rw [selectedValue_of_single multiple]
    cases selected : w.selectedOptions e with
    | nil =>
      -- no option is selected, and none matches
      refine (Bool.eq_false_iff.2 fun picked => ?_).symm
      have m' : o ∈ w.selectedOptions e := List.mem_filter.2 ⟨m, picked⟩
      rw [selected] at m'
      cases m'
    | cons o' rest =>
      rw [selected] at few scalar
      obtain rfl : rest = [] := List.eq_nil_of_length_eq_zero (by simpa using few)
      have scalar' := scalar o' List.mem_cons_self
      have m' : o' ∈ w.options e :=
        (List.mem_filter.1 (selected ▸ List.mem_cons_self : o' ∈ w.selectedOptions e)).1
      have picked : w.isPicked o = true ↔ o = o' := by
        rw [← List.mem_singleton (a := o), ← selected]
        exact ⟨fun picked => List.mem_filter.2 ⟨m, picked⟩, fun m => (List.mem_filter.1 m).2⟩
      rw [List.map_cons, List.head?_cons, Option.getD_some, optionMatches_congr scalar' same,
        Bool.eq_iff_iff, picked]
      exact D.optionMatches_iff multiple m' m scalar'

/-- **What is selected stays selected** when the value is rebuilt and the options are synchronized with
it. -/
theorem Distinguished.selection_stays (D : w.Distinguished cell.element)
    (get : w.selects.get? r = some cell) (live : w.elements.contains cell.element = true)
    (tellable : w.Tellable cell.element)
    (told : ToldSafely env (w.rebuild r cell.element) r cell.element) :
    (Run.synchronizeValue env r).Ends False w fun _ w' =>
      ∀ o ∈ w.options cell.element, (w'.synchronizeOptions r).isPicked o = w.isPicked o := by
  unfold Run.Ends
  rw [synchronizeValue_eq get live]
  refine Run.Ends.mono told fun _ w' U o m => ?_
  obtain ⟨cell', get', element, value⟩ := U.value get rfl
  have m' : o ∈ w'.options cell'.element := by
    rw [element, U.options, (options_rebuild w r cell.element).1]
    exact m
  rw [isPicked, elementGet_synchronizeOptions get' m', value]
  exact D.optionMatches_selectedValue tellable (get?_rebuild get _) rfl U m

/-- What the value `v`, which stood for a selection in `w`, has become in `w'` when it has come back:
itself, or a new array of the same option values in the order of the options, where several may be
selected. -/
structure ComesBack (w w' : World η) (r : Ref .select) (e : Ref .element) (v : Value) : Prop where
  one : w.isMultiple e = false → (w'.selects.get? r).map (·.value) = some v
  several : w.isMultiple e = true → ∃ b, (w'.selects.get? r).map (·.value) = some (.array b) ∧
    (v = .null → w'.items b = []) ∧
    ∀ a, v = .array a →
      w'.items b = ((w.options e).map w.optionValue).filter (w.containsItem a) ∧
      ∀ u, w'.containsItem b u = w.containsItem a u

/-- The option values that an array contains are as good as its items, if these are option values. -/
theorem any_filter_containsItem
    (offered : ∀ v ∈ w.items a, ∃ o ∈ w.options e, v.same (w.optionValue o) = true) (u : Value) :
    (((w.options e).map w.optionValue).filter (w.containsItem a)).any (·.same u) =
      w.containsItem a u := by
  rw [Bool.eq_iff_iff, List.any_eq_true, containsItem_iff]
  constructor
  · rintro ⟨x, m, same⟩
    obtain ⟨i, m', same'⟩ := containsItem_iff.1 (List.mem_filter.1 m).2
    exact ⟨i, m', Value.same_trans same' same⟩
  · rintro ⟨i, m, same⟩
    obtain ⟨o, option, same'⟩ := offered i m
    refine ⟨w.optionValue o, List.mem_filter.2 ⟨List.mem_map_of_mem option, ?_⟩, ?_⟩
    · exact containsItem_iff.2 ⟨i, m, same'⟩
    · exact Value.same_trans (Value.same_symm same') same

/-- An option whose value is no array is the first that matches it. -/
theorem Distinguished.find?_optionMatches (D : w.Distinguished e) (single : w.isMultiple e = false)
    (m : o ∈ w.options e) (scalar : ∀ a, w.optionValue o ≠ .array a) :
    (w.options e).find? (w.optionMatches (w.optionValue o)) = some o := by
  cases found : (w.options e).find? (w.optionMatches (w.optionValue o)) with
  | none =>
    have unmatched := List.find?_eq_none.1 found o m
    exact absurd ((D.optionMatches_iff single m m scalar).2 rfl) unmatched
  | some o' =>
    have m' := List.mem_of_find?_eq_some found
    rw [(D.optionMatches_iff single m m' scalar).1 (List.find?_some found)]

/-- No option matches nothing. -/
theorem filter_optionMatches_null (w : World η) (e : Ref .element) :
    (w.options e).filter (w.optionMatches .null) = [] :=
  List.filter_eq_nil_iff.2 fun _ _ => Bool.false_ne_true

theorem StandsFor.offered (stands : w.StandsFor e v) (multiple : w.isMultiple e = true)
    (is : v = .array a) : ∀ u ∈ w.items a, ∃ o ∈ w.options e, u.same (w.optionValue o) = true := by
  cases stands with
  | nothing => cases is
  | several _ offered => exact Value.array.inj is ▸ offered
  | one single => cases single.symm.trans multiple

/-- **A value that is shown comes back** when it is rebuilt from the options. -/
theorem Distinguished.value_comes_back (D : w.Distinguished e) (stands : w.StandsFor e v)
    (S : w.Displays w' r e v) (told : ToldSafely env (w'.rebuild r e) r e) :
    (Run.synchronizeValue env r).Ends False w' fun _ w'' => w.ComesBack w'' r e v := by
  obtain ⟨cell, get, rfl⟩ := Option.map_eq_some_iff.1 S.select
  have selected : w'.selectedOptions cell.element =
      (w.options cell.element).filter (w.optionMatches v) := by
    rw [World.selectedOptions, S.options]
    exact List.filter_congr S.picked
  have values : (w'.selectedOptions cell.element).map w'.optionValue =
      ((w.options cell.element).filter (w.optionMatches v)).map w.optionValue := by
    rw [selected]
    exact List.map_congr_left fun o _ => S.optionValue o
  unfold Run.Ends
  rw [synchronizeValue_eq get S.live]
  refine Run.Ends.mono told fun _ w'' U => ?_
  obtain ⟨cell', get', -, value⟩ := U.value get rfl
  refine ⟨fun single => ?_, fun multiple => ?_⟩
  · rw [get', Option.map_some, value, selectedValue_of_single (S.multiple.trans single), values,
      List.head?_map]
    cases stands with
    | nothing =>
      rw [filter_optionMatches_null]
      rfl
    | several multiple => cases single.symm.trans multiple
    | one _ m scalar =>
      rw [List.head?_filter, D.find?_optionMatches single m scalar]
      rfl
  · obtain ⟨b, array, items⟩ := selectedValue_of_multiple (S.multiple.trans multiple) r
    have kept : w''.items b = (w'.rebuild r cell.element).items b :=
      U.items b (by rw [get?_rebuild get, Option.map_some, array])
    rw [items, values] at kept
    refine ⟨b, by rw [get', Option.map_some, value, array], ?_, ?_⟩
    · rintro rfl
      rw [kept, filter_optionMatches_null, List.map_nil]
    · rintro a rfl
      have filtered : w''.items b =
          ((w.options cell.element).map w.optionValue).filter (w.containsItem a) := by
        rw [kept, List.filter_map]
        rfl
      refine ⟨filtered, fun u => ?_⟩
      rw [containsItem_eq_any, filtered]
      exact any_filter_containsItem (stands.offered multiple rfl) u

/-- **A value and the options it selects are views of each other.**  The options can be told apart by
their values, and those who are told about the value leave them alone.  What is selected is selected
still when the value was rebuilt and the options synchronized with it.  A value that stands for a
selection can be assigned, and comes back when the value is rebuilt, unless the select had it before
and the options did not agree with it. -/
theorem value_and_options_agree (get : w.selects.get? r = some cell)
    (live : w.elements.contains cell.element = true) (D : w.Distinguished cell.element) :
    (w.Tellable cell.element → ToldSafely env (w.rebuild r cell.element) r cell.element →
      (Run.synchronizeValue env r).Ends False w fun _ w' =>
        ∀ o ∈ w.options cell.element, (w'.synchronizeOptions r).isPicked o = w.isPicked o) ∧
    ∀ v, w.StandsFor cell.element v →
      (cell.value.same v = false ∨
        ∀ o ∈ w.options cell.element, w.isPicked o = w.optionMatches v o) →
      (Run.writeSelect r v).Ends False w fun _ w' =>
        ToldSafely env (w'.rebuild r cell.element) r cell.element →
        (Run.synchronizeValue env r).Ends False w' fun _ w'' => w.ComesBack w'' r cell.element v := by
  refine ⟨D.selection_stays get live, fun v stands news => ?_⟩
  exact (writeSelect_displays get live stands news).mono fun _ _ S => D.value_comes_back stands S

/-- A host that only minds its own state does not disturb. -/
theorem toldSafely_of_hooks (discreet : env.Discreet)
    (hooks : ∀ cell s, w.selects.get? r = some cell → s ∈ cell.callbacks.toList → ∃ h, s = .hook h) :
    ToldSafely env w r e := by
  have beside : ∀ s : η, w.Untouched { w with host := s } r e := fun _ =>
    ⟨rfl, rfl, fun _ _ => rfl, fun _ _ => rfl⟩
  simp only [ToldSafely, Run.tellSelect, Run.ends_bind, Run.ends_read]
  cases get : w.selects.get? r with
  | none => exact beside w.host
  | some cell =>
    refine (Run.ends_forEach (fun rest w' => (∃ s, w' = { w with host := s }) ∧
      ∀ s ∈ rest, ∃ h, s = .hook h) ⟨⟨w.host, rfl⟩, fun s m => hooks cell s get
        (List.mem_reverse.1 m)⟩ ?_).mono ?_
    · rintro s rest w' ⟨⟨kept, rfl⟩, others⟩
      obtain ⟨h, rfl⟩ := others s List.mem_cons_self
      obtain ⟨kept', fired⟩ := discreet.hook h cell.value cell.old { w with host := kept }
      exact (Run.ends_of_eq_ok fired).2
        ⟨⟨kept', rfl⟩, fun s m => others s (List.mem_cons_of_mem _ m)⟩
    · rintro _ w' ⟨⟨kept, rfl⟩, -⟩
      exact beside kept

/-! ### Menus -/

/-- The menu in which the user has picked the second option. -/
def pickedMenu : World Unit := menu.pickOption ⟨0⟩ 1 true

/-- The second option of the menu stays selected, and the list comes back as a list of the same. -/
theorem menu_agrees :
    (Run.synchronizeValue menuMachine ⟨0⟩).Ends False pickedMenu (fun _ w' =>
      ∀ o ∈ pickedMenu.options ⟨0⟩, (w'.synchronizeOptions ⟨0⟩).isPicked o = pickedMenu.isPicked o) ∧
    (Run.writeSelect ⟨0⟩ (.array ⟨0⟩)).Ends False pickedMenu fun _ w' =>
      (Run.synchronizeValue menuMachine ⟨0⟩).Ends False w' fun _ w'' =>
        pickedMenu.ComesBack w'' ⟨0⟩ ⟨0⟩ (.array ⟨0⟩) := by
  have discreet : menuMachine.Discreet := discreet_silent.machine 9 7
  have unheard : ∀ w : World Unit, (w.selects.get? ⟨0⟩).map (·.callbacks.entries.length) = some 0 →
      ToldSafely menuMachine w ⟨0⟩ ⟨0⟩ := fun w none => by
    refine toldSafely_of_hooks discreet fun cell s get m => ?_
    rw [get, Option.map_some, Option.some.injEq, List.length_eq_zero_iff] at none
    rw [Listeners.toList, none] at m
    cases m
  have select : (pickedMenu.selects.get? ⟨0⟩).map (fun cell => (cell.element, cell.value)) =
      some (⟨0⟩, .undefined) := by decide +kernel
  obtain ⟨cell, get, is⟩ := Option.map_eq_some_iff.1 select
  obtain ⟨element, value⟩ := Prod.mk.inj is
  have D : pickedMenu.Distinguished ⟨0⟩ :=
    ⟨by decide +kernel, by decide +kernel, by decide +kernel⟩
  have multiple : pickedMenu.isMultiple ⟨0⟩ = true := by decide +kernel
  have tellable : pickedMenu.Tellable ⟨0⟩ := fun single => by cases single.symm.trans multiple
  have stands : pickedMenu.StandsFor ⟨0⟩ (.array ⟨0⟩) := .several multiple (by decide +kernel)
  have agree := @value_and_options_agree Unit pickedMenu ⟨0⟩ cell menuMachine get
    (element ▸ by decide +kernel) (element ▸ D)
  rw [element, value] at agree
  obtain ⟨stays, returns⟩ := agree
  refine ⟨stays tellable (unheard _ (by decide +kernel)), ?_⟩
  obtain ⟨⟨⟩, w', assigned, comes⟩ := (returns _ stands (.inl rfl)).exists_eq_ok
  refine (Run.ends_of_eq_ok assigned).2 (comes (unheard _ ?_))
  obtain rfl : (Run.writeSelect ⟨0⟩ (.array ⟨0⟩) pickedMenu).2 = w' := by rw [assigned]
  decide +kernel

/-- A select that allows one option only, whose value is a list. -/
def listed : World Unit :=
  let w := ((World.new .standard ()).newArray [.number 1.0, .number 2.0]).2
  let w := ((w.newElement "select" false).2.newOption "a").2.elementSet ⟨1⟩ "model" (.array ⟨0⟩)
  let w := w.modifyElement ⟨0⟩ fun cell => { cell with children := [⟨1⟩] }
  (w.elementObserver ⟨0⟩ "value").2.pickOption ⟨0⟩ 0 true

/-- **An option whose value is a list is deselected** by its own value: the list is what the select has
as its value, and does not contain itself. -/
theorem listed_option_deselected : listed.Distinguished ⟨0⟩ ∧
    listed.selectedOptions ⟨0⟩ = [⟨1⟩] ∧ listed.isMultiple ⟨0⟩ = false ∧
    (Run.synchronizeValue menuMachine ⟨0⟩).Ends False listed fun _ w' =>
      (w'.selects.get? ⟨0⟩).map (·.value) = some (.array ⟨0⟩) ∧
        (w'.synchronizeOptions ⟨0⟩).isPicked ⟨1⟩ = false :=
  ⟨⟨by decide +kernel, by decide +kernel, by decide +kernel⟩, by decide +kernel, by decide +kernel,
    by decide +kernel⟩

/-- **Assigning the same again goes unnoticed.** Nothing is assigned to a select, the user picks an option,
and nothing is assigned again: the option stays, and is what the select has when its value is
rebuilt. -/
theorem null_unnoticed :
    (Run.writeSelect ⟨0⟩ .null).Ends False listed fun _ w₁ =>
    (Run.writeSelect ⟨0⟩ .null).Ends False (w₁.pickOption ⟨0⟩ 0 true) fun _ w₂ =>
    (Run.synchronizeValue menuMachine ⟨0⟩).Ends False w₂ fun _ w₃ =>
      (w₃.selects.get? ⟨0⟩).map (·.value) = some (.array ⟨0⟩) := by
  decide +kernel

end World

end ViewBinding
