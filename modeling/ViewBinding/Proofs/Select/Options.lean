import ViewBinding.Observer.Select
import ViewBinding.Proofs.Leaf.Aside

/-!
# Select — options in step

Marking options writes their property `selected` and nothing else (`Marks`), so it neither changes
what the options of an element are nor what values they have.  When a select synchronizes its
options while its value is an array, every option is selected afterwards exactly when the array
contains its value (`inStep_synchronizeOptions`).
-/

namespace ViewBinding

namespace World

variable {η : Type} {w w' w'' : World η} {r : Ref .select} {e o : Ref .element} {a : Ref .array}

/-- Each option of an element is selected exactly when an array contains its value. -/
def InStep (w : World η) (e : Ref .element) (a : Ref .array) : Prop :=
  ∀ option ∈ w.options e,
    w.elementGet option "selected" = .bool (w.containsItem a (w.optionValue option))

/-- `w'` is `w` but for what is marked as selected. -/
structure Marks (w w' : World η) : Prop where
  rest : w' = { w with elements := w'.elements }
  children : ∀ e, w'.children e = w.children e
  tag : ∀ e, w'.tag e = w.tag e
  contains : ∀ e, w'.elements.contains e = w.elements.contains e
  get : ∀ e n, n ≠ "selected" → w'.elementGet e n = w.elementGet e n
  has : ∀ e n, n ≠ "selected" → w'.elementHas e n = w.elementHas e n

theorem Marks.refl (w : World η) : w.Marks w :=
  ⟨rfl, fun _ => rfl, fun _ => rfl, fun _ => rfl, fun _ _ _ => rfl, fun _ _ _ => rfl⟩

theorem Marks.trans (h : w.Marks w') (h' : w'.Marks w'') : w.Marks w'' where
  rest := by rw [h'.rest, h.rest]
  children e := (h'.children e).trans (h.children e)
  tag e := (h'.tag e).trans (h.tag e)
  contains e := (h'.contains e).trans (h.contains e)
  get e n ne := (h'.get e n ne).trans (h.get e n ne)
  has e n ne := (h'.has e n ne).trans (h.has e n ne)

theorem Marks.tasks (h : w.Marks w') : w'.tasks = w.tasks := by rw [h.rest]

theorem Marks.options (h : w.Marks w') (e : Ref .element) : w'.options e = w.options e := by
  simp only [World.options, h.children, h.tag]

theorem Marks.optionValue (h : w.Marks w') (o : Ref .element) :
    w'.optionValue o = w.optionValue o := by
  simp only [World.optionValue, h.has o "model" (by decide), h.get o "model" (by decide),
    h.get o "value" (by decide)]

theorem Marks.containsItem (h : w.Marks w') (a : Ref .array) (v : Value) :
    w'.containsItem a v = w.containsItem a v := by
  rw [h.rest]
  rfl

theorem Marks.optionMatches (h : w.Marks w') (v : Value) :
    w'.optionMatches v = w.optionMatches v := by
  funext o
  cases v <;> simp only [World.optionMatches, h.optionValue, h.containsItem]

/-- What is not about properties of an element stays as it is. -/
theorem map_get?_elementSet {β : Type} {n : String} {v : Value} (g : ElementCell → β)
    (h : ∀ cell properties, g { cell with properties } = g cell) :
    ((w.elementSet o n v).elements.get? e).map g = (w.elements.get? e).map g :=
  Store.map_get?_modify _ _ _ fun cell => h cell _

theorem marks_elementSet (w : World η) (o : Ref .element) (v : Value) :
    w.Marks (w.elementSet o "selected" v) where
  rest := rfl
  children e := congrArg (·.getD []) (map_get?_elementSet ElementCell.children fun _ _ => rfl)
  tag e := congrArg (·.getD "") (map_get?_elementSet ElementCell.tag fun _ _ => rfl)
  contains e := contains_elementSet w o e _ _
  get e n ne := by
    by_cases same : e = o
    · subst same
      simp only [elementGet, elementSet, modifyElement, Store.get?_modify_self]
      cases w.elements.get? e with
      | none => rfl
      | some cell => simp only [Option.map_some, Option.bind_some, Entries.get?_put_of_ne v _ ne]
    · exact elementGet_elementSet_of_ne _ _ _ same
  has e n ne := by
    by_cases same : e = o
    · subst same
      simp only [elementHas, elementSet, modifyElement, Store.get?_modify_self]
      cases w.elements.get? e with
      | none => rfl
      | some cell =>
        simp only [Option.map_some, Option.getD_some, Entries.has, Entries.get?_put_of_ne v _ ne]
    · simp only [elementHas, elementSet, modifyElement, Store.get?_modify_of_ne _ same]

theorem marks_markOptions (selected : Ref .element → Bool) :
    ∀ (options : List (Ref .element)) (w : World η), w.Marks (w.markOptions options selected)
  | [], w => .refl w
  | o :: rest, w => (marks_elementSet w o _).trans (marks_markOptions selected rest _)

/-- Those are selected that shall be, whether they are marked or were right before. -/
theorem elementGet_markOptions (selected : Ref .element → Bool) (live : w.elements.contains o = true)
    (options : List (Ref .element))
    (marked : o ∈ options ∨ w.elementGet o "selected" = .bool (selected o)) :
    (w.markOptions options selected).elementGet o "selected" = .bool (selected o) := by
  induction options generalizing w with
  | nil => exact marked.resolve_left List.not_mem_nil
  | cons o' rest ih =>
    refine ih ((contains_elementSet w o' o _ _).trans live) ?_
    by_cases same : o = o'
    · exact .inr (same ▸ elementGet_elementSet_self live _)
    · refine marked.imp (fun m => (List.mem_cons.1 m).resolve_left same) fun right => ?_
      exact (elementGet_elementSet_of_ne _ _ _ same).trans right

theorem contains_of_mem_options (m : o ∈ w.options e) : w.elements.contains o = true := by
  have option : w.tag o = "option" := by simpa using (List.mem_filter.1 m).2
  cases get : w.elements.get? o with
  | none => simp [World.tag, get] at option
  | some cell => simp [Store.contains, get]

theorem marks_synchronizeOptions (w : World η) (r : Ref .select) :
    w.Marks (w.synchronizeOptions r) := by
  unfold synchronizeOptions
  split
  · exact .refl w
  · exact marks_markOptions _ _ w

/-- **Synchronizing** selects the options that match the value, and deselects the others. -/
theorem elementGet_synchronizeOptions {cell : SelectCell} (get : w.selects.get? r = some cell)
    (m : o ∈ w.options cell.element) : (w.synchronizeOptions r).elementGet o "selected" =
      .bool (w.optionMatches cell.value o) := by
  simp only [synchronizeOptions, get]
  exact elementGet_markOptions _ (contains_of_mem_options m) _ (.inl (List.mem_reverse.2 m))

/-- So the options are brought in step with the array that is the value. -/
theorem inStep_synchronizeOptions {cell : SelectCell} (get : w.selects.get? r = some cell)
    (value : cell.value = .array a) : (w.synchronizeOptions r).InStep cell.element a := by
  intro option m
  have marks := marks_synchronizeOptions w r
  rw [marks.options] at m
  rw [marks.containsItem, marks.optionValue, elementGet_synchronizeOptions get m, value]
  rfl

end World

end ViewBinding
