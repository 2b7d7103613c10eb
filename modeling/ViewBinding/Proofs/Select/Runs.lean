import ViewBinding.Proofs.Leaf.Unwatched
import ViewBinding.Proofs.Select.Tell

/-!
# Select — following an array

A select is assigned values, its array and other arrays are changed, options come and go, the user
picks options, and microtasks are flushed, in any order (`SelectAct`).  From the assignment of an
array on, which was not the value before, the select follows the array: a change of it and a flush
leave each option selected exactly when the array contains its value (`assigned_array_followed`).

This ends when the user's changes make another array the value or when the select is unbound.  The
first is not meant: `picked_list_unfollowed` is a run in which the array that a change has made is
changed, and the options stay as they are.
-/

namespace ViewBinding

variable {η : Type}

/-- What is done with a select, its options and with arrays. -/
inductive SelectAct where
  /-- Assigns a value, as a binding does with the value of its source. -/
  | assign (v : Value)
  | edit (a : Ref .array) (how : Edit)
  | append (child : Ref .element)
  | remove (child : Ref .element)
  /-- The user selects an option or takes that back. -/
  | pick (index : Nat) (selected : Bool)
  /-- Writes a property of an element, such as the value of an option. -/
  | put (o : Ref .element) (name : String) (v : Value)
  /-- The user's changes make the value. -/
  | change
  | bind
  | unbind
  /-- Runs the microtasks. -/
  | flush

namespace SelectAct

/-- Carries out an act on the select `r` of the element `e`. -/
def run (env : Env η) (r : Ref .select) (e : Ref .element) : SelectAct → Run η Unit
  | assign v => Run.writeSelect r v
  | edit a how => how.run env a
  | append child => Run.appendChild env e child
  | remove child => discard (Run.removeChild env e child)
  | pick index selected => Run.modify fun w => w.pickOption e index selected
  | put o name v => Run.modify fun w => w.elementSet o name v
  | change => Run.synchronizeValue env r
  | bind => Run.modify fun w => w.bindSelect r
  | unbind => Run.modify fun w => w.unbindSelect r
  | flush => discard (Run.flushMicrotasks env)

/-- Arrays are assigned that are there. -/
def Allowed (w : World η) : SelectAct → Prop
  | assign v => ∀ a, v = .array a → w.arrays.contains a = true
  | _ => True

/-- Whether the array `a` may cease to be followed with an act. -/
def Leaves (a : Ref .array) : SelectAct → Prop
  | assign v => v ≠ .array a
  | change | unbind => True
  | _ => False

/-- `w'` comes from `w` by acts that are allowed and go through. -/
inductive Reaches (host : Host η) (r : Ref .select) (e : Ref .element) :
    World η → List SelectAct → World η → Prop
  | refl (w : World η) : Reaches host r e w [] w
  | step {w w' w'' : World η} {acts : List SelectAct} {act : SelectAct} {rounds depth : Nat}
      (before : Reaches host r e w acts w') (allowed : act.Allowed w')
      (ran : act.run (machine host rounds (depth + 2)) r e w' = (.ok (), w'')) :
      Reaches host r e w (acts ++ [act]) w''

end SelectAct

/-- Only an array is the same as itself. -/
theorem Value.eq_array_of_same {v : Value} {a : Ref .array} (h : v.same (.array a) = true) :
    v = .array a := by
  cases v with
  | array a' => exact congrArg Value.array (eq_of_beq h)
  | _ => cases h

namespace World

variable {w w' w₀ w₁ w₂ w₃ w₄ : World η} {r : Ref .select} {e : Ref .element} {a : Ref .array}
  {host : Host η} {rounds depth : Nat} {act : SelectAct} {acts acts' : List SelectAct}

/-- What holds between two acts. -/
structure Orderly (w : World η) (r : Ref .select) (e : Ref .element) : Prop where
  menu : w.Menu r e w.tasks.microtasks
  rests : w.tasks.flushing = false

theorem Gathers.orderly (G : w.Gathers w' r e) (rests : w.tasks.flushing = false) :
    w'.Orderly r e := ⟨G.menu, G.flushing.trans rests⟩

/-- **What an act keeps.** -/
theorem Orderly.step (O : w.Orderly r e) (discreet : host.Discreet) (allowed : act.Allowed w)
    (ran : act.run (machine host rounds (depth + 2)) r e w = (.ok (), w')) :
    w'.Orderly r e ∧ (¬ act.Leaves a → (∃ c, w.Heeds r a c) → ∃ c, w'.Heeds r a c) := by
  have D := discreet.machine rounds depth
  have gathers : w.Gathers w' r e →
      w'.Orderly r e ∧ (¬ act.Leaves a → (∃ c, w.Heeds r a c) → ∃ c, w'.Heeds r a c) :=
    fun G => ⟨G.orderly O.rests, fun _ => Exists.imp fun _ => G.heeds⟩
  cases act with
  | assign v =>
    obtain ⟨M, tasks, heeds⟩ := O.menu.writeSelect allowed ran
    refine ⟨⟨tasks ▸ M, tasks ▸ O.rests⟩, fun stays => Exists.imp fun c H => ?_⟩
    -- the array is the value already
    obtain rfl : v = .array a := Decidable.not_not.1 stays
    exact (heeds _ H.value).1 (beq_self_eq_true a) ▸ H
  | edit a' how => exact gathers (edit_spec D O.menu ran).toGathers
  | append child =>
    have appends : (Run.appendChild _ e child).Ends False w _ := appendChild_spec D w e child
    obtain ⟨beside, tasks⟩ := (Run.ends_of_eq_ok ran).1 appends
    exact gathers (beside.gathers O.menu tasks)
  | remove child =>
    obtain ⟨found, ran⟩ := Run.exists_of_discard ran
    have removes : (Run.removeChild _ e child).Ends False w _ := removeChild_spec D w e child
    obtain ⟨beside, tasks⟩ := (Run.ends_of_eq_ok ran).1 removes
    exact gathers (beside.gathers O.menu tasks)
  | pick index selected =>
    obtain rfl := (Prod.mk.inj ran).2
    have marks := marks_pickOption w e index selected
    exact gathers (marks.beside.gathers O.menu marks.tasks)
  | put o name v =>
    obtain rfl := (Prod.mk.inj ran).2
    exact gathers ((beside_modifyElement w o _).gathers O.menu rfl)
  | change =>
    have changes : (Run.synchronizeValue _ r).Ends False w _ := synchronizeValue_spec D O.menu
    obtain ⟨M, tasks, -⟩ := (Run.ends_of_eq_ok ran).1 changes
    exact ⟨⟨tasks ▸ M, tasks ▸ O.rests⟩, fun stays => absurd trivial stays⟩
  | bind =>
    obtain rfl := (Prod.mk.inj ran).2
    exact gathers O.menu.bindSelect
  | unbind =>
    obtain rfl := (Prod.mk.inj ran).2
    obtain ⟨M, tasks⟩ := O.menu.unbindSelect
    exact ⟨⟨tasks ▸ M, tasks ▸ O.rests⟩, fun stays => absurd trivial stays⟩
  | flush =>
    obtain ⟨n, ran⟩ := Run.exists_of_discard ran
    have flushes : (Run.flushMicrotasks _).Ends True w _ :=
      flush_spec D O.menu O.rests fun _ => trivial
    obtain ⟨-, M, none, rests, heeds⟩ := (Run.ends_of_eq_ok ran).1 flushes
    exact ⟨⟨none ▸ M, rests⟩, fun _ => Exists.imp fun c H => (heeds a c H).1⟩

/-- **What a run keeps.** -/
theorem Orderly.reaches (O : w.Orderly r e) (discreet : host.Discreet)
    (reaches : SelectAct.Reaches host r e w acts w') :
    w'.Orderly r e ∧ ((∀ act ∈ acts, ¬ act.Leaves a) → (∃ c, w.Heeds r a c) →
      ∃ c, w'.Heeds r a c) := by
  induction reaches with
  | refl => exact ⟨O, fun _ => id⟩
  | step _ allowed ran ih =>
    obtain ⟨O', kept⟩ := ih
    obtain ⟨O'', kept'⟩ := O'.step discreet allowed ran
    refine ⟨O'', fun stays H => kept' (stays _ ?_) (kept (fun act m => stays act ?_) H)⟩
    · exact List.mem_append_right _ List.mem_cons_self
    · exact List.mem_append_left _ m

/-- **An array that is assigned is followed.**  Whatever was done before, and whatever is done
afterwards but for changes by the user, other assignments and unbinding: a change of the array and a
flush leave each option of the select selected exactly when the array contains its value. -/
theorem assigned_array_followed {edit : Edit} (opens : w₀.Orderly r e) (discreet : host.Discreet)
    (before : SelectAct.Reaches host r e w₀ acts w₁) (live : w₁.arrays.contains a = true)
    (other : (w₁.selects.get? r).map (·.value) ≠ some (.array a))
    (assigned : Run.writeSelect r (.array a) w₁ = (.ok (), w₂))
    (after : SelectAct.Reaches host r e w₂ acts' w₃) (stays : ∀ act ∈ acts', ¬ act.Leaves a)
    (edited : edit.run (machine host rounds (depth + 2)) a w₃ = (.ok (), w₄))
    (enough : w₄.tasks.microtasks.length < rounds) :
    ∃ w₅, Run.flushMicrotasks (machine host rounds (depth + 2)) w₄ =
      (.ok w₄.tasks.microtasks.length, w₅) ∧ w₅.InStep e a := by
  have D := discreet.machine rounds depth
  obtain ⟨O₁, -⟩ := opens.reaches (a := a) discreet before
  -- the assignment makes the select hear of the array
  obtain ⟨M₂, tasks, heeds⟩ := O₁.menu.writeSelect
    (fun a' same => Value.array.inj same ▸ live) assigned
  obtain ⟨cell, get, -⟩ := Option.map_eq_some_iff.1 O₁.menu.element
  have value : (w₁.selects.get? r).map (·.value) = some cell.value := by rw [get, Option.map_some]
  have differs : cell.value.same (.array a) = false := by
    refine Bool.eq_false_iff.2 fun same => other ?_
    rw [value, Value.eq_array_of_same same]
  obtain ⟨O₃, kept⟩ := Orderly.reaches (a := a) ⟨tasks ▸ M₂, tasks ▸ O₁.rests⟩ discreet after
  obtain ⟨c, H⟩ := kept stays ((heeds _ value).2 differs a rfl)
  -- the change makes a notification wait, and the flush runs it
  have T := edit_spec D O₃.menu edited
  have flushes : (Run.flushMicrotasks (machine host rounds (depth + 2))).Ends False w₄ _ :=
    flush_spec D T.menu (T.flushing.trans O₃.rests) fun few => absurd enough (Nat.not_lt.2 few)
  obtain ⟨_, w₅, flushed, rfl, -, -, -, inStep⟩ := flushes.exists_eq_ok
  exact ⟨w₅, flushed, (inStep a c (T.heeds H)).2 (T.told H)⟩

/-! ### A menu -/

/-- A world in which no array has been listened to and no select has been assigned a value. -/
theorem orderly_of_fresh {cell : SelectCell} (get : w.selects.get? r = some cell)
    (callbacks : cell.callbacks.entries = []) (array : cell.array = none)
    (live : w.elements.contains cell.element = true) (contents : w.contents.size = 0)
    (cached : w.locator.contents = []) (unheard : ∀ a, w.ears a = [])
    (idle : w.tasks.microtasks = []) (rests : w.tasks.flushing = false) :
    w.Orderly r cell.element := by
  have none : ∀ {c oc}, w.contents.get? c = some oc → False := fun get =>
    absurd (Store.index_lt_size_of_get? get) (by omega)
  refine ⟨⟨by rw [get, Option.map_some], live, fun cell' s get' m => ?_, fun cell' s d get' is => ?_,
    fun _ _ _ get => (none get).elim, fun _ _ get => (none get).elim, ?_,
    fun _ _ _ get => (none get).elim, ?_, fun a x m => ?_, fun a => ?_⟩, rests⟩
  · obtain rfl := Option.some.inj (get.symm.trans get')
    rw [Listeners.toList, callbacks] at m
    cases m
  · obtain rfl := Option.some.inj (get.symm.trans get')
    cases array.symm.trans is
  · rw [idle]
    exact fun _ m => absurd m List.not_mem_nil
  · rw [cached]
    exact fun _ m => absurd m List.not_mem_nil
  · rw [unheard] at m
    cases m
  · rw [unheard]
    exact Entries.distinct_nil

/-- A view model with a list, and a select that allows several of its three options. -/
def menu : World Unit :=
  let (list, w) := (World.new .standard ()).newArray [.string "a"]
  let w := ((w.newObject [("items", .array list)]).2.newLevel (.object ⟨0⟩)).2
  let w := (w.newElement "select" false).2.elementSet ⟨0⟩ "multiple" (.bool true)
  let w := (((w.newOption "a").2.newOption "b").2.newOption "c").2
  let w := w.modifyElement ⟨0⟩ fun cell => { cell with children := [⟨1⟩, ⟨2⟩, ⟨3⟩] }
  (w.newBinding ⟨0⟩ "value" (.name "items") .twoWay).2

/-- The scope of the menu. -/
def menuScope : Scope := .root ⟨.object ⟨0⟩, ⟨1⟩⟩

def menuMachine : Env Unit := machine Host.silent 9 9

theorem discreet_silent : (Host.silent : Host η).Discreet := fun _ _ _ w => ⟨w.host, rfl⟩

set_option synthInstance.maxSize 512 in
/-- **A list that was picked is not followed.**  The user picks the second option of the bound menu, so
that a new list becomes the value and is written back.  When something is put into that list later,
nothing is told, and its option is not selected. -/
theorem picked_list_unfollowed :
    (Run.bindTo menuMachine ⟨0⟩ menuScope).Ends False menu fun _ w₁ =>
    (Run.dispatchEvent menuMachine ⟨0⟩ "change").Ends False (w₁.pickOption ⟨0⟩ 1 true) fun _ w₂ =>
    (Run.flushMicrotasks menuMachine).Ends False w₂ fun _ w₃ =>
      w₃.get ⟨0⟩ "items" = .array ⟨1⟩ ∧ w₃.tasks.microtasks = [] ∧
    (Run.pushItem menuMachine ⟨1⟩ (.string "c")).Ends False w₃ fun _ w₄ =>
    (Run.flushMicrotasks menuMachine).Ends False w₄ fun ran w₅ =>
      ran = 0 ∧ w₅.isBound ⟨0⟩ = true ∧ w₅.containsItem ⟨1⟩ (w₅.optionValue ⟨3⟩) = true ∧
        w₅.elementGet ⟨3⟩ "selected" = .bool false := by
  decide +kernel

end World

end ViewBinding
