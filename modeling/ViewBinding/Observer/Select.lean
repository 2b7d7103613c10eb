import ViewBinding.Observer.Subscribe

/-!
# Observer.Select — the value of a select element

The value of a select is what was assigned to it, and its options are kept in step: assigning a
value selects the options that match it, and a change by the user rebuilds the value from the
selected options.  When the value is an array, changes of the array select the options anew.

A select that allows several options has an array or nothing as its value.
-/

namespace ViewBinding

namespace World

variable {η : Type}

/-- Whether an option is selected when a select has this value. -/
def optionMatches (w : World η) (v : Value) (option : Ref .element) : Bool :=
  match v with
  | .undefined | .null => false
  | .array a => w.containsItem a (w.optionValue option)
  | v => v.same (w.optionValue option)

/-- Selects the options that match the value of a select. -/
def synchronizeOptions (w : World η) (r : Ref .select) : World η :=
  match w.selects.get? r with
  | none => w
  | some cell => w.markOptions (w.options cell.element).reverse (w.optionMatches cell.value)

/-- The value that the selected options of an element make up. -/
def selectedValue (w : World η) (e : Ref .element) : Value × World η :=
  let values := (w.selectedOptions e).map w.optionValue
  if w.isMultiple e then
    let (a, w) := w.newArray values
    (.array a, w)
  else (values.head?.getD .null, w)

/-- Starts to follow the changes of an array that is the value of a select. -/
def followArray (w : World η) (r : Ref .select) : Value → Option (Ref .subscription) × World η
  | .array a =>
    let (c, w) := w.contentsObserver a
    let (s, w) := w.subscribeContents c (.options r)
    (some s, w)
  | _ => (none, w)

/-- Starts to select the options anew when options come or go. -/
def bindSelect (w : World η) (r : Ref .select) : World η :=
  match w.selects.get? r with
  | none => w
  | some cell =>
    if cell.childList.isSome || !w.elements.contains cell.element then w
    else
      let (token, w) := w.listenChildren cell.element (.select r)
      w.modifySelect r fun cell => { cell with childList := some token }

/-- Stops that, and stops to follow the array. -/
def unbindSelect (w : World η) (r : Ref .select) : World η :=
  match w.selects.get? r with
  | none => w
  | some cell =>
    let w := w.modifySelect r fun cell => { cell with childList := none, array := none }
    let w :=
      match cell.childList with
      | some token => w.unlistenChildren cell.element token
      | none => w
    w.disposeOption cell.array

end World

namespace Run

variable {η : Type}

/-- Assigns the value of a select. -/
def writeSelect (r : Ref .select) (v : Value) : Run η Unit := do
  match ← read fun w => w.selects.get? r with
  | none => pure ()
  | some cell =>
    if !(← read fun w => w.elements.contains cell.element) then pure ()
    else if !v.isNullish && (← read fun w => w.isMultiple cell.element) && !v matches .array _ then
      fail .invalidBindingValue
    else if cell.value.same v then pure ()
    else
      modify fun w =>
        (w.modifySelect r fun cell => { cell with array := none }).disposeOption cell.array
      let array ← update fun w => w.followArray r v
      modify fun w =>
        (w.modifySelect r fun cell => { cell with array, value := v }).synchronizeOptions r

/-- Tells the subscribers of a select about its value. -/
def tellSelect (env : Env η) (r : Ref .select) : Run η Unit := do
  match ← read fun w => w.selects.get? r with
  | none => pure ()
  | some cell => env.notify cell.callbacks cell.value cell.old

/-- Rebuilds the value of a select from the selected options and tells the subscribers. -/
def synchronizeValue (env : Env η) (r : Ref .select) : Run η Unit := do
  match ← read fun w => w.selects.get? r with
  | none => pure ()
  | some cell =>
    if ← read fun w => w.elements.contains cell.element then
      let value ← update fun w => w.selectedValue cell.element
      modify fun w => w.modifySelect r fun cell => { cell with value, old := cell.value }
      tellSelect env r
    else pure ()

end Run

end ViewBinding
