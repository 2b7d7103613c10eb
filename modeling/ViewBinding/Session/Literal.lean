import ViewBinding.Session.State

/-!
# Session.Literal — from descriptions to values

Every description of an array, an object or a function makes a new one.
-/

namespace ViewBinding.Session

/-- Puts a value inside so many arrays of one item. -/
def nest : Nat → Value → Act Value
  | 0, v => pure v
  | depth + 1, v => do
    let v ← nest depth v
    Run.update fun w =>
      let (a, w) := w.newArray [v]
      (.array a, w)

namespace Literal

mutual

/-- Makes the value that is described. -/
def make : Literal Step → Act Value
  | undefined => pure .undefined
  | null => pure .null
  | bool b => pure (.bool b)
  | number x => pure (.number x)
  | string s => pure (.string s)
  | array items => do
    let values ← makeList items
    Run.update fun w =>
      let (a, w) := w.newArray values
      (.array a, w)
  | object entries => do
    let properties ← makeEntries entries
    Run.update fun w =>
      let (o, w) := w.newObject properties
      (.object o, w)
  | function behaviour name => Act.newFunction behaviour name
  | register name => Act.value name
  | nested depth value => do nest depth (← make value)
  | repeated text count => pure (.string (String.join (List.replicate count text)))

/-- Makes the values that are described. -/
def makeList : List (Literal Step) → Act (List Value)
  | [] => pure []
  | item :: rest => do
    let v ← make item
    let vs ← makeList rest
    pure (v :: vs)

/-- Makes the properties that are described. -/
def makeEntries : List (String × Literal Step) → Act (List (String × Value))
  | [] => pure []
  | (name, item) :: rest => do
    let v ← make item
    let properties ← makeEntries rest
    pure ((name, v) :: properties)

end

end Literal

end ViewBinding.Session
