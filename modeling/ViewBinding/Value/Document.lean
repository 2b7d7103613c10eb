import ViewBinding.Json.Basic
import ViewBinding.Numeric.Binary64
import ViewBinding.Objects

/-!
# Value.Document — values as JSON documents

A document becomes a value: its arrays and objects become new ones, and members of an object are set
in ascending order of their names, the last one of each name.

A value becomes a document: functions and `undefined` become `null`, whole numbers below `2 ^ 63`
lose their point, and members are in ascending order.  A value that contains itself has no document.
-/

namespace ViewBinding

namespace World

variable {η : Type}

mutual

/-- Makes the value that a document describes. -/
def ofJson (w : World η) : Json → Value × World η
  | .null => (.null, w)
  | .bool b => (.bool b, w)
  | .whole n => (.number (Float.ofInt n), w)
  | .real x => (.number x, w)
  | .string s => (.string s, w)
  | .array items =>
    let (values, w) := ofJsonItems w items
    (.array w.arrays.next, { w with arrays := w.arrays.alloc { items := values.toArray } })
  | .object members =>
    let (entries, w) := ofJsonMembers w members
    let (o, w) := w.newObject (Json.sortMembers entries)
    (.object o, w)

/-- Makes the values that documents describe. -/
def ofJsonItems (w : World η) : List Json → List Value × World η
  | [] => ([], w)
  | item :: rest =>
    let (v, w) := ofJson w item
    let (vs, w) := ofJsonItems w rest
    (v :: vs, w)

/-- Makes the values that the members of an object describe. -/
def ofJsonMembers (w : World η) : List (String × Json) → List (String × Value) × World η
  | [] => ([], w)
  | (name, item) :: rest =>
    let (v, w) := ofJson w item
    let (entries, w) := ofJsonMembers w rest
    ((name, v) :: entries, w)

end

end World

/-- The document of a number. -/
def Json.ofNumber (x : Float) : Json :=
  match Number.truncate? x with
  | some n => if Number.isWhole x && n.natAbs < Nat.pow 2 63 then .whole n else .real x
  | none => .null

namespace World

variable {η : Type}

/-- The document of a value, following arrays and objects at most `depth` deep. -/
def toJsonWithin (w : World η) : Nat → Value → Option Json
  | _, .undefined => some .null
  | _, .null => some .null
  | _, .function _ => some .null
  | _, .bool b => some (.bool b)
  | _, .number x => some (Json.ofNumber x)
  | _, .string s => some (.string s)
  | 0, .array _ => none
  | 0, .object _ => none
  | depth + 1, .array a => do
    some (.array (← (w.items a).mapM fun item => toJsonWithin w depth item))
  | depth + 1, .object o => do
    let members ← (w.names o).mapM fun name => do
      some (name, ← toJsonWithin w depth (w.get o name))
    some (.object (Json.sortMembers members))

/-- The document of a value. -/
def toJson? (w : World η) (v : Value) : Option Json :=
  w.toJsonWithin (w.arrays.size + w.objects.size + 1) v

end World

end ViewBinding
