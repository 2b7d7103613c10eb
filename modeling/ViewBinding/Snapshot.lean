import ViewBinding.Objects

/-!
# Snapshot — what a value looks like at one moment

A snapshot is a value with everything that can be reached from it.  Where an array or object
contains itself, the snapshot tells how many levels further out it is.
-/

namespace ViewBinding

/-- A value at one moment. -/
inductive Snapshot where
  | undefined
  | null
  | bool (value : Bool)
  | number (value : Float)
  | string (value : String)
  | array (items : List Snapshot)
  | object (entries : List (String × Snapshot))
  | function (name : String)
  /-- The container this many levels further out; the direct one is one level out. -/
  | cycle (levels : Nat)
deriving Inhabited, BEq

namespace World

variable {η : Type}

/-- A snapshot of a value inside these containers, the direct one first, following containers at
most `depth` deep. -/
def snapshotWithin (w : World η) : Nat → List Value → Value → Snapshot
  | _, _, .undefined => .undefined
  | _, _, .null => .null
  | _, _, .bool b => .bool b
  | _, _, .number x => .number x
  | _, _, .string s => .string s
  | _, _, .function f => .function (w.functionName f)
  | 0, _, .array _ => .undefined
  | 0, _, .object _ => .undefined
  | depth + 1, around, .array a =>
    match around.findIdx? (· = .array a) with
    | some level => .cycle (level + 1)
    | none => .array ((w.items a).map fun item => snapshotWithin w depth (.array a :: around) item)
  | depth + 1, around, .object o =>
    match around.findIdx? (· = .object o) with
    | some level => .cycle (level + 1)
    | none =>
      .object ((w.names o).map fun name =>
        (name, snapshotWithin w depth (.object o :: around) (w.get o name)))

/-- A snapshot of a value. -/
def snapshot (w : World η) (v : Value) : Snapshot :=
  w.snapshotWithin (w.arrays.size + w.objects.size + 1) [] v

end World

end ViewBinding
