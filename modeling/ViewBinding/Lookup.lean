import ViewBinding.Arrays

/-!
# Lookup — names in scopes, members of values

A name belongs to the first level, from the innermost outwards, whose locals or whose context have
it; within a level the locals come first.  A name that no level has belongs to the scope's own
context, or to its locals when there is no context.

A member of an object is its property.  Arrays have a `length` and their indices as members, texts
have a `length`, and everything else has nothing.
-/

namespace ViewBinding

namespace World

variable {η : Type}

/-- The owner of a name at one level, if the level has it. -/
def levelOwner? (w : World η) (name : String) (level : Level) : Option Value :=
  if w.has level.locals name then some (.object level.locals)
  else
    match level.context with
    | .object o => if w.has o name then some level.context else none
    | _ => none

/-- The owner of a name in a scope. -/
def ownerOf (w : World η) (scope : Scope) (name : String) : Value :=
  match scope.levels.findSome? (w.levelOwner? name) with
  | some owner => owner
  | none => if scope.context.isNullish then .object scope.inner.locals else scope.context

/-- A member of a value. -/
def member (w : World η) (v : Value) (name : String) : Value :=
  match v with
  | .object o => w.get o name
  | .array a =>
    if name = "length" then .number (Float.ofNat (w.length a))
    else
      match Number.parseIndex? name with
      | some index => w.item a index
      | none => .undefined
  | .string s => if name = "length" then .number (Float.ofNat s.length) else .undefined
  | _ => .undefined

/-- The value of a name in a scope. -/
def lookup (w : World η) (scope : Scope) (name : String) : Value :=
  w.member (w.ownerOf scope name) name

/-- Makes a level with a context and fresh locals. -/
def newLevel (w : World η) (context : Value) : Level × World η :=
  let (locals, w) := w.newObject []
  (⟨context, locals⟩, w)

end World

/-- The index that a text starts with, after blanks.  Runs of digits that are too long for an index
denote the largest one. -/
def leadingIndex? (text : String) : Option Nat :=
  match Number.leadingDigits (Text.trimStart text.toList) with
  | ([], _) => none
  | (digits, _) => some (min (Number.ofDigits 0 digits) (Number.indexBound - 1))

namespace Run

variable {η : Type}

/-- The index that a key denotes: the whole part of a number that is not negative, or the index that
the text of another value starts with. -/
def indexOfKey? (key : Value) : Run η (Option Nat) :=
  match key with
  | .number x =>
    pure (if x.isFinite && x ≥ 0.0 then
      some (min (Binary64.ofFloat x).floorMagnitude (Number.indexBound - 1)) else none)
  | v => do pure (leadingIndex? (← display v))

/-- What a key of a value holds. -/
def readKey (v key : Value) : Run η Value := do
  match v with
  | .array a =>
    match ← indexOfKey? key with
    | some index => read fun w => w.item a index
    | none => pure .undefined
  | .undefined | .null => fail .nullObjectAccess
  | v =>
    let name ← display key
    read fun w => w.member v name

/-- Writes a key of a value.  Keys of an array that are no indices are ignored, and so are all keys
of a primitive. -/
def writeKey (env : Env η) (v key new : Value) : Run η Unit := do
  match v with
  | .array a =>
    match ← indexOfKey? key with
    | some index => setItem env a index new
    | none => pure ()
  | .object o =>
    let name ← display key
    modify fun w => w.set o name new
  | .undefined | .null => fail .nullObjectAccess
  | _ => pure ()

end Run

end ViewBinding
