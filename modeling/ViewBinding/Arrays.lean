import ViewBinding.Objects

/-!
# Arrays — lists that tell about their changes

Every change of an array is told at once to those who listen, as a splice: where it happened, what
was taken out, and how many items were put in.

`World.spliceItems` and the like are the changes alone; `Run.splice` and the like also tell about
them.  The observer of the contents of an array only collects splices, so nothing but a hook of the
host can react to one before the change is complete.
-/

namespace ViewBinding

/-- An array has fewer items than this. -/
def maxLength : Nat := Nat.pow 2 32 - 1

namespace World

variable {η : Type}

/-- Makes a new array with these items. -/
def newArray (w : World η) (items : List Value) : Ref .array × World η :=
  (w.arrays.next, { w with arrays := w.arrays.alloc { items := items.toArray } })

/-- The number of items. -/
def length (w : World η) (a : Ref .array) : Nat :=
  ((w.arrays.get? a).map (·.items.size)).getD 0

/-- The item at an index; `undefined` past the end. -/
def item (w : World η) (a : Ref .array) (index : Nat) : Value :=
  match w.arrays.get? a with
  | some cell => cell.items[index]?.getD .undefined
  | none => .undefined

/-- The index of the first item that is strictly equal to a value. -/
def indexOf? (w : World η) (a : Ref .array) (v : Value) : Option Nat :=
  (w.items a).findIdx? (·.same v)

/-- Whether some item is strictly equal to a value. -/
def containsItem (w : World η) (a : Ref .array) (v : Value) : Bool := (w.indexOf? a v).isSome

/-- Puts `added` in place of `count` items from `index` on, both cut off at the end of the array. -/
def spliceItems (w : World η) (a : Ref .array) (index count : Nat) (added : List Value) :
    Splice × World η :=
  let items := w.items a
  let start := min index items.length
  let stop := min (start + count) items.length
  let rest := items.take start ++ added ++ items.drop stop
  (⟨start, (items.drop start).take (stop - start), added.length⟩,
    w.modifyArray a fun cell => { cell with items := rest.toArray })

/-- Puts a value at an index.  An array that is too short grows, with `undefined` in between. -/
def setItem (w : World η) (a : Ref .array) (index : Nat) (v : Value) : Splice × World η :=
  match w.arrays.get? a with
  | none => (⟨index, [], 1⟩, w)
  | some cell =>
    let size := cell.items.size
    if index < size then
      (⟨index, [cell.items[index]?.getD .undefined], 1⟩,
        w.modifyArray a fun cell => { cell with items := cell.items.setIfInBounds index v })
    else
      let added := Array.replicate (index - size) .undefined
      (⟨size, [], index + 1 - size⟩,
        w.modifyArray a fun cell => { cell with items := (cell.items ++ added).push v })

/-- Puts a value at the end. -/
def pushItem (w : World η) (a : Ref .array) (v : Value) : Splice × World η :=
  (⟨w.length a, [], 1⟩, w.modifyArray a fun cell => { cell with items := cell.items.push v })

/-- Registers a listener for the changes of an array. -/
def listenSplices (w : World η) (a : Ref .array) (listener : SpliceListener) : Token × World η :=
  let (token, w) := w.freshToken
  (token, w.modifyArray a fun cell => { cell with listeners := cell.listeners.add token listener })

/-- Ends a registration. -/
def unlistenSplices (w : World η) (a : Ref .array) (token : Token) : World η :=
  w.modifyArray a fun cell => { cell with listeners := cell.listeners.remove token }

/-- An observer of contents collects a splice, and queues a notification unless one is queued. -/
def collectSplice (w : World η) (c : Ref .contents) (splice : Splice) : World η :=
  match w.contents.get? c with
  | none => w
  | some cell =>
    let w := w.modifyContents c fun cell =>
      { cell with pending := cell.pending ++ [splice], queued := true }
    if cell.queued then w else w.queueMicrotask (.contents c)

end World

namespace Run

variable {η : Type}

/-- Tells those who listen to an array about a splice, the oldest first. -/
def tellSplice (env : Env η) (a : Ref .array) (splice : Splice) : Run η Unit := do
  let listeners ← read fun w => ((w.arrays.get? a).map (·.listeners.toList)).getD []
  forEach listeners fun
    | .contents c => modify (·.collectSplice c splice)
    | .hook h => env.fire h (.spliced splice)

/-- Changes an array and tells about it. -/
def changeArray (env : Env η) (a : Ref .array) (change : World η → Splice × World η) :
    Run η Splice := do
  let splice ← update change
  tellSplice env a splice
  pure splice

/-- Puts a value at an index, unless the array would grow too long. -/
def setItem (env : Env η) (a : Ref .array) (index : Nat) (v : Value) : Run η Unit :=
  if maxLength ≤ index then fail .invalidArrayLength
  else do discard (changeArray env a fun w => w.setItem a index v)

/-- Puts a value at the end. -/
def pushItem (env : Env η) (a : Ref .array) (v : Value) : Run η Unit := do
  discard (changeArray env a fun w => w.pushItem a v)

/-- Puts `added` in place of `count` items from `index` on, and gives the items taken out. -/
def splice (env : Env η) (a : Ref .array) (index count : Nat) (added : List Value) :
    Run η (List Value) := do
  let length ← read fun w => w.length a
  if Number.indexBound ≤ min index length + count then breakOff
  else do
    let splice ← changeArray env a fun w => w.spliceItems a index count added
    pure splice.removed

/-- Replaces all items. -/
def replaceItems (env : Env η) (a : Ref .array) (items : List Value) : Run η Unit := do
  let length ← read fun w => w.length a
  discard (splice env a 0 length items)

/-- Takes all items out. -/
def clearItems (env : Env η) (a : Ref .array) : Run η Unit := replaceItems env a []

end Run

end ViewBinding
