import ViewBinding.Coercion
import ViewBinding.Entries

/-!
# Objects — properties and change records

An object has properties in the order of their making.  While somebody listens, every change of a
property is recorded; the records of one batch are delivered together by a microtask that the first
record queues.

* `World.get`, `World.has` and `World.names` read an object.
* `World.set` and `World.remove` change it, unless it is frozen.  Writing the value that is there
  already changes nothing and records nothing.
* `World.writeTrap` is what happens to a write to a trapped property.
-/

namespace ViewBinding

namespace World

variable {η : Type}

/-! ### Reading -/

/-- The value that a slot holds. -/
def slotValue (w : World η) : Slot → Value
  | .data v => v
  | .trap s => ((w.setters.get? s).map (·.current)).getD .undefined
  | .doubled v => v

/-- The slot of a property. -/
def slot? (w : World η) (o : Ref .object) (name : String) : Option Slot := do
  Entries.get? name (← w.objects.get? o).properties

/-- The value of a property; `undefined` when there is none. -/
def get (w : World η) (o : Ref .object) (name : String) : Value :=
  match w.slot? o name with
  | some slot => w.slotValue slot
  | none => .undefined

/-- Whether an object has a property. -/
def has (w : World η) (o : Ref .object) (name : String) : Bool := (w.slot? o name).isSome

/-- The names of the properties, in the order of their making. -/
def names (w : World η) (o : Ref .object) : List String :=
  ((w.objects.get? o).map fun cell => Entries.keys cell.properties).getD []

/-- Whether an object is frozen. -/
def isFrozen (w : World η) (o : Ref .object) : Bool :=
  ((w.objects.get? o).map (·.frozen)).getD false

/-! ### Writing -/

/-- Makes a new object with these properties. -/
def newObject (w : World η) (properties : List (String × Value)) : Ref .object × World η :=
  let slots := properties.foldl (fun slots (name, v) => Entries.put name (.data v) slots) []
  (w.objects.next, { w with objects := w.objects.alloc { properties := slots } })

/-- Puts a slot in place of a property. -/
def putSlot (w : World η) (o : Ref .object) (name : String) (slot : Slot) : World η :=
  w.modifyObject o fun cell => { cell with properties := Entries.put name slot cell.properties }

/-- Records a change if anybody listens, and queues a delivery unless one is queued. -/
def record (w : World η) (o : Ref .object) (change : ChangeRecord) : World η :=
  match w.objects.get? o with
  | none => w
  | some cell =>
    if cell.listeners.isEmpty then w
    else
      let w := w.modifyObject o fun cell =>
        { cell with pending := cell.pending ++ [change], scheduled := true }
      if cell.scheduled then w else w.queueMicrotask (.deliver o)

/-- A write to a trapped property.  A write that changes the value queues a notification, unless one
is queued already; the notification will call the value from before the first such write old. -/
def writeTrap (w : World η) (s : Ref .setter) (v : Value) : World η :=
  match w.setters.get? s with
  | none => w
  | some cell =>
    if cell.current.same v then w
    else if cell.queued then w.modifySetter s fun cell => { cell with current := v }
    else
      (w.modifySetter s fun cell =>
        { cell with current := v, old := cell.current, queued := true }).queueMicrotask (.setter s)

/-- Writes a property. -/
def set (w : World η) (o : Ref .object) (name : String) (v : Value) : World η :=
  if w.isFrozen o then w
  else
    match w.slot? o name with
    | some (.trap s) => w.writeTrap s v
    | some (.doubled _) => w.putSlot o name (.doubled (.number (v.toNumber * 2.0)))
    | some (.data old) =>
      if old.same v then w
      else (w.putSlot o name (.data v)).record o ⟨name, .update, old⟩
    | none => (w.putSlot o name (.data v)).record o ⟨name, .add, .undefined⟩

/-- Removes a property, and tells whether it was there. -/
def remove (w : World η) (o : Ref .object) (name : String) : Bool × World η :=
  if w.isFrozen o then (false, w)
  else
    match w.slot? o name with
    | none => (false, w)
    | some slot =>
      let old := w.slotValue slot
      let w := w.modifyObject o fun cell =>
        { cell with properties := Entries.erase name cell.properties }
      (true, w.record o ⟨name, .delete, old⟩)

/-- Prevents all further changes of an object. -/
def freeze (w : World η) (o : Ref .object) : World η :=
  w.modifyObject o fun cell => { cell with frozen := true }

/-- Puts another kind of slot in place of a property.  A frozen object refuses. -/
def defineSlot (w : World η) (o : Ref .object) (name : String) (slot : Slot) : Bool × World η :=
  if w.isFrozen o then (false, w) else (true, w.putSlot o name slot)

/-! ### Listening -/

/-- Registers a listener for the change records of an object. -/
def listenRecords (w : World η) (o : Ref .object) (listener : RecordListener) : Token × World η :=
  let (token, w) := w.freshToken
  (token, w.modifyObject o fun cell => { cell with listeners := cell.listeners.add token listener })

/-- Ends a registration.  Records that nobody is left to receive are dropped. -/
def unlistenRecords (w : World η) (o : Ref .object) (token : Token) : World η :=
  w.modifyObject o fun cell =>
    let listeners := cell.listeners.remove token
    { cell with listeners, pending := if listeners.isEmpty then [] else cell.pending }

/-- Takes the pending records of an object, with those who listen now. -/
def takeRecords (w : World η) (o : Ref .object) :
    (List ChangeRecord × List RecordListener) × World η :=
  match w.objects.get? o with
  | none => (([], []), w)
  | some cell =>
    ((cell.pending, cell.listeners.toList),
      w.modifyObject o fun cell => { cell with pending := [], scheduled := false })

end World

end ViewBinding
