import ViewBinding.Observer.Write

/-!
# Observer.Tell — from changes to notifications

How what happened to objects, arrays and elements reaches the subscribers of their observers.

* A batch of change records tells each property once, with its present value as the new value and
  the old value of its last record.
* A trapped property tells the value from before the first write of a tick as old.
* The contents of an array tell the splices collected since the last notification.
* Polled properties tell when their value differs from the one last seen.
-/

namespace ViewBinding

namespace Run

variable {η : Type}

/-- Tells the subscribers of a property. -/
def tellProperty (env : Env η) (r : Ref .property) (new old : Value) : Run η Unit := do
  match ← read fun w => w.properties.get? r with
  | some cell => env.notify cell.callbacks new old
  | none => pure ()

/-- Tells those parked at a placeholder, after moving them to the property's observer. -/
def tellPlaceholder (env : Env η) (r : Ref .placeholder) (new old : Value) : Run η Unit := do
  modify fun w => w.resolvePlaceholder r
  match ← read fun w => w.placeholders.get? r with
  | some cell => env.announceAll (cell.parked.map (·.subscriber)) new old
  | none => pure ()

/-- The last record of each property, the latest first. -/
def latestRecords (records : List ChangeRecord) : List ChangeRecord :=
  records.reverse.foldl
    (fun latest record =>
      if latest.any (·.name = record.name) then latest else latest ++ [record]) []

/-- A dispatcher hands a batch of records to its observers. -/
def dispatchRecords (env : Env η) (d : Ref .dispatcher) (records : List ChangeRecord) :
    Run η Unit := do
  match ← read fun w => w.dispatchers.get? d with
  | none => pure ()
  | some cell =>
    if ← read fun w => w.objects.contains cell.object then
      let targets := (latestRecords records).filterMap fun record =>
        (Entries.get? record.name cell.observers).map fun leaf => (leaf, record)
      forEach targets fun (leaf, record) => do
        let new ← read fun w => w.get cell.object record.name
        match leaf with
        | .property r => tellProperty env r new record.old
        | .placeholder r => tellPlaceholder env r new record.old
        | _ => pure ()
    else pure ()

/-- Delivers the pending change records of an object to those who listen. -/
def deliver (env : Env η) (o : Ref .object) : Run η Unit := do
  let (records, listeners) ← update fun w => w.takeRecords o
  if records.isEmpty then pure ()
  else
    forEach listeners fun
      | .dispatcher d => dispatchRecords env d records
      | .hook h => env.fire h (.records records)

/-- Tells the subscribers of a trapped property. -/
def tellSetter (env : Env η) (r : Ref .setter) : Run η Unit := do
  match ← read fun w => w.setters.get? r with
  | none => pure ()
  | some cell =>
    modify fun w => w.modifySetter r fun cell => { cell with queued := false }
    env.notify cell.callbacks cell.current cell.old

/-- Tells the subscribers of the contents of an array. -/
def tellContents (env : Env η) (r : Ref .contents) : Run η Unit := do
  match ← read fun w => w.contents.get? r with
  | none => pure ()
  | some cell =>
    modify fun w => w.modifyContents r fun cell =>
      { cell with queued := false, last := cell.pending, pending := [] }
    let value ← read fun w => w.leafValue (.contents r)
    env.notify cell.callbacks value value

/-- Tells the subscribers of a polled property about its value and the one last seen. -/
def tellPoll (env : Env η) (r : Ref .poll) : Run η Unit := do
  match ← read fun w => w.polls.get? r with
  | none => pure ()
  | some cell =>
    let new ← read fun w => w.leafValue (.poll r)
    modify fun w => w.modifyPoll r fun cell => { cell with old := some new }
    env.notify cell.callbacks new (cell.old.getD .undefined)

end Run

namespace World

variable {η : Type}

/-- Whether a polled property has another value than the one last seen. -/
def isDirty (w : World η) (r : Ref .poll) : Bool :=
  match (w.polls.get? r).bind (·.old) with
  | some old => !old.same (w.leafValue (.poll r))
  | none => false

end World

namespace Run

variable {η : Type}

/-- Looks at every tracked property and tells the subscribers of those that changed. -/
def poll (env : Env η) : Run η Unit := do
  modify fun w =>
    { w with polling :=
      { scheduled := false, tracked := w.polling.tracked.filter fun r => w.polls.contains r } }
  let tracked ← read fun w => w.polling.tracked
  forEach tracked fun r => do
    if ← read fun w => w.isDirty r then tellPoll env r else pure ()
  if ← read fun w => w.polling.tracked.isEmpty then pure ()
  else modify fun w => w.schedulePolling

/-! ### Element events -/

/-- Runs the listeners for an event of an element, the oldest first. -/
def dispatchEvent (env : Env η) (e : Ref .element) (event : String) : Run η Unit := do
  let listeners ← read fun w => ((w.elements.get? e).map (·.eventListeners.toList)).getD []
  forEach (listeners.filter (·.1 = event)) fun
    | (_, .property r) => tellElement env r
    | (_, .select r) => synchronizeValue env r
    | (_, .hook h) => env.fire h (.event event)

/-- Tells that the children of an element changed. -/
def tellChildren (env : Env η) (e : Ref .element) : Run η Unit := do
  let listeners ← read fun w => ((w.elements.get? e).map (·.childListeners.toList)).getD []
  forEach listeners fun
    | .select r => modify fun w => w.synchronizeOptions r
    | .hook h => env.fire h .childList

/-- Appends a child to an element. -/
def appendChild (env : Env η) (e child : Ref .element) : Run η Unit := do
  modify fun w => w.modifyElement e fun cell => { cell with children := cell.children ++ [child] }
  tellChildren env e

/-- Removes a child of an element, and tells whether it was one. -/
def removeChild (env : Env η) (e child : Ref .element) : Run η Bool := do
  let found ← read fun w => (w.children e).contains child
  if found then
    modify fun w => w.modifyElement e fun cell =>
      { cell with children := cell.children.filter (· ≠ child) }
    tellChildren env e
  else pure ()
  pure found

end Run

end ViewBinding
