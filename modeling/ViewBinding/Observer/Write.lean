import ViewBinding.Observer.Select
import ViewBinding.Expr.Printer

/-!
# Observer.Write — writing through observers

Writing through an observer changes the thing it watches.  A property of an element that events tell
about notifies its subscribers at once; other observers notify when they see the change.
-/

namespace ViewBinding

namespace Run

variable {η : Type}

/-- The text of a style: an object becomes its properties, nothing becomes empty. -/
def styleText (v : Value) : Run η String := do
  match v with
  | .object o =>
    let names ← read fun w => w.names o
    names.foldlM (fun text name => do
      let value ← display (← read fun w => w.get o name)
      pure (text ++ name ++ ": " ++ value ++ "; ")) ""
  | v => if v.isNullish then pure "" else display v

/-- Writes an attribute; a nullish value removes it. -/
def writeAttribute (e : Ref .element) (space : Option String) (name : String) (v : Value) :
    Run η Unit := do
  if v.isNullish then modify fun w => w.removeAttribute e space name
  else
    let text ← display v
    modify fun w => w.setAttribute e space name text

/-- Tells the subscribers of an element property about its value and the one last seen. -/
def tellElement (env : Env η) (r : Ref .elementProperty) : Run η Unit := do
  match ← read fun w => w.elementProperties.get? r with
  | none => pure ()
  | some cell =>
    let new ← read fun w => w.leafValue (.element r)
    modify fun w => w.modifyElementProperty r fun cell => { cell with old := new }
    env.notify cell.callbacks new cell.old

/-- Writes a property of an element. -/
def writeElement (env : Env η) (r : Ref .elementProperty) (v : Value) : Run η Unit := do
  match ← read fun w => w.elementProperties.get? r with
  | none => pure ()
  | some cell =>
    if ← read fun w => w.elements.contains cell.element then
      match cell.access with
      | .link name => writeAttribute cell.element (some linkNamespace) name v
      | .attribute => writeAttribute cell.element none cell.property v
      | .style =>
        let text ← styleText v
        modify fun w => w.setCss cell.element text
      | .property =>
        modify fun w => w.elementSet cell.element cell.property v
        if cell.handled then tellElement env r else pure ()
    else pure ()

/-- Writes a property of an object, unless it is gone. -/
def writeObject (o : Ref .object) (property : String) (v : Value) : Run η Unit :=
  modify fun w => if w.objects.contains o then w.set o property v else w

/-- Writes through a leaf. -/
def writeLeaf (env : Env η) (leaf : Leaf) (v : Value) : Run η Unit := do
  match leaf with
  | .setter r =>
    match ← read fun w => w.setters.get? r with
    | some cell =>
      if cell.observing then modify fun w => w.writeTrap r v
      else writeObject cell.object cell.property v
    | none => pure ()
  | .property r =>
    match ← read fun w => w.properties.get? r with
    | some cell => writeObject cell.object cell.property v
    | none => pure ()
  | .placeholder r =>
    match ← read fun w => w.placeholders.get? r with
    | some cell => writeObject cell.object cell.property v
    | none => pure ()
  | .element r => writeElement env r v
  | .select r => writeSelect r v
  | .contents _ => fail (.notAssignable "array contents")
  | .poll r =>
    match ← read fun w => w.polls.get? r with
    | some cell => writeObject cell.object cell.property v
    | none => pure ()

/-- Writes through an observer.  A path writes the member of its present object; a composite cannot
be written. -/
def writeObserver (env : Env η) (observer : Observer) (v : Value) : Run η Unit := do
  match observer with
  | .leaf l => writeLeaf env l v
  | .path r =>
    match ← read fun w => (w.paths.get? r).bind (·.right) with
    | some right => writeLeaf env right v
    | none => pure ()
  | .composite r =>
    match ← read fun w => w.composites.get? r with
    | some cell => fail (.notAssignable cell.expression.text)
    | none => pure ()

end Run

end ViewBinding
