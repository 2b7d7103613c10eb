import ViewBinding.Entries
import ViewBinding.Run

/-!
# Elements — the view

An element has properties, attributes, an inline style, children and listeners.  This module is its
state; what happens when an element tells about an event is in `ViewBinding.Observer.Tell`.
-/

namespace ViewBinding

/-- The namespace of links. -/
def linkNamespace : String := "http://www.w3.org/1999/xlink"

namespace World

variable {η : Type}

/-- Makes a new element. -/
def newElement (w : World η) (tag : String) (svg : Bool) : Ref .element × World η :=
  (w.elements.next, { w with elements := w.elements.alloc { tag := tag.toLower, svg } })

/-- The value of an element property; `undefined` when there is none. -/
def elementGet (w : World η) (e : Ref .element) (name : String) : Value :=
  ((w.elements.get? e).bind fun cell => Entries.get? name cell.properties).getD .undefined

/-- Whether an element has a property. -/
def elementHas (w : World η) (e : Ref .element) (name : String) : Bool :=
  ((w.elements.get? e).map fun cell => Entries.has name cell.properties).getD false

/-- Writes an element property.  Nobody is told. -/
def elementSet (w : World η) (e : Ref .element) (name : String) (v : Value) : World η :=
  w.modifyElement e fun cell => { cell with properties := Entries.put name v cell.properties }

/-- Makes a new option with a value of its own. -/
def newOption (w : World η) (value : String) : Ref .element × World η :=
  let (e, w) := w.newElement "option" false
  (e, (w.elementSet e "value" (.string value)).elementSet e "selected" (.bool false))

/-- The value of an attribute; `null` when there is none. -/
def attributeOf (w : World η) (e : Ref .element) (space : Option String) (name : String) : Value :=
  match (w.elements.get? e).bind fun cell => Entries.get? (space, name) cell.attributes with
  | some text => .string text
  | none => .null

/-- Writes an attribute. -/
def setAttribute (w : World η) (e : Ref .element) (space : Option String) (name text : String) :
    World η :=
  w.modifyElement e fun cell =>
    { cell with attributes := Entries.put (space, name) text cell.attributes }

/-- Removes an attribute. -/
def removeAttribute (w : World η) (e : Ref .element) (space : Option String) (name : String) :
    World η :=
  w.modifyElement e fun cell =>
    { cell with attributes := Entries.erase (space, name) cell.attributes }

/-- The text of the inline style. -/
def css (w : World η) (e : Ref .element) : String := ((w.elements.get? e).map (·.css)).getD ""

/-- Writes the text of the inline style. -/
def setCss (w : World η) (e : Ref .element) (text : String) : World η :=
  w.modifyElement e fun cell => { cell with css := text }

/-- The children of an element. -/
def children (w : World η) (e : Ref .element) : List (Ref .element) :=
  ((w.elements.get? e).map (·.children)).getD []

/-- The tag of an element, in lower case. -/
def tag (w : World η) (e : Ref .element) : String := ((w.elements.get? e).map (·.tag)).getD ""

/-- Whether an element is part of a drawing. -/
def isSvg (w : World η) (e : Ref .element) : Bool := ((w.elements.get? e).map (·.svg)).getD false

/-- Whether an element is a select. -/
def isSelect (w : World η) (e : Ref .element) : Bool := w.tag e == "select"

/-- Whether several options of a select may be selected. -/
def isMultiple (w : World η) (e : Ref .element) : Bool := (w.elementGet e "multiple").isTruthy

/-- The children that are options. -/
def options (w : World η) (e : Ref .element) : List (Ref .element) :=
  (w.children e).filter fun child => w.tag child == "option"

/-- The options that are selected. -/
def selectedOptions (w : World η) (e : Ref .element) : List (Ref .element) :=
  (w.options e).filter fun option => (w.elementGet option "selected").isTruthy

/-- The value of an option: its model, or else its own value. -/
def optionValue (w : World η) (option : Ref .element) : Value :=
  if w.elementHas option "model" then w.elementGet option "model"
  else w.elementGet option "value"

/-- Marks options as selected or not. -/
def markOptions (w : World η) (options : List (Ref .element)) (selected : Ref .element → Bool) :
    World η :=
  options.foldl (fun w option => w.elementSet option "selected" (.bool (selected option))) w

/-- Selects an option the way a user would: a select that allows one option only deselects the
others.  Nobody is told. -/
def pickOption (w : World η) (e : Ref .element) (index : Nat) (selected : Bool) : World η :=
  let options := w.options e
  let w := if !w.isMultiple e && selected then w.markOptions options fun _ => false else w
  match options[index]? with
  | some option => w.elementSet option "selected" (.bool selected)
  | none => w

/-! ### Listening -/

/-- Registers a listener for events of an element. -/
def listenEvents (w : World η) (e : Ref .element) (event : String) (listener : EventListener) :
    Token × World η :=
  let (token, w) := w.freshToken
  (token, w.modifyElement e fun cell =>
    { cell with eventListeners := cell.eventListeners.add token (event, listener) })

/-- Ends a registration for events. -/
def unlistenEvents (w : World η) (e : Ref .element) (token : Token) : World η :=
  w.modifyElement e fun cell => { cell with eventListeners := cell.eventListeners.remove token }

/-- Registers a listener for children that come and go. -/
def listenChildren (w : World η) (e : Ref .element) (listener : ChildListener) :
    Token × World η :=
  let (token, w) := w.freshToken
  (token, w.modifyElement e fun cell =>
    { cell with childListeners := cell.childListeners.add token listener })

/-- Ends a registration for children. -/
def unlistenChildren (w : World η) (e : Ref .element) (token : Token) : World η :=
  w.modifyElement e fun cell => { cell with childListeners := cell.childListeners.remove token }

end World

end ViewBinding
