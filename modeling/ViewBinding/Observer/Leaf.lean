import ViewBinding.Subscription
import ViewBinding.Text.Letter

/-!
# Observer.Leaf — observers of one place

How each leaf is made and what its value is.  A leaf does not keep the thing it watches: when that
is gone its value is `undefined`.
-/

namespace ViewBinding

namespace World

variable {η : Type}

/-! ### Element properties -/

/-- Whether a name starts with a word and a colon. -/
def hasNamespacePrefix (name : String) : Bool :=
  let chars := name.toList
  let word := chars.takeWhile (· ≠ ':')
  word.length < chars.length && !word.isEmpty
    && word.all fun c => Text.isLetterOrDigit c || c == '_'

/-- How a property of an element is read and written. -/
def accessFor (w : World η) (e : Ref .element) (property : String) : Access :=
  if property.startsWith "xlink:" then .link (property.drop 6).toString
  else if hasNamespacePrefix property || property.startsWith "data-"
      || property.startsWith "aria-" || w.isSvg e then .attribute
  else if property == "style" || property == "css" then .style
  else .property

/-- The value of a property of an element; `undefined` when the element is gone. -/
def readElement (w : World η) (e : Ref .element) (property : String) (access : Access) : Value :=
  if w.elements.contains e then
    match access with
    | .link name => w.attributeOf e (some linkNamespace) name
    | .attribute => w.attributeOf e none property
    | .style => .string (w.css e)
    | .property => w.elementGet e property
  else .undefined

/-! ### Making -/

/-- Makes a trapping observer.  The trap is installed by the first subscription. -/
def newSetter (w : World η) (o : Ref .object) (property : String) : Ref .setter × World η :=
  (w.setters.next, { w with setters := w.setters.alloc { object := o, property } })

/-- Makes a dispatcher of the change records of an object. -/
def newDispatcher (w : World η) (o : Ref .object) : Ref .dispatcher × World η :=
  (w.dispatchers.next, { w with dispatchers := w.dispatchers.alloc { object := o } })

/-- Makes an observer of an element property. -/
def newElementProperty (w : World η) (e : Ref .element) (property : String) (handled : Bool) :
    Ref .elementProperty × World η :=
  let access := w.accessFor e property
  let old := w.readElement e property access
  (w.elementProperties.next, { w with
    elementProperties :=
      w.elementProperties.alloc { element := e, property, access, handled, old } })

/-- Makes an observer of the value of a select element. -/
def newSelect (w : World η) (e : Ref .element) : Ref .select × World η :=
  (w.selects.next, { w with selects := w.selects.alloc { element := e } })

/-- Makes an observer of the contents of an array. -/
def newContents (w : World η) (a : Ref .array) : Ref .contents × World η :=
  (w.contents.next, { w with contents := w.contents.alloc { array := a } })

/-- Makes a polling observer. -/
def newPoll (w : World η) (o : Ref .object) (property : String) : Ref .poll × World η :=
  (w.polls.next, { w with polls := w.polls.alloc { object := o, property } })

/-- The observer that a dispatcher hands out for a property: always the same one, made at the first
request.  A property that the object does not have gets a placeholder. -/
def dispatcherObserver (w : World η) (d : Ref .dispatcher) (property : String) : Leaf × World η :=
  match w.dispatchers.get? d with
  | none =>
    (.placeholder w.placeholders.next, w)
  | some cell =>
    match Entries.get? property cell.observers with
    | some leaf => (leaf, w)
    | none =>
      let keep (w : World η) (leaf : Leaf) : Leaf × World η :=
        (leaf, w.modifyDispatcher d fun cell =>
          { cell with observers := Entries.put property leaf cell.observers })
      if w.has cell.object property then
        keep { w with
          properties :=
            w.properties.alloc { dispatcher := d, object := cell.object, property } }
          (.property w.properties.next)
      else
        keep { w with
          placeholders :=
            w.placeholders.alloc { dispatcher := d, object := cell.object, property } }
          (.placeholder w.placeholders.next)

/-! ### Values -/

/-- The value of a leaf. -/
def leafValue (w : World η) : Leaf → Value
  | .setter r =>
    match w.setters.get? r with
    | some cell => if cell.observing then cell.current else w.get cell.object cell.property
    | none => .undefined
  | .property r =>
    match w.properties.get? r with
    | some cell => w.get cell.object cell.property
    | none => .undefined
  | .placeholder r =>
    match w.placeholders.get? r with
    | some cell => w.get cell.object cell.property
    | none => .undefined
  | .element r =>
    match w.elementProperties.get? r with
    | some cell => w.readElement cell.element cell.property cell.access
    | none => .undefined
  | .select r => ((w.selects.get? r).map (·.value)).getD .undefined
  | .contents r =>
    match w.contents.get? r with
    | some cell => if w.arrays.contains cell.array then .array cell.array else .undefined
    | none => .undefined
  | .poll r =>
    match w.polls.get? r with
    | some cell => w.get cell.object cell.property
    | none => .undefined

/-- The value of an observer. -/
def observerValue (w : World η) : Observer → Value
  | .leaf l => w.leafValue l
  | .path r =>
    match (w.paths.get? r).bind (·.right) with
    | some right => w.leafValue right
    | none => .undefined
  | .composite r => ((w.composites.get? r).map (·.value)).getD .undefined

/-- The value of what connecting gave: the observer's value, or else the value at that time. -/
def infoValue (w : World η) (info : ConnectInfo) : Value :=
  match info.observer with
  | some observer => w.observerValue observer
  | none => info.value

end World

end ViewBinding
