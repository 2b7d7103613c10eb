import ViewBinding.Listeners
import ViewBinding.Scope

/-!
# Observer — what watches values, and who is told

An observer watches one value and tells its subscribers when the value changes.  A `Leaf` watches
one place: a property, an element property, the contents of an array.  A path follows a member of a
changing object, a composite an expression with several observed parts.

Subscribers are data, so a world that is at rest holds no code: each constructor of `Subscriber`
names the reaction of one part of this library or of the host.
-/

namespace ViewBinding

/-- An observer of one place. -/
inductive Leaf where
  | setter (ref : Ref .setter)
  | property (ref : Ref .property)
  | placeholder (ref : Ref .placeholder)
  | element (ref : Ref .elementProperty)
  | select (ref : Ref .select)
  | contents (ref : Ref .contents)
  | poll (ref : Ref .poll)
deriving DecidableEq, Repr

/-- An observer. -/
inductive Observer where
  | leaf (leaf : Leaf)
  | path (ref : Ref .path)
  | composite (ref : Ref .composite)
deriving DecidableEq, Repr

/-- The short name of the way an observer watches. -/
def Leaf.kind : Leaf → String
  | setter _ => "setter"
  | property _ => "property"
  | placeholder _ => "undefined"
  | element _ => "element"
  | select _ => "select-value"
  | contents _ => "array"
  | poll _ => "dirty-check"

/-- The short name of the way an observer watches. -/
def Observer.kind : Observer → String
  | leaf l => l.kind
  | path _ => "path"
  | composite _ => "composite"

/-- Who is told about a change of an observed value. -/
inductive Subscriber where
  /-- A path learns that its object changed. -/
  | pathObject (path : Ref .path)
  /-- A path learns that the member changed. -/
  | pathMember (path : Ref .path)
  /-- A composite learns that one of its parts changed. -/
  | part (composite : Ref .composite)
  /-- A binding learns that its source changed. -/
  | source (binding : Ref .binding)
  /-- A binding learns that its target changed. -/
  | target (binding : Ref .binding)
  /-- A select learns that the array which is its value changed. -/
  | options (select : Ref .select)
  /-- The host. -/
  | hook (hook : Ref .hook)
deriving DecidableEq, Repr

/-- Who is told about the change records of an object. -/
inductive RecordListener where
  | dispatcher (dispatcher : Ref .dispatcher)
  | hook (hook : Ref .hook)
deriving DecidableEq, Repr

/-- Who is told about a change of an array. -/
inductive SpliceListener where
  | contents (contents : Ref .contents)
  | hook (hook : Ref .hook)
deriving DecidableEq, Repr

/-- Who is told about an event of an element. -/
inductive EventListener where
  | property (property : Ref .elementProperty)
  | select (select : Ref .select)
  | hook (hook : Ref .hook)
deriving DecidableEq, Repr

/-- Who is told that an element gained or lost a child. -/
inductive ChildListener where
  | select (select : Ref .select)
  | hook (hook : Ref .hook)
deriving DecidableEq, Repr

/-- What a disposed subscription takes back. -/
inductive Disposal where
  /-- A registration with an observer. -/
  | callback (observer : Observer) (token : Token)
  /-- Registrations for events of an element. -/
  | events (element : Ref .element) (tokens : List Token)
deriving DecidableEq

/-- Where the observers and converters of an expression come from. -/
inductive Provider where
  /-- The engine itself. -/
  | engine
  /-- A binding, as long as it lives. -/
  | binding (binding : Ref .binding)
  /-- A provider that the host may withdraw. -/
  | detachable
deriving DecidableEq

/-- What connecting an expression gives: its value now, and an observer unless nothing can change
it. -/
structure ConnectInfo where
  value : Value
  observer : Option Observer
deriving DecidableEq, Inhabited

/-- When a part of a composite is connected. -/
inductive Condition where
  | always
  /-- while the primary value is truthy -/
  | truthy
  /-- while the primary value is not truthy -/
  | falsy
  /-- while the primary value is a function -/
  | isFunction
deriving DecidableEq, Repr

/-- Whether a condition holds for a primary value; without one every condition holds. -/
def Condition.holds : Condition → Option Value → Bool
  | always, _ => true
  | _, none => true
  | truthy, some v => v.isTruthy
  | falsy, some v => !v.isTruthy
  | isFunction, some v => v.isFunction

/-- How a path finds the observer of the member. -/
inductive Resolver where
  /-- The member of an object, through a provider. -/
  | member (provider : Provider) (name : String)
  /-- A property of a fixed element, while the object is an object at all. -/
  | element (element : Ref .element) (name : String)
deriving DecidableEq

end ViewBinding
