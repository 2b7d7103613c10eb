import ViewBinding.Store

/-!
# Listeners — who is told

Objects, arrays, elements and observers keep lists of listeners, oldest first.  Each registration
has a token of its own, so that the same listener can be registered several times and each
registration ended by itself.
-/

namespace ViewBinding

/-- The name of one registration. -/
structure Token where
  index : Nat
deriving DecidableEq, Repr, Inhabited

/-- Registrations of listeners, oldest first. -/
structure Listeners (κ : Type) where
  entries : List (Token × κ)

namespace Listeners

variable {κ : Type}

/-- No registrations. -/
def empty : Listeners κ := ⟨[]⟩

instance : Inhabited (Listeners κ) := ⟨empty⟩

/-- Registers a listener. -/
def add (l : Listeners κ) (token : Token) (listener : κ) : Listeners κ :=
  ⟨l.entries ++ [(token, listener)]⟩

/-- Ends a registration. -/
def remove (l : Listeners κ) (token : Token) : Listeners κ :=
  ⟨l.entries.filter (·.1 ≠ token)⟩

/-- Whether a registration is still there. -/
def contains (l : Listeners κ) (token : Token) : Bool := l.entries.any (·.1 = token)

/-- Whether nobody is registered. -/
def isEmpty (l : Listeners κ) : Bool := l.entries.isEmpty

/-- How many registrations there are. -/
def size (l : Listeners κ) : Nat := l.entries.length

/-- The listeners, oldest first. -/
def toList (l : Listeners κ) : List κ := l.entries.map (·.2)

/-- The listeners, newest first. -/
def newestFirst (l : Listeners κ) : List κ := l.toList.reverse

@[simp] theorem toList_add (l : Listeners κ) (token : Token) (listener : κ) :
    (l.add token listener).toList = l.toList ++ [listener] := by
  simp [toList, add]

@[simp] theorem newestFirst_add (l : Listeners κ) (token : Token) (listener : κ) :
    (l.add token listener).newestFirst = listener :: l.newestFirst := by
  simp [newestFirst]

@[simp] theorem contains_remove_self (l : Listeners κ) (token : Token) :
    (l.remove token).contains token = false := by
  simp [contains, remove]

end Listeners

end ViewBinding
