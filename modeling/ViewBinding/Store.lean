/-!
# Store — typed references to mutable things

Objects, arrays, observers and the like are shared and change over time.  Each kind of them lives in
a `Store` of its own and is named by a `Ref` of that kind.

* A reference made by `Store.alloc` is new, and reads what was stored.
* `Store.modify` and `Store.erase` touch one reference and no other.
* A reference whose thing is gone reads nothing.
-/

namespace ViewBinding

/-- The kinds of shared things. -/
inductive Entity where
  | object
  | array
  | function
  | element
  /-- an observer that traps writes to a property -/
  | setter
  /-- the dispatcher of an object's change records -/
  | dispatcher
  /-- an observer fed by a dispatcher -/
  | property
  /-- an observer of a property that does not exist yet -/
  | placeholder
  /-- an observer of an element property -/
  | elementProperty
  /-- an observer of the value of a select element -/
  | select
  /-- an observer of the contents of an array -/
  | contents
  /-- an observer that polls a property -/
  | poll
  /-- an observer of a member of a changing object -/
  | path
  /-- an observer of an expression with several observed parts -/
  | composite
  | subscription
  | binding
  /-- code of the host that reacts to something -/
  | hook
deriving DecidableEq, Repr

/-- A reference to a shared thing of one kind. -/
structure Ref (entity : Entity) where
  index : Nat
deriving DecidableEq, Repr, Hashable, Inhabited

/-- The shared things of one kind, by their references. -/
structure Store (entity : Entity) (α : Type) where
  cells : Array (Option α)

namespace Store

variable {entity : Entity} {α : Type}

/-- A store that holds nothing. -/
def empty : Store entity α := ⟨#[]⟩

instance : Inhabited (Store entity α) := ⟨empty⟩

/-- How many references have been made. -/
def size (s : Store entity α) : Nat := s.cells.size

/-- What a reference names, unless it is gone. -/
def get? (s : Store entity α) (r : Ref entity) : Option α := (s.cells[r.index]?).join

/-- Whether a reference names something. -/
def contains (s : Store entity α) (r : Ref entity) : Bool := (s.get? r).isSome

/-- The reference that the next thing will have. -/
def next (s : Store entity α) : Ref entity := ⟨s.size⟩

/-- Stores a thing under the next reference. -/
def alloc (s : Store entity α) (a : α) : Store entity α := ⟨s.cells.push (some a)⟩

/-- Changes what a reference names. -/
def modify (s : Store entity α) (r : Ref entity) (f : α → α) : Store entity α :=
  ⟨s.cells.modify r.index (Option.map f)⟩

/-- Forgets what a reference names. -/
def erase (s : Store entity α) (r : Ref entity) : Store entity α :=
  ⟨s.cells.modify r.index fun _ => none⟩

/-- The references that name something, in the order of their making. -/
def refs (s : Store entity α) : List (Ref entity) :=
  (List.range s.size).filterMap fun i => if s.contains ⟨i⟩ then some ⟨i⟩ else none

@[simp] theorem get?_alloc_next (s : Store entity α) (a : α) :
    (s.alloc a).get? s.next = some a := by
  simp [get?, alloc, next, size]

theorem get?_alloc_of_ne {s : Store entity α} {r : Ref entity} (a : α) (h : r ≠ s.next) :
    (s.alloc a).get? r = s.get? r := by
  have : r.index ≠ s.cells.size := fun e => h (by cases r; simp_all [next, size])
  simp only [get?, alloc, Array.getElem?_push]
  split <;> simp_all

@[simp] theorem get?_modify_self (s : Store entity α) (r : Ref entity) (f : α → α) :
    (s.modify r f).get? r = (s.get? r).map f := by
  simp only [get?, modify, Array.getElem?_modify]
  cases s.cells[r.index]? <;> simp

theorem get?_modify_of_ne {s : Store entity α} {r r' : Ref entity} (f : α → α) (h : r' ≠ r) :
    (s.modify r f).get? r' = s.get? r' := by
  have : r.index ≠ r'.index := fun e => h (by cases r; cases r'; simp_all)
  simp [get?, modify, Array.getElem?_modify, this]

@[simp] theorem get?_erase_self (s : Store entity α) (r : Ref entity) :
    (s.erase r).get? r = none := by
  simp only [get?, erase, Array.getElem?_modify]
  cases s.cells[r.index]? <;> simp

theorem get?_erase_of_ne {s : Store entity α} {r r' : Ref entity} (h : r' ≠ r) :
    (s.erase r).get? r' = s.get? r' := by
  have : r.index ≠ r'.index := fun e => h (by cases r; cases r'; simp_all)
  simp [get?, erase, Array.getElem?_modify, this]

@[simp] theorem get?_empty (r : Ref entity) : (empty : Store entity α).get? r = none := by
  simp [get?, empty]

@[simp] theorem get?_next (s : Store entity α) : s.get? s.next = none := by
  simp [get?, next, size]

theorem get?_alloc (s : Store entity α) (a : α) (r : Ref entity) :
    (s.alloc a).get? r = if r = s.next then some a else s.get? r := by
  split
  next h => rw [h, get?_alloc_next]
  next h => rw [get?_alloc_of_ne a h]

theorem get?_modify (s : Store entity α) (r r' : Ref entity) (f : α → α) :
    (s.modify r f).get? r' = if r' = r then (s.get? r).map f else s.get? r' := by
  split
  next h => rw [h, get?_modify_self]
  next h => rw [get?_modify_of_ne f h]

@[simp] theorem contains_modify (s : Store entity α) (r r' : Ref entity) (f : α → α) :
    (s.modify r f).contains r' = s.contains r' := by
  simp only [contains, get?_modify]
  split
  next h => simp [h]
  · rfl

theorem modify_modify (s : Store entity α) (r : Ref entity) (f g : α → α) :
    (s.modify r f).modify r g = s.modify r fun a => g (f a) := by
  simp only [modify, mk.injEq]
  refine Array.ext_getElem? fun i => ?_
  simp only [Array.getElem?_modify]
  split
  · cases s.cells[i]? <;> simp [Function.comp_def]
  · rfl

theorem modify_congr {s : Store entity α} {r : Ref entity} {f g : α → α}
    (h : ∀ a, s.get? r = some a → f a = g a) : s.modify r f = s.modify r g := by
  simp only [modify, mk.injEq]
  refine Array.ext_getElem? fun i => ?_
  simp only [Array.getElem?_modify]
  split
  next same =>
    cases e : s.cells[i]? with
    | none => rfl
    | some cell =>
      cases cell with
      | none => rfl
      | some a => simp [h a (by simp [get?, same, e])]
  · rfl

/-- A change that a view does not show does not show in what references name. -/
theorem map_get?_modify {β : Type} {g : α → β} (s : Store entity α) (r r' : Ref entity)
    {f : α → α} (h : ∀ a, g (f a) = g a) :
    ((s.modify r f).get? r').map g = (s.get? r').map g := by
  rw [get?_modify]
  split
  next e =>
    subst e
    cases s.get? r' <;> simp [h]
  · rfl

/-- What a reference names is older than the next reference. -/
theorem ne_next_of_get? {s : Store entity α} {r : Ref entity} {a : α} (h : s.get? r = some a) :
    r ≠ s.next := by
  rintro rfl
  simp at h

theorem index_lt_size_of_get? {s : Store entity α} {r : Ref entity} {a : α}
    (h : s.get? r = some a) : r.index < s.size := by
  refine Classical.byContradiction fun no => ?_
  simp [get?, Array.getElem?_eq_none (Nat.not_lt.1 no)] at h

end Store

end ViewBinding
