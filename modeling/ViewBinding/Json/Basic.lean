/-!
# Json — documents

A document keeps the members of an object in the order in which they were written, repeated names
included.  Its numbers are whole numbers of at most 64 bits or floating-point numbers.
-/

namespace ViewBinding

/-- A JSON document. -/
inductive Json where
  | null
  | bool (value : Bool)
  /-- A whole number between `-2 ^ 63` and `2 ^ 64 - 1`, written without a point or an exponent. -/
  | whole (value : Int)
  /-- Any other number. -/
  | real (value : Float)
  | string (value : String)
  | array (items : List Json)
  | object (members : List (String × Json))
deriving Repr, Inhabited

namespace Json

/-- The last member of an object with this name. -/
def member? (name : String) : Json → Option Json
  | object members => (members.reverse.find? (·.1 = name)).map (·.2)
  | _ => none

/-- Puts a member before the first one with a greater name, in place of one with the same name. -/
def insertMember {α : Type} (name : String) (value : α) : List (String × α) → List (String × α)
  | [] => [(name, value)]
  | (other, v) :: rest =>
    if name = other then (name, value) :: rest
    else if name < other then (name, value) :: (other, v) :: rest
    else (other, v) :: insertMember name value rest

/-- Members in ascending order of their names, the last one of each name. -/
def sortMembers {α : Type} (members : List (String × α)) : List (String × α) :=
  members.foldl (fun sorted (name, value) => insertMember name value sorted) []

end Json

end ViewBinding
