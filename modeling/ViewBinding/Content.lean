import ViewBinding.Json.Basic

/-!
# Content — self-describing data

`Content` is what the written forms of an expression have in common: texts, numbers, sequences and
mappings, whatever bytes or characters carry them.  Both forms are read into it, and decoding an
expression (`ViewBinding.Expr.Decode`) starts from it.
-/

namespace ViewBinding

/-- Self-describing data. -/
inductive Content where
  | unit
  | bool (value : Bool)
  /-- An unsigned number and the number of bits of its form. -/
  | unsigned (bits value : Nat)
  | signed (value : Int)
  /-- A floating-point number, by its bits. -/
  | real (bits : UInt64)
  | text (value : String)
  | bytes (value : List UInt8)
  | sequence (items : List Content)
  | mapping (entries : List (Content × Content))
  /-- Data of a kind that only its own application understands. -/
  | foreign
deriving Inhabited

namespace Content

mutual

/-- How deep sequences and mappings nest, counting `this`. -/
def depth : Content → Nat
  | sequence items => itemsDepth items + 1
  | mapping entries => entriesDepth entries + 1
  | _ => 1

/-- The greatest depth of the items. -/
def itemsDepth : List Content → Nat
  | [] => 0
  | item :: rest => max item.depth (itemsDepth rest)

/-- The greatest depth of the keys and values. -/
def entriesDepth : List (Content × Content) → Nat
  | [] => 0
  | (key, value) :: rest => max (max key.depth value.depth) (entriesDepth rest)

end

/-- Data that is accepted where a text is expected: a text, or bytes that encode one. -/
def asText? : Content → Option String
  | text s => some s
  | bytes data => String.fromUTF8? ⟨data.toArray⟩
  | _ => none

/-- The bits of data that is accepted where a number is expected. -/
def asNumber? : Content → Option UInt64
  | unsigned _ n => some (Float.ofNat n).toBits
  | signed i => some (Float.ofInt i).toBits
  | real bits => some bits
  | _ => none

/-- Data that is accepted where a boolean is expected. -/
def asBool? : Content → Option Bool
  | bool b => some b
  | _ => none

/-- Data that is accepted where a sequence is expected. -/
def asSequence? : Content → Option (List Content)
  | sequence items => some items
  | _ => none

/-- Data that stands for nothing: the unit or an empty mapping. -/
def isUnit : Content → Bool
  | unit => true
  | mapping [] => true
  | _ => false

mutual

/-- The content of a JSON document. -/
def ofJson : Json → Content
  | .null => unit
  | .bool b => bool b
  | .whole n => if 0 ≤ n then unsigned 64 n.toNat else signed n
  | .real x => real x.toBits
  | .string s => text s
  | .array items => sequence (ofItems items)
  | .object members => mapping (ofMembers members)

/-- The content of each item. -/
def ofItems : List Json → List Content
  | [] => []
  | item :: rest => ofJson item :: ofItems rest

/-- The content of each member. -/
def ofMembers : List (String × Json) → List (Content × Content)
  | [] => []
  | (name, value) :: rest => (text name, ofJson value) :: ofMembers rest

end

mutual

/-- The JSON document with this content.  Keys that are no texts and data that JSON cannot hold do
not occur in the content of an expression; they become empty names and `null`. -/
def toJson : Content → Json
  | unit => .null
  | bool b => .bool b
  | unsigned _ n => .whole n
  | signed i => .whole i
  | real bits => .real (Float.ofBits bits)
  | text s => .string s
  | bytes _ => .null
  | sequence items => .array (toItems items)
  | mapping entries => .object (toMembers entries)
  | foreign => .null

/-- The document of each item. -/
def toItems : List Content → List Json
  | [] => []
  | item :: rest => toJson item :: toItems rest

/-- The document of each entry. -/
def toMembers : List (Content × Content) → List (String × Json)
  | [] => []
  | (key, value) :: rest => (key.asText?.getD "", toJson value) :: toMembers rest

end

end Content

end ViewBinding
