import ViewBinding.Expr.Kind
import ViewBinding.Json.Reader
import ViewBinding.MessagePack.Reader

/-!
# Expr.Decode — from written forms to expressions

A node is a mapping or a sequence.  A mapping has the kind under `type` and the fields in any order;
unknown entries are ignored, a missing or repeated one is an error.  A sequence has the kind first
and then exactly the fields.

A kind or a field may also be named by its place, in an unsigned number of 8 or 64 bits.  The
outermost node is stricter or laxer about its kind, depending on the format: a JSON text must name
it, MessagePack bytes may give its place in an unsigned number of any width.
-/

namespace ViewBinding

namespace Content

/-- Whether data is this name, as a text or as the bytes of it. -/
def isName (name : String) : Content → Bool
  | text s => s == name
  | bytes data => data == name.toUTF8.data.toList
  | _ => false

/-- The place that data names among `names`: nothing when it names none, an error when it can name
nothing at all. -/
def place? (names : List String) : Content → Option (Option Nat)
  | unsigned bits n =>
    if bits = 8 ∨ bits = 64 then some (if n < names.length then some n else none) else none
  | text s => some (names.findIdx? (· = s))
  | bytes data => some (names.findIdx? fun name => data == name.toUTF8.data.toList)
  | _ => none

/-- The value of the one entry whose key names `place`; an error when there is none or more. -/
def entryAt? (place : Nat) (entries : List (Option Nat × Content)) : Option Content :=
  match entries.filter (·.1 == some place) with
  | [(_, value)] => some value
  | _ => none

/-- The values of the named fields, in the order of the names. -/
def fieldValues? (names : List String) : Content → Option (List Content)
  | mapping entries => do
    let placed ← entries.mapM fun (key, value) => (place? names key).map (·, value)
    (List.range names.length).mapM fun place => entryAt? place placed
  | sequence items => if items.length = names.length then some items else none
  | _ => none

end Content

namespace Kind

/-- A kind named or placed inside an expression. -/
def ofContent? (content : Content) : Option Kind := do
  let place ← content.place? (all.map label)
  ofPlace? (← place)

/-- A kind named by a text. -/
def ofText? : Content → Option Kind
  | .text s => ofLabel? s
  | _ => none

/-- A kind named, or placed by an unsigned number of any width. -/
def ofAny? : Content → Option Kind
  | .unsigned _ n => ofPlace? n
  | content => ofContent? content

end Kind

namespace Primitive

/-- The literal that a single-entry mapping denotes. -/
def ofPair? (key value : Content) : Option Primitive := do
  let place ← key.place? ["null", "undefined", "bool", "number"]
  match ← place with
  | 0 => if value.isUnit then some null else none
  | 1 => if value.isUnit then some undefined else none
  | 2 => value.asBool?.map bool
  | _ => value.asNumber?.map number

/-- The literal that content denotes. -/
def ofContent? : Content → Option Primitive
  | .text s => if s = "null" then some null else if s = "undefined" then some undefined else none
  | .mapping [(key, value)] => ofPair? key value
  | _ => none

end Primitive

namespace Expr

/-- The kind of a node and the values of its fields, in their order. -/
def nodeParts? (kind? : Content → Option Kind) : Content → Option (Kind × List Content)
  | .mapping entries =>
    match entries.partition fun (key, _) => key.isName "type" with
    | ([(_, tag)], others) => do
      let kind ← kind? tag
      let fields ← Content.fieldValues? kind.fields (.mapping others)
      some (kind, fields)
    | _ => none
  | .sequence (tag :: items) => do
    let kind ← kind? tag
    let fields ← Content.fieldValues? kind.fields (.sequence items)
    some (kind, fields)
  | _ => none

/-- The expressions of a sequence. -/
def listOf? (sub : Content → Option Expr) (content : Content) : Option (List Expr) := do
  (← content.asSequence?).mapM sub

/-- The texts of a sequence. -/
def textsOf? (content : Content) : Option (List String) := do
  (← content.asSequence?).mapM Content.asText?

/-- The expression of a kind with these fields. -/
def build? (sub : Content → Option Expr) : Kind → List Content → Option Expr
  | .chain, [es] => do some (chain (← listOf? sub es))
  | .pipe, [input, n, args, all] => do
    some (pipe (← sub input) (← n.asText?) (← listOf? sub args) (← listOf? sub all))
  | .assign, [target, value] => do some (assign (← sub target) (← sub value))
  | .conditional, [condition, yes, no] => do
    some (conditional (← sub condition) (← sub yes) (← sub no))
  | .name, [n] => do some (name (← n.asText?))
  | .member, [owner, n] => do some (member (← sub owner) (← n.asText?))
  | .keyed, [owner, key] => do some (keyed (← sub owner) (← sub key))
  | .callName, [n, args] => do some (callName (← n.asText?) (← listOf? sub args))
  | .callMember, [owner, n, args] => do
    some (callMember (← sub owner) (← n.asText?) (← listOf? sub args))
  | .call, [callee, args] => do some (call (← sub callee) (← listOf? sub args))
  | .binary, [operator, left, right] => do
    some (binary (← operator.asText?) (← sub left) (← sub right))
  | .negate, [operator, operand] => do some (negate (← operator.asText?) (← sub operand))
  | .primitive, [value] => do some (primitive (← Primitive.ofContent? value))
  | .string, [value] => do some (string (← value.asText?))
  | .array, [elements] => do some (array (← listOf? sub elements))
  | .object, [keys, values] => do some (object (← textsOf? keys) (← listOf? sub values))
  | _, _ => none

/-- The expression of content whose sequences and mappings nest at most so deep. -/
def decodeWithin? : Nat → Content → Option Expr
  | 0, _ => none
  | depth + 1, content => do
    let (kind, fields) ← nodeParts? Kind.ofContent? content
    build? (decodeWithin? depth) kind fields

/-- The expression of content whose outermost kind is read by `kind?`. -/
def ofContent? (kind? : Content → Option Kind) (content : Content) : Option Expr := do
  let (kind, fields) ← nodeParts? kind? content
  build? (decodeWithin? content.depth) kind fields

/-- The expression of a JSON text. -/
def ofJson? (text : String) : Option Expr := do
  ofContent? Kind.ofText? (Content.ofJson (← Json.parse? text))

/-- The expression of MessagePack bytes. -/
def ofMessagePack? (data : List UInt8) : Option Expr := do
  ofContent? Kind.ofAny? (← MessagePack.decode? data)

end Expr

end ViewBinding
