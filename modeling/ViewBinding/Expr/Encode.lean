import ViewBinding.Expr.Kind
import ViewBinding.Json.Printer
import ViewBinding.MessagePack.Writer

/-!
# Expr.Encode — from expressions to their written forms

`Expr.toContent` is the content of an expression; `Expr.toJson` and `Expr.toMessagePack` write it.
-/

namespace ViewBinding

/-- The content of a literal. -/
def Primitive.toContent : Primitive → Content
  | null => .text "null"
  | undefined => .text "undefined"
  | bool b => .mapping [(.text "bool", .bool b)]
  | number bits => .mapping [(.text "number", .real bits)]

namespace Expr

/-- The content of a node: its kind, then its fields in their order. -/
def node (kind : Kind) (fields : List Content) : Content :=
  .mapping ((.text "type", .text kind.label) :: (kind.fields.map Content.text).zip fields)

mutual

/-- The content of an expression. -/
def toContent : Expr → Content
  | chain es => node .chain [.sequence (toContents es)]
  | pipe input n args all =>
    node .pipe [toContent input, .text n, .sequence (toContents args), .sequence (toContents all)]
  | assign target value => node .assign [toContent target, toContent value]
  | conditional condition yes no =>
    node .conditional [toContent condition, toContent yes, toContent no]
  | name n => node .name [.text n]
  | member owner n => node .member [toContent owner, .text n]
  | keyed owner key => node .keyed [toContent owner, toContent key]
  | callName n args => node .callName [.text n, .sequence (toContents args)]
  | callMember owner n args =>
    node .callMember [toContent owner, .text n, .sequence (toContents args)]
  | call callee args => node .call [toContent callee, .sequence (toContents args)]
  | binary operator left right => node .binary [.text operator, toContent left, toContent right]
  | negate operator operand => node .negate [.text operator, toContent operand]
  | primitive value => node .primitive [value.toContent]
  | string value => node .string [.text value]
  | array elements => node .array [.sequence (toContents elements)]
  | object keys values =>
    node .object [.sequence (keys.map .text), .sequence (toContents values)]

/-- The contents of expressions. -/
def toContents : List Expr → List Content
  | [] => []
  | e :: rest => toContent e :: toContents rest

end

/-- The JSON text of an expression. -/
def toJson (e : Expr) : String := e.toContent.toJson.print

/-- The MessagePack bytes of an expression. -/
def toMessagePack (e : Expr) : List UInt8 := MessagePack.encode e.toContent

end Expr

end ViewBinding
