import ViewBinding.Expr.Basic
import ViewBinding.Text.Quoted

/-!
# Expr.Printer — the canonical text of an expression

Binary operations, negations and pipes stand in parentheses and texts in single quotes.  A
conditional, an assignment or a chain that is an operand, an object, a callee or an argument of a
pipe stands in parentheses too, so the text does not depend on the precedence of operators.
-/

namespace ViewBinding

/-- The text of a literal. -/
def Primitive.text : Primitive → String
  | null => "null"
  | undefined => "undefined"
  | bool b => if b then "true" else "false"
  | number bits => Number.display (Float.ofBits bits)

namespace Expr

/-- Whether the expression stands in parentheses where an operand is expected. -/
def isLoose : Expr → Bool
  | conditional _ _ _ | assign _ _ | chain _ => true
  | _ => false

/-- Whether the expression stands in parentheses in the last branch of a conditional. -/
def isLooseBranch : Expr → Bool
  | assign _ _ | chain _ => true
  | _ => false

/-- A text, between parentheses if asked for. -/
def parenthesize (wanted : Bool) (text : List Char) : List Char :=
  if wanted then '(' :: text ++ [')'] else text

/-- A text between single quotes. -/
def quoted (text : String) : List Char := (Text.quoteSingle text).toList

mutual

/-- The characters of the canonical text. -/
def write : Expr → List Char
  | chain es => writeList ';' es
  | pipe input n args _ => '(' :: write input ++ '|' :: n.toList ++ writeArguments args ++ [')']
  | assign target value => parenthesize target.isLoose (write target) ++ '=' :: write value
  | conditional condition yes no =>
    parenthesize condition.isLoose (write condition) ++ '?' :: parenthesize yes.isLoose (write yes)
      ++ ':' :: parenthesize no.isLooseBranch (write no)
  | name n => n.toList
  | member owner n => parenthesize owner.isLoose (write owner) ++ '.' :: n.toList
  | keyed owner key => parenthesize owner.isLoose (write owner) ++ '[' :: write key ++ [']']
  | callName n args => n.toList ++ '(' :: writeList ',' args ++ [')']
  | callMember owner n args =>
    parenthesize owner.isLoose (write owner) ++ '.' :: n.toList
      ++ '(' :: writeList ',' args ++ [')']
  | call callee args =>
    parenthesize callee.isLoose (write callee) ++ '(' :: writeList ',' args ++ [')']
  | binary operator left right =>
    '(' :: parenthesize left.isLoose (write left) ++ operator.toList
      ++ parenthesize right.isLoose (write right) ++ [')']
  | negate operator operand =>
    '(' :: operator.toList ++ parenthesize operand.isLoose (write operand) ++ [')']
  | primitive value => value.text.toList
  | string value => quoted value
  | array elements => '[' :: writeList ',' elements ++ [']']
  | object keys values => '\x7b' :: writeEntries true keys values ++ ['\x7d']

/-- Expressions with a separator between them. -/
def writeList (separator : Char) : List Expr → List Char
  | [] => []
  | [e] => write e
  | e :: next :: rest => write e ++ separator :: writeList separator (next :: rest)

/-- The arguments of a pipe. -/
def writeArguments : List Expr → List Char
  | [] => []
  | e :: rest => ' ' :: ':' :: parenthesize e.isLoose (write e) ++ writeArguments rest

/-- The entries of an object, as many as have a key and a value. -/
def writeEntries (first : Bool) : List String → List Expr → List Char
  | key :: keys, value :: values =>
    (if first then [] else [',']) ++ quoted key ++ ':' :: write value
      ++ writeEntries false keys values
  | _, _ => []

end

/-- The canonical text. -/
def text (e : Expr) : String := String.ofList e.write

end Expr

end ViewBinding
