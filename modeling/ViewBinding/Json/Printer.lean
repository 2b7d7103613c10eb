import ViewBinding.Json.Basic
import ViewBinding.Numeric.Style

/-!
# Json.Printer — from documents to text

Documents are written without blanks, members in the order in which the document holds them.
-/

namespace ViewBinding

namespace Json

/-- Floating-point numbers have the fewest digits that identify them.  They keep a point between
`1e-5` and `1e16` and have an exponent elsewhere; `null` stands for what JSON cannot hold. -/
def numberStyle : NumberStyle where
  tie := .toEven
  wholeBelow := 0
  plain := some (-5, 16)
  pointZero := true
  zero := "0.0"
  negativeZero := "-0.0"
  nan := "null"
  infinity := "null"
  negativeInfinity := "null"

/-- The digit for a number below sixteen. -/
def hexDigit (n : Nat) : Char := Nat.digitChar n

/-- The escape of one character between double quotes. -/
def escapeChar (c : Char) : List Char :=
  if c = '"' then ['\\', '"']
  else if c = '\\' then ['\\', '\\']
  else if c.toNat = 8 then ['\\', 'b']
  else if c.toNat = 12 then ['\\', 'f']
  else if c = '\n' then ['\\', 'n']
  else if c = '\r' then ['\\', 'r']
  else if c = '\t' then ['\\', 't']
  else if c.toNat < 0x20 then
    ['\\', 'u', '0', '0', hexDigit (c.toNat / 16), hexDigit (c.toNat % 16)]
  else [c]

/-- A text between double quotes. -/
def quoteChars (text : List Char) : List Char :=
  '"' :: text.flatMap escapeChar ++ ['"']

/-- A text between double quotes. -/
def quote (text : String) : List Char := quoteChars text.toList

mutual

/-- The text of a document. -/
def write : Json → List Char
  | null => ['n', 'u', 'l', 'l']
  | bool true => ['t', 'r', 'u', 'e']
  | bool false => ['f', 'a', 'l', 's', 'e']
  | whole n => (toString n).toList
  | real x => (numberStyle.write x).toList
  | string s => quote s
  | array items => '[' :: writeItems items ++ [']']
  | object members => '\x7b' :: writeMembers members ++ ['\x7d']

/-- The items of an array between commas. -/
def writeItems : List Json → List Char
  | [] => []
  | [item] => write item
  | item :: next :: rest => write item ++ ',' :: writeItems (next :: rest)

/-- The members of an object between commas. -/
def writeMembers : List (String × Json) → List Char
  | [] => []
  | [(name, value)] => quote name ++ ':' :: write value
  | (name, value) :: next :: rest =>
    quote name ++ ':' :: (write value ++ ',' :: writeMembers (next :: rest))

end

/-- The text of a document. -/
def print (document : Json) : String := String.ofList document.write

end Json

end ViewBinding
