import ViewBinding.Text.Hidden

/-!
# Quoted — texts between quotes

Two forms of quoting.  `Text.quoteSingle` writes names and texts in the canonical text of an
expression: only the quote and the backslash are escaped.  `Text.quoteDebug` writes a text for a
reader of diagnostics: hidden characters have escapes too.  (JSON has a third form, see
`ViewBinding.Json.Printer`.)
-/

namespace ViewBinding

namespace Text

/-- The single quote. -/
def apostrophe : Char := Char.ofNat 39

/-- The escape of one character between single quotes. -/
def escapeSingle (c : Char) : List Char :=
  if c = apostrophe ∨ c = '\\' then ['\\', c] else [c]

/-- A text between single quotes. -/
def quoteSingle (text : String) : String :=
  String.ofList (apostrophe :: text.toList.flatMap escapeSingle ++ [apostrophe])

/-- The hexadecimal digits of a number, in lower case. -/
def hex (n : Nat) : List Char := Nat.toDigits 16 n

/-- The escape of one character in diagnostics. -/
def escapeDebug (c : Char) : List Char :=
  if c = '"' then ['\\', '"']
  else if c = '\\' then ['\\', '\\']
  else if c = '\t' then ['\\', 't']
  else if c = '\r' then ['\\', 'r']
  else if c = '\n' then ['\\', 'n']
  else if c.toNat = 0 then ['\\', '0']
  else if isHidden c then
    ['\\', 'u', '\x7b'] ++ hex c.toNat ++ ['\x7d']
  else [c]

/-- A text between double quotes, for diagnostics. -/
def quoteDebug (text : String) : String :=
  String.ofList ('"' :: text.toList.flatMap escapeDebug ++ ['"'])

end Text

end ViewBinding
