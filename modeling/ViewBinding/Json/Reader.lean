import ViewBinding.Json.Basic
import ViewBinding.Numeric.Numeral

/-!
# Json.Reader — from text to documents

The grammar is strict: no trailing text, no raw control characters in strings, no unpaired
surrogates, no leading zeros.  A reader gives what it has read and the text after it.  Arrays and
objects nest at most `limit` deep.

A number without a point and an exponent is whole when it fits 64 bits.  Any other number is read
from the first digits that fit 64 bits, scaled by a power of ten in floating-point arithmetic; one
that is too large is refused.

A value that nobody asks for is passed over by its form alone: `skipValue` computes no number, pairs
no surrogates and minds no nesting.  `parseNamed?` treats so the members that it is not asked for.
-/

namespace ViewBinding

namespace Json

/-- Drops the blanks between tokens. -/
def skipBlank (text : List Char) : List Char :=
  text.dropWhile fun c => c = ' ' ∨ c = '\n' ∨ c = '\t' ∨ c = '\r'

/-! ### Numbers -/

/-- Takes in digits as long as the number they form with `n` fits 64 bits. -/
def absorb (n : Nat) : List Char → Nat × List Char
  | [] => (n, [])
  | c :: rest =>
    let m := Number.ofDigits n [c]
    if m < Nat.pow 2 64 then absorb m rest else (n, c :: rest)

/-- `10 ^ k` as a floating-point number, for `k ≤ 308`. -/
def powerOfTen (k : Nat) : Float := Float.ofScientific 1 false k

/-- Divides by `10 ^ k`, in steps that a floating-point number can hold. -/
def scaleDown (f : Float) (k : Nat) : Float :=
  if k ≤ 308 then f / powerOfTen k
  else if f == 0.0 then f
  else scaleDown (f / powerOfTen 308) (k - 308)
termination_by k
decreasing_by omega

/-- The number `± significand * 10 ^ exponent`, unless it is too large. -/
def scaled? (negative : Bool) (significand : Nat) (exponent : Int) : Option Float :=
  let f := Float.ofNat significand
  let magnitude : Option Float :=
    if exponent < 0 then some (scaleDown f exponent.natAbs)
    else if exponent.natAbs ≤ 308 then
      let product := f * powerOfTen exponent.natAbs
      if product.isInf then none else some product
    else if significand = 0 then some f
    else none
  magnitude.map fun f => if negative then -f else f

/-- A number with the whole digits, the digits after the point and the exponent given. -/
def realNumber? (negative : Bool) (whole fraction : List Char) (exponent : Int) : Option Json :=
  let (n, skipped) := absorb 0 whole
  let (n, ignored) := absorb n fraction
  let places : Nat := fraction.length - ignored.length
  let exponent := exponent + (skipped.length : Int) - (places : Int)
  if n = 0 ∧ Nat.pow 2 31 ≤ exponent then some (real (if negative then -0.0 else 0.0))
  else (scaled? negative n exponent).map real

/-- A number that consists of whole digits only. -/
def wholeNumber? (negative : Bool) (digits : List Char) : Option Json :=
  let (n, skipped) := absorb 0 digits
  match skipped with
  | _ :: _ => (scaled? negative n skipped.length).map real
  | [] =>
    if ¬ negative then some (whole n)
    else if n = 0 ∨ Nat.pow 2 63 < n then some (real (-(Float.ofNat n)))
    else some (whole (-(n : Int)))

/-- The exponent of a number, if there is one. -/
def readExponent : List Char → Option ((Option Int) × List Char)
  | c :: rest =>
    if c = 'e' ∨ c = 'E' then
      let (negative, rest) := Number.splitSign rest
      match Number.leadingDigits rest with
      | ([], _) => none
      | (digits, rest) =>
        let e : Int := Number.ofDigits 0 digits
        some (some (if negative then -e else e), rest)
    else some (none, c :: rest)
  | [] => some (none, [])

/-- The digits after a point, if there is one. -/
def readFraction : List Char → Option ((Option (List Char)) × List Char)
  | '.' :: rest =>
    match Number.leadingDigits rest with
    | ([], _) => none
    | (digits, rest) => some (some digits, rest)
  | text => some (none, text)

/-- The parts of a number after its sign. -/
structure Numeral where
  whole : List Char
  /-- The digits after the point, if there is a point. -/
  fraction : Option (List Char)
  exponent : Option Int

/-- The parts of a number after its sign, and the text after it. -/
def readNumeral (text : List Char) : Option (Numeral × List Char) :=
  match Number.leadingDigits text with
  | ([], _) => none
  | ('0' :: _ :: _, _) => none
  | (digits, rest) => do
    let (fraction, rest) ← readFraction rest
    let (exponent, rest) ← readExponent rest
    some (⟨digits, fraction, exponent⟩, rest)

/-- The number with these parts. -/
def Numeral.value? (negative : Bool) (numeral : Numeral) : Option Json :=
  match numeral.fraction, numeral.exponent with
  | none, none => wholeNumber? negative numeral.whole
  | fraction, exponent =>
    realNumber? negative numeral.whole (fraction.getD []) (exponent.getD 0)

/-- A number after its sign. -/
def readUnsigned (negative : Bool) (text : List Char) : Option (Json × List Char) := do
  let (numeral, rest) ← readNumeral text
  let number ← numeral.value? negative
  some (number, rest)

/-! ### Strings -/

/-- The value of a hexadecimal digit. -/
def hexDigit? (c : Char) : Option Nat :=
  if '0' ≤ c ∧ c ≤ '9' then some (c.toNat - 48)
  else if 'a' ≤ c ∧ c ≤ 'f' then some (c.toNat - 87)
  else if 'A' ≤ c ∧ c ≤ 'F' then some (c.toNat - 55)
  else none

/-- The value of four hexadecimal digits. -/
def hexUnit? (a b c d : Char) : Option Nat := do
  some (4096 * (← hexDigit? a) + 256 * (← hexDigit? b) + 16 * (← hexDigit? c) + (← hexDigit? d))

/-- The character that a letter after a backslash stands for. -/
def escape? (c : Char) : Option Char :=
  if c = '"' ∨ c = '\\' ∨ c = '/' then some c
  else if c = 'b' then some (Char.ofNat 8)
  else if c = 'f' then some (Char.ofNat 12)
  else if c = 'n' then some '\n'
  else if c = 'r' then some '\r'
  else if c = 't' then some '\t'
  else none

/-- One character of a string, with its escape: the character and the text after it. -/
def readEscaped : List Char → Option (Char × List Char)
  | 'u' :: a :: b :: c :: d :: rest => do
    let n ← hexUnit? a b c d
    if 0xDC00 ≤ n ∧ n < 0xE000 then none
    else if 0xD800 ≤ n ∧ n < 0xDC00 then
      match rest with
      | '\\' :: 'u' :: e :: f :: g :: h :: rest => do
        let m ← hexUnit? e f g h
        if 0xDC00 ≤ m ∧ m < 0xE000 then
          some (Char.ofNat (0x10000 + (n - 0xD800) * 0x400 + (m - 0xDC00)), rest)
        else none
      | _ => none
    else some (Char.ofNat n, rest)
  | c :: rest => (escape? c).map (·, rest)
  | [] => none

/-- The rest of a string after its opening quote; `fuel` bounds its characters. -/
def readStringTail : Nat → List Char → Option ((List Char) × List Char)
  | 0, _ => none
  | _ + 1, [] => none
  | fuel + 1, c :: rest =>
    if c = '"' then some ([], rest)
    else if c = '\\' then do
      let (c, rest) ← readEscaped rest
      let (cs, rest) ← readStringTail fuel rest
      some (c :: cs, rest)
    else if c.toNat < 0x20 then none
    else do
      let (cs, rest) ← readStringTail fuel rest
      some (c :: cs, rest)

/-- A string after its opening quote. -/
def readString (text : List Char) : Option (String × List Char) :=
  (readStringTail (text.length + 1) text).map fun (cs, rest) => (String.ofList cs, rest)

/-! ### Documents -/

/-- Items between commas up to the closing character; `fuel` bounds their number. -/
def readItems {α : Type} (item : List Char → Option (α × List Char)) (close : Char) :
    Nat → List Char → Option ((List α) × List Char)
  | 0, _ => none
  | fuel + 1, text => do
    let (a, rest) ← item text
    match skipBlank rest with
    | [] => none
    | c :: rest =>
      if c = ',' then do
        let (as, rest) ← readItems item close fuel rest
        some (a :: as, rest)
      else if c = close then some ([a], rest)
      else none

/-- Any number of items between an opening and a closing character. -/
def readSequence {α : Type} (item : List Char → Option (α × List Char)) (close : Char)
    (text : List Char) :
    Option ((List α) × List Char) :=
  match skipBlank text with
  | [] => none
  | c :: rest =>
    if c = close then some ([], rest) else readItems item close (text.length + 1) (c :: rest)

/-- A member of an object; the reader of the value is told the name. -/
def readMember {α : Type} (value : String → List Char → Option (α × List Char))
    (text : List Char) : Option ((String × α) × List Char) :=
  match skipBlank text with
  | '"' :: rest => do
    let (name, rest) ← readString rest
    match skipBlank rest with
    | ':' :: rest => do
      let (v, rest) ← value name rest
      some ((name, v), rest)
    | _ => none
  | _ => none

/-- A document that nests arrays and objects at most `limit` deep, and the text after it. -/
def readValue : Nat → List Char → Option (Json × List Char)
  | limit, text =>
    match skipBlank text with
    | 'n' :: 'u' :: 'l' :: 'l' :: rest => some (null, rest)
    | 't' :: 'r' :: 'u' :: 'e' :: rest => some (bool true, rest)
    | 'f' :: 'a' :: 'l' :: 's' :: 'e' :: rest => some (bool false, rest)
    | '"' :: rest => (readString rest).map fun (s, rest) => (string s, rest)
    | '-' :: rest => readUnsigned true rest
    | '[' :: rest =>
      match limit with
      | 0 => none
      | limit + 1 =>
        (readSequence (readValue limit) ']' rest).map fun (vs, rest) => (array vs, rest)
    | '\x7b' :: rest =>
      match limit with
      | 0 => none
      | limit + 1 =>
        (readSequence (readMember fun _ => readValue limit) '\x7d' rest).map
          fun (ms, rest) => (object ms, rest)
    | rest => readUnsigned false rest

/-- How deep arrays and objects may nest in a text. -/
def nestingLimit : Nat := 127

/-- What a reader of a whole text has read, if nothing but blanks is left. -/
def whollyRead? {α : Type} : Option (α × List Char) → Option α
  | some (a, rest) => if (skipBlank rest).isEmpty then some a else none
  | none => none

/-- A text that holds one document and nothing else. -/
def parseWithin? (limit : Nat) (text : String) : Option Json :=
  whollyRead? (readValue limit text.toList)

/-- A text as a document. -/
def parse? (text : String) : Option Json := parseWithin? nestingLimit text

/-! ### Values that nobody asks for -/

/-- The text after a string; any four hexadecimal digits may follow `\u`. -/
def skipString : List Char → Option (List Char)
  | [] => none
  | '"' :: rest => some rest
  | '\\' :: 'u' :: a :: b :: c :: d :: rest =>
    if (hexUnit? a b c d).isSome then skipString rest else none
  | '\\' :: c :: rest => if (escape? c).isSome then skipString rest else none
  | c :: rest => if c.toNat < 0x20 then none else skipString rest

/-- The text after a member of an object. -/
def skipMember (value : List Char → Option (List Char)) (text : List Char) :
    Option (List Char) :=
  match skipBlank text with
  | '"' :: rest => do
    match skipBlank (← skipString rest) with
    | ':' :: rest => value rest
    | _ => none
  | _ => none

/-- The text after any number of items; each item leads to the text after it. -/
def skipSequence (item : List Char → Option (List Char)) (close : Char) (text : List Char) :
    Option (List Char) :=
  (readSequence (fun text => (item text).map ((), ·)) close text).map (·.2)

/-- The text after a value that nests at most `depth` deep. -/
def skipValue : Nat → List Char → Option (List Char)
  | depth, text =>
    match skipBlank text with
    | 'n' :: 'u' :: 'l' :: 'l' :: rest => some rest
    | 't' :: 'r' :: 'u' :: 'e' :: rest => some rest
    | 'f' :: 'a' :: 'l' :: 's' :: 'e' :: rest => some rest
    | '"' :: rest => skipString rest
    | '-' :: rest => (readNumeral rest).map (·.2)
    | '[' :: rest =>
      match depth with
      | 0 => none
      | depth + 1 => skipSequence (skipValue depth) ']' rest
    | '\x7b' :: rest =>
      match depth with
      | 0 => none
      | depth + 1 => skipSequence (skipMember (skipValue depth)) '\x7d' rest
    | rest => (readNumeral rest).map (·.2)

/-- The value of a member with one of the names, or nothing for any other member. -/
def readNamed (names : List String) (name : String) (text : List Char) :
    Option (Option Json × List Char) :=
  if names.contains name then
    (readValue (nestingLimit - 1) text).map fun (value, rest) => (some value, rest)
  else (skipValue text.length text).map (none, ·)

/-- A text as a document; an object keeps the members with the given names only. -/
def parseNamed? (names : List String) (text : String) : Option Json :=
  match skipBlank text.toList with
  | '\x7b' :: rest =>
    (whollyRead? (readSequence (readMember (readNamed names)) '\x7d' rest)).map fun members =>
      object (members.filterMap fun (name, value) => value.map (name, ·))
  | _ => parse? text

end Json

end ViewBinding
