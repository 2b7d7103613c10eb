import ViewBinding.Content

/-!
# MessagePack.Reader — from bytes to content

Every form of the format is read.  Sequences and mappings nest at most `limit` deep.  A text whose
bytes are no UTF-8 is read as bytes.  A reader gives what it has read and the bytes after it.
-/

namespace ViewBinding

namespace MessagePack

/-- The number that bytes denote, the most significant first. -/
def bigEndian (data : List UInt8) : Nat := data.foldl (fun n b => 256 * n + b.toNat) 0

/-- The first `n` bytes, if there are so many. -/
def take? (n : Nat) (data : List UInt8) : Option (List UInt8 × List UInt8) :=
  if n ≤ data.length then some (data.splitAt n) else none

/-- An unsigned number of `n` bytes. -/
def natural? (n : Nat) (data : List UInt8) : Option (Nat × List UInt8) :=
  (take? n data).map fun (digits, rest) => (bigEndian digits, rest)

/-- A signed number of `n` bytes. -/
def integer? (n : Nat) (data : List UInt8) : Option (Int × List UInt8) :=
  (natural? n data).map fun (value, rest) => (Int.bmod value (Nat.pow 256 n), rest)

/-- The bits of the number whose short form has the given 32 bits.  NaN keeps its payload. -/
def widen (bits : Nat) : UInt64 :=
  let sign := bits / Nat.pow 2 31 * Nat.pow 2 63
  let biased := bits / Nat.pow 2 23 % Nat.pow 2 8
  let fraction := bits % Nat.pow 2 23
  if biased = 255 then
    let payload := if fraction = 0 then 0 else fraction * Nat.pow 2 29 ||| Nat.pow 2 51
    UInt64.ofNat (sign + 2047 * Nat.pow 2 52 + payload)
  else (Float32.ofBits (UInt32.ofNat bits)).toFloat.toBits

/-- The content of text bytes. -/
def textContent (data : List UInt8) : Content :=
  match String.fromUTF8? ⟨data.toArray⟩ with
  | some s => .text s
  | none => .bytes data

/-- A text of `n` bytes. -/
def text? (n : Nat) (data : List UInt8) : Option (Content × List UInt8) :=
  (take? n data).map fun (chars, rest) => (textContent chars, rest)

/-- Bytes of the number that `width` bytes denote. -/
def bytes? (width : Nat) (data : List UInt8) : Option (Content × List UInt8) := do
  let (n, rest) ← natural? width data
  let (value, rest) ← take? n rest
  some (.bytes value, rest)

/-- `count` items, one after the other. -/
def readMany {α : Type} (item : List UInt8 → Option (α × List UInt8)) :
    Nat → List UInt8 → Option (List α × List UInt8)
  | 0, data => some ([], data)
  | count + 1, data => do
    let (a, rest) ← item data
    let (as, rest) ← readMany item count rest
    some (a :: as, rest)

/-- A key and its value. -/
def readEntry (value : List UInt8 → Option (Content × List UInt8)) (data : List UInt8) :
    Option ((Content × Content) × List UInt8) := do
  let (key, rest) ← value data
  let (v, rest) ← value rest
  some ((key, v), rest)

/-- A sequence of `count` items. -/
def readSequence (item : List UInt8 → Option (Content × List UInt8)) (count : Nat)
    (data : List UInt8) : Option (Content × List UInt8) :=
  (readMany item count data).map fun (items, rest) => (.sequence items, rest)

/-- A mapping of `count` entries. -/
def readMapping (item : List UInt8 → Option (Content × List UInt8)) (count : Nat)
    (data : List UInt8) : Option (Content × List UInt8) :=
  (readMany (readEntry item) count data).map fun (entries, rest) => (.mapping entries, rest)

/-- Application data: a type byte and `n` bytes. -/
def foreign? (n : Nat) (data : List UInt8) : Option (Content × List UInt8) :=
  (take? (n + 1) data).map fun (_, rest) => (.foreign, rest)

/-- What follows a leading byte of `0xC0` or more that is no small negative number. -/
def readForm (item : List UInt8 → Option (Content × List UInt8)) (lead : Nat) (data : List UInt8) :
    Option (Content × List UInt8) :=
  match lead with
  | 0xC0 => some (.unit, data)
  | 0xC2 => some (.bool false, data)
  | 0xC3 => some (.bool true, data)
  | 0xC4 => bytes? 1 data
  | 0xC5 => bytes? 2 data
  | 0xC6 => bytes? 4 data
  | 0xC7 => do let (n, rest) ← natural? 1 data; foreign? n rest
  | 0xC8 => do let (n, rest) ← natural? 2 data; foreign? n rest
  | 0xC9 => do let (n, rest) ← natural? 4 data; foreign? n rest
  | 0xCA => do
    let (bits, rest) ← natural? 4 data
    some (.real (widen bits), rest)
  | 0xCB => do
    let (bits, rest) ← natural? 8 data
    some (.real (UInt64.ofNat bits), rest)
  | 0xCC => do let (n, rest) ← natural? 1 data; some (.unsigned 8 n, rest)
  | 0xCD => do let (n, rest) ← natural? 2 data; some (.unsigned 16 n, rest)
  | 0xCE => do let (n, rest) ← natural? 4 data; some (.unsigned 32 n, rest)
  | 0xCF => do let (n, rest) ← natural? 8 data; some (.unsigned 64 n, rest)
  | 0xD0 => do let (i, rest) ← integer? 1 data; some (.signed i, rest)
  | 0xD1 => do let (i, rest) ← integer? 2 data; some (.signed i, rest)
  | 0xD2 => do let (i, rest) ← integer? 4 data; some (.signed i, rest)
  | 0xD3 => do let (i, rest) ← integer? 8 data; some (.signed i, rest)
  | 0xD4 => foreign? 1 data
  | 0xD5 => foreign? 2 data
  | 0xD6 => foreign? 4 data
  | 0xD7 => foreign? 8 data
  | 0xD8 => foreign? 16 data
  | 0xD9 => do let (n, rest) ← natural? 1 data; text? n rest
  | 0xDA => do let (n, rest) ← natural? 2 data; text? n rest
  | 0xDB => do let (n, rest) ← natural? 4 data; text? n rest
  | 0xDC => do let (n, rest) ← natural? 2 data; readSequence item n rest
  | 0xDD => do let (n, rest) ← natural? 4 data; readSequence item n rest
  | 0xDE => do let (n, rest) ← natural? 2 data; readMapping item n rest
  | 0xDF => do let (n, rest) ← natural? 4 data; readMapping item n rest
  | _ => none

/-- One value that nests sequences and mappings at most `limit` deep. -/
def readValue : Nat → List UInt8 → Option (Content × List UInt8)
  | _, [] => none
  | limit, lead :: data =>
    let item : List UInt8 → Option (Content × List UInt8) :=
      match limit with
      | 0 => fun _ => none
      | limit + 1 => readValue limit
    let n := lead.toNat
    let nests := (0x80 ≤ n && n < 0xA0) || (0xC7 ≤ n && n ≤ 0xC9) || (0xD4 ≤ n && n ≤ 0xD8)
      || (0xDC ≤ n && n ≤ 0xDF)
    if nests && limit == 0 then none
    else if n < 0x80 then some (.unsigned 8 n, data)
    else if n < 0x90 then readMapping item (n - 0x80) data
    else if n < 0xA0 then readSequence item (n - 0x90) data
    else if n < 0xC0 then text? (n - 0xA0) data
    else if 0xE0 ≤ n then some (.signed ((n : Int) - 256), data)
    else readForm item n data

/-- How deep sequences and mappings may nest. -/
def nestingLimit : Nat := 1023

/-- The first value of the bytes; what follows it is ignored. -/
def decode? (data : List UInt8) : Option Content :=
  (readValue nestingLimit data).map (·.1)

end MessagePack

end ViewBinding
