import ViewBinding.Content

/-!
# MessagePack.Writer — from content to bytes

Every length has the shortest header that holds it; floating-point numbers have eight bytes.
-/

namespace ViewBinding

namespace MessagePack

/-- The last `count` bytes of a number, the most significant first. -/
def toBigEndian : Nat → Nat → List UInt8
  | 0, _ => []
  | count + 1, n => UInt8.ofNat (n / Nat.pow 256 count) :: toBigEndian count n

/-- The shortest header among a one-byte form, which carries lengths below `small`, and forms with
a length of one, two or four bytes.  Of a longer length only the last four bytes count. -/
def header (base small : Nat) (one? : Option Nat) (two four : Nat) (length : Nat) : List UInt8 :=
  let length := length % Nat.pow 2 32
  if length < small then [UInt8.ofNat (base + length)]
  else
    match one? with
    | some one =>
      if length < Nat.pow 2 8 then UInt8.ofNat one :: toBigEndian 1 length
      else if length < Nat.pow 2 16 then UInt8.ofNat two :: toBigEndian 2 length
      else UInt8.ofNat four :: toBigEndian 4 length
    | none =>
      if length < Nat.pow 2 16 then UInt8.ofNat two :: toBigEndian 2 length
      else UInt8.ofNat four :: toBigEndian 4 length

/-- The header of a text of so many bytes. -/
def textHeader : Nat → List UInt8 := header 0xA0 32 (some 0xD9) 0xDA 0xDB

/-- The header of so many bytes. -/
def bytesHeader : Nat → List UInt8 := header 0xC4 0 (some 0xC4) 0xC5 0xC6

/-- The header of a sequence of so many items. -/
def sequenceHeader : Nat → List UInt8 := header 0x90 16 none 0xDC 0xDD

/-- The header of a mapping of so many entries. -/
def mappingHeader : Nat → List UInt8 := header 0x80 16 none 0xDE 0xDF

/-- A text. -/
def encodeText (s : String) : List UInt8 :=
  let data := s.toUTF8.data.toList
  textHeader data.length ++ data

/-- A floating-point number. -/
def encodeReal (bits : UInt64) : List UInt8 := 0xCB :: toBigEndian 8 bits.toNat

mutual

/-- The bytes of content. -/
def encode : Content → List UInt8
  | .unit => [0xC0]
  | .bool false => [0xC2]
  | .bool true => [0xC3]
  | .unsigned _ n => 0xCF :: toBigEndian 8 n
  | .signed i => 0xD3 :: toBigEndian 8 (i % Nat.pow 2 64).toNat
  | .real bits => encodeReal bits
  | .text s => encodeText s
  | .bytes data => bytesHeader data.length ++ data
  | .sequence items => sequenceHeader items.length ++ encodeItems items
  | .mapping entries => mappingHeader entries.length ++ encodeEntries entries
  | .foreign => [0xC0]

/-- The items one after the other. -/
def encodeItems : List Content → List UInt8
  | [] => []
  | item :: rest => encode item ++ encodeItems rest

/-- The keys and values one after the other. -/
def encodeEntries : List (Content × Content) → List UInt8
  | [] => []
  | (key, value) :: rest => encode key ++ encode value ++ encodeEntries rest

end

end MessagePack

end ViewBinding
