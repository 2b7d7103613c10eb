import Mathlib
import ViewBinding.MessagePack.Reader
import ViewBinding.MessagePack.Writer

/-!
# MessagePack — what is written is read back

The form of a length or a number depends on its size.  Whatever form the writer takes, the reader
finds the length that was meant, as far as it fits 32 bits: `readValue_textHeader` and its
companions lead from a header to the reading of what it announces.

So content that nests no deeper than the reader allows and whose lengths and numbers fit their forms
is read back from its bytes, whatever follows them (`decode?_encode`).
-/

namespace ViewBinding

namespace MessagePack

/-! ### Numbers, the most significant byte first -/

theorem length_toBigEndian (count n : Nat) : (toBigEndian count n).length = count := by
  induction count with
  | zero => rfl
  | succ count ih => rw [toBigEndian, List.length_cons, ih]

theorem foldl_toBigEndian (start count n : Nat) :
    (toBigEndian count n).foldl (fun n b => 256 * n + b.toNat) start =
      256 ^ count * start + n % 256 ^ count := by
  induction count generalizing start with
  | zero => simp [toBigEndian, Nat.mod_one]
  | succ count ih =>
    have digit : (UInt8.ofNat (n / Nat.pow 256 count)).toNat = n / 256 ^ count % 256 := by simp
    rw [toBigEndian, List.foldl_cons, ih, digit, Nat.mod_pow_succ, Nat.pow_succ, Nat.mul_add,
      Nat.mul_assoc]
    omega

theorem take?_append (data rest : List UInt8) :
    take? data.length (data ++ rest) = some (data, rest) := by
  simp [take?]

theorem natural?_toBigEndian {count n : Nat} (small : n < 256 ^ count) (rest : List UInt8) :
    natural? count (toBigEndian count n ++ rest) = some (n, rest) := by
  have taken := take?_append (toBigEndian count n) rest
  rw [length_toBigEndian] at taken
  simp only [natural?, taken, Option.map_some, bigEndian, foldl_toBigEndian, Nat.mul_zero,
    Nat.zero_add, Nat.mod_eq_of_lt small]

/-! ### Headers -/

/-- The reader of what a sequence or mapping holds. -/
def inner : Nat → List UInt8 → Option (Content × List UInt8)
  | 0 => fun _ => none
  | limit + 1 => readValue limit

/-- Whether a lead byte announces something that nests. -/
def nests (lead : Nat) : Bool :=
  (0x80 ≤ lead && lead < 0xA0) || (0xC7 ≤ lead && lead ≤ 0xC9) || (0xD4 ≤ lead && lead ≤ 0xD8)
    || (0xDC ≤ lead && lead ≤ 0xDF)

theorem readValue_cons (limit : Nat) (lead : UInt8) (rest : List UInt8) :
    readValue limit (lead :: rest) =
      if nests lead.toNat && limit == 0 then none
      else if lead.toNat < 0x80 then some (.unsigned 8 lead.toNat, rest)
      else if lead.toNat < 0x90 then readMapping (inner limit) (lead.toNat - 0x80) rest
      else if lead.toNat < 0xA0 then readSequence (inner limit) (lead.toNat - 0x90) rest
      else if lead.toNat < 0xC0 then text? (lead.toNat - 0xA0) rest
      else if 0xE0 ≤ lead.toNat then some (.signed ((lead.toNat : Int) - 256), rest)
      else readForm (inner limit) lead.toNat rest := by
  cases limit <;> rfl

section Headers

variable {limit : Nat} {goOn : Nat → List UInt8 → Option (Content × List UInt8)}

/-- The lead byte announces a length of `width` bytes, with which `goOn` goes on. -/
def Announces (limit lead width : Nat) (goOn : Nat → List UInt8 → Option (Content × List UInt8)) :
    Prop :=
  ∀ data, readValue limit (UInt8.ofNat lead :: data) =
    (natural? width data).bind fun (n, rest) => goOn n rest

theorem Announces.read {lead width n : Nat} (announces : Announces limit lead width goOn)
    (small : n < 256 ^ width) (rest : List UInt8) :
    readValue limit ((UInt8.ofNat lead :: toBigEndian width n) ++ rest) = goOn n rest := by
  rw [List.cons_append, announces, natural?_toBigEndian small, Option.bind_some]

/-- **Whatever form a length has**, the reader goes on with it. -/
theorem readValue_header {base small two four n : Nat} {one? : Option Nat} {rest : List UInt8}
    (short : ∀ m < small, readValue limit (UInt8.ofNat (base + m) :: rest) = goOn m rest)
    (one : ∀ lead ∈ one?, Announces limit lead 1 goOn) (two' : Announces limit two 2 goOn)
    (four' : Announces limit four 4 goOn) :
    readValue limit (header base small one? two four n ++ rest) = goOn (n % 2 ^ 32) rest := by
  have fits : n % 2 ^ 32 < 2 ^ 32 := Nat.mod_lt _ (Nat.two_pow_pos 32)
  have size : Nat.pow 2 32 = 2 ^ 32 := rfl
  unfold header
  rw [size]
  generalize n % 2 ^ 32 = n at fits
  simp only
  by_cases least : n < small
  · rw [if_pos least]
    exact short n least
  · rw [if_neg least]
    cases one? with
    | some lead =>
      simp only
      split_ifs with byte word
      · exact (one lead rfl).read byte rest
      · exact two'.read word rest
      · exact four'.read fits rest
    | none =>
      simp only
      split_ifs with word
      · exact two'.read word rest
      · exact four'.read fits rest

/-- A lead byte that carries a small number. -/
theorem readValue_lead {base m : Nat} (byte : base + m < 256) (limit : Nat) (rest : List UInt8) :
    readValue limit (UInt8.ofNat (base + m) :: rest) =
      if nests (base + m) && limit == 0 then none
      else if base + m < 0x80 then some (.unsigned 8 (base + m), rest)
      else if base + m < 0x90 then readMapping (inner limit) (base + m - 0x80) rest
      else if base + m < 0xA0 then readSequence (inner limit) (base + m - 0x90) rest
      else if base + m < 0xC0 then text? (base + m - 0xA0) rest
      else if 0xE0 ≤ base + m then some (.signed (((base + m : Nat) : Int) - 256), rest)
      else readForm (inner limit) (base + m) rest := by
  have lead : (UInt8.ofNat (base + m)).toNat = base + m := by simpa using byte
  rw [readValue_cons, lead]

theorem readValue_textHeader (limit n : Nat) (rest : List UInt8) :
    readValue limit (textHeader n ++ rest) = text? (n % 2 ^ 32) rest := by
  refine readValue_header (fun m short => ?_) ?_ (fun data => ?_) (fun data => ?_)
  · have flat : nests (0xA0 + m) = false := by simp [nests]; omega
    rw [readValue_lead (by omega), flat, if_neg (by simp), if_neg (by omega), if_neg (by omega),
      if_neg (by omega), if_pos (by omega), Nat.add_sub_cancel_left]
  · rintro _ ⟨⟩ data
    rw [readValue_cons]
    rfl
  · rw [readValue_cons]
    rfl
  · rw [readValue_cons]
    rfl

/-- The given bytes, without a header. -/
def bytesOf (n : Nat) (data : List UInt8) : Option (Content × List UInt8) :=
  (take? n data).map fun (value, rest) => (.bytes value, rest)

theorem bytes?_eq (width : Nat) (data : List UInt8) :
    bytes? width data = (natural? width data).bind fun (n, rest) => bytesOf n rest := by
  simp only [bytes?, bytesOf, Option.bind_eq_bind, Option.map_eq_bind, Function.comp_def]

theorem readValue_bytesHeader (limit n : Nat) (rest : List UInt8) :
    readValue limit (bytesHeader n ++ rest) = bytesOf (n % 2 ^ 32) rest := by
  refine readValue_header (fun _ short => absurd short (Nat.not_lt_zero _)) ?_ (fun data => ?_)
    (fun data => ?_)
  · rintro _ ⟨⟩ data
    rw [readValue_cons, ← bytes?_eq]
    rfl
  · rw [readValue_cons, ← bytes?_eq]
    rfl
  · rw [readValue_cons, ← bytes?_eq]
    rfl

theorem readValue_sequenceHeader (limit n : Nat) (rest : List UInt8) :
    readValue (limit + 1) (sequenceHeader n ++ rest) =
      readSequence (readValue limit) (n % 2 ^ 32) rest := by
  refine readValue_header (fun m short => ?_) nofun (fun data => ?_) (fun data => ?_)
  · rw [readValue_lead (by omega), if_neg (by simp), if_neg (by omega), if_neg (by omega),
      if_pos (by omega), Nat.add_sub_cancel_left]
    rfl
  · rw [readValue_cons]
    rfl
  · rw [readValue_cons]
    rfl

theorem readValue_mappingHeader (limit n : Nat) (rest : List UInt8) :
    readValue (limit + 1) (mappingHeader n ++ rest) =
      readMapping (readValue limit) (n % 2 ^ 32) rest := by
  refine readValue_header (fun m short => ?_) nofun (fun data => ?_) (fun data => ?_)
  · rw [readValue_lead (by omega), if_neg (by simp), if_neg (by omega), if_pos (by omega),
      Nat.add_sub_cancel_left]
    rfl
  · rw [readValue_cons]
    rfl
  · rw [readValue_cons]
    rfl

end Headers

/-! ### Contents that fit -/

/-- The content has a form: sequences and mappings nest at most `limit` deep, and lengths and whole
numbers fit the widest form for them. -/
inductive Fits : Nat → Content → Prop
  | unit {limit : Nat} : Fits limit .unit
  | bool {limit : Nat} (b : Bool) : Fits limit (.bool b)
  | unsigned {limit n : Nat} (small : n < 2 ^ 64) : Fits limit (.unsigned 64 n)
  | signed {limit : Nat} {i : Int} (low : -2 ^ 63 ≤ i) (high : i < 2 ^ 63) : Fits limit (.signed i)
  | real {limit : Nat} (bits : UInt64) : Fits limit (.real bits)
  | text {limit : Nat} {s : String} (short : s.utf8ByteSize < 2 ^ 32) : Fits limit (.text s)
  | bytes {limit : Nat} {data : List UInt8} (short : data.length < 2 ^ 32) :
    Fits limit (.bytes data)
  | sequence {limit : Nat} {items : List Content} (short : items.length < 2 ^ 32)
    (each : ∀ item ∈ items, Fits limit item) : Fits (limit + 1) (.sequence items)
  | mapping {limit : Nat} {entries : List (Content × Content)} (short : entries.length < 2 ^ 32)
    (keys : ∀ entry ∈ entries, Fits limit entry.1)
    (values : ∀ entry ∈ entries, Fits limit entry.2) : Fits (limit + 1) (.mapping entries)

/-! ### Texts -/

theorem textContent_toUTF8 (s : String) : textContent s.toUTF8.data.toList = .text s := by
  have valid : String.fromUTF8? ⟨s.toUTF8.data.toList.toArray⟩ = some s := by
    simp only [String.fromUTF8?, Array.toArray_toList, String.toUTF8]
    exact dif_pos s.isValidUTF8
  rw [textContent, valid]

theorem readValue_encodeText (limit : Nat) {s : String} (short : s.utf8ByteSize < 2 ^ 32)
    (rest : List UInt8) : readValue limit (encodeText s ++ rest) = some (.text s, rest) := by
  have size : s.toUTF8.data.toList.length % 2 ^ 32 = s.toUTF8.data.toList.length :=
    Nat.mod_eq_of_lt (by simpa using short)
  simp only [encodeText, List.append_assoc, readValue_textHeader, size, text?, take?_append,
    Option.map_some, textContent_toUTF8]

/-! ### Numbers -/

theorem readValue_encodeReal (limit : Nat) (bits : UInt64) (rest : List UInt8) :
    readValue limit (encodeReal bits ++ rest) = some (.real bits, rest) := by
  have form : readValue limit (encodeReal bits ++ rest) =
      (natural? 8 (toBigEndian 8 bits.toNat ++ rest)).bind fun p =>
        some (.real (UInt64.ofNat p.1), p.2) := by
    rw [encodeReal, List.cons_append, readValue_cons]
    rfl
  have small : bits.toNat < 256 ^ 8 := bits.toNat_lt
  simp only [form, natural?_toBigEndian small, Option.bind_some, UInt64.ofNat_toNat]

theorem readValue_unsigned (limit : Nat) {n : Nat} (small : n < 2 ^ 64) (rest : List UInt8) :
    readValue limit (encode (.unsigned 64 n) ++ rest) = some (.unsigned 64 n, rest) := by
  have form : readValue limit (encode (.unsigned 64 n) ++ rest) =
      (natural? 8 (toBigEndian 8 n ++ rest)).bind fun p =>
        some (.unsigned 64 p.1, p.2) := by
    rw [encode, List.cons_append, readValue_cons]
    rfl
  rw [form, natural?_toBigEndian small, Option.bind_some]

theorem readValue_signed (limit : Nat) {i : Int} (low : -2 ^ 63 ≤ i) (high : i < 2 ^ 63)
    (rest : List UInt8) :
    readValue limit (encode (.signed i) ++ rest) = some (.signed i, rest) := by
  have form : readValue limit (encode (.signed i) ++ rest) =
      (integer? 8 (toBigEndian 8 (i % 2 ^ 64).toNat ++ rest)).bind fun p =>
        some (.signed p.1, p.2) := by
    rw [encode, List.cons_append, readValue_cons]
    rfl
  have residue : (i % 2 ^ 64).toNat < 256 ^ 8 := by omega
  have back : Int.bmod (i % 2 ^ 64).toNat (Nat.pow 256 8) = i := by
    have size : Nat.pow 256 8 = 2 ^ 64 := rfl
    rw [size, Int.toNat_of_nonneg (Int.emod_nonneg _ (by decide)), Int.bmod_def]
    omega
  simp only [form, integer?, natural?_toBigEndian residue, Option.map_some, Option.bind_some, back]

/-! ### Sequences and mappings -/

section Many

variable {α : Type} {item : List UInt8 → Option (α × List UInt8)} {write : α → List UInt8}

/-- Items one after the other are read one after the other. -/
theorem readMany_flatMap {as : List α}
    (each : ∀ a ∈ as, ∀ rest, item (write a ++ rest) = some (a, rest)) (rest : List UInt8) :
    readMany item as.length (as.flatMap write ++ rest) = some (as, rest) := by
  induction as with
  | nil => rfl
  | cons a as ih =>
    simp only [List.forall_mem_cons] at each
    simp only [List.length_cons, readMany, List.flatMap_cons, List.append_assoc, each.1,
      Option.bind_eq_bind, Option.bind_some, ih each.2]

end Many

theorem encodeItems_eq (items : List Content) : encodeItems items = items.flatMap encode := by
  induction items with
  | nil => rfl
  | cons item items ih => rw [encodeItems, ih, List.flatMap_cons]

theorem encodeEntries_eq (entries : List (Content × Content)) :
    encodeEntries entries = entries.flatMap fun entry => encode entry.1 ++ encode entry.2 := by
  induction entries with
  | nil => rfl
  | cons entry entries ih => rw [encodeEntries, ih, List.flatMap_cons]

/-- **What is written is read back**, whatever follows it. -/
theorem Fits.readValue_encode {limit : Nat} {content : Content} (fits : Fits limit content)
    (rest : List UInt8) : readValue limit (encode content ++ rest) = some (content, rest) := by
  induction fits generalizing rest with
  | unit => rw [encode, List.cons_append, readValue_cons]; rfl
  | bool b => cases b <;> (rw [encode, List.cons_append, readValue_cons]; rfl)
  | unsigned small => exact readValue_unsigned _ small rest
  | signed low high => exact readValue_signed _ low high rest
  | real bits => exact readValue_encodeReal _ bits rest
  | text short => exact readValue_encodeText _ short rest
  | bytes short =>
    rw [encode, List.append_assoc, readValue_bytesHeader, Nat.mod_eq_of_lt short, bytesOf, take?_append,
      Option.map_some]
  | sequence short each ih =>
    rw [encode, List.append_assoc, readValue_sequenceHeader, Nat.mod_eq_of_lt short, readSequence,
      encodeItems_eq, readMany_flatMap ih, Option.map_some]
  | mapping short keys values ihKeys ihValues =>
    rw [encode, List.append_assoc, readValue_mappingHeader, Nat.mod_eq_of_lt short, readMapping,
      encodeEntries_eq, readMany_flatMap fun entry m rest => ?_, Option.map_some]
    simp only [readEntry, List.append_assoc, ihKeys entry m, ihValues entry m, Option.bind_eq_bind,
      Option.bind_some]

/-- Decoding finds what was encoded, whatever follows it. -/
theorem decode?_encode {content : Content} (fits : Fits nestingLimit content) (rest : List UInt8) :
    decode? (encode content ++ rest) = some content := by
  rw [decode?, fits.readValue_encode, Option.map_some]

end MessagePack

end ViewBinding
