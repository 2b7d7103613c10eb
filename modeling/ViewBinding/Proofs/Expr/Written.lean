import ViewBinding.Proofs.Expr.Nodes
import ViewBinding.Proofs.Json.Documents
import ViewBinding.Proofs.MessagePack.Contents
import ViewBinding.Proofs.Numeric.Below

/-!
# Expr.Written — expressions survive being written

An expression that nests no deeper than a format allows is read back from what was written of it.
MessagePack keeps every bit of a number, and asks only that lengths fit 32 bits
(`ofMessagePack?_append`).  JSON writes digits, so there each number has to be read back from its own
text (`ofJson?_toJson`).
-/

namespace ViewBinding

open Float.Model

/-! ### How deep content nests -/

namespace Content

mutual

/-- How deep sequences and mappings nest. -/
def nesting : Content → Nat
  | sequence items => itemsNesting items + 1
  | mapping entries => entriesNesting entries + 1
  | _ => 0

/-- The greatest nesting of the items. -/
def itemsNesting : List Content → Nat
  | [] => 0
  | item :: rest => max item.nesting (itemsNesting rest)

/-- The greatest nesting of the keys and values. -/
def entriesNesting : List (Content × Content) → Nat
  | [] => 0
  | (key, value) :: rest => max (max key.nesting value.nesting) (entriesNesting rest)

end

theorem nesting_sequence_le {items : List Content} {n : Nat} :
    (sequence items).nesting ≤ n + 1 ↔ ∀ item ∈ items, item.nesting ≤ n := by
  rw [nesting, Nat.add_le_add_iff_right]
  induction items with
  | nil => simp [itemsNesting]
  | cons item items ih => rw [itemsNesting, Nat.max_le, ih, List.forall_mem_cons]

theorem nesting_mapping_le {entries : List (Content × Content)} {n : Nat} :
    (mapping entries).nesting ≤ n + 1 ↔
      ∀ entry ∈ entries, entry.1.nesting ≤ n ∧ entry.2.nesting ≤ n := by
  rw [nesting, Nat.add_le_add_iff_right]
  induction entries with
  | nil => simp [entriesNesting]
  | cons entry entries ih =>
    rw [entriesNesting, Nat.max_le, Nat.max_le, ih, List.forall_mem_cons]

end Content

namespace Expr

/-- A number is mentioned in an expression. -/
inductive Mentions (bits : UInt64) : Expr → Prop
  | here : Mentions bits (primitive (.number bits))
  | beneath {e c : Expr} (m : c ∈ e.children) (h : Mentions bits c) : Mentions bits e

theorem mentions_iff {bits : UInt64} {e : Expr} :
    e.Mentions bits ↔ .literal (.number bits) ∈ e.parts ∨ ∃ c ∈ e.children, c.Mentions bits := by
  constructor
  · rintro (_ | ⟨m, h⟩)
    · exact .inl (.head _)
    · exact .inr ⟨_, m, h⟩
  · rintro (m | ⟨c, m, h⟩)
    · cases e with
      | primitive value =>
        cases List.mem_singleton.mp m
        exact .here
      | _ => simp [parts] at m
    · exact .beneath m h

theorem not_mentions_name (n : String) (bits : UInt64) : ¬ (name n).Mentions bits := by
  rintro ⟨⟩
  contradiction

theorem not_mentions_string (s : String) (bits : UInt64) : ¬ (string s).Mentions bits := by
  rintro ⟨⟩
  contradiction

theorem mentions_primitive {p : Primitive} {bits : UInt64} :
    (primitive p).Mentions bits ↔ p = .number bits := by
  rw [mentions_iff]
  simp [parts, children, Part.children, eq_comm]

theorem mentions_array {es : List Expr} {bits : UInt64} :
    (array es).Mentions bits ↔ ∃ e ∈ es, e.Mentions bits := by
  rw [mentions_iff]
  simp [parts, children, Part.children]

theorem mentions_callName {n : String} {args : List Expr} {bits : UInt64} :
    (callName n args).Mentions bits ↔ ∃ e ∈ args, e.Mentions bits := by
  rw [mentions_iff]
  simp [parts, children, Part.children]

theorem nesting_toContent_le {e : Expr} {n : Nat} :
    e.toContent.nesting ≤ n + 1 ↔ ∀ part ∈ e.parts, part.toContent.nesting ≤ n := by
  have keys : ∀ entry ∈ entries e.kind (e.parts.map Part.toContent), entry.1.nesting ≤ n := by
    intro entry m
    obtain ⟨name, -, eq⟩ := key_of_mem_entries m
    rw [eq]
    exact Nat.zero_le n
  have values := forall_mem_entries_iff e.length_map_parts (P := (·.nesting ≤ n))
  rw [toContent_eq_node, node, ← entries, Content.nesting_mapping_le, forall₂_and, and_iff_right keys,
    values, List.forall_mem_map]
  exact and_iff_right (Nat.zero_le n)

theorem nesting_pos (e : Expr) : 0 < e.toContent.nesting := by
  rw [toContent_eq_node]
  exact Nat.succ_pos _

end Expr

/-! ### MessagePack -/

namespace Expr.Part

/-- The texts of a field have fewer than `2 ^ 32` bytes and its lists fewer than `2 ^ 32` items. -/
def Short : Part → Prop
  | text s => s.utf8ByteSize < 2 ^ 32
  | exprs es => es.length < 2 ^ 32
  | texts ss => ss.length < 2 ^ 32 ∧ ∀ s ∈ ss, s.utf8ByteSize < 2 ^ 32
  | _ => True

theorem fits_toContent {part : Part} {limit : Nat} (nesting : part.toContent.nesting ≤ limit)
    (short : part.Short)
    (each : ∀ c ∈ part.children, ∀ limit, c.toContent.nesting ≤ limit →
      MessagePack.Fits limit c.toContent) :
    MessagePack.Fits limit part.toContent := by
  cases part with
  | expr e => exact each e (.head _) limit nesting
  | text s => exact .text short
  | exprs es =>
    obtain _ | limit := limit
    · cases nesting
    rw [toContent, Expr.toContents_eq] at nesting ⊢
    rw [Content.nesting_sequence_le, List.forall_mem_map] at nesting
    exact .sequence (by simpa [Short] using short)
      (List.forall_mem_map.mpr fun c m => each c m limit (nesting c m))
  | texts ss =>
    obtain _ | limit := limit
    · cases nesting
    exact .sequence (by simpa [Short] using short.1)
      (List.forall_mem_map.mpr fun s m => .text (short.2 s m))
  | literal p =>
    cases p with
    | null | undefined => exact .text (by decide)
    | bool | number =>
      obtain _ | limit := limit
      · cases nesting
      refine .mapping (show 1 < 2 ^ 32 by decide) ?_ ?_
      · exact List.forall_mem_singleton.mpr (.text (by decide))
      · exact List.forall_mem_singleton.mpr (by constructor)

end Expr.Part

namespace Expr

/-- Every text of an expression has fewer than `2 ^ 32` bytes and every list fewer than `2 ^ 32`
items. -/
inductive Short : Expr → Prop
  | node {e : Expr} (own : ∀ part ∈ e.parts, part.Short) (beneath : ∀ c ∈ e.children, Short c) :
    Short e

theorem short_name {n : String} (short : n.utf8ByteSize < 2 ^ 32) : (name n).Short :=
  .node (List.forall_mem_singleton.mpr short) nofun

theorem short_string {s : String} (short : s.utf8ByteSize < 2 ^ 32) : (string s).Short :=
  .node (List.forall_mem_singleton.mpr short) nofun

theorem short_primitive (p : Primitive) : (primitive p).Short :=
  .node (List.forall_mem_singleton.mpr trivial) nofun

theorem short_array {es : List Expr} (few : es.length < 2 ^ 32) (each : ∀ e ∈ es, e.Short) :
    (array es).Short :=
  .node (List.forall_mem_singleton.mpr few) (by simpa [children, parts, Part.children] using each)

theorem short_callName {n : String} {args : List Expr} (short : n.utf8ByteSize < 2 ^ 32)
    (few : args.length < 2 ^ 32) (each : ∀ e ∈ args, e.Short) : (callName n args).Short :=
  .node (by simpa [parts, Part.Short] using ⟨short, few⟩)
    (by simpa [children, parts, Part.children] using each)

/-- The names that a node is written with are few and short. -/
theorem short_names (kind : Kind) :
    kind.fields.length < 5 ∧ kind.label.utf8ByteSize < 2 ^ 32 ∧
      ∀ name ∈ "type" :: kind.fields, name.utf8ByteSize < 2 ^ 32 := by
  cases kind <;> decide

theorem fits_toContent {e : Expr} (short : e.Short) {limit : Nat}
    (nesting : e.toContent.nesting ≤ limit) : MessagePack.Fits limit e.toContent := by
  induction short generalizing limit with
  | @node e own beneath ih =>
    obtain _ | limit := limit
    · exact absurd nesting (Nat.not_le_of_lt e.nesting_pos)
    rw [nesting_toContent_le] at nesting
    obtain ⟨few, label, names⟩ := short_names e.kind
    have same := e.length_map_parts
    have values := forall_mem_entries_iff same (P := MessagePack.Fits limit)
    rw [toContent_eq_node, node, ← entries]
    refine .mapping ?_ (fun entry m => ?_) (values.mpr ⟨.text label, ?_⟩)
    · simp only [entries, List.length_cons, List.length_zip, List.length_map]
      omega
    · obtain ⟨name, mem, eq⟩ := key_of_mem_entries m
      exact eq ▸ .text (names name mem)
    · refine List.forall_mem_map.mpr fun part m => ?_
      exact Part.fits_toContent (nesting part m) (own part m) fun c below _ =>
        ih c (mem_children.mpr ⟨part, m, below⟩)

/-- **MessagePack keeps every expression**, whatever follows its bytes. -/
theorem ofMessagePack?_append {e : Expr} (short : e.Short)
    (nesting : e.toContent.nesting ≤ MessagePack.nestingLimit) (rest : List UInt8) :
    ofMessagePack? (e.toMessagePack ++ rest) = some e := by
  have decoded := MessagePack.decode?_encode (e.fits_toContent short nesting) rest
  simp only [ofMessagePack?, toMessagePack, decoded, Option.bind_eq_bind, Option.bind_some,
    ofContent?_toContent Kind.ofAny?_label]

end Expr

/-! ### JSON -/

/-- Whether a number is read back can be computed. -/
instance (x : Float) : Decidable (Json.real x).ReadsBack :=
  decidable_of_iff ((match Json.parse? (Json.real x).print with
    | some (.real y) => y.toBits == x.toBits
    | _ => false) = true) <| by
  unfold Json.ReadsBack
  split
  next y eq => rw [eq, Option.some.injEq, Json.real.injEq, beq_iff_eq, Float.toBits_inj]
  next other => exact ⟨nofun, fun eq => (other x eq).elim⟩

/-- The number has a JSON form: it is finite, and its text is read back. -/
structure HasJson (bits : UInt64) : Prop where
  finite : (Float.ofBits bits).isFinite
  back : (Json.real (Float.ofBits bits)).ReadsBack

theorem isNaN_eq_false {x : Float} (h : x.isFinite) : x.isNaN = false := by
  change x.toModel.unpack.isFinite = true at h
  show x.toModel.unpack.isNaN = false
  generalize x.toModel.unpack = u at h ⊢
  cases u with
  | zero | finite => rfl
  | infinity | notANumber => cases h

/-- A number keeps its bits unless it is NaN. -/
theorem toBits_ofBits {bits : UInt64} (h : (Float.ofBits bits).isNaN = false) :
    (Float.ofBits bits).toBits = bits := by
  have packed := @UnpackedFloat.pack_unpack .binary64 bits.toBitVec (by decide)
  change (UnpackedFloat.unpack .binary64 (UnpackedFloat.pack .binary64
    (UnpackedFloat.unpack .binary64 bits.toBitVec))).isNaN = false at h
  refine UInt64.toBitVec_inj.mp (packed.trans ?_)
  split at packed
  · rw [packed, UnpackedFloat.unpack_packedNaN] at h
    cases h
  next number => exact if_neg number

namespace Content

/-- JSON keeps the content: it is the content of its document, and the document nests at most
`limit` deep and has numbers that are read back. -/
structure Kept (limit : Nat) (content : Content) : Prop where
  same : ofJson content.toJson = content
  within : content.toJson.Within Json.ReadsBack limit

variable {limit : Nat}

theorem kept_text (s : String) : Kept limit (text s) := ⟨rfl, .string s⟩

theorem kept_bool (b : Bool) : Kept limit (bool b) := ⟨rfl, .bool b⟩

theorem kept_real {bits : UInt64} (number : HasJson bits) : Kept limit (real bits) :=
  ⟨congrArg real (toBits_ofBits (isNaN_eq_false number.finite)), .real number.back⟩

theorem toItems_eq (items : List Content) : toItems items = items.map toJson := by
  induction items with
  | nil => rfl
  | cons item items ih => rw [toItems, ih, List.map_cons]

theorem ofItems_eq (items : List Json) : ofItems items = items.map ofJson := by
  induction items with
  | nil => rfl
  | cons item items ih => rw [ofItems, ih, List.map_cons]

theorem toMembers_eq (entries : List (Content × Content)) :
    toMembers entries = entries.map fun entry => (entry.1.asText?.getD "", entry.2.toJson) := by
  induction entries with
  | nil => rfl
  | cons entry entries ih => rw [toMembers, ih, List.map_cons]

theorem ofMembers_eq (members : List (String × Json)) :
    ofMembers members = members.map fun member => (text member.1, ofJson member.2) := by
  induction members with
  | nil => rfl
  | cons member members ih => rw [ofMembers, ih, List.map_cons]

theorem kept_sequence {items : List Content} (each : ∀ item ∈ items, Kept limit item) :
    Kept (limit + 1) (sequence items) where
  same := by
    have same : ∀ item ∈ items, (ofJson ∘ toJson) item = item := fun item m => (each item m).same
    rw [toJson, ofJson, toItems_eq, ofItems_eq, List.map_map, List.map_congr_left same, List.map_id']
  within := by
    rw [toJson, toItems_eq]
    exact .array (List.forall_mem_map.mpr fun item m => (each item m).within)

theorem kept_mapping {entries : List (Content × Content)}
    (keys : ∀ entry ∈ entries, ∃ s, entry.1 = text s)
    (values : ∀ entry ∈ entries, Kept limit entry.2) : Kept (limit + 1) (mapping entries) where
  same := by
    rw [toJson, ofJson, toMembers_eq, ofMembers_eq, List.map_map]
    refine congrArg mapping ((List.map_congr_left fun entry m => ?_).trans (List.map_id' entries))
    obtain ⟨s, key⟩ := keys entry m
    simp [key, asText?, (values entry m).same, Prod.ext_iff]
  within := by
    rw [toJson, toMembers_eq]
    exact .object (List.forall_mem_map.mpr fun entry m => (values entry m).within)

end Content

theorem Expr.Part.kept_toContent {part : Expr.Part} {limit : Nat}
    (nesting : part.toContent.nesting ≤ limit)
    (numbers : ∀ bits, part = .literal (.number bits) → HasJson bits)
    (each : ∀ c ∈ part.children, ∀ limit, c.toContent.nesting ≤ limit →
      Content.Kept limit c.toContent) :
    Content.Kept limit part.toContent := by
  cases part with
  | expr e => exact each e (.head _) limit nesting
  | text s => exact Content.kept_text s
  | exprs es =>
    obtain _ | limit := limit
    · cases nesting
    rw [toContent, Expr.toContents_eq] at nesting ⊢
    rw [Content.nesting_sequence_le, List.forall_mem_map] at nesting
    exact Content.kept_sequence (List.forall_mem_map.mpr fun c m => each c m limit (nesting c m))
  | texts ss =>
    obtain _ | limit := limit
    · cases nesting
    exact Content.kept_sequence (List.forall_mem_map.mpr fun s _ => Content.kept_text s)
  | literal p =>
    cases p with
    | null | undefined => exact Content.kept_text _
    | bool b =>
      obtain _ | limit := limit
      · cases nesting
      exact Content.kept_mapping (List.forall_mem_singleton.mpr ⟨_, rfl⟩)
        (List.forall_mem_singleton.mpr (Content.kept_bool b))
    | number bits =>
      obtain _ | limit := limit
      · cases nesting
      have number := numbers bits rfl
      exact Content.kept_mapping (List.forall_mem_singleton.mpr ⟨_, rfl⟩)
        (List.forall_mem_singleton.mpr (Content.kept_real number))

namespace Expr

theorem kept_toContent {e : Expr} (numbers : ∀ bits, e.Mentions bits → HasJson bits) {limit : Nat}
    (nesting : e.toContent.nesting ≤ limit) : Content.Kept limit e.toContent := by
  induction e using children_induction generalizing limit with
  | step e ih =>
    obtain _ | limit := limit
    · exact absurd nesting (Nat.not_le_of_lt e.nesting_pos)
    rw [nesting_toContent_le] at nesting
    have values := forall_mem_entries_iff e.length_map_parts (P := Content.Kept limit)
    rw [toContent_eq_node, node, ← entries]
    refine Content.kept_mapping (fun entry m => ?_) (values.mpr ⟨Content.kept_text _, ?_⟩)
    · obtain ⟨name, -, eq⟩ := key_of_mem_entries m
      exact ⟨name, eq⟩
    · refine List.forall_mem_map.mpr fun part m => ?_
      refine Part.kept_toContent (nesting part m)
        (fun bits eq => numbers bits (mentions_iff.mpr (.inl (eq ▸ m)))) fun c below _ =>
          have m := mem_children.mpr ⟨part, m, below⟩
          ih c m (fun bits h => numbers bits (.beneath m h))

/-- **JSON keeps every expression** whose numbers have a JSON form. -/
theorem ofJson?_toJson {e : Expr} (nesting : e.toContent.nesting ≤ Json.nestingLimit)
    (numbers : ∀ bits, e.Mentions bits → HasJson bits) : ofJson? e.toJson = some e := by
  have kept := e.kept_toContent numbers nesting
  simp only [ofJson?, toJson, Json.parse?_print kept.within, kept.same, Option.bind_eq_bind,
    Option.bind_some, ofContent?_toContent Kind.ofText?_label]

end Expr

end ViewBinding
