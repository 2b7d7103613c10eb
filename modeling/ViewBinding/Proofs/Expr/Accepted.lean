import ViewBinding.Proofs.Expr.Agreement
import ViewBinding.Proofs.Expr.Written
import ViewBinding.Proofs.Json.Finite

/-!
# Expr.Accepted — what was read can be written

A text that is accepted need not be one that is written: its fields come in any order, among entries
that nobody asks for, a node may be a sequence, and a number may be whole.  Its expression is one
that can be written all the same: it nests no deeper than the text does, and its numbers are finite
(`fair_of_ofJson?`).  So JSON loses nothing, in either direction (`json_faithful`).
-/

namespace ViewBinding

/-! ### Content that a text can hold -/

namespace Content

/-- Sequences and mappings nest at most `limit` deep, and every number is finite. -/
inductive Tame : Nat → Content → Prop
  | unit {limit : Nat} : Tame limit unit
  | bool {limit : Nat} (b : Bool) : Tame limit (bool b)
  | number {limit : Nat} {content : Content} {bits : UInt64} (is : content.asNumber? = some bits)
      (finite : (Float.ofBits bits).isFinite) : Tame limit content
  | text {limit : Nat} (s : String) : Tame limit (text s)
  | sequence {limit : Nat} {items : List Content} (each : ∀ item ∈ items, Tame limit item) :
    Tame (limit + 1) (sequence items)
  | mapping {limit : Nat} {entries : List (Content × Content)}
      (each : ∀ entry ∈ entries, Tame limit entry.2) : Tame (limit + 1) (mapping entries)

theorem tame_whole {n : Int} (h : (Json.whole n).Legible) (limit : Nat) :
    Tame limit (ofJson (.whole n)) := by
  obtain ⟨least, greatest⟩ := h
  rw [ofJson]
  split
  next nonneg =>
    refine .number rfl ?_
    rw [Float.ofBits_toBits]
    exact (sizedBelow_ofNat (by omega)).isFinite
  next negative =>
    obtain ⟨m, rfl⟩ := Int.eq_negSucc_of_lt_zero (Int.lt_of_not_ge negative)
    refine .number rfl ?_
    rw [Float.ofBits_toBits]
    exact Json.isFinite_signed true (sizedBelow_ofNat (n := m + 1) (by omega)).isFinite

theorem tame_ofJson {limit : Nat} {document : Json} (h : document.Within Json.Legible limit) :
    Tame limit (ofJson document) := by
  induction h with
  | null => exact .unit
  | bool b => exact .bool b
  | whole h => exact tame_whole h _
  | real h =>
    refine .number rfl ?_
    rw [Float.ofBits_toBits]
    exact h
  | string s => exact .text s
  | array _ ih =>
    rw [ofJson, ofItems_eq]
    exact .sequence (List.forall_mem_map.mpr ih)
  | object _ ih =>
    rw [ofJson, ofMembers_eq]
    exact .mapping (List.forall_mem_map.mpr ih)

variable {limit : Nat} {content : Content}

theorem Tame.isFinite (tame : Tame limit content) {bits : UInt64}
    (h : content.asNumber? = some bits) : (Float.ofBits bits).isFinite := by
  cases tame with
  | number is finite => exact Option.some.inj (is.symm.trans h) ▸ finite
  | unit | bool | text | sequence | mapping => cases h

theorem Tame.items {items : List Content} (tame : Tame limit (.sequence items)) :
    ∃ inner, limit = inner + 1 ∧ ∀ item ∈ items, Tame inner item := by
  cases tame with
  | sequence each => exact ⟨_, rfl, each⟩
  | number is => cases is

theorem Tame.entries {entries : List (Content × Content)} (tame : Tame limit (.mapping entries)) :
    ∃ inner, limit = inner + 1 ∧ ∀ entry ∈ entries, Tame inner entry.2 := by
  cases tame with
  | mapping each => exact ⟨_, rfl, each⟩
  | number is => cases is

theorem asSequence?_eq_some_iff {items : List Content} :
    content.asSequence? = some items ↔ content = .sequence items := by
  cases content <;> simp [asSequence?]

/-! ### Fields of a node -/

theorem mem_of_entryAt? {place : Nat} {entries : List (Option Nat × Content)} {value : Content}
    (h : entryAt? place entries = some value) : ∃ key, (key, value) ∈ entries := by
  unfold entryAt? at h
  split at h
  next key value' eq =>
    cases h
    exact ⟨key, List.mem_of_mem_filter (eq ▸ List.mem_singleton_self _)⟩
  · cases h

/-- The fields that a mapping has are values of it. -/
theorem mem_of_fieldValues? {names : List String} {entries : List (Content × Content)}
    {fields : List Content} (h : fieldValues? names (.mapping entries) = some fields)
    {field : Content} (m : field ∈ fields) : ∃ entry ∈ entries, entry.2 = field := by
  simp only [fieldValues?, Option.bind_eq_bind, Option.bind_eq_some_iff] at h
  obtain ⟨placed, keys, values⟩ := h
  obtain ⟨place, -, found⟩ := exists_of_mem_mapM values m
  obtain ⟨key, m⟩ := mem_of_entryAt? found
  obtain ⟨entry, mem, eq⟩ := exists_of_mem_mapM keys m
  simp only [Option.map_eq_some_iff, Prod.mk.injEq] at eq
  obtain ⟨_, -, -, same⟩ := eq
  exact ⟨entry, mem, same⟩

/-- The fields of a node are as tame as the node, one level further in. -/
theorem Tame.fields {kind? : Content → Option Kind} {kind : Kind} {fields : List Content}
    (tame : Tame limit content) (parts : Expr.nodeParts? kind? content = some (kind, fields)) :
    ∃ inner, limit = inner + 1 ∧ ∀ field ∈ fields, Tame inner field := by
  unfold Expr.nodeParts? at parts
  split at parts
  next entries =>
    obtain ⟨inner, eq, each⟩ := tame.entries
    split at parts
    next tag others found =>
      simp only [Option.bind_eq_bind, Option.bind_eq_some_iff, Option.some.injEq,
        Prod.mk.injEq] at parts
      obtain ⟨_, -, _, values, -, rfl⟩ := parts
      refine ⟨inner, eq, fun field m => ?_⟩
      obtain ⟨entry, mem, rfl⟩ := mem_of_fieldValues? values m
      rw [List.partition_eq_filter_filter] at found
      obtain ⟨-, rfl⟩ := Prod.mk.inj found
      exact each entry (List.mem_of_mem_filter mem)
    · cases parts
  next tag items =>
    obtain ⟨inner, eq, each⟩ := tame.items
    simp only [Option.bind_eq_bind, Option.bind_eq_some_iff, Option.some.injEq,
      Prod.mk.injEq, fieldValues?] at parts
    obtain ⟨_, -, _, same, -, rfl⟩ := parts
    split at same
    · cases same
      exact ⟨inner, eq, (List.forall_mem_cons.mp each).2⟩
    · cases same
  · cases parts

end Content

/-! ### Expressions that a text can hold -/

namespace Expr

/-- The expression is written with a nesting of at most `limit`, and its numbers are finite. -/
structure Fair (limit : Nat) (e : Expr) : Prop where
  nesting : e.toContent.nesting ≤ limit
  finite : ∀ bits, e.Mentions bits → (Float.ofBits bits).isFinite

end Expr

/-- A field that is read from tame content is written as tamely. -/
structure Expr.Part.Fair (limit : Nat) (part : Expr.Part) : Prop where
  nesting : part.toContent.nesting ≤ limit
  own : ∀ bits, part = .literal (.number bits) → (Float.ofBits bits).isFinite
  beneath : ∀ c ∈ part.children, ∀ bits, c.Mentions bits → (Float.ofBits bits).isFinite

/-- A field without expressions beneath it that is no number. -/
theorem Expr.Part.Fair.plain {limit : Nat} {part : Expr.Part}
    (nesting : part.toContent.nesting ≤ limit)
    (plain : ∀ bits, part ≠ .literal (.number bits)) (bare : part.children = []) :
    part.Fair limit where
  nesting := nesting
  own bits is := absurd is (plain bits)
  beneath c m := by
    rw [bare] at m
    cases m

theorem Primitive.fair {limit : Nat} {content : Content} {p : Primitive}
    (tame : Content.Tame limit content) (read : ofContent? content = some p) :
    (Expr.Part.literal p).Fair limit := by
  have plain {p : Primitive} (h : p = null ∨ p = undefined) : (Expr.Part.literal p).Fair limit := by
    obtain rfl | rfl := h <;> exact .plain (Nat.zero_le _) (by simp) rfl
  unfold ofContent? at read
  split at read
  · split at read
    · cases read; exact plain (.inl rfl)
    split at read
    · cases read; exact plain (.inr rfl)
    · cases read
  next key value =>
    obtain ⟨inner, rfl, each⟩ := tame.entries
    have one : 1 ≤ inner + 1 := Nat.le_add_left ..
    simp only [ofPair?, Option.bind_eq_bind, Option.bind_eq_some_iff] at read
    obtain ⟨_, -, place, -, read⟩ := read
    split at read
    · split at read <;> cases read
      exact plain (.inl rfl)
    · split at read <;> cases read
      exact plain (.inr rfl)
    · obtain ⟨b, -, rfl⟩ := Option.map_eq_some_iff.mp read
      exact .plain one (by simp) rfl
    · obtain ⟨bits, number, rfl⟩ := Option.map_eq_some_iff.mp read
      refine ⟨one, ?_, fun c m => by cases m⟩
      rintro _ ⟨⟩
      exact (each _ (.head _)).isFinite number
  · cases read

theorem Expr.Part.ReadFrom.fair {limit depth : Nat} {part : Expr.Part} {content : Content}
    (tame : Content.Tame limit content) (read : part.ReadFrom (Expr.decodeWithin? depth) content)
    (each : ∀ c ∈ part.children, ∀ limit (content : Content), Content.Tame limit content →
      content.Means Kind.ofContent? c → c.Fair limit) : part.Fair limit := by
  cases part with
  | expr e =>
    have fair := each e (.head _) _ _ tame (Content.means_of_decodeWithin? read)
    exact ⟨fair.nesting, by simp, List.forall_mem_singleton.mpr fair.finite⟩
  | text s => exact .plain (Nat.zero_le _) (by simp) rfl
  | exprs es =>
    simp only [ReadFrom, Expr.listOf?, Option.bind_eq_bind, Option.bind_eq_some_iff,
      Content.asSequence?_eq_some_iff] at read
    obtain ⟨items, rfl, read⟩ := read
    obtain ⟨inner, rfl, tame'⟩ := tame.items
    have fair : ∀ e ∈ es, e.Fair inner := fun e m => by
      obtain ⟨item, mem, read⟩ := exists_of_mem_mapM read m
      exact each e m _ _ (tame' item mem) (Content.means_of_decodeWithin? read)
    refine ⟨?_, by simp, fun c m => (fair c m).finite⟩
    rw [toContent, Expr.toContents_eq, Content.nesting_sequence_le, List.forall_mem_map]
    exact fun e m => (fair e m).nesting
  | texts ss =>
    simp only [ReadFrom, Expr.textsOf?, Option.bind_eq_bind, Option.bind_eq_some_iff,
      Content.asSequence?_eq_some_iff] at read
    obtain ⟨items, rfl, read⟩ := read
    obtain ⟨inner, rfl, -⟩ := tame.items
    refine .plain ?_ (by simp) rfl
    rw [toContent, Content.nesting_sequence_le, List.forall_mem_map]
    exact fun s _ => Nat.zero_le _
  | literal p => exact Primitive.fair tame read

namespace Expr

/-- **The expression of tame content** is written as tamely. -/
theorem fair_of_means {kind? : Content → Option Kind} {limit : Nat} {content : Content} {e : Expr}
    (tame : Content.Tame limit content) (means : content.Means kind? e) : e.Fair limit := by
  induction e using children_induction generalizing kind? limit content with
  | step e ih =>
    obtain ⟨depth, kind, fields, parts, built⟩ := means
    obtain ⟨rfl, read⟩ := build?_eq_some_iff.mp built
    obtain ⟨inner, rfl, tame'⟩ := tame.fields parts
    have fair : ∀ part ∈ e.parts, part.Fair inner := fun part m => by
      obtain ⟨field, mem, read⟩ := exists_of_forall₂ read m
      exact read.fair (tame' field mem) fun c below _ _ => ih c (mem_children.mpr ⟨part, m, below⟩)
    refine ⟨nesting_toContent_le.mpr fun part m => (fair part m).nesting, fun bits h => ?_⟩
    obtain m | ⟨c, m, h⟩ := mentions_iff.mp h
    · exact (fair _ m).own bits rfl
    · obtain ⟨part, mem, m⟩ := mem_children.mp m
      exact (fair part mem).beneath c m bits h

/-- An expression that was read from a text can be written as one. -/
theorem fair_of_ofJson? {text : String} {e : Expr} (h : ofJson? text = some e) :
    e.Fair Json.nestingLimit := by
  simp only [ofJson?, Option.bind_eq_bind, Option.bind_eq_some_iff] at h
  obtain ⟨document, parsed, read⟩ := h
  exact fair_of_means (Content.tame_ofJson (Json.parse?_within parsed))
    (Content.means_of_ofContent? read)

/-- **JSON is faithful.**  Let the text of each finite number in an expression be read back as that
number.  If all its numbers are finite and it nests no deeper than a reader allows, it is read back
from its JSON text.  And if it was read from any text at all, it is read back from its own. -/
theorem json_faithful (e : Expr)
    (digits : ∀ bits, e.Mentions bits → (Float.ofBits bits).isFinite →
      (Json.real (Float.ofBits bits)).ReadsBack) :
    ((∀ bits, e.Mentions bits → (Float.ofBits bits).isFinite) →
      e.toContent.nesting ≤ Json.nestingLimit → ofJson? e.toJson = some e) ∧
    ∀ text, ofJson? text = some e → ofJson? e.toJson = some e := by
  have written (fair : e.Fair Json.nestingLimit) : ofJson? e.toJson = some e :=
    ofJson?_toJson fair.nesting fun bits m =>
      ⟨fair.finite bits m, digits bits m (fair.finite bits m)⟩
  exact ⟨fun finite nesting => written ⟨nesting, finite⟩,
    fun _ read => written (fair_of_ofJson? read)⟩

/-- What is written in an array of a text and a call with one number. -/
def listed? : Expr → Option (String × String × UInt64)
  | array [string s, callName n [primitive (.number bits)]] => some (s, n, bits)
  | _ => none

theorem eq_of_listed? {e : Expr} {s n : String} {bits : UInt64}
    (h : e.listed? = some (s, n, bits)) :
    e = array [string s, callName n [primitive (.number bits)]] := by
  unfold listed? at h
  split at h
  · cases h
    rfl
  · cases h

/-- `['ü"', f(1)]`, from a text with a whole number, an escaped letter, another order of fields and one
field too many. -/
theorem json_faithful_listed :
    let e := array [string "ü\"", callName "f" [primitive (.number 0x3FF0000000000000)]]
    let text := "\x7b\"elements\":[\x7b\"value\":\"\\u00fc\\\"\",\"type\":\"LiteralString\"\x7d,\x7b\"args\":[\x7b\"value\":\x7b\"number\":1\x7d,\"note\":null,\"type\":\"LiteralPrimitive\"\x7d],\"name\":\"f\",\"type\":\"CallScope\"\x7d],\"type\":\"LiteralArray\"\x7d"
    ofJson? e.toJson = some e ∧
      (ofJson? text = some e ∧ e.toJson ≠ text → ofJson? e.toJson = some e) ∧
      ofJson? text = some e ∧ e.toJson ≠ text := by
  intro e text
  have number (bits : UInt64) (m : e.Mentions bits) : bits = 0x3FF0000000000000 := by
    simpa [e, mentions_array, mentions_callName, not_mentions_string, mentions_primitive,
      eq_comm] using m
  have stated := json_faithful e fun bits m _ => number bits m ▸ by decide +kernel
  have read : ofJson? text = some e := by
    have found : (ofJson? text).bind listed? = some ("ü\"", "f", 0x3FF0000000000000) := by
      decide +kernel
    obtain ⟨read, built, listed⟩ := Option.bind_eq_some_iff.mp found
    rw [built, eq_of_listed? listed]
  have respelled : e.toJson ≠ text := by decide +kernel
  exact ⟨stated.1 (fun bits m => number bits m ▸ by decide) (by decide),
    fun reread => stated.2 text reread.1, read, respelled⟩

end Expr

end ViewBinding
