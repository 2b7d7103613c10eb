import Mathlib.Data.List.DropRight
import Mathlib.Data.List.Forall2
import Mathlib.Tactic.SplitIfs
import ViewBinding.Json.Printer
import ViewBinding.Json.Reader
import ViewBinding.Proofs.Json.Numbers

/-!
# Json.Documents — what is written is read back

Every character between the quotes of a written text is read as itself: as it stands, by a letter
after a backslash, or by its number.  So the quote that ends the text is the first one that stands
alone (`readString_quoted`).

`parse?_print`: a document whose arrays and objects nest no deeper than a reader allows, and each of
whose numbers is read back when it stands alone, is read back from its text.

The proof goes by documents, but what it says of each is about a longer text: `Written` is that a
reader finds a value in a text whatever follows it, up to blanks and as long as a number is not
continued.
-/

namespace ViewBinding

namespace Json

/-! ### Texts -/

/-- A control character is read by its number. -/
theorem readEscaped_number {c : Char} (control : c.toNat < 0x20) (rest : List Char) :
    readEscaped ('u' :: '0' :: '0' :: hexDigit (c.toNat / 16) :: hexDigit (c.toNat % 16) :: rest) =
      some (c, rest) := by
  have units : ∀ n : Fin 0x20,
      hexUnit? '0' '0' (hexDigit (n.val / 16)) (hexDigit (n.val % 16)) = some n.val := by decide
  have unit := units ⟨c.toNat, control⟩
  simp only at unit
  have low : ¬ 0xDC00 ≤ c.toNat := by omega
  have high : ¬ 0xD800 ≤ c.toNat := by omega
  simp only [readEscaped, unit, Option.bind_eq_bind, Option.bind_some, low, high, false_and,
    if_false, Char.ofNat_toNat]

/-- **A written character** stands as it is or is read after a backslash. -/
theorem escapeChar_cases (c : Char) :
    (escapeChar c = [c] ∧ c ≠ '"' ∧ c ≠ '\\' ∧ ¬ c.toNat < 0x20) ∨
      ∃ escape, escapeChar c = '\\' :: escape ∧
        ∀ rest, readEscaped (escape ++ rest) = some (c, rest) := by
  unfold escapeChar
  split_ifs with quote backslash eight twelve newline carriage tab control
  · subst quote; exact .inr ⟨_, rfl, fun _ => rfl⟩
  · subst backslash; exact .inr ⟨_, rfl, fun _ => rfl⟩
  · obtain rfl : c = Char.ofNat 8 := by rw [← eight, Char.ofNat_toNat]
    exact .inr ⟨_, rfl, fun _ => rfl⟩
  · obtain rfl : c = Char.ofNat 12 := by rw [← twelve, Char.ofNat_toNat]
    exact .inr ⟨_, rfl, fun _ => rfl⟩
  · subst newline; exact .inr ⟨_, rfl, fun _ => rfl⟩
  · subst carriage; exact .inr ⟨_, rfl, fun _ => rfl⟩
  · subst tab; exact .inr ⟨_, rfl, fun _ => rfl⟩
  · exact .inr ⟨_, rfl, readEscaped_number control⟩
  · exact .inl ⟨rfl, quote, backslash, control⟩

/-- A written character is the next character of the text. -/
theorem readStringTail_escapeChar (fuel : Nat) (c : Char) (rest : List Char) :
    readStringTail (fuel + 1) (escapeChar c ++ rest) =
      (readStringTail fuel rest).map fun (cs, rest) => (c :: cs, rest) := by
  obtain ⟨escape, quote, backslash, control⟩ | ⟨escape, eq, read⟩ := escapeChar_cases c
  · simp only [escape, List.cons_append, List.nil_append, readStringTail, quote, backslash, control,
      if_false]
    cases readStringTail fuel rest <;> rfl
  · have quote : ¬ '\\' = '"' := by decide
    simp only [eq, List.cons_append, readStringTail, quote, if_false, if_true, read,
      Option.bind_eq_bind, Option.bind_some]
    cases readStringTail fuel rest <;> rfl

/-- The characters of a text are read back up to the closing quote. -/
theorem readStringTail_written (cs rest : List Char) {fuel : Nat} (enough : cs.length < fuel) :
    readStringTail fuel (cs.flatMap escapeChar ++ '"' :: rest) = some (cs, rest) := by
  induction cs generalizing fuel with
  | nil =>
    obtain _ | fuel := fuel
    · cases enough
    · rfl
  | cons c cs ih =>
    obtain _ | fuel := fuel
    · cases enough
    · rw [List.flatMap_cons, List.append_assoc, readStringTail_escapeChar,
        ih (Nat.lt_of_succ_lt_succ enough)]
      rfl

theorem length_le_length_flatMap_escapeChar (cs : List Char) :
    cs.length ≤ (cs.flatMap escapeChar).length := by
  induction cs with
  | nil => exact Nat.le_refl 0
  | cons c cs ih =>
    have one : 1 ≤ (escapeChar c).length := by
      obtain ⟨escape, -⟩ | ⟨_, escape, -⟩ := escapeChar_cases c <;> simp [escape]
    simp only [List.flatMap_cons, List.length_append, List.length_cons]
    omega

/-- **A quoted text is read back**, whatever follows it. -/
theorem readString_quoted (s : String) (rest : List Char) :
    readString (s.toList.flatMap escapeChar ++ '"' :: rest) = some (s, rest) := by
  have enough := length_le_length_flatMap_escapeChar s.toList
  rw [readString, readStringTail_written s.toList rest]
  · simp only [Option.map_some, String.ofList_toList]
  · simp only [List.length_append, List.length_cons]
    omega

/-! ### Documents within bounds -/

/-- Arrays and objects nest at most `limit` deep, and every number is `good`. -/
inductive Within (good : Json → Prop) : Nat → Json → Prop
  | null {limit : Nat} : Within good limit null
  | bool {limit : Nat} (b : Bool) : Within good limit (bool b)
  | whole {limit : Nat} {n : Int} (h : good (whole n)) : Within good limit (whole n)
  | real {limit : Nat} {x : Float} (h : good (real x)) : Within good limit (real x)
  | string {limit : Nat} (s : String) : Within good limit (string s)
  | array {limit : Nat} {items : List Json} (each : ∀ item ∈ items, Within good limit item) :
    Within good (limit + 1) (array items)
  | object {limit : Nat} {members : List (String × Json)}
    (each : ∀ member ∈ members, Within good limit member.2) :
    Within good (limit + 1) (object members)

/-- The document is read back from its text. -/
def ReadsBack (document : Json) : Prop := parse? document.print = some document

/-! ### One step of the reader -/

section Steps

variable {text rest : List Char} {c : Char}

theorem skipBlank_skipBlank (text : List Char) : skipBlank (skipBlank text) = skipBlank text :=
  List.dropWhile_idempotent _ text

theorem skipBlank_append (found : skipBlank text = c :: rest) (more : List Char) :
    skipBlank (text ++ more) = c :: (rest ++ more) := by
  unfold skipBlank at *
  rw [List.dropWhile_append, found]
  rfl

theorem readValue_skipBlank (limit : Nat) (text : List Char) :
    readValue limit (skipBlank text) = readValue limit text := by
  unfold readValue
  rw [skipBlank_skipBlank]

theorem readMember_skipBlank {α : Type} (value : String → List Char → Option (α × List Char))
    (text : List Char) : readMember value (skipBlank text) = readMember value text := by
  unfold readMember
  rw [skipBlank_skipBlank]

theorem readValue_digit (found : skipBlank text = c :: rest) (digit : c.isDigit) (limit : Nat) :
    readValue limit text = readUnsigned false (c :: rest) := by
  unfold readValue
  rw [found]
  split
  all_goals first
    | rfl
    | next eq => cases eq; cases digit

theorem readValue_minus (found : skipBlank text = '-' :: rest) (limit : Nat) :
    readValue limit text = readUnsigned true rest := by
  unfold readValue
  rw [found]
  rfl

theorem readValue_array (found : skipBlank text = '[' :: rest) (limit : Nat) :
    readValue (limit + 1) text =
      (readSequence (readValue limit) ']' rest).map fun (items, rest) => (array items, rest) := by
  rw [readValue, found]
  rfl

theorem readValue_object (found : skipBlank text = '\x7b' :: rest) (limit : Nat) :
    readValue (limit + 1) text =
      (readSequence (readMember fun _ => readValue limit) '\x7d' rest).map
        fun (members, rest) => (object members, rest) := by
  rw [readValue, found]
  rfl

theorem readValue_null (limit : Nat) (rest : List Char) :
    readValue limit ('n' :: 'u' :: 'l' :: 'l' :: rest) = some (null, rest) := by
  unfold readValue
  rfl

theorem readValue_bool (limit : Nat) (b : Bool) (rest : List Char) :
    readValue limit (write (bool b) ++ rest) = some (bool b, rest) := by
  unfold readValue
  cases b <;> rfl

theorem readValue_quote (limit : Nat) (rest : List Char) :
    readValue limit ('"' :: rest) = (readString rest).map fun (s, rest) => (string s, rest) := by
  unfold readValue
  rfl

end Steps

/-! ### Texts that are read whatever follows them -/

/-- The reader finds `a` in the text, whatever follows it that does not continue a number, and leaves
what follows up to blanks.  The text does not begin as the end of a sequence does. -/
structure Written {α : Type} (read : List Char → Option (α × List Char)) (text : List Char) (a : α) :
    Prop where
  opens : ∃ c rest, skipBlank text = c :: rest ∧ c ≠ ']' ∧ c ≠ '\x7d'
  reads : ∀ more, Stops more →
    ∃ left, read (text ++ more) = some (a, left) ∧ skipBlank left = skipBlank more

/-- Texts between commas. -/
def joined : List (List Char) → List Char
  | [] => []
  | [text] => text
  | text :: next :: rest => text ++ ',' :: joined (next :: rest)

theorem stops_comma (text : List Char) : Stops (',' :: text) := by
  rintro c ⟨⟩
  decide

/-- The character ends a sequence. -/
def Closes (close : Char) : Prop := close = ']' ∨ close = '\x7d'

section Sequences

variable {α : Type} {item : List Char → Option (α × List Char)} {close : Char}
  {texts : List (List Char)} {as : List α}

theorem Closes.stops (closes : Closes close) (rest : List Char) : Stops (close :: rest) := by
  rintro c ⟨⟩
  obtain rfl | rfl := closes <;> decide

theorem Closes.skipBlank (closes : Closes close) (rest : List Char) :
    skipBlank (close :: rest) = close :: rest := by
  obtain rfl | rfl := closes <;> rfl

theorem Closes.ne_comma (closes : Closes close) : close ≠ ',' := by
  obtain rfl | rfl := closes <;> decide

theorem Written.ne_nil {text : List Char} {a : α} (written : Written item text a) : text ≠ [] := by
  obtain ⟨c, rest, found, -⟩ := written.opens
  rintro rfl
  cases found

/-- Items between commas are read up to what closes them. -/
theorem readItems_joined (closes : Closes close) (written : List.Forall₂ (Written item) texts as)
    (some' : texts ≠ []) {fuel : Nat} (enough : as.length ≤ fuel) (rest : List Char) :
    readItems item close fuel (joined texts ++ close :: rest) = some (as, rest) := by
  induction written generalizing fuel with
  | nil => exact absurd rfl some'
  | @cons text a texts as head tail ih =>
    obtain _ | fuel := fuel
    · cases enough
    cases tail with
    | nil =>
      obtain ⟨left, read, skip⟩ := head.reads _ (closes.stops rest)
      rw [closes.skipBlank] at skip
      simp only [joined, readItems, read, Option.bind_eq_bind, Option.bind_some, skip,
        closes.ne_comma, if_false, if_true]
    | @cons next b texts as next' tail =>
      obtain ⟨left, read, skip⟩ := head.reads _ (stops_comma (joined (next :: texts) ++ close :: rest))
      have comma : skipBlank (',' :: (joined (next :: texts) ++ close :: rest)) =
        ',' :: (joined (next :: texts) ++ close :: rest) := rfl
      rw [comma] at skip
      rw [joined, List.append_assoc, List.cons_append, readItems]
      simp only [read, Option.bind_eq_bind, Option.bind_some, skip, if_true,
        ih nofun (Nat.le_of_succ_le_succ enough)]

theorem length_le_length_joined (written : List.Forall₂ (Written item) texts as) :
    as.length ≤ (joined texts).length := by
  induction written with
  | nil => exact Nat.le_refl 0
  | @cons text a texts as head tail ih =>
    have one : 1 ≤ text.length := List.length_pos_of_ne_nil head.ne_nil
    cases texts with
    | nil => cases tail; simpa [joined] using one
    | cons next texts =>
      simp only [joined, List.length_append, List.length_cons] at ih ⊢
      omega

theorem joined_cons (text : List Char) (texts : List (List Char)) :
    ∃ more, joined (text :: texts) = text ++ more := by
  cases texts with
  | nil => exact ⟨[], (List.append_nil text).symm⟩
  | cons next texts => exact ⟨_, rfl⟩

theorem readItems_skipBlank (skips : ∀ text, item (skipBlank text) = item text) (fuel : Nat)
    (text : List Char) :
    readItems item close (fuel + 1) (skipBlank text) = readItems item close (fuel + 1) text := by
  simp only [readItems, skips]

/-- **A sequence is read** up to what closes it. -/
theorem readSequence_joined (skips : ∀ text, item (skipBlank text) = item text)
    (closes : Closes close) (written : List.Forall₂ (Written item) texts as) (rest : List Char) :
    readSequence item close (joined texts ++ close :: rest) = some (as, rest) := by
  have enough := length_le_length_joined written
  cases texts with
  | nil =>
    cases written
    simp only [joined, List.nil_append, readSequence, closes.skipBlank, if_true]
  | cons text texts =>
    cases written with | cons head tail =>
    obtain ⟨c, after, found, bracket, brace⟩ := head.opens
    have other : c ≠ close := by obtain rfl | rfl := closes <;> assumption
    obtain ⟨more, eq⟩ := joined_cons text texts
    have opens : skipBlank (joined (text :: texts) ++ close :: rest) =
        c :: (after ++ (more ++ close :: rest)) := by
      rw [eq, List.append_assoc, skipBlank_append found]
    unfold readSequence
    simp only [opens, other, if_false]
    rw [← opens, readItems_skipBlank skips]
    refine readItems_joined closes (.cons head tail) nofun ?_ rest
    simp only [List.length_append]
    omega

end Sequences

/-! ### Written documents -/

theorem writeItems_eq (items : List Json) : writeItems items = joined (items.map write) := by
  match items with
  | [] => rfl
  | [_] => rfl
  | item :: next :: rest => rw [writeItems, writeItems_eq (next :: rest)]; rfl

/-- The text of a member. -/
def writeMember (member : String × Json) : List Char :=
  quote member.1 ++ ':' :: write member.2

theorem writeMembers_eq (members : List (String × Json)) :
    writeMembers members = joined (members.map writeMember) := by
  match members with
  | [] => rfl
  | [_] => rfl
  | (name, value) :: next :: rest =>
    rw [writeMembers, writeMembers_eq (next :: rest)]
    simp only [List.map_cons, joined, writeMember, List.append_assoc, List.cons_append]

/-- The document is a number. -/
def IsNumber : Json → Prop
  | whole _ | real _ => True
  | _ => False

/-- A number is read after its sign, or without one. -/
theorem readValue_number {limit : Nat} {text rest : List Char} {number : Json}
    (isNumber : number.IsNumber) (read : readValue limit text = some (number, rest)) :
    (∃ text', skipBlank text = '-' :: text' ∧ readUnsigned true text' = some (number, rest)) ∨
      readUnsigned false (skipBlank text) = some (number, rest) := by
  unfold readValue at read
  split at read
  next => cases read; cases isNumber
  next => cases read; cases isNumber
  next => cases read; cases isNumber
  next =>
    simp only [Option.map_eq_some_iff] at read
    obtain ⟨_, -, eq⟩ := read
    cases eq
    cases isNumber
  next text' found => exact .inl ⟨text', found, read⟩
  next =>
    split at read
    · cases read
    · simp only [Option.map_eq_some_iff] at read
      obtain ⟨_, -, eq⟩ := read
      cases eq
      cases isNumber
  next =>
    split at read
    · cases read
    · simp only [Option.map_eq_some_iff] at read
      obtain ⟨_, -, eq⟩ := read
      cases eq
      cases isNumber
  next => exact .inr read

theorem skipBlank_blank_append {text : List Char} (blank : skipBlank text = []) (more : List Char) :
    skipBlank (text ++ more) = skipBlank more := by
  unfold skipBlank at *
  rw [List.dropWhile_append, blank]
  rfl

/-- A number that is read back from its text is read from it whatever follows. -/
theorem Written.number {number : Json} (isNumber : number.IsNumber) (back : number.ReadsBack)
    (limit : Nat) : Written (readValue limit) (write number) number := by
  simp only [ReadsBack, parse?, parseWithin?, print, String.toList_ofList] at back
  generalize write number = text at back ⊢
  unfold whollyRead? at back
  split at back
  next number' left read =>
    split at back
    · cases back
      rename_i blank
      replace blank : skipBlank left = [] := List.isEmpty_iff.mp blank
      have goesOn {more : List Char} (stops : Stops more) : left = [] → Stops more := fun _ => stops
      obtain ⟨text', found, read⟩ | read := readValue_number isNumber read
      · refine ⟨⟨'-', text', found, by decide, by decide⟩, fun more stops => ⟨left ++ more, ?_,
          skipBlank_blank_append blank more⟩⟩
        rw [readValue_minus (skipBlank_append found more)]
        exact readUnsigned_append read (goesOn stops)
      · obtain ⟨c, text', found, digit⟩ := isDigit_of_readUnsigned read
        have bracket : c ≠ ']' := fun e => absurd (e ▸ digit) (by decide)
        have brace : c ≠ '\x7d' := fun e => absurd (e ▸ digit) (by decide)
        refine ⟨⟨c, text', found, bracket, brace⟩, fun more stops => ⟨left ++ more, ?_,
          skipBlank_blank_append blank more⟩⟩
        rw [readValue_digit (skipBlank_append found more) digit]
        rw [found] at read
        exact readUnsigned_append read (goesOn stops)
    · cases back
  next => cases back

theorem Written.member {value : List Char → Option (Json × List Char)} {name : String} {v : Json}
    (written : Written value (write v) v) :
    Written (readMember fun _ => value) (writeMember (name, v)) (name, v) := by
  refine ⟨⟨'"', _, rfl, by decide, by decide⟩, fun more stops => ?_⟩
  obtain ⟨left, read, skip⟩ := written.reads more stops
  refine ⟨left, ?_, skip⟩
  have text : writeMember (name, v) ++ more =
      '"' :: (name.toList.flatMap escapeChar ++ '"' :: (':' :: (write v ++ more))) := by
    simp only [writeMember, quote, quoteChars, List.append_assoc, List.cons_append, List.nil_append]
  have opens (rest : List Char) : skipBlank ('"' :: rest) = '"' :: rest := rfl
  have colon (rest : List Char) : skipBlank (':' :: rest) = ':' :: rest := rfl
  simp only [text, readMember, opens, readString_quoted, Option.bind_eq_bind, Option.bind_some,
    colon, read]

theorem Within.written {limit : Nat} {document : Json} (h : Within ReadsBack limit document) :
    Written (readValue limit) (write document) document := by
  induction h with
  | null => exact ⟨⟨'n', _, rfl, by decide, by decide⟩, fun more _ => ⟨more, readValue_null _ more, rfl⟩⟩
  | bool b =>
    refine ⟨?_, fun more _ => ⟨more, readValue_bool _ b more, rfl⟩⟩
    cases b <;> exact ⟨_, _, rfl, by decide, by decide⟩
  | @whole limit n back => exact .number (show IsNumber (Json.whole n) from trivial) back limit
  | @real limit x back => exact .number (show IsNumber (Json.real x) from trivial) back limit
  | string s =>
    refine ⟨⟨'"', _, rfl, by decide, by decide⟩, fun more _ => ⟨more, ?_, rfl⟩⟩
    rw [write, quote, quoteChars, List.append_assoc, List.cons_append, readValue_quote,
      List.cons_append, List.nil_append, readString_quoted]
    rfl
  | @array limit items each ih =>
    refine ⟨⟨'[', _, rfl, by decide, by decide⟩, fun more _ => ⟨more, ?_, rfl⟩⟩
    have written : List.Forall₂ (Written (readValue limit)) (items.map write) items :=
      List.forall₂_map_left_iff.mpr (List.forall₂_same.mpr ih)
    rw [write, writeItems_eq, List.append_assoc, List.cons_append, readValue_array rfl,
      List.cons_append, List.nil_append,
      readSequence_joined (readValue_skipBlank limit) (.inl rfl) written]
    rfl
  | @object limit members each ih =>
    refine ⟨⟨'\x7b', _, rfl, by decide, by decide⟩, fun more _ => ⟨more, ?_, rfl⟩⟩
    have written : List.Forall₂ (Written (readMember fun _ => readValue limit))
        (members.map writeMember) members :=
      List.forall₂_map_left_iff.mpr (List.forall₂_same.mpr fun member m => (ih member m).member)
    rw [write, writeMembers_eq, List.append_assoc, List.cons_append, readValue_object rfl,
      List.cons_append, List.nil_append,
      readSequence_joined (readMember_skipBlank _) (.inr rfl) written]
    rfl

/-- **What is written is read back.** -/
theorem parse?_print {document : Json} (h : Within ReadsBack nestingLimit document) :
    parse? document.print = some document := by
  obtain ⟨left, read, blank⟩ := h.written.reads [] stops_nil
  rw [List.append_nil] at read
  simp only [parse?, parseWithin?, print, String.toList_ofList, read, whollyRead?, blank]
  rfl

end Json

end ViewBinding
