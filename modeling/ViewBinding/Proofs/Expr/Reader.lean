import ViewBinding.Proofs.Expr.Shapes

/-!
# Expr — a reader of the canonical text

The canonical text can be read from left to right.  `readChain` reads a whole text, `readSingle` one
without a chain on the outside, `readOperand` what stands where an operand is expected: a word, a
text, an array, an object or something between parentheses (`readPrimary`), and then members, keys
and calls (`readPostfix`).  Between parentheses stands a negation, a binary operation, a pipe, or an
expression that is loose (`readGroup`).  All of them stop at a limit of steps, and what is said of
them holds where the limit is large enough.

What may follow an operand, an expression or a chain is told apart by its first character
(`isFollower`, `isEnd`, `isClose`), and no expression begins with such a character (`isOpener`).
-/

namespace ViewBinding

namespace Expr

/-! ### Tokens -/

/-- This character, and what follows it. -/
def expect (c : Char) : List Char → Option (List Char)
  | d :: rest => if d = c then some rest else none
  | [] => none

/-- A word with an optional sign. -/
def readWord : List Char → Option (String × List Char)
  | '-' :: text => some (String.ofList ('-' :: (Text.splitWord text).1), (Text.splitWord text).2)
  | text =>
    if Text.continues text then
      some (String.ofList (Text.splitWord text).1, (Text.splitWord text).2)
    else none

/-- The rest of a quoted text. -/
def readQuotedTail : List Char → Option (List Char × List Char)
  | [] => none
  | '\\' :: c :: rest => (readQuotedTail rest).map fun (text, rest) => (c :: text, rest)
  | c :: rest =>
    if c = Text.apostrophe then some ([], rest)
    else (readQuotedTail rest).map fun (text, rest) => (c :: text, rest)

/-- A text between single quotes. -/
def readQuoted (text : List Char) : Option (String × List Char) := do
  let text ← expect Text.apostrophe text
  let (inside, rest) ← readQuotedTail text
  some (String.ofList inside, rest)

/-- An operator, the longest one. -/
def readOperator : List Char → Option (String × List Char)
  | '&' :: '&' :: rest => some ("&&", rest)
  | '|' :: '|' :: rest => some ("||", rest)
  | '=' :: '=' :: rest => some ("==", rest)
  | '!' :: '=' :: rest => some ("!=", rest)
  | '<' :: '=' :: rest => some ("<=", rest)
  | '>' :: '=' :: rest => some (">=", rest)
  | '~' :: '/' :: rest => some ("~/", rest)
  | '+' :: rest => some ("+", rest)
  | '-' :: rest => some ("-", rest)
  | '*' :: rest => some ("*", rest)
  | '/' :: rest => some ("/", rest)
  | '%' :: rest => some ("%", rest)
  | '<' :: rest => some ("<", rest)
  | '>' :: rest => some (">", rest)
  | '^' :: rest => some ("^", rest)
  | '&' :: rest => some ("&", rest)
  | _ => none

/-! ### Trees -/

mutual

/-- A whole text. -/
def readChain : Nat → List Char → Option (Expr × List Char)
  | 0, _ => none
  | limit + 1, text => do
    let (e, rest) ← readSingle limit text
    match rest with
    | ';' :: rest => do
      let (es, rest) ← readItems limit ';' rest
      some (chain (e :: es), rest)
    | rest => some (e, rest)

/-- An item of a list, which may be a chain where the separator is a comma. -/
def readItem : Nat → Char → List Char → Option (Expr × List Char)
  | 0, _, _ => none
  | limit + 1, separator, text =>
    if separator = ';' then readSingle limit text else readChain limit text

/-- One or more expressions with a separator between them. -/
def readItems : Nat → Char → List Char → Option (List Expr × List Char)
  | 0, _, _ => none
  | limit + 1, separator, text => do
    let (e, rest) ← readItem limit separator text
    match expect separator rest with
    | some rest => do
      let (es, rest) ← readItems limit separator rest
      some (e :: es, rest)
    | none => some ([e], rest)

/-- Expressions with commas between them, up to a closing character. -/
def readUntil : Nat → Char → List Char → Option (List Expr × List Char)
  | 0, _, _ => none
  | limit + 1, close, text =>
    match expect close text with
    | some rest => some ([], rest)
    | none => do
      let (es, rest) ← readItems limit ',' text
      let rest ← expect close rest
      some (es, rest)

/-- An expression that is no chain on the outside. -/
def readSingle : Nat → List Char → Option (Expr × List Char)
  | 0, _ => none
  | limit + 1, text => do
    let (e, rest) ← readOperand limit text
    match rest with
    | '=' :: '=' :: _ => some (e, rest)
    | '=' :: rest => do
      let (value, rest) ← readSingle limit rest
      some (assign e value, rest)
    | '?' :: rest => do
      let (yes, rest) ← readOperand limit rest
      let rest ← expect ':' rest
      let (no, rest) ← readSingle limit rest
      some (conditional e yes no, rest)
    | _ => some (e, rest)

/-- What stands where an operand is expected. -/
def readOperand : Nat → List Char → Option (Expr × List Char)
  | 0, _ => none
  | limit + 1, text => do
    let (e, rest) ← readPrimary limit text
    readPostfix limit e rest

/-- The members, keys and calls that follow. -/
def readPostfix : Nat → Expr → List Char → Option (Expr × List Char)
  | 0, _, _ => none
  | limit + 1, e, text =>
    match text with
    | '.' :: rest => do
      let (m, rest) ← readWord rest
      readPostfix limit (member e m) rest
    | '[' :: rest => do
      let (key, rest) ← readChain limit rest
      let rest ← expect ']' rest
      readPostfix limit (keyed e key) rest
    | '(' :: rest => do
      let (args, rest) ← readUntil limit ')' rest
      readPostfix limit (call e args) rest
    | _ => some (e, text)

/-- What an operand begins with. -/
def readPrimary : Nat → List Char → Option (Expr × List Char)
  | 0, _ => none
  | limit + 1, text =>
    match text with
    | '(' :: rest => readGroup limit rest
    | '[' :: rest => do
      let (elements, rest) ← readUntil limit ']' rest
      some (array elements, rest)
    | '\x7b' :: rest =>
      match expect '\x7d' rest with
      | some rest => some (object [] [], rest)
      | none => do
        let (entries, rest) ← readEntries limit rest
        some (object (entries.map (·.1)) (entries.map (·.2)), rest)
    | text =>
      match readQuoted text with
      | some (s, rest) => some (string s, rest)
      | none => do
        let (w, rest) ← readWord text
        some (name w, rest)

/-- What stands between parentheses, with the one that closes. -/
def readGroup : Nat → List Char → Option (Expr × List Char)
  | 0, _ => none
  | limit + 1, text =>
    match expect '!' text with
    | some rest => do
      let (operand, rest) ← readOperand limit rest
      let rest ← expect ')' rest
      some (negate "!" operand, rest)
    | none => do
      let (e, rest) ← readChain limit text
      match readOperator rest with
      | some (operator, rest) => do
        let (right, rest) ← readOperand limit rest
        let rest ← expect ')' rest
        some (binary operator e right, rest)
      | none =>
        match expect '|' rest with
        | some rest => do
          let (m, rest) ← readWord rest
          let (args, rest) ← readArguments limit rest
          let rest ← expect ')' rest
          some (pipe e m args [], rest)
        | none => do
          let rest ← expect ')' rest
          some (e, rest)

/-- The arguments of a pipe. -/
def readArguments : Nat → List Char → Option (List Expr × List Char)
  | 0, _ => none
  | limit + 1, text =>
    match text with
    | ' ' :: ':' :: rest => do
      let (e, rest) ← readOperand limit rest
      let (es, rest) ← readArguments limit rest
      some (e :: es, rest)
    | text => some ([], text)

/-- The entries of an object, one or more, with the brace that closes. -/
def readEntries : Nat → List Char → Option (List (String × Expr) × List Char)
  | 0, _ => none
  | limit + 1, text => do
    let (key, rest) ← readQuoted text
    let rest ← expect ':' rest
    let (value, rest) ← readChain limit rest
    match expect ',' rest with
    | some rest => do
      let (entries, rest) ← readEntries limit rest
      some ((key, value) :: entries, rest)
    | none => do
      let rest ← expect '\x7d' rest
      some ([(key, value)], rest)

end

/-! ### What follows -/

/-- Whether a character may follow an operand. -/
def isFollower (c : Char) : Bool :=
  !Text.isWordChar c && !(['.', '[', '('].contains c)

/-- Whether an expression may begin with a character. -/
def isOpener (c : Char) : Bool :=
  Text.isWordChar c || ['-', '(', '[', '\x7b', Text.apostrophe].contains c

/-- The text begins with one of these characters, unless it is empty. -/
def BeginsWith (p : Char → Bool) (text : List Char) : Prop := ∀ c ∈ text.head?, p c

/-- Whether a character may follow an expression that is no operand. -/
def isEnd (c : Char) : Bool := [';', '|', ')', ']', ',', '\x7d'].contains c

/-- Whether a character may follow a chain. -/
def isClose (c : Char) : Bool := ['|', ')', ']', ',', '\x7d'].contains c

/-- An expression may begin so. -/
def Opens (text : List Char) : Prop := ∃ c rest, text = c :: rest ∧ isOpener c

theorem BeginsWith.mono {p q : Char → Bool} (h : ∀ c, p c → q c) {text : List Char}
    (begins : BeginsWith p text) : BeginsWith q text := fun c m => h c (begins c m)

theorem beginsWith_cons {p : Char → Bool} {c : Char} (h : p c) (rest : List Char) :
    BeginsWith p (c :: rest) := fun _ m => Option.some.inj m ▸ h

theorem isEnd_of_isClose (c : Char) (h : isClose c) : isEnd c := by
  simp only [isClose, isEnd, List.contains_iff_mem] at *
  exact List.mem_cons_of_mem _ h

theorem isFollower_of_isEnd (c : Char) (h : isEnd c) : isFollower c := by
  simp only [isEnd, List.contains_iff_mem] at h
  fin_cases h <;> rfl

/-- No word goes on with what follows an operand. -/
theorem BeginsWith.not_continues {text : List Char} (follows : BeginsWith isFollower text) :
    Text.continues text = false := by
  cases text with
  | nil => rfl
  | cons c rest =>
    have h := follows c rfl
    simp only [isFollower, Bool.and_eq_true, Bool.not_eq_true'] at h
    have point : (c == '.') = false := by
      refine beq_eq_false_iff_ne.2 ?_
      rintro rfl
      cases h.2
    cases rest <;> simp [Text.continues, h.1, point]

/-- What an expression begins with is nothing else. -/
theorem Opens.expect_eq_none {text : List Char} (opens : Opens text) {c : Char}
    (other : isOpener c = false) (rest : List Char) : expect c (text ++ rest) = none := by
  obtain ⟨d, text, rfl, opener⟩ := opens
  refine if_neg ?_
  rintro rfl
  rw [opener] at other
  cases other

theorem expect_self (c : Char) (rest : List Char) : expect c (c :: rest) = some rest := if_pos rfl

/-- Nothing else follows. -/
theorem BeginsWith.expect_eq_none {p : Char → Bool} {text : List Char} (begins : BeginsWith p text)
    {c : Char} (other : p c = false) : expect c text = none := by
  cases text with
  | nil => rfl
  | cons d text =>
    refine if_neg ?_
    rintro rfl
    rw [begins d rfl] at other
    cases other

/-! ### Words and texts -/

/-- The text is a word, and is read as such. -/
structure IsWord (w : String) : Prop where
  opens : Opens w.toList
  read : ∀ rest, Text.continues rest = false → readWord (w.toList ++ rest) = some (w, rest)
  unquoted : ∀ rest, expect Text.apostrophe (w.toList ++ rest) = none
  tight : ∀ c ∈ w.toList.head?, ['(', '[', '\x7b'].contains c = false

theorem isWord_of_unbroken {w : String} (unbroken : Text.Unbroken w.toList) {c : Char}
    {rest : List Char} (is : w.toList = c :: rest) (word : Text.isWordChar c) : IsWord w where
  opens := ⟨c, rest, is, by simp [isOpener, word]⟩
  read more stops := by
    have begins : Text.continues (w.toList ++ more) := by
      rw [is]
      exact Text.continues_of_isWordChar word _
    have unsigned : ∀ text, w.toList ++ more ≠ '-' :: text := by
      rw [is]
      rintro text e
      rw [(List.cons.inj e).1] at word
      cases word
    unfold readWord
    split
    next text e => exact absurd e (unsigned text)
    next =>
      rw [if_pos begins, unbroken more stops, String.ofList_toList]
  unquoted more := by
    rw [is]
    refine if_neg ?_
    rintro rfl
    cases word
  tight d m := by
    rw [is] at m
    obtain rfl := Option.some.inj m
    refine Bool.eq_false_iff.2 fun h => ?_
    rw [List.contains_iff_mem] at h
    fin_cases h <;> cases word

theorem IsName.isWord {n : String} (h : IsName n) : IsWord n := by
  obtain ⟨unbroken, c, rest, is, word, -⟩ := Text.isIdentifier_word h.1
  exact isWord_of_unbroken unbroken is word

/-- The text of a number. -/
theorem isWord_number {bits : UInt64} (finite : (Float.ofBits bits).isFinite) :
    IsWord (Primitive.number bits).text := by
  obtain ⟨sign, text, whole, rfl | rfl, plain⟩ := Number.display_word finite
  all_goals obtain ⟨c, rest, is, digit⟩ := plain.digit
  · rw [List.nil_append] at whole
    exact isWord_of_unbroken (whole ▸ plain.unbroken) (whole.trans is)
      (Text.isWordChar_of_isDigit digit)
  · have signed : (Primitive.number bits).text.toList = '-' :: text := whole
    refine ⟨⟨'-', text, signed, rfl⟩, fun more stops => ?_, fun more => ?_, fun c m => ?_⟩
    · rw [signed, List.cons_append, readWord, plain.unbroken more stops, ← signed,
        String.ofList_toList]
    · rw [signed]
      rfl
    · rw [signed] at m
      exact Option.some.inj m ▸ rfl

theorem isWord_text {p : Primitive} (shape : (primitive p).Shaped) : IsWord p.text := by
  have keyword : ∀ k ∈ keywords, Text.isIdentifier k = true := by decide
  have isWord {k : String} (m : k ∈ keywords) : IsWord k := by
    obtain ⟨unbroken, c, rest, is, word, -⟩ := Text.isIdentifier_word (keyword k m)
    exact isWord_of_unbroken unbroken is word
  cases p with
  | null => exact isWord (by decide : "null" ∈ keywords)
  | undefined => exact isWord (by decide : "undefined" ∈ keywords)
  | bool b => cases b <;> exact isWord (by decide)
  | number bits => exact isWord_number shape

/-- A quoted text is read as what was quoted. -/
theorem readQuoted_quoted (s : String) (rest : List Char) :
    readQuoted (quoted s ++ rest) = some (s, rest) := by
  have tail : ∀ cs : List Char, readQuotedTail (cs.flatMap Text.escapeSingle ++
      Text.apostrophe :: rest) = some (cs, rest) := by
    intro cs
    induction cs with
    | nil => simp [readQuotedTail, Text.apostrophe]
    | cons c cs ih =>
      rw [List.flatMap_cons, List.append_assoc, Text.escapeSingle]
      split
      next => simp [readQuotedTail, ih]
      next plain =>
        obtain ⟨quote, backslash⟩ := not_or.1 plain
        simp [readQuotedTail, ih, quote, backslash]
  simp [readQuoted, quoted, Text.quoteSingle, expect_self, tail]

/-! ### Operators -/

/-- The operators that evaluation knows. -/
def operators : List String :=
  ["&&", "||", "==", "!=", "<=", ">=", "~/", "+", "-", "*", "/", "%", "<", ">", "^", "&"]

theorem IsOperator.mem {operator : String} (h : IsOperator operator) : operator ∈ operators := by
  rcases h with rfl | rfl | known
  · decide
  · decide
  · unfold Operator.ofText? at known
    split at known
    case h_15 => cases known
    all_goals decide

/-- Whether reading an expression stops here, after an operand. -/
def stops : List Char → Bool
  | '=' :: '=' :: _ => true
  | '=' :: _ | '?' :: _ => false
  | _ => true

/-- What can be said of an operator in front of an operand. -/
structure InFront (operator : String) (text : List Char) : Prop where
  read : readOperator (operator.toList ++ text) = some (operator, text)
  follows : BeginsWith isFollower (operator.toList ++ text)
  stops : stops (operator.toList ++ text) = true
  unchained : ∀ rest, operator.toList ++ text ≠ ';' :: rest

theorem IsOperator.inFront {operator : String} (h : IsOperator operator) {text : List Char}
    (opens : Opens text) : InFront operator text := by
  obtain ⟨c, text, rfl, opener⟩ := opens
  have other {d : Char} (h : isOpener d = false) : c ≠ d := by
    rintro rfl
    rw [opener] at h
    cases h
  have equals : c ≠ '=' := other rfl
  have ampersand : c ≠ '&' := other rfl
  have mem := h.mem
  simp only [operators, List.mem_cons, List.not_mem_nil, or_false] at mem
  rcases mem with rfl | rfl | rfl | rfl | rfl | rfl | rfl | rfl | rfl | rfl | rfl | rfl | rfl | rfl |
    rfl | rfl
  all_goals
    refine ⟨?_, beginsWith_cons rfl _, ?_, ?_⟩
    · simp [readOperator, equals, ampersand]
    · simp [Expr.stops]
    · simp

/-- A bar in front of a name is no operator. -/
theorem IsName.readOperator_bar {n : String} (named : IsName n) (rest : List Char) :
    readOperator ('|' :: (n.toList ++ rest)) = none := by
  obtain ⟨c, text, is, opener⟩ := named.isWord.opens
  have other : c ≠ '|' := by
    rintro rfl
    cases opener
  simp [is, readOperator, other]

end Expr

end ViewBinding
