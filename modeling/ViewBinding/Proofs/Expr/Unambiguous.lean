import ViewBinding.Proofs.Expr.Reading

/-!
# Expr — the canonical text is unambiguous

Each kind of expression is read back from its text if what is beneath it is.  So a tree that a parser
makes is read as its skeleton (`Expr.Parsed.readChain_write`), and trees of one text are the same
(`Expr.same_of_text_eq`): no pair of parentheses is missing, whatever stands in texts and keys.
-/

namespace ViewBinding

namespace Expr

variable {rest : List Char}

/-! ### Operands -/

open Filter

theorem not_continues_bracket {c : Char} (bracket : c ∈ ['(', '[']) (rest : List Char) :
    Text.continues (c :: rest) = false := by
  fin_cases bracket <;> cases rest <;> rfl

/-- A point in front of a name belongs to no number. -/
theorem IsName.not_continues {n : String} (named : IsName n) (rest : List Char) :
    Text.continues ('.' :: (n.toList ++ rest)) = false := by
  obtain ⟨-, c, text, is, -, letter⟩ := Text.isIdentifier_word named.1
  rw [is, List.cons_append, Text.continues, letter]
  rfl

section
variable {e owner : Expr} {n : String} {args : List Expr} {r : Option (Expr × List Char)}

theorem readPostfix_member (named : IsName n) (h : Text.continues rest = false)
    (behind : ∀ᶠ limit in atTop, readPostfix limit (member e n) rest = r) :
    ∀ᶠ limit in atTop, readPostfix limit e ('.' :: (n.toList ++ rest)) = r := by
  refine eventually_of_succ ?_
  filter_upwards [behind] with limit behind
  rw [readPostfix, named.isWord.read rest h]
  exact behind

theorem readPostfix_keyed {key : Expr} (reads : Reads key)
    (behind : ∀ᶠ limit in atTop, readPostfix limit (keyed e key.skeleton) rest = r) :
    ∀ᶠ limit in atTop, readPostfix limit e ('[' :: (key.write ++ ']' :: rest)) = r := by
  refine eventually_of_succ ?_
  filter_upwards [reads.chain_before ']' rfl rest, behind] with limit key behind
  rw [readPostfix, key]
  simp only [Option.bind_eq_bind, Option.bind_some, expect_self, behind]

theorem readPostfix_call (beneath : ∀ e ∈ args, Reads e)
    (behind : ∀ᶠ limit in atTop, readPostfix limit (call e (skeletons args)) rest = r) :
    ∀ᶠ limit in atTop, readPostfix limit e ('(' :: (writeList ',' args ++ ')' :: rest)) = r := by
  refine eventually_of_succ ?_
  filter_upwards [readUntil_write (by rfl : isClose ')') rfl (by decide) beneath rest, behind] with
    limit args behind
  rw [readPostfix, args]
  exact behind

theorem reads_member (named : IsName n) (reads : Reads owner) : Reads (member owner n) :=
  .of_operand rfl (reads.opens_operand.append _) fun {rest} _ h behind => by
    simp only [write, List.append_assoc, List.cons_append]
    rw [skeleton] at behind
    exact reads.operand (named.not_continues rest) (readPostfix_member named h behind)

theorem reads_keyed {key : Expr} (reads : Reads owner) (reads' : Reads key) :
    Reads (keyed owner key) :=
  .of_operand rfl ((reads.opens_operand.append _).append _) fun _ behind => by
    simp only [write, List.append_assoc, List.cons_append, List.nil_append]
    rw [skeleton] at behind
    exact reads.operand (not_continues_bracket (by decide) _) (readPostfix_keyed reads' behind)

theorem reads_callName (named : IsName n) (beneath : ∀ e ∈ args, Reads e) :
    Reads (callName n args) :=
  .of_operand rfl ((named.isWord.opens.append _).append _) fun _ behind => by
    simp only [write, List.append_assoc, List.cons_append, List.nil_append]
    rw [skeleton] at behind
    exact readOperand_of_primary (named.isWord.readPrimary (not_continues_bracket (by decide) _))
      (readPostfix_call beneath behind)

theorem reads_callMember (named : IsName n) (reads : Reads owner) (beneath : ∀ e ∈ args, Reads e) :
    Reads (callMember owner n args) :=
  .of_operand rfl (((reads.opens_operand.append _).append _).append _) fun _ behind => by
    simp only [write, List.append_assoc, List.cons_append, List.nil_append]
    rw [skeleton] at behind
    exact reads.operand (named.not_continues _) (readPostfix_member named
      (not_continues_bracket (by decide) _) (readPostfix_call beneath behind))

theorem reads_call (reads : Reads owner) (beneath : ∀ e ∈ args, Reads e) :
    Reads (call owner args) :=
  .of_operand rfl ((reads.opens_operand.append _).append _) fun _ behind => by
    simp only [write, List.append_assoc, List.cons_append, List.nil_append]
    rw [skeleton] at behind
    exact reads.operand (not_continues_bracket (by decide) _) (readPostfix_call beneath behind)

end

/-! ### Between parentheses -/

/-- What is read between parentheses is read with them. -/
theorem readPrimary_of_group {text : List Char} {r : Option (Expr × List Char)}
    (h : ∀ᶠ limit in atTop, readGroup (limit + 1) text = r) :
    ∀ᶠ limit in atTop, readPrimary limit ('(' :: text) = r := by
  refine eventually_of_succ (eventually_of_succ ?_)
  filter_upwards [h] with limit h
  rw [readPrimary, h]

theorem reads_pipe {input : Expr} {n : String} {args : List Expr} (all : List Expr)
    (named : IsName n) (reads : Reads input) (beneath : ∀ e ∈ args, Reads e) :
    Reads (pipe input n args all) :=
  .of_primary rfl ⟨_, _, rfl, rfl⟩ fun rest _ => by
    have apart : Text.continues (writeArguments args ++ ')' :: rest) = false := by
      cases args <;> exact (beginsWith_cons rfl _ : BeginsWith isFollower _).not_continues
    simp only [write, List.append_assoc, List.cons_append, List.nil_append]
    refine readPrimary_of_group ?_
    filter_upwards [readArguments_write beneath rest,
      reads.chain_before '|' rfl (n.toList ++ (writeArguments args ++ ')' :: rest))] with
      limit args input
    rw [readGroup, reads.opens.expect_eq_none rfl, input]
    simp only [Option.bind_eq_bind, Option.bind_some, named.readOperator_bar, expect_self,
      named.isWord.read _ apart, args, skeleton]

theorem reads_binary {operator : String} {left right : Expr} (known : IsOperator operator)
    (reads : Reads left) (reads' : Reads right) : Reads (binary operator left right) :=
  .of_primary rfl ⟨_, _, rfl, rfl⟩ fun rest _ => by
    have front := known.inFront (reads'.opens_operand.append (')' :: rest))
    -- the operator does not belong to the left operand
    have left := readChain_of_single
      (readSingle_of_operand (reads.operand_eq front.follows) front.stops) front.unchained
    simp only [write, List.append_assoc, List.cons_append, List.nil_append]
    refine readPrimary_of_group ?_
    filter_upwards [left, reads'.operand_before ')' rfl rest] with limit left right
    rw [readGroup, reads.opens_operand.expect_eq_none rfl, left]
    simp only [Option.bind_eq_bind, Option.bind_some, front.read, right, expect_self, skeleton]

theorem reads_negate {operand : Expr} (reads : Reads operand) : Reads (negate "!" operand) :=
  .of_primary rfl ⟨_, _, rfl, rfl⟩ fun rest _ => by
    have sign : "!".toList = ['!'] := rfl
    simp only [write, sign, List.append_assoc, List.cons_append, List.nil_append]
    refine readPrimary_of_group ?_
    filter_upwards [reads.operand_before ')' rfl rest] with limit operand
    rw [readGroup, expect_self]
    simp only [Option.bind_eq_bind, Option.bind_some, operand, expect_self, skeleton]

/-! ### Loose expressions -/

theorem reads_assign {target value : Expr} (reads : Reads target) (reads' : Reads value)
    (single : value.isChain = false) : Reads (assign target value) :=
  .of_single rfl (reads.opens_operand.append _) fun rest ends => by
    -- no text begins with `=`, so that the sign is not taken for the beginning of `==`
    obtain ⟨c, text, is, opener⟩ := reads'.opens.append rest
    have other : c ≠ '=' := by
      rintro rfl
      cases opener
    simp only [write, List.append_assoc, List.cons_append]
    refine eventually_of_succ ?_
    filter_upwards [reads.operand_before '=' rfl (value.write ++ rest),
      reads'.single single rest ends] with limit target value
    rw [readSingle, target]
    simp only [Option.bind_eq_bind, Option.bind_some]
    split
    next e =>
      rw [is] at e
      exact absurd (List.cons.inj (List.cons.inj e).2).1 other
    next e =>
      rw [← (List.cons.inj e).2, value, skeleton]
      rfl
    next e => cases (List.cons.inj e).1
    next any _ => exact (any _ rfl).elim

theorem isChain_of_isLooseBranch {e : Expr} (h : e.isLooseBranch = false) : e.isChain = false := by
  cases e <;> simp_all [isLooseBranch, isChain]

theorem isLoose_of_isLooseBranch {e : Expr} (h : e.isLooseBranch = true) : e.isLoose = true := by
  cases e <;> simp_all [isLooseBranch, isLoose]

/-- The last branch of a conditional. -/
theorem Reads.branch {no : Expr} (reads : Reads no) (ends : BeginsWith isEnd rest) :
    ∀ᶠ limit in atTop, readSingle limit (parenthesize no.isLooseBranch no.write ++ rest) =
      some (no.skeleton, rest) := by
  cases loose : no.isLooseBranch with
  | false => exact reads.single (isChain_of_isLooseBranch loose) rest ends
  | true =>
    have operand := reads.operand_eq (ends.mono isFollower_of_isEnd)
    rw [isLoose_of_isLooseBranch loose] at operand
    exact readSingle_of_operand operand (stops_of_isEnd ends)

theorem reads_conditional {condition yes no : Expr} (reads : Reads condition) (reads' : Reads yes)
    (reads'' : Reads no) : Reads (conditional condition yes no) :=
  .of_single rfl ((reads.opens_operand.append _).append _) fun rest ends => by
    have branch := reads''.branch ends
    have yes := reads'.operand_before ':' rfl (parenthesize no.isLooseBranch no.write ++ rest)
    simp only [write, List.append_assoc, List.cons_append]
    refine eventually_of_succ ?_
    filter_upwards [reads.operand_before '?' rfl _, yes, branch] with limit condition yes no
    rw [readSingle, condition]
    simp only [Option.bind_eq_bind, Option.bind_some, yes, expect_self, no, skeleton]

theorem reads_chain {es : List Expr} (several : 2 ≤ es.length)
    (flat : ∀ e ∈ es, e.isChain = false) (beneath : ∀ e ∈ es, Reads e) : Reads (chain es) := by
  obtain ⟨e, rest, rfl⟩ := List.exists_cons_of_length_pos (by omega : 0 < es.length)
  obtain ⟨next, es, rfl⟩ := List.exists_cons_of_length_pos (Nat.lt_of_succ_lt_succ several)
  have opens := (beneath e List.mem_cons_self).opens.append (';' :: writeList ';' (next :: es))
  refine .of_chain rfl opens (fun h => by cases h) fun rest closes => ?_
  -- an element ends at a semicolon, or where the chain does
  have item : ∀ c ∈ e :: next :: es, ∀ more, more = rest ∨ (∃ behind, more = ';' :: behind) →
      ∀ᶠ limit in atTop, readSingle limit (c.write ++ more) = some (c.skeleton, more) := by
    intro c m more is
    refine (beneath c m).single (flat c m) more ?_
    obtain rfl | ⟨behind, rfl⟩ := is
    · exact closes.mono isEnd_of_isClose
    · exact beginsWith_cons rfl _
  have done : expect ';' rest = none := closes.expect_eq_none rfl
  have items := readItems_write done next es fun c m more is => by
    refine eventually_of_succ ?_
    simp only [readItem, if_pos]
    exact item c (List.mem_cons_of_mem _ m) more is
  refine eventually_of_succ ?_
  filter_upwards [items, item e List.mem_cons_self _ (.inr ⟨_, rfl⟩)] with limit items first
  simp only [write, writeList, List.append_assoc, List.cons_append]
  rw [readChain, first]
  simp only [Option.bind_eq_bind, Option.bind_some, items, skeleton, skeletons]

/-! ### Trees -/

/-- **A tree that a parser makes is read back**, one case for each kind. -/
theorem Parsed.reads {e : Expr} (parsed : e.Parsed) : Reads e := by
  induction parsed with
  | @node e shape _ ih =>
    have one {c : Expr} (m : .expr c ∈ e.parts) : Reads c := ih c (mem_children_of_expr m)
    have many {es : List Expr} (m : .exprs es ∈ e.parts) : ∀ c ∈ es, Reads c := fun c m' =>
      ih c (mem_children_of_exprs m m')
    cases e with
    | chain es => exact reads_chain shape.1 shape.2 (many (by simp [parts]))
    | pipe input n args all =>
      exact reads_pipe all shape.1 (one (by simp [parts])) (many (by simp [parts]))
    | assign => exact reads_assign (one (by simp [parts])) (one (by simp [parts])) shape
    | conditional =>
      exact reads_conditional (one (by simp [parts])) (one (by simp [parts])) (one (by simp [parts]))
    | name => exact reads_name shape
    | member => exact reads_member shape (one (by simp [parts]))
    | keyed => exact reads_keyed (one (by simp [parts])) (one (by simp [parts]))
    | callName => exact reads_callName shape (many (by simp [parts]))
    | callMember => exact reads_callMember shape (one (by simp [parts])) (many (by simp [parts]))
    | call => exact reads_call (one (by simp [parts])) (many (by simp [parts]))
    | binary => exact reads_binary shape (one (by simp [parts])) (one (by simp [parts]))
    | negate operator =>
      obtain rfl : operator = "!" := shape
      exact reads_negate (one (by simp [parts]))
    | primitive => exact reads_primitive shape
    | string s => exact reads_string s
    | array => exact reads_array (many (by simp [parts]))
    | object => exact reads_object shape (many (by simp [parts]))

/-- A whole text is read as what it tells. -/
theorem Parsed.readChain_write {e : Expr} (parsed : e.Parsed) :
    ∀ᶠ limit in atTop, readChain limit e.write = some (e.skeleton, []) := by
  simpa using parsed.reads.chain [] (fun _ m => by cases m)

/-! ### Numbers -/

/-- The numbers of a tree that a parser makes are finite. -/
theorem Parsed.isFinite {e : Expr} (parsed : e.Parsed) {bits : UInt64} (h : e.Mentions bits) :
    (Float.ofBits bits).isFinite := by
  induction h with
  | here =>
    obtain ⟨shape, -⟩ := parsed
    exact shape
  | beneath m _ ih =>
    obtain ⟨-, beneath⟩ := parsed
    exact ih (beneath _ m)

variable {a b : Expr}

/-- Both zeros are written `0`, and nothing else is, so only the other numbers have to be told
apart. -/
theorem toldApart_of_nonzero (parsed : a.Parsed) (parsed' : b.Parsed)
    (numbers : ∀ m n, a.Mentions m → b.Mentions n → (Float.ofBits m == 0.0) = false →
      (Float.ofBits n == 0.0) = false →
      Number.display (Float.ofBits m) = Number.display (Float.ofBits n) →
      Float.ofBits m == Float.ofBits n) : ToldApart a b := by
  intro m n mentions mentions' same
  have zeros : (Float.ofBits m == 0.0) = (Float.ofBits n == 0.0) := by
    have finite := parsed.isFinite mentions
    have finite' := parsed'.isFinite mentions'
    rw [Bool.eq_iff_iff, ← Number.mantissa_eq_zero_iff finite, ← Number.mantissa_eq_zero_iff finite',
      ← Number.display_eq_zero_iff finite, ← Number.display_eq_zero_iff finite', same]
  cases zero : Float.ofBits m == 0.0 with
  | false => exact numbers m n mentions mentions' zero (zeros ▸ zero) same
  | true =>
    have alike := (Value.beq_iff _ _).1 zero
    have alike' := (Value.beq_iff _ _).1 (zeros ▸ zero)
    exact (Value.beq_iff _ _).2 (alike.trans alike'.symm)

/-! ### Texts -/

/-- **The canonical text is unambiguous.**  Trees that a parser makes are the same if they have the
same text, whatever characters stand in the texts and the keys.  It is assumed that numbers other
than zero are written differently if they differ. -/
theorem same_of_text_eq (parsed : a.Parsed) (parsed' : b.Parsed)
    (numbers : ∀ m n, a.Mentions m → b.Mentions n → (Float.ofBits m == 0.0) = false →
      (Float.ofBits n == 0.0) = false →
      Number.display (Float.ofBits m) = Number.display (Float.ofBits n) →
      Float.ofBits m == Float.ofBits n)
    (h : a.text = b.text) : a.same b = true := by
  have written : a.write = b.write := String.ofList_injective h
  -- one limit that is large enough for both
  obtain ⟨limit, read, read'⟩ := (parsed.readChain_write.and parsed'.readChain_write).exists
  rw [written, read'] at read
  have skeletons : b.skeleton = a.skeleton := congrArg Prod.fst (Option.some.inj read)
  exact same_of_skeleton parsed parsed' (toldApart_of_nonzero parsed parsed' numbers) skeletons.symm

/-- `(x=0)?'it\'s):':(y|pad :1.5)`, with either zero. -/
def padded (zero : UInt64) : Expr :=
  conditional (assign (.name "x") (primitive (.number zero))) (string "it's):")
    (piped (.name "y") "pad" [primitive (.number 0x3FF8000000000000)])

theorem parsed_padded {zero : UInt64} (finite : (Float.ofBits zero).isFinite) :
    (padded zero).Parsed := by
  have name {n : String} (named : IsName n) : (Expr.name n).Parsed := .node named nofun
  have number {bits : UInt64} (finite : (Float.ofBits bits).isFinite) :
      (primitive (.number bits)).Parsed := .node finite nofun
  have half : (primitive (.number 0x3FF8000000000000)).Parsed := number (by decide)
  have assigned : (assign (.name "x") (primitive (.number zero))).Parsed :=
    .node rfl (List.forall_mem_cons.2 ⟨name (by decide), List.forall_mem_singleton.2 (number finite)⟩)
  have pipe : (piped (.name "y") "pad" [primitive (.number 0x3FF8000000000000)]).Parsed :=
    .node ⟨by decide, rfl⟩ (List.forall_mem_cons.2 ⟨name (by decide), List.forall_mem_cons.2
      ⟨half, List.forall_mem_cons.2 ⟨name (by decide), List.forall_mem_singleton.2 half⟩⟩⟩)
  exact .node trivial (List.forall_mem_cons.2 ⟨assigned, List.forall_mem_cons.2
    ⟨.node trivial nofun, List.forall_mem_singleton.2 pipe⟩⟩)

theorem mentions_padded {zero bits : UInt64} (h : (padded zero).Mentions bits) :
    bits = zero ∨ bits = 0x3FF8000000000000 := by
  have number {m : UInt64} (h : (primitive (.number m)).Mentions bits) : bits = m := by
    obtain _ | ⟨m, -⟩ := h
    · rfl
    · cases m
  have among {e c d : Expr} (m : c ∈ e.children) (is : e.children = [.name "y", d, .name "y", d] ∨
      e.children = [.name "x", d]) (h : c.Mentions bits) : d.Mentions bits := by
    rcases is with is | is
    all_goals
      simp only [is, List.mem_cons, List.not_mem_nil, or_false] at m
      rcases m with rfl | rfl | rfl | rfl
      all_goals first | exact h | exact absurd h (not_mentions_name _ _)
  obtain _ | ⟨m, h⟩ := h
  have beneath : (padded zero).children = [assign (.name "x") (primitive (.number zero)),
      string "it's):", piped (.name "y") "pad" [primitive (.number 0x3FF8000000000000)]] := rfl
  simp only [beneath, List.mem_cons, List.not_mem_nil, or_false] at m
  rcases m with rfl | rfl | rfl
  · obtain _ | ⟨m, h⟩ := h
    exact .inl (number (among m (.inr rfl) h))
  · obtain _ | ⟨m, -⟩ := h
    cases m
  · obtain _ | ⟨m, h⟩ := h
    exact .inr (number (among m (.inl rfl) h))

/-- Zero and negative zero are written alike and compare as equal. -/
theorem padded_same :
    (padded 0).Parsed ∧ (padded 0x8000000000000000).Parsed ∧
      (padded 0).text = (padded 0x8000000000000000).text ∧
      (padded 0).same (padded 0x8000000000000000) = true := by
  have parsed : (padded 0).Parsed := parsed_padded (by decide)
  have parsed' : (padded 0x8000000000000000).Parsed := parsed_padded (by decide)
  have text : (padded 0).text = (padded 0x8000000000000000).text := by decide +kernel
  refine ⟨parsed, parsed', text, same_of_text_eq parsed parsed' ?_ text⟩
  intro m n mentions mentions' nonzero nonzero' _
  have zero : Float.ofBits 0 == 0.0 := by decide
  have zero' : Float.ofBits 0x8000000000000000 == 0.0 := by decide
  obtain rfl | rfl := mentions_padded mentions
  · cases zero.symm.trans nonzero
  obtain rfl | rfl := mentions_padded mentions'
  · cases zero'.symm.trans nonzero'
  · decide

end Expr

end ViewBinding
