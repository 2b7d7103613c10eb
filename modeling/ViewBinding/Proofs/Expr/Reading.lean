import ViewBinding.Proofs.Expr.Reader
import Mathlib.Order.Filter.AtTopBot.Basic

/-!
# Expr — reading the canonical text back

`Expr.Reads` says of a tree how its text is read, wherever it may stand: as an operand, as an
expression and as a whole text.  What is read is its skeleton.  Words, texts, arrays and objects are
read back if what is beneath them is.
-/

namespace ViewBinding

namespace Expr

open Filter

/-- What holds one step further on holds where the limit is large enough. -/
theorem eventually_of_succ {p : Nat → Prop} (h : ∀ᶠ limit in atTop, p (limit + 1)) :
    ∀ᶠ limit in atTop, p limit := by
  rwa [← map_add_atTop_eq_nat 1, eventually_map]

/-! ### Reading what was written -/

variable {e e' : Expr} {text rest : List Char}

/-- Where nothing belongs to an operand any more. -/
theorem readPostfix_of_follows (follows : BeginsWith isFollower rest) (e : Expr) :
    ∀ᶠ limit in atTop, readPostfix limit e rest = some (e, rest) := by
  refine eventually_of_succ (.of_forall fun limit => ?_)
  rw [readPostfix]
  all_goals
    rintro more rfl
    cases follows _ rfl

theorem readOperand_of_primary {r : Option (Expr × List Char)}
    (h : ∀ᶠ limit in atTop, readPrimary limit text = some (e, rest))
    (h' : ∀ᶠ limit in atTop, readPostfix limit e rest = r) :
    ∀ᶠ limit in atTop, readOperand limit text = r := by
  refine eventually_of_succ ?_
  filter_upwards [h, h'] with limit h h'
  rw [readOperand, h]
  exact h'

theorem readSingle_of_operand (h : ∀ᶠ limit in atTop, readOperand limit text = some (e, rest))
    (stop : stops rest = true) : ∀ᶠ limit in atTop, readSingle limit text = some (e, rest) := by
  refine eventually_of_succ ?_
  filter_upwards [h] with limit read
  clear h
  rw [readSingle, read]
  simp only [Option.bind_eq_bind, Option.bind_some]
  split
  next => rfl
  next other =>
    refine absurd stop ?_
    rw [stops]
    · simp
    · exact other
  next => cases stop
  next => rfl

theorem stops_of_isEnd (ends : BeginsWith isEnd rest) : stops rest = true := by
  unfold stops
  split
  next => rfl
  next => cases ends _ rfl
  next => cases ends _ rfl
  next => rfl

theorem readChain_of_single (h : ∀ᶠ limit in atTop, readSingle limit text = some (e, rest))
    (unchained : ∀ more, rest ≠ ';' :: more) :
    ∀ᶠ limit in atTop, readChain limit text = some (e, rest) := by
  refine eventually_of_succ ?_
  filter_upwards [h] with limit h
  rw [readChain, h]
  simp only [Option.bind_eq_bind, Option.bind_some]

theorem unchained_of_isClose (closes : BeginsWith isClose rest) (more : List Char) :
    rest ≠ ';' :: more := by
  rintro rfl
  cases closes _ rfl

/-- Between parentheses, with nothing behind. -/
theorem readOperand_group {r : Option (Expr × List Char)} (opens : Opens text)
    (h : ∀ᶠ limit in atTop, readChain limit (text ++ ')' :: rest) = some (e, ')' :: rest))
    (h' : ∀ᶠ limit in atTop, readPostfix limit e rest = r) :
    ∀ᶠ limit in atTop, readOperand limit ('(' :: text ++ ')' :: rest) = r := by
  refine readOperand_of_primary (eventually_of_succ (eventually_of_succ ?_)) h'
  filter_upwards [h] with limit h
  rw [List.cons_append, readPrimary, readGroup, opens.expect_eq_none rfl, h]
  simp [readOperator, expect]

/-- What can be said of reading a tree back. -/
structure Reads (e : Expr) : Prop where
  opens : Opens e.write
  operand : ∀ {rest : List Char} {r : Option (Expr × List Char)}, Text.continues rest = false →
    (∀ᶠ limit in atTop, readPostfix limit e.skeleton rest = r) →
    ∀ᶠ limit in atTop, readOperand limit (parenthesize e.isLoose e.write ++ rest) = r
  single : e.isChain = false → ∀ rest, BeginsWith isEnd rest →
    ∀ᶠ limit in atTop, readSingle limit (e.write ++ rest) = some (e.skeleton, rest)
  chain : ∀ rest, BeginsWith isClose rest →
    ∀ᶠ limit in atTop, readChain limit (e.write ++ rest) = some (e.skeleton, rest)

namespace Reads

/-- As an operand. -/
theorem operand_eq (reads : Reads e) (follows : BeginsWith isFollower rest) :
    ∀ᶠ limit in atTop, readOperand limit (parenthesize e.isLoose e.write ++ rest) =
      some (e.skeleton, rest) :=
  reads.operand follows.not_continues (readPostfix_of_follows follows _)

theorem opens_operand (reads : Reads e) : Opens (parenthesize e.isLoose e.write) := by
  cases e.isLoose with
  | true => exact ⟨'(', _, rfl, rfl⟩
  | false => exact reads.opens

/-- A tree that is no operand without parentheses. -/
theorem of_chain (loose : e.isLoose = true) (opens : Opens e.write)
    (single : e.isChain = false → ∀ rest, BeginsWith isEnd rest →
      ∀ᶠ limit in atTop, readSingle limit (e.write ++ rest) = some (e.skeleton, rest))
    (chain : ∀ rest, BeginsWith isClose rest →
      ∀ᶠ limit in atTop, readChain limit (e.write ++ rest) = some (e.skeleton, rest)) :
    Reads e where
  opens := opens
  operand _ behind := by
    rw [loose, parenthesize, if_pos rfl, List.append_assoc]
    exact readOperand_group opens (chain _ (beginsWith_cons rfl _)) behind
  single := single
  chain := chain

/-- A conditional or an assignment. -/
theorem of_single (loose : e.isLoose = true) (opens : Opens e.write)
    (single : ∀ rest, BeginsWith isEnd rest →
      ∀ᶠ limit in atTop, readSingle limit (e.write ++ rest) = some (e.skeleton, rest)) : Reads e :=
  of_chain loose opens (fun _ => single) fun rest closes =>
    readChain_of_single (single rest (closes.mono isEnd_of_isClose)) (unchained_of_isClose closes)

/-- An operand. -/
theorem of_operand (tight : e.isLoose = false) (opens : Opens e.write)
    (operand : ∀ {rest : List Char} {r : Option (Expr × List Char)},
      Text.continues rest = false → (∀ᶠ limit in atTop, readPostfix limit e.skeleton rest = r) →
      ∀ᶠ limit in atTop, readOperand limit (e.write ++ rest) = r) : Reads e := by
  -- what ends an expression follows operands as well
  have single (rest : List Char) (ends : BeginsWith isEnd rest) :
      ∀ᶠ limit in atTop, readSingle limit (e.write ++ rest) = some (e.skeleton, rest) := by
    have follows := ends.mono isFollower_of_isEnd
    exact readSingle_of_operand (operand follows.not_continues (readPostfix_of_follows follows _))
      (stops_of_isEnd ends)
  refine ⟨opens, fun h behind => ?_, fun _ => single, fun rest closes => ?_⟩
  · rw [tight]
    exact operand h behind
  · exact readChain_of_single (single rest (closes.mono isEnd_of_isClose))
      (unchained_of_isClose closes)

/-- What an operand begins with. -/
theorem of_primary (tight : e.isLoose = false) (opens : Opens e.write)
    (primary : ∀ rest, Text.continues rest = false →
      ∀ᶠ limit in atTop, readPrimary limit (e.write ++ rest) = some (e.skeleton, rest)) :
    Reads e :=
  of_operand tight opens fun h behind => readOperand_of_primary (primary _ h) behind

/-- An operand in front of what follows it. -/
theorem operand_before (reads : Reads e) (c : Char) (follower : isFollower c) (rest : List Char) :
    ∀ᶠ limit in atTop, readOperand limit (parenthesize e.isLoose e.write ++ c :: rest) =
      some (e.skeleton, c :: rest) :=
  reads.operand_eq (beginsWith_cons follower rest)

/-- A whole text in front of what closes it. -/
theorem chain_before (reads : Reads e) (c : Char) (close : isClose c) (rest : List Char) :
    ∀ᶠ limit in atTop, readChain limit (e.write ++ c :: rest) = some (e.skeleton, c :: rest) :=
  reads.chain _ (beginsWith_cons close rest)

end Reads

/-! ### Lists -/

theorem Opens.append (opens : Opens text) (more : List Char) : Opens (text ++ more) := by
  obtain ⟨c, text, rfl, opener⟩ := opens
  exact ⟨c, text ++ more, rfl, opener⟩

theorem opens_writeList {separator : Char} {es : List Expr} (opens : Opens e.write) :
    Opens (writeList separator (e :: es)) := by
  cases es with
  | nil => exact opens
  | cons next es => exact opens.append _

/-- Items with a separator between them, each of which is read where the separator or the rest
follows. -/
theorem readItems_write {separator : Char} (done : expect separator rest = none) :
    ∀ (e : Expr) (es : List Expr), (∀ c ∈ e :: es, ∀ more,
      more = rest ∨ (∃ behind, more = separator :: behind) →
      ∀ᶠ limit in atTop, readItem limit separator (c.write ++ more) = some (c.skeleton, more)) →
    ∀ᶠ limit in atTop, readItems limit separator (writeList separator (e :: es) ++ rest) =
      some (skeletons (e :: es), rest)
  | e, [], item => by
    refine eventually_of_succ ?_
    filter_upwards [item e List.mem_cons_self rest (.inl rfl)] with limit item
    rw [readItems, writeList, item]
    simp only [Option.bind_eq_bind, Option.bind_some, done]
    rfl
  | e, next :: es, item => by
    -- the first item is followed by a separator, and the last one by the rest
    have others := readItems_write done next es fun c m => item c (List.mem_cons_of_mem _ m)
    refine eventually_of_succ ?_
    filter_upwards [item e List.mem_cons_self _ (.inr ⟨_, rfl⟩), others] with limit item others
    rw [readItems, writeList, List.append_assoc, List.cons_append, item]
    simp only [Option.bind_eq_bind, Option.bind_some, expect_self, others]
    rfl

/-- A list up to what closes it. -/
theorem readUntil_write {close : Char} (closes : isClose close) (other : isOpener close = false)
    (comma : close ≠ ',') {es : List Expr} (reads : ∀ e ∈ es, Reads e) (rest : List Char) :
    ∀ᶠ limit in atTop, readUntil limit close (writeList ',' es ++ close :: rest) =
      some (skeletons es, rest) := by
  refine eventually_of_succ ?_
  cases es with
  | nil =>
    refine .of_forall fun limit => ?_
    rw [readUntil, writeList, List.nil_append, expect_self]
    rfl
  | cons e es =>
    have done : expect ',' (close :: rest) = none := if_neg comma
    have items := readItems_write done e es fun c m more is => by
      refine eventually_of_succ ?_
      simp only [readItem, if_neg (by decide : ¬ ',' = ';')]
      obtain rfl | ⟨behind, rfl⟩ := is
      · exact (reads c m).chain _ (beginsWith_cons closes _)
      · exact (reads c m).chain _ (beginsWith_cons rfl _)
    filter_upwards [items] with limit items
    rw [readUntil, (opens_writeList (reads e List.mem_cons_self).opens).expect_eq_none other, items]
    simp only [Option.bind_eq_bind, Option.bind_some, expect_self]

/-- The arguments of a pipe. -/
theorem readArguments_write {es : List Expr} (reads : ∀ e ∈ es, Reads e) (rest : List Char) :
    ∀ᶠ limit in atTop, readArguments limit (writeArguments es ++ ')' :: rest) =
      some (skeletons es, ')' :: rest) := by
  induction es with
  | nil =>
    refine eventually_of_succ (.of_forall fun limit => ?_)
    simp [writeArguments, readArguments, skeletons]
  | cons e es ih =>
    have follows : BeginsWith isFollower (writeArguments es ++ ')' :: rest) := by
      cases es <;> exact beginsWith_cons rfl _
    refine eventually_of_succ ?_
    filter_upwards [(reads e List.mem_cons_self).operand_eq follows,
      ih fun c m => reads c (List.mem_cons_of_mem _ m)] with limit first others
    simp only [writeArguments, List.append_assoc, List.cons_append]
    rw [readArguments, first]
    simp only [Option.bind_eq_bind, Option.bind_some, others, skeletons]

/-- The entries of an object. -/
theorem readEntries_write : ∀ (key : String) (keys : List String) (e : Expr) (es : List Expr),
    keys.length = es.length → (∀ c ∈ e :: es, Reads c) → ∀ rest : List Char,
    ∀ᶠ limit in atTop,
      readEntries limit (writeEntries true (key :: keys) (e :: es) ++ '\x7d' :: rest) =
        some ((key :: keys).zip (skeletons (e :: es)), rest)
  | key, [], e, [], _, reads, rest => by
    refine eventually_of_succ ?_
    filter_upwards [(reads e List.mem_cons_self).chain_before '\x7d' rfl rest] with limit value
    simp only [writeEntries, if_true, List.nil_append, List.append_assoc, List.cons_append]
    rw [readEntries, readQuoted_quoted]
    simp only [Option.bind_eq_bind, Option.bind_some, expect_self, value]
    rfl
  | key, next :: keys, e, f :: es, same, reads, rest => by
    have comma : writeEntries false (next :: keys) (f :: es) =
        ',' :: writeEntries true (next :: keys) (f :: es) := rfl
    refine eventually_of_succ ?_
    filter_upwards [(reads e List.mem_cons_self).chain_before ',' rfl
        (writeEntries true (next :: keys) (f :: es) ++ '\x7d' :: rest),
      readEntries_write next keys f es (Nat.succ.inj same)
        (fun c m => reads c (List.mem_cons_of_mem _ m)) rest] with limit value others
    rw [writeEntries, comma]
    simp only [if_true, List.nil_append, List.append_assoc, List.cons_append]
    rw [readEntries, readQuoted_quoted]
    simp only [Option.bind_eq_bind, Option.bind_some, expect_self, value, others]
    rfl

/-! ### What an operand begins with -/

/-- A word on its own. -/
theorem IsWord.readPrimary {w : String} (word : IsWord w) (h : Text.continues rest = false) :
    ∀ᶠ limit in atTop, readPrimary limit (w.toList ++ rest) = some (name w, rest) := by
  refine eventually_of_succ (.of_forall fun limit => ?_)
  have unquoted : readQuoted (w.toList ++ rest) = none := by
    rw [readQuoted, word.unquoted]
    rfl
  obtain ⟨c, text, is, -⟩ := word.opens
  have tight := word.tight c (by rw [is]; rfl)
  rw [Expr.readPrimary]
  · rw [unquoted, word.read rest h]
    rfl
  all_goals
    rintro more e
    rw [is] at e
    rw [(List.cons.inj e).1] at tight
    cases tight

theorem reads_name {n : String} (named : IsName n) : Reads (name n) :=
  .of_primary rfl named.isWord.opens fun _ h => named.isWord.readPrimary h

theorem reads_primitive {p : Primitive} (shape : (primitive p).Shaped) : Reads (primitive p) :=
  .of_primary rfl (isWord_text shape).opens fun _ h => (isWord_text shape).readPrimary h

theorem reads_string (s : String) : Reads (string s) := by
  have quote : quoted s = Text.apostrophe :: (quoted s).tail := by
    simp [quoted, Text.quoteSingle]
  refine .of_primary rfl ⟨_, _, quote, rfl⟩ fun rest _ => ?_
  refine eventually_of_succ (.of_forall fun limit => ?_)
  rw [write, readPrimary, readQuoted_quoted]
  · rfl
  all_goals
    rintro more e
    rw [quote] at e
    cases (List.cons.inj e).1

theorem reads_array {es : List Expr} (beneath : ∀ e ∈ es, Reads e) : Reads (array es) :=
  .of_primary rfl ⟨_, _, rfl, rfl⟩ fun rest _ => by
    refine eventually_of_succ ?_
    filter_upwards [readUntil_write (by rfl : isClose ']') rfl (by decide) beneath rest] with
      limit elements
    simp only [write, List.append_assoc, List.cons_append, List.nil_append]
    rw [readPrimary, elements]
    rfl

theorem length_skeletons (es : List Expr) : (skeletons es).length = es.length := by
  rw [skeletons_eq, List.length_map]

theorem reads_object {keys : List String} {es : List Expr} (same : keys.length = es.length)
    (beneath : ∀ e ∈ es, Reads e) : Reads (object keys es) := by
  refine .of_primary rfl ⟨_, _, rfl, rfl⟩ fun rest _ => eventually_of_succ ?_
  simp only [write, List.append_assoc, List.cons_append, List.nil_append]
  cases keys with
  | nil =>
    obtain rfl := List.eq_nil_of_length_eq_zero same.symm
    refine .of_forall fun limit => ?_
    rw [readPrimary, writeEntries, List.nil_append, expect_self]
    · rfl
    · simp
  | cons key keys =>
    obtain ⟨e, es, rfl⟩ := List.exists_cons_of_length_eq_add_one same.symm
    have quote : expect '\x7d' (writeEntries true (key :: keys) (e :: es) ++ '\x7d' :: rest) =
        none := by
      simp [writeEntries, quoted, Text.quoteSingle, expect, Text.apostrophe]
    have lengths : (key :: keys).length = (skeletons (e :: es)).length := by
      rw [length_skeletons, same]
    filter_upwards [readEntries_write key keys e es (Nat.succ.inj same) beneath rest] with
      limit entries
    rw [readPrimary, quote]
    simp only [entries, Option.bind_eq_bind, Option.bind_some, skeleton,
      List.map_fst_zip lengths.le, List.map_snd_zip lengths.ge]

end Expr

end ViewBinding
