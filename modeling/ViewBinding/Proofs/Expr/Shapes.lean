import ViewBinding.Expr.Printer
import ViewBinding.Operators
import ViewBinding.Proofs.Expr.Words

/-!
# Expr — trees as a parser makes them

`Expr.Parsed` holds of the trees that a parser produces: names are identifiers and no keywords,
operators are known, numbers are finite, calls of names and members have kinds of their own, and
chains are not nested where the canonical text would not show it.

The `skeleton` of a tree forgets what its canonical text does not tell: whether a word is a name, a
keyword or a number, and that calls of names and members have kinds of their own.  Trees that a
parser makes are the same if their skeletons are, provided that their numbers can be told apart
(`Expr.same_of_skeleton`).
-/

namespace ViewBinding

namespace Expr

/-- The texts of literals that could be names. -/
def keywords : List String := ["null", "undefined", "true", "false"]

/-- An identifier that is no keyword. -/
def IsName (n : String) : Prop := Text.isIdentifier n = true ∧ n ∉ keywords

instance (n : String) : Decidable (IsName n) := inferInstanceAs (Decidable (_ ∧ _))

/-- An operator that evaluation knows. -/
def IsOperator (operator : String) : Prop :=
  operator = "&&" ∨ operator = "||" ∨ (Operator.ofText? operator).isSome

/-- Whether the expression is a chain. -/
def isChain : Expr → Bool
  | chain _ => true
  | _ => false

/-- Whether calling the expression has a kind of its own. -/
def isReference : Expr → Bool
  | name _ | member _ _ => true
  | _ => false

/-- What a parser sees to at a node. -/
def Shaped : Expr → Prop
  | chain es => 2 ≤ es.length ∧ ∀ e ∈ es, e.isChain = false
  | pipe input n args all => IsName n ∧ all = input :: args
  | assign _ value => value.isChain = false
  | name n | member _ n | callName n _ | callMember _ n _ => IsName n
  | call callee _ => callee.isReference = false
  | binary operator _ _ => IsOperator operator
  | negate operator _ => operator = "!"
  | primitive (.number bits) => (Float.ofBits bits).isFinite
  | object keys values => keys.length = values.length
  | conditional _ _ _ | keyed _ _ | primitive _ | string _ | array _ => True

/-- A tree as a parser makes it. -/
inductive Parsed : Expr → Prop
  | node {e : Expr} (shape : e.Shaped) (beneath : ∀ c ∈ e.children, Parsed c) : Parsed e

mutual

/-- What the canonical text tells of a tree. -/
def skeleton : Expr → Expr
  | chain es => chain (skeletons es)
  | pipe input n args _ => pipe input.skeleton n (skeletons args) []
  | assign target value => assign target.skeleton value.skeleton
  | conditional condition yes no => conditional condition.skeleton yes.skeleton no.skeleton
  | name n => name n
  | member owner n => member owner.skeleton n
  | keyed owner key => keyed owner.skeleton key.skeleton
  | callName n args => call (name n) (skeletons args)
  | callMember owner n args => call (member owner.skeleton n) (skeletons args)
  | call callee args => call callee.skeleton (skeletons args)
  | binary operator left right => binary operator left.skeleton right.skeleton
  | negate operator operand => negate operator operand.skeleton
  | primitive value => name value.text
  | string value => string value
  | array elements => array (skeletons elements)
  | object keys values => object keys (skeletons values)

/-- What the canonical texts tell of trees. -/
def skeletons : List Expr → List Expr
  | [] => []
  | e :: rest => e.skeleton :: skeletons rest

end

theorem skeletons_eq (es : List Expr) : skeletons es = es.map skeleton := by
  induction es with
  | nil => rfl
  | cons e es ih => rw [skeletons, ih, List.map_cons]

/-! ### Words -/

/-- The text of a finite number begins with a digit or a sign. -/
theorem number_text {bits : UInt64} (finite : (Float.ofBits bits).isFinite) :
    ∃ c rest, (Primitive.number bits).text.toList = c :: rest ∧ (c.isDigit ∨ c = '-') := by
  obtain ⟨sign, text, whole, rfl | rfl, plain⟩ := Number.display_word finite
  · obtain ⟨d, rest, rfl, digit⟩ := plain.digit
    exact ⟨d, rest, whole, .inl digit⟩
  · exact ⟨'-', text, whole, .inr rfl⟩

theorem not_digit_or_sign_of_isIdentifier {n : String} (h : Text.isIdentifier n) {c : Char}
    {rest : List Char} (is : n.toList = c :: rest) : ¬ (c.isDigit ∨ c = '-') := by
  obtain ⟨-, d, rest', is', word, letter⟩ := Text.isIdentifier_word h
  obtain rfl : c = d := (List.cons.inj (is.symm.trans is')).1
  rintro (digit | rfl)
  · rw [digit] at letter
    cases letter
  · cases word

/-- A literal's text is no name. -/
theorem text_ne_name {p : Primitive} (shape : (primitive p).Shaped) {n : String} (named : IsName n) :
    n ≠ p.text := by
  rintro rfl
  obtain ⟨identifier, free⟩ := named
  cases p with
  | null => exact free (by decide)
  | undefined => exact free (by decide)
  | bool b => cases b <;> exact free (by decide)
  | number bits =>
    obtain ⟨c, rest, is, head⟩ := number_text shape
    exact not_digit_or_sign_of_isIdentifier identifier is head

/-- A keyword is no number. -/
theorem text_ne_keyword {bits : UInt64} (shape : (primitive (.number bits)).Shaped) {n : String}
    (keyword : n ∈ keywords) : (Primitive.number bits).text ≠ n := by
  rintro rfl
  obtain ⟨c, rest, is, head⟩ := number_text shape
  have identifier : ∀ k ∈ keywords, Text.isIdentifier k = true := by decide
  exact not_digit_or_sign_of_isIdentifier (identifier _ keyword) is head

/-- The numbers of two expressions can be told apart by their texts. -/
def ToldApart (a b : Expr) : Prop :=
  ∀ m n, a.Mentions m → b.Mentions n →
    Number.display (Float.ofBits m) = Number.display (Float.ofBits n) →
    Float.ofBits m == Float.ofBits n

/-- Literals of one text are the same. -/
theorem same_of_text {p q : Primitive} (shape : (primitive p).Shaped) (shape' : (primitive q).Shaped)
    (numbers : ToldApart (primitive p) (primitive q)) (h : p.text = q.text) : p.same q := by
  have boolText : ∀ b : Bool,
      (Primitive.bool b).text = "true" ∨ (Primitive.bool b).text = "false" := by
    decide
  cases p with
  | number m =>
    cases q with
    | number n => exact numbers m n .here .here h
    | null => exact absurd h (text_ne_keyword shape (by decide))
    | undefined => exact absurd h (text_ne_keyword shape (by decide))
    | bool b => exact absurd h (text_ne_keyword shape (by cases b <;> decide))
  | null =>
    cases q with
    | number n => exact absurd h.symm (text_ne_keyword shape' (by decide))
    | null => rfl
    | undefined => exact absurd h (by decide)
    | bool b => exact absurd h (by cases b <;> decide)
  | undefined =>
    cases q with
    | number n => exact absurd h.symm (text_ne_keyword shape' (by decide))
    | null => exact absurd h (by decide)
    | undefined => rfl
    | bool b => exact absurd h (by cases b <;> decide)
  | bool b =>
    cases q with
    | number n => exact absurd h.symm (text_ne_keyword shape' (by cases b <;> decide))
    | null => exact absurd h (by cases b <;> decide)
    | undefined => exact absurd h (by cases b <;> decide)
    | bool b' => cases b <;> cases b' <;> first | rfl | exact absurd h (by decide)

/-! ### Trees -/

theorem ToldApart.beneath {a b c d : Expr} (h : ToldApart a b) (m : c ∈ a.children)
    (m' : d ∈ b.children) : ToldApart c d :=
  fun i j mentions mentions' => h i j (.beneath m mentions) (.beneath m' mentions')

/-- Lists of trees are the same if their elements are. -/
theorem sameList_of_skeletons : ∀ {as bs : List Expr}, as.map skeleton = bs.map skeleton →
    (∀ a ∈ as, ∀ b ∈ bs, a.skeleton = b.skeleton → a.same b) → sameList as bs
  | [], [], _, _ => rfl
  | a :: as, b :: bs, h, each => by
    obtain ⟨first, others⟩ := List.cons.inj h
    rw [sameList, Bool.and_eq_true]
    exact ⟨each a List.mem_cons_self b List.mem_cons_self first,
      sameList_of_skeletons others fun c m d m' =>
        each c (List.mem_cons_of_mem _ m) d (List.mem_cons_of_mem _ m')⟩

/-- What has no kind of its own to be called has no name for its skeleton. -/
theorem skeleton_ne_name {e : Expr} (parsed : e.Parsed) (plain : e.isReference = false) {n : String}
    (named : IsName n) : e.skeleton ≠ name n := by
  obtain ⟨shape, -⟩ := parsed
  cases e <;> simp only [skeleton, ne_eq, reduceCtorEq, not_false_eq_true, name.injEq]
  · cases plain
  · exact fun is => text_ne_name shape named is.symm

theorem skeleton_ne_member {e owner : Expr} (plain : e.isReference = false) {n : String} :
    e.skeleton ≠ member owner n := by
  cases e <;> simp only [skeleton, ne_eq, reduceCtorEq, not_false_eq_true]
  cases plain

theorem mem_children_of_expr {e c : Expr} (m : .expr c ∈ e.parts) : c ∈ e.children :=
  mem_children.2 ⟨_, m, List.mem_singleton_self c⟩

theorem mem_children_of_exprs {e c : Expr} {es : List Expr} (m : .exprs es ∈ e.parts) (m' : c ∈ es) :
    c ∈ e.children :=
  mem_children.2 ⟨_, m, m'⟩

/-- **Trees that a parser makes are the same if their skeletons are.** -/
theorem same_of_skeleton {a : Expr} (parsed : a.Parsed) : ∀ {b : Expr}, b.Parsed → ToldApart a b →
    a.skeleton = b.skeleton → a.same b := by
  induction parsed with
  | @node a shape beneath ih =>
    rintro b ⟨shape', beneath'⟩ numbers h
    have sub {c d : Expr} (m : c ∈ a.children) (m' : d ∈ b.children)
        (h : c.skeleton = d.skeleton) : c.same d :=
      ih c m (beneath' d m') (numbers.beneath m m') h
    have one {c d : Expr} (m : .expr c ∈ a.parts) (m' : .expr d ∈ b.parts)
        (h : c.skeleton = d.skeleton) : c.same d :=
      sub (mem_children_of_expr m) (mem_children_of_expr m') h
    have many {cs ds : List Expr} (m : .exprs cs ∈ a.parts) (m' : .exprs ds ∈ b.parts)
        (h : cs.map skeleton = ds.map skeleton) : sameList cs ds :=
      sameList_of_skeletons h fun c mc d md =>
        sub (mem_children_of_exprs m mc) (mem_children_of_exprs m' md)
    -- one case per kind; the skeleton of `b` is of the same kind
    cases a with
    | chain es =>
      cases b <;> simp only [skeleton, reduceCtorEq, chain.injEq, skeletons_eq] at h
      exact many (by simp [parts]) (by simp [parts]) h
    | pipe input n args all =>
      cases b <;> simp only [skeleton, reduceCtorEq, pipe.injEq, skeletons_eq, and_true] at h
      obtain ⟨-, rfl⟩ := shape
      obtain ⟨-, rfl⟩ := shape'
      have input_same := one (by simp [parts]) (by simp [parts]) h.1
      have args_same := many (by simp [parts]) (by simp [parts]) h.2.2
      simp [same, sameList, h.2.1, input_same, args_same]
    | assign target value =>
      cases b <;> simp only [skeleton, reduceCtorEq, assign.injEq] at h
      have target_same := one (by simp [parts]) (by simp [parts]) h.1
      have value_same := one (by simp [parts]) (by simp [parts]) h.2
      simp [same, target_same, value_same]
    | conditional condition yes no =>
      cases b <;> simp only [skeleton, reduceCtorEq, conditional.injEq] at h
      have condition_same := one (by simp [parts]) (by simp [parts]) h.1
      have yes_same := one (by simp [parts]) (by simp [parts]) h.2.1
      have no_same := one (by simp [parts]) (by simp [parts]) h.2.2
      simp [same, condition_same, yes_same, no_same]
    | name n =>
      cases b <;> simp only [skeleton, reduceCtorEq, name.injEq] at h
      · simp [same, h]
      · exact absurd h (text_ne_name shape' shape)
    | member owner n =>
      cases b <;> simp only [skeleton, reduceCtorEq, member.injEq] at h
      have owner_same := one (by simp [parts]) (by simp [parts]) h.1
      simp [same, owner_same, h.2]
    | keyed owner key =>
      cases b <;> simp only [skeleton, reduceCtorEq, keyed.injEq] at h
      have owner_same := one (by simp [parts]) (by simp [parts]) h.1
      have key_same := one (by simp [parts]) (by simp [parts]) h.2
      simp [same, owner_same, key_same]
    | callName n args =>
      cases b <;> simp only [skeleton, reduceCtorEq, call.injEq, skeletons_eq, name.injEq,
        false_and] at h
      · have args_same := many (by simp [parts]) (by simp [parts]) h.2
        simp [same, h.1, args_same]
      next callee args' =>
        exact absurd h.1.symm (skeleton_ne_name (beneath' callee
          (mem_children_of_expr (by simp [parts]))) shape' shape)
    | callMember owner n args =>
      cases b <;> simp only [skeleton, reduceCtorEq, call.injEq, skeletons_eq, member.injEq,
        false_and] at h
      · have owner_same := one (by simp [parts]) (by simp [parts]) h.1.1
        have args_same := many (by simp [parts]) (by simp [parts]) h.2
        simp [same, owner_same, h.1.2, args_same]
      · exact absurd h.1.symm (skeleton_ne_member shape')
    | call callee args =>
      cases b <;> simp only [skeleton, reduceCtorEq, call.injEq, skeletons_eq] at h
      · exact absurd h.1 (skeleton_ne_name (beneath callee
          (mem_children_of_expr (by simp [parts]))) shape shape')
      · exact absurd h.1 (skeleton_ne_member shape)
      · have callee_same := one (by simp [parts]) (by simp [parts]) h.1
        have args_same := many (by simp [parts]) (by simp [parts]) h.2
        simp [same, callee_same, args_same]
    | binary operator left right =>
      cases b <;> simp only [skeleton, reduceCtorEq, binary.injEq] at h
      have left_same := one (by simp [parts]) (by simp [parts]) h.2.1
      have right_same := one (by simp [parts]) (by simp [parts]) h.2.2
      simp [same, h.1, left_same, right_same]
    | negate operator operand =>
      cases b <;> simp only [skeleton, reduceCtorEq, negate.injEq] at h
      have operand_same := one (by simp [parts]) (by simp [parts]) h.2
      simp [same, h.1, operand_same]
    | primitive p =>
      cases b <;> simp only [skeleton, reduceCtorEq, name.injEq] at h
      · exact absurd h.symm (text_ne_name shape shape')
      · exact same_of_text shape shape' numbers h
    | string s =>
      cases b <;> simp only [skeleton, reduceCtorEq, string.injEq] at h
      simp [same, h]
    | array elements =>
      cases b <;> simp only [skeleton, reduceCtorEq, array.injEq, skeletons_eq] at h
      exact many (by simp [parts]) (by simp [parts]) h
    | object keys values =>
      cases b <;> simp only [skeleton, reduceCtorEq, object.injEq, skeletons_eq] at h
      have values_same := many (by simp [parts]) (by simp [parts]) h.2
      simp [same, h.1, values_same]

end Expr

end ViewBinding
