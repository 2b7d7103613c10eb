import ViewBinding.Expr.Decode
import ViewBinding.Expr.Encode
import Mathlib.Data.List.Forall2

/-!
# Expr.Parts — an expression as its kind and its parts

The fields of a node differ from kind to kind, but writing and reading treat a field by what it
holds alone.  `Expr.parts` lists the fields of an expression in the order in which they are written,
so that what follows is said of a part once and not of sixteen kinds.

* `toContent_eq_node`: the content of an expression is the node of its kind with its parts.
* `build?_eq_some_iff`: fields build an expression exactly if each part is read from its field.
* `children_induction`: induction over the expressions that are directly beneath.
-/

namespace ViewBinding

theorem mapM_eq_some_iff {α β : Type} {f : α → Option β} {xs : List α} {ys : List β} :
    xs.mapM f = some ys ↔ List.Forall₂ (f · = some ·) xs ys := by
  induction xs generalizing ys with
  | nil => simp [eq_comm]
  | cons x xs ih =>
    simp only [List.mapM_cons, Option.bind_eq_bind, Option.bind_eq_some_iff, Option.pure_def,
      Option.some.injEq, ih, List.forall₂_cons_left_iff]
    grind

/-- Each element of the one list has a counterpart in the other. -/
theorem exists_of_forall₂ {α β : Type} {R : α → β → Prop} {xs : List α} {ys : List β}
    (h : List.Forall₂ R xs ys) {x : α} (m : x ∈ xs) : ∃ y ∈ ys, R x y := by
  induction h with
  | nil => cases m
  | cons head _ ih =>
    obtain _ | ⟨_, m⟩ := m
    · exact ⟨_, .head _, head⟩
    · obtain ⟨y, mem, related⟩ := ih m
      exact ⟨y, .tail _ mem, related⟩

/-- Whatever `mapM` gives, it gives of some element. -/
theorem exists_of_mem_mapM {α β : Type} {f : α → Option β} {xs : List α} {ys : List β}
    (h : xs.mapM f = some ys) {y : β} (m : y ∈ ys) : ∃ x ∈ xs, f x = some y :=
  exists_of_forall₂ (mapM_eq_some_iff.mp h).flip m

/-- What a field of a node holds. -/
inductive Expr.Part where
  | expr (e : Expr)
  | text (s : String)
  | exprs (es : List Expr)
  | texts (ss : List String)
  | literal (p : Primitive)

namespace Expr.Part

/-- The content of a field. -/
def toContent : Part → Content
  | expr e => e.toContent
  | text s => .text s
  | exprs es => .sequence (Expr.toContents es)
  | texts ss => .sequence (ss.map .text)
  | literal p => p.toContent

/-- The expressions that a field holds. -/
def children : Part → List Expr
  | expr e => [e]
  | exprs es => es
  | _ => []

/-- The part is read from this content, expressions being read by `sub`. -/
def ReadFrom (sub : Content → Option Expr) : Part → Content → Prop
  | expr e, content => sub content = some e
  | text s, content => content.asText? = some s
  | exprs es, content => Expr.listOf? sub content = some es
  | texts ss, content => Expr.textsOf? content = some ss
  | literal p, content => Primitive.ofContent? content = some p

end Expr.Part

namespace Expr

/-- The kind of an expression. -/
def kind : Expr → Kind
  | chain _ => .chain
  | pipe _ _ _ _ => .pipe
  | assign _ _ => .assign
  | conditional _ _ _ => .conditional
  | name _ => .name
  | member _ _ => .member
  | keyed _ _ => .keyed
  | callName _ _ => .callName
  | callMember _ _ _ => .callMember
  | call _ _ => .call
  | binary _ _ _ => .binary
  | negate _ _ => .negate
  | primitive _ => .primitive
  | string _ => .string
  | array _ => .array
  | object _ _ => .object

/-- The fields of an expression, in the order in which they are written. -/
def parts : Expr → List Part
  | chain es => [.exprs es]
  | pipe input n args all => [.expr input, .text n, .exprs args, .exprs all]
  | assign target value => [.expr target, .expr value]
  | conditional condition yes no => [.expr condition, .expr yes, .expr no]
  | name n => [.text n]
  | member owner n => [.expr owner, .text n]
  | keyed owner key => [.expr owner, .expr key]
  | callName n args => [.text n, .exprs args]
  | callMember owner n args => [.expr owner, .text n, .exprs args]
  | call callee args => [.expr callee, .exprs args]
  | binary operator left right => [.text operator, .expr left, .expr right]
  | negate operator operand => [.text operator, .expr operand]
  | primitive value => [.literal value]
  | string value => [.text value]
  | array elements => [.exprs elements]
  | object keys values => [.texts keys, .exprs values]

/-- The expressions directly beneath an expression. -/
def children (e : Expr) : List Expr := e.parts.flatMap Part.children

theorem length_parts (e : Expr) : e.parts.length = e.kind.fields.length := by
  cases e <;> rfl

/-- **The content of an expression** is a node of its kind and parts. -/
theorem toContent_eq_node (e : Expr) :
    e.toContent = node e.kind (e.parts.map Part.toContent) := by
  cases e <;> rfl

/-- **Building an expression** from contents is reading its parts from them. -/
theorem build?_eq_some_iff {sub : Content → Option Expr} {kind : Kind} {fields : List Content}
    {e : Expr} :
    build? sub kind fields = some e ↔
      e.kind = kind ∧ List.Forall₂ (Part.ReadFrom sub) e.parts fields := by
  constructor
  · intro built
    unfold build? at built
    -- one case per kind; each says what was read, and then what was built of it
    split at built
    all_goals
      simp only [Option.bind_eq_bind, Option.bind_eq_some_iff, Option.some.injEq,
        reduceCtorEq] at built
    all_goals
      repeat obtain ⟨_, _, built⟩ := built
      exact ⟨rfl, by simp only [parts, List.forall₂_cons, List.Forall₂.nil, Part.ReadFrom,
        and_true, *]⟩
  · rintro ⟨rfl, read⟩
    cases e
    all_goals
      repeat rcases read with _ | ⟨_, read⟩
      simp only [Part.ReadFrom] at *
      simp only [kind, build?, Option.bind_eq_bind, Option.bind_some, *]

theorem mem_children {e c : Expr} : c ∈ e.children ↔ ∃ part ∈ e.parts, c ∈ part.children :=
  List.mem_flatMap

/-- What holds of all children holds of the children of each part. -/
theorem forall_mem_children {e : Expr} {p : Expr → Prop} :
    (∀ c ∈ e.children, p c) ↔ ∀ part ∈ e.parts, ∀ c ∈ part.children, p c :=
  List.forall_mem_flatMap

theorem sizeOf_le_of_mem_parts {e : Expr} : ∀ part ∈ e.parts, sizeOf part ≤ sizeOf e := by
  cases e <;> simp [parts] <;> omega

theorem sizeOf_lt_of_mem_children {e c : Expr} (m : c ∈ e.children) : sizeOf c < sizeOf e := by
  obtain ⟨part, mem, m⟩ := mem_children.mp m
  refine Nat.lt_of_lt_of_le ?_ (sizeOf_le_of_mem_parts part mem)
  cases part with
  | expr e => cases List.mem_singleton.mp m; simp
  | exprs es =>
    have : sizeOf c < sizeOf es := List.sizeOf_lt_of_mem m
    simp only [Part.exprs.sizeOf_spec]
    omega
  | text | texts | literal => cases m

/-- Induction over the expressions directly beneath. -/
theorem children_induction {motive : Expr → Prop}
    (step : ∀ e : Expr, (∀ c ∈ e.children, motive c) → motive e) (e : Expr) : motive e :=
  step e fun c _ => children_induction step c
termination_by e
decreasing_by exact sizeOf_lt_of_mem_children ‹_›

end Expr

end ViewBinding
