import ViewBinding.Expr.Printer
import ViewBinding.Proofs.Expr.Written

/-!
# Expr.Agreement — which documents decode to well-formed trees

A written pipe holds its input twice, an object has two lists, and a negation names its operator.
Decoding reads every field on its own and compares none with another.  So a decoded tree is well
formed exactly if its document agrees with itself at every node (`decoded_wellFormed_iff`); a
document that does not is accepted all the same (`decodes_ill_formed`).

* `Content.Means` is what a document stands for, whatever the depth that it is read with.
* `Content.Agrees` is the condition, on the document alone.
* `Expr.spelled` is the tree of what is printed: every pipe evaluates the input and the arguments
  that it is printed with.  A well-formed tree is what it spells (`Expr.WellFormed.spelled_eq`).
-/

namespace ViewBinding

/-! ### The relations at one node -/

namespace Expr

/-- The relations that `WellFormed` asks for at the outermost node. -/
def Coherent : Expr → Prop
  | pipe input _ args all => all = input :: args
  | negate operator _ => operator = "!"
  | object keys values => keys.length = values.length
  | _ => True

theorem allWellFormed_iff {es : List Expr} : AllWellFormed es ↔ ∀ e ∈ es, e.WellFormed := by
  induction es with
  | nil => simp [AllWellFormed]
  | cons e es ih => simp [AllWellFormed, ih]

/-- Well-formedness is a relation at each node. -/
theorem wellFormed_iff (e : Expr) :
    e.WellFormed ↔ e.Coherent ∧ ∀ c ∈ e.children, c.WellFormed := by
  cases e with
  | pipe input n args all =>
    simp only [WellFormed, Coherent, children, parts, Part.children, allWellFormed_iff,
      List.flatMap_cons, List.flatMap_nil, List.append_nil, List.nil_append, List.forall_mem_append,
      List.forall_mem_cons, List.not_mem_nil, false_implies, implies_true, and_true]
    constructor
    · rintro ⟨rfl, i, as⟩
      exact ⟨rfl, i, as, List.forall_mem_cons.mpr ⟨i, as⟩⟩
    · rintro ⟨rfl, i, as, -⟩
      exact ⟨rfl, i, as⟩
  | _ =>
    simp [WellFormed, Coherent, children, parts, Part.children, allWellFormed_iff, or_imp,
      forall_and]

end Expr

/-! ### What a document stands for -/

namespace Content

/-- The document stands for this expression, its outermost kind being read by `kind?`. -/
def Means (kind? : Content → Option Kind) (content : Content) (e : Expr) : Prop :=
  ∃ depth kind fields, Expr.nodeParts? kind? content = some (kind, fields) ∧
    Expr.build? (Expr.decodeWithin? depth) kind fields = some e

variable {kind? : Content → Option Kind} {content : Content} {e e' : Expr} {depth : Nat}

theorem means_of_decodeWithin? (h : Expr.decodeWithin? depth content = some e) :
    content.Means Kind.ofContent? e := by
  cases depth with
  | zero => cases h
  | succ depth =>
    simp only [Expr.decodeWithin?, Option.bind_eq_bind, Option.bind_eq_some_iff] at h
    obtain ⟨⟨kind, fields⟩, parts, built⟩ := h
    exact ⟨depth, kind, fields, parts, built⟩

theorem means_of_ofContent? (h : Expr.ofContent? kind? content = some e) :
    content.Means kind? e := by
  simp only [Expr.ofContent?, Option.bind_eq_bind, Option.bind_eq_some_iff] at h
  obtain ⟨⟨kind, fields⟩, parts, built⟩ := h
  exact ⟨content.depth, kind, fields, parts, built⟩

end Content

theorem Expr.Part.ReadFrom.mono {sub sub' : Content → Option Expr}
    (more : ∀ content e, sub content = some e → sub' content = some e) {part : Expr.Part}
    {content : Content} (read : part.ReadFrom sub content) : part.ReadFrom sub' content := by
  cases part with
  | expr e => exact more _ _ read
  | exprs es =>
    simp only [ReadFrom, Expr.listOf?, Option.bind_eq_bind, Option.bind_eq_some_iff,
      mapM_eq_some_iff] at read ⊢
    obtain ⟨items, sequence, read⟩ := read
    exact ⟨items, sequence, read.imp fun _ _ => more _ _⟩
  | text | texts | literal => exact read

namespace Expr

/-- Room for one more level changes nothing that is read already. -/
theorem decodeWithin?_succ {depth : Nat} {content : Content} {e : Expr}
    (h : decodeWithin? depth content = some e) : decodeWithin? (depth + 1) content = some e := by
  induction depth generalizing content e with
  | zero => cases h
  | succ depth ih =>
    rw [decodeWithin?] at h ⊢
    simp only [Option.bind_eq_bind, Option.bind_eq_some_iff, Prod.exists,
      build?_eq_some_iff] at h ⊢
    obtain ⟨kind, fields, parts, rfl, read⟩ := h
    exact ⟨_, fields, parts, rfl, read.imp fun _ _ => .mono fun _ _ => ih⟩

theorem decodeWithin?_mono {depth depth' : Nat} (le : depth ≤ depth') {content : Content} {e : Expr}
    (h : decodeWithin? depth content = some e) : decodeWithin? depth' content = some e := by
  induction le with
  | refl => exact h
  | step _ ih => exact decodeWithin?_succ ih

end Expr

/-- **A document stands for one expression.** -/
theorem Content.Means.unique {kind? : Content → Option Kind} {content : Content} {e e' : Expr}
    (h : content.Means kind? e) (h' : content.Means kind? e') : e = e' := by
  obtain ⟨depth, kind, fields, parts, built⟩ := h
  obtain ⟨depth', kind', fields', parts', built'⟩ := h'
  cases parts.symm.trans parts'
  have within {d : Nat} (le : d ≤ max depth depth') {e : Expr}
      (built : Expr.build? (Expr.decodeWithin? d) kind fields = some e) :
      Expr.build? (Expr.decodeWithin? (max depth depth')) kind fields = some e := by
    simp only [Expr.build?_eq_some_iff] at built ⊢
    exact ⟨built.1, built.2.imp fun _ _ => .mono fun _ _ => Expr.decodeWithin?_mono le⟩
  exact Option.some.inj
    ((within (Nat.le_max_left ..) built).symm.trans (within (Nat.le_max_right ..) built'))

theorem Content.Means.unique_list {kind? : Content → Option Kind} {contents : List Content}
    {es es' : List Expr} (h : List.Forall₂ (Content.Means kind?) contents es)
    (h' : List.Forall₂ (Content.Means kind?) contents es') : es = es' := by
  induction h generalizing es' with
  | nil => cases h'; rfl
  | cons means _ ih =>
    cases h' with
    | cons means' rest' => rw [means.unique means', ih rest']

/-! ### Documents that agree with themselves -/

namespace Content

/-- The items of a sequence. -/
def items (content : Content) : List Content := content.asSequence?.getD []

/-- The contents that stand for expressions among the fields of a node. -/
def beneath : Kind → List Content → List Content
  | .chain, [es] => es.items
  | .pipe, [input, _, args, all] => input :: args.items ++ all.items
  | .assign, [target, value] => [target, value]
  | .conditional, [condition, yes, no] => [condition, yes, no]
  | .member, [owner, _] => [owner]
  | .keyed, [owner, key] => [owner, key]
  | .callName, [_, args] => args.items
  | .callMember, [owner, _, args] => owner :: args.items
  | .call, [callee, args] => callee :: args.items
  | .binary, [_, left, right] => [left, right]
  | .negate, [_, operand] => [operand]
  | .array, [elements] => elements.items
  | .object, [_, values] => values.items
  | _, _ => []

/-- Two lists of contents stand for the same expressions. -/
def MeanSame (contents contents' : List Content) : Prop :=
  ∃ es, List.Forall₂ (Means Kind.ofContent?) contents es ∧
    List.Forall₂ (Means Kind.ofContent?) contents' es

/-- The redundant fields of a node agree with each other: all arguments of a pipe are its input
followed by its arguments, the operator of a negation is `!`, and an object has as many keys as
values. -/
def FieldsAgree : Kind → List Content → Prop
  | .pipe, [input, _, args, all] => MeanSame all.items (input :: args.items)
  | .negate, [operator, _] => operator.asText? = some "!"
  | .object, [keys, values] => keys.items.length = values.items.length
  | _, _ => True

/-- The redundant fields agree at every node of a document whose outermost kind is read by
`kind?`. -/
inductive Agrees : (Content → Option Kind) → Content → Prop
  | node {kind? : Content → Option Kind} {content : Content} {kind : Kind} {fields : List Content}
      (parts : Expr.nodeParts? kind? content = some (kind, fields))
      (own : FieldsAgree kind fields)
      (rest : ∀ c ∈ beneath kind fields, Agrees Kind.ofContent? c) : Agrees kind? content

theorem agrees_iff {kind? : Content → Option Kind} {content : Content} {kind : Kind}
    {fields : List Content} (parts : Expr.nodeParts? kind? content = some (kind, fields)) :
    content.Agrees kind? ↔
      FieldsAgree kind fields ∧ ∀ c ∈ beneath kind fields, c.Agrees Kind.ofContent? := by
  constructor
  · rintro ⟨parts', own, rest⟩
    cases parts.symm.trans parts'
    exact ⟨own, rest⟩
  · rintro ⟨own, rest⟩
    exact .node parts own rest

theorem means_items {depth : Nat} {content : Content} {es : List Expr}
    (h : Expr.listOf? (Expr.decodeWithin? depth) content = some es) :
    List.Forall₂ (Means Kind.ofContent?) content.items es := by
  simp only [Expr.listOf?, Option.bind_eq_bind, Option.bind_eq_some_iff, mapM_eq_some_iff] at h
  obtain ⟨items, sequence, read⟩ := h
  simp only [Content.items, sequence, Option.getD_some]
  exact read.imp fun _ _ => means_of_decodeWithin?

end Content

/-- What is known of a field once a part is read from it, whatever the depth. -/
def Expr.Part.Stands : Expr.Part → Content → Prop
  | expr e, content => content.Means Kind.ofContent? e
  | text s, content => content.asText? = some s
  | exprs es, content => List.Forall₂ (Content.Means Kind.ofContent?) content.items es
  | texts ss, content => content.items.length = ss.length
  | literal _, _ => True

theorem Expr.Part.ReadFrom.stands {depth : Nat} {part : Expr.Part} {content : Content}
    (read : part.ReadFrom (Expr.decodeWithin? depth) content) : part.Stands content := by
  cases part with
  | expr e => exact Content.means_of_decodeWithin? read
  | text s => exact read
  | exprs es => exact Content.means_items read
  | texts ss =>
    simp only [ReadFrom, Expr.textsOf?, Option.bind_eq_bind, Option.bind_eq_some_iff,
      mapM_eq_some_iff] at read
    obtain ⟨items, sequence, read⟩ := read
    simpa only [Stands, Content.items, sequence, Option.getD_some] using read.length_eq
  | literal p => trivial

namespace Expr

open Content

variable {depth : Nat} {kind : Kind} {fields : List Content} {e : Expr}

theorem stands_of_build? (built : build? (decodeWithin? depth) kind fields = some e) :
    e.kind = kind ∧ List.Forall₂ Part.Stands e.parts fields :=
  (build?_eq_some_iff.mp built).imp_right fun read => read.imp fun _ _ => Part.ReadFrom.stands

/-- What stands beneath a node stands for the expressions beneath its expression. -/
theorem means_beneath (stands : List.Forall₂ Part.Stands e.parts fields) :
    List.Forall₂ (Means Kind.ofContent?) (beneath e.kind fields) e.children := by
  cases e
  all_goals
    repeat rcases stands with _ | ⟨_, stands⟩
    simp only [Part.Stands] at *
    simp only [Expr.kind, beneath, children, parts, Part.children, List.flatMap_cons,
      List.flatMap_nil, List.append_nil, List.nil_append, List.cons_append, List.forall₂_cons,
      List.Forall₂.nil, and_self, *]
  case pipe => exact ⟨trivial, List.rel_append ‹_› ‹_›⟩

theorem coherent_iff_fieldsAgree (stands : List.Forall₂ Part.Stands e.parts fields) :
    e.Coherent ↔ FieldsAgree e.kind fields := by
  cases e with
  | pipe input n args all =>
    obtain _ | ⟨input', _ | ⟨_, _ | ⟨args', _ | ⟨all', _ | _⟩⟩⟩⟩ := stands
    simp only [Part.Stands] at input' args' all'
    have written := List.Forall₂.cons input' args'
    refine ⟨?_, fun ⟨es, all'', written'⟩ => ?_⟩
    · rintro rfl
      exact ⟨_, all', written⟩
    · exact (Means.unique_list all' all'').trans (Means.unique_list written' written)
  | negate operator operand =>
    obtain _ | ⟨operator', _ | ⟨_, _ | _⟩⟩ := stands
    simp only [Part.Stands] at operator'
    simp only [Coherent, Expr.kind, FieldsAgree, operator', Option.some.injEq]
  | object keys values =>
    obtain _ | ⟨keys', _ | ⟨values', _ | _⟩⟩ := stands
    simp only [Part.Stands] at keys' values'
    simp only [Coherent, Expr.kind, FieldsAgree, keys', values'.length_eq]
  | _ => simp only [Coherent, Expr.kind, FieldsAgree]

theorem wellFormed_iff_agrees_list {contents : List Content} {es : List Expr}
    (each : ∀ e ∈ es, ∀ content : Content, content.Means Kind.ofContent? e →
      (e.WellFormed ↔ content.Agrees Kind.ofContent?))
    (means : List.Forall₂ (Means Kind.ofContent?) contents es) :
    (∀ e ∈ es, e.WellFormed) ↔ ∀ c ∈ contents, c.Agrees Kind.ofContent? := by
  induction means with
  | nil => simp
  | cons head _ ih =>
    simp only [List.forall_mem_cons] at each ⊢
    exact and_congr (each.1 _ head) (ih each.2)

/-- **A tree is well formed exactly if its document agrees with itself.** -/
theorem wellFormed_iff_agrees {kind? : Content → Option Kind} {content : Content}
    (means : content.Means kind? e) : e.WellFormed ↔ content.Agrees kind? := by
  induction e using children_induction generalizing kind? content with
  | step e ih =>
    obtain ⟨depth, kind, fields, parts, built⟩ := means
    obtain ⟨rfl, stands⟩ := stands_of_build? built
    rw [wellFormed_iff, agrees_iff parts, coherent_iff_fieldsAgree stands]
    refine and_congr_right fun _ => ?_
    exact wellFormed_iff_agrees_list (fun c m _ => ih c m) (means_beneath stands)

/-! ### What is printed -/

mutual

/-- The tree that the smart constructors make of what is printed: a pipe evaluates the input and the
arguments that it is printed with. -/
def spelled : Expr → Expr
  | chain es => chain (spelledList es)
  | pipe input n args _ => piped input.spelled n (spelledList args)
  | assign target value => assign target.spelled value.spelled
  | conditional condition yes no => conditional condition.spelled yes.spelled no.spelled
  | name n => name n
  | member owner n => member owner.spelled n
  | keyed owner key => keyed owner.spelled key.spelled
  | callName n args => callName n (spelledList args)
  | callMember owner n args => callMember owner.spelled n (spelledList args)
  | call callee args => call callee.spelled (spelledList args)
  | binary operator left right => binary operator left.spelled right.spelled
  | negate operator operand => negate operator operand.spelled
  | primitive value => primitive value
  | string value => string value
  | array elements => array (spelledList elements)
  | object keys values => object keys (spelledList values)

/-- The trees of a list, each as it is printed. -/
def spelledList : List Expr → List Expr
  | [] => []
  | e :: rest => e.spelled :: spelledList rest

end

theorem spelledList_eq (es : List Expr) : spelledList es = es.map spelled := by
  induction es with
  | nil => rfl
  | cons e es ih => rw [spelledList, ih, List.map_cons]

@[simp] theorem isLoose_spelled (e : Expr) : e.spelled.isLoose = e.isLoose := by
  cases e <;> rfl

@[simp] theorem isLooseBranch_spelled (e : Expr) : e.spelled.isLooseBranch = e.isLooseBranch := by
  cases e <;> rfl

section
variable {es : List Expr} (each : ∀ e ∈ es, e.spelled.write = e.write)
include each

theorem writeList_spelled (separator : Char) :
    writeList separator (spelledList es) = writeList separator es := by
  induction es with
  | nil => rfl
  | cons e rest ih =>
    rw [List.forall_mem_cons] at each
    cases rest with
    | nil => exact each.1
    | cons next rest =>
      have ih := ih each.2
      simp only [spelledList, writeList, each.1] at ih ⊢
      rw [ih]

theorem writeArguments_spelled : writeArguments (spelledList es) = writeArguments es := by
  induction es with
  | nil => rfl
  | cons e rest ih =>
    rw [List.forall_mem_cons] at each
    simp only [spelledList, writeArguments, isLoose_spelled, each.1, ih each.2]

theorem writeEntries_spelled (first : Bool) (keys : List String) :
    writeEntries first keys (spelledList es) = writeEntries first keys es := by
  induction es generalizing first keys with
  | nil => rfl
  | cons e rest ih =>
    rw [List.forall_mem_cons] at each
    cases keys with
    | nil => rfl
    | cons key keys => simp only [spelledList, writeEntries, each.1, ih each.2]

end

/-- **A tree is printed as what it spells.** -/
theorem write_spelled (e : Expr) : e.spelled.write = e.write := by
  induction e using children_induction with
  | step e ih =>
    rw [forall_mem_children] at ih
    cases e
    all_goals
      simp only [parts, Part.children, List.forall_mem_cons, List.not_mem_nil, false_implies,
        implies_true, and_true] at ih
      -- what is known of the members of a list is used under its membership
      simp +contextual only [spelled, piped, write, isLoose_spelled, isLooseBranch_spelled,
        writeList_spelled, writeArguments_spelled, writeEntries_spelled, ih, implies_true]

/-- A well-formed tree is what it spells. -/
theorem WellFormed.spelled_eq {e : Expr} (formed : e.WellFormed) : e.spelled = e := by
  induction e using children_induction with
  | step e ih =>
    obtain ⟨own, below⟩ := (wellFormed_iff e).mp formed
    have ih : ∀ c ∈ e.children, c.spelled = c := fun c m => ih c m (below c m)
    rw [forall_mem_children] at ih
    have list {es : List Expr} (each : ∀ c ∈ es, c.spelled = c) : spelledList es = es := by
      rw [spelledList_eq, List.map_congr_left each, List.map_id']
    cases e
    all_goals
      simp only [parts, Part.children, List.forall_mem_cons, List.not_mem_nil, false_implies,
        implies_true, and_true] at ih
      simp +contextual only [spelled, piped, list, ih, implies_true]
    case pipe => rw [own]

/-! ### Decoded trees -/

/-- **Decoding compares no field with another.**  The tree of a JSON text or of MessagePack bytes is
well formed exactly if the document agrees with itself at every node.  Then it is the tree of what
is printed, so evaluation, assignment and printing speak about the same expression. -/
theorem decoded_wellFormed_iff (e : Expr) :
    (∀ text, ofJson? text = some e →
      (e.WellFormed ↔ ∃ document, Json.parse? text = some document ∧
        (Content.ofJson document).Agrees Kind.ofText?)) ∧
    (∀ data, ofMessagePack? data = some e →
      (e.WellFormed ↔ ∃ content, MessagePack.decode? data = some content ∧
        content.Agrees Kind.ofAny?)) ∧
    e.spelled.text = e.text ∧ (e.WellFormed → e.spelled = e) := by
  refine ⟨fun text read => ?_, fun data read => ?_, congrArg String.ofList e.write_spelled,
    WellFormed.spelled_eq⟩
  · simp only [ofJson?, Option.bind_eq_bind, Option.bind_eq_some_iff] at read
    obtain ⟨document, parsed, read⟩ := read
    simp only [wellFormed_iff_agrees (means_of_ofContent? read), parsed, Option.some.injEq,
      exists_eq_left']
  · simp only [ofMessagePack?, Option.bind_eq_bind, Option.bind_eq_some_iff] at read
    obtain ⟨content, decoded, read⟩ := read
    simp only [wellFormed_iff_agrees (means_of_ofContent? read), decoded, Option.some.injEq,
      exists_eq_left']

/-- `a | upper`, evaluated with `s` for its input, is read back from both of its forms. -/
theorem written_upper {s : String} (short : s.utf8ByteSize < 2 ^ 32) :
    let e := pipe (.name "a") "upper" [] [.name s]
    ofJson? e.toJson = some e ∧ ofMessagePack? e.toMessagePack = some e := by
  intro e
  have nesting : e.toContent.nesting = 3 := rfl
  have below : e.children = [.name "a", .name s] := rfl
  have size : e.Short := by
    refine .node ?_ ?_
    · simp only [e, parts, List.forall_mem_cons, Part.Short]
      exact ⟨trivial, by decide, by decide, by simp, by simp⟩
    · rw [below, List.forall_mem_cons, List.forall_mem_singleton]
      exact ⟨short_name (by decide), short_name short⟩
  have numbers (bits : UInt64) : ¬ e.Mentions bits := by
    rw [mentions_iff, below]
    simp [e, parts, not_mentions_name]
  have written := e.ofMessagePack?_append size (nesting ▸ by decide) []
  rw [List.append_nil] at written
  exact ⟨ofJson?_toJson (nesting ▸ by decide) fun bits h => (numbers bits h).elim, written⟩

/-- Documents that stand for `a | upper` and agree with themselves: it evaluates what it spells. -/
theorem agreeing_documents :
    (∃ document, Json.parse? "\x7b\"type\":\"ValueConverter\",\"expression\":\x7b\"type\":\"AccessScope\",\"name\":\"a\"\x7d,\"name\":\"upper\",\"args\":[],\"all_args\":[\x7b\"type\":\"AccessScope\",\"name\":\"a\"\x7d]\x7d" = some document ∧
      (Content.ofJson document).Agrees Kind.ofText?) ∧
    (∃ content, MessagePack.decode? (piped (.name "a") "upper" []).toMessagePack = some content ∧
      content.Agrees Kind.ofAny?) ∧
    (piped (.name "a") "upper" []).spelled = piped (.name "a") "upper" [] := by
  have stated := decoded_wellFormed_iff (piped (.name "a") "upper" [])
  have formed : (piped (.name "a") "upper" []).WellFormed := by
    simp [piped, WellFormed, AllWellFormed]
  obtain ⟨fromText, fromData⟩ := @written_upper "a" (by decide)
  refine ⟨(stated.1 _ ?_).mp formed, (stated.2.1 _ fromData).mp formed, stated.2.2.2 formed⟩
  exact (congrArg ofJson? (by decide +kernel)).trans fromText

/-- Documents with two different inputs are accepted, and their tree is not well formed: it is
printed as `a | upper` and evaluated as `b | upper`. -/
theorem decodes_ill_formed :
    let e := pipe (.name "a") "upper" [] [.name "b"]
    ofJson? "\x7b\"type\":\"ValueConverter\",\"expression\":\x7b\"type\":\"AccessScope\",\"name\":\"a\"\x7d,\"name\":\"upper\",\"args\":[],\"all_args\":[\x7b\"type\":\"AccessScope\",\"name\":\"b\"\x7d]\x7d" = some e ∧
      ofMessagePack? e.toMessagePack = some e ∧ ¬ e.WellFormed := by
  obtain ⟨fromText, fromData⟩ := @written_upper "b" (by decide)
  refine ⟨(congrArg ofJson? (by decide +kernel)).trans fromText, fromData, ?_⟩
  simp [WellFormed]

end Expr

end ViewBinding
