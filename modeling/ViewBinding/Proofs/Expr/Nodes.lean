import ViewBinding.Proofs.Expr.Parts

/-!
# Expr.Nodes — a node is read back

Decoding finds the kind of a node and puts its fields in order, whatever order the document has them
in.  For a node as it is written it finds what was written (`nodeParts?_node`); so content that
comes from an expression decodes to it (`ofContent?_toContent`).
-/

namespace ViewBinding

namespace Content

variable {names : List String} {fields : List Content}

/-! ### Fields under their names -/

/-- A name occurs at its own place. -/
theorem findIdx?_getElem (distinct : names.Nodup) {i : Nat} (h : i < names.length) :
    names.findIdx? (· = names[i]) = some i := by
  rw [List.findIdx?_eq_some_iff_getElem]
  refine ⟨h, by simp, fun j before => ?_⟩
  have differ : names[j] ≠ names[i] := List.pairwise_iff_getElem.mp distinct j i _ h before
  simpa using differ

/-- Each field under its place, the places counted from `k`. -/
def placed (k : Nat) (fields : List Content) : List (Option Nat × Content) :=
  ((List.range' k fields.length).map some).zip fields

theorem entryAt?_placed (k i : Nat) (fields : List Content) :
    entryAt? (k + i) (placed k fields) = fields[i]? := by
  induction fields generalizing k i with
  | nil => rfl
  | cons field fields ih =>
    have split : placed k (field :: fields) = (some k, field) :: placed (k + 1) fields := by
      simp [placed, List.range'_succ]
    cases i with
    | zero =>
      -- no later field has a place as low as this one
      have later : (placed (k + 1) fields).filter (·.1 == some k) = [] := by
        refine List.filter_eq_nil_iff.mpr fun entry m => ?_
        have place := (List.of_mem_zip (a := entry.1) (b := entry.2) m).1
        simp only [List.mem_map, List.mem_range'_1] at place
        obtain ⟨place, low, eq⟩ := place
        simp only [← eq, beq_iff_eq, Option.some.injEq]
        omega
      simp [entryAt?, split, later]
    | succ i =>
      rw [List.getElem?_cons_succ, ← ih (k + 1) i, Nat.add_right_comm, Nat.add_assoc k i 1]
      simp [entryAt?, split]

/-- **Fields under their names**, in their order, are found. -/
theorem fieldValues?_zip (distinct : names.Nodup) (same : fields.length = names.length) :
    fieldValues? names (.mapping ((names.map text).zip fields)) = some fields := by
  have places : ((names.map text).zip fields).mapM
      (fun entry => (place? names entry.1).map (·, entry.2)) = some (placed 0 fields) := by
    rw [mapM_eq_some_iff, List.forall₂_iff_get]
    refine ⟨by simp [placed, same], fun i h h' => ?_⟩
    simp [placed, place?, findIdx?_getElem distinct]
  have values : (List.range names.length).mapM (entryAt? · (placed 0 fields)) = some fields := by
    rw [mapM_eq_some_iff, List.forall₂_iff_get]
    refine ⟨by simp [same], fun i h h' => ?_⟩
    have found := entryAt?_placed 0 i fields
    rw [Nat.zero_add] at found
    simpa [List.getElem?_eq_getElem h'] using found
  simp only [fieldValues?, places, Option.bind_eq_bind, Option.bind_some, values]

end Content

/-! ### Nodes -/

namespace Kind

theorem nodup_fields (kind : Kind) : kind.fields.Nodup := by
  cases kind <;> decide

theorem type_notMem_fields (kind : Kind) : "type" ∉ kind.fields := by
  cases kind <;> decide

theorem ofText?_label (kind : Kind) : ofText? (.text kind.label) = some kind := by
  cases kind <;> decide

theorem ofContent?_label (kind : Kind) : ofContent? (.text kind.label) = some kind := by
  cases kind <;> decide

theorem ofAny?_label (kind : Kind) : ofAny? (.text kind.label) = some kind :=
  ofContent?_label kind

end Kind

namespace Expr

/-- The entries of a written node. -/
def entries (kind : Kind) (fields : List Content) : List (Content × Content) :=
  (.text "type", .text kind.label) :: (kind.fields.map Content.text).zip fields

/-- The keys of a written node are its names. -/
theorem key_of_mem_entries {kind : Kind} {fields : List Content} {entry : Content × Content}
    (m : entry ∈ entries kind fields) : ∃ name ∈ "type" :: kind.fields, entry.1 = .text name := by
  obtain _ | ⟨_, m⟩ := m
  · exact ⟨_, .head _, rfl⟩
  · obtain ⟨name, mem, eq⟩ := List.mem_map.mp (List.of_mem_zip (a := entry.1) m).1
    exact ⟨name, .tail _ mem, eq.symm⟩

/-- The values of a written node are its kind and its fields. -/
theorem forall_mem_entries_iff {kind : Kind} {fields : List Content}
    (same : fields.length = kind.fields.length) {P : Content → Prop} :
    (∀ entry ∈ entries kind fields, P entry.2) ↔
      P (.text kind.label) ∧ ∀ field ∈ fields, P field := by
  have values : ((kind.fields.map Content.text).zip fields).map Prod.snd = fields :=
    List.map_snd_zip (by simp [same])
  conv => rhs; rw [← values]
  simp only [entries, List.forall_mem_cons, List.forall_mem_map]

/-- The reader of kinds knows each by its name. -/
def Names (kind? : Content → Option Kind) : Prop :=
  ∀ kind : Kind, kind? (.text kind.label) = some kind

/-- **A written node** has its kind and its fields. -/
theorem nodeParts?_node {kind? : Content → Option Kind} (names : Names kind?) {kind : Kind}
    {fields : List Content} (same : fields.length = kind.fields.length) :
    nodeParts? kind? (node kind fields) = some (kind, fields) := by
  have others : ∀ entry ∈ (kind.fields.map Content.text).zip fields,
      Content.isName "type" entry.1 = false := by
    rintro ⟨key, value⟩ m
    obtain ⟨name, mem, rfl⟩ := List.mem_map.mp (List.of_mem_zip m).1
    simp only [Content.isName, beq_eq_false_iff_ne]
    rintro rfl
    exact kind.type_notMem_fields mem
  have tags : ((kind.fields.map Content.text).zip fields).filter
      (fun entry => Content.isName "type" entry.1) = [] :=
    List.filter_eq_nil_iff.mpr fun entry m => by simp [others entry m]
  have rest : ((kind.fields.map Content.text).zip fields).filter
      (fun entry => !Content.isName "type" entry.1) = (kind.fields.map Content.text).zip fields :=
    List.filter_eq_self.mpr fun entry m => by simp [others entry m]
  have tag : Content.isName "type" (.text "type") = true := by decide
  simp [nodeParts?, node, List.partition_eq_filter_filter, tag, names kind, Function.comp_def,
    tags, rest, Content.fieldValues?_zip kind.nodup_fields same]

end Expr

/-! ### Decoding what was encoded -/

namespace Content

theorem depth_le_itemsDepth {items : List Content} {item : Content} (m : item ∈ items) :
    item.depth ≤ itemsDepth items := by
  induction items with
  | nil => cases m
  | cons head rest ih =>
    rw [itemsDepth]
    obtain _ | ⟨_, m⟩ := m
    · exact Nat.le_max_left ..
    · exact Nat.le_trans (ih m) (Nat.le_max_right ..)

theorem depth_le_entriesDepth {entries : List (Content × Content)} {entry : Content × Content}
    (m : entry ∈ entries) : entry.2.depth ≤ entriesDepth entries := by
  induction entries with
  | nil => cases m
  | cons head rest ih =>
    rw [entriesDepth]
    obtain _ | ⟨_, m⟩ := m
    · exact Nat.le_trans (Nat.le_max_right ..) (Nat.le_max_left ..)
    · exact Nat.le_trans (ih m) (Nat.le_max_right ..)

end Content

theorem Primitive.ofContent?_toContent (p : Primitive) : ofContent? p.toContent = some p := by
  cases p with
  | null => decide
  | undefined => decide
  | bool b => cases b <;> decide
  | number bits =>
    have third : (Content.text "number").place? ["null", "undefined", "bool", "number"] =
      some (some 3) := by decide
    simp [toContent, ofContent?, ofPair?, third, Content.asNumber?]

namespace Expr

theorem toContents_eq (es : List Expr) : toContents es = es.map toContent := by
  induction es with
  | nil => rfl
  | cons e es ih => rw [toContents, ih, List.map_cons]

end Expr

/-- Each part is read from its content. -/
theorem Expr.Part.readFrom_toContent {sub : Content → Option Expr} {part : Expr.Part}
    (each : ∀ e ∈ part.children, sub e.toContent = some e) : part.ReadFrom sub part.toContent := by
  cases part with
  | expr e => exact each e (.head _)
  | text s => rfl
  | exprs es =>
    simp only [ReadFrom, toContent, Expr.listOf?, Content.asSequence?, Option.bind_eq_bind,
      Option.bind_some, mapM_eq_some_iff, Expr.toContents_eq, List.forall₂_map_left_iff,
      List.forall₂_same]
    exact each
  | texts ss =>
    simp only [ReadFrom, toContent, Expr.textsOf?, Content.asSequence?, Option.bind_eq_bind,
      Option.bind_some, mapM_eq_some_iff, List.forall₂_map_left_iff, List.forall₂_same]
    exact fun _ _ => rfl
  | literal p => exact p.ofContent?_toContent

theorem Expr.Part.depth_le_of_mem_children {part : Expr.Part} {e : Expr} (m : e ∈ part.children) :
    e.toContent.depth ≤ part.toContent.depth := by
  cases part with
  | expr e' => cases List.mem_singleton.mp m; exact Nat.le_refl _
  | exprs es =>
    rw [toContent, Expr.toContents_eq]
    exact Nat.le_succ_of_le (Content.depth_le_itemsDepth (List.mem_map_of_mem m))
  | text | texts | literal => cases m

namespace Expr

theorem length_map_parts (e : Expr) :
    (e.parts.map Part.toContent).length = e.kind.fields.length := by
  rw [List.length_map, length_parts]

/-- A part is less deep than its expression. -/
theorem depth_part_lt {e : Expr} {part : Part} (m : part ∈ e.parts) :
    part.toContent.depth < e.toContent.depth := by
  have each := (forall_mem_entries_iff e.length_map_parts
    (P := (·.depth < e.toContent.depth))).mp fun entry m => by
      rw [toContent_eq_node]
      exact Nat.lt_succ_of_le (Content.depth_le_entriesDepth m)
  exact each.2 _ (List.mem_map_of_mem m)

theorem depth_pos (e : Expr) : 0 < e.toContent.depth := by
  rw [toContent_eq_node]
  exact Nat.succ_pos _

theorem nodeParts?_toContent {kind? : Content → Option Kind} (names : Names kind?) (e : Expr) :
    nodeParts? kind? e.toContent = some (e.kind, e.parts.map Part.toContent) := by
  rw [toContent_eq_node, nodeParts?_node names e.length_map_parts]

theorem decodeWithin?_toContent {depth : Nat} {e : Expr}
    (built : build? (decodeWithin? depth) e.kind (e.parts.map Part.toContent) = some e) :
    decodeWithin? (depth + 1) e.toContent = some e := by
  simp only [decodeWithin?, nodeParts?_toContent Kind.ofContent?_label, Option.bind_eq_bind,
    Option.bind_some, built]

/-- The parts of an expression, written, build it again. -/
theorem build?_toContent {depth : Nat} {e : Expr} (enough : e.toContent.depth ≤ depth + 1) :
    build? (decodeWithin? depth) e.kind (e.parts.map Part.toContent) = some e := by
  induction e using children_induction generalizing depth with
  | step e ih =>
    refine build?_eq_some_iff.mpr ⟨rfl, List.forall₂_map_right_iff.mpr (List.forall₂_same.mpr ?_)⟩
    intro part m
    refine Part.readFrom_toContent fun c below => ?_
    have less := Nat.lt_of_le_of_lt (Part.depth_le_of_mem_children below) (depth_part_lt m)
    obtain _ | depth := depth
    · have := depth_pos c
      omega
    · exact decodeWithin?_toContent (ih c (mem_children.mpr ⟨part, m, below⟩) (by omega))

/-- **Decoding undoes encoding**, as far as content goes. -/
theorem ofContent?_toContent {kind? : Content → Option Kind} (names : Names kind?) (e : Expr) :
    ofContent? kind? e.toContent = some e := by
  simp only [ofContent?, nodeParts?_toContent names, Option.bind_eq_bind, Option.bind_some]
  exact build?_toContent (Nat.le_succ _)

end Expr

end ViewBinding
