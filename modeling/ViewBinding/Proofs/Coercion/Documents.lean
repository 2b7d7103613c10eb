import Mathlib.Data.String.Basic
import ViewBinding.Proofs.Coercion.Circular
import ViewBinding.Proofs.Trap.Sight

/-!
# Coercion — the document of a value

`w.Transcribes v document` says without a depth what the document of a value is: `undefined`,
functions and numbers that are not finite become `null` wherever they stand, arrays keep their items
in place, and objects have one member for each of their properties, in ascending order.  A value has
at most one such document (`Transcribes.unique`), and it is the one that is computed
(`toJson?_eq_some_iff`).
-/

namespace ViewBinding

namespace Json

variable {α : Type} {name : String} {a : α} {p : String × α} {members : List (String × α)}

/-! ### The order of members -/

/-- Members in ascending order of their names, so that no name comes twice. -/
def Ascending (members : List (String × α)) : Prop := members.Pairwise fun p q => p.1 < q.1

theorem Ascending.nodup (h : Ascending members) : members.Nodup :=
  List.Pairwise.imp (fun less same => absurd (same ▸ less) (lt_irrefl _)) h

theorem Ascending.distinct (h : Ascending members) : Entries.Distinct members :=
  List.pairwise_map.2 (h.imp fun less same => absurd (same ▸ less) (lt_irrefl _))

/-- Members in ascending order are determined by which they are. -/
theorem Ascending.ext {members' : List (String × α)} (h : Ascending members)
    (h' : Ascending members') (same : ∀ p, p ∈ members ↔ p ∈ members') : members = members' :=
  List.Perm.eq_of_pairwise (fun _ _ _ _ less less' => absurd less' less.asymm) h h'
    ((List.perm_ext_iff_of_nodup h.nodup h'.nodup).2 same)

theorem mem_insertMember (h : Ascending members) :
    p ∈ insertMember name a members ↔ p = (name, a) ∨ p ∈ members ∧ p.1 ≠ name := by
  induction members with
  | nil => simp [insertMember]
  | cons q rest ih =>
    obtain ⟨first, later⟩ := List.pairwise_cons.1 h
    have above : name ≤ q.1 → p ∈ rest → p.1 ≠ name := fun le m => (le.trans_lt (first p m)).ne'
    have below := ih later
    rw [insertMember]
    split
    next same => grind
    next different =>
      split
      next less => grind
      next => grind

theorem ascending_insertMember (h : Ascending members) :
    Ascending (insertMember name a members) := by
  induction members with
  | nil => exact List.pairwise_singleton _ _
  | cons q rest ih =>
    obtain ⟨first, later⟩ := List.pairwise_cons.1 h
    rw [insertMember]
    split
    next same => exact List.pairwise_cons.2 ⟨fun p m => same ▸ first p m, later⟩
    next different =>
      split
      next less =>
        refine List.pairwise_cons.2 ⟨fun p m => ?_, h⟩
        rcases List.mem_cons.1 m with rfl | m
        · exact less
        · exact less.trans (first p m)
      next notLess =>
        refine List.pairwise_cons.2 ⟨fun p m => ?_, ih later⟩
        rcases (mem_insertMember later).1 m with rfl | ⟨m, -⟩
        · exact lt_of_le_of_ne (not_lt.1 notLess) (Ne.symm different)
        · exact first p m

/-- No name has two values. -/
def SingleValued (members : List (String × α)) : Prop :=
  ∀ p ∈ members, ∀ q ∈ members, p.1 = q.1 → p = q

theorem Ascending.singleValued (h : Ascending members) : SingleValued members := by
  rintro ⟨name, a⟩ m ⟨other, b⟩ m' (rfl : name = other)
  rw [h.distinct.eq_of_mem m m']

/-- Inserting members one after another. -/
theorem insertMembers {sorted : List (String × α)} (h : Ascending sorted)
    (single : SingleValued (members ++ sorted)) :
    Ascending (members.foldl (fun sorted (name, a) => insertMember name a sorted) sorted) ∧
      ∀ p, p ∈ members.foldl (fun sorted (name, a) => insertMember name a sorted) sorted ↔
        p ∈ members ∨ p ∈ sorted := by
  induction members generalizing sorted with
  | nil => exact ⟨h, fun p => by simp⟩
  | cons q rest ih =>
    have inserted (p : String × α) : p ∈ insertMember q.1 q.2 sorted ↔ p = q ∨ p ∈ sorted := by
      rw [mem_insertMember h]
      refine or_congr_right' fun other => and_iff_left_of_imp fun m same => other ?_
      exact single p (by simp [m]) q (by simp) same
    have among (p : String × α) (m : p ∈ rest ++ insertMember q.1 q.2 sorted) :
        p ∈ q :: rest ++ sorted := by
      simp only [List.mem_append, inserted, List.mem_cons] at m ⊢
      tauto
    obtain ⟨ascending, mem⟩ := ih (ascending_insertMember h) fun p m p' m' =>
      single p (among p m) p' (among p' m')
    refine ⟨ascending, fun p => (mem p).trans ?_⟩
    rw [inserted, List.mem_cons]
    tauto

theorem ascending_sortMembers (single : SingleValued members) :
    Ascending (sortMembers members) :=
  (insertMembers List.Pairwise.nil (by rwa [List.append_nil])).1

/-- Sorting keeps all members where no name has two values. -/
theorem mem_sortMembers (single : SingleValued members) :
    p ∈ sortMembers members ↔ p ∈ members := by
  rw [sortMembers, (insertMembers List.Pairwise.nil (by rwa [List.append_nil])).2 p]
  simp

theorem sortMembers_of_ascending (h : Ascending members) : sortMembers members = members := by
  exact (ascending_sortMembers h.singleValued).ext h fun p => mem_sortMembers h.singleValued

end Json

namespace World

variable {η : Type} {w : World η} {v : Value} {document document' : Json}

/-! ### What the document of a value is -/

/-- The document of a value. -/
inductive Transcribes (w : World η) : Value → Json → Prop
  | undefined : Transcribes w .undefined .null
  | null : Transcribes w .null .null
  | function (f : Ref .function) : Transcribes w (.function f) .null
  | bool (b : Bool) : Transcribes w (.bool b) (.bool b)
  | number (x : Float) : Transcribes w (.number x) (.ofNumber x)
  | string (s : String) : Transcribes w (.string s) (.string s)
  | array {a : Ref .array} {documents : List Json} (length : (w.items a).length = documents.length)
      (each : ∀ (i : Nat) (v : Value) (document : Json), (w.items a)[i]? = some v →
        documents[i]? = some document → Transcribes w v document) :
      Transcribes w (.array a) (.array documents)
  | object {o : Ref .object} {members : List (String × Json)} (ascending : Json.Ascending members)
      (all : ∀ name, w.has o name ↔ ∃ document, (name, document) ∈ members)
      (each : ∀ name document, (name, document) ∈ members →
        Transcribes w (w.get o name) document) : Transcribes w (.object o) (.object members)

/-- **A value has one document.** -/
theorem Transcribes.unique (h : w.Transcribes v document) (h' : w.Transcribes v document') :
    document = document' := by
  induction h generalizing document' with
  | array length each ih =>
    cases h' with
    | array length' each' =>
      refine congrArg Json.array (List.ext_getElem (length.symm.trans length') fun i at₁ at₂ => ?_)
      have item := List.getElem?_eq_getElem (length ▸ at₁)
      exact ih i _ _ item (List.getElem?_eq_getElem at₁)
        (each' i _ _ item (List.getElem?_eq_getElem at₂))
  | object ascending all each ih =>
    cases h' with
    | object ascending' all' each' =>
      refine congrArg Json.object
        (ascending.ext ascending' fun ⟨name, d⟩ => ⟨fun m => ?_, fun m => ?_⟩)
      · obtain ⟨d', m'⟩ := (all' name).1 ((all name).2 ⟨d, m⟩)
        rw [ih name d m (each' name d' m')]
        exact m'
      · obtain ⟨d', m'⟩ := (all name).1 ((all' name).2 ⟨d, m⟩)
        rw [← ih name d' m' (each' name d m)]
        exact m'
  | _ => cases h'; rfl

theorem transcribes_of_toJsonWithin {n : Nat} (h : w.toJsonWithin n v = some document) :
    w.Transcribes v document := by
  induction n generalizing v document with
  | zero =>
    cases v <;> cases h <;> constructor
  | succ n ih =>
    cases v with
    | array a =>
      simp only [toJsonWithin, Option.bind_eq_bind, Option.bind_eq_some_iff, Option.some.injEq,
        mapM_eq_some_iff] at h
      obtain ⟨documents, items, rfl⟩ := h
      refine .array items.length_eq fun i v document is is' => ih ?_
      obtain ⟨at₁, rfl⟩ := List.getElem?_eq_some_iff.1 is
      obtain ⟨at₂, rfl⟩ := List.getElem?_eq_some_iff.1 is'
      exact items.get at₁ at₂
    | object o =>
      simp only [toJsonWithin, Option.bind_eq_bind, Option.bind_eq_some_iff, Option.some.injEq] at h
      obtain ⟨members, items, rfl⟩ := h
      have found (name : String) (listed : name ∈ w.names o) :
          ∃ d, w.toJsonWithin n (w.get o name) = some d ∧ (name, d) ∈ members := by
        obtain ⟨member, m, made⟩ := exists_of_forall₂ (mapM_eq_some_iff.1 items) listed
        obtain ⟨d, is, made⟩ := Option.bind_eq_some_iff.1 made
        cases made
        exact ⟨d, is, m⟩
      have origin {name : String} {d : Json} (m : (name, d) ∈ members) :
          name ∈ w.names o ∧ w.toJsonWithin n (w.get o name) = some d := by
        obtain ⟨name, listed, made⟩ := exists_of_mem_mapM items m
        obtain ⟨d, is, made⟩ := Option.bind_eq_some_iff.1 made
        cases made
        exact ⟨listed, is⟩
      have single : Json.SingleValued members := by
        rintro ⟨name, d⟩ m ⟨other, d'⟩ m' (rfl : name = other)
        rw [Option.some.inj ((origin m).2.symm.trans (origin m').2)]
      refine .object (Json.ascending_sortMembers single) (fun name => ?_) fun name d m => ih ?_
      · simp only [has, ← mem_names_iff, Json.mem_sortMembers single]
        constructor
        · intro listed
          obtain ⟨d, -, m⟩ := found name listed
          exact ⟨d, m⟩
        · rintro ⟨d, m⟩
          exact (origin m).1
      · exact (origin ((Json.mem_sortMembers single).1 m)).2
    | _ => cases h; constructor

/-- A document is made of finitely many values. -/
theorem Transcribes.acc (h : w.Transcribes v document) :
    Acc (fun u v => Finds w.documentParts v u) v := by
  induction h with
  | @array a documents length each ih =>
    refine ⟨_, fun u ⟨us, is, m⟩ => ?_⟩
    cases is
    obtain ⟨i, here, rfl⟩ := List.mem_iff_getElem.1 m
    exact ih i _ _ (List.getElem?_eq_getElem here) (List.getElem?_eq_getElem (length ▸ here))
  | @object o members ascending all each ih =>
    refine ⟨_, fun u ⟨us, is, m⟩ => ?_⟩
    cases is
    obtain ⟨name, listed, rfl⟩ := List.mem_map.1 m
    obtain ⟨document, m'⟩ := (all name).1 (mem_names_iff.1 listed)
    exact ih name document m'
  | _ => exact ⟨_, fun u ⟨us, is, m⟩ => by cases is⟩

/-- **The document that is computed** is the document of the value. -/
theorem toJson?_eq_some_iff : w.toJson? v = some document ↔ w.Transcribes v document := by
  refine ⟨transcribes_of_toJsonWithin, fun h => ?_⟩
  obtain ⟨computed, is⟩ := Option.isSome_iff_exists.1
    ((w.isSome_toJson?_iff v).2 (not_circular_of_acc h.acc))
  rw [is, (transcribes_of_toJsonWithin is).unique h]

end World

end ViewBinding
