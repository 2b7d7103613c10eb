import ViewBinding.Arrays
import ViewBinding.Operators
import ViewBinding.Proofs.Coercion.Circular
import ViewBinding.Proofs.Ends

/-!
# Coercion — which coercions come to an end

Nothing keeps an array or an object out of itself, and no coercion minds where it has been.  So the
text of an array that contains itself is not finished in any number of steps, and neither is what
needs that text.

* `coercions_end_iff`: texts, documents, loose equality, `+` and `<` come to an end exactly where
  what they look into does not contain itself.  Loose equality looks into an array beside a text, a
  number or a boolean; `+` looks into both operands unless one is nullish; `<` looks into both
  unless one is nullish or a number.
* `array_in_itself_goes_round`: an array that was pushed onto itself.
-/

namespace ViewBinding

variable {η : Type} {w : World η}

/-- Whether a value is a text, a number or a boolean. -/
def Value.isScalar : Value → Bool
  | string _ | number _ | bool _ => true
  | _ => false

namespace World

/-- Only the texts of arrays are circular.  An object has a text whatever it contains. -/
theorem not_circular_textParts {v : Value} (h : ∀ a, v ≠ .array a) :
    ¬ Circular w.textParts v := by
  have last : ∀ t, ¬ Finds w.textParts v t := fun t ⟨us, is, _⟩ => by
    cases v with
    | array a => exact h a rfl
    | _ => cases is
  rintro ⟨u, reached, round⟩
  obtain rfl | ⟨t, found, -⟩ := reached.cases_head
  · obtain ⟨t, found, -⟩ := Relation.TransGen.head'_iff.1 round
    exact last t found
  · exact last t found

theorem not_circular_of_isNumeric {v : Value} (h : v.isNumeric) : ¬ Circular w.textParts v :=
  not_circular_textParts fun a is => by rw [is] at h; cases h

/-- **Loose equality looks into an array beside a text, a number or a boolean**, and into nothing
else. -/
theorem isSome_looseSame?_iff (w : World η) (a b : Value) :
    (w.looseSame? a b).isSome ↔
      ¬ (Circular w.textParts a ∧ b.isScalar) ∧ ¬ (a.isScalar ∧ Circular w.textParts b) := by
  have shown (v : Value) := w.isSome_display?_iff v
  cases a <;> cases b <;>
    simp [looseSame?, booleanAsNumber, Value.isNullish, Value.isContainer, Value.isPlain,
      Value.isScalar, shown, not_circular_textParts]

end World

namespace Run

/-- The text of a value is computed exactly if it comes to an end. -/
theorem ends_display {v : Value} {post : String → World η → Prop} :
    (display v).Ends False w post ↔ ∃ text, w.display? v = some text ∧ post text w := by
  simp only [display, Ends]
  cases w.display? v <;> simp [ofOption, cutOff, pure]

theorem display_eq_cutOff {v : Value} (h : w.display? v = none) :
    display v w = (.exhausted, w) := by
  simp [display, h, ofOption, cutOff]

theorem bind_cutOff {α β : Type} {x : Run η α} {f : α → Run η β} {w' : World η}
    (h : x w = (.exhausted, w')) : (x >>= f) w = (.exhausted, w') := by
  change Run.bind x f w = _
  rw [Run.bind, h]

/-- Two texts are computed exactly if both come to an end. -/
theorem ends_displays {α : Type} {left right : Value} {f : String → String → α} :
    ((display left).Ends False w fun a w' => (display right).Ends False w' fun b w' =>
        (pure (f a b) : Run η α).Ends False w' fun _ w' => w' = w) ↔
      ¬ Circular w.textParts left ∧ ¬ Circular w.textParts right := by
  simp only [ends_display, ends_pure, ← World.isSome_display?_iff, Option.isSome_iff_exists]
  constructor
  · rintro ⟨a, l, b, r, -⟩
    exact ⟨⟨a, l⟩, ⟨b, r⟩⟩
  · rintro ⟨⟨a, l⟩, ⟨b, r⟩⟩
    exact ⟨a, l, b, r, trivial⟩

theorem ends_binary {text : String} {operator : Operator} {left right : Value}
    (named : Operator.ofText? text = some operator) :
    (binary text left right).Ends False w (fun _ w' => w' = w) ↔
      left.isNullish ∨ right.isNullish ∨
        (operate operator left right).Ends False w fun _ w' => w' = w := by
  unfold binary
  by_cases nullish : left.isNullish || right.isNullish
  · rw [if_pos nullish, ends_pure]
    rw [Bool.or_eq_true, ← or_assoc] at *
    simp [nullish]
  · rw [if_neg nullish, named]
    simp_all

theorem ends_add {left right : Value} :
    (operate .add left right).Ends False w (fun _ w' => w' = w) ↔
      ¬ Circular w.textParts left ∧ ¬ Circular w.textParts right := by
  simp only [operate]
  split
  next numeric =>
    rw [Bool.and_eq_true] at numeric
    simp [ends_pure, World.not_circular_of_isNumeric numeric.1,
      World.not_circular_of_isNumeric numeric.2]
  · simp only [ends_bind]
    exact ends_displays

theorem ends_less {left right : Value} :
    (operate .less left right).Ends False w (fun _ w' => w' = w) ↔
      left.isNumeric ∨ right.isNumeric ∨
        ¬ Circular w.textParts left ∧ ¬ Circular w.textParts right := by
  simp only [operate, ends_bind, ends_pure]
  unfold compareValues?
  by_cases neither : !left.isNumeric && !right.isNumeric
  · rw [if_pos neither]
    simp only [ends_bind]
    rw [ends_displays]
    simp_all
  · rw [if_neg neither, ends_pure]
    cases l : left.isNumeric <;> simp_all

end Run

namespace World

/-- **Coercions come to an end exactly where they look into nothing that contains itself.** -/
theorem coercions_end_iff (w : World η) :
    (∀ v, ((∃ n, (w.displayWithin n v).isSome) ↔ ¬ Circular w.textParts v) ∧
      ((w.display? v).isSome ↔ ¬ Circular w.textParts v)) ∧
    (∀ v, ((∃ n, (w.toJsonWithin n v).isSome) ↔ ¬ Circular w.documentParts v) ∧
      ((w.toJson? v).isSome ↔ ¬ Circular w.documentParts v)) ∧
    ∀ left right,
      ((w.looseSame? left right).isSome ↔
        ¬ (Circular w.textParts left ∧ right.isScalar) ∧
          ¬ (left.isScalar ∧ Circular w.textParts right)) ∧
      ((Run.binary "+" left right).Ends False w (fun _ w' => w' = w) ↔
        left.isNullish ∨ right.isNullish ∨
          ¬ Circular w.textParts left ∧ ¬ Circular w.textParts right) ∧
      ((Run.binary "<" left right).Ends False w (fun _ w' => w' = w) ↔
        left.isNullish ∨ right.isNullish ∨ left.isNumeric ∨ right.isNumeric ∨
          ¬ Circular w.textParts left ∧ ¬ Circular w.textParts right) := by
  refine ⟨fun v => ⟨⟨?_, fun h => ⟨_, (w.isSome_display?_iff v).2 h⟩⟩, w.isSome_display?_iff v⟩,
    fun v => ⟨⟨?_, fun h => ⟨_, (w.isSome_toJson?_iff v).2 h⟩⟩, w.isSome_toJson?_iff v⟩,
    fun left right => ⟨w.isSome_looseSame?_iff left right, ?_, ?_⟩⟩
  · rintro ⟨n, some⟩
    exact ((w.isSome_displayWithin n v).1 some).not_circular
  · rintro ⟨n, some⟩
    exact ((w.isSome_toJsonWithin n v).1 some).not_circular
  · rw [Run.ends_binary (show Operator.ofText? "+" = some .add from rfl), Run.ends_add]
  · rw [Run.ends_binary (show Operator.ofText? "<" = some .less from rfl), Run.ends_less]

/-- A new world with an array of a text and itself. -/
def knotted : Ref .array × World Unit :=
  let (a, w) := (World.new .standard ()).newArray [.string "b"]
  (a, (w.pushItem a (.array a)).2)

theorem circular_knotted :
    Circular knotted.2.textParts (.array knotted.1) ∧
      Circular knotted.2.documentParts (.array knotted.1) := by
  have inside : Value.array knotted.1 ∈ knotted.2.items knotted.1 := by
    simp [knotted, items, pushItem, newArray, modifyArray]
  exact ⟨⟨_, .refl, .single ⟨_, rfl, inside⟩⟩, ⟨_, .refl, .single ⟨_, rfl, inside⟩⟩⟩

/-- **An array that was pushed onto itself** has no text and no document in any number of steps, and
to compare it with a text, or to append one to it, does not come to an end. -/
theorem array_in_itself_goes_round :
    (∀ n, knotted.2.displayWithin n (.array knotted.1) = none) ∧
    (∀ n, knotted.2.toJsonWithin n (.array knotted.1) = none) ∧
    knotted.2.looseSame? (.array knotted.1) (.string "c") = none ∧
    (Run.binary "+" (.array knotted.1) (.string "c") knotted.2).1 = .exhausted ∧
    (Run.binary "<" (.array knotted.1) (.string "c") knotted.2).1 = .exhausted := by
  have untold : ∀ n, knotted.2.displayWithin n (.array knotted.1) = none := fun n => by
    rw [← Option.not_isSome_iff_eq_none, isSome_displayWithin]
    exact fun ends => ends.not_circular circular_knotted.1
  have text : knotted.2.display? (.array knotted.1) = none := untold _
  refine ⟨untold, fun n => ?_, ?_, ?_, ?_⟩
  · rw [← Option.not_isSome_iff_eq_none, isSome_toJsonWithin]
    exact fun ends => ends.not_circular circular_knotted.2
  · simp [looseSame?, Value.isNullish, booleanAsNumber, Value.isContainer, Value.isPlain, text]
  · simp [Run.binary, Value.isNullish, Operator.ofText?, Run.operate, Value.isNumeric,
      Run.bind_cutOff (Run.display_eq_cutOff text)]
  · simp [Run.binary, Value.isNullish, Operator.ofText?, Run.operate, Value.isNumeric,
      Run.compareValues?, Run.bind_cutOff (Run.bind_cutOff (Run.display_eq_cutOff text))]

end World

end ViewBinding
