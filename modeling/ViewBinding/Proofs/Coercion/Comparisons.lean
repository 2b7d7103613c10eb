import Mathlib.Data.String.Basic
import ViewBinding.Proofs.Coercion.Ends
import ViewBinding.Proofs.Sameness

/-!
# Coercion — how the comparisons of two values go together

Loose equality and the order of two values coerce them each in its own way.  Beside a number, loose
equality takes an array as its text and that text as a number, while the order takes the array as a
number at once, which is not a number.  On all other pairs the two ways meet: where two values are
loosely equal, they have an order and it is `eq` (`order?_of_looseSame`).

* `order?_swap`, `looseSame?_comm`: what either of them says from the other side.
* `comparisons_agree`: the six comparisons of two values whose texts end.
* `array_equals_but_is_not_atMost`: an array that equals a number and is not at most that number.
-/

namespace ViewBinding

open Float.Model (UnpackedFloat)

/-! ### Numbers -/

/-- Two numbers have the opposite order from the other side. -/
theorem compare_swap (a b : UnpackedFloat) :
    b.compare a = (a.compare b).map Ordering.swap := by
  cases a with
  | notANumber => cases b <;> rfl
  | infinity s =>
    cases b with
    | infinity s' => cases s <;> cases s' <;> rfl
    | _ => cases s <;> rfl
  | zero s =>
    cases b with
    | infinity s' | finite s' => cases s' <;> rfl
    | _ => rfl
  | finite s m e p =>
    cases b with
    | notANumber => cases s <;> rfl
    | infinity s' => cases s' <;> rfl
    | zero s' => cases s <;> rfl
    | finite s' m' e' p' =>
      have swap : ((compare e e').then (compare m m')).swap =
          (compare e' e).then (compare m' m) := by
        rw [Ordering.swap_then, Int.compare_swap, Nat.compare_swap]
      cases s with
      | positive =>
        cases s' with
        | positive => exact congrArg some swap.symm
        | negative => rfl
      | negative =>
        cases s' with
        | positive => rfl
        | negative => exact congrArg (some ·.swap) swap.symm

theorem lt_iff_compare (x y : Float) :
    x < y ↔ x.toModel.unpack.compare y.toModel.unpack = some .lt := by
  change decide ((x.toModel.unpack.compare y.toModel.unpack == some .lt) = true) = true ↔ _
  rw [decide_eq_true_iff, beq_iff_eq]

theorem beq_iff_compare (x y : Float) :
    (x == y) = true ↔ x.toModel.unpack.compare y.toModel.unpack = some .eq := by
  rw [Value.beq_iff, Value.compare_eq_iff]

theorem compareNumbers?_eq (x y : Float) :
    compareNumbers? x y = x.toModel.unpack.compare y.toModel.unpack := by
  have gt : x > y ↔ x.toModel.unpack.compare y.toModel.unpack = some .gt := by
    rw [gt_iff_lt, lt_iff_compare, compare_swap]
    cases x.toModel.unpack.compare y.toModel.unpack with
    | none => simp
    | some order => cases order <;> simp
  simp only [compareNumbers?, lt_iff_compare, gt, beq_iff_compare]
  cases x.toModel.unpack.compare y.toModel.unpack with
  | none => rfl
  | some order => cases order <;> rfl

theorem compareNumbers?_swap (x y : Float) :
    compareNumbers? y x = (compareNumbers? x y).map Ordering.swap := by
  rw [compareNumbers?_eq, compareNumbers?_eq, compare_swap]

theorem compareNumbers?_eq_iff {x y : Float} : compareNumbers? x y = some .eq ↔ x == y := by
  rw [compareNumbers?_eq, beq_iff_compare]

/-- What is not a number has no order. -/
theorem compareNumbers?_notANumber (y : Float) : compareNumbers? (0.0 / 0.0) y = none := by
  have nan : (0.0 / 0.0 : Float).toModel.unpack = .notANumber := by rfl
  rw [compareNumbers?_eq, nan]
  rfl

theorem beq_comm (x y : Float) : (x == y) = (y == x) := Value.same_comm (.number x) (.number y)

/-! ### Texts -/

theorem compareTexts_eq (a b : String) : compareTexts a b = compare a b := rfl

theorem compareTexts_swap (a b : String) : compareTexts b a = (compareTexts a b).swap := by
  rw [compareTexts_eq, compareTexts_eq, Std.OrientedOrd.eq_swap]

theorem compareTexts_self (a : String) : compareTexts a a = .eq := by
  rw [compareTexts_eq, Std.ReflOrd.compare_self]

namespace Value

/-! ### Kinds of values -/

/-- Whether a value is an array. -/
def isArray : Value → Bool
  | array _ => true
  | _ => false

/-- One of two values is an array and the other a number or a boolean. -/
def arrayBesideNumber (a b : Value) : Bool :=
  a.isArray && b.isNumeric || a.isNumeric && b.isArray

end Value

namespace World

variable {η : Type} {w : World η} {a b : Value}

/-! ### Loose equality -/

theorem looseSamePrimitive_comm (a b : Value) :
    looseSamePrimitive a b = looseSamePrimitive b a := by
  cases a <;> cases b <;> simp only [looseSamePrimitive] <;>
    first | exact Value.same_comm _ _ | exact beq_comm _ _

/-- **Loose equality is symmetric.** -/
theorem looseSame?_comm (w : World η) (a b : Value) : w.looseSame? a b = w.looseSame? b a := by
  simp only [looseSame?, Bool.or_comm, Bool.and_comm, looseSamePrimitive_comm (booleanAsNumber a)]
  generalize booleanAsNumber a = a', booleanAsNumber b = b'
  cases a' <;> cases b' <;> simp [Value.isContainer, Value.isPlain, looseSamePrimitive_comm]

/-- What is the same is loosely equal. -/
theorem looseSame?_of_same (same : a.same b = true) : w.looseSame? a b = some true := by
  cases a <;> cases b <;> simp_all [looseSame?, Value.same, Value.isNullish, booleanAsNumber,
    Value.isContainer, Value.isPlain, looseSamePrimitive]
  cases ‹Bool› <;> decide

theorem display?_string (w : World η) (s : String) : w.display? (.string s) = some s := rfl

theorem display?_object (w : World η) (o : Ref .object) :
    w.display? (.object o) = some "[object Object]" := rfl

/-- Two loosely equal values neither of which is a number have the same text. -/
theorem display?_eq_of_looseSame (notNullish : a.isNullish = false)
    (notNumeric : a.isNumeric = false) (notNumeric' : b.isNumeric = false)
    (same : w.looseSame? a b = some true) : w.display? a = w.display? b := by
  cases a <;> cases b <;> simp_all [looseSame?, Value.same, Value.isNullish, Value.isNumeric,
    booleanAsNumber, Value.isContainer, Value.isPlain, looseSamePrimitive, display?_string]

theorem beq_notANumber (x : Float) : (x == 0.0 / 0.0) = false := by
  rw [beq_comm]
  exact Value.same_eq_false (a := .number (0.0 / 0.0)) (by decide) (.number x)

/-- Two loosely equal values one of which is a number are the same number, unless one is an array.
-/
theorem toNumber_beq_of_looseSame (numeric : a.isNumeric ∨ b.isNumeric)
    (apart : Value.arrayBesideNumber a b = false) (same : w.looseSame? a b = some true) :
    a.toNumber == b.toNumber := by
  -- The text of an object is no numeral.
  have object : (Value.string "[object Object]").toNumber = 0.0 / 0.0 := by decide
  cases a <;> cases b <;> simp_all [looseSame?, Value.same, Value.isNullish, Value.isNumeric,
    booleanAsNumber, Value.isContainer, Value.isPlain, looseSamePrimitive, Value.arrayBesideNumber,
    Value.isArray, display?_object, beq_notANumber, beq_comm (0.0 / 0.0)]
  all_goals exact same

theorem compareNumbers?_of_arrayBesideNumber (h : Value.arrayBesideNumber a b) :
    compareNumbers? a.toNumber b.toNumber = none := by
  have array (x : Ref .array) (y : Float) : compareNumbers? (Value.array x).toNumber y = none :=
    compareNumbers?_notANumber y
  cases a with
  | array x => exact array x _
  | number | bool =>
    cases b with
    | array y => rw [compareNumbers?_swap, array]; rfl
    | _ => cases h
  | _ => cases h

/-! ### The order of two values -/

/-- The order of two values, if their texts are finished where it needs them. -/
def order? (w : World η) (a b : Value) : Option (Option Ordering) :=
  if !a.isNumeric && !b.isNumeric then
    (w.display? a).bind fun x => (w.display? b).map fun y => some (compareTexts x y)
  else some (compareNumbers? a.toNumber b.toNumber)

theorem compareValues?_eq (w : World η) (a b : Value) :
    Run.compareValues? a b w = Run.ofOption (w.order? a b) w := by
  unfold Run.compareValues? order?
  split
  · change Run.bind (Run.display a) (fun x => Run.bind (Run.display b) _) w = _
    cases x : w.display? a with
    | none => simp [Run.bind, Run.display, x, Run.ofOption, Run.cutOff]
    | some => cases y : w.display? b <;>
        simp [Run.bind, Run.display, x, y, Run.ofOption, Run.cutOff, Run.pure]
  · rfl

/-- **Two values have the opposite order from the other side.** -/
theorem order?_swap (w : World η) (a b : Value) :
    w.order? b a = (w.order? a b).map (·.map Ordering.swap) := by
  unfold order?
  rw [Bool.and_comm]
  split
  next =>
    cases w.display? a with
    | none => cases w.display? b <;> rfl
    | some x => cases w.display? b with
      | none => rfl
      | some y => exact congrArg (some <| some ·) (compareTexts_swap x y)
  next => simp [compareNumbers?_swap a.toNumber]

theorem isSome_order? (ends : ¬ Circular w.textParts a) (ends' : ¬ Circular w.textParts b) :
    (w.order? a b).isSome := by
  rw [← isSome_display?_iff, Option.isSome_iff_exists] at ends ends'
  obtain ⟨x, is⟩ := ends
  obtain ⟨y, is'⟩ := ends'
  unfold order?
  split
  · simp [is, is']
  · rfl

/-- **Values that are loosely equal are neither less nor greater than each other**: they have the
same place in the order, unless one is an array and the other a number. -/
theorem order?_of_looseSame (notNullish : a.isNullish = false) (ends : ¬ Circular w.textParts a)
    (same : w.looseSame? a b = some true) :
    w.order? a b = some (if Value.arrayBesideNumber a b then none else some .eq) := by
  unfold order?
  split
  next texts =>
    have ⟨notNumeric, notNumeric'⟩ : a.isNumeric = false ∧ b.isNumeric = false := by
      simpa using texts
    obtain ⟨x, is⟩ := Option.isSome_iff_exists.1 ((w.isSome_display?_iff a).2 ends)
    have is' := display?_eq_of_looseSame notNullish notNumeric notNumeric' same
    have apart : Value.arrayBesideNumber a b = false := by
      simp [Value.arrayBesideNumber, notNumeric, notNumeric']
    simp [← is', is, apart, compareTexts_self]
  next numbers =>
    have numeric : a.isNumeric ∨ b.isNumeric := by
      cases e : a.isNumeric <;> simp_all
    cases apart : Value.arrayBesideNumber a b with
    | true => simp [compareNumbers?_of_arrayBesideNumber apart]
    | false =>
      simp [compareNumbers?_eq_iff.2 (toNumber_beq_of_looseSame numeric apart same)]

end World

/-! ### The six comparisons -/

/-- What the six comparisons of two values say. -/
structure Comparisons where
  equal : Bool
  different : Bool
  less : Bool
  greater : Bool
  atMost : Bool
  atLeast : Bool

namespace Comparisons

/-- What the comparisons say from the other side. -/
def swap (c : Comparisons) : Comparisons :=
  { c with less := c.greater, greater := c.less, atMost := c.atLeast, atLeast := c.atMost }

/-- What the comparisons say of two values that are loosely equal or not, and have an order or none.
-/
def of (equal : Bool) (order : Option Ordering) : Comparisons where
  equal := equal
  different := !equal
  less := order == some .lt
  greater := order == some .gt
  atMost := order == some .lt || order == some .eq
  atLeast := order == some .gt || order == some .eq

theorem of_swap (equal : Bool) (order : Option Ordering) :
    of equal (order.map Ordering.swap) = (of equal order).swap := by
  cases order with
  | none => rfl
  | some order => cases order <;> rfl

end Comparisons

namespace World

variable {η : Type} {w : World η} {a b : Value}

/-- The comparisons of two values, each worked out in this world, say this and leave the world as it
was. -/
structure Compares (w : World η) (a b : Value) (c : Comparisons) : Prop where
  equal : Run.binary "==" a b w = (.ok (.bool c.equal), w)
  different : Run.binary "!=" a b w = (.ok (.bool c.different), w)
  less : Run.binary "<" a b w = (.ok (.bool c.less), w)
  greater : Run.binary ">" a b w = (.ok (.bool c.greater), w)
  atMost : Run.binary "<=" a b w = (.ok (.bool c.atMost), w)
  atLeast : Run.binary ">=" a b w = (.ok (.bool c.atLeast), w)

theorem compares_of (notNullish : a.isNullish = false) (notNullish' : b.isNullish = false)
    {equal : Bool} {order : Option Ordering} (same : w.looseSame? a b = some equal)
    (is : w.order? a b = some order) : w.Compares a b (.of equal order) := by
  have loose : Run.looseSame a b w = (.ok equal, w) := by
    rw [Run.looseSame, same]; rfl
  have ordered : Run.compareValues? a b w = (.ok order, w) := by
    rw [compareValues?_eq, is]; rfl
  have operated {text : String} {operator : Operator}
      (named : Operator.ofText? text = some operator) :
      Run.binary text a b w = Run.operate operator a b w := by
    simp [Run.binary, notNullish, notNullish', named]
  exact
    { equal := (operated rfl).trans (Run.bind_eq_ok.2 ⟨_, _, loose, rfl⟩)
      different := (operated rfl).trans (Run.bind_eq_ok.2 ⟨_, _, loose, rfl⟩)
      less := (operated rfl).trans (Run.bind_eq_ok.2 ⟨_, _, ordered, rfl⟩)
      greater := (operated rfl).trans (Run.bind_eq_ok.2 ⟨_, _, ordered, rfl⟩)
      atMost := (operated rfl).trans (Run.bind_eq_ok.2 ⟨_, _, ordered, rfl⟩)
      atLeast := (operated rfl).trans (Run.bind_eq_ok.2 ⟨_, _, ordered, rfl⟩) }

/-- **How the comparisons go together.**  Two values that are not nullish and whose texts end are
compared in all six ways.  Loose equality is the same from either side and the contrary of
difference, the order is the opposite from the other side, and what is the same is loosely equal.
Values that are loosely equal are neither less nor greater than each other, and they are at most and
at least each other unless one is an array and the other a number or a boolean. -/
theorem comparisons_agree (notNullish : a.isNullish = false) (notNullish' : b.isNullish = false)
    (ends : ¬ Circular w.textParts a) (ends' : ¬ Circular w.textParts b) :
    ∃ c : Comparisons, w.Compares a b c ∧ w.Compares b a c.swap ∧ c.different = !c.equal ∧
      (a.same b → c.equal) ∧
      (c.equal → c.less = false ∧ c.greater = false ∧
        c.atMost = !Value.arrayBesideNumber a b ∧ c.atLeast = !Value.arrayBesideNumber a b) := by
  obtain ⟨equal, same⟩ := Option.isSome_iff_exists.1
    ((w.isSome_looseSame?_iff a b).2 ⟨fun ⟨round, _⟩ => ends round, fun ⟨_, round⟩ => ends' round⟩)
  obtain ⟨order, is⟩ := Option.isSome_iff_exists.1 (isSome_order? ends ends')
  refine ⟨.of equal order, compares_of notNullish notNullish' same is, ?_, rfl, ?_, ?_⟩
  · rw [← Comparisons.of_swap]
    refine compares_of notNullish' notNullish ?_ ?_
    · rw [looseSame?_comm, same]
    · rw [order?_swap, is]; rfl
  · intro strict
    have := looseSame?_of_same (w := w) strict
    rwa [same, Option.some.injEq] at this
  · rintro (rfl : equal = true)
    obtain rfl := Option.some.inj (is.symm.trans (order?_of_looseSame notNullish ends same))
    cases Value.arrayBesideNumber a b <;> decide

/-- A new world with one array. -/
def holding (items : List Value) : World Unit := ((World.new .standard ()).newArray items).2

/-- An array of a text and `null` equals its text, and each is at most the other. -/
theorem array_compares_with_its_text :
    ∃ c : Comparisons,
      (holding [.string "b", .null]).Compares (.array ⟨0⟩) (.string "b,") c ∧
      (holding [.string "b", .null]).Compares (.string "b,") (.array ⟨0⟩) c.swap ∧
      c.equal = true ∧ c.different = false ∧ c.less = false ∧ c.greater = false ∧
      c.atMost = true ∧ c.atLeast = true := by
  obtain ⟨c, forth, back, different, -, agree⟩ :=
    comparisons_agree (w := holding [.string "b", .null]) (a := .array ⟨0⟩) (b := .string "b,")
      rfl rfl ((isSome_display?_iff _ _).1 (by decide)) ((isSome_display?_iff _ _).1 (by decide))
  have equal : c.equal = true := by
    have computed : (Outcome.ok (Value.bool true), holding [.string "b", .null]) =
        (.ok (.bool c.equal), _) := forth.equal
    cases e : c.equal with
    | true => rfl
    | false => rw [e] at computed; cases computed
  obtain ⟨less, greater, atMost, atLeast⟩ := agree equal
  exact ⟨c, forth, back, equal, by rw [different, equal]; rfl, less, greater, atMost, atLeast⟩

/-- **An array that equals a number and is not at most that number**: the empty array and zero. -/
theorem array_equals_but_is_not_atMost :
    (Value.array ⟨0⟩).isNullish = false ∧ (Value.number 0).isNullish = false ∧
    ¬ Circular (holding []).textParts (.array ⟨0⟩) ∧
    ¬ Circular (holding []).textParts (.number 0) ∧
    (holding []).Compares (.array ⟨0⟩) (.number 0)
      { equal := true, different := false, less := false, greater := false,
        atMost := false, atLeast := false } := by
  refine ⟨rfl, rfl, ?_, ?_, ⟨rfl, rfl, rfl, rfl, rfl, rfl⟩⟩
  · exact (isSome_display?_iff _ _).1 (by decide)
  · exact (isSome_display?_iff _ _).1 (by decide)

end World

end ViewBinding
