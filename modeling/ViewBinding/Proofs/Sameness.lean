import ViewBinding.Value

/-!
# Sameness — strict equality of values

Strict equality is symmetric and transitive.  It is not reflexive: a value that is not a number is
not the same as itself, and then it is the same as no value at all (`same_eq_false`).
-/

namespace ViewBinding

namespace Value

/-! ### Numbers -/

/-- Two numbers that compare as equal: both zeros do, and no value that is not a number does. -/
def Alike : Float.Model.UnpackedFloat → Float.Model.UnpackedFloat → Prop
  | .infinity s, .infinity s' => s = s'
  | .zero _, .zero _ => True
  | .finite s m e _, .finite s' m' e' _ => s = s' ∧ m = m' ∧ e = e'
  | _, _ => False

theorem compare_eq_iff (a b : Float.Model.UnpackedFloat) :
    a.compare b = some .eq ↔ Alike a b := by
  cases a with
  | infinity s =>
    cases b with
    | infinity s' =>
      cases s with
      | positive =>
        cases s' with
        | positive => exact ⟨fun _ => rfl, fun _ => rfl⟩
        | negative => exact ⟨(fun e => by cases e), (fun same => by cases same)⟩
      | negative =>
        cases s' with
        | positive => exact ⟨(fun e => by cases e), (fun same => by cases same)⟩
        | negative => exact ⟨fun _ => rfl, fun _ => rfl⟩
    | _ => cases s <;> exact ⟨(fun e => by cases e), False.elim⟩
  | notANumber => exact ⟨(fun e => by cases e), False.elim⟩
  | zero s =>
    cases b with
    | infinity s' => cases s' <;> exact ⟨(fun e => by cases e), False.elim⟩
    | finite s' => cases s' <;> exact ⟨(fun e => by cases e), False.elim⟩
    | notANumber => exact ⟨(fun e => by cases e), False.elim⟩
    | zero => exact ⟨fun _ => trivial, fun _ => rfl⟩
  | finite s m e p =>
    cases b with
    | infinity s' => cases s' <;> exact ⟨(fun e => by cases e), False.elim⟩
    | notANumber => exact ⟨(fun e => by cases e), False.elim⟩
    | zero s' => cases s <;> exact ⟨(fun e => by cases e), False.elim⟩
    | finite s' m' e' p' =>
      have same : (compare e e').then (compare m m') = .eq ↔ e = e' ∧ m = m' := by
        rw [Ordering.then_eq_eq, Std.LawfulEqCmp.compare_eq_iff_eq,
          Std.LawfulEqCmp.compare_eq_iff_eq]
      cases s with
      | positive =>
        cases s' with
        | positive =>
          change some ((compare e e').then (compare m m')) = some .eq ↔ _
          rw [Option.some.injEq, same]
          exact ⟨fun eq => ⟨rfl, eq.2, eq.1⟩, fun alike => ⟨alike.2.2, alike.2.1⟩⟩
        | negative => exact ⟨(fun e => by cases e), (fun alike => by cases alike.1)⟩
      | negative =>
        cases s' with
        | positive => exact ⟨(fun e => by cases e), (fun alike => by cases alike.1)⟩
        | negative =>
          change some ((compare e e').then (compare m m')).swap = some .eq ↔ _
          rw [Option.some.injEq, Ordering.swap_eq_eq, same]
          exact ⟨fun eq => ⟨rfl, eq.2, eq.1⟩, fun alike => ⟨alike.2.2, alike.2.1⟩⟩

theorem Alike.symm {a b : Float.Model.UnpackedFloat} (h : Alike a b) : Alike b a := by
  cases a with
  | infinity => cases b with
    | infinity => exact Eq.symm h
    | _ => exact h
  | notANumber => exact h.elim
  | zero => cases b with
    | zero => trivial
    | _ => exact h
  | finite => cases b with
    | finite => exact ⟨h.1.symm, h.2.1.symm, h.2.2.symm⟩
    | _ => exact h

theorem Alike.trans {a b c : Float.Model.UnpackedFloat} (h : Alike a b) (h' : Alike b c) :
    Alike a c := by
  cases b with
  | infinity => cases a with
    | infinity => cases c with
      | infinity => exact Eq.trans h h'
      | _ => exact h'
    | _ => exact h.elim
  | notANumber => exact h'.elim
  | zero => cases a with
    | zero => cases c with
      | zero => trivial
      | _ => exact h'
    | _ => exact h.elim
  | finite => cases a with
    | finite => cases c with
      | finite => exact ⟨h.1.trans h'.1, h.2.1.trans h'.2.1, h.2.2.trans h'.2.2⟩
      | _ => exact h'
    | _ => exact h.elim

theorem beq_iff (x y : Float) : (x == y) = true ↔ Alike x.toModel.unpack y.toModel.unpack := by
  change (x.toModel.unpack.compare y.toModel.unpack == some .eq) = true ↔ _
  rw [beq_iff_eq, compare_eq_iff]

/-! ### Values -/

variable {a b c : Value}

theorem same_symm (h : a.same b = true) : b.same a = true := by
  cases a <;> cases b <;> simp_all [same]
  exact (beq_iff _ _).2 ((beq_iff _ _).1 h).symm

theorem same_comm (a b : Value) : a.same b = b.same a := by
  rw [Bool.eq_iff_iff]
  exact ⟨same_symm, same_symm⟩

theorem same_trans (h : a.same b = true) (h' : b.same c = true) : a.same c = true := by
  cases a <;> cases b <;> cases c <;> simp_all [same]
  exact (beq_iff _ _).2 (((beq_iff _ _).1 h).trans ((beq_iff _ _).1 h'))

/-- What is the same as something is the same as itself. -/
theorem same_self (h : a.same b = true) : a.same a = true := same_trans h (same_symm h)

/-- A value that is not the same as itself is the same as nothing. -/
theorem same_eq_false (h : a.same a = false) (b : Value) : a.same b = false := by
  cases e : a.same b with
  | false => rfl
  | true => rw [same_self e] at h; cases h

/-- A value that is not the same as itself, which only a number can be. -/
def IsNaN (v : Value) : Prop := v.same v = false

instance (v : Value) : Decidable v.IsNaN := inferInstanceAs (Decidable (_ = _))

/-- Two values are equal, where those that are not the same as themselves are equal too. -/
def Agrees (a b : Value) : Prop := a.same b = true ∨ a.IsNaN ∧ b.IsNaN

theorem agrees_self (v : Value) : v.Agrees v := by
  cases e : v.same v with
  | true => exact .inl e
  | false => exact .inr ⟨e, e⟩

theorem Agrees.symm (h : a.Agrees b) : b.Agrees a := h.imp same_symm And.symm

theorem Agrees.trans (h : a.Agrees b) (h' : b.Agrees c) : a.Agrees c := by
  rcases h with h | ⟨nan, nan'⟩ <;> rcases h' with h' | ⟨nan₁, nan₂⟩
  · exact .inl (same_trans h h')
  · exact absurd (same_self (same_symm h)) (by simp [show b.same b = false from nan₁])
  · exact absurd (same_self h') (by simp [show b.same b = false from nan'])
  · exact .inr ⟨nan, nan₂⟩

end Value

end ViewBinding
