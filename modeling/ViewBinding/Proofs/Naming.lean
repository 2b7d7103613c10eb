import ViewBinding.Machine
import ViewBinding.Proofs.Leaf.Unwatched
import ViewBinding.Proofs.Trap.Unseen

/-!
# Naming — a name that is assigned is found again

Which object owns a name is decided by what the levels of a scope have, and a write may add to that.
It adds to the owner only, which is where the search ended, or where it fell back to if no level has
the name.  So the owner stays the owner (`ownerOf_set_self`), whether levels share objects or not, and
nothing else is found in another place or with another value (`assigned_name_found`).

A plain property that holds a value strictly equal to the one written is not written: zero stays zero
when negative zero is assigned (`zero_keeps_its_sign`).
-/

namespace ViewBinding

namespace World

variable {η : Type} {w w' : World η} {scope : Scope} {o : Ref .object} {n : String}

/-- A property is plain: it is missing, or kept as a value. -/
def IsPlain (w : World η) (o : Ref .object) (n : String) : Prop :=
  ∀ slot, w.slot? o n = some slot → ∃ v, slot = .data v

/-- What a plain property holds after a write.  A value that is strictly equal to the one written
stays. -/
def heldAfter (w : World η) (o : Ref .object) (n : String) (v : Value) : Value :=
  match w.slot? o n with
  | some (.data old) => if old.same v then old else v
  | _ => v

/-! ### Writing a plain property -/

theorem setters_record (w : World η) (o : Ref .object) (change : ChangeRecord) :
    (w.record o change).setters = w.setters := by
  obtain same | ⟨queue, made⟩ := w.record_cases o change
  · rw [same]
  · rw [made]
    rfl

/-- **Writing a plain property** changes its slot, and no other. -/
theorem slot?_set (live : w.objects.contains o = true) (unfrozen : w.isFrozen o = false)
    (plain : w.IsPlain o n) (v : Value) (o' : Ref .object) (n' : String) :
    (w.set o n v).slot? o' n' =
      if o' = o ∧ n' = n then some (.data (w.heldAfter o n v)) else w.slot? o' n' := by
  have put : ∀ u change, ((w.putSlot o n (.data u)).record o change).slot? o' n' =
      if o' = o ∧ n' = n then some (.data u) else w.slot? o' n' := fun u change => by
    simp only [slot?_record, slot?_putSlot, live, and_true]
  unfold World.set heldAfter
  rw [if_neg (Bool.eq_false_iff.1 unfrozen)]
  cases slot : w.slot? o n with
  | none => exact put v _
  | some s =>
    obtain ⟨old, rfl⟩ := plain s slot
    dsimp only
    split
    · split
      next here => rw [here.1, here.2, slot]
      · rfl
    · exact put v _

theorem setters_set (plain : w.IsPlain o n) (v : Value) : (w.set o n v).setters = w.setters := by
  unfold World.set
  split
  · rfl
  · split
    next s slot =>
      obtain ⟨u, is⟩ := plain _ slot
      cases is
    · rfl
    · split
      · rfl
      · exact setters_record _ o _
    · exact setters_record _ o _

/-- What an object has after a plain property was written. -/
theorem has_set (live : w.objects.contains o = true) (unfrozen : w.isFrozen o = false)
    (plain : w.IsPlain o n) (v : Value) (o' : Ref .object) (n' : String) :
    (w.set o n v).has o' n' = (decide (o' = o ∧ n' = n) || w.has o' n') := by
  rw [has_eq_isSome, has_eq_isSome, slot?_set live unfrozen plain]
  split
  next here => simp [here]
  next elsewhere => simp [elsewhere]

/-! ### Who owns a name -/

/-- A level has a name if its locals or its context do. -/
theorem levelOwner?_eq_none_iff {level : Level} : w.levelOwner? n level = none ↔
    w.has level.locals n = false ∧ ∀ p, level.context = .object p → w.has p n = false := by
  unfold levelOwner?
  split
  next has => simp [has]
  next lacks =>
    rw [Bool.not_eq_true] at lacks
    cases level.context with
    | object p => cases has : w.has p n <;> simp [lacks, has]
    | _ => simp [lacks]

/-- One more property of the owner does not show at a level that owns the name, and a level that does
not have the name owns it afterwards only as the owner. -/
theorem levelOwner?_set (has : ∀ o' n', w'.has o' n' = (decide (o' = o ∧ n' = n) || w.has o' n'))
    (level : Level) : (w.levelOwner? n level = some (.object o) → w'.levelOwner? n level =
      some (.object o)) ∧ (w.levelOwner? n level = none →
        w'.levelOwner? n level = none ∨ w'.levelOwner? n level = some (.object o)) := by
  constructor
  · intro owner
    unfold levelOwner? at owner ⊢
    rw [has]
    split at owner
    next locals => simpa [locals] using owner
    next lacks =>
      split at owner
      next p context =>
        split at owner
        next has' =>
          obtain rfl : p = o := Value.object.inj (context.symm.trans (Option.some.inj owner))
          by_cases locals : level.locals = p
          · simp [locals]
          · simp [locals, lacks, has, context]
        · cases owner
      · cases owner
  · intro none
    obtain ⟨locals, context⟩ := levelOwner?_eq_none_iff.1 none
    unfold levelOwner?
    rw [has, locals, Bool.or_false]
    by_cases here : level.locals = o
    · exact .inr (by simp [here])
    · rw [if_neg (by simp [here])]
      cases is : level.context with
      | object p =>
        dsimp only
        rw [has, context p is, Bool.or_false]
        by_cases there : p = o
        · exact .inr (by simp [there])
        · exact .inl (by simp [there])
      | _ => exact .inl rfl

/-- The search for a name ends where it ended. -/
theorem findSome?_levelOwner?_set
    (has : ∀ o' n', w'.has o' n' = (decide (o' = o ∧ n' = n) || w.has o' n')) :
    ∀ levels : List Level,
      (levels.findSome? (w.levelOwner? n) = some (.object o) →
        levels.findSome? (w'.levelOwner? n) = some (.object o)) ∧
      (levels.findSome? (w.levelOwner? n) = none →
        levels.findSome? (w'.levelOwner? n) = none ∨
          levels.findSome? (w'.levelOwner? n) = some (.object o))
  | [] => ⟨id, .inl⟩
  | level :: rest => by
    obtain ⟨stays, appears⟩ := levelOwner?_set has level
    obtain ⟨staysIn, appearsIn⟩ := findSome?_levelOwner?_set has rest
    simp only [List.findSome?_cons]
    cases is : w.levelOwner? n level with
    | some owner =>
      refine ⟨fun same => ?_, fun none => by cases none⟩
      rw [stays (is.trans same)]
    | none =>
      dsimp only
      rcases appears is with still | found
      · rw [still]
        exact ⟨staysIn, appearsIn⟩
      · rw [found]
        exact ⟨fun _ => rfl, fun _ => .inr rfl⟩

/-- **The owner stays the owner** of a name when it gets a property of that name. -/
theorem ownerOf_set_self (owner : w.ownerOf scope n = .object o)
    (has : ∀ o' n', w'.has o' n' = (decide (o' = o ∧ n' = n) || w.has o' n')) :
    w'.ownerOf scope n = .object o := by
  obtain ⟨stays, appears⟩ := findSome?_levelOwner?_set has scope.levels
  unfold ownerOf at owner ⊢
  cases found : scope.levels.findSome? (w.levelOwner? n) with
  | some v =>
    rw [found] at owner
    rw [stays (found.trans (congrArg some owner))]
  | none =>
    rw [found] at owner
    rcases appears found with still | found'
    · rw [still]
      exact owner
    · rw [found']

/-- Another name is owned by whoever owned it. -/
theorem ownerOf_set_of_ne {n' : String} (other : n' ≠ n)
    (has : ∀ o' n', w'.has o' n' = (decide (o' = o ∧ n' = n) || w.has o' n')) (scope : Scope) :
    w'.ownerOf scope n' = w.ownerOf scope n' := by
  have levels : w'.levelOwner? n' = w.levelOwner? n' := funext fun level => by
    simp only [levelOwner?, has, other, and_false, decide_false, Bool.false_or]
  simp only [ownerOf, levels]

/-! ### Assigning -/

/-- **A name that is assigned is found again**, and nothing else changes for anybody.  The owner of the
name is an object that is not frozen, whose property of that name is plain.  Then assigning through
the name succeeds, the owner is the same afterwards, and the name has the value that was assigned,
or the strictly equal one that it had before.  Every other name has the owner and the value that it
had before, in every scope, whatever levels and objects the scope shares with this one. -/
theorem assigned_name_found {env : Env η} {cs : Converters}
    (owner : w.ownerOf scope n = .object o) (live : w.objects.contains o = true)
    (unfrozen : w.isFrozen o = false) (plain : w.IsPlain o n) (v : Value) :
    ∃ w', (Expr.name n).assignTo env cs scope v w = (.ok v, w') ∧
      w'.ownerOf scope n = .object o ∧
      (Expr.name n).eval env cs scope w' = (.ok (w.heldAfter o n v), w') ∧
      ∀ n' ≠ n, ∀ scope' : Scope, w'.ownerOf scope' n' = w.ownerOf scope' n' ∧
        ∃ seen, (Expr.name n').eval env cs scope' w = (.ok seen, w) ∧
          (Expr.name n').eval env cs scope' w' = (.ok seen, w') := by
  have has := has_set live unfrozen plain v
  have owner' : (w.set o n v).ownerOf scope n = .object o := ownerOf_set_self owner has
  have slots := slot?_set live unfrozen plain v
  have values : ∀ slot, (w.set o n v).slotValue slot = w.slotValue slot := fun slot => by
    cases slot <;> simp only [slotValue, setters_set plain v]
  refine ⟨w.set o n v, ?_, owner', ?_, fun n' other scope' => ?_⟩
  · rw [Expr.assignTo, Run.bind_read, owner]
    rfl
  · have held : (w.set o n v).lookup scope n = w.heldAfter o n v := by
      simp only [lookup, owner', member, World.get, slots, and_self, if_true, slotValue]
    rw [Expr.eval, Run.read, held]
  · have same : (w.set o n v).ownerOf scope' n' = w.ownerOf scope' n' :=
      ownerOf_set_of_ne other has scope'
    refine ⟨same, w.lookup scope' n', by rw [Expr.eval, Run.read], ?_⟩
    have get : ∀ p, (w.set o n v).get p n' = w.get p n' := fun p => by
      simp only [World.get, slots, other, and_false, if_false, values]
    have seen : (w.set o n v).lookup scope' n' = w.lookup scope' n' := by
      simp only [lookup, same]
      cases w.ownerOf scope' n' <;>
        simp only [member, get, World.length, World.item, arrays_set]
    rw [Expr.eval, Run.read, seen]

end World

/-! ### A counter -/

namespace Counter

/-- A view model that counts from zero, in a scope inside another one with a model of its own. -/
def counter : World Unit :=
  let w := ((World.new .standard ()).newObject [("count", .number 0.0)]).2
  let w := (w.newLevel (.object ⟨0⟩)).2
  let w := (w.newObject [("title", .string "outer")]).2
  (w.newLevel (.object ⟨2⟩)).2

/-- The view model is the context of the inner level. -/
def scope : Scope := .child ⟨.object ⟨0⟩, ⟨1⟩⟩ (.root ⟨.object ⟨2⟩, ⟨3⟩⟩)

def env : Env Unit := machine Host.silent 1 1

/-- One is assigned to a name that nobody has, and is found in the view model. -/
theorem step_found : counter.ownerOf scope "step" = .object ⟨0⟩ ∧
    ∃ w', (Expr.name "step").assignTo env .registered scope (.number 1.0) counter =
        (.ok (.number 1.0), w') ∧
      w'.ownerOf scope "step" = .object ⟨0⟩ ∧
      (Expr.name "step").eval env .registered scope w' = (.ok (.number 1.0), w') := by
  have owner : counter.ownerOf scope "step" = .object ⟨0⟩ := by decide +kernel
  have plain : counter.IsPlain ⟨0⟩ "step" := fun slot is => by cases is
  obtain ⟨w', assigned, owned, found, -⟩ :=
    World.assigned_name_found owner (by decide +kernel) (by decide +kernel) plain (.number 1.0)
  exact ⟨owner, w', assigned, owned, found⟩

/-- **Zero keeps its sign.** Negative zero is assigned to the count, which is zero, and what is found
there is zero. -/
theorem zero_keeps_its_sign : counter.ownerOf scope "count" = .object ⟨0⟩ ∧
    ((Expr.name "count").assignTo env .registered scope (.number (-0.0)) counter).1 =
      .ok (.number (-0.0)) ∧
    ((Expr.name "count").eval env .registered scope
      ((Expr.name "count").assignTo env .registered scope (.number (-0.0)) counter).2).1 ≠
        .ok (.number (-0.0)) := by
  refine ⟨rfl, rfl, fun same => ?_⟩
  have is : (0.0 : Float) = -0.0 := Value.number.inj (Outcome.ok.inj same)
  exact absurd is (by decide +kernel)

end Counter

end ViewBinding
