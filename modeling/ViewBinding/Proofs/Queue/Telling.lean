import ViewBinding.Proofs.Custody.Board
import ViewBinding.Proofs.Queue.Beneath

/-!
# Queue — telling

Telling about a change notes what is told, evaluates and calls back.  So does writing, but through a
select, which follows the array that is written.  What they do by themselves neither touches the
canopy of a world nor shows on its board.

`x.Notifies env` says that the computation `x` is made of just that, so what is shown of such
computations by induction is shown of all of them.
-/

namespace ViewBinding

variable {η α β : Type} {env : Env η}

/-- The computation connects, changes what neither touches the canopy nor shows on the board, and
tells, one after the other. -/
inductive Run.Notifies (env : Env η) : {α : Type} → Run η α → Prop
  | connect {α : Type} {x : Run η α} (h : x.Connects env) : Notifies env x
  | step {α : Type} {f : World η → α × World η}
      (h : ∀ w, (f w).2.canopy = w.canopy ∧ (f w).2.board = w.board) : Notifies env (Run.update f)
  | announce (s : Subscriber) (new old : Value) : Notifies env (env.announce s new old)
  | attempt {α : Type} {x : Run η α} (h : Notifies env x) : Notifies env x.attempt
  | breakOff {α : Type} : Notifies env (Run.breakOff : Run η α)
  | bind {α β : Type} {x : Run η α} {f : α → Run η β} (first : Notifies env x)
      (next : ∀ a, Notifies env (f a)) : Notifies env (x >>= f)

namespace Run.Notifies

open Run

variable {x y : Run η α}

/-! ### Straight code -/

theorem evaluate (h : x.Evaluates env) : x.Notifies env := connect (.evaluate h)

theorem read (f : World η → α) : (Run.read f).Notifies env := evaluate (.read f)

theorem pure (a : α) : (Pure.pure a : Run η α).Notifies env := evaluate (.pure a)

theorem fail (cause : BindingError) : (Run.fail cause : Run η α).Notifies env :=
  evaluate (.fail cause)

theorem display (v : Value) : (Run.display v : Run η String).Notifies env := evaluate (.display v)

theorem fire (hook : Ref .hook) (occasion : Occasion) : (env.fire hook occasion).Notifies env :=
  evaluate (.fire hook occasion)

theorem modify {f : World η → World η}
    (h : ∀ w, (f w).canopy = w.canopy ∧ (f w).board = w.board) : (Run.modify f).Notifies env :=
  step (f := fun w => ((), f w)) h

theorem ite {c : Prop} [Decidable c] (h : x.Notifies env) (h' : y.Notifies env) :
    (if c then x else y).Notifies env := by
  split
  · exact h
  · exact h'

theorem discard (h : x.Notifies env) : (discard x : Run η PUnit).Notifies env :=
  h.bind fun _ => pure _

theorem forEach {items : List α} {f : α → Run η Unit} (h : ∀ a, (f a).Notifies env) :
    (Run.forEach items f).Notifies env := by
  induction items with
  | nil => exact pure ()
  | cons a rest ih => exact (h a).bind fun _ => ih

theorem announceAll (subscribers : List Subscriber) (new old : Value) :
    (env.announceAll subscribers new old).Notifies env := forEach fun s => announce s new old

theorem notify (callbacks : Listeners Subscriber) (new old : Value) :
    (env.notify callbacks new old).Notifies env := announceAll _ new old

/-! ### Writing -/

theorem writeObject (o : Ref .object) (n : String) (v : Value) :
    (Run.writeObject o n v : Run η Unit).Notifies env :=
  modify fun w => by
    split <;> simp

theorem styleText (v : Value) : (Run.styleText v : Run η String).Notifies env := by
  unfold Run.styleText
  split
  · refine (read _).bind fun names => ?_
    generalize "" = text
    induction names generalizing text with
    | nil => exact pure _
    | cons n rest ih =>
      rw [List.foldlM_cons]
      exact ((read _).bind fun v => .bind (display v) fun _ => pure _).bind ih
  · split
    · exact pure _
    · exact display _

theorem writeAttribute (e : Ref .element) (space : Option String) (n : String) (v : Value) :
    (Run.writeAttribute e space n v : Run η Unit).Notifies env := by
  unfold Run.writeAttribute
  split
  · exact modify (by simp)
  · exact (display v).bind fun _ => modify (by simp)

theorem tellElement (r : Ref .elementProperty) : (Run.tellElement env r).Notifies env := by
  refine (read _).bind fun cell => ?_
  split
  · exact pure _
  · exact (read _).bind fun new => .bind (modify (by simp)) fun _ => notify _ new _

theorem writeElement (r : Ref .elementProperty) (v : Value) :
    (Run.writeElement env r v).Notifies env := by
  refine (read _).bind fun cell => ?_
  split
  · exact pure _
  · refine (read _).bind fun live => ?_
    split
    · split
      · exact writeAttribute _ _ _ v
      · exact writeAttribute _ _ _ v
      · exact (styleText v).bind fun _ => modify (by simp)
      · refine (modify (by simp)).bind fun _ => ?_
        split
        · exact tellElement r
        · exact pure _
    · exact pure _

/-- **Writing through a leaf** tells, but through a select. -/
theorem writeLeaf {leaf : Leaf} (other : ∀ r, leaf ≠ .select r) (v : Value) :
    (Run.writeLeaf env leaf v).Notifies env := by
  cases leaf with
  | setter r =>
    refine (read _).bind fun cell => ?_
    split
    · split
      · exact modify (by simp)
      · exact writeObject _ _ v
    · exact pure _
  | property r =>
    refine (read _).bind fun cell => ?_
    split
    · exact writeObject _ _ v
    · exact pure _
  | placeholder r =>
    refine (read _).bind fun cell => ?_
    split
    · exact writeObject _ _ v
    · exact pure _
  | element r => exact writeElement r v
  | select r => exact absurd rfl (other r)
  | contents r => exact fail _
  | poll r =>
    refine (read _).bind fun cell => ?_
    split
    · exact writeObject _ _ v
    · exact pure _

theorem updateSource (b : Ref .binding) (v : Value) : (Run.updateSource env b v).Notifies env := by
  refine (read _).bind fun cell => ?_
  split
  · exact discard (evaluate (.assignTo _ _ _ v))
  · exact pure _

/-! ### Telling -/

theorem tellPath (p : Ref .path) (new : Value) : (Run.tellPath env p new).Notifies env := by
  refine (read _).bind fun cell => ?_
  split
  · exact pure _
  · exact (modify (by simp)).bind fun _ => notify _ new _

theorem tellProperty (r : Ref .property) (new old : Value) :
    (Run.tellProperty env r new old).Notifies env := by
  refine (read _).bind fun cell => ?_
  split
  · exact notify _ new old
  · exact pure _

theorem tellSetter (r : Ref .setter) : (Run.tellSetter env r).Notifies env := by
  refine (read _).bind fun cell => ?_
  split
  · exact pure _
  · exact (modify (by simp)).bind fun _ => notify _ _ _

theorem tellContents (r : Ref .contents) : (Run.tellContents env r).Notifies env := by
  refine (read _).bind fun cell => ?_
  split
  · exact pure _
  · exact (modify (by simp)).bind fun _ => .bind (read _) fun v => notify _ v v

theorem tellPoll (r : Ref .poll) : (Run.tellPoll env r).Notifies env := by
  refine (read _).bind fun cell => ?_
  split
  · exact pure _
  · exact (read _).bind fun new => .bind (modify (by simp)) fun _ => notify _ new _

/-- **Polling** tells. -/
theorem poll : (Run.poll env).Notifies env := by
  refine (modify (by simp)).bind fun _ => .bind (read _) fun tracked =>
    .bind (forEach fun r => ?_) fun _ => .bind (read _) fun none => ?_
  · refine (read _).bind fun dirty => ?_
    split
    · exact tellPoll r
    · exact pure _
  · split
    · exact pure _
    · exact modify (by simp)

theorem tellComposite (c : Ref .composite) (new : Value) :
    (Run.tellComposite env c new).Notifies env := by
  refine (read _).bind fun cell => ?_
  split
  · exact pure _
  · refine (modify fun w => ⟨?_, ?_⟩).bind fun _ => notify _ _ _
    · exact w.canopy_modifyComposite c fun _ => rfl
    · exact w.board_modifyComposite c (fun _ => rfl) fun _ => rfl

theorem reevaluate (c : Ref .composite) : (Run.reevaluate env c).Notifies env := by
  refine (read _).bind fun cell => ?_
  split
  · exact pure _
  · refine (read _).bind fun cs => .bind (.attempt (evaluate (.eval cs _ _))) fun result => ?_
    split
    · exact pure _
    · exact tellComposite c _

theorem connectFor (cell : CompositeCell) (e : Expr) :
    (Run.connectFor env cell e).Notifies env := by
  refine (read _).bind fun provided => ?_
  split
  · exact connect (.connect _ _ e)
  · exact pure _

theorem partInfo (c : Ref .composite) (index : Nat) (part : Part) :
    (Run.partInfo env c index part).Notifies env := by
  unfold Run.partInfo
  split
  · exact pure _
  · refine (read _).bind fun cell => ?_
    split
    · exact pure _
    · refine (connectFor _ _).bind fun info => .bind (modify fun w => ?_) fun _ => pure _
      exact ⟨w.canopy_modifyPart c index _, w.board_connectPart c index info⟩

/-! ### Arrays and elements -/

theorem tellSplice (a : Ref .array) (splice : Splice) :
    (Run.tellSplice env a splice).Notifies env := by
  refine (read _).bind fun _ => forEach fun l => ?_
  cases l with
  | contents c => exact modify (by simp)
  | hook h => exact fire h _

theorem splice (a : Ref .array) (index count : Nat) (added : List Value) :
    (Run.splice env a index count added).Notifies env := by
  refine (read _).bind fun _ => ite breakOff ?_
  exact Notifies.bind (.bind (step (by simp)) fun s => .bind (tellSplice a s) fun _ => pure _)
    fun _ => pure _

theorem synchronizeValue (r : Ref .select) : (Run.synchronizeValue env r).Notifies env := by
  refine (read _).bind fun cell => ?_
  split
  · exact pure _
  · refine (read _).bind fun live => ?_
    split
    · refine (step (by simp)).bind fun _ => .bind (modify (by simp)) fun _ =>
        .bind (read _) fun cell => ?_
      split
      · exact pure _
      · exact notify _ _ _
    · exact pure _

/-- **Dispatching an event** tells. -/
theorem dispatchEvent (e : Ref .element) (event : String) :
    (Run.dispatchEvent env e event).Notifies env := by
  refine (read _).bind fun listeners => forEach fun l => ?_
  obtain ⟨-, l⟩ := l
  cases l with
  | property r => exact tellElement r
  | select r => exact synchronizeValue r
  | hook h => exact fire h _

theorem tellChildren (e : Ref .element) : (Run.tellChildren env e).Notifies env := by
  refine (read _).bind fun listeners => forEach fun l => ?_
  cases l with
  | select r => exact modify (by simp)
  | hook h => exact fire h _

theorem appendChild (e child : Ref .element) : (Run.appendChild env e child).Notifies env :=
  (modify (by simp)).bind fun _ => tellChildren e

theorem removeChild (e child : Ref .element) : (Run.removeChild env e child).Notifies env := by
  refine (read _).bind fun found => ?_
  dsimp only
  split
  · exact (modify (by simp)).bind fun _ => .bind (tellChildren e) fun _ => pure _
  · exact (pure _).bind fun _ => pure _

end Run.Notifies

end ViewBinding
