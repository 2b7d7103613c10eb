import ViewBinding.Proofs.Keeping
import ViewBinding.Proofs.Leaf.Slots
import ViewBinding.Proofs.Leaf.Unwatched
import ViewBinding.Proofs.Queue.Unfailing

/-!
# Assigning — a failure leaves everything as it was

Assigning through an expression evaluates parts of it and then writes.  An expression in which
nothing is assigned or called (`Expr.Quiet`) evaluates without touching what is there: it makes
objects and arrays, and fills those that it makes (`Expr.adds_eval`).

Assigning through `a.b.c` may make the objects that are missing on the way and put them in place
before the last write, so nothing may fail once the first of them is in place.  Indeed a member of
an object that was just made takes every value, and an array that refuses an index refuses it first.
So an assignment that fails has changed nothing that was there before, and nobody has been told
anything (`failed_assignment_adds`).
-/

namespace ViewBinding

/-! ### Nothing but new things -/

/-- There are new objects and arrays, and otherwise everything is as it was. -/
structure World.Adds {η : Type} (w w' : World η) : Prop where
  objects : ∀ {o cell}, w.objects.get? o = some cell → w'.objects.get? o = some cell
  arrays : ∀ {a cell}, w.arrays.get? a = some cell → w'.arrays.get? a = some cell
  rest : w' = { w with objects := w'.objects, arrays := w'.arrays }

/-- Nobody listens to the object, and it has no trap. -/
def World.Draft {η : Type} (w : World η) (o : Ref .object) : Prop :=
  ∃ cell, w.objects.get? o = some cell ∧ cell.listeners.isEmpty ∧
    ∀ n r, Entries.get? n cell.properties ≠ some (.trap r)

/-- The computation makes objects and arrays, and nothing else comes of it. -/
def Run.Adds {η α : Type} (x : Run η α) : Prop := ∀ w : World η, w.Adds (x w).2

/-- Converters may make objects and arrays, and nothing else comes of them. -/
def Env.Pure {η : Type} (env : Env η) : Prop :=
  ∀ c direction v args, (env.convert c direction v args).Adds

/-- If the computation fails, it has made objects and arrays, and nothing else has come of it. -/
def Run.Undone {η α : Type} (x : Run η α) : Prop :=
  ∀ ⦃w w' : World η⦄ ⦃cause⦄, x w = (.error cause, w') → w.Adds w'

variable {η α β : Type}

namespace World

variable {w w' w'' : World η} {o : Ref .object}

@[refl] theorem Adds.refl (w : World η) : w.Adds w := ⟨id, id, rfl⟩

theorem Adds.trans (h : w.Adds w') (h' : w'.Adds w'') : w.Adds w'' where
  objects get := h'.objects (h.objects get)
  arrays get := h'.arrays (h.arrays get)
  rest := by rw [h'.rest, h.rest]

theorem adds_newArray (w : World η) (items : List Value) : w.Adds (w.newArray items).2 where
  objects := id
  arrays get := (Store.get?_alloc_of_ne _ (Store.ne_next_of_get? get)).trans get
  rest := rfl

theorem adds_newObject (w : World η) (properties : List (String × Value)) :
    w.Adds (w.newObject properties).2 where
  objects get := (Store.get?_alloc_of_ne _ (Store.ne_next_of_get? get)).trans get
  arrays := id
  rest := rfl

theorem draft_newObject (w : World η) : (w.newObject []).2.Draft (w.newObject []).1 :=
  ⟨{}, Store.get?_alloc_next _ _, rfl, nofun⟩

theorem Draft.of_adds (h : w.Draft o) (adds : w.Adds w') : w'.Draft o := by
  obtain ⟨cell, get, plain⟩ := h
  exact ⟨cell, adds.objects get, plain⟩

/-- **Setting a property of a new object** is still nothing but making it. -/
theorem Adds.set (h : w.Adds w') (fresh : w.objects.get? o = none) (draft : w'.Draft o) (n : String)
    (v : Value) : w.Adds (w'.set o n v) ∧ (w'.set o n v).Draft o := by
  refine set_keeps (P := fun w' => w.Adds w' ∧ w'.Draft o) ⟨h, draft⟩ ?_ ?_ ?_
  · intro r trapped
    obtain ⟨cell, get, -, plain⟩ := draft
    simp only [slot?, get, Option.bind_eq_bind, Option.bind_some] at trapped
    exact (plain n r trapped).elim
  · intro slot _ untrapped
    obtain ⟨cell, get, unheard, plain⟩ := draft
    let cell' := { cell with properties := Entries.put n slot cell.properties }
    have get' : (w'.putSlot o n slot).objects.get? o = some cell' := by
      rw [putSlot, modifyObject, Store.get?_modify_self, get, Option.map_some]
    refine ⟨⟨fun {o' _} old => ?_, h.arrays, ?_⟩, cell', get', unheard, fun n' r => ?_⟩
    · have other : o' ≠ o := fun is => by cases (is ▸ fresh).symm.trans old
      exact (Store.get?_modify_of_ne _ other).trans (h.objects old)
    · rw [putSlot, modifyObject, h.rest]
    · rw [Entries.get?_put]
      split
      · exact fun is => untrapped r (Option.some.inj is)
      · exact plain n' r
  · rintro w' change ⟨h, cell, get, unheard, plain⟩
    rw [record_of_unheard fun cell' get' => by
      obtain rfl := Option.some.inj (get.symm.trans get')
      exact unheard]
    exact ⟨h, cell, get, unheard, plain⟩

end World

/-! ### Straight code -/

namespace Run

variable {x y : Run η α}

theorem adds_pure (a : α) : (Pure.pure a : Run η α).Adds := fun w => .refl w

theorem adds_read (f : World η → α) : (read f).Adds := fun w => .refl w

theorem adds_fail (cause : BindingError) : (fail cause : Run η α).Adds := fun w => .refl w

theorem adds_inspect (f : World η → Option α) : Adds (fun w => ofOption (f w) w : Run η α) :=
  fun w => by
    dsimp only
    cases f w <;> exact .refl w

theorem Adds.keeps (h : x.Adds) {w₀ : World η} : x.Keeps w₀.Adds := fun w so => so.trans (h w)

theorem Adds.bind (h : x.Adds) {f : α → Run η β} (h' : ∀ a, (f a).Adds) : (x >>= f).Adds :=
  fun w => h.keeps.bind (fun a => (h' a).keeps) w (.refl w)

theorem Adds.map (h : x.Adds) (f : α → β) : (f <$> x).Adds := h.bind fun a => adds_pure (f a)

theorem adds_ite {c : Prop} [Decidable c] (h : x.Adds) (h' : y.Adds) :
    (if c then x else y).Adds := by
  split
  · exact h
  · exact h'

/-! ### Operators and members -/

theorem adds_display (v : Value) : (display v : Run η String).Adds := adds_inspect _

theorem adds_compareValues? (left right : Value) :
    (compareValues? left right : Run η (Option Ordering)).Adds := by
  unfold compareValues?
  split
  · exact (adds_display left).bind fun _ => (adds_display right).map _
  · exact adds_pure _

theorem adds_operate (operator : Operator) (left right : Value) :
    (operate operator left right : Run η Value).Adds := by
  cases operator with
  | add =>
    unfold operate
    dsimp only
    split
    · exact adds_pure _
    · exact (adds_display left).bind fun _ => (adds_display right).map _
  | equal | different => exact Adds.map (adds_inspect _) _
  | less | greater | atMost | atLeast => exact (adds_compareValues? left right).map _
  | _ => exact adds_pure _

theorem adds_binary (text : String) (left right : Value) :
    (binary text left right : Run η Value).Adds := by
  unfold binary
  split
  · exact adds_pure _
  · split
    · exact adds_operate _ left right
    · exact adds_fail _

theorem adds_indexOfKey? (key : Value) : (indexOfKey? key : Run η (Option Nat)).Adds := by
  unfold indexOfKey?
  split
  · exact adds_pure _
  · exact (adds_display _).map _

theorem adds_readKey (v key : Value) : (readKey v key : Run η Value).Adds := by
  unfold readKey
  split
  · refine (adds_indexOfKey? key).bind fun index => ?_
    split
    · exact adds_read _
    · exact adds_pure _
  · exact adds_fail _
  · exact adds_fail _
  · exact (adds_display key).bind fun _ => adds_read _

theorem adds_converter (converters : Converters) (n : String) :
    (converter converters n : Run η Converter).Adds := by
  refine (adds_read _).bind fun found => ?_
  split
  · exact adds_pure _
  · exact adds_fail _

end Run

/-! ### Quiet expressions -/

namespace Expr

mutual

/-- Nothing is assigned or called in the expression. -/
def Quiet : Expr → Prop
  | chain es => AllQuiet es
  | pipe input _ args all => input.Quiet ∧ AllQuiet args ∧ AllQuiet all
  | assign _ _ => False
  | conditional condition yes no => condition.Quiet ∧ yes.Quiet ∧ no.Quiet
  | name _ => True
  | member owner _ => owner.Quiet
  | keyed owner key => owner.Quiet ∧ key.Quiet
  | callName _ _ => False
  | callMember _ _ _ => False
  | call _ _ => False
  | binary _ left right => left.Quiet ∧ right.Quiet
  | negate _ operand => operand.Quiet
  | primitive _ => True
  | string _ => True
  | array elements => AllQuiet elements
  | object _ values => AllQuiet values

/-- Nothing is assigned or called in any expression of a list. -/
def AllQuiet : List Expr → Prop
  | [] => True
  | e :: rest => e.Quiet ∧ AllQuiet rest

end

section

variable {env : Env η} (cs : Converters) (scope : Scope)

mutual

/-- **Evaluating a quiet expression** makes objects and arrays, and nothing else comes of it. -/
theorem adds_eval (pure : env.Pure) : ∀ e : Expr, e.Quiet → (e.eval env cs scope).Adds
  | chain es, quiet => by
    rw [eval]
    exact adds_evalChain pure .undefined es quiet
  | pipe _ n _ all, ⟨_, _, quiet⟩ => by
    rw [eval]
    refine (Run.adds_converter cs n).bind fun c =>
      (adds_evalList pure all quiet).bind fun values => ?_
    split <;> exact (pure c _ _ _).map _
  | conditional condition yes no, ⟨quiet, quiet', quiet''⟩ => by
    rw [eval]
    exact (adds_eval pure condition quiet).bind fun v =>
      Run.adds_ite (adds_eval pure yes quiet') (adds_eval pure no quiet'')
  | name n, _ => by
    rw [eval]
    exact Run.adds_read _
  | member owner n, quiet => by
    rw [eval]
    exact (adds_eval pure owner quiet).bind fun v =>
      Run.adds_ite (Run.adds_pure _) (Run.adds_read _)
  | keyed owner key, ⟨quiet, quiet'⟩ => by
    rw [eval]
    exact (adds_eval pure owner quiet).bind fun v => (adds_eval pure key quiet').bind fun k =>
      Run.adds_readKey v k
  | binary operator left right, ⟨quiet, quiet'⟩ => by
    rw [eval]
    refine (adds_eval pure left quiet).bind fun l => Run.adds_ite ?_ (Run.adds_ite ?_ ?_)
    · exact Run.adds_ite ((adds_eval pure right quiet').map _) (Run.adds_pure _)
    · exact Run.adds_ite (Run.adds_pure _) ((adds_eval pure right quiet').map _)
    · exact (adds_eval pure right quiet').bind fun r => Run.adds_binary operator l r
  | negate _ operand, quiet => by
    rw [eval]
    exact (adds_eval pure operand quiet).map _
  | primitive p, _ => by
    rw [eval]
    exact Run.adds_pure _
  | string s, _ => by
    rw [eval]
    exact Run.adds_pure _
  | array elements, quiet => by
    rw [eval]
    exact (adds_evalList pure elements quiet).bind fun values w => w.adds_newArray values
  | object keys values, quiet => by
    rw [eval]
    intro w
    have fresh : w.objects.get? (w.newObject []).1 = none := Store.get?_next _
    have filled := adds_evalEntries pure fresh keys values quiet
    have given := filled.bind fun _ => Run.keeps_pure (Value.object (w.newObject []).1)
    exact (given (w.newObject []).2 ⟨w.adds_newObject [], w.draft_newObject⟩).1
  | assign _ _, quiet | callName _ _, quiet | callMember _ _ _, quiet | call _ _, quiet =>
    quiet.elim

theorem adds_evalList (pure : env.Pure) : ∀ es : List Expr, AllQuiet es →
    (evalList env cs scope es).Adds
  | [], _ => by
    rw [evalList]
    exact Run.adds_pure _
  | e :: rest, ⟨quiet, quiet'⟩ => by
    rw [evalList]
    exact (adds_eval pure e quiet).bind fun v => (adds_evalList pure rest quiet').map _

theorem adds_evalChain (pure : env.Pure) : ∀ (last : Value) (es : List Expr), AllQuiet es →
    (evalChain env cs scope last es).Adds
  | last, [], _ => by
    rw [evalChain]
    exact Run.adds_pure _
  | last, e :: rest, ⟨quiet, quiet'⟩ => by
    rw [evalChain]
    exact (adds_eval pure e quiet).bind fun v => adds_evalChain pure _ rest quiet'

/-- The entries are set on an object that is made here. -/
theorem adds_evalEntries (pure : env.Pure) {w₀ : World η} {o : Ref .object}
    (fresh : w₀.objects.get? o = none) :
    ∀ (keys : List String) (es : List Expr), AllQuiet es →
      (evalEntries env cs scope o keys es).Keeps fun w => w₀.Adds w ∧ w.Draft o
  | key :: keys, e :: rest, ⟨quiet, quiet'⟩ => by
    rw [evalEntries]
    refine Run.Keeps.bind (fun w so => ?_) fun v => .bind (fun w so => ?_) fun _ =>
      adds_evalEntries pure fresh keys rest quiet'
    · exact ⟨so.1.trans (adds_eval pure e quiet w), so.2.of_adds (adds_eval pure e quiet w)⟩
    · exact so.1.set fresh so.2 key v
  | [], _, _ => by
    rw [evalEntries]
    · exact Run.keeps_pure _
    · simp
  | _ :: _, [], _ => by
    rw [evalEntries]
    · exact Run.keeps_pure _
    · simp

end

end

end Expr

/-! ### Assigning -/

namespace Run

variable {x : Run η α}

theorem Adds.undone (h : x.Adds) : x.Undone := fun w _ _ failed => by
  have adds := h w
  rwa [failed] at adds

theorem Unfailing.undone (h : x.Unfailing) : x.Undone := fun _ _ _ failed => (h.ne failed).elim

/-- A sequence fails where its first part does, or where the second does after it. -/
theorem bind_eq_error {f : α → Run η β} {w w' : World η} {cause : BindingError}
    (h : (x >>= f) w = (.error cause, w')) :
    x w = (.error cause, w') ∨ ∃ a w₁, x w = (.ok a, w₁) ∧ f a w₁ = (.error cause, w') := by
  change Run.bind x f w = _ at h
  unfold Run.bind at h
  generalize x w = result at h ⊢
  obtain ⟨a | e | _ | _, w₁⟩ := result
  · exact .inr ⟨a, w₁, rfl, h⟩
  · cases h
    exact .inl rfl
  · cases h
  · cases h

/-- What makes new things may come before what can fail. -/
theorem Adds.bind_undone (h : x.Adds) {f : α → Run η β} (h' : ∀ a, (f a).Undone) :
    (x >>= f).Undone := fun w _ _ failed => by
  obtain first | ⟨a, w₁, ran, failed⟩ := bind_eq_error failed
  · exact h.undone first
  · have adds := h w
    rw [ran] at adds
    exact adds.trans (h' a failed)

/-- What cannot fail may come after what can. -/
theorem Undone.bind (h : x.Undone) {f : α → Run η β} (h' : ∀ a, (f a).Unfailing) :
    (x >>= f).Undone := fun _ _ _ failed => by
  obtain first | ⟨a, w₁, -, failed⟩ := bind_eq_error failed
  · exact h first
  · exact ((h' a).ne failed).elim

theorem undone_setItem {env : Env η} (hears : ∀ h splice, (env.fire h (.spliced splice)).Unfailing)
    (a : Ref .array) (index : Nat) (v : Value) : (setItem env a index v).Undone := by
  unfold setItem
  split
  · exact (adds_fail _).undone
  · refine Unfailing.undone ?_
    have told : ∀ splice, (tellSplice env a splice).Unfailing := fun splice =>
      (unfailing_read _).bind fun _ => unfailing_forEach fun listener => by
        cases listener with
        | contents c => exact unfailing_modify _
        | hook h => exact hears h splice
    exact ((unfailing_update _).bind fun splice => (told splice).bind fun _ =>
      unfailing_pure splice).bind fun _ => unfailing_pure _

theorem undone_writeKey {env : Env η} (hears : ∀ h splice, (env.fire h (.spliced splice)).Unfailing)
    (v key new : Value) : (writeKey env v key new).Undone := by
  unfold writeKey
  split
  · refine (adds_indexOfKey? key).bind_undone fun index => ?_
    split
    · exact undone_setItem hears _ _ new
    · exact (adds_pure _).undone
  · exact (adds_display key).bind_undone fun n => (unfailing_modify _).undone
  · exact (adds_fail _).undone
  · exact (adds_fail _).undone
  · exact (adds_pure _).undone

theorem undone_assignMember {env : Env η}
    (hears : ∀ h splice, (env.fire h (.spliced splice)).Unfailing) (e : Expr) (owner : Value)
    (n : String) (v : Value) : (assignMember env e owner n v).Undone := by
  unfold assignMember
  split
  · exact ((unfailing_modify _).bind fun _ => unfailing_pure _).undone
  · exact (undone_writeKey hears _ _ v).bind fun _ => unfailing_pure _
  · exact (adds_fail _).undone
  · exact (adds_fail _).undone
  · exact (adds_fail _).undone

/-- A member of an object takes every value. -/
theorem unfailing_assignMember (env : Env η) (e : Expr) (o : Ref .object) (n : String) (v : Value) :
    (assignMember env e (.object o) n v).Unfailing :=
  (unfailing_modify _).bind fun _ => unfailing_pure _

end Run

/-! ### Failures -/

/-- A target is assigned to with what can fail before anything is in place: objects that are missing
on the way are put there after the last failure that is possible. -/
theorem Expr.undone_assignTo {env : Env η} (pure : env.Pure)
    (hears : ∀ h splice, (env.fire h (.spliced splice)).Unfailing) (cs : Converters)
    (scope : Scope) :
    ∀ (e : Expr) (v : Value), e.Quiet → (e.assignTo env cs scope v).Undone
  | name n, v, _ => by
    rw [assignTo]
    exact (Run.adds_read _).bind_undone fun owner => Run.undone_assignMember hears _ owner n v
  | member owner n, v, quiet => by
    rw [assignTo]
    refine (adds_eval cs scope pure owner quiet).bind_undone fun holder => ?_
    split
    · exact Run.undone_assignMember hears _ holder n v
    · refine Run.Adds.bind_undone (fun w => w.adds_newObject []) fun o => ?_
      have placed := undone_assignTo pure hears cs scope owner (.object o) quiet
      refine (placed.bind fun _ => Run.unfailing_pure _).bind fun _ => ?_
      exact Run.unfailing_assignMember env _ o n v
  | keyed owner key, v, ⟨quiet, quiet'⟩ => by
    rw [assignTo]
    exact (adds_eval cs scope pure owner quiet).bind_undone fun holder =>
      (adds_eval cs scope pure key quiet').bind_undone fun k =>
        (Run.undone_writeKey hears holder k v).bind fun _ => Run.unfailing_pure _
  | pipe input n args _, v, ⟨quiet, quiet', _⟩ => by
    rw [assignTo]
    refine (Run.adds_converter cs n).bind_undone fun c =>
      (adds_evalList cs scope pure args quiet').bind_undone fun values => ?_
    have converted : (Run.convert env c .fromView v values).Adds := (pure c _ _ _).map _
    exact converted.bind_undone fun v => undone_assignTo pure hears cs scope input v quiet
  | chain _, _, _ | conditional _ _ _, _, _ | binary _ _ _, _, _ | negate _ _, _, _
  | primitive _, _, _ | string _, _, _ | array _, _, _ | object _ _, _, _ => by
    rw [assignTo] <;> first | exact (Run.adds_fail _).undone | simp
  | assign _ _, _, quiet | callName _ _, _, quiet | callMember _ _ _, _, quiet
  | call _ _, _, quiet => quiet.elim

/-- **An assignment that fails changes nothing.**  Nothing is assigned or called in the expression,
converters only make new things, and those who are told of a splice do not fail.  If assigning
through the expression fails then there may be new objects and arrays, but all that was there before
is as it was: every object and array, with the records that wait, and the queues of work. -/
theorem failed_assignment_adds {env : Env η} {cs : Converters} {scope : Scope} {e : Expr}
    (quiet : e.Quiet) (pure : env.Pure)
    (hears : ∀ h splice, (env.fire h (.spliced splice)).Unfailing) {v : Value} {w w' : World η}
    {cause : BindingError} (failed : e.assignTo env cs scope v w = (.error cause, w')) :
    w.Adds w' :=
  Expr.undone_assignTo pure hears cs scope e v quiet failed

/-! ### A form -/

namespace Form

/-- A view model whose user is a text. -/
def form : World Unit :=
  (((World.new .standard ()).newObject [("user", .string "Ada")]).2.newLevel (.object ⟨0⟩)).2

/-- The city of the address of the user, through a pipe. -/
def city : Expr := .piped (.member (.member (.name "user") "address") "city") "same" []

/-- The city is assigned a value. -/
def assign : Run Unit Value :=
  city.assignTo (machine Host.silent 1 1) (.given [("same", ⟨"same"⟩)]) (.root ⟨.object ⟨0⟩, ⟨1⟩⟩)
    (.string "Paris")

/-- A text takes no address, so the address that was made for the city is put nowhere. -/
theorem homeless : ∃ cause w', city.Quiet ∧ (machine (η := Unit) Host.silent 1 1).Pure ∧
    (∀ h splice, ((machine (η := Unit) Host.silent 1 1).fire h (.spliced splice)).Unfailing) ∧
    assign form = (.error cause, w') ∧ w'.objects.size = form.objects.size + 1 ∧ form.Adds w' := by
  have quiet : city.Quiet := by simp [city, Expr.piped, Expr.Quiet, Expr.AllQuiet]
  have pure : (machine (η := Unit) Host.silent 1 1).Pure := fun _ _ _ _ w => .refl w
  have hears : ∀ h splice,
      ((machine (η := Unit) Host.silent 1 1).fire h (.spliced splice)).Unfailing :=
    fun _ _ => Run.unfailing_pure ()
  obtain ⟨cause, w', failed, more⟩ : ∃ cause w', assign form = (.error cause, w') ∧
      w'.objects.size = form.objects.size + 1 := ⟨_, _, rfl, rfl⟩
  exact ⟨cause, w', quiet, pure, hears, failed, more,
    failed_assignment_adds quiet pure hears failed⟩

end Form

end ViewBinding
