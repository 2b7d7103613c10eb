import ViewBinding.Proofs.Custody.Unbound

/-!
# Custody — what a bound binding is connected to

`Gives y b x w` says that `y` is run in the course of `x` from `w`, and gives `b`.  `x.Linked` says of a
binding that in the course of `x` its expression was connected in a scope, and the binding subscribed to
the observer that this has given.

While nobody binds or unbinds a binding in the middle of something else that is done with it
(`World.Spared`), whatever the binding keeps was linked in the scope that it is bound to, and once it is
unbound it keeps nothing, whichever way it works (`Run.Leaves`).  All operations on bindings leave it so
(`leaves_connectBinding`, `leaves_bindTo`, `leaves_unbind`), and hence what is made of them
(`Run.Deals`).
-/

namespace ViewBinding

variable {η α β : Type}

/-! ### In the course of a run -/

namespace Run

/-- In the course of `x` from `w` the computation `y` is run, and gives `b`. -/
inductive Gives {β : Type} (y : Run η β) (b : β) : {α : Type} → Run η α → World η → Prop
  | itself {v v' : World η} (ran : y v = (.ok b, v')) : Gives y b y v
  | first {α γ : Type} {x : Run η α} {f : α → Run η γ} {w : World η} (h : Gives y b x w) :
      Gives y b (x >>= f) w
  | next {α γ : Type} {x : Run η α} {f : α → Run η γ} {w w' : World η} {a : α}
      (ran : x w = (.ok a, w')) (h : Gives y b (f a) w') : Gives y b (x >>= f) w
  | attempt {α : Type} {x : Run η α} {w : World η} (h : Gives y b x w) : Gives y b x.attempt w
  | ensuring {α : Type} {x : Run η α} {f : World η → World η} {w : World η} (h : Gives y b x w) :
      Gives y b (ensuring x f) w

/-- In the course of `x` from `w` an expression is connected in a scope for a binding, and the binding
subscribed, by `s`, to the observer that this has given. -/
def Linked (b : Ref .binding) (x : Run η α) (w : World η) (scope : Scope) (e : Expr)
    (s : Ref .subscription) : Prop :=
  ∃ (env : Env η) (value : Value) (observer : Observer),
    Gives (e.connect env (.binding b) scope) ⟨value, some observer⟩ x w ∧
      Gives (env.subscribe observer (.source b)) s x w

/-- A computation that gives a result, and another one that may depend on what has been run. -/
theorem yields_bind_of_ran {x : Run η α} {f : α → Run η β} {w : World η}
    {post : β → World η → Prop} {fails : World η → Prop}
    (h : x.Yields w (fun a w' => x w = (.ok a, w') → (f a).Yields w' post fails) fails) :
    (x >>= f).Yields w post fails := by
  refine yields_bind.2 ?_
  unfold Yields at *
  split at h
  next ran => exact h ran
  · exact h
  · trivial

end Run

/-! ### What is kept -/

namespace World

variable {w w' w'' : World η} {b b' : Ref .binding}

/-- The subscription that a binding keeps with its source. -/
def sourceSubscription? (w : World η) (b : Ref .binding) : Option (Ref .subscription) :=
  (w.bindings.get? b).bind (·.sourceSubscription)

/-- The subscription that a binding keeps with its target. -/
def targetSubscription? (w : World η) (b : Ref .binding) : Option (Ref .subscription) :=
  (w.bindings.get? b).bind (·.targetSubscription)

/-- The expression of a binding. -/
def expression? (w : World η) (b : Ref .binding) : Option Expr :=
  (w.bindings.get? b).map (·.expression)

/-- If the binding is unbound it keeps nothing. -/
def IsIdle (w : World η) (b : Ref .binding) : Prop :=
  w.sourceOf? b = none → w.sourceSubscription? b = none ∧ w.targetSubscription? b = none

/-- The binding is there, and bound as it was. -/
structure Spared (b : Ref .binding) (w w' : World η) : Prop where
  source : w'.sourceOf? b = w.sourceOf? b
  expression : ∀ e, w.expression? b = some e → w'.expression? b = some e

theorem spared_of_get (same : w'.bindings.get? b = w.bindings.get? b) : Spared b w w' where
  source := by rw [sourceOf?, sourceOf?, same]
  expression e h := by rwa [expression?, same]

theorem ofBindings_spared (b : Ref .binding) : OfBindings (Spared (η := η) b) where
  aside same := spared_of_get (by rw [same])
  trans h h' := ⟨h'.source.trans h.source, fun e is => h'.expression e (h.expression e is)⟩

/-- A change of a binding that leaves its expression and its source alone. -/
theorem spared_modifyBinding (w : World η) {f : BindingCell → BindingCell}
    (expression : ∀ cell, (f cell).expression = cell.expression)
    (source : ∀ cell, (f cell).source = cell.source) : Spared b w (w.modifyBinding b' f) where
  source := by
    by_cases same : b = b'
    · subst same
      simp only [sourceOf?, modifyBinding, Store.get?_modify_self]
      cases w.bindings.get? b with
      | none => rfl
      | some cell => exact source cell
    · simp only [sourceOf?, modifyBinding, Store.get?_modify_of_ne f same]
  expression e is := by
    by_cases same : b = b'
    · subst same
      simp only [expression?, modifyBinding, Store.get?_modify_self, Option.map_map] at is ⊢
      rw [← is]
      exact congrArg (fun g => (w.bindings.get? b).map g) (funext expression)
    · simpa only [expression?, modifyBinding, Store.get?_modify_of_ne f same] using is

theorem bindings_of_canopy (same : w'.canopy = w.canopy) : w'.bindings = w.bindings :=
  congrArg (·.layer.bindings) same

/-- Unbinding another binding. -/
theorem get?_unbind_of_ne (w : World η) (other : b ≠ b') :
    (w.unbind b').bindings.get? b = w.bindings.get? b := by
  unfold unbind
  split
  · rfl
  · split
    · rfl
    · have idle : (w.modifyBinding b' fun cell =>
          { cell with
            source := none, sourceObserver := none, sourceSubscription := none,
            targetSubscription := none }).bindings.get? b = w.bindings.get? b :=
        Store.get?_modify_of_ne _ other
      dsimp only
      split
      all_goals exact (congrArg (Store.get? · b) (bindings_of_canopy (by simp))).trans idle

/-- What unbinding leaves of a binding. -/
theorem get?_unbind (w : World η) (b : Ref .binding) : (w.unbind b).bindings.get? b =
    (w.bindings.get? b).map fun cell =>
      if cell.source = none then cell else
        { cell with
          source := none, sourceObserver := none, sourceSubscription := none,
          targetSubscription := none } := by
  unfold unbind
  cases get : w.bindings.get? b with
  | none => exact get
  | some cell =>
    dsimp only
    split
    next unbound => rw [get, Option.map_some, if_pos (Option.isNone_iff_eq_none.1 unbound)]
    next bound =>
      have idle : (w.modifyBinding b fun cell =>
          { cell with
            source := none, sourceObserver := none, sourceSubscription := none,
            targetSubscription := none }).bindings.get? b = some _ :=
        (Store.get?_modify_self w.bindings b _).trans (congrArg (Option.map _) get)
      rw [Option.map_some, if_neg (bound ∘ Option.isNone_iff_eq_none.2)]
      split
      all_goals exact (congrArg (Store.get? · b) (bindings_of_canopy (by simp))).trans idle

end World

/-! ### What a run leaves -/

open World

/-- How a run of `x` from `w` to `w'` leaves a binding.  If the binding is unbound it keeps nothing, and
what it keeps it has kept before, or it was linked in the scope that it is bound to. -/
structure Run.Leaves (b : Ref .binding) (x : Run η α) (w w' : World η) : Prop where
  expression : ∀ e, w.expression? b = some e → w'.expression? b = some e
  idle : w'.IsIdle b
  linked : (w'.sourceOf? b = w.sourceOf? b ∧ w'.sourceSubscription? b = w.sourceSubscription? b) ∨
    ∀ s, w'.sourceSubscription? b = some s → ∃ scope e, w'.sourceOf? b = some scope ∧
      w'.expression? b = some e ∧ x.Linked b w scope e s

namespace Run

variable {env : Env η} {b b' : Ref .binding} {x : Run η α} {w w' w'' : World η}

namespace Leaves

theorem of_get (idle : w.IsIdle b) (same : w'.bindings.get? b = w.bindings.get? b) :
    x.Leaves b w w' where
  expression := (spared_of_get same).expression
  idle := by simpa only [IsIdle, sourceOf?, sourceSubscription?, targetSubscription?, same] using idle
  linked := .inl ⟨(spared_of_get same).source, by rw [sourceSubscription?, same]; rfl⟩

theorem of_canopy (idle : w.IsIdle b) (same : w'.canopy = w.canopy) : x.Leaves b w w' :=
  of_get idle (by rw [bindings_of_canopy same])

/-- A run in the course of another one. -/
theorem within {y : Run η β} {v : World η} (h : x.Leaves b w w')
    (expression : ∀ e, v.expression? b = some e → w.expression? b = some e)
    (source : w.sourceOf? b = v.sourceOf? b)
    (kept : w.sourceSubscription? b = v.sourceSubscription? b)
    (part : ∀ {γ : Type} {z : Run η γ} {c : γ}, Gives z c x w → Gives z c y v) :
    y.Leaves b v w' where
  expression e is := h.expression e (expression e is)
  idle := h.idle
  linked := h.linked.imp (fun same => ⟨same.1.trans source, same.2.trans kept⟩)
    fun linked s keeps => by
      obtain ⟨scope, e, bound, is, env, value, observer, connected, subscribed⟩ := linked s keeps
      exact ⟨scope, e, bound, is, env, value, observer, part connected, part subscribed⟩

theorem first {f : α → Run η β} (h : x.Leaves b w w') : (x >>= f).Leaves b w w' :=
  h.within (fun _ => id) rfl rfl .first

theorem attempt (h : x.Leaves b w w') : x.attempt.Leaves b w w' :=
  h.within (fun _ => id) rfl rfl .attempt

/-- One run after the other. -/
theorem next {f : α → Run η β} {a : α} (h : x.Leaves b w w') (ran : x w = (.ok a, w'))
    (h' : (f a).Leaves b w' w'') : (x >>= f).Leaves b w w'' where
  expression e is := h'.expression e (h.expression e is)
  idle := h'.idle
  linked := by
    obtain ⟨source, kept⟩ | linked := h'.linked
    · refine h.linked.imp (fun same => ⟨source.trans same.1, kept.trans same.2⟩) fun linked s keeps => ?_
      obtain ⟨scope, e, bound, is, env, value, observer, connected, subscribed⟩ :=
        linked s (kept.symm.trans keeps)
      exact ⟨scope, e, source.trans bound, h'.expression e is, env, value, observer,
        connected.first, subscribed.first⟩
    · refine .inr fun s keeps => ?_
      obtain ⟨scope, e, bound, is, env, value, observer, connected, subscribed⟩ := linked s keeps
      exact ⟨scope, e, bound, is, env, value, observer, connected.next ran, subscribed.next ran⟩

/-- A change that takes from a binding what it kept. -/
theorem of_none (expression : ∀ e, w.expression? b = some e → w'.expression? b = some e)
    (source : w'.sourceSubscription? b = none)
    (target : w'.sourceOf? b = none → w'.targetSubscription? b = none) :
    x.Leaves b w w' where
  expression := expression
  idle unbound := ⟨source, target unbound⟩
  linked := .inr fun s keeps => by cases source.symm.trans keeps

end Leaves

/-- Wherever the computation comes to an end from `w`, it leaves the binding so. -/
def LeavesFrom (b : Ref .binding) (w : World η) (x : Run η α) : Prop :=
  x.Yields w (fun _ w' => x.Leaves b w w') fun w' => x.Leaves b w w'

/-- Wherever the computation comes to an end, it leaves the binding so. -/
def LeavesLinked (b : Ref .binding) (x : Run η α) : Prop :=
  ∀ w, w.IsIdle b → x.LeavesFrom b w

end Run

/-- The callbacks leave the binding so. -/
structure Env.LeavesLinked (b : Ref .binding) (env : Env η) : Prop where
  call : ∀ f this args, (env.call f this args).LeavesLinked b
  convert : ∀ c direction v args, (env.convert c direction v args).LeavesLinked b
  fire : ∀ hook occasion, (env.fire hook occasion).LeavesLinked b
  announce : ∀ s new old, (env.announce s new old).LeavesLinked b
  subscribe : ∀ observer s, (env.subscribe observer s).LeavesLinked b
  late : env.late.LeavesLinked b

namespace Run

section
variable {b : Ref .binding} {x : Run η α} {w : World η} {env : Env η}

theorem LeavesFrom.bind {f : α → Run η β} (h : x.LeavesFrom b w)
    (h' : ∀ a w', x w = (.ok a, w') → x.Leaves b w w' → (f a).LeavesFrom b w') :
    (x >>= f).LeavesFrom b w :=
  yields_bind_of_ran (h.mono (fun a w' left ran =>
    (h' a w' ran left).mono (fun _ _ => left.next ran) fun _ => left.next ran) fun _ => .first)

theorem LeavesLinked.bind {f : α → Run η β} (h : x.LeavesLinked b)
    (h' : ∀ a, (f a).LeavesLinked b) : (x >>= f).LeavesLinked b := fun w idle => (h w idle).bind fun a w' _ left => h' a w' left.idle

theorem LeavesFrom.attempt (h : x.LeavesFrom b w) : x.attempt.LeavesFrom b w :=
  yields_attempt.2 (h.mono (fun _ _ => .attempt) fun _ left _ _ => left.attempt)

theorem LeavesLinked.attempt (h : x.LeavesLinked b) : x.attempt.LeavesLinked b :=
  fun w idle => (h w idle).attempt

theorem LeavesLinked.ensuring {f : World η → World η} (h : x.LeavesLinked b)
    (same : ∀ w, (f w).canopy = w.canopy) : (ensuring x f).LeavesLinked b := by
  intro w idle
  have left := h w idle
  have after : ∀ w', x.Leaves b w w' → (Run.ensuring x f).Leaves b w (f w') := fun w' left => by
    have same' : (f w').bindings.get? b = w'.bindings.get? b := by rw [bindings_of_canopy (same w')]
    have moved := left.within (y := Run.ensuring x f) (fun _ => id) rfl rfl .ensuring
    have still := Leaves.of_get (x := x) left.idle same'
    refine ⟨fun e is => still.expression e (moved.expression e is), still.idle, ?_⟩
    simpa only [sourceOf?, sourceSubscription?, expression?, same'] using moved.linked
  unfold LeavesFrom Yields at left ⊢
  unfold Run.ensuring at after ⊢
  generalize x w = result at left
  obtain ⟨a | cause | _ | _, w'⟩ := result
  · exact after w' left
  · exact after w' left
  · trivial
  · trivial

theorem leaves_update {f : World η → α × World η}
    (same : ∀ w, (f w).2.bindings.get? b = w.bindings.get? b) :
    (update f).LeavesLinked b := fun w idle => Leaves.of_get idle (same w)

theorem leaves_modify {f : World η → World η}
    (same : ∀ w, (f w).bindings.get? b = w.bindings.get? b) :
    (modify f).LeavesLinked b := leaves_update (f := fun w => ((), f w)) same

theorem leaves_read (f : World η → α) : (read f).LeavesLinked b :=
  leaves_update (f := fun w => (f w, w)) fun _ => rfl

theorem leaves_pure (a : α) : (Pure.pure a : Run η α).LeavesLinked b := leaves_read fun _ => a

theorem leaves_fail (cause : BindingError) : (fail cause : Run η α).LeavesLinked b :=
  fun _ idle => Leaves.of_get idle rfl

theorem leaves_cutOff : (cutOff : Run η α).LeavesLinked b := fun _ _ => trivial

theorem leaves_ite {c : Prop} [Decidable c] {x y : Run η α} (h : x.LeavesFrom b w)
    (h' : y.LeavesFrom b w) : (if c then x else y).LeavesFrom b w := by
  split
  · exact h
  · exact h'

/-- **What works beneath the bindings** leaves them as its callbacks do. -/
theorem Beneath.leaves (h : Beneath env x) (E : env.LeavesLinked b) : x.LeavesLinked b := by
  induction h with
  | step layer _ => exact leaves_update fun w => congrArg (·.bindings.get? b) (layer w)
  | inspect f =>
    intro w idle
    unfold LeavesFrom Yields
    dsimp only
    cases f w with
    | none => trivial
    | some a => exact Leaves.of_get idle rfl
  | fail cause => exact leaves_fail cause
  | breakOff => exact fun _ _ => trivial
  | cutOff => exact leaves_cutOff
  | call f this args => exact E.call f this args
  | convert c direction v args => exact E.convert c direction v args
  | fire hook occasion => exact E.fire hook occasion
  | announce s new old => exact E.announce s new old
  | subscribe observer s => exact E.subscribe observer s
  | bind _ _ first next => exact first.bind next
  | attempt _ ih => exact ih.attempt
  | ensuring _ same ih => exact ih.ensuring same

end

end Run

/-! ### Bindings -/

section
variable {w : World η} {b b' : Ref .binding}

theorem World.ofSources_spared (b : Ref .binding) : OfSources (Spared (η := η) b) where
  toOfBindings := ofBindings_spared b
  modify w _ _ same := spared_modifyBinding w (fun cell => (same cell).1) fun cell => (same cell).2

theorem World.spared_unbind (w : World η) (other : b ≠ b') : Spared b w (w.unbind b') :=
  spared_of_get (get?_unbind_of_ne w other)

/-- Making a binding. -/
theorem World.spared_newBinding (w : World η) (b : Ref .binding) (e : Ref .element)
    (property : String) (expression : Expr) (mode : Mode) :
    Spared b w (w.newBinding e property expression mode).2 := by
  have made := bindings_of_canopy (w.canopy_elementObserver e property)
  unfold newBinding
  generalize w.elementObserver e property = result at made
  obtain ⟨targetObserver, w'⟩ := result
  refine (ofBindings_spared b).trans ((ofBindings_spared b).aside made) ?_
  by_cases new : b = w'.bindings.next
  · subst new
    exact ⟨by simp [sourceOf?], fun e is => by simp [expression?] at is⟩
  · exact spared_of_get (Store.get?_alloc_of_ne _ new)

theorem World.expression?_unbind (w : World η) (b : Ref .binding) :
    (w.unbind b).expression? b = w.expression? b := by
  rw [expression?, expression?, get?_unbind, Option.map_map]
  congr 1
  funext cell
  exact (apply_ite BindingCell.expression ..).trans (ite_self _)

/-- Unbinding takes from a binding what it kept. -/
theorem World.IsIdle.unbind (idle : w.IsIdle b) : (w.unbind b).sourceSubscription? b = none ∧
    (w.unbind b).targetSubscription? b = none := by
  unfold IsIdle at idle
  rw [sourceOf?, sourceSubscription?, targetSubscription?] at idle
  rw [sourceSubscription?, targetSubscription?, get?_unbind]
  cases get : w.bindings.get? b with
  | none => exact ⟨rfl, rfl⟩
  | some cell =>
    rw [get] at idle
    by_cases unbound : cell.source = none
    · simpa [unbound] using idle unbound
    · simp [unbound]

end

namespace Run

section
variable {env : Env η} {b b' : Ref .binding} {x : Run η α} {w : World η}

theorem leaves_unbind (b' : Ref .binding) :
    (modify fun w : World η => w.unbind b').LeavesLinked b := by
  intro w idle
  by_cases other : b = b'
  · subst other
    exact .of_none (fun _ is => (expression?_unbind w b).trans is) idle.unbind.1
      fun _ => idle.unbind.2
  · exact .of_get idle (get?_unbind_of_ne w other)

theorem leaves_newBinding (e : Ref .element) (property : String) (expression : Expr) (mode : Mode) :
    (update fun w : World η => w.newBinding e property expression mode).LeavesLinked b := by
  intro w idle
  have made := bindings_of_canopy (w.canopy_elementObserver e property)
  unfold LeavesFrom
  refine yields_update.2 ?_
  unfold newBinding
  generalize w.elementObserver e property = result at made
  obtain ⟨targetObserver, w'⟩ := result
  by_cases new : b = w'.bindings.next
  · subst new
    refine .of_none (fun e is => ?_) ?_ fun _ => ?_
    · rw [expression?, ← made] at is
      simp at is
    · simp [sourceSubscription?]
    · simp [targetSubscription?]
  · exact .of_get idle ((Store.get?_alloc_of_ne _ new).trans (congrArg (Store.get? · b) made))

/-- A binding that is bound as it was and keeps what it kept from its source. -/
theorem Leaves.of_spared {w' : World η} (spared : Spared b w w') (bound : w.sourceOf? b ≠ none)
    (kept : w'.sourceSubscription? b = w.sourceSubscription? b) : x.Leaves b w w' where
  expression := spared.expression
  idle unbound := absurd (spared.source.symm.trans unbound) bound
  linked := .inl ⟨spared.source, kept⟩

/-- What a bound binding has been linked to is what it keeps. -/
theorem Leaves.of_linked {w' : World η} (cell : BindingCell) {scope : Scope}
    {s : Ref .subscription} (get : w'.bindings.get? b = some cell) (bound : cell.source = some scope)
    (kept : cell.sourceSubscription = some s) (is : w.expression? b = some cell.expression)
    (linked : x.Linked b w scope cell.expression s) : x.Leaves b w w' where
  expression e is' := by rw [expression?, get, ← is', is]; rfl
  idle unbound := by
    rw [sourceOf?, get] at unbound
    cases bound.symm.trans unbound
  linked := .inr fun s' keeps => by
    rw [sourceSubscription?, get] at keeps
    obtain rfl : s = s' := Option.some.inj (kept.symm.trans keeps)
    exact ⟨scope, cell.expression, by rw [sourceOf?, get]; exact bound,
      by rw [expression?, get]; rfl, linked⟩

/-- What another binding keeps. -/
theorem leaves_keepSource (other : b ≠ b') (observer : Observer) (s : Ref .subscription) :
    (keepSource b' observer s : Run η Unit).LeavesLinked b := by
  refine (leaves_read _).bind fun cell => ?_
  split
  · refine leaves_modify fun w => ?_
    rw [bindings_of_canopy (canopy_disposeOption _ _)]
    exact Store.get?_modify_of_ne _ other
  · exact leaves_modify fun w => by rw [bindings_of_canopy (w.canopy_dispose s)]

variable (moves : env.Moves (Spared b)) (E : env.LeavesLinked b)

include moves E

/-- Following what an expression has been connected to. -/
theorem leaves_follow {scope : Scope} {e : Expr} (idle : w.IsIdle b)
    (bound : b = b' → w.sourceOf? b = some scope ∧ w.expression? b = some e) :
    LeavesFrom b w (do
      let info ← e.connect env (.binding b') scope
      match info.observer with
      | some observer => keepSource b' observer (← env.subscribe observer (.source b'))
      | none => Pure.pure ()) := by
  have L := (ofBindings_spared (η := η) b).lenient
  have connects := beneath_connect env (.binding b') scope e
  by_cases other : b = b'
  · subst other
    obtain ⟨bound, is⟩ := bound rfl
    refine yields_bind_of_ran ((connects.leaves E w idle).mono (fun info w₁ left ran => ?_)
      fun _ left => left.first)
    have spared : Spared b w w₁ := ((connects.moves L moves).yields w).of_eq_ok ran
    obtain ⟨value, observer | observer⟩ := info
    · exact left.next ran (.of_get left.idle rfl)
    refine yields_bind_of_ran ((E.subscribe observer (.source b) w₁ left.idle).mono
      (fun s w₂ left' ran' => ?_) fun _ left' => left.next ran left'.first)
    have spared' : Spared b w₁ w₂ := ((moves.subscribe observer (.source b)).yields w₁).of_eq_ok ran'
    -- the binding is bound to the scope still, so it keeps what it has subscribed to
    have bound₂ : w₂.sourceOf? b = some scope := spared'.source.trans (spared.source.trans bound)
    have is₂ : w₂.expression? b = some e := spared'.expression e (spared.expression e is)
    refine yields_bind.2 (yields_read.2 ?_)
    obtain ⟨cell, get, source⟩ := Option.bind_eq_some_iff.1 bound₂
    obtain ⟨expression, element, property, mode, target, source', observer', previous, s'⟩ := cell
    obtain rfl : source' = some scope := source
    rw [expression?, get] at is₂
    obtain rfl : expression = e := Option.some.inj is₂
    rw [get]
    let cell : BindingCell := ⟨expression, element, property, mode, target, some scope,
      some observer, some s, s'⟩
    refine yields_modify.2 (.of_linked cell ?_ rfl rfl is
      ⟨env, value, observer, .first (.itself ran), .next ran (.first (.itself ran'))⟩)
    rw [bindings_of_canopy (canopy_disposeOption _ _)]
    exact (Store.get?_modify_self _ b _).trans (congrArg (Option.map _) get)
  · exact (connects.leaves E).bind (fun info => by
      split
      · exact (E.subscribe _ _).bind fun s => leaves_keepSource other _ s
      · exact leaves_pure ()) w idle

/-- **Connecting** a binding links it. -/
theorem leaves_connectBinding (b' : Ref .binding) (evaluate : Bool) :
    (connectBinding env b' evaluate).LeavesLinked b := by
  have L := (ofBindings_spared (η := η) b).lenient
  intro w idle
  refine (leaves_read _ w idle).bind fun cell w' ran _ => ?_
  cases ran
  split
  next e _ _ _ target scope _ _ _ get =>
    have get : w.bindings.get? b' = some _ := get
    have bound : b = b' → w.sourceOf? b = some scope ∧ w.expression? b = some e := by
      rintro rfl
      rw [sourceOf?, expression?, get]
      exact ⟨rfl, rfl⟩
    cases evaluate with
    | false =>
      refine (leaves_pure () w idle).bind fun _ w' ran left => ?_
      cases ran
      exact leaves_follow moves E idle bound
    | true =>
      have evals := beneath_eval env .registered scope e
      have writes : ∀ v, Beneath env (writeLeaf env target v) := beneath_writeLeaf target
      refine (evals.leaves E w idle).bind fun v w₁ ran left => ?_
      have spared := ((evals.moves L moves).yields w).of_eq_ok ran
      refine ((writes v).leaves E w₁ left.idle).bind fun _ w₂ ran' left' => ?_
      have spared' := L.trans spared ((((writes v).moves L moves).yields w₁).of_eq_ok ran')
      exact leaves_follow moves E left'.idle fun same =>
        ⟨spared'.source.trans (bound same).1, spared'.expression e (bound same).2⟩
  · exact leaves_pure () w idle

/-- **What connects** links. -/
theorem Joins.leaves (h : Joins env x) : x.LeavesLinked b := by
  induction h with
  | beneath h => exact h.leaves E
  | aside same => exact leaves_update fun w => congrArg (Store.get? · b) (same w)
  | connect b' evaluate => exact leaves_connectBinding moves E b' evaluate
  | late => exact E.late
  | bind _ _ first next => exact first.bind next
  | attempt _ h => exact h.attempt

/-- A subscription with the target is handed to a binding that is bound. -/
theorem leaves_subscribeTarget (idle : w.IsIdle b) (bound : b = b' → w.sourceOf? b ≠ none) :
    (subscribeTarget b' : Run η Unit).LeavesFrom b w := by
  have L := (ofBindings_spared (η := η) b).lenient
  refine (leaves_read _ w idle).bind fun cell w' ran _ => ?_
  cases ran
  split
  · exact leaves_pure () w idle
  next cell _ =>
    have subscribes : Beneath env (subscribeLeaf cell.targetObserver (.target b')) :=
      beneath_subscribeLeaf cell.targetObserver (.target b')
    refine (subscribes.leaves E w idle).bind fun s w₁ ran left => ?_
    have spared := ((subscribes.moves L moves).yields w).of_eq_ok ran
    refine (leaves_read _ w₁ left.idle).bind fun cell w' ran _ => ?_
    cases ran
    split
    · exact Leaves.of_canopy left.idle (w₁.canopy_dispose s)
    next previous _ =>
      let w₂ := w₁.modifyBinding b' fun cell => { cell with targetSubscription := some s }
      have same : (w₂.disposeOption previous).bindings = w₂.bindings :=
        bindings_of_canopy (by simp)
      have targets : Spared b w₁ w₂ := spared_modifyBinding w₁ (by exact fun _ => rfl) fun _ => rfl
      by_cases other : b = b'
      · subst other
        refine .of_spared (L.trans targets ((ofBindings_spared b).aside same)) ?_ ?_
        · exact fun unbound => bound rfl (spared.source.symm.trans unbound)
        · rw [sourceSubscription?, sourceSubscription?]
          change ((w₂.disposeOption previous).bindings.get? b).bind _ = _
          rw [same, show w₂.bindings.get? b = _ from Store.get?_modify_self _ b _]
          cases w₁.bindings.get? b <;> rfl
      · exact .of_get left.idle ((congrArg (Store.get? · b) same).trans
          (Store.get?_modify_of_ne _ other))

/-- What starting a binding ends with. -/
theorem leaves_mode (mode : Mode) (idle : w.IsIdle b) (bound : b = b' → w.sourceOf? b ≠ none) :
    LeavesFrom b w (match mode with
      | .oneTime => Pure.pure ()
      | .toView => enqueueConnect env b'
      | .twoWay => do
        connectBinding env b' false
        subscribeTarget b'
      | .fromView => subscribeTarget b') := by
  cases mode with
  | oneTime => exact leaves_pure () w idle
  | toView => exact (Joins.enqueueConnect b').leaves moves E w idle
  | twoWay =>
    refine (leaves_connectBinding moves E b' false w idle).bind fun _ w₁ ran left => ?_
    have spared := ((moves_connectBinding (World.ofSources_spared b) moves b' false).yields w).of_eq_ok
      ran
    exact leaves_subscribeTarget moves E left.idle fun same unbound =>
      bound same (spared.source.symm.trans unbound)
  | fromView => exact leaves_subscribeTarget moves E idle bound

theorem leaves_startBinding (cell : BindingCell) (scope : Scope) (idle : w.IsIdle b)
    (bound : b = b' → w.sourceOf? b ≠ none) :
    (startBinding env b' cell scope).LeavesFrom b w := by
  have L := (ofBindings_spared (η := η) b).lenient
  have evals := beneath_eval env .registered scope cell.expression
  have writes : ∀ v, Beneath env (writeLeaf env cell.targetObserver v) :=
    beneath_writeLeaf cell.targetObserver
  refine leaves_ite ?_ ?_
  · refine (evals.leaves E w idle).bind fun v w₁ ran left => ?_
    have spared := ((evals.moves L moves).yields w).of_eq_ok ran
    refine ((writes v).leaves E w₁ left.idle).bind fun _ w₂ ran' left' => ?_
    have spared' := L.trans spared ((((writes v).moves L moves).yields w₁).of_eq_ok ran')
    exact leaves_mode moves E cell.mode left'.idle fun same unbound =>
      bound same (spared'.source.symm.trans unbound)
  · refine (leaves_pure () w idle).bind fun _ w' ran _ => ?_
    cases ran
    exact leaves_mode moves E cell.mode idle bound

/-- **Binding** leaves a binding linked, or unbound again. -/
theorem leaves_bindTo (b' : Ref .binding) (scope : Scope) : (bindTo env b' scope).LeavesLinked b := by
  intro w idle
  refine (leaves_read _ w idle).bind fun cell w' ran _ => ?_
  cases ran
  split
  · exact leaves_pure () w idle
  next cell get =>
    have get : w.bindings.get? b' = some cell := get
    let w₁ := (w.unbind b').modifyBinding b' fun cell => { cell with source := some scope }
    have turned : w₁.bindings.get? b' = ((w.unbind b').bindings.get? b').map fun cell =>
        { cell with source := some scope } := Store.get?_modify_self _ b' _
    have bound : b = b' → w₁.sourceOf? b ≠ none := by
      rintro rfl
      rw [sourceOf?, turned, get?_unbind, get]
      exact Option.some_ne_none scope
    have left : (modify fun w : World η => (w.unbind b').modifyBinding b' fun cell =>
        { cell with source := some scope }).LeavesFrom b w := by
      by_cases other : b = b'
      · subst other
        refine .of_none (fun e is => ?_) ?_ fun unbound => absurd unbound (bound rfl)
        · change w₁.expression? b = some e
          rw [expression?, turned, Option.map_map]
          exact (expression?_unbind w b).trans is
        · change w₁.sourceSubscription? b = none
          rw [sourceSubscription?, turned, Option.bind_map]
          exact idle.unbind.1
      · exact .of_get idle ((Store.get?_modify_of_ne _ other).trans (get?_unbind_of_ne w other))
    refine left.bind fun _ w' ran left => ?_
    cases ran
    have start : ∀ (w₂ : World η) (goOn : Except BindingError Unit → Run η Unit),
        w₂.canopy = w₁.canopy → (∀ result, (goOn result).LeavesLinked b) →
          (attempt (startBinding env b' cell scope) >>= goOn).LeavesFrom b w₂ :=
      fun w₂ goOn same goesOn => by
      have still : Leaves b (Pure.pure () : Run η Unit) w₁ w₂ := .of_canopy left.idle same
      have bound₂ : b = b' → w₂.sourceOf? b ≠ none := fun is => by
        rw [sourceOf?, bindings_of_canopy same]
        exact bound is
      exact (leaves_startBinding moves E cell scope still.idle bound₂).attempt.bind
        fun result w₃ _ left => goesOn result w₃ left.idle
    -- a binding that fails to start is unbound again
    have goesOn := fun cause : BindingError => (leaves_unbind (b := b) b').bind
      fun _ => leaves_fail (η := η) (α := Unit) cause
    split
    · refine (leaves_modify (fun w => ?_) w₁ left.idle).bind fun _ w' ran _ => ?_
      · rw [bindings_of_canopy (canopy_bindSelect _ _)]
      · cases ran
        refine start _ _ (canopy_bindSelect _ _) fun result => ?_
        split
        · exact leaves_pure ()
        · exact goesOn _
    · refine (leaves_pure () w₁ left.idle).bind fun _ w' ran _ => ?_
      cases ran
      refine start _ _ rfl fun result => ?_
      split
      · exact leaves_pure ()
      · exact goesOn _

end

/-! ### Dealing with bindings -/

/-- The computation makes bindings, connects them, and binds and unbinds those that it may. -/
inductive Deals (may : Ref .binding → Prop) (env : Env η) : {α : Type} → Run η α → Prop
  | joins {α : Type} {x : Run η α} (h : Joins env x) : Deals may env x
  | newBinding (e : Ref .element) (property : String) (expression : Expr) (mode : Mode) :
      Deals may env (update (·.newBinding e property expression mode))
  | bindTo {b : Ref .binding} (h : may b) (scope : Scope) : Deals may env (bindTo env b scope)
  | unbind {b : Ref .binding} (h : may b) : Deals may env (modify (·.unbind b))
  | bind {α β : Type} {x : Run η α} {f : α → Run η β} (first : Deals may env x)
      (next : ∀ a, Deals may env (f a)) : Deals may env (x >>= f)
  | attempt {α : Type} {x : Run η α} (h : Deals may env x) : Deals may env x.attempt

namespace Deals

variable {may : Ref .binding → Prop} {env : Env η} {b : Ref .binding} {x : Run η α}

/-- **Dealing with other bindings** spares a binding. -/
theorem spares (h : Deals may env x) (not : ¬may b) (E : env.Moves (Spared b)) :
    x.Moves (Spared b) := by
  have S := ofSources_spared (η := η) b
  have other : ∀ {b'}, may b' → b ≠ b' := by
    rintro b' h rfl
    exact not h
  induction h with
  | joins h => exact h.moves S.toOfBindings E (moves_connectBinding S E)
  | newBinding e property expression mode =>
    exact fun w => w.spared_newBinding b e property expression mode
  | bindTo h scope =>
    exact moves_bindTo S E (fun w => w.spared_unbind (other h)) fun w =>
      spared_of_get (Store.get?_modify_of_ne _ (other h))
  | unbind h => exact fun w => w.spared_unbind (other h)
  | bind _ _ first next => exact first.bind S.lenient next
  | attempt _ h => exact h.attempt

/-- **Dealing with bindings** leaves a binding linked that the callbacks spare. -/
theorem leaves (h : Deals may env x) (moves : env.Moves (Spared b)) (E : env.LeavesLinked b) :
    x.LeavesLinked b := by
  induction h with
  | joins h => exact h.leaves moves E
  | newBinding e property expression mode => exact leaves_newBinding e property expression mode
  | bindTo _ scope => exact leaves_bindTo moves E _ scope
  | unbind _ => exact leaves_unbind _
  | bind _ _ first next => exact first.bind next
  | attempt _ h => exact h.attempt

end Deals

end Run

end ViewBinding
