import Mathlib.Data.List.Perm.Subperm
import ViewBinding.Proofs.Late.Runs
import ViewBinding.Proofs.Trap.Deeds

/-!
# Trap — an observer and its object

A `Bond` is about a property of an object and the observer whose trap is in its place.  The properties
of the object are written and removed, it is frozen, the observer is written through, and the
microtasks are flushed, in any order (`Bond.Act`).

`B.Holds told w` says that the trap is in place and that its observer has told the value `told` last.
Nothing but removing the property breaks that, and a frozen object does not lose it: every act keeps it
(`Holds.of_act`, `Holds.flush`).  So the object and its observer have the same value at any time, and
whatever has changed since the last flush is told by the next one (`Bond.stay_together`).

A property that is removed is undefined, while its observer goes on with the value that it had
(`Holds.together_remove_iff`).
-/

namespace ViewBinding

variable {η : Type}

/-- The hooks take note of what they are told, and leave objects, traps and tasks alone. -/
def Host.Noting (host : Host η) (notes : η → List Note) : Prop :=
  ∀ (env : Env η) (hook : Ref .hook) (new old : Value) (w : World η),
    (host.fire env hook (.changed new old)).Ends False w fun _ w' =>
      (w'.objects = w.objects ∧ w'.setters = w.setters ∧ w'.tasks = w.tasks) ∧
        notes w'.host = notes w.host ++ [⟨hook, new, old⟩]

namespace World

variable {w w' : World η} {o : Ref .object} {n : String} {r : Ref .setter} {cell : SetterCell}
  {rest : List Microtask}

/-- Traps and nothing else have something to tell, each of them once, and they tell hooks only. -/
structure TrapsOnly (w : World η) : Prop where
  hooks : ∀ r cell, w.setters.get? r = some cell →
    ∃ hooks : List (Ref .hook), cell.callbacks.newestFirst = hooks.map .hook
  queued : ∀ r, .setter r ∈ w.tasks.microtasks ↔
    ∃ cell, w.setters.get? r = some cell ∧ cell.queued = true
  tasks : ∀ task ∈ w.tasks.microtasks, ∃ r, task = .setter r
  once : w.tasks.microtasks.Nodup

namespace TrapsOnly

variable (h : w.TrapsOnly)
include h

theorem of_eq (setters : w'.setters = w.setters)
    (microtasks : w'.tasks.microtasks = w.tasks.microtasks) : w'.TrapsOnly where
  hooks := setters ▸ h.hooks
  queued := microtasks ▸ setters ▸ h.queued
  tasks := microtasks ▸ h.tasks
  once := microtasks ▸ h.once

/-- There are no more tasks than observers. -/
theorem length_le : w.tasks.microtasks.length ≤ w.setters.size := by
  have among : w.tasks.microtasks ⊆ (List.range w.setters.size).map fun i => .setter ⟨i⟩ := by
    intro task m
    obtain ⟨r, rfl⟩ := h.tasks task m
    obtain ⟨cell, there, -⟩ := (h.queued r).1 m
    exact List.mem_map.2 ⟨r.index, List.mem_range.2 (Store.index_lt_size_of_get? there), rfl⟩
  have few := (List.subperm_of_subset h.once among).length_le
  rwa [List.length_map, List.length_range] at few

theorem writeTrap (r : Ref .setter) (v : Value) : (w.writeTrap r v).TrapsOnly := by
  cases there : w.setters.get? r with
  | none => simpa only [World.writeTrap, there] using h
  | some cell =>
    rw [writeTrap_eq there]
    split
    · exact h
    have setters := setters_withCurrent there v (!cell.queued)
    have queued : .setter r ∈ w.tasks.microtasks ↔ cell.queued = true := by
      rw [h.queued, there]
      exact ⟨fun ⟨_, is, queued⟩ => Option.some.inj is ▸ queued, fun is => ⟨cell, rfl, is⟩⟩
    have mem : ∀ task, task ∈ (w.withCurrent r v (!cell.queued)).tasks.microtasks ↔
        task ∈ w.tasks.microtasks ∨ task = .setter r := fun task => by
      simp only [withCurrent, List.mem_append]
      cases is : cell.queued with
      | false => simp
      | true =>
        simp only [Bool.not_true, Bool.false_eq_true, if_false, List.not_mem_nil, or_false]
        exact ⟨.inl, fun m => m.elim id fun same => same ▸ queued.2 is⟩
    refine ⟨fun r' cell' there' => ?_, fun r' => ?_, fun task m => ?_, ?_⟩
    · rw [setters] at there'
      split at there'
      · cases there'
        exact h.hooks r cell there
      · exact h.hooks r' cell' there'
    · rw [mem, setters]
      split
      next same => simp [same]
      next other => simp [h.queued, other]
    · exact ((mem task).1 m).elim (h.tasks task) fun same => ⟨r, same⟩
    · simp only [withCurrent]
      cases is : cell.queued with
      | false =>
        refine h.once.append (List.nodup_singleton _) ?_
        simpa [is] using queued
      | true => simpa using h.once

/-- A microtask begins. -/
theorem withTaken (tasks : w.tasks.microtasks = .setter r :: rest)
    (there : w.setters.get? r = some cell) : (w.withTaken r rest).TrapsOnly := by
  have setters := setters_withTaken there rest
  have once := h.once
  rw [tasks, List.nodup_cons] at once
  refine ⟨fun r' cell' there' => ?_, fun r' => ?_,
    fun task m => h.tasks task (tasks ▸ List.mem_cons_of_mem _ m), once.2⟩
  · rw [setters] at there'
    split at there'
    · cases there'
      exact h.hooks r cell there
    · exact h.hooks r' cell' there'
  · rw [setters]
    change .setter r' ∈ rest ↔ _
    split
    next same => simp [same, once.1]
    next other =>
      rw [← h.queued, tasks, List.mem_cons]
      simp [other]

end TrapsOnly

end World

/-! ### Bonds -/

/-- A property of an object, the observer that traps it, the hooks that are subscribed, the newest
first, and how many trapping observers there may be. -/
structure Bond where
  object : Ref .object
  property : String
  setter : Ref .setter
  hooks : List (Ref .hook)
  observers : Nat

namespace Bond

/-- What is done with the object and the observer. -/
inductive Act where
  | set (n : String) (v : Value)
  | remove (n : String)
  | freeze
  /-- Writes through the observer. -/
  | write (v : Value)
  /-- Runs the microtasks. -/
  | flush

/-- Carries out an act. -/
def Act.run (env : Env η) (B : Bond) : Act → Run η Unit
  | set n v => Run.modify (·.set B.object n v)
  | remove n => discard (Run.update (·.remove B.object n))
  | freeze => Run.modify (·.freeze B.object)
  | write v => Run.writeLeaf env (.setter B.setter) v
  | flush => discard (Run.flushMicrotasks env)

/-- A property is not removed, unless the object is frozen before. -/
def Spares (n : String) : List Act → Prop
  | [] => True
  | .freeze :: _ => True
  | .remove m :: rest => m ≠ n ∧ Spares n rest
  | _ :: rest => Spares n rest

/-- The trap is in place and the observer, whose subscribers are those of the bond, has told a value
last.  Nobody listens for records of the object. -/
structure Holds (B : Bond) (told : Value) (w : World η) : Prop extends w.TrapsOnly where
  slot : w.slot? B.object B.property = some (.trap B.setter)
  there : ∃ cell, w.setters.get? B.setter = some cell ∧ cell.observing = true ∧
    cell.callbacks.newestFirst = B.hooks.map .hook ∧
    told = if cell.queued then cell.old else cell.current
  unheard : ∀ cell, w.objects.get? B.object = some cell → cell.listeners.isEmpty
  observers : w.setters.size ≤ B.observers

variable {B : Bond} {told : Value} {w w' w'' : World η} {r : Ref .setter} {cell : SetterCell}
  {rest : List Microtask} {host : Host η} {notes : η → List Note} {rounds depth : Nat}

theorem Holds.get_eq (H : B.Holds told w) (there : w.setters.get? B.setter = some cell) :
    w.get B.object B.property = cell.current := by
  simp only [World.get, H.slot, World.slotValue, there, Option.map_some, Option.getD_some]

/-- **The observer has the value that the property has.** -/
theorem Holds.together (H : B.Holds told w) :
    w.leafValue (.setter B.setter) = w.get B.object B.property := by
  obtain ⟨cell, there, observing, -⟩ := H.there
  rw [H.get_eq there]
  simp only [World.leafValue, there, observing, if_true]

/-- What happens between flushes. -/
structure Goes (B : Bond) (told : Value) (w w' : World η) : Prop where
  holds : B.Holds told w'
  waits : .setter B.setter ∈ w.tasks.microtasks → .setter B.setter ∈ w'.tasks.microtasks
  flushing : w'.tasks.flushing = w.tasks.flushing
  frozen : w.isFrozen B.object = true → w'.isFrozen B.object = true

namespace Goes

theorem refl (H : B.Holds told w) : B.Goes told w w := ⟨H, id, rfl, id⟩

theorem trans (h : B.Goes told w w') (h' : B.Goes told w' w'') : B.Goes told w w'' :=
  ⟨h'.holds, h'.waits ∘ h.waits, h'.flushing.trans h.flushing, h'.frozen ∘ h.frozen⟩

end Goes

/-! ### Between flushes -/

namespace Holds

variable (H : B.Holds told w)
include H

/-- A write through any trap. -/
theorem goes_writeTrap (r : Ref .setter) (v : Value) : B.Goes told w (w.writeTrap r v) := by
  cases there : w.setters.get? r with
  | none =>
    simp only [World.writeTrap, there]
    exact .refl H
  | some cell =>
    have traps := H.toTrapsOnly.writeTrap r v
    rw [World.writeTrap_eq there] at traps ⊢
    split
    · exact .refl H
    next differs =>
      rw [if_neg differs] at traps
      refine ⟨⟨traps, H.slot, ?_, H.unheard, ?_⟩, fun m => List.mem_append_left _ m, rfl, id⟩
      · obtain ⟨c, there', observing, subscribed, is⟩ := H.there
        rw [World.setters_withCurrent there]
        split
        next same =>
          rw [same, there] at there'
          cases there'
          refine ⟨_, rfl, observing, subscribed, ?_⟩
          rw [is]
          cases cell.queued <;> rfl
        · exact ⟨c, there', observing, subscribed, is⟩
      · exact Nat.le_trans (Nat.le_of_eq Array.size_modify) H.observers

/-- A change of the object that leaves the trap in place. -/
theorem goes_modifyObject {f : ObjectCell → ObjectCell}
    (slot : (w.modifyObject B.object f).slot? B.object B.property = some (.trap B.setter))
    (unheard : ∀ c, (f c).listeners = c.listeners) (frozen : ∀ c, c.frozen → (f c).frozen) :
    B.Goes told w (w.modifyObject B.object f) := by
  refine ⟨⟨H.toTrapsOnly.of_eq rfl rfl, slot, H.there, fun cell get => ?_, H.observers⟩, id, rfl,
    fun is => ?_⟩
  · simp only [World.modifyObject, Store.get?_modify_self] at get
    obtain ⟨c, before, rfl⟩ := Option.map_eq_some_iff.1 get
    rw [unheard]
    exact H.unheard c before
  · simp only [World.isFrozen, World.modifyObject, Store.get?_modify_self] at is ⊢
    cases get : w.objects.get? B.object with
    | none => simp [get] at is
    | some c =>
      simp only [get, Option.map_some, Option.getD_some] at is ⊢
      exact frozen c is

theorem live : w.objects.contains B.object = true := World.contains_of_slot? H.slot

/-- Writing a property, also another one. -/
theorem goes_set (n : String) (v : Value) : B.Goes told w (w.set B.object n v) := by
  refine World.set_keeps (.refl H) (fun r _ => H.goes_writeTrap r v) (fun slot untrapped _ => ?_)
    fun w' change G => ?_
  · have other : B.property ≠ n := by
      rintro rfl
      exact untrapped _ H.slot
    refine H.goes_modifyObject ?_ (fun _ => rfl) fun _ => id
    exact (World.slot?_putSlot w _ _ _ _ slot).trans ((if_neg fun h => other h.2.1).trans H.slot)
  · rwa [World.record_of_unheard G.holds.unheard]

/-- Removing another property, or removing it from a frozen object. -/
theorem goes_remove {n : String} (spared : w.isFrozen B.object = true ∨ n ≠ B.property) :
    B.Goes told w (w.remove B.object n).2 := by
  obtain frozen | other := spared
  · rw [World.remove, if_pos frozen]
    exact .refl H
  · refine World.remove_keeps (.refl H) ?_ fun w' change G => ?_
    · refine H.goes_modifyObject ?_ (fun _ => rfl) fun _ => id
      exact (World.slot?_withProperties (w := w) (o := B.object) (n := n)
        (fun slots n' => Entries.get?_erase_of_ne slots) B.object B.property
        fun h => other h.2.symm).trans H.slot
    · rwa [World.record_of_unheard G.holds.unheard]

theorem goes_freeze : B.Goes told w (w.freeze B.object) := by
  have slots : (w.freeze B.object).slots B.object = w.slots B.object :=
    World.slots_modifyObject w B.object B.object fun _ => rfl
  have slot : (w.freeze B.object).slot? B.object B.property = some (.trap B.setter) := by
    rw [World.slot?_eq, slots, ← World.slot?_eq, H.slot]
  exact H.goes_modifyObject (f := fun cell => { cell with frozen := true }) slot (fun _ => rfl)
    fun _ _ => rfl

theorem isFrozen_freeze : (w.freeze B.object).isFrozen B.object = true := by
  obtain ⟨c, get⟩ := Option.isSome_iff_exists.1 H.live
  simp only [World.isFrozen, World.freeze, World.modifyObject, Store.get?_modify_self, get,
    Option.map_some, Option.getD_some]

/-- **An act** that is no flush keeps the bond, unless it removes the property. -/
theorem of_act {act : Act} {acts : List Act} (env : Env η) (calm : act ≠ .flush)
    (spares : w.isFrozen B.object = true ∨ Spares B.property (act :: acts)) :
    (act.run env B).Ends False w fun _ w' => B.Goes told w w' ∧
      (w'.isFrozen B.object = true ∨ Spares B.property acts) := by
  have frozen : ∀ {w'}, B.Goes told w w' → (w.isFrozen B.object = true ∨ Spares B.property acts) →
      B.Goes told w w' ∧ (w'.isFrozen B.object = true ∨ Spares B.property acts) :=
    fun G spares => ⟨G, spares.imp_left G.frozen⟩
  cases act with
  | set n v => exact frozen (H.goes_set n v) spares
  | remove n =>
    rw [Act.run, Run.ends_discard, Run.ends_update]
    exact frozen (H.goes_remove (spares.imp_right And.left)) (spares.imp_right And.right)
  | freeze => exact ⟨H.goes_freeze, .inl H.isFrozen_freeze⟩
  | write v =>
    rw [Act.run, Run.writeLeaf_setter, Run.ends_modify]
    obtain ⟨cell, there, observing, -⟩ := H.there
    simp only [World.writeSetter, there, observing, if_true]
    exact frozen (H.goes_writeTrap B.setter v) spares
  | flush => exact absurd rfl calm

end Holds

/-! ### Flushes -/

/-- Telling hooks makes a note for each of them, and leaves the rest alone. -/
theorem announces (noting : host.Noting notes) (new old : Value) (hooks : List (Ref .hook)) :
    ∀ {w : World η}, ((machine host rounds (depth + 2)).announceAll (hooks.map .hook) new old).Ends
      False w fun _ w' => (w'.objects = w.objects ∧ w'.setters = w.setters ∧ w'.tasks = w.tasks) ∧
        notes w'.host = notes w.host ++ hooks.map (⟨·, new, old⟩) := by
  induction hooks with
  | nil => exact ⟨⟨rfl, rfl, rfl⟩, (List.append_nil _).symm⟩
  | cons hook rest ih =>
    intro w
    obtain ⟨⟨⟩, w₁, fired, ⟨objects, setters, tasks⟩, noted⟩ :=
      (noting (machine host rounds depth) hook new old w).exists_eq_ok
    -- a machine fires hooks in the machine below it
    have told : ((machine host rounds (depth + 2)).announce (.hook hook) new old) w = (.ok (), w₁) :=
      fired
    rw [Env.announceAll, List.map_cons, Run.ends_forEach_cons, Run.ends_of_eq_ok told]
    refine ih.mono ?_
    rintro _ w₂ ⟨⟨objects', setters', tasks'⟩, noted'⟩
    refine ⟨⟨objects'.trans objects, setters'.trans setters, tasks'.trans tasks⟩, ?_⟩
    rw [noted', noted, List.append_assoc]
    rfl

namespace Holds

theorem of_eq (H : B.Holds told w) (objects : w'.objects = w.objects)
    (setters : w'.setters = w.setters) (microtasks : w'.tasks.microtasks = w.tasks.microtasks) :
    B.Holds told w' where
  toTrapsOnly := H.toTrapsOnly.of_eq setters microtasks
  slot := by
    simp only [World.slot?, objects]
    exact H.slot
  there := setters ▸ H.there
  unheard := objects ▸ H.unheard
  observers := setters ▸ H.observers

/-- A microtask begins: what it tells counts as told. -/
theorem withTaken (H : B.Holds told w) (tasks : w.tasks.microtasks = .setter r :: rest)
    (there : w.setters.get? r = some cell) :
    B.Holds (if r = B.setter then cell.current else told) (w.withTaken r rest) := by
  refine ⟨H.toTrapsOnly.withTaken tasks there, H.slot, ?_, H.unheard,
    Nat.le_trans (Nat.le_of_eq Array.size_modify) H.observers⟩
  obtain ⟨c, there', observing, subscribed, is⟩ := H.there
  rw [World.setters_withTaken there]
  by_cases same : r = B.setter
  · subst same
    rw [there] at there'
    cases there'
    exact ⟨_, if_pos rfl, observing, subscribed, if_pos rfl⟩
  · rw [if_neg (Ne.symm same), if_neg same]
    exact ⟨c, there', observing, subscribed, is⟩

/-- When nothing is queued, the value has been told. -/
theorem told_eq (H : B.Holds told w) (idle : .setter B.setter ∉ w.tasks.microtasks) :
    told = w.get B.object B.property := by
  obtain ⟨cell, there, -, -, is⟩ := H.there
  have unqueued : cell.queued = false := by
    simpa only [H.queued, there, Option.some.injEq, exists_eq_left', Bool.not_eq_true] using idle
  rw [H.get_eq there, is, unqueued, if_neg Bool.false_ne_true]

end Holds

/-- What a flush has done from `w₀` on: the observer has told its subscribers the value, or its microtask
still waits. -/
structure Flushing (B : Bond) (notes : η → List Note) (told : Value) (w₀ w : World η) : Prop where
  holds : ∃ now, B.Holds now w ∧ (.setter B.setter ∈ w.tasks.microtasks → now = told)
  get : w.get B.object B.property = w₀.get B.object B.property
  frozen : w.isFrozen B.object = w₀.isFrozen B.object
  tally : ∃ new, notes w.host = notes w₀.host ++ new ∧
    (.setter B.setter ∈ w₀.tasks.microtasks → .setter B.setter ∈ w.tasks.microtasks ∨
      (B.hooks.map (⟨·, w₀.get B.object B.property, told⟩)).Sublist new)

/-- A microtask tells those who are subscribed to its observer. -/
theorem Flushing.runMicrotask {w₀ : World η} (F : B.Flushing notes told w₀ w)
    (noting : host.Noting notes) {task : Microtask} (tasks : w.tasks.microtasks = task :: rest) :
    (Run.runMicrotask (machine host rounds (depth + 2)) task).Ends False
      { w with tasks := { w.tasks with microtasks := rest } } fun _ w' =>
        w'.tasks.microtasks = rest ∧ B.Flushing notes told w₀ w' := by
  obtain ⟨now, H, waiting⟩ := F.holds
  obtain ⟨r, rfl⟩ := H.tasks task (tasks ▸ List.mem_cons_self)
  obtain ⟨cell, there, queued⟩ := (H.queued r).1 (tasks ▸ List.mem_cons_self)
  obtain ⟨hooks, subscribed⟩ := H.hooks r cell there
  simp only [Run.runMicrotask, Run.tellSetter, Run.ends_bind, Run.ends_read, there, Run.ends_modify,
    Env.notify, subscribed]
  change ((machine host rounds (depth + 2)).announceAll (hooks.map .hook) cell.current cell.old).Ends
    False (w.withTaken r rest) _
  refine (announces noting cell.current cell.old hooks).mono ?_
  rintro _ w' ⟨⟨objects, setters, queue⟩, noted⟩
  have microtasks : w'.tasks.microtasks = rest := congrArg TaskQueue.microtasks queue
  have H' : B.Holds _ w' := (H.withTaken tasks there).of_eq objects setters microtasks
  have get : w'.get B.object B.property = w.get B.object B.property := by
    have slots : ∀ o n, (w.withTaken r rest).slot? o n = w.slot? o n := fun _ _ => rfl
    have values : ∀ slot, (w.withTaken r rest).slotValue slot = w.slotValue slot := fun slot => by
      cases slot with
      | trap r' => exact congrArg (Option.getD · _) (Store.map_get?_modify _ _ _ fun _ => rfl)
      | _ => rfl
    exact ((World.Holds.of_eq objects setters).get _ _).trans (World.get_congr slots values _ _)
  obtain ⟨new, noted₀, tally⟩ := F.tally
  have fresh := (List.nodup_cons.1 (tasks ▸ H.once)).1
  refine ⟨microtasks, ⟨_, H', fun m => ?_⟩, get.trans F.get, ?_,
    new ++ hooks.map (⟨·, cell.current, cell.old⟩), ?_, fun m => ?_⟩
  · rw [microtasks] at m
    rw [if_neg (by rintro rfl; exact fresh m)]
    exact waiting (tasks ▸ List.mem_cons_of_mem _ m)
  · refine .trans ?_ F.frozen
    simp only [World.isFrozen, objects]
    rfl
  · rw [noted, ← List.append_assoc, ← noted₀]
    rfl
  · rw [microtasks]
    obtain waits | told := tally m
    · obtain same | later := List.mem_cons.1 (tasks ▸ waits)
      · -- it is the microtask of the observer itself
        cases same
        obtain ⟨c, there', -, subscribed', is⟩ := H.there
        rw [there] at there'
        cases there'
        obtain rfl : hooks = B.hooks :=
          List.map_injective_iff.2 (fun _ _ => Subscriber.hook.inj) (subscribed.symm.trans subscribed')
        rw [← F.get, H.get_eq there, ← waiting waits, is, if_pos queued]
        exact .inr (List.sublist_append_right _ _)
      · exact .inl later
    · exact .inr (told.trans (List.sublist_append_left _ _))

/-- **A flush** tells the value to all who are subscribed, if it waits to be told. -/
theorem Holds.flush (H : B.Holds told w) (rests : w.tasks.flushing = false)
    (noting : host.Noting notes) (enough : B.observers < rounds) :
    (Run.flushMicrotasks (machine host rounds (depth + 2))).Ends False w fun _ w' =>
      B.Holds (w'.get B.object B.property) w' ∧ w'.tasks.flushing = false ∧
        (w.isFrozen B.object = true → w'.isFrozen B.object = true) ∧
        ∃ new, notes w'.host = notes w.host ++ new ∧
          (.setter B.setter ∈ w.tasks.microtasks →
            (B.hooks.map (⟨·, w.get B.object B.property, told⟩)).Sublist new) := by
  have few := Nat.le_trans H.length_le H.observers
  rw [Run.ends_flush rests]
  refine (Run.ends_drainMicrotasks (fun tasks w' => w'.tasks.microtasks = tasks ∧
    B.Flushing notes told w w') (fun _ _ h => h.1) (fun task rest w₁ h => ?_)
    w.tasks.microtasks (Run.markFlushing true w) _ 0 ⟨rfl, ⟨told, H.of_eq rfl rfl rfl, fun _ => rfl⟩,
      rfl, rfl, [], (List.append_nil _).symm, .inl⟩ fun less => ?_).mono ?_
  · exact h.2.runMicrotask noting h.1
  · change rounds ≤ _ at less
    omega
  · rintro _ w₁ ⟨-, idle, F⟩
    obtain ⟨now, H₁, -⟩ := F.holds
    obtain ⟨new, noted, tally⟩ := F.tally
    have told₁ := H₁.told_eq (idle ▸ List.not_mem_nil)
    refine ⟨?_, rfl, fun frozen => F.frozen.trans frozen, new, noted, fun m => ?_⟩
    · exact (told₁ ▸ H₁).of_eq rfl rfl rfl
    · exact (tally m).resolve_left (idle ▸ List.not_mem_nil)

/-! ### Runs -/

/-- Carries out one act after the other. -/
def run (env : Env η) (B : Bond) (acts : List Act) : Run η Unit := Run.forEach acts (Act.run env B)

/-- Acts between flushes keep the bond. -/
theorem Holds.goes (env : Env η) {more : List Act} : ∀ {acts : List Act} {w : World η},
    B.Holds told w → .flush ∉ acts →
    (w.isFrozen B.object = true ∨ Spares B.property (acts ++ more)) →
      (run env B acts).Ends False w fun _ w' => B.Goes told w w' ∧
        (w'.isFrozen B.object = true ∨ Spares B.property more)
  | [], w, H, _, spares => ⟨.refl H, spares⟩
  | act :: acts, w, H, calm, spares => by
    rw [List.mem_cons, not_or] at calm
    rw [run, Run.ends_forEach_cons]
    refine (H.of_act env (Ne.symm calm.1) spares).mono ?_
    rintro _ w₁ ⟨G, spares⟩
    refine (Holds.goes env G.holds calm.2 spares).mono ?_
    rintro _ w' ⟨G', spares⟩
    exact ⟨G.trans G', spares⟩

/-- **All acts** keep the bond. -/
theorem Holds.runs (noting : host.Noting notes) (enough : B.observers < rounds)
    {more : List Act} : ∀ {acts : List Act} {told : Value} {w : World η},
    B.Holds told w → w.tasks.flushing = false →
    (w.isFrozen B.object = true ∨ Spares B.property (acts ++ more)) →
      (run (machine host rounds (depth + 2)) B acts).Ends False w fun _ w' =>
        (∃ told, B.Holds told w') ∧ w'.tasks.flushing = false ∧
          (w'.isFrozen B.object = true ∨ Spares B.property more)
  | [], told, w, H, rests, spares => ⟨⟨told, H⟩, rests, spares⟩
  | act :: acts, told, w, H, rests, spares => by
    rw [run, Run.ends_forEach_cons]
    by_cases flush : act = .flush
    · subst flush
      rw [Act.run, Run.ends_discard]
      refine (H.flush rests noting enough).mono ?_
      rintro _ w₁ ⟨H₁, rests₁, frozen, -⟩
      exact Holds.runs noting enough H₁ rests₁ (spares.imp_left frozen)
    · refine (H.of_act _ flush spares).mono ?_
      rintro _ w₁ ⟨G, spares₁⟩
      exact Holds.runs noting enough G.holds (G.flushing.trans rests) spares₁

/-- After a flush, or in the beginning, the value has been told. -/
theorem Holds.settles (noting : host.Noting notes) (enough : B.observers < rounds)
    (H : B.Holds (w.get B.object B.property) w) (rests : w.tasks.flushing = false)
    {acts more : List Act} (settled : acts = [] ∨ acts.getLast? = some .flush)
    (spares : w.isFrozen B.object = true ∨ Spares B.property (acts ++ more)) :
    (run (machine host rounds (depth + 2)) B acts).Ends False w fun _ w' =>
      B.Holds (w'.get B.object B.property) w' ∧ w'.tasks.flushing = false ∧
        (w'.isFrozen B.object = true ∨ Spares B.property more) := by
  obtain rfl | last := settled
  · exact ⟨H, rests, spares⟩
  obtain ⟨acts, rfl⟩ := List.getLast?_eq_some_iff.1 last
  rw [List.append_assoc] at spares
  rw [run, Run.ends_forEach_append]
  refine (H.runs noting enough rests spares).mono ?_
  rintro _ w₁ ⟨⟨told, H₁⟩, rests₁, spares₁⟩
  rw [Run.ends_forEach_cons, Act.run, Run.ends_discard]
  refine (H₁.flush rests₁ noting enough).mono ?_
  rintro _ w' ⟨H', rests', frozen, -⟩
  exact ⟨H', rests', spares₁.imp_left frozen⟩

/-- **An observer and its object stay together**, unless the property is removed before the object is
frozen.  After any acts they have the same value.  If the value differs at some time from the one after
the last flush, then the next flush tells all who are subscribed the value, and the one after the last
flush as the old one. -/
theorem stay_together (noting : host.Noting notes) (deep : 2 ≤ depth)
    (enough : B.observers < rounds) (H : B.Holds (w.get B.object B.property) w)
    (rests : w.tasks.flushing = false) {before first second : List Act}
    (settled : before = [] ∨ before.getLast? = some .flush) (calm : .flush ∉ first ++ second)
    (spares : w.isFrozen B.object = true ∨ Spares B.property (before ++ (first ++ second))) :
    ∃ w₀ w₁ w₂ w₃ new, run (machine host rounds depth) B before w = (.ok (), w₀) ∧
      run (machine host rounds depth) B first w₀ = (.ok (), w₁) ∧
      run (machine host rounds depth) B second w₁ = (.ok (), w₂) ∧
      Act.flush.run (machine host rounds depth) B w₂ = (.ok (), w₃) ∧
      notes w₃.host = notes w₂.host ++ new ∧
      (∀ w ∈ [w₀, w₁, w₂, w₃], w.leafValue (.setter B.setter) = w.get B.object B.property) ∧
      (w₁.get B.object B.property ≠ w₀.get B.object B.property →
        (B.hooks.map (⟨·, w₂.get B.object B.property, w₀.get B.object B.property⟩)).Sublist new) := by
  obtain ⟨depth, rfl⟩ := Nat.exists_eq_add_of_le' deep
  rw [List.mem_append, not_or] at calm
  obtain ⟨⟨⟩, w₀, ran₀, H₀, rests₀, spares₀⟩ :=
    (H.settles noting enough rests settled spares).exists_eq_ok
  obtain ⟨⟨⟩, w₁, ran₁, G₁, spares₁⟩ :=
    (H₀.goes (machine host rounds (depth + 2)) calm.1 spares₀).exists_eq_ok
  rw [← List.append_nil second] at spares₁
  obtain ⟨⟨⟩, w₂, ran₂, G₂, -⟩ :=
    (G₁.holds.goes (machine host rounds (depth + 2)) calm.2 spares₁).exists_eq_ok
  obtain ⟨_, w₃, flushed, H₃, -, -, new, noted, told⟩ := (G₂.holds.flush
    (G₂.flushing.trans (G₁.flushing.trans rests₀)) noting enough).exists_eq_ok
  have ran₃ : Act.flush.run (machine host rounds (depth + 2)) B w₂ = (.ok (), w₃) :=
    Run.bind_eq_ok.2 ⟨_, w₃, flushed, rfl⟩
  refine ⟨w₀, w₁, w₂, w₃, new, ran₀, ran₁, ran₂, ran₃, noted, ?_, fun differs => told ?_⟩
  · simp only [List.forall_mem_cons, List.not_mem_nil, false_imp_iff, implies_true, and_true]
    exact ⟨H₀.together, G₁.holds.together, G₂.holds.together, H₃.together⟩
  · -- what has not been told waits, and goes on waiting until the flush
    refine G₂.waits (Classical.byContradiction fun idle => differs ?_)
    exact (G₁.holds.told_eq idle).symm

/-- **Removing the property parts them**, unless the object is frozen or the value undefined. -/
theorem Holds.together_remove_iff (H : B.Holds told w)
    (distinct : Entries.Distinct (w.slots B.object)) :
    (w.remove B.object B.property).2.leafValue (.setter B.setter) =
        (w.remove B.object B.property).2.get B.object B.property ↔
      w.isFrozen B.object = true ∨ w.get B.object B.property = .undefined := by
  cases frozen : w.isFrozen B.object with
  | true =>
    rw [World.remove, if_pos frozen]
    exact iff_of_true H.together (.inl rfl)
  | false =>
    let f (c : ObjectCell) := { c with properties := Entries.erase B.property c.properties }
    have removed : (w.remove B.object B.property).2 = w.modifyObject B.object f := by
      rw [World.remove, if_neg (by simp [frozen])]
      simp only [H.slot]
      refine World.record_of_unheard (fun cell get => ?_) _
      simp only [World.modifyObject, Store.get?_modify_self] at get
      obtain ⟨c, before, rfl⟩ := Option.map_eq_some_iff.1 get
      exact H.unheard c before
    have slots : (w.modifyObject B.object f).slots B.object =
        Entries.erase B.property (w.slots B.object) := by
      obtain ⟨c, get⟩ := Option.isSome_iff_exists.1 H.live
      simp only [World.slots, World.modifyObject, Store.get?_modify_self, get, Option.map_some,
        Option.getD_some, f]
    have gone : (w.modifyObject B.object f).get B.object B.property = .undefined := by
      simp only [World.get, World.slot?_eq, slots, distinct.get?_erase_self]
    have kept : (w.modifyObject B.object f).leafValue (.setter B.setter) =
        w.get B.object B.property := by
      obtain ⟨cell, there, observing, -⟩ := H.there
      have there' : (w.modifyObject B.object f).setters.get? B.setter = some cell := there
      rw [H.get_eq there]
      simp only [World.leafValue, there', observing, if_true]
    rw [removed, gone, kept]
    simp

/-! ### The first subscription -/

end Bond

namespace World

variable {w : World η} {r : Ref .setter}

/-- Where there is nothing, nothing is to be told. -/
theorem trapsOnly_new (config : Config) (host : η) : (World.new config host).TrapsOnly where
  hooks r _ there := nomatch (Store.get?_empty r).symm.trans there
  queued r := ⟨nofun, fun ⟨_, there, _⟩ => nomatch (Store.get?_empty r).symm.trans there⟩
  tasks := nofun
  once := .nil

theorem TrapsOnly.newObject (h : w.TrapsOnly) (properties : List (String × Value)) :
    (w.newObject properties).2.TrapsOnly := h.of_eq rfl rfl

/-- A new observer has nothing to tell, and nobody to tell it to. -/
theorem TrapsOnly.newSetter (h : w.TrapsOnly) (o : Ref .object) (n : String) :
    (w.newSetter o n).2.TrapsOnly := by
  have setters : ∀ r, (w.newSetter o n).2.setters.get? r =
      if r = w.setters.next then some { object := o, property := n } else w.setters.get? r :=
    Store.get?_alloc w.setters _
  refine ⟨fun r cell there => ?_, fun r => ?_, h.tasks, h.once⟩
  · rw [setters] at there
    split at there
    · cases there
      exact ⟨[], rfl⟩
    · exact h.hooks r cell there
  · refine (h.queued r).trans ?_
    rw [setters]
    split
    next new => simp [new]
    · rfl

/-- The first subscription to an observer that has nothing to tell makes a bond. -/
theorem TrapsOnly.holds_subscribe {cell : SetterCell} (traps : w.TrapsOnly)
    (there : w.setters.get? r = some cell)
    (idle : cell.observing = false) (willing : cell.refused = false)
    (live : w.objects.contains cell.object = true) (unfrozen : w.isFrozen cell.object = false)
    (unheard : ∀ c, w.objects.get? cell.object = some c → c.listeners.isEmpty)
    (unqueued : cell.queued = false) {hooks : List (Ref .hook)}
    (subscribed : cell.callbacks.newestFirst = hooks.map .hook) (hook : Ref .hook) :
    Bond.Holds ⟨cell.object, cell.property, r, hook :: hooks, w.setters.size⟩
      (w.get cell.object cell.property) (w.subscribeSetter r (.hook hook)).2 := by
  rw [subscribeSetter_of_idle there idle willing live unfrozen]
  have trapped := setters_withTrap (w := w.drawToken) there
  have setters : ∀ r', ((w.drawToken.withTrap r cell.object cell.property).withSetterCallback r
      ⟨w.nextToken⟩ (.hook hook)).setters.get? r' = _ :=
    setters_withSetterCallback ((trapped r).trans (if_pos rfl))
  have own := (setters r).trans (if_pos rfl)
  have others := fun r' (other : r' ≠ r) =>
    (setters r').trans ((if_neg other).trans ((trapped r').trans (if_neg other)))
  have heard : (cell.callbacks.add ⟨w.nextToken⟩ (.hook hook)).newestFirst =
      (hook :: hooks).map .hook := by
    rw [Listeners.newestFirst_add, subscribed, List.map_cons]
  refine ⟨⟨fun r' cell' there' => ?_, fun r' => ?_, traps.tasks, traps.once⟩,
    (slot?_withTrap (w := w.drawToken) live _ _).trans (if_pos ⟨rfl, rfl⟩),
    ⟨_, own, rfl, heard, by rw [unqueued]; rfl⟩, fun c get => ?_, ?_⟩
  · by_cases same : r' = r
    · subst same
      cases own.symm.trans there'
      exact ⟨_, heard⟩
    · exact traps.hooks r' cell' ((others r' same).symm.trans there')
  · refine (traps.queued r').trans ?_
    by_cases same : r' = r
    · subst same
      rw [own, there]
      simp
    · rw [others r' same]
      rfl
  · have changed : (w.drawToken.putSlot cell.object cell.property (.trap r)).objects.get?
        cell.object = some c := get
    simp only [putSlot, modifyObject, Store.get?_modify_self] at changed
    obtain ⟨c', before, rfl⟩ := Option.map_eq_some_iff.1 changed
    exact unheard c' before
  · exact Nat.le_of_eq (Array.size_modify.trans Array.size_modify)

end World

/-! ### A lantern -/

namespace Lantern

theorem noting_remembering : Late.remembering.Noting id := fun _ _ _ _ _ =>
  ⟨⟨rfl, rfl, rfl⟩, rfl⟩

/-- An object with an observer of its property. -/
def unlit : World (List Note) :=
  (((World.new { Config.standard with strategy := .setter } ([] : List Note)).newObject
    [("lit", .bool true)]).2.newSetter ⟨0⟩ "lit").2

/-- A hook is subscribed. -/
def lantern : World (List Note) := (unlit.subscribeSetter ⟨0⟩ (.hook ⟨7⟩)).2

/-- The bond of the property and its observer. -/
def bond : Bond := ⟨⟨0⟩, "lit", ⟨0⟩, [⟨7⟩], 1⟩

theorem holds_lantern : bond.Holds (lantern.get ⟨0⟩ "lit") lantern := by
  have traps : unlit.TrapsOnly := ((World.trapsOnly_new _ _).newObject _).newSetter _ _
  have there : unlit.setters.get? ⟨0⟩ = some { object := ⟨0⟩, property := "lit" } := rfl
  have nobody : (Listeners.empty : Listeners Subscriber).newestFirst =
      ([] : List (Ref .hook)).map .hook := rfl
  exact traps.holds_subscribe there rfl rfl rfl rfl (fun c get => by cases get; rfl) rfl nobody ⟨7⟩

/-- The lantern is put out, and the hook is told. -/
def before : List Bond.Act := [.set "lit" (.bool false), .flush]

/-- Somebody writes through the observer. -/
def first : List Bond.Act := [.write .null]

/-- Nobody gets at a lantern that is frozen. -/
def second : List Bond.Act := [.remove "oil", .freeze, .remove "lit", .set "lit" (.bool true)]

/-- What the observer has and what the next flush tells is what the lantern is. -/
theorem seen_alike : Late.remembering.Noting id ∧
    bond.Holds (lantern.get ⟨0⟩ "lit") lantern ∧ lantern.tasks.flushing = false ∧
    before.getLast? = some .flush ∧ .flush ∉ first ++ second ∧
    Bond.Spares "lit" (before ++ (first ++ second)) ∧
    ∃ w₀ w₁ w₂ w₃ new, bond.run (machine Late.remembering 2 2) before lantern = (.ok (), w₀) ∧
      bond.run (machine Late.remembering 2 2) first w₀ = (.ok (), w₁) ∧
      bond.run (machine Late.remembering 2 2) second w₁ = (.ok (), w₂) ∧
      Bond.Act.flush.run (machine Late.remembering 2 2) bond w₂ = (.ok (), w₃) ∧
      w₃.host = w₂.host ++ new ∧
      (∀ w ∈ [w₀, w₁, w₂, w₃], w.leafValue (.setter ⟨0⟩) = w.get ⟨0⟩ "lit") ∧
      [⟨⟨7⟩, .null, .bool false⟩].Sublist new := by
  have calm : .flush ∉ first ++ second := by simp [first, second]
  have spares : Bond.Spares "lit" (before ++ (first ++ second)) := by
    simp [before, first, second, Bond.Spares]
  obtain ⟨w₀, w₁, w₂, w₃, new, ran₀, ran₁, ran₂, ran₃, noted, alike, told⟩ :=
    Bond.stay_together noting_remembering (Nat.le_refl 2) (Nat.le_refl 2) holds_lantern rfl
      (.inr rfl) calm (.inr spares)
  have dark : (bond.run (machine Late.remembering 2 2) before lantern).2.get ⟨0⟩ "lit" =
      .bool false := rfl
  have spoilt : (bond.run (machine Late.remembering 2 2) first
      (bond.run (machine Late.remembering 2 2) before lantern).2).2.get ⟨0⟩ "lit" = .null := rfl
  have kept : (bond.run (machine Late.remembering 2 2) second
      (bond.run (machine Late.remembering 2 2) first
        (bond.run (machine Late.remembering 2 2) before lantern).2).2).2.get ⟨0⟩ "lit" = .null := rfl
  rw [ran₀] at dark spoilt kept
  rw [ran₁] at spoilt kept
  rw [ran₂] at kept
  refine ⟨noting_remembering, holds_lantern, rfl, rfl, calm, spares, w₀, w₁, w₂, w₃, new, ran₀, ran₁,
    ran₂, ran₃, noted, alike, ?_⟩
  have told := told fun same => nomatch spoilt.symm.trans (same.trans dark)
  rwa [show w₂.get bond.object bond.property = .null from kept,
    show w₀.get bond.object bond.property = .bool false from dark] at told

/-- A lantern that is carried away is gone, while the observer has it lit for good, whatever becomes of
it, and nobody is told. -/
theorem carried_away : bond.Holds (lantern.get ⟨0⟩ "lit") lantern ∧
    ∃ w, bond.run (machine Late.remembering 4 2) [.remove "lit", .set "lit" (.bool false), .flush]
        lantern = (.ok (), w) ∧
      w.get ⟨0⟩ "lit" = .bool false ∧ w.leafValue (.setter ⟨0⟩) = .bool true ∧ w.host = [] :=
  ⟨holds_lantern, _, rfl, rfl, rfl, rfl⟩

end Lantern

end ViewBinding
