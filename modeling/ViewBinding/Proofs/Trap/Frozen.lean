import ViewBinding.Machine
import ViewBinding.Proofs.Keeping
import ViewBinding.Proofs.Leaf.Slots
import ViewBinding.Proofs.Leaf.Unwatched
import ViewBinding.Proofs.Leaf.Write
import ViewBinding.Proofs.Records.Deeds

/-!
# Trap — frozen objects

A frozen object refuses to be written, to lose properties and to get other slots.  `Use` is what may be
done about objects: expressions are evaluated and assigned through, properties written, removed and
redefined, objects frozen, and observers of properties asked for, written through and subscribed to;
functions and hooks of the host do so, too.  Nothing of it changes the slots of a frozen object or adds
to its records, wherever it ends (`Use.keeps`).

A trap keeps its value elsewhere, and whoever has its observer can write that.  So what is frozen stays
as it is if and only if no property was trapped before (`frozen_stays_iff`).
-/

namespace ViewBinding

variable {η α : Type}

/-! ### What is frozen -/

namespace World

/-- The object is frozen with these properties, and these records wait. -/
def FrozenAs (o : Ref .object) (slots : List (String × Slot)) (pending : List ChangeRecord)
    (w : World η) : Prop := w.substance o = some (slots, true, pending)

variable {w w' : World η} {o o' : Ref .object} {slots : List (String × Slot)}
  {pending : List ChangeRecord}

theorem exists_frozenAs (frozen : w.isFrozen o = true) :
    w.FrozenAs o (w.slots o) (w.pendingRecords o) := by
  simp only [isFrozen, FrozenAs, substance, World.slots, pendingRecords] at *
  cases get : w.objects.get? o with
  | none => simp [get] at frozen
  | some cell =>
    rw [get] at frozen
    simp only [Option.map_some, Option.getD_some] at frozen ⊢
    rw [frozen]

/-- Where no other object is changed in place, the substance stays. -/
theorem substance_modifyObject_of_ne (f : ObjectCell → ObjectCell) (other : o ≠ o') :
    (w.modifyObject o' f).substance o = w.substance o := by
  simp only [substance, modifyObject, Store.get?_modify_of_ne f other]

theorem substance_record_of_ne (change : ChangeRecord) (other : o ≠ o') :
    (w.record o' change).substance o = w.substance o := by
  obtain same | ⟨queue, made⟩ := w.record_cases o' change
  · rw [same]
  · rw [made]
    exact substance_modifyObject_of_ne _ other

namespace FrozenAs

variable (h : w.FrozenAs o slots pending)
include h

theorem of_objects (same : w'.objects = w.objects) : w'.FrozenAs o slots pending := by
  unfold FrozenAs substance at *
  rwa [same]

theorem isFrozen : w.isFrozen o = true := by
  obtain ⟨cell, get, is⟩ := Option.map_eq_some_iff.1 h
  simp only [World.isFrozen, get, Option.map_some, Option.getD_some]
  exact (Prod.mk.inj (Prod.mk.inj is).2).1

theorem slots_eq : w.slots o = slots := by
  obtain ⟨cell, get, is⟩ := Option.map_eq_some_iff.1 h
  rw [slots_of_get? get]
  exact (Prod.mk.inj is).1

theorem pendingRecords_eq : w.pendingRecords o = pending := by
  obtain ⟨cell, get, is⟩ := Option.map_eq_some_iff.1 h
  simp only [pendingRecords, get, Option.map_some, Option.getD_some]
  exact (Prod.mk.inj (Prod.mk.inj is).2).2

/-- A trap that is written is none of its slots, as they are. -/
theorem writeTrap (r : Ref .setter) (v : Value) : (w.writeTrap r v).FrozenAs o slots pending := by
  refine h.of_objects ?_
  unfold World.writeTrap
  split
  · rfl
  · split
    · rfl
    · split <;> rfl

/-- A write is ignored, or is one of another object. -/
theorem set (o' : Ref .object) (n : String) (v : Value) :
    (w.set o' n v).FrozenAs o slots pending := by
  by_cases same : o = o'
  · rwa [World.set, if_pos (same ▸ h.isFrozen)]
  · have put : ∀ slot, (w.putSlot o' n slot).FrozenAs o slots pending := fun slot =>
      (substance_modifyObject_of_ne _ same).trans h
    unfold World.set
    split
    · exact h
    · split
      · exact h.writeTrap _ _
      · exact put _
      · split
        · exact h
        · exact (substance_record_of_ne _ same).trans (put _)
      · exact (substance_record_of_ne _ same).trans (put _)

theorem remove (o' : Ref .object) (n : String) : (w.remove o' n).2.FrozenAs o slots pending := by
  by_cases same : o = o'
  · rwa [World.remove, if_pos (same ▸ h.isFrozen)]
  · unfold World.remove
    split
    · exact h
    · split
      · exact h
      · exact (substance_record_of_ne _ same).trans ((substance_modifyObject_of_ne _ same).trans h)

theorem defineSlot (o' : Ref .object) (n : String) (slot : Slot) :
    (w.defineSlot o' n slot).2.FrozenAs o slots pending := by
  by_cases same : o = o'
  · rwa [World.defineSlot, if_pos (same ▸ h.isFrozen)]
  · unfold World.defineSlot
    split
    · exact h
    · exact (substance_modifyObject_of_ne _ same).trans h

/-- Freezing it again changes nothing. -/
theorem freeze (o' : Ref .object) : (w.freeze o').FrozenAs o slots pending := by
  by_cases same : o = o'
  · subst same
    obtain ⟨cell, get, is⟩ := Option.map_eq_some_iff.1 h
    simp only [Prod.mk.injEq] at is
    simp only [FrozenAs, substance, World.freeze, modifyObject, Store.get?_modify_self, get,
      Option.map_some, is]
  · exact (substance_modifyObject_of_ne _ same).trans h

theorem newObject (properties : List (String × Value)) :
    (w.newObject properties).2.FrozenAs o slots pending := by
  obtain ⟨cell, get, is⟩ := Option.map_eq_some_iff.1 h
  refine (congrArg (Option.map _) ?_).trans h
  exact Store.get?_alloc_of_ne _ (Store.ne_next_of_get? get)

/-- Nothing that evaluating touches changes a frozen object. -/
theorem touches (touches : w.Touches w') : w'.FrozenAs o slots pending := by
  cases touches with
  | nothing => exact h
  | set o' n v => exact h.set o' n v
  | newObject properties => exact h.newObject properties
  | newArray items => exact h.of_objects rfl
  | setItem a index v =>
    refine h.of_objects ?_
    unfold World.setItem
    split
    · rfl
    · dsimp only
      split <;> rfl
  | collectSplice c splice =>
    refine h.of_objects ?_
    unfold World.collectSplice
    split
    · rfl
    · dsimp only
      split <;> rfl

/-! ### Observers -/

/-- The trap is refused, or is one of another object. -/
theorem subscribeSetter (r : Ref .setter) (sub : Subscriber) :
    (w.subscribeSetter r sub).2.FrozenAs o slots pending := by
  have installed : ∀ {w : World η}, w.FrozenAs o slots pending →
      (w.installTrap r).FrozenAs o slots pending := fun {w} h => by
    unfold World.installTrap
    split
    · exact h
    · split
      · exact h.defineSlot _ _ _
      · exact h
  unfold World.subscribeSetter
  dsimp only
  split
  · split
    · exact h
    · exact installed (h.of_objects rfl)
  · exact h

theorem subscribePoll (r : Ref .poll) (sub : Subscriber) :
    (w.subscribePoll r sub).2.FrozenAs o slots pending := by
  refine h.of_objects ?_
  simp only [World.subscribePoll, callbackSubscription, newSubscription]
  split
  · simp only [track, schedulePolling]
    split <;> rfl
  · rfl

end FrozenAs

/-! ### Asking for observers -/

theorem objects_cachedProperty (w : World η) (o : Ref .object) (n : String)
    {make : World η → Leaf × World η} (made : ∀ w, (make w).2.objects = w.objects) :
    (w.cachedProperty o n make).2.objects = w.objects := by
  unfold cachedProperty
  split
  · rfl
  · exact (objects_afterCreation _).trans (made w)

theorem objects_objectDispatcher (w : World η) (o : Ref .object) :
    (w.objectDispatcher o).2.objects = w.objects := by
  unfold objectDispatcher
  split
  · rfl
  · exact objects_afterCreation _

/-- Asking for an observer changes no object. -/
theorem objects_objectObserver (w : World η) (o : Ref .object) (n : String) :
    (w.objectObserver o n).2.objects = w.objects := by
  unfold objectObserver
  split
  · exact objects_cachedProperty w o n fun _ => rfl
  · split
    · exact (objects_dispatcherObserver _ _ n).trans (objects_objectDispatcher w o)
    · exact objects_cachedProperty w o n fun _ => rfl

end World

/-! ### What may be done -/

/-- Whether it is an observer of a property of an object. -/
def Leaf.IsOfObject : Leaf → Prop
  | .setter _ | .property _ | .placeholder _ | .poll _ => True
  | _ => False

/-- What may be done about objects. -/
inductive Use (env : Env η) : {α : Type} → Run η α → Prop
  | evaluate {α : Type} {x : Run η α} (h : x.Evaluates env) : Use env x
  | remove (o : Ref .object) (n : String) : Use env (Run.update (·.remove o n))
  | define (o : Ref .object) (n : String) (slot : Slot) : Use env (Run.update (·.defineSlot o n slot))
  | freeze (o : Ref .object) : Use env (Run.modify (·.freeze o))
  | observe (o : Ref .object) (n : String) : Use env (Run.update (·.objectObserver o n))
  | write {l : Leaf} (h : l.IsOfObject) (v : Value) : Use env (Run.writeLeaf env l v)
  | subscribe {l : Leaf} (h : l.IsOfObject) (sub : Subscriber) : Use env (Run.subscribeLeaf l sub)
  | bind {α β : Type} {x : Run η α} {f : α → Run η β} (first : Use env x)
      (next : ∀ a, Use env (f a)) : Use env (x >>= f)
  | attempt {α : Type} {x : Run η α} (h : Use env x) : Use env x.attempt

theorem Use.set {env : Env η} (o : Ref .object) (n : String) (v : Value) :
    Use env (Run.modify (·.set o n v)) := .evaluate (.modify fun _ => .set o n v)

theorem Use.discard {env : Env η} {x : Run η α} (h : Use env x) :
    Use env (discard x : Run η PUnit) := .bind h fun _ => .evaluate (.pure _)

/-- A host whose functions, converters and hooks do nothing else. -/
structure Host.Decent (host : Host η) : Prop where
  call : ∀ env f this args, Use env (host.call env f this args)
  convert : ∀ env c direction v args, Use env (host.convert c direction v args)
  fire : ∀ env hook occasion, Use env (host.fire env hook occasion)

section
variable {o : Ref .object} {slots : List (String × Slot)} {pending : List ChangeRecord}
  {env : Env η}

/-- Writing through an observer is a write that a frozen object ignores, or that goes to a trap. -/
theorem Leaf.IsOfObject.keeps_write {l : Leaf} (h : l.IsOfObject) (v : Value) :
    (Run.writeLeaf env l v).Keeps (World.FrozenAs o slots pending) := by
  have object : ∀ o' n, (Run.writeObject o' n v : Run η Unit).Keeps
      (World.FrozenAs o slots pending) := fun o' n => Run.keeps_modify fun w frozen => by
    split
    · exact frozen.set o' n v
    · exact frozen
  cases l with
  | setter r =>
    refine (Run.keeps_read _).bind fun cell => ?_
    split
    · exact Run.keeps_ite (Run.keeps_modify fun w frozen => frozen.writeTrap r v) (object _ _)
    · exact Run.keeps_pure _
  | property r | placeholder r | poll r =>
    refine (Run.keeps_read _).bind fun cell => ?_
    split
    · exact object _ _
    · exact Run.keeps_pure _
  | _ => exact h.elim

/-- Subscribing to an observer makes it listen to the object, or puts a trap in place, which a frozen
object refuses. -/
theorem Leaf.IsOfObject.keeps_subscribe {l : Leaf} (h : l.IsOfObject) (sub : Subscriber) :
    (Run.subscribeLeaf l sub : Run η _).Keeps (World.FrozenAs o slots pending) := by
  cases l with
  | setter r => exact Run.keeps_update fun w frozen => frozen.subscribeSetter r sub
  | property r =>
    exact Run.keeps_update fun w frozen => (World.substance_subscribeProperty w r sub o).trans frozen
  | placeholder r =>
    exact Run.keeps_update fun w frozen =>
      (World.substance_subscribePlaceholder w r sub o).trans frozen
  | poll r => exact Run.keeps_update fun w frozen => frozen.subscribePoll r sub
  | _ => exact h.elim

/-- **Nothing that may be done changes a frozen object**, as long as nothing that is called back
does. -/
theorem Use.keeps {x : Run η α} (use : Use env x) (E : env.Keeps (World.FrozenAs o slots pending)) :
    x.Keeps (World.FrozenAs o slots pending) := by
  induction use with
  | evaluate h => exact h.keeps (fun _ _ frozen touches => frozen.touches touches) E
  | remove o' n => exact Run.keeps_update fun w frozen => frozen.remove o' n
  | define o' n slot => exact Run.keeps_update fun w frozen => frozen.defineSlot o' n slot
  | freeze o' => exact Run.keeps_modify fun w frozen => frozen.freeze o'
  | observe o' n =>
    exact Run.keeps_update fun w frozen => frozen.of_objects (World.objects_objectObserver w o' n)
  | write h v => exact h.keeps_write v
  | subscribe h sub => exact h.keeps_subscribe sub
  | bind _ _ first next => exact first.bind next
  | attempt _ h => exact h.attempt

/-- However deep calls may nest, nothing that is called back changes a frozen object. -/
theorem Host.Decent.keeps {host : Host η} (decent : host.Decent) (rounds : Nat) :
    ∀ depth, (machine host rounds depth).Keeps (World.FrozenAs o slots pending)
  | 0 =>
    { call := fun _ _ _ => Run.keeps_cutOff
      convert := fun c direction v args =>
        -- a converter does not know how deep it is called
        let none : Env η := { machine host rounds 0 with convert := fun _ _ _ _ => Run.cutOff }
        (decent.convert none c direction v args).keeps
          ⟨fun _ _ _ => Run.keeps_cutOff, fun _ _ _ _ => Run.keeps_cutOff, fun _ _ => Run.keeps_cutOff⟩
      fire := fun _ _ => Run.keeps_cutOff }
  | depth + 1 =>
    have E := decent.keeps rounds depth
    { call := fun f this args => (decent.call _ f this args).keeps E
      convert := fun c direction v args => (decent.convert _ c direction v args).keeps E
      fire := fun hook occasion => (decent.fire _ hook occasion).keeps E }

end

/-! ### Frozen for good -/

theorem Value.exists_differs (a : Value) : ∃ b, a.same b = false ∧ b ≠ a := by
  cases a with
  | bool b =>
    cases b with
    | false => exact ⟨.bool true, rfl, nofun⟩
    | true => exact ⟨.bool false, rfl, nofun⟩
  | _ => exact ⟨.bool true, rfl, nofun⟩

namespace World

variable {w w' : World η} {o : Ref .object} {n : String} {r : Ref .setter} {cell : SetterCell}

/-- Where no property is trapped, the slots are all there is to the properties. -/
theorem get_of_slots (free : ∀ n r, w.slot? o n ≠ some (.trap r)) (same : w'.slots o = w.slots o)
    (n : String) : w'.get o n = w.get o n := by
  have slot : w'.slot? o n = w.slot? o n := by rw [slot?_eq, slot?_eq, same]
  simp only [get, slot]
  cases is : w.slot? o n with
  | none => rfl
  | some slot =>
    cases slot with
    | trap r => exact absurd is (free n r)
    | _ => rfl

/-- Whoever writes through a trap writes the property, also one of a frozen object. -/
theorem get_writeTrap (slot : w.slot? o n = some (.trap r)) (there : w.setters.get? r = some cell)
    {v : Value} (differs : cell.current.same v = false) : (w.writeTrap r v).get o n = v := by
  rw [writeTrap_eq there, differs, if_neg Bool.false_ne_true]
  have slot' : (w.withCurrent r v (!cell.queued)).slot? o n = some (.trap r) := slot
  simp only [get, slot', slotValue, setters_withCurrent there, if_true, Option.map_some,
    Option.getD_some]

theorem decent_silent : (Host.silent : Host η).Decent :=
  ⟨fun _ _ _ _ => .evaluate (.pure _), fun _ _ _ _ _ => .evaluate (.pure _),
    fun _ _ _ => .evaluate (.pure _)⟩

/-- **Frozen means frozen**, whatever is done about objects, expressions and observers and wherever it
ends, if and only if no property was trapped when the object was frozen. -/
theorem frozen_stays_iff (frozen : w.isFrozen o = true)
    (watched : ∀ n r, w.slot? o n = some (.trap r) →
      ∃ cell, w.setters.get? r = some cell ∧ cell.observing = true) :
    (∀ (host : Host η) (rounds depth : Nat) (x : Run η Unit), host.Decent →
        Use (machine host rounds depth) x → (x w).2.names o = w.names o ∧
          (∀ n, (x w).2.get o n = w.get o n) ∧ (x w).2.pendingRecords o = w.pendingRecords o) ↔
      ∀ n r, w.slot? o n ≠ some (.trap r) := by
  constructor
  · intro stays n r slot
    obtain ⟨cell, there, observing⟩ := watched n r slot
    obtain ⟨v, differs, other⟩ := cell.current.exists_differs
    have kept := (stays .silent 0 0 _ decent_silent (.write (l := .setter r) trivial v)).2.1 n
    have wrote : (Run.writeLeaf (machine .silent 0 0) (.setter r) v w).2 = w.writeTrap r v := by
      simp only [Run.writeLeaf, Run.bind_read, there, observing, if_true]
      rfl
    rw [wrote, get_writeTrap slot there differs] at kept
    refine other (kept.trans ?_)
    simp only [get, slot, slotValue, there, Option.map_some, Option.getD_some]
  · intro free host rounds depth x decent use
    have kept := use.keeps (decent.keeps rounds depth) w (exists_frozenAs frozen)
    exact ⟨by rw [names_eq, names_eq, kept.slots_eq], get_of_slots free kept.slots_eq,
      kept.pendingRecords_eq⟩

end World

/-! ### A chest -/

namespace Chest

/-- A frozen object, with an observer that was asked for before. -/
def locked : World Unit :=
  (((World.new { Config.standard with strategy := .setter } ()).newObject
    [("gold", .bool true)]).2.objectObserver ⟨0⟩ "gold").2.freeze ⟨0⟩

/-- An assignment to the property. -/
def robbery : Expr := .assign (.name "gold") (.string "lead")

/-- The observer is subscribed to and written through, and the property is written, removed and
assigned to. -/
def raid : Run Unit Unit := do
  discard (Run.subscribeLeaf (.setter ⟨0⟩) (.hook ⟨0⟩))
  Run.writeLeaf (machine .silent 3 3) (.setter ⟨0⟩) (.bool false)
  Run.modify (·.set ⟨0⟩ "gold" .null)
  discard (Run.update (·.remove ⟨0⟩ "gold"))
  discard (robbery.eval (machine .silent 3 3) .registered (.root ⟨.object ⟨0⟩, ⟨1⟩⟩))

theorem use_raid : Use (machine .silent 3 3) raid :=
  .bind (.discard (.subscribe (l := .setter ⟨0⟩) trivial _)) fun _ =>
    .bind (.write (l := .setter ⟨0⟩) trivial _) fun _ => .bind (.set _ _ _) fun _ =>
      .bind (.discard (.remove _ _)) fun _ => .discard (.evaluate (.eval _ _ _))

theorem locked_untrapped (n : String) (r : Ref .setter) : locked.slot? ⟨0⟩ n ≠ some (.trap r) := by
  have slot : locked.slot? ⟨0⟩ n = if "gold" = n then some (.data (.bool true)) else none := rfl
  rw [slot]
  split <;> nofun

/-- Nobody gets at what is in it. -/
theorem locked_stays : locked.isFrozen ⟨0⟩ = true ∧ (Host.silent : Host Unit).Decent ∧
    Use (machine .silent 3 3) raid ∧ (∀ n r, locked.slot? ⟨0⟩ n ≠ some (.trap r)) ∧
    (raid locked).2.names ⟨0⟩ = ["gold"] ∧ (raid locked).2.get ⟨0⟩ "gold" = .bool true ∧
    (raid locked).2.pendingRecords ⟨0⟩ = [] := by
  obtain ⟨names, get, records⟩ := (World.frozen_stays_iff rfl fun n r slot =>
    absurd slot (locked_untrapped n r)).2 locked_untrapped .silent 3 3 raid World.decent_silent use_raid
  exact ⟨rfl, World.decent_silent, use_raid, locked_untrapped, names, get "gold", records⟩

/-- The same object, with the trap in place when it was frozen. -/
def trapped : World Unit :=
  (((((World.new { Config.standard with strategy := .setter } ()).newObject
    [("gold", .bool true)]).2.objectObserver ⟨0⟩ "gold").2.subscribeSetter ⟨0⟩
      (.hook ⟨0⟩)).2).freeze ⟨0⟩

/-- Whoever has the observer gets at what is in it, and those who are subscribed will be told. -/
theorem trapped_robbed : trapped.isFrozen ⟨0⟩ = true ∧
    (trapped.set ⟨0⟩ "gold" (.bool false)).get ⟨0⟩ "gold" = .bool true ∧
    ∃ w, Run.writeLeaf (machine .silent 3 3) (.setter ⟨0⟩) (.bool false) trapped = (.ok (), w) ∧
      w.get ⟨0⟩ "gold" = .bool false ∧ w.tasks.microtasks = [.setter ⟨0⟩] :=
  ⟨rfl, rfl, _, rfl, rfl, rfl⟩

end Chest

end ViewBinding
