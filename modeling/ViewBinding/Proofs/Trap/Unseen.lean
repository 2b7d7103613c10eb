import ViewBinding.Proofs.Records.Changes
import ViewBinding.Proofs.Trap.Sight

/-!
# Trap — whether a subscription shows

Whoever reads, writes, removes and freezes properties and looks names up in scopes gets answers
(`World.answers`).  They are determined by what there is to see of the objects: two worlds that are
`Alike` answer alike, now and after every call (`Alike.answers_eq`).

The first subscription to a trapping observer puts a trap in place of the property, which keeps the
value of the property.  A property that was not there exists from then on, and one that doubled what is
written does not any more.  Nothing else shows (`unseen_iff`).
-/

namespace ViewBinding

/-- What can be asked of objects and scopes. -/
inductive Call where
  | get (o : Ref .object) (n : String)
  | set (o : Ref .object) (n : String) (v : Value)
  | remove (o : Ref .object) (n : String)
  | has (o : Ref .object) (n : String)
  | names (o : Ref .object)
  | size (o : Ref .object)
  | freeze (o : Ref .object)
  /-- The owner of a name in a scope. -/
  | owner (scope : Scope) (n : String)
  /-- The value of a name in a scope. -/
  | lookup (scope : Scope) (n : String)

/-- What is answered. -/
inductive Answer where
  | done
  | value (v : Value)
  | flag (b : Bool)
  | names (names : List String)
  | size (size : Nat)

namespace World

variable {η : Type} {w w' : World η} {o o' : Ref .object} {n : String} {r : Ref .setter}
  {cell : SetterCell}

/-- One call, with its answer. -/
def ask (w : World η) : Call → Answer × World η
  | .get o n => (.value (w.get o n), w)
  | .set o n v => (.done, w.set o n v)
  | .remove o n => (.flag (w.remove o n).1, (w.remove o n).2)
  | .has o n => (.flag (w.has o n), w)
  | .names o => (.names (w.names o), w)
  | .size o => (.size (w.names o).length, w)
  | .freeze o => (.done, w.freeze o)
  | .owner scope n => (.value (w.ownerOf scope n), w)
  | .lookup scope n => (.value (w.lookup scope n), w)

/-- The answers to one call after the other. -/
def answers (w : World η) : List Call → List Answer
  | [] => []
  | call :: rest => (w.ask call).1 :: answers (w.ask call).2 rest

/-! ### Traps stay where they are -/

namespace Housed

variable (h : w.Housed)
include h

/-- Where no trap is put in place and observers stay where they are, traps are at home. -/
theorem of_slots (slots : ∀ o n r, w'.slot? o n = some (.trap r) → w.slot? o n = some (.trap r))
    (kept : ∀ o n r v, w.kept? r = some (o, n, some v) → ∃ v, w'.kept? r = some (o, n, some v))
    (distinct : ∀ o, Entries.Distinct (w'.slots o)) : w'.Housed where
  home o n r slot := by
    obtain ⟨v, is⟩ := h.home o n r (slots o n r slot)
    exact kept o n r v is
  distinct := distinct

/-- Observers that keep the same values keep them from the same places. -/
theorem of_kept (objects : w'.objects = w.objects) (kept : ∀ r, w'.kept? r = w.kept? r) :
    w'.Housed := by
  have slots : ∀ o, w'.slots o = w.slots o := fun o => by simp only [World.slots, objects]
  exact h.of_slots (fun o n r slot => by rwa [slot?_eq, ← slots, ← slot?_eq])
    (fun o n r v is => ⟨v, (kept r).trans is⟩) fun o => slots o ▸ h.distinct o

theorem putSlot (o : Ref .object) (n : String) {slot : Slot} (plain : ∀ r, slot ≠ .trap r) :
    (w.putSlot o n slot).Housed := by
  refine h.of_slots (fun o' n' r is => ?_) (fun _ _ _ v is => ⟨v, is⟩)
    fun o' => distinct_modifyObject (h.distinct o') o fun _ => Entries.Distinct.put
  rw [slot?_putSlot] at is
  split at is
  · exact absurd (Option.some.inj is) (plain r)
  · exact is

theorem record (o : Ref .object) (change : ChangeRecord) : (w.record o change).Housed := by
  refine h.of_slots (fun o' n' r is => by rwa [slot?_record] at is) (fun _ _ r v is => ⟨v, ?_⟩)
    fun o' => (slots_record w o o' change).symm ▸ h.distinct o'
  obtain same | ⟨queue, made⟩ := w.record_cases o change
  · rwa [same]
  · rw [made]
    exact is

theorem writeTrap (r : Ref .setter) (v : Value) : (w.writeTrap r v).Housed := by
  cases there : w.setters.get? r with
  | none => simpa only [World.writeTrap, there] using h
  | some cell =>
    rw [writeTrap_eq there]
    split
    · exact h
    · refine h.of_slots (fun _ _ _ is => is) (fun o n r' u is => ?_) h.distinct
      simp only [kept?, setters_withCurrent there] at is ⊢
      split
      next same =>
        rw [same, there] at is
        simp only [Option.map_some, Option.some.injEq, Prod.mk.injEq] at is ⊢
        obtain ⟨rfl, rfl, is⟩ := is
        split at is
        next observing => exact ⟨v, rfl, rfl, if_pos observing⟩
        · cases is
      · exact ⟨u, is⟩

theorem set (o : Ref .object) (n : String) (v : Value) : (w.set o n v).Housed :=
  set_keeps h (fun r _ => h.writeTrap r v) (fun _ _ plain => h.putSlot o n plain)
    fun _ change h => h.record o change

theorem remove (o : Ref .object) (n : String) : (w.remove o n).2.Housed := by
  refine remove_keeps h ?_ fun _ change h => h.record o change
  refine h.of_slots (fun o' n' r is => ?_) (fun _ _ _ v is => ⟨v, is⟩)
    fun o' => distinct_modifyObject (h.distinct o') o fun _ => Entries.Distinct.erase
  simp only [slot?_eq, slots, modifyObject, Store.get?_modify] at is ⊢
  split at is
  next same =>
    subst same
    have distinct := h.distinct o'
    simp only [slots] at distinct
    cases get : w.objects.get? o' with
    | none => simp [get, Entries.get?] at is
    | some cell =>
      simp only [get, Option.map_some, Option.getD_some] at is distinct ⊢
      by_cases erased : n' = n
      · rw [erased, distinct.get?_erase_self] at is
        cases is
      · rwa [Entries.get?_erase_of_ne _ erased] at is
  · exact is

theorem freeze (o : Ref .object) : (w.freeze o).Housed := by
  have slots : ∀ o', (w.freeze o).slots o' = w.slots o' := fun o' =>
    slots_modifyObject w o o' fun _ => rfl
  exact h.of_slots (fun o' n' r is => by rwa [slot?_eq, slots, ← slot?_eq] at is)
    (fun _ _ _ v is => ⟨v, is⟩) fun o' => slots o' ▸ h.distinct o'

/-- A new object has no traps. -/
theorem newObject (properties : List (String × Value)) : (w.newObject properties).2.Housed := by
  have none : ObjectCell.Plain {} := ⟨Entries.distinct_nil, nofun⟩
  obtain ⟨cell, plain, made⟩ : ∃ cell : ObjectCell, cell.Plain ∧
      (w.newObject properties).2.objects = w.objects.alloc cell :=
    ⟨_, none.foldl_put properties, rfl⟩
  have slots : ∀ o, (w.newObject properties).2.slots o =
      if o = w.objects.next then cell.properties else w.slots o := fun o => by
    simp only [World.slots, made, Store.get?_alloc]
    split <;> rfl
  refine h.of_slots (fun o n r is => ?_) (fun _ _ _ v is => ⟨v, is⟩) fun o => ?_
  · rw [slot?_eq, slots] at is
    split at is
    · obtain ⟨v, is'⟩ := plain.data _ (Entries.mem_of_get? is)
      cases is'
    · rwa [slot?_eq]
  · rw [slots]
    split
    · exact plain.distinct
    · exact h.distinct o

/-- A new observer comes beside those that are there. -/
theorem newSetter (o : Ref .object) (n : String) : (w.newSetter o n).2.Housed :=
  h.of_slots (fun _ _ _ is => is)
    (fun _ _ r v is => ⟨v, by
      obtain ⟨cell, there, -⟩ := Option.map_eq_some_iff.1 is
      rw [← is]
      exact congrArg (Option.map _) (Store.get?_alloc_of_ne _ (Store.ne_next_of_get? there))⟩)
    h.distinct

theorem ask (call : Call) : (w.ask call).2.Housed := by
  cases call with
  | set o n v => exact h.set o n v
  | remove o n => exact h.remove o n
  | freeze o => exact h.freeze o
  | _ => exact h

end Housed

/-- Where there is nothing, traps are at home. -/
theorem housed_new (config : Config) (host : η) : (World.new config host).Housed where
  home o n r is := by
    have gone : (World.new config host).objects.get? o = none := Store.get?_empty o
    simp [slot?, gone] at is
  distinct o := by
    have gone : (World.new config host).objects.get? o = none := Store.get?_empty o
    simp [slots, gone]

/-! ### Worlds that look the same -/

/-- All objects look the same, and arrays are the same. -/
structure Alike (w w' : World η) : Prop where
  sight? : ∀ o, w'.sight? o = w.sight? o
  arrays : w'.arrays = w.arrays

theorem remove_fst (w : World η) (o : Ref .object) (n : String) :
    (w.remove o n).1 = (!w.isFrozen o && w.has o n) := by
  unfold remove has
  split
  next frozen => simp [frozen]
  next thawed =>
    split
    next slot => simp [slot]
    next s slot => simp [thawed, slot]

theorem arrays_record (w : World η) (o : Ref .object) (change : ChangeRecord) :
    (w.record o change).arrays = w.arrays := by
  obtain same | ⟨queue, made⟩ := w.record_cases o change
  · rw [same]
  · rw [made]
    rfl

theorem arrays_set (w : World η) (o : Ref .object) (n : String) (v : Value) :
    (w.set o n v).arrays = w.arrays := by
  refine set_keeps (P := fun w' => w'.arrays = w.arrays) rfl (fun r _ => ?_) (fun _ _ _ => rfl)
    fun _ change is => (arrays_record _ o change).trans is
  unfold writeTrap
  split
  · rfl
  · split
    · rfl
    · split <;> rfl

theorem arrays_remove (w : World η) (o : Ref .object) (n : String) :
    (w.remove o n).2.arrays = w.arrays :=
  remove_keeps (P := fun w' => w'.arrays = w.arrays) rfl rfl
    fun _ change is => (arrays_record _ o change).trans is

namespace Alike

variable (A : w.Alike w')
include A

theorem get (o : Ref .object) (n : String) : w'.get o n = w.get o n := by
  rw [get_of_sight, get_of_sight, A.sight?]

theorem has (o : Ref .object) (n : String) : w'.has o n = w.has o n := by
  rw [has_of_sight, has_of_sight, A.sight?]

theorem names (o : Ref .object) : w'.names o = w.names o := by
  rw [names_of_sight, names_of_sight, A.sight?]

theorem isFrozen (o : Ref .object) : w'.isFrozen o = w.isFrozen o := by
  rw [isFrozen_of_sight, isFrozen_of_sight, A.sight?]

/-- The members of what a scope finds are the same, also those of arrays. -/
theorem lookup (scope : Scope) (n : String) : w'.lookup scope n = w.lookup scope n := by
  have member : ∀ v, w'.member v n = w.member v n := fun v => by
    cases v <;> simp only [World.member, A.get, World.length, World.item, A.arrays]
  simp only [World.lookup, ownerOf_eq A.has, member]

/-- Worlds in which the sight of an object has changed in the same way look the same. -/
theorem sight?_eq_of_change {u u' : World η} {f : Sight → Sight}
    (change : ∀ o', u.sight? o' = if o' = o then (w.sight? o).map f else w.sight? o')
    (change' : ∀ o', u'.sight? o' = if o' = o then (w'.sight? o).map f else w'.sight? o')
    (o' : Ref .object) : u'.sight? o' = u.sight? o' := by
  rw [change, change', A.sight?, A.sight?]

/-- **One call** is answered alike and leaves worlds that look the same. -/
theorem ask (h : w.Housed) (h' : w'.Housed) (call : Call) :
    (w'.ask call).1 = (w.ask call).1 ∧ (w.ask call).2.Alike (w'.ask call).2 := by
  cases call with
  | get o n => exact ⟨congrArg Answer.value (A.get o n), A⟩
  | has o n => exact ⟨congrArg Answer.flag (A.has o n), A⟩
  | names o => exact ⟨congrArg Answer.names (A.names o), A⟩
  | size o => exact ⟨congrArg (fun names : List String => Answer.size names.length) (A.names o), A⟩
  | owner scope n => exact ⟨congrArg Answer.value (ownerOf_eq A.has scope n), A⟩
  | lookup scope n => exact ⟨congrArg Answer.value (A.lookup scope n), A⟩
  | set o n v =>
    exact ⟨rfl, A.sight?_eq_of_change (sight?_set h o n v) (sight?_set h' o n v),
      (arrays_set w' o n v).trans (A.arrays.trans (arrays_set w o n v).symm)⟩
  | remove o n =>
    have answer : (w'.remove o n).1 = (w.remove o n).1 := by
      rw [remove_fst, remove_fst, A.isFrozen, A.has]
    exact ⟨congrArg Answer.flag answer,
      A.sight?_eq_of_change (sight?_remove h o n) (sight?_remove h' o n),
      (arrays_remove w' o n).trans (A.arrays.trans (arrays_remove w o n).symm)⟩
  | freeze o =>
    exact ⟨rfl, A.sight?_eq_of_change (sight?_freeze w o) (sight?_freeze w' o), A.arrays⟩

/-- **Whoever calls** gets the same answers. -/
theorem answers_eq (h : w.Housed) (h' : w'.Housed) (calls : List Call) :
    w'.answers calls = w.answers calls := by
  induction calls generalizing w w' with
  | nil => rfl
  | cons call rest ih =>
    obtain ⟨answer, alike⟩ := A.ask h h' call
    exact congrArg₂ List.cons answer (ih alike (h.ask call) (h'.ask call))

end Alike

/-! ### Subscribing -/

theorem arrays_subscribeSetter (w : World η) (r : Ref .setter) (sub : Subscriber) :
    (w.subscribeSetter r sub).2.arrays = w.arrays := by
  have installed : ∀ w : World η, (w.installTrap r).arrays = w.arrays := fun w => by
    unfold installTrap defineSlot
    split
    · rfl
    · dsimp only
      split
      · split <;> rfl
      · rfl
  unfold subscribeSetter
  dsimp only
  split
  · split
    · rfl
    · exact installed _
  · rfl

/-- A frozen object refuses the trap. -/
theorem installTrap_of_frozen (there : w.setters.get? r = some cell) (idle : cell.observing = false)
    (frozen : w.isFrozen cell.object = true) : (w.installTrap r).objects = w.objects ∧
      ∀ r', (w.installTrap r).kept? r' = w.kept? r' := by
  simp only [installTrap, there, defineSlot, frozen, if_true]
  split
  · refine ⟨rfl, fun r' => ?_⟩
    simp only [kept?, modifySetter, Store.get?_modify]
    split
    next same => simp [same, there, idle]
    · rfl
  · exact ⟨rfl, fun _ => rfl⟩

/-- Where the trap is there already, or is refused, a subscription leaves objects and what is behind
traps alone. -/
theorem subscribeSetter_of_declined (there : w.setters.get? r = some cell)
    (declined : cell.observing = true ∨ cell.refused = true ∨ w.isFrozen cell.object = true)
    (sub : Subscriber) : (w.subscribeSetter r sub).2.objects = w.objects ∧
      ∀ r', (w.subscribeSetter r sub).2.kept? r' = w.kept? r' := by
  by_cases settled : cell.observing = true ∨ cell.refused = true
  · rw [subscribeSetter_of_settled there settled]
    exact ⟨rfl, fun r' => Store.map_get?_modify _ _ _ fun _ => rfl⟩
  · have frozen : w.isFrozen cell.object = true := (or_assoc.2 declined).resolve_left settled
    simp only [not_or, Bool.not_eq_true] at settled
    let w₁ := w.drawToken.modifySetter r fun cell =>
      { cell with callbacks := cell.callbacks.add ⟨w.nextToken⟩ sub }
    have there₁ : w₁.setters.get? r =
        some { cell with callbacks := cell.callbacks.add ⟨w.nextToken⟩ sub } := by
      simp only [w₁, modifySetter, Store.get?_modify_self]
      exact congrArg _ there
    have kept₁ : ∀ r', w₁.kept? r' = w.kept? r' := fun r' => Store.map_get?_modify _ _ _ fun _ => rfl
    have result : w.subscribeSetter r sub =
        (w₁.installTrap r).callbackSubscription (.leaf (.setter r)) ⟨w.nextToken⟩ := by
      simp only [subscribeSetter, freshToken]
      split
      next cell' get =>
        cases there₁.symm.trans get
        simp only [settled.1, settled.2, Bool.or_false, Bool.false_eq_true, if_false]
        rfl
      next none => cases there₁.symm.trans none
    obtain ⟨objects, kept⟩ := installTrap_of_frozen there₁ settled.1 frozen
    rw [result]
    exact ⟨objects, fun r' => (kept r').trans (kept₁ r')⟩

/-- Observers that keep the same values let see the same. -/
theorem sight?_of_kept (h : w.Housed) (objects : w'.objects = w.objects)
    (kept : ∀ r, w'.kept? r = w.kept? r) (o : Ref .object) : w'.sight? o = w.sight? o := by
  have value : ∀ {w : World η} {o n r v}, w.kept? r = some (o, n, some v) →
      w.slotValue (.trap r) = v := fun {w o n r v} is => by
    obtain ⟨cell, there, is⟩ := Option.map_eq_some_iff.1 is
    simp only [Prod.mk.injEq] at is
    split at is <;> simp_all [slotValue]
  refine sight?_congr (by rw [objects]) (by simp only [slots, objects])
    (by simp only [World.isFrozen, objects]) fun n slot is => ?_
  cases slot with
  | trap r =>
    obtain ⟨v, held⟩ := h.home o n r is
    exact congrArg Seen.plain ((value ((kept r).trans held)).trans (value held).symm)
  | _ => rfl

section
variable (h : w.Housed) (there : w.setters.get? r = some cell)
  (live : w.objects.contains cell.object = true) (idle : cell.observing = false)
  (willing : cell.refused = false) (unfrozen : w.isFrozen cell.object = false) (sub : Subscriber)
include h there live idle willing unfrozen

/-- **The first subscription** makes a plain property of what is there or is not. -/
theorem sight?_subscribeSetter (o : Ref .object) : (w.subscribeSetter r sub).2.sight? o =
    if o = cell.object then
      (w.sight? o).map (·.put cell.property (.plain (w.get cell.object cell.property)))
    else w.sight? o := by
  let v := w.get cell.object cell.property
  -- the trap has its value before it is put in place, since no other slot is this trap
  let w₁ := w.modifySetter r fun cell => { cell with current := v, observing := true }
  have value : ∀ r', w₁.slotValue (.trap r') = if r' = r then v else w.slotValue (.trap r') :=
    fun r' => by
      simp only [slotValue, w₁, modifySetter, Store.get?_modify]
      split
      next same => simp [there]
      · rfl
  have before : ∀ o, w₁.sight? o = w.sight? o := fun o =>
    sight?_congr rfl rfl rfl fun n slot is => by
      cases slot with
      | trap r' =>
        have other : r' ≠ r := by
          rintro rfl
          obtain ⟨cell', there', -, -, observing⟩ := h.setter is
          rw [there] at there'
          cases there'
          exact Bool.false_ne_true (idle.symm.trans observing)
        exact congrArg Seen.plain ((value r').trans (if_neg other))
      | _ => rfl
  let w₂ := w₁.putSlot cell.object cell.property (.trap r)
  have after : (w.subscribeSetter r sub).2.sight? o = w₂.sight? o := by
    rw [subscribeSetter_of_idle there idle willing live unfrozen]
    refine sight?_congr rfl rfl rfl fun n slot _ => shows_congr (fun r' => ?_) slot
    exact congrArg (Option.getD · _) (Store.map_get?_modify _ _ _ fun _ => rfl)
  rw [after]
  split
  next same =>
    subst same
    refine (sight?_putSlot w₁ cell.object cell.property (.trap r)).trans ?_
    rw [before, show w₁.shows (.trap r) = .plain v from
      congrArg Seen.plain ((value r).trans (if_pos rfl))]
  next other => exact (sight?_modifyObject_of_ne _ other).trans (before o)

theorem Housed.subscribeSetter_of_idle : (w.subscribeSetter r sub).2.Housed := by
  rw [World.subscribeSetter_of_idle there idle willing live unfrozen]
  let w₁ := w.drawToken.withTrap r cell.object cell.property
  have kept : ∀ r', (w₁.withSetterCallback r ⟨w.nextToken⟩ sub).kept? r' = w₁.kept? r' := fun r' =>
    Store.map_get?_modify _ _ _ fun _ => rfl
  have setters := setters_withTrap (w := w.drawToken) there
  have trapped : w₁.Housed := by
    refine ⟨fun o n r' is => ?_, fun o => distinct_modifyObject (h.distinct o) cell.object
      fun _ => Entries.Distinct.put⟩
    rw [slot?_withTrap (w := w.drawToken) live] at is
    split at is
    next here =>
      obtain ⟨rfl, rfl⟩ := here
      cases is
      exact ⟨_, by rw [kept?, setters, if_pos rfl]; rfl⟩
    next elsewhere =>
      obtain ⟨cell', there', rfl, rfl, observing⟩ := h.setter is
      have other : r' ≠ r := by
        rintro rfl
        rw [there] at there'
        cases there'
        exact Bool.false_ne_true (idle.symm.trans observing)
      refine ⟨cell'.current, ?_⟩
      rw [kept?, setters, if_neg other]
      exact (congrArg (Option.map _) there').trans (by simp [observing])
  exact trapped.of_kept rfl kept

end

/-- Whatever is written to a property, its object answers with it afterwards, or with twice the number
if the property doubles. -/
theorem get_set_of_unfrozen (h : w.Housed) (live : w.objects.contains o = true)
    (unfrozen : w.isFrozen o = false) (n : String) (v : Value) :
    (w.set o n v).get o n = (Seen.afterWrite v ((w.slot? o n).map w.shows)).value := by
  rw [get_of_sight, sight?_set h, if_pos rfl, map_write unfrozen]
  unfold sight?
  rw [if_pos live]
  simp only [Option.map_some, Option.bind_some, Sight.put, Function.update_self, Option.getD_some]

/-- What there is to see of a property that does not double is its value. -/
theorem seen_of_plain (present : w.has o n = true) (plain : ¬ w.IsDoubled o n) :
    (w.slot? o n).map w.shows = some (.plain (w.get o n)) := by
  cases slot : w.slot? o n with
  | none => simp [World.has, slot] at present
  | some s =>
    simp only [World.get, slot]
    cases s with
    | doubled v => exact absurd ⟨v, slot⟩ plain
    | _ => rfl

/-- **A subscription does not show**, whatever is asked of objects and scopes, if and only if the trap
was there already, or is refused, or takes the place of a property that is there and does not
double. -/
theorem unseen_iff (h : w.Housed) (there : w.setters.get? r = some cell)
    (live : w.objects.contains cell.object = true) (sub : Subscriber) :
    (∀ calls, (w.subscribeSetter r sub).2.answers calls = w.answers calls) ↔
      cell.observing = true ∨ cell.refused = true ∨ w.isFrozen cell.object = true ∨
        w.has cell.object cell.property = true ∧ ¬ w.IsDoubled cell.object cell.property := by
  by_cases declined : cell.observing = true ∨ cell.refused = true ∨ w.isFrozen cell.object = true
  · obtain ⟨objects, kept⟩ := subscribeSetter_of_declined there declined sub
    have alike : w.Alike (w.subscribeSetter r sub).2 :=
      ⟨sight?_of_kept h objects kept, arrays_subscribeSetter w r sub⟩
    refine iff_of_true (alike.answers_eq h (h.of_kept objects kept)) ?_
    exact declined.imp_right (Or.imp_right .inl)
  · simp only [not_or, Bool.not_eq_true] at declined
    obtain ⟨idle, willing, unfrozen⟩ := declined
    have sight := sight?_subscribeSetter h there live idle willing unfrozen sub
    have housed := h.subscribeSetter_of_idle there live idle willing unfrozen sub
    have seen : ((w.subscribeSetter r sub).2.slot? cell.object cell.property).map
        (w.subscribeSetter r sub).2.shows = some (.plain (w.get cell.object cell.property)) := by
      rw [seen_of_sight, sight, if_pos rfl, World.sight?, if_pos live]
      simp only [Option.map_some, Option.bind_some, Sight.put, Function.update_self]
    simp only [idle, willing, unfrozen, Bool.false_eq_true, false_or]
    constructor
    · intro same
      have present : w.has cell.object cell.property = true := by
        have asked := same [.has cell.object cell.property]
        simp only [answers, ask, List.cons.injEq, Answer.flag.injEq, and_true] at asked
        rw [← asked, has_eq_isSome, ← Option.isSome_map, seen, Option.isSome_some]
      refine ⟨present, ?_⟩
      rintro ⟨u, doubled⟩
      -- a property that doubles answers with a number to whatever is written
      have asked := same [.set cell.object cell.property (.bool true),
        .get cell.object cell.property]
      simp only [answers, ask, List.cons.injEq, Answer.value.injEq, true_and, and_true] at asked
      obtain ⟨slot, trapped, -⟩ := Option.map_eq_some_iff.1 seen
      have unfrozen' : (w.subscribeSetter r sub).2.isFrozen cell.object = false := by
        rw [isFrozen_of_sight] at unfrozen ⊢
        rw [sight, if_pos rfl, Option.map_map]
        exact unfrozen
      rw [get_set_of_unfrozen h live unfrozen, doubled,
        get_set_of_unfrozen housed (contains_of_slot? trapped) unfrozen', seen] at asked
      simp only [Option.map_some, World.shows, Seen.afterWrite, Seen.value] at asked
      split at asked
      next is => rw [asked] at is; cases is
      · cases asked
    · rintro ⟨present, plain⟩
      have alike : w.Alike (w.subscribeSetter r sub).2 := by
        refine ⟨fun o => ?_, arrays_subscribeSetter w r sub⟩
        rw [sight]
        split
        next is =>
          subst is
          rw [World.sight?, if_pos live]
          exact congrArg some (Sight.put_eq_self (mem_names_iff.2 present)
            (seen_of_plain present plain))
        · rfl
      exact alike.answers_eq h housed

end World

/-! ### A keyhole -/

namespace Keyhole

/-- An object with one property, and observers of that and of one that is not there. -/
def room : World Unit :=
  (((((World.new { Config.standard with strategy := .setter } ()).newObject
    [("candle", .bool true)]).2.newSetter ⟨0⟩ "candle").2).newSetter ⟨0⟩ "ghost").2

theorem housed_room : room.Housed :=
  (((World.housed_new _ _).newObject _).newSetter _ _).newSetter _ _

/-- Nobody can tell that the candle is watched. -/
theorem candle_unseen : room.Housed ∧ room.setters.get? ⟨0⟩ =
      some { object := ⟨0⟩, property := "candle" } ∧ room.objects.contains ⟨0⟩ = true ∧
    ∀ calls, (room.subscribeSetter ⟨0⟩ (.hook ⟨0⟩)).2.answers calls = room.answers calls :=
  ⟨housed_room, rfl, rfl, (World.unseen_iff housed_room rfl rfl _).2
    (.inr (.inr (.inr ⟨rfl, fun ⟨_, doubled⟩ => nomatch doubled⟩)))⟩

/-- Whoever watches for the ghost has it appear. -/
theorem ghost_appears : room.answers [.has ⟨0⟩ "ghost", .names ⟨0⟩, .size ⟨0⟩] =
      [.flag false, .names ["candle"], .size 1] ∧
    (room.subscribeSetter ⟨1⟩ (.hook ⟨0⟩)).2.answers [.has ⟨0⟩ "ghost", .names ⟨0⟩, .size ⟨0⟩] =
      [.flag true, .names ["candle", "ghost"], .size 2] :=
  ⟨rfl, rfl⟩

end Keyhole

end ViewBinding
