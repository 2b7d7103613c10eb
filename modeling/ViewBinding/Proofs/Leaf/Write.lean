import ViewBinding.Proofs.Leaf.Listen

/-!
# Leaf — writing a property

A write changes the value of one property and of no other, and leaves every registration alone
(`Writes`).  If somebody is registered with the property then a change is due afterwards (`Tells`):
it is recorded or the trap is queued, and the microtask that tells it waits in the queue.

* `set_spec` is about writing a property, `remove_spec` about removing one.
* `writeTrap_spec` is about a write that a trap receives.
-/

namespace ViewBinding

namespace World

variable {η : Type} {w w' w'' : World η}

/-- `w'` is `w` after a change of the property `n` of `o`. -/
structure Writes (w w' : World η) (o : Ref .object) (n : String) : Prop extends Tunes w w' where
  wired : w'.Wired
  backdrop : w'.backdrop = { w.backdrop with microtasks := w'.tasks.microtasks }
  get : ∀ o' n', ¬ (o' = o ∧ n' = n) → w'.get o' n' = w.get o' n'
  has : ∀ o' n', ¬ (o' = o ∧ n' = n) → w'.has o' n' = w.has o' n'
  doubled : ∀ o' n', w'.IsDoubled o' n' → w.IsDoubled o' n'
  due : ∀ o' n', w.Due o' n' → w'.Due o' n'
  dueOr : ∀ o' n', w'.Due o' n' → w.Due o' n' ∨ o' = o ∧ n' = n
  tasks : ∀ task ∈ w'.tasks.microtasks, task ∈ w.tasks.microtasks ∨ task = .deliver o ∨
    ∃ r, task = .setter r ∧ w.place? (.setter r) = some (o, n)

theorem Writes.refl (h : w.Wired) (o : Ref .object) (n : String) : w.Writes w o n :=
  ⟨.refl w, h, rfl, fun _ _ _ => rfl, fun _ _ _ => rfl, fun _ _ e => e, fun _ _ e => e,
    fun _ _ e => .inl e, fun _ m => .inl m⟩

/-- Whoever is registered with a property will be told about a change of it. -/
def Tells (w w' : World η) (o : Ref .object) (n : String) : Prop :=
  ∀ l, w.leafAt? o n = some l → w.audience l ≠ [] → w'.Due o n

/-! ### Slots -/

/-- A world in which the properties of an object are changed. -/
def withProperties (w : World η) (o : Ref .object)
    (f : List (String × Slot) → List (String × Slot)) : World η :=
  w.modifyObject o fun cell => { cell with properties := f cell.properties }

section
variable {o : Ref .object} {n : String} {f : List (String × Slot) → List (String × Slot)}

theorem tunes_withProperties (w : World η) (o : Ref .object)
    (f : List (String × Slot) → List (String × Slot)) : w.Tunes (w.withProperties o f) where
  config := rfl
  elements _ := rfl
  arrays := rfl
  locator := rfl
  contains o' := contains_modifyObject o o' _
  isFrozen _ := isFrozen_modifyObject fun _ => rfl
  dispatchers _ := rfl
  properties _ := rfl
  placeholders _ := rfl
  place? l := by cases l <;> rfl
  successor? _ := rfl
  audience l := by cases l <;> rfl
  movedTo? _ _ := rfl
  subscriptions := rfl
  nextToken := Nat.le_refl _

/-- An object in which only the properties are changed keeps everything else. -/
theorem objects_withProperties (w : World η) (o o' : Ref .object)
    (f : List (String × Slot) → List (String × Slot)) :
    ((w.withProperties o f).objects.get? o').map
        (fun c => (c.listeners, c.pending, c.scheduled)) =
      (w.objects.get? o').map fun c => (c.listeners, c.pending, c.scheduled) :=
  Store.map_get?_modify _ _ _ fun _ => rfl

theorem slot?_withProperties (frame : ∀ slots n', n' ≠ n →
      Entries.get? n' (f slots) = Entries.get? n' slots) (o' : Ref .object) (n' : String)
    (other : ¬ (o' = o ∧ n' = n)) : (w.withProperties o f).slot? o' n' = w.slot? o' n' := by
  by_cases same : o' = o
  · subst same
    simp only [slot?, withProperties, modifyObject, Store.get?_modify_self]
    cases w.objects.get? o' with
    | none => rfl
    | some c => exact frame c.properties n' fun e => other ⟨rfl, e⟩
  · exact slot?_modifyObject_of_ne _ n' same

theorem due_withProperties (w : World η) (o : Ref .object)
    (f : List (String × Slot) → List (String × Slot)) (o' : Ref .object) (n' : String) :
    (w.withProperties o f).Due o' n' ↔ w.Due o' n' := by
  have same := objects_withProperties w o o' f
  refine or_congr ?_ Iff.rfl
  constructor
  · rintro ⟨c, e, rest⟩
    rw [e, Option.map_some, eq_comm, Option.map_eq_some_iff] at same
    obtain ⟨c', e', same⟩ := same
    simp only [Prod.mk.injEq] at same
    exact ⟨c', e', same.2.1 ▸ rest⟩
  · rintro ⟨c, e, rest⟩
    rw [e, Option.map_some, Option.map_eq_some_iff] at same
    obtain ⟨c', e', same⟩ := same
    simp only [Prod.mk.injEq] at same
    exact ⟨c', e', same.2.1 ▸ rest⟩

/-- Changing a property that is not trapped, without making a trap, concerns nobody. -/
theorem wired_withProperties (h : w.Wired) (frame : ∀ slots n', n' ≠ n →
      Entries.get? n' (f slots) = Entries.get? n' slots)
    (untrapped : ∀ r, w.slot? o n ≠ some (.trap r))
    (untrapped' : ∀ r, (w.withProperties o f).slot? o n ≠ some (.trap r)) :
    (w.withProperties o f).Wired := by
  have tunes := tunes_withProperties w o f
  have cell : ∀ {o' c}, (w.withProperties o f).objects.get? o' = some c → ∃ c',
      w.objects.get? o' = some c' ∧ c'.listeners = c.listeners ∧ c'.pending = c.pending ∧
        c'.scheduled = c.scheduled := by
    intro o' c e
    have same := objects_withProperties w o o' f
    rw [e, Option.map_some, eq_comm, Option.map_eq_some_iff] at same
    obtain ⟨c', e', same⟩ := same
    simp only [Prod.mk.injEq] at same
    exact ⟨c', e', same⟩
  refine ⟨tunes.located h.toLocated, tunes.registered h.toRegistered, ?_, ?_, ?_, h.trapping,
    h.willing, ?_, ?_, ?_, h.queued, h.tasks, ?_⟩
  · intro o' c t l e m
    obtain ⟨c', e', listeners, -⟩ := cell e
    exact h.listener o' c' t l e' (listeners ▸ m)
  · intro d dc t e listener
    obtain ⟨c, e', listeners⟩ := h.listens d dc t e listener
    have same := objects_withProperties w o dc.object f
    rw [e', Option.map_some, Option.map_eq_some_iff] at same
    obtain ⟨c', e'', same⟩ := same
    simp only [Prod.mk.injEq] at same
    exact ⟨c', e'', same.1 ▸ listeners⟩
  · intro o' n' l at' heard dispatched
    exact h.hearing o' n' l (tunes.leafAt? o' n' ▸ at') (tunes.audience l ▸ heard)
      (tunes.isDispatched o' ▸ dispatched)
  · intro o' n' r
    refine Iff.trans ?_ (h.trap o' n' r)
    by_cases both : o' = o ∧ n' = n
    · obtain ⟨rfl, rfl⟩ := both
      exact ⟨fun e => absurd e (untrapped' r), fun e => absurd e (untrapped r)⟩
    · rw [slot?_withProperties frame o' n' both]
  · intro o' c e
    obtain ⟨c', e', -, -, scheduled⟩ := cell e
    rw [← scheduled]
    exact h.scheduled o' c' e'
  · intro o' c e some
    obtain ⟨c', e', listeners, pending, scheduled⟩ := cell e
    rw [← scheduled, ← listeners]
    exact h.pending o' c' e' (pending ▸ some)
  · intro task m
    rcases h.known task m with ⟨o', rfl, live⟩ | rest
    · exact .inl ⟨o', rfl, (tunes.contains o').trans live⟩
    · exact .inr rest

end

/-! ### Records -/

/-- A world in which a change of an object is recorded. -/
def withRecord (w : World η) (o : Ref .object) (change : ChangeRecord) (queue : Bool) : World η :=
  { w.modifyObject o fun cell =>
      { cell with pending := cell.pending ++ [change], scheduled := true } with
    tasks := { w.tasks with
      microtasks := w.tasks.microtasks ++ if queue then [.deliver o] else [] } }

section
variable {o : Ref .object} {c : ObjectCell} {change : ChangeRecord}

theorem record_eq (e : w.objects.get? o = some c) (change : ChangeRecord) :
    w.record o change =
      if c.listeners.entries = [] then w else w.withRecord o change (!c.scheduled) := by
  unfold record Listeners.isEmpty
  simp only [e]
  cases entries : c.listeners.entries with
  | nil => rfl
  | cons p rest =>
    simp only [List.isEmpty_cons, Bool.false_eq_true, if_false, reduceCtorEq]
    cases c.scheduled with
    | false => rfl
    | true =>
      simp only [if_true, withRecord, Bool.not_true, Bool.false_eq_true, if_false, List.append_nil]
      rfl

theorem tunes_withRecord (w : World η) (o : Ref .object) (change : ChangeRecord) (queue : Bool) :
    w.Tunes (w.withRecord o change queue) where
  config := rfl
  elements _ := rfl
  arrays := rfl
  locator := rfl
  contains o' := contains_modifyObject o o' _
  isFrozen _ := isFrozen_modifyObject fun _ => rfl
  dispatchers _ := rfl
  properties _ := rfl
  placeholders _ := rfl
  place? l := by cases l <;> rfl
  successor? _ := rfl
  audience l := by cases l <;> rfl
  movedTo? _ _ := rfl
  subscriptions := rfl
  nextToken := Nat.le_refl _

theorem slot?_withRecord (w : World η) (o o' : Ref .object) (change : ChangeRecord) (queue : Bool)
    (n : String) : (w.withRecord o change queue).slot? o' n = w.slot? o' n :=
  slot?_modifyObject (o := o) n fun _ => rfl

/-- A change that is recorded is recorded beside everything else. -/
theorem record_cases (w : World η) (o : Ref .object) (change : ChangeRecord) :
    w.record o change = w ∨ ∃ queue, w.record o change = w.withRecord o change queue := by
  cases get : w.objects.get? o with
  | none => exact .inl (by simp only [record, get])
  | some c =>
    rw [record_eq get]
    split
    · exact .inl rfl
    · exact .inr ⟨_, rfl⟩

theorem slot?_record (w : World η) (o o' : Ref .object) (change : ChangeRecord) (n : String) :
    (w.record o change).slot? o' n = w.slot? o' n := by
  rcases w.record_cases o change with same | ⟨queue, made⟩
  · rw [same]
  · rw [made, slot?_withRecord]

theorem holds_withRecord (w : World η) (o : Ref .object) (change : ChangeRecord) (queue : Bool) :
    w.Holds (w.withRecord o change queue) :=
  (Holds.modifyObject w o (f := fun cell =>
    { cell with pending := cell.pending ++ [change], scheduled := true })
    (fun _ => rfl) fun _ => rfl).trans (.of_eq rfl rfl)

theorem objects_withRecord (e : w.objects.get? o = some c) (change : ChangeRecord) (queue : Bool)
    (o' : Ref .object) : (w.withRecord o change queue).objects.get? o' =
      if o' = o then some { c with pending := c.pending ++ [change], scheduled := true }
      else w.objects.get? o' := by
  simp only [withRecord, modifyObject, Store.get?_modify, e, Option.map_some]

theorem due_withRecord (e : w.objects.get? o = some c) (change : ChangeRecord) (queue : Bool)
    (o' : Ref .object) (n : String) : (w.withRecord o change queue).Due o' n ↔
      w.Due o' n ∨ o' = o ∧ n = change.name := by
  simp only [Due, objects_withRecord e]
  by_cases same : o' = o
  · subst same
    constructor
    · rintro (⟨c', e', record, m, name⟩ | queued)
      · simp only [if_true, Option.some.injEq] at e'
        subst e'
        rcases List.mem_append.1 m with m | m
        · exact .inl (.inl ⟨c, e, record, m, name⟩)
        · rw [List.mem_singleton.1 m] at name
          exact .inr ⟨rfl, name.symm⟩
      · exact .inl (.inr queued)
    · rintro ((⟨c', e', record, m, name⟩ | queued) | ⟨-, rfl⟩)
      · rw [e] at e'
        cases e'
        exact .inl ⟨_, if_pos rfl, record, List.mem_append_left _ m, name⟩
      · exact .inr queued
      · exact .inl ⟨_, if_pos rfl, change, by simp, rfl⟩
  · simp only [same, false_and, or_false]
    rfl

/-- A change is recorded only where somebody listens, and then its delivery is queued. -/
theorem wired_withRecord (h : w.Wired) (e : w.objects.get? o = some c)
    (listeners : c.listeners.entries ≠ []) (change : ChangeRecord) :
    (w.withRecord o change (!c.scheduled)).Wired := by
  have tunes := tunes_withRecord w o change (!c.scheduled)
  have objects := objects_withRecord e change (!c.scheduled)
  have queue : ∀ task, task ∈ (w.withRecord o change (!c.scheduled)).tasks.microtasks ↔
      task ∈ w.tasks.microtasks ∨ task = .deliver o := by
    intro task
    simp only [withRecord, List.mem_append]
    cases scheduled : c.scheduled with
    | false => simp
    | true =>
      have := (h.scheduled o c e).1 scheduled
      simp only [Bool.not_true, Bool.false_eq_true, if_false, List.not_mem_nil, or_false]
      exact ⟨.inl, fun m => m.elim id fun same => same ▸ this⟩
  refine ⟨tunes.located h.toLocated, tunes.registered h.toRegistered, ?_, ?_, ?_, h.trapping,
    h.willing, fun o' n' r => ?_, ?_, ?_, fun r c' e' => ?_, ?_, ?_⟩
  · intro o' c' t l e' m
    rw [objects] at e'
    split at e'
    next same =>
      cases e'
      exact h.listener o' c t l (same ▸ e) m
    · exact h.listener o' c' t l e' m
  · intro d dc t e' listener
    obtain ⟨c', e'', listeners⟩ := h.listens d dc t e' listener
    rw [objects]
    split
    next same =>
      rw [same, e] at e''
      cases e''
      exact ⟨_, rfl, listeners⟩
    · exact ⟨c', e'', listeners⟩
  · intro o' n' l at' heard dispatched
    exact h.hearing o' n' l (tunes.leafAt? o' n' ▸ at') (tunes.audience l ▸ heard)
      (tunes.isDispatched o' ▸ dispatched)
  · rw [slot?_withRecord]
    exact h.trap o' n' r
  · intro o' c' e'
    rw [queue]
    rw [objects] at e'
    split at e'
    next same =>
      cases e'
      exact ⟨fun _ => .inr (same ▸ rfl), fun _ => rfl⟩
    next other =>
      rw [h.scheduled o' c' e', Microtask.deliver.injEq]
      exact ⟨.inl, fun m => m.elim id fun same => absurd same other⟩
  · intro o' c' e' some
    rw [objects] at e'
    split at e'
    · cases e'
      exact ⟨rfl, listeners⟩
    · exact h.pending o' c' e' some
  · rw [h.queued r c' e', queue]
    exact ⟨.inl, fun m => m.elim id fun same => by cases same⟩
  · simp only [withRecord]
    cases scheduled : c.scheduled with
    | true => simpa using h.tasks
    | false =>
      have : Microtask.deliver o ∉ w.tasks.microtasks := fun m =>
        absurd ((h.scheduled o c e).2 m) (by simp [scheduled])
      simp only [Bool.not_false, if_true, List.nodup_append, h.tasks, true_and]
      refine ⟨by simp, fun a m b m' same => this ?_⟩
      rw [List.mem_singleton] at m'
      exact m' ▸ same ▸ m
  · intro task m
    rcases (queue task).1 m with m | rfl
    · rcases h.known task m with ⟨o', rfl, live⟩ | rest
      · exact .inl ⟨o', rfl, (tunes.contains o').trans live⟩
      · exact .inr rest
    · exact .inl ⟨o, rfl, (tunes.contains o).trans (by simp [Store.contains, e])⟩

/-- **Changing a property that is not trapped.**  Whoever is registered with it listens to the
object, so the change is recorded for them. -/
theorem writes_record {n : String} {f : List (String × Slot) → List (String × Slot)}
    (change : ChangeRecord) (h : w.Wired)
    (live : w.objects.contains o = true) (unfrozen : w.isFrozen o = false)
    (frame : ∀ slots n', n' ≠ n → Entries.get? n' (f slots) = Entries.get? n' slots)
    (untrapped : ∀ r, w.slot? o n ≠ some (.trap r))
    (plain : ∀ slot, (w.withProperties o f).slot? o n = some slot → ∃ v, slot = .data v)
    (name : change.name = n) : w.Writes ((w.withProperties o f).record o change) o n ∧
      w.Tells ((w.withProperties o f).record o change) o n := by
  have untrapped' : ∀ r, (w.withProperties o f).slot? o n ≠ some (.trap r) := fun r e => by
    obtain ⟨v, e⟩ := plain _ e
    cases e
  have tunes := tunes_withProperties w o f
  have wired := wired_withProperties h frame untrapped untrapped'
  have due := due_withProperties w o f
  have slots : ∀ o' n', ¬ (o' = o ∧ n' = n) → (w.withProperties o f).slot? o' n' = w.slot? o' n' :=
    slot?_withProperties frame
  have values : ∀ s, (w.withProperties o f).slotValue s = w.slotValue s := fun s => by
    cases s <;> rfl
  have get : ∀ o' n', ¬ (o' = o ∧ n' = n) → (w.withProperties o f).get o' n' = w.get o' n' := by
    intro o' n' other
    simp only [World.get, slots o' n' other, values]
  have has : ∀ o' n', ¬ (o' = o ∧ n' = n) → (w.withProperties o f).has o' n' = w.has o' n' := by
    intro o' n' other
    simp only [World.has, slots o' n' other]
  have doubled : ∀ o' n', (w.withProperties o f).IsDoubled o' n' → w.IsDoubled o' n' := by
    rintro o' n' ⟨v, e⟩
    by_cases both : o' = o ∧ n' = n
    · obtain ⟨rfl, rfl⟩ := both
      obtain ⟨v', e'⟩ := plain _ e
      cases e'
    · exact ⟨v, (slots o' n' both).symm.trans e⟩
  have backdrop : (w.withProperties o f).backdrop = w.backdrop := rfl
  have tasks : (w.withProperties o f).tasks = w.tasks := rfl
  have cells := objects_withProperties w o o f
  -- whoever is registered listens through the dispatcher
  have listens : ∀ l, w.leafAt? o n = some l → w.audience l ≠ [] →
      ∃ c, w.objects.get? o = some c ∧ c.listeners.entries ≠ [] := by
    intro l at' heard
    by_cases dispatched : w.isDispatched o = true
    · obtain ⟨d, dc, e, rfl, listener⟩ := h.hearing o n l at' heard dispatched
      cases token : dc.listener with
      | none => exact absurd token listener
      | some t =>
        obtain ⟨c, e', listeners⟩ := h.listens d dc t e token
        exact ⟨c, e', by simp [listeners]⟩
    · obtain ⟨place, -, fits⟩ := h.current o n l at'
      cases l with
      | setter r =>
          simp only [place?, Option.map_eq_some_iff, Prod.mk.injEq] at place
          obtain ⟨c, e, eo, en⟩ := place
          refine absurd ((h.trap o n r).2 ⟨c, e, eo, en, h.trapping r c e ?_⟩) (untrapped r)
          simpa [audience, e] using heard
      | property r => exact absurd fits dispatched
      | placeholder r => exact absurd fits dispatched
      | poll r => exact absurd (fits.symm.trans unfrozen) (by simp)
      | _ => exact fits.elim
  generalize w.withProperties o f = W at *
  obtain ⟨c, e⟩ : ∃ c, W.objects.get? o = some c := by
    have := (tunes.contains o).trans live
    exact Option.isSome_iff_exists.1 this
  rw [record_eq e]
  split
  next silent =>
    refine ⟨⟨tunes, wired, ?_, get, has, doubled, fun o' n' e => (due o' n').2 e,
      fun o' n' e => .inl ((due o' n').1 e), fun task m => .inl (tasks ▸ m)⟩, fun l at' heard => ?_⟩
    · rw [backdrop, tasks]
      rfl
    · obtain ⟨c', e', listeners⟩ := listens l at' heard
      rw [e, e', Option.map_some, Option.map_some, Option.some.injEq, Prod.mk.injEq] at cells
      exact absurd (cells.1 ▸ silent) listeners
  next heard =>
    have tunes' := tunes_withRecord W o change (!c.scheduled)
    have holds := holds_withRecord W o change (!c.scheduled)
    have due' := due_withRecord e change (!c.scheduled)
    refine ⟨⟨tunes.trans tunes', wired_withRecord wired e heard change, ?_,
      fun o' n' other => (holds.get o' n').trans (get o' n' other), fun o' n' other => ?_, ?_,
      fun o' n' e => (due' o' n').2 (.inl ((due o' n').2 e)), fun o' n' e => ?_, ?_⟩,
      fun l at' heard => (due' o n).2 (.inr ⟨rfl, name.symm⟩)⟩
    · rw [← backdrop]
      rfl
    · rw [World.has, slot?_withRecord]
      exact has o' n' other
    · rintro o' n' ⟨v, e⟩
      rw [slot?_withRecord] at e
      exact doubled o' n' ⟨v, e⟩
    · rcases (due' o' n').1 e with e | ⟨eo, en⟩
      · exact .inl ((due o' n').1 e)
      · exact .inr ⟨eo, en.trans name⟩
    · intro task m
      simp only [withRecord, List.mem_append] at m
      rcases m with m | m
      · exact .inl (tasks ▸ m)
      · split at m
        · exact .inr (.inl (List.mem_singleton.1 m))
        · cases m

end

/-! ### Trapped properties -/

/-- A world in which a trap has received a value. -/
def withCurrent (w : World η) (r : Ref .setter) (v : Value) (queue : Bool) : World η :=
  { w.modifySetter r fun cell =>
      { cell with current := v, old := if queue then cell.current else cell.old, queued := true } with
    tasks := { w.tasks with
      microtasks := w.tasks.microtasks ++ if queue then [.setter r] else [] } }

section
variable {r : Ref .setter} {c : SetterCell} {o : Ref .object} {n : String}

theorem writeTrap_eq (e : w.setters.get? r = some c) (v : Value) :
    w.writeTrap r v = if c.current.same v then w else w.withCurrent r v (!c.queued) := by
  unfold writeTrap
  simp only [e]
  split
  · rfl
  · cases queued : c.queued with
    | false => rfl
    | true =>
      simp only [if_true, withCurrent, modifySetter, Bool.not_true, Bool.false_eq_true, if_false,
        List.append_nil]
      rw [Store.modify_congr (g := fun cell => { cell with current := v, queued := true })]
      intro cell e'
      rw [e, Option.some.injEq] at e'
      rw [← e', ← queued]

theorem tunes_withCurrent (w : World η) (r : Ref .setter) (v : Value) (queue : Bool) :
    w.Tunes (w.withCurrent r v queue) where
  config := rfl
  elements _ := rfl
  arrays := rfl
  locator := rfl
  contains _ := rfl
  isFrozen _ := rfl
  dispatchers _ := rfl
  properties _ := rfl
  placeholders _ := rfl
  place? l := by
    cases l with
    | setter r' => exact Store.map_get?_modify _ _ _ fun _ => rfl
    | _ => rfl
  successor? _ := rfl
  audience l := by
    cases l with
    | setter r' =>
        exact congrArg (Option.getD · []) (Store.map_get?_modify _ _ _ fun _ => rfl)
    | _ => rfl
  movedTo? _ _ := rfl
  subscriptions := rfl
  nextToken := Nat.le_refl _

theorem setters_withCurrent (e : w.setters.get? r = some c) (v : Value) (queue : Bool)
    (r' : Ref .setter) : (w.withCurrent r v queue).setters.get? r' =
      if r' = r then some
        { c with current := v, old := if queue then c.current else c.old, queued := true }
      else w.setters.get? r' := by
  simp only [withCurrent, modifySetter, Store.get?_modify, e, Option.map_some]

/-- The trap of a property belongs to the observer of the property. -/
theorem Attentive.setter_of_trap (a : w.Attentive) (slot : w.slot? o n = some (.trap r)) :
    ∃ c, w.setters.get? r = some c ∧ c.object = o ∧ c.property = n ∧ c.observing = true :=
  (a.trap o n r).1 slot

theorem get_withCurrent (a : w.Attentive) (slot : w.slot? o n = some (.trap r)) (v : Value)
    (queue : Bool) (o' : Ref .object) (n' : String) : (w.withCurrent r v queue).get o' n' =
      if o' = o ∧ n' = n then v else w.get o' n' := by
  obtain ⟨c, e, rfl, rfl, -⟩ := a.setter_of_trap slot
  have slots : (w.withCurrent r v queue).slot? o' n' = w.slot? o' n' := rfl
  by_cases both : o' = c.object ∧ n' = c.property
  · rw [if_pos both]
    obtain ⟨rfl, rfl⟩ := both
    simp only [World.get, slots, slot, slotValue, setters_withCurrent e, if_true, Option.map_some,
      Option.getD_some]
  · rw [if_neg both]
    simp only [World.get, slots]
    cases slot' : w.slot? o' n' with
    | none => rfl
    | some s =>
      cases s with
      | trap r' =>
          have : r' ≠ r := by
            rintro rfl
            obtain ⟨c', e', eo, en, -⟩ := a.setter_of_trap slot'
            rw [e] at e'
            cases e'
            exact both ⟨eo.symm, en.symm⟩
          simp only [slotValue, setters_withCurrent e, if_neg this]
      | _ => rfl

theorem due_withCurrent (e : w.setters.get? r = some c) (v : Value) (queue : Bool)
    (o' : Ref .object) (n' : String) : (w.withCurrent r v queue).Due o' n' ↔
      w.Due o' n' ∨ o' = c.object ∧ n' = c.property := by
  simp only [Due, setters_withCurrent e]
  constructor
  · rintro (recorded | ⟨r', c', e', eo, en, queued⟩)
    · exact .inl (.inl recorded)
    · split at e'
      · cases e'
        exact .inr ⟨eo.symm, en.symm⟩
      · exact .inl (.inr ⟨r', c', e', eo, en, queued⟩)
  · rintro ((recorded | ⟨r', c', e', eo, en, queued⟩) | ⟨rfl, rfl⟩)
    · exact .inl recorded
    · by_cases same : r' = r
      · subst same
        rw [e] at e'
        cases e'
        exact .inr ⟨r', _, if_pos rfl, eo, en, rfl⟩
      · exact .inr ⟨r', c', (if_neg same).trans e', eo, en, queued⟩
    · exact .inr ⟨r, _, if_pos rfl, rfl, rfl, rfl⟩

theorem wired_withCurrent (h : w.Wired) (e : w.setters.get? r = some c) (v : Value) :
    (w.withCurrent r v (!c.queued)).Wired := by
  have tunes := tunes_withCurrent w r v (!c.queued)
  have setters := setters_withCurrent e v (!c.queued)
  have queue : ∀ task, task ∈ (w.withCurrent r v (!c.queued)).tasks.microtasks ↔
      task ∈ w.tasks.microtasks ∨ task = .setter r := by
    intro task
    simp only [withCurrent, List.mem_append]
    cases queued : c.queued with
    | false => simp
    | true =>
      have := (h.queued r c e).1 queued
      simp only [Bool.not_true, Bool.false_eq_true, if_false, List.not_mem_nil, or_false]
      exact ⟨.inl, fun m => m.elim id fun same => same ▸ this⟩
  have kept : ∀ {r' c'}, (w.withCurrent r v (!c.queued)).setters.get? r' = some c' → ∃ c₀,
      w.setters.get? r' = some c₀ ∧ c'.object = c₀.object ∧ c'.property = c₀.property ∧
        c'.callbacks = c₀.callbacks ∧ c'.observing = c₀.observing ∧ c'.refused = c₀.refused := by
    intro r' c' e'
    rw [setters] at e'
    split at e'
    next same =>
      cases e'
      exact ⟨c, same ▸ e, rfl, rfl, rfl, rfl, rfl⟩
    · exact ⟨c', e', rfl, rfl, rfl, rfl, rfl⟩
  refine ⟨tunes.located h.toLocated, tunes.registered h.toRegistered, h.listener, h.listens, ?_, ?_,
    ?_, ?_, fun o' c' e' => ?_, h.pending, ?_, ?_, ?_⟩
  · intro o' n' l at' heard dispatched
    exact h.hearing o' n' l (tunes.leafAt? o' n' ▸ at') (tunes.audience l ▸ heard)
      (tunes.isDispatched o' ▸ dispatched)
  · intro r' c' e' heard
    obtain ⟨c₀, e₀, -, -, callbacks, observing, -⟩ := kept e'
    exact observing.trans (h.trapping r' c₀ e₀ (callbacks ▸ heard))
  · intro r' c' e'
    obtain ⟨c₀, e₀, -, -, -, -, refused⟩ := kept e'
    exact refused.trans (h.willing r' c₀ e₀)
  · intro o' n' r'
    refine (h.trap o' n' r').trans ⟨?_, ?_⟩
    · rintro ⟨c₀, e₀, rest⟩
      rw [setters]
      split
      next same =>
        rw [same, e] at e₀
        cases e₀
        exact ⟨_, rfl, rest⟩
      · exact ⟨c₀, e₀, rest⟩
    · rintro ⟨c', e', eo, en, observing'⟩
      obtain ⟨c₀, e₀, eo₀, en₀, -, observing, -⟩ := kept e'
      exact ⟨c₀, e₀, eo₀ ▸ eo, en₀ ▸ en, observing ▸ observing'⟩
  · rw [h.scheduled o' c' e', queue]
    exact ⟨.inl, fun m => m.elim id fun same => by cases same⟩
  · intro r' c' e'
    rw [queue]
    rw [setters] at e'
    split at e'
    next same =>
      cases e'
      exact ⟨fun _ => .inr (same ▸ rfl), fun _ => rfl⟩
    next other =>
      rw [h.queued r' c' e', Microtask.setter.injEq]
      exact ⟨.inl, fun m => m.elim id fun same => absurd same other⟩
  · simp only [withCurrent]
    cases queued : c.queued with
    | true => simpa using h.tasks
    | false =>
      have : Microtask.setter r ∉ w.tasks.microtasks := fun m =>
        absurd ((h.queued r c e).2 m) (by simp [queued])
      simp only [Bool.not_false, if_true, List.nodup_append, h.tasks, true_and]
      refine ⟨by simp, fun a m b m' same => this ?_⟩
      rw [List.mem_singleton] at m'
      exact m' ▸ same ▸ m
  · intro task m
    rcases (queue task).1 m with m | rfl
    · rcases h.known task m with live | ⟨r', c', rfl, e'⟩
      · exact .inl live
      · refine .inr ?_
        by_cases same : r' = r
        · exact ⟨r', _, rfl, (setters r').trans (if_pos same)⟩
        · exact ⟨r', c', rfl, (setters r').trans ((if_neg same).trans e')⟩
    · exact .inr ⟨r, _, rfl, (setters r).trans (if_pos rfl)⟩

/-- **A trap receives a value.** -/
theorem writeTrap_spec (h : w.Wired) (slot : w.slot? o n = some (.trap r)) (v : Value) :
    w.Writes (w.writeTrap r v) o n ∧
      ((w.get o n).same v = true ∧ w.writeTrap r v = w ∨
        (w.get o n).same v = false ∧ (w.writeTrap r v).get o n = v ∧ (w.writeTrap r v).Due o n ∧
          (w.writeTrap r v).has o n = true) := by
  obtain ⟨c, e, rfl, rfl, -⟩ := h.toAttentive.setter_of_trap slot
  have current : w.get c.object c.property = c.current := by
    simp only [World.get, slot, slotValue, e, Option.map_some, Option.getD_some]
  have has : w.has c.object c.property = true := by rw [World.has, slot, Option.isSome_some]
  rw [writeTrap_eq e, current]
  split
  next same => exact ⟨.refl h _ _, .inl ⟨same, rfl⟩⟩
  next change =>
    have get := get_withCurrent h.toAttentive slot v (!c.queued)
    have due := due_withCurrent e v (!c.queued)
    refine ⟨⟨tunes_withCurrent w r v _, wired_withCurrent h e v, rfl,
      fun o' n' other => (get o' n').trans (if_neg other), fun _ _ _ => rfl, fun _ _ e => e,
      fun o' n' e => (due o' n').2 (.inl e), fun o' n' e => (due o' n').1 e, ?_⟩,
      .inr ⟨by simpa using change, (get _ _).trans (if_pos ⟨rfl, rfl⟩),
        (due _ _).2 (.inr ⟨rfl, rfl⟩), has⟩⟩
    intro task m
    simp only [withCurrent, List.mem_append] at m
    rcases m with m | m
    · exact .inl m
    · split at m
      · refine .inr (.inr ⟨r, List.mem_singleton.1 m, ?_⟩)
        simp only [place?, e, Option.map_some]
      · cases m

end

/-! ### Writing and removing -/

section
variable {o : Ref .object} {n : String}

theorem frame_put (n : String) (slot : Slot) (slots : List (String × Slot)) (n' : String)
    (ne : n' ≠ n) : Entries.get? n' (Entries.put n slot slots) = Entries.get? n' slots :=
  Entries.get?_put_of_ne slot slots ne

/-- **Writing a property.**  A frozen object keeps it, and so does an object that has the value
already; otherwise the object has the value afterwards. -/
theorem set_spec (h : w.Wired) (live : w.objects.contains o = true) (plain : ¬ w.IsDoubled o n)
    (v : Value) : w.Writes (w.set o n v) o n ∧
      (w.set o n v = w ∧ (w.isFrozen o = true ∨ (w.get o n).same v = true) ∨
        w.isFrozen o = false ∧ (w.has o n = true → (w.get o n).same v = false) ∧
          (w.set o n v).get o n = v ∧ (w.set o n v).has o n = true ∧
          w.Tells (w.set o n v) o n) := by
  unfold set
  cases unfrozen : w.isFrozen o with
  | true => exact ⟨.refl h o n, .inl ⟨rfl, .inl rfl⟩⟩
  | false =>
    simp only [Bool.false_eq_true, if_false, false_or, true_and]
    have put : ∀ change : ChangeRecord, change.name = n →
        (∀ r, w.slot? o n ≠ some (.trap r)) →
        w.Writes ((w.putSlot o n (.data v)).record o change) o n ∧
          ((w.putSlot o n (.data v)).record o change).get o n = v ∧
          ((w.putSlot o n (.data v)).record o change).has o n = true ∧
          w.Tells ((w.putSlot o n (.data v)).record o change) o n := by
      intro change name untrapped
      have slot := slot?_putSlot w o o n n (.data v)
      rw [if_pos ⟨rfl, rfl, live⟩] at slot
      obtain ⟨writes, tells⟩ := writes_record (f := Entries.put n (.data v)) change h live
        unfrozen (frame_put n _) untrapped (fun s e => ⟨v, Option.some.inj (e.symm.trans slot)⟩) name
      refine ⟨writes, ?_⟩
      rw [← and_assoc]
      refine ⟨?_, tells⟩
      obtain ⟨c, e⟩ : ∃ c, (w.putSlot o n (.data v)).objects.get? o = some c :=
        Option.isSome_iff_exists.1 (contains_of_slot? slot)
      rw [record_eq e]
      split
      · simp [World.get, World.has, slot, slotValue]
      · simp [World.get, World.has, slot?_withRecord, slot, slotValue]
    cases slot : w.slot? o n with
    | none =>
      have has : w.has o n = false := by rw [World.has, slot, Option.isSome_none]
      obtain ⟨writes, rest⟩ := put ⟨n, .add, .undefined⟩ rfl fun r e => by
        rw [slot] at e
        cases e
      exact ⟨writes, .inr ⟨fun present => absurd present (by simp [has]), rest⟩⟩
    | some s =>
      cases s with
      | trap r =>
          obtain ⟨writes, ⟨same, unchanged⟩ | ⟨other, get, due, has⟩⟩ := writeTrap_spec h slot v
          · exact ⟨writes, .inl ⟨unchanged, same⟩⟩
          · exact ⟨writes, .inr ⟨fun _ => other, get, has, fun _ _ _ => due⟩⟩
      | doubled stored => exact absurd ⟨stored, slot⟩ plain
      | data old =>
          have current : w.get o n = old := by simp only [World.get, slot, slotValue]
          simp only [current]
          split
          next same => exact ⟨.refl h o n, .inl ⟨rfl, same⟩⟩
          next change =>
            obtain ⟨writes, rest⟩ := put ⟨n, .update, old⟩ rfl fun r e => by
              rw [slot] at e
              cases e
            exact ⟨writes, .inr ⟨fun _ => by simpa using change, rest⟩⟩

/-- **Removing a property** that is not trapped. -/
theorem remove_spec (h : w.Wired) (strategy : w.config.strategy = .changeRecords)
    (distinct : ∀ c, w.objects.get? o = some c → Entries.Distinct c.properties) :
    w.Writes (w.remove o n).2 o n ∧
      ((w.remove o n).2 = w ∧ (w.isFrozen o = true ∨ w.has o n = false) ∨
        w.isFrozen o = false ∧ (w.remove o n).2.get o n = .undefined ∧
          (w.remove o n).2.has o n = false ∧ w.Tells (w.remove o n).2 o n) := by
  unfold remove
  cases unfrozen : w.isFrozen o with
  | true => exact ⟨.refl h o n, .inl ⟨rfl, .inl rfl⟩⟩
  | false =>
    simp only [Bool.false_eq_true, if_false, false_or, true_and]
    cases slot : w.slot? o n with
    | none => exact ⟨.refl h o n, .inl ⟨rfl, by rw [World.has, slot, Option.isSome_none]⟩⟩
    | some s =>
      have untrapped : ∀ r, w.slot? o n ≠ some (.trap r) := by
        intro r e
        obtain ⟨c, e', rfl, rfl, -⟩ := h.toAttentive.setter_of_trap e
        have place : w.place? (.setter r) = some (c.object, c.property) := by
          simp only [place?, e', Option.map_some]
        rcases h.unique _ _ _ place with at' | ⟨p, resolved, -⟩
        · have := (h.current _ _ _ at').2.2.2
          rw [strategy] at this
          cases this
        · cases resolved
      obtain ⟨c, e⟩ : ∃ c, w.objects.get? o = some c :=
        Option.isSome_iff_exists.1 (contains_of_slot? slot)
      have gone : (w.withProperties o (Entries.erase n)).slot? o n = none := by
        simp only [slot?, withProperties, modifyObject, Store.get?_modify_self, e, Option.map_some]
        exact (distinct c e).get?_erase_self
      obtain ⟨writes, tells⟩ := writes_record (f := Entries.erase n) ⟨n, .delete, w.slotValue s⟩ h
        (contains_of_slot? slot) unfrozen (fun slots n' ne => Entries.get?_erase_of_ne slots ne)
        untrapped (fun s e => by rw [gone] at e; cases e) rfl
      refine ⟨writes, .inr ?_⟩
      rw [← and_assoc]
      refine ⟨?_, tells⟩
      obtain ⟨c', e'⟩ : ∃ c', (w.withProperties o (Entries.erase n)).objects.get? o = some c' :=
        Option.isSome_iff_exists.1
          ((contains_modifyObject o o _).trans (contains_of_slot? slot))
      change World.get ((w.withProperties o (Entries.erase n)).record o _) o n = _ ∧
        World.has ((w.withProperties o (Entries.erase n)).record o _) o n = _
      rw [record_eq e']
      split
      · simp [World.get, World.has, gone]
      · simp [World.get, World.has, slot?_withRecord, gone]

end

end World

end ViewBinding
