import ViewBinding.Proofs.Leaf.Slots
import ViewBinding.Proofs.Leaf.Write

/-!
# Leaf — telling what is due

A microtask takes the changes that are due at some properties and owes them to the leaves of these
properties from then on (`Takes`).  It pays by telling each of these leaves' audiences in turn.

`runMicrotask_spec` is the rule for reasoning about a microtask: an invariant `inv owed` that
holds once the changes are taken, and that telling the audience of the first leaf owed turns into
the invariant for the others, holds with nothing owed when the microtask ends.
-/

namespace ViewBinding

namespace World

variable {η : Type} {w w' w'' : World η}

/-- Those whom a leaf tells, in their order: the newest first, but those parked the oldest first. -/
def told (w : World η) : Leaf → List Subscriber
  | .placeholder u => (w.audience (.placeholder u)).map (·.2)
  | l => (w.audience l).reverse.map (·.2)

theorem mem_told {l : Leaf} {sub : Subscriber} :
    sub ∈ w.told l ↔ ∃ t, (t, sub) ∈ w.audience l := by
  cases l <;> simp [told]

theorem told_congr {l : Leaf} (audience : w'.audience l = w.audience l) :
    w'.told l = w.told l := by
  cases l <;> simp only [World.told, audience]

/-- `w'` is `w` after the first of its microtasks has taken what it tells; the others are `rest`, and
the leaves that are to be told are `owed`. -/
structure Takes (w w' : World η) (rest : List Microtask) (owed : List Leaf) : Prop
    extends Tunes w w' where
  wired : w'.Wired
  get : ∀ o n, w'.get o n = w.get o n
  has : ∀ o n, w'.has o n = w.has o n
  doubled : ∀ o n, w'.IsDoubled o n → w.IsDoubled o n
  backdrop : w'.backdrop = { w.backdrop with microtasks := rest }
  due : ∀ o n, w'.Due o n → w.Due o n
  owes : ∀ o n l, w.Due o n → ¬ w'.Due o n → w.leafAt? o n = some l → w.audience l ≠ [] → l ∈ owed
  handed : ∀ l ∈ owed, ∃ o n, w.leafAt? o n = some l ∧ w.Due o n
  taken : ∀ l ∈ owed, ∀ o n, w.leafAt? o n = some l → ¬ w'.Due o n
  once : owed.Nodup
  slots : ∀ o, w'.slots o = w.slots o

/-! ### Taking records -/

/-- A world in which the records of an object are taken for delivery. -/
def withDelivered (w : World η) (o : Ref .object) (rest : List Microtask) : World η :=
  { w.modifyObject o fun cell => { cell with pending := [], scheduled := false } with
    tasks := { w.tasks with microtasks := rest } }

section
variable {o : Ref .object} {c : ObjectCell} {rest : List Microtask}

theorem tunes_withDelivered (w : World η) (o : Ref .object) (rest : List Microtask) :
    w.Tunes (w.withDelivered o rest) where
  config := rfl
  elements _ := rfl
  arrays := rfl
  locator := rfl
  contains o' := contains_modifyObject o o' _
  isFrozen _ := isFrozen_modifyObject fun _ => rfl
  dispatchers _ := rfl
  properties _ := rfl
  placeholders _ := rfl
  place? l := by cases l <;> rfl
  successor? _ := rfl
  audience l := by cases l <;> rfl
  movedTo? _ _ := rfl
  subscriptions := rfl
  nextToken := Nat.le_refl _

theorem slot?_withDelivered (w : World η) (o o' : Ref .object) (rest : List Microtask)
    (n : String) : (w.withDelivered o rest).slot? o' n = w.slot? o' n :=
  slot?_modifyObject (o := o) n fun _ => rfl

theorem get_withDelivered (w : World η) (o : Ref .object) (rest : List Microtask)
    (o' : Ref .object) (n : String) : (w.withDelivered o rest).get o' n = w.get o' n :=
  ((Holds.modifyObject w o (f := fun cell => { cell with pending := [], scheduled := false })
    (fun _ => rfl) fun _ => rfl).trans (.of_eq rfl rfl)).get o' n

theorem objects_withDelivered (e : w.objects.get? o = some c) (rest : List Microtask)
    (o' : Ref .object) : (w.withDelivered o rest).objects.get? o' =
      if o' = o then some { c with pending := [], scheduled := false }
      else w.objects.get? o' := by
  simp only [withDelivered, modifyObject, Store.get?_modify, e, Option.map_some]

theorem wired_withDelivered (h : w.Wired) (tasks : w.tasks.microtasks = .deliver o :: rest)
    (e : w.objects.get? o = some c) : (w.withDelivered o rest).Wired := by
  have tunes := tunes_withDelivered w o rest
  have objects := objects_withDelivered e rest
  have nodup := h.tasks
  rw [tasks, List.nodup_cons] at nodup
  refine ⟨tunes.located h.toLocated, tunes.registered h.toRegistered, ?_, ?_, ?_, h.trapping,
    h.willing, fun o' n r => ?_, ?_, ?_, fun r c' e' => ?_, nodup.2, ?_⟩
  · intro o' c' t l e' m
    rw [objects] at e'
    split at e'
    next same =>
      cases e'
      exact h.listener o' c t l (same ▸ e) m
    · exact h.listener o' c' t l e' m
  · intro d dc t e' listener
    obtain ⟨c', e'', listeners⟩ := h.listens d dc t e' listener
    rw [objects]
    split
    next same =>
      rw [same, e] at e''
      cases e''
      exact ⟨_, rfl, listeners⟩
    · exact ⟨c', e'', listeners⟩
  · intro o' n l at' heard dispatched
    exact h.hearing o' n l (tunes.leafAt? o' n ▸ at') (tunes.audience l ▸ heard)
      (tunes.isDispatched o' ▸ dispatched)
  · rw [slot?_withDelivered]
    exact h.trap o' n r
  · intro o' c' e'
    rw [objects] at e'
    split at e'
    next same =>
      cases e'
      rw [same]
      exact ⟨fun e => (by cases e), fun m => absurd m nodup.1⟩
    next other =>
      rw [h.scheduled o' c' e', tasks, List.mem_cons, Microtask.deliver.injEq]
      exact ⟨fun m => m.elim (absurd · other) id, .inr⟩
  · intro o' c' e' some
    rw [objects] at e'
    split at e'
    · cases e'
      exact absurd rfl some
    · exact h.pending o' c' e' some
  · rw [h.queued r c' e', tasks, List.mem_cons]
    exact ⟨fun m => m.elim (fun e => by cases e) id, .inr⟩
  · intro task m
    rcases h.known task (tasks ▸ List.mem_cons_of_mem _ m) with ⟨o', rfl, live⟩ | rest
    · exact .inl ⟨o', rfl, (tunes.contains o').trans live⟩
    · exact .inr rest

/-! ### The latest records -/

theorem latestRecords_aux (records latest : List ChangeRecord) :
    (∀ record ∈ records.foldl (fun latest record =>
        if latest.any (·.name = record.name) then latest else latest ++ [record]) latest,
      record ∈ latest ∨ record ∈ records) ∧
    ∀ record, record ∈ latest ∨ record ∈ records → ∃ record' ∈ records.foldl (fun latest record =>
        if latest.any (·.name = record.name) then latest else latest ++ [record]) latest,
      record'.name = record.name := by
  induction records generalizing latest with
  | nil => exact ⟨fun _ m => .inl m, fun record m => ⟨record, m.elim id nofun, rfl⟩⟩
  | cons first records ih =>
    rw [List.foldl_cons]
    split
    next seen =>
      refine ⟨fun record m => ((ih latest).1 record m).imp id (List.mem_cons_of_mem _), ?_⟩
      rintro record (m | m)
      · exact (ih latest).2 record (.inl m)
      · rcases List.mem_cons.1 m with rfl | m
        · obtain ⟨record', m, name⟩ := List.any_eq_true.1 seen
          obtain ⟨record'', m, name'⟩ := (ih latest).2 record' (.inl m)
          exact ⟨record'', m, name'.trans (by simpa using name)⟩
        · exact (ih latest).2 record (.inr m)
    · refine ⟨fun record m => ?_, ?_⟩
      · rcases (ih _).1 record m with m | m
        · rcases List.mem_append.1 m with m | m
          · exact .inl m
          · exact .inr (List.mem_singleton.1 m ▸ List.mem_cons_self)
        · exact .inr (List.mem_cons_of_mem _ m)
      · rintro record (m | m)
        · exact (ih _).2 record (.inl (List.mem_append_left _ m))
        · rcases List.mem_cons.1 m with rfl | m
          · exact (ih _).2 record (.inl (by simp))
          · exact (ih _).2 record (.inr m)

theorem mem_of_mem_latestRecords {records : List ChangeRecord} {record : ChangeRecord}
    (m : record ∈ Run.latestRecords records) : record ∈ records :=
  ((latestRecords_aux records.reverse []).1 record m).elim nofun List.mem_reverse.1

/-- Every name of a record is the name of one of the latest records. -/
theorem exists_mem_latestRecords {records : List ChangeRecord} {record : ChangeRecord}
    (m : record ∈ records) : ∃ record' ∈ Run.latestRecords records, record'.name = record.name :=
  (latestRecords_aux records.reverse []).2 record (.inr (List.mem_reverse.2 m))

/-- No two of the latest records have one name. -/
theorem pairwise_latestRecords (records : List ChangeRecord) :
    (Run.latestRecords records).Pairwise (·.name ≠ ·.name) := by
  unfold Run.latestRecords
  suffices apart : ∀ (records latest : List ChangeRecord), latest.Pairwise (·.name ≠ ·.name) →
      (records.foldl (fun latest record =>
        if latest.any (·.name = record.name) then latest else latest ++ [record]) latest).Pairwise
          (·.name ≠ ·.name) from apart _ [] .nil
  intro records
  induction records with
  | nil => exact fun _ h => h
  | cons record rest ih =>
    intro latest h
    rw [List.foldl_cons]
    split
    · exact ih _ h
    next unseen =>
      refine ih _ (List.pairwise_append.2 ⟨h, List.pairwise_singleton _ _, fun r m r' m' same => ?_⟩)
      rw [List.mem_singleton.1 m'] at same
      exact unseen (List.any_eq_true.2 ⟨r, m, decide_eq_true same⟩)

/-- The leaves to which a dispatcher hands records, each with the record that it is told. -/
def targets (records : List ChangeRecord) (observers : List (String × Leaf)) :
    List (Leaf × ChangeRecord) :=
  (Run.latestRecords records).filterMap fun record =>
    (Entries.get? record.name observers).map fun leaf => (leaf, record)

theorem mem_targets {records : List ChangeRecord} {observers : List (String × Leaf)} {l : Leaf}
    {record : ChangeRecord} (m : (l, record) ∈ targets records observers) :
    record ∈ records ∧ Entries.get? record.name observers = some l := by
  simp only [targets, List.mem_filterMap, Option.map_eq_some_iff, Prod.mk.injEq] at m
  obtain ⟨record', m, l', e, rfl, rfl⟩ := m
  exact ⟨mem_of_mem_latestRecords m, e⟩

theorem mem_targets_of_mem {records : List ChangeRecord} {observers : List (String × Leaf)}
    {l : Leaf} {record : ChangeRecord} (m : record ∈ records)
    (e : Entries.get? record.name observers = some l) :
    ∃ record', (l, record') ∈ targets records observers := by
  obtain ⟨record', m, name⟩ := exists_mem_latestRecords m
  refine ⟨record', ?_⟩
  simp only [targets, List.mem_filterMap, Option.map_eq_some_iff, Prod.mk.injEq]
  exact ⟨record', m, l, name ▸ e, rfl, rfl⟩

/-- No leaf is handed two records, if none is handed out for two names. -/
theorem nodup_targets {records : List ChangeRecord} {observers : List (String × Leaf)}
    (apart : ∀ n n' l, Entries.get? n observers = some l → Entries.get? n' observers = some l →
      n = n') : ((targets records observers).map Prod.fst).Nodup := by
  rw [targets, List.map_filterMap]
  refine (pairwise_latestRecords records).filterMap _ fun r r' other l e l' e' same => other ?_
  simp only [Option.map_map, Option.map_eq_some_iff, Function.comp_apply,
    exists_eq_right] at e e'
  exact apart _ _ l e (same ▸ e')

/-- The dispatcher of an object that has records listens alone to the object. -/
theorem Wired.dispatcher_of_pending (h : w.Wired) (e : w.objects.get? o = some c)
    (pending : c.pending ≠ []) : ∃ d dc t, w.dispatchers.get? d = some dc ∧ dc.object = o ∧
      c.listeners.entries = [(t, .dispatcher d)] ∧
      Entries.get? o w.locator.dispatchers = some d ∧ w.isDispatched o = true := by
  obtain ⟨-, some⟩ := h.pending o c e pending
  obtain ⟨⟨t, l⟩, m⟩ := List.exists_mem_of_ne_nil _ some
  obtain ⟨d, dc, rfl, e', rfl, listener⟩ := h.listener o c t l e m
  obtain ⟨c', e'', entries⟩ := h.listens d dc t e' listener
  rw [e] at e''
  cases e''
  obtain ⟨found, -, dispatched⟩ := h.found d dc e'
  exact ⟨d, dc, t, e', rfl, entries, found, dispatched⟩

/-- The observer of a trapped property is the one that the locator hands out. -/
theorem Located.leafAt?_of_setter (h : w.Located) {r : Ref .setter} {o : Ref .object} {n : String}
    (place : w.place? (.setter r) = some (o, n)) : w.leafAt? o n = some (.setter r) := by
  rcases h.unique o n _ place with at' | ⟨p, resolved, -⟩
  · exact at'
  · cases resolved

/-- A property of an object whose changes are recorded is not trapped. -/
theorem Located.not_dispatched_of_setter (h : w.Located) {r : Ref .setter} {c : SetterCell}
    (e : w.setters.get? r = some c) : ¬ w.isDispatched c.object = true := by
  have place : w.place? (.setter r) = some (c.object, c.property) := by
    simp only [place?, e, Option.map_some]
  have fits := (h.current _ _ _ (h.leafAt?_of_setter place)).2.2
  simp [World.isDispatched, fits.2]

theorem takes_withDelivered {d : Ref .dispatcher} {dc : DispatcherCell} (h : w.Wired)
    (tasks : w.tasks.microtasks = .deliver o :: rest) (e : w.objects.get? o = some c)
    (e' : w.dispatchers.get? d = some dc) (eo : dc.object = o) :
    w.Takes (w.withDelivered o rest) rest ((targets c.pending dc.observers).map Prod.fst) where
  toTunes := tunes_withDelivered w o rest
  wired := wired_withDelivered h tasks e
  get := get_withDelivered w o rest
  has o' n := by rw [World.has, slot?_withDelivered, World.has]
  doubled o' n := by rintro ⟨v, e⟩; exact ⟨v, slot?_withDelivered w o o' rest n ▸ e⟩
  backdrop := rfl
  due o' n := by
    rintro (⟨c', e₁, record, m, name⟩ | queued)
    · rw [objects_withDelivered e] at e₁
      split at e₁
      · cases e₁
        cases m
      · exact .inl ⟨c', e₁, record, m, name⟩
    · exact .inr queued
  owes o' n l due notDue at' heard := by
    rcases due with ⟨c', e₁, record, m, rfl⟩ | queued
    · have same : o' = o := by
        refine Classical.byContradiction fun other => notDue (.inl ⟨c', ?_, record, m, rfl⟩)
        rw [objects_withDelivered e, if_neg other, e₁]
      subst same
      rw [e] at e₁
      cases e₁
      obtain ⟨found, -, dispatched⟩ := h.found d dc e'
      rw [eo] at found dispatched
      simp only [leafAt?, dispatched, if_true, found, e'] at at'
      obtain ⟨record', m⟩ := mem_targets_of_mem m at'
      exact List.mem_map_of_mem m
    · exact absurd (.inr queued) notDue
  handed l m := by
    obtain ⟨⟨l, record⟩, target, rfl⟩ := List.mem_map.1 m
    obtain ⟨found, -, dispatched⟩ := h.found d dc e'
    refine ⟨dc.object, record.name, ?_, .inl ⟨c, eo ▸ e, record, (mem_targets target).1, rfl⟩⟩
    simp only [leafAt?, dispatched, if_true, found, e']
    exact (mem_targets target).2
  taken l m o' n at' := by
    obtain ⟨⟨l, record⟩, target, rfl⟩ := List.mem_map.1 m
    obtain ⟨found, -, dispatched⟩ := h.found d dc e'
    have at'' : w.leafAt? dc.object record.name = some l := by
      simp only [leafAt?, dispatched, if_true, found, e']
      exact (mem_targets target).2
    have same := (h.current _ _ l at').1.symm.trans (h.current _ _ l at'').1
    obtain rfl : o' = o := (Prod.mk.inj (Option.some.inj same)).1.trans eo
    rintro (⟨c', e₁, record, m, -⟩ | ⟨r, c', e₁, rfl, rfl, -⟩)
    · rw [objects_withDelivered e, if_pos rfl] at e₁
      cases e₁
      cases m
    · exact (h.not_dispatched_of_setter e₁) (eo ▸ dispatched)
  once := by
    obtain ⟨found, -, dispatched⟩ := h.found d dc e'
    have place : ∀ n l, Entries.get? n dc.observers = some l → w.place? l = some (dc.object, n) :=
      fun n l at' =>
        (h.current dc.object n l (by simp only [leafAt?, dispatched, if_true, found, e', at'])).1
    refine nodup_targets fun n n' l at' at'' => ?_
    exact (Prod.mk.inj (Option.some.inj ((place n l at').symm.trans (place n' l at'')))).2
  slots o' := slots_modifyObject w o o' fun _ => rfl

/-- Where there are no records, taking them takes nothing. -/
theorem takes_withDelivered_nil (h : w.Wired) (tasks : w.tasks.microtasks = .deliver o :: rest)
    (e : w.objects.get? o = some c) (none : c.pending = []) :
    w.Takes (w.withDelivered o rest) rest [] where
  toTunes := tunes_withDelivered w o rest
  wired := wired_withDelivered h tasks e
  get := get_withDelivered w o rest
  has o' n := by rw [World.has, slot?_withDelivered, World.has]
  doubled o' n := by rintro ⟨v, e⟩; exact ⟨v, slot?_withDelivered w o o' rest n ▸ e⟩
  backdrop := rfl
  due o' n := by
    rintro (⟨c', e₁, record, m, name⟩ | queued)
    · rw [objects_withDelivered e] at e₁
      split at e₁
      · cases e₁
        cases m
      · exact .inl ⟨c', e₁, record, m, name⟩
    · exact .inr queued
  owes o' n l due notDue at' heard := by
    rcases due with ⟨c', e₁, record, m, rfl⟩ | queued
    · by_cases same : o' = o
      · subst same
        rw [e] at e₁
        cases e₁
        rw [none] at m
        cases m
      · refine absurd (.inl ⟨c', ?_, record, m, rfl⟩) notDue
        rw [objects_withDelivered e, if_neg same, e₁]
    · exact absurd (.inr queued) notDue
  handed l m := by cases m
  taken l m := by cases m
  once := .nil
  slots o' := slots_modifyObject w o o' fun _ => rfl

end

/-! ### Taking what a trap received -/

/-- A world in which the microtask of a trap has begun. -/
def withTaken (w : World η) (r : Ref .setter) (rest : List Microtask) : World η :=
  { w.modifySetter r fun cell => { cell with queued := false } with
    tasks := { w.tasks with microtasks := rest } }

section
variable {r : Ref .setter} {c : SetterCell} {rest : List Microtask}

theorem tunes_withTaken (w : World η) (r : Ref .setter) (rest : List Microtask) :
    w.Tunes (w.withTaken r rest) where
  config := rfl
  elements _ := rfl
  arrays := rfl
  locator := rfl
  contains _ := rfl
  isFrozen _ := rfl
  dispatchers _ := rfl
  properties _ := rfl
  placeholders _ := rfl
  place? l := by
    cases l with
    | setter r' => exact Store.map_get?_modify _ _ _ fun _ => rfl
    | _ => rfl
  successor? _ := rfl
  audience l := by
    cases l with
    | setter r' =>
        exact congrArg (Option.getD · []) (Store.map_get?_modify _ _ _ fun _ => rfl)
    | _ => rfl
  movedTo? _ _ := rfl
  subscriptions := rfl
  nextToken := Nat.le_refl _

theorem setters_withTaken (e : w.setters.get? r = some c) (rest : List Microtask)
    (r' : Ref .setter) : (w.withTaken r rest).setters.get? r' =
      if r' = r then some { c with queued := false } else w.setters.get? r' := by
  simp only [withTaken, modifySetter, Store.get?_modify, e, Option.map_some]

theorem wired_withTaken (h : w.Wired) (tasks : w.tasks.microtasks = .setter r :: rest)
    (e : w.setters.get? r = some c) : (w.withTaken r rest).Wired := by
  have tunes := tunes_withTaken w r rest
  have setters := setters_withTaken e rest
  have nodup := h.tasks
  rw [tasks, List.nodup_cons] at nodup
  have kept : ∀ {r' c'}, (w.withTaken r rest).setters.get? r' = some c' → ∃ c₀,
      w.setters.get? r' = some c₀ ∧ c'.object = c₀.object ∧ c'.property = c₀.property ∧
        c'.callbacks = c₀.callbacks ∧ c'.observing = c₀.observing ∧ c'.refused = c₀.refused := by
    intro r' c' e'
    rw [setters] at e'
    split at e'
    next same =>
      cases e'
      exact ⟨c, same ▸ e, rfl, rfl, rfl, rfl, rfl⟩
    · exact ⟨c', e', rfl, rfl, rfl, rfl, rfl⟩
  refine ⟨tunes.located h.toLocated, tunes.registered h.toRegistered, h.listener, h.listens, ?_, ?_,
    ?_, ?_, fun o' c' e' => ?_, h.pending, ?_, nodup.2, ?_⟩
  · intro o' n' l at' heard dispatched
    exact h.hearing o' n' l (tunes.leafAt? o' n' ▸ at') (tunes.audience l ▸ heard)
      (tunes.isDispatched o' ▸ dispatched)
  · intro r' c' e' heard
    obtain ⟨c₀, e₀, -, -, callbacks, observing, -⟩ := kept e'
    exact observing.trans (h.trapping r' c₀ e₀ (callbacks ▸ heard))
  · intro r' c' e'
    obtain ⟨c₀, e₀, -, -, -, -, refused⟩ := kept e'
    exact refused.trans (h.willing r' c₀ e₀)
  · intro o' n' r'
    refine (h.trap o' n' r').trans ⟨?_, ?_⟩
    · rintro ⟨c₀, e₀, rest⟩
      rw [setters]
      split
      next same =>
        rw [same, e] at e₀
        cases e₀
        exact ⟨_, rfl, rest⟩
      · exact ⟨c₀, e₀, rest⟩
    · rintro ⟨c', e', eo, en, observing'⟩
      obtain ⟨c₀, e₀, eo₀, en₀, -, observing, -⟩ := kept e'
      exact ⟨c₀, e₀, eo₀ ▸ eo, en₀ ▸ en, observing ▸ observing'⟩
  · rw [h.scheduled o' c' e', tasks, List.mem_cons]
    exact ⟨fun m => m.elim (fun e => by cases e) id, .inr⟩
  · intro r' c' e'
    rw [setters] at e'
    split at e'
    next same =>
      cases e'
      rw [same]
      exact ⟨fun e => (by cases e), fun m => absurd m nodup.1⟩
    next other =>
      rw [h.queued r' c' e', tasks, List.mem_cons, Microtask.setter.injEq]
      exact ⟨fun m => m.elim (absurd · other) id, .inr⟩
  · intro task m
    rcases h.known task (tasks ▸ List.mem_cons_of_mem _ m) with live | ⟨r', c', rfl, e'⟩
    · exact .inl live
    · refine .inr ?_
      by_cases same : r' = r
      · exact ⟨r', _, rfl, (setters r').trans (if_pos same)⟩
      · exact ⟨r', c', rfl, (setters r').trans ((if_neg same).trans e')⟩

theorem takes_withTaken (h : w.Wired) (tasks : w.tasks.microtasks = .setter r :: rest)
    (e : w.setters.get? r = some c) : w.Takes (w.withTaken r rest) rest [.setter r] where
  toTunes := tunes_withTaken w r rest
  wired := wired_withTaken h tasks e
  get := get_congr (fun _ _ => rfl) fun slot => by
    cases slot with
    | trap r' =>
        simp only [slotValue, setters_withTaken e]
        split
        next same => simp [same, e]
        · rfl
    | _ => rfl
  has _ _ := rfl
  doubled _ _ h := h
  backdrop := rfl
  due o n := by
    rintro (recorded | ⟨r', c', e', eo, en, queued⟩)
    · exact .inl recorded
    · rw [setters_withTaken e] at e'
      split at e'
      · cases e'
        cases queued
      · exact .inr ⟨r', c', e', eo, en, queued⟩
  owes o n l due notDue at' heard := by
    rcases due with recorded | ⟨r', c', e', eo, en, queued⟩
    · exact absurd (.inl recorded) notDue
    · by_cases same : r' = r
      · subst same
        have place : w.place? (.setter r') = some (o, n) := by
          simp only [place?, e', Option.map_some, eo, en]
        rcases h.unique o n _ place with at'' | ⟨p, resolved, -⟩
        · rw [at'] at at''
          cases at''
          exact List.mem_singleton.2 rfl
        · cases resolved
      · exact absurd (.inr ⟨r', c', (setters_withTaken e rest r').trans ((if_neg same).trans e'),
          eo, en, queued⟩) notDue
  handed l m := by
    rw [List.mem_singleton.1 m]
    have queued := (h.queued r c e).2 (tasks ▸ List.mem_cons_self)
    refine ⟨c.object, c.property, ?_, .inr ⟨r, c, e, rfl, rfl, queued⟩⟩
    rcases h.unique c.object c.property (.setter r) (by simp [place?, e]) with at' | ⟨p, e', -⟩
    · exact at'
    · cases e'
  taken l m o n at' := by
    rw [List.mem_singleton.1 m] at at'
    have place := (h.current o n _ at').1
    simp only [place?, e, Option.map_some, Option.some.injEq, Prod.mk.injEq] at place
    obtain ⟨rfl, rfl⟩ := place
    rintro (⟨c', e₁, record, m, -⟩ | ⟨r', c', e₁, eo, en, queued⟩)
    · obtain ⟨_, _, _, _, _, _, _, dispatched⟩ := h.dispatcher_of_pending e₁ (List.ne_nil_of_mem m)
      exact h.not_dispatched_of_setter e dispatched
    · rw [setters_withTaken e] at e₁
      split at e₁
      · cases e₁
        cases queued
      next other =>
        have place : w.place? (.setter r') = some (c.object, c.property) := by
          simp only [place?, e₁, Option.map_some, eo, en]
        have at'' := h.leafAt?_of_setter place
        rw [at'] at at''
        cases at''
        exact other rfl
  once := List.pairwise_singleton _ _
  slots _ := rfl

end

/-! ### Paying -/

/-- Telling the audience of the first leaf owed pays for it: `inv` holds with the other leaves owed
afterwards. -/
structure Pays (env : Env η) (cut : Prop) (inv : List Leaf → World η → Prop) : Prop where
  wired : ∀ owed w, inv owed w → w.Wired
  resolve : ∀ u owed w, inv (.placeholder u :: owed) w → w.Stays (w.resolvePlaceholder u) →
    (∀ l v, w.place? l = some v → (w.resolvePlaceholder u).audience l = w.audience l) →
      inv (.placeholder u :: owed) (w.resolvePlaceholder u)
  tell : ∀ l owed w o n old, inv (l :: owed) w → w.place? l = some (o, n) →
    (env.announceAll (w.told l) (w.get o n) old).Ends cut w fun _ w' =>
      inv owed w' ∧ ∀ l p, w.place? l = some p → w'.place? l = some p

/-- A placeholder keeps everything when it tries to resolve itself. -/
theorem stays_resolvePlaceholder {u : Ref .placeholder} {o : Ref .object} {n : String}
    (h : w.Wired) (place : w.place? (.placeholder u) = some (o, n)) :
    w.Stays (w.resolvePlaceholder u) ∧
      ∀ l v, w.place? l = some v → (w.resolvePlaceholder u).audience l = w.audience l := by
  rcases h.unique o n _ place with at' | ⟨p, resolved, -⟩
  · obtain ⟨stays, audience, -⟩ := resolvePlaceholder_spec h at'
    exact ⟨stays, audience⟩
  · rw [resolvePlaceholder_of_successor resolved]
    exact ⟨.refl h, fun _ _ _ => rfl⟩

section
variable {env : Env η} {cut : Prop} {inv : List Leaf → World η → Prop}

theorem Pays.dispatchRecords {d : Ref .dispatcher} {dc : DispatcherCell} (pays : Pays env cut inv)
    (h : w.Wired) (e : w.dispatchers.get? d = some dc) (live : w.objects.contains dc.object = true)
    (records : List ChangeRecord) (start : inv ((targets records dc.observers).map Prod.fst) w) :
    (Run.dispatchRecords env d records).Ends cut w fun _ w' => inv [] w' := by
  obtain ⟨found, -, dispatched⟩ := h.found d dc e
  simp only [Run.dispatchRecords, Run.ends_bind, Run.ends_read, e, live, if_true]
  refine Run.Ends.mono (Run.ends_forEach (fun rest w => inv (rest.map Prod.fst) w ∧
    ∀ x ∈ rest, w.place? x.1 = some (dc.object, x.2.name) ∧
      ((∃ p, x.1 = .property p) ∨ ∃ u, x.1 = .placeholder u)) ⟨start, ?_⟩ ?_) fun _ _ h => h.1
  · rintro ⟨l, record⟩ m
    have at' : w.leafAt? dc.object record.name = some l := by
      simp only [leafAt?, dispatched, if_true, found, e]
      exact (mem_targets m).2
    obtain ⟨place, -, fits⟩ := h.current _ _ l at'
    refine ⟨place, ?_⟩
    simp only [World.isDispatched, Bool.and_eq_true, Bool.not_eq_true', decide_eq_true_eq]
      at dispatched
    cases l with
    | property p => exact .inl ⟨p, rfl⟩
    | placeholder u => exact .inr ⟨u, rfl⟩
    | setter r => cases fits.2.symm.trans dispatched.2
    | poll r => cases fits.symm.trans dispatched.1
    | _ => exact fits.elim
  · rintro ⟨l, record⟩ rest w ⟨owed, places⟩
    obtain ⟨place, kind⟩ := places _ List.mem_cons_self
    have others : ∀ {w' : World η}, (∀ l p, w.place? l = some p → w'.place? l = some p) →
        ∀ x ∈ rest, w'.place? x.1 = some (dc.object, x.2.name) ∧
          ((∃ p, x.1 = .property p) ∨ ∃ u, x.1 = .placeholder u) := fun keeps x m =>
      ⟨keeps _ _ (places x (List.mem_cons_of_mem _ m)).1, (places x (List.mem_cons_of_mem _ m)).2⟩
    rw [Run.ends_bind, Run.ends_read]
    rcases kind with ⟨p, same⟩ | ⟨u, same⟩
    · subst same
      have cell := place
      simp only [place?, Option.map_eq_some_iff] at cell
      obtain ⟨c, e, -⟩ := cell
      have told : w.told (.property p) = c.callbacks.newestFirst := by
        simp only [World.told, audience, e, Option.map_some, Option.getD_some,
          Listeners.newestFirst, Listeners.toList, List.map_reverse]
      simp only [Run.tellProperty, Run.ends_bind, Run.ends_read, e, Env.notify, ← told]
      exact (pays.tell _ _ w _ _ _ owed place).mono fun _ w' h => ⟨h.1, others h.2⟩
    · subst same
      obtain ⟨stays, kept⟩ := stays_resolvePlaceholder (pays.wired _ w owed) place
      have place' := stays.place? _ _ place
      have owed' := pays.resolve u _ w owed stays kept
      have get := stays.still.get dc.object record.name
      simp only [Run.tellPlaceholder, Run.ends_bind, Run.ends_read, Run.ends_modify]
      have keeps := stays.place?
      generalize w.resolvePlaceholder u = w₁ at *
      have cell := place'
      simp only [place?, Option.map_eq_some_iff] at cell
      obtain ⟨c, e, -⟩ := cell
      have told : w₁.told (.placeholder u) = c.parked.map (·.subscriber) := by
        simp only [World.told, audience, e, Option.map_some, Option.getD_some, List.map_map]
        rfl
      simp only [e, ← told, ← get]
      exact (pays.tell _ _ w₁ _ _ _ owed' place').mono fun _ w' h =>
        ⟨h.1, others fun l p e => h.2 l p (keeps l p e)⟩

/-- **A microtask pays what it took.** -/
theorem Pays.runMicrotask (pays : Pays env cut inv) (h : w.Wired) {task : Microtask}
    {rest : List Microtask} (tasks : w.tasks.microtasks = task :: rest)
    (start : ∀ w' owed, w.Takes w' rest owed → inv owed w') :
    (Run.runMicrotask env task).Ends cut { w with tasks := { w.tasks with microtasks := rest } }
      fun _ w' => inv [] w' := by
  rcases h.known task (tasks ▸ List.mem_cons_self) with ⟨o, rfl, live⟩ | ⟨r, c, rfl, e⟩
  · obtain ⟨c, e⟩ := Option.isSome_iff_exists.1 live
    have taken : { w with tasks := { w.tasks with microtasks := rest } }.takeRecords o =
        ((c.pending, c.listeners.toList), w.withDelivered o rest) := by
      simp only [takeRecords, e]
      rfl
    simp only [Run.runMicrotask, Run.deliver, Run.ends_bind, Run.ends_update, taken]
    by_cases none : c.pending = []
    · simp only [none, List.isEmpty_nil, if_true]
      exact start _ _ (takes_withDelivered_nil h tasks e none)
    · obtain ⟨d, dc, t, e', eo, entries, -⟩ := h.dispatcher_of_pending e none
      have takes := takes_withDelivered h tasks e e' eo
      simp only [List.isEmpty_eq_false_iff.2 none, Bool.false_eq_true, if_false,
        Listeners.toList, entries, List.map_cons, List.map_nil, Run.ends_forEach_cons,
        Run.ends_forEach_nil]
      refine pays.dispatchRecords takes.wired e' ?_ c.pending (start _ _ takes)
      exact (takes.contains dc.object).trans (eo ▸ live)
  · have takes := takes_withTaken h tasks e
    have place : (w.withTaken r rest).place? (.setter r) = some (c.object, c.property) := by
      rw [takes.place?]
      simp only [place?, e, Option.map_some]
    have told : (w.withTaken r rest).told (.setter r) = c.callbacks.newestFirst := by
      change ((w.withTaken r rest).audience (.setter r)).reverse.map _ = _
      rw [takes.audience]
      simp only [audience, e, Option.map_some, Option.getD_some, Listeners.newestFirst,
        Listeners.toList, List.map_reverse]
    -- the value that the trap keeps is the value of the property, if anybody is told
    have value : env.announceAll c.callbacks.newestFirst c.current c.old =
        env.announceAll c.callbacks.newestFirst
          ((w.withTaken r rest).get c.object c.property) c.old := by
      by_cases none : c.callbacks.entries = []
      · have : c.callbacks.newestFirst = [] := by
          simp only [Listeners.newestFirst, Listeners.toList, none, List.map_nil, List.reverse_nil]
        rw [this]
        rfl
      · have slot := (h.trap c.object c.property r).2 ⟨c, e, rfl, rfl, h.trapping r c e none⟩
        rw [takes.get]
        simp only [World.get, slot, slotValue, e, Option.map_some, Option.getD_some]
    simp only [Run.runMicrotask, Run.tellSetter, Run.ends_bind, Run.ends_read, e, Run.ends_modify,
      Env.notify, ← told]
    rw [← told] at value
    rw [value]
    exact (pays.tell _ [] _ _ _ c.old (start _ _ takes) place).mono fun _ w' h => h.1

/-- Where no microtask waits, nothing is due. -/
theorem Attentive.not_due (a : w.Attentive) (idle : w.tasks.microtasks = []) (o : Ref .object)
    (n : String) : ¬ w.Due o n := by
  rintro (⟨c, e, record, m, -⟩ | ⟨r, c, e, -, -, queued⟩)
  · have := (a.scheduled o c e).1 (a.pending o c e (List.ne_nil_of_mem m)).1
    rw [idle] at this
    cases this
  · have := (a.queued r c e).1 queued
    rw [idle] at this
    cases this

end

end World

end ViewBinding
