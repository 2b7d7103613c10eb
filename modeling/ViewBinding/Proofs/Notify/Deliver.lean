import ViewBinding.Proofs.Notify.Tell

/-!
# Notify — delivering to a circle

An object that delivers its change records tells the callbacks of each property that changed, and
the other listeners that it has.  Those of the channel are told the value that the property has when
their turn comes, so the member is abreast from then on (`Announces.tellOwn`, `Announces.dispatch`,
`Announces.deliver`).  A write that changes the property has its record, which keeps the member
abreast until it is delivered (`Piped.set`).
-/

namespace ViewBinding

variable {η : Type}

namespace World

variable {w : World η} {r : Ref .property} {d : Ref .dispatcher} {o : Ref .object} {n : String}

/-- `w'` differs from `w` in what the object `o` contains and has recorded. -/
structure Alters (w w' : World η) (o : Ref .object) : Prop where
  properties : w'.properties = w.properties
  placeholders : w'.placeholders = w.placeholders
  dispatchers : w'.dispatchers = w.dispatchers
  listeners : (w'.objects.get? o).map (·.listeners) = (w.objects.get? o).map (·.listeners)

theorem Piped.alters {w' : World η} (h : w.Piped r d o n) (alters : w.Alters w' o)
    (plain : ∀ slot, w'.slot? o n = some slot → ∃ v, slot = .data v) : w'.Piped r d o n where
  cell := alters.properties ▸ h.cell
  handed := alters.dispatchers ▸ h.handed
  heard := by
    obtain ⟨c, get, m⟩ := h.heard
    have listeners := alters.listeners
    rw [get, Option.map_some, Option.map_eq_some_iff] at listeners
    obtain ⟨c', get', same⟩ := listeners
    exact ⟨c', get', same ▸ m⟩
  plain := plain
  once := alters.dispatchers ▸ h.once

/-- A change that is made where a dispatcher listens waits to be told. -/
theorem Piped.recorded (h : w.Piped r d o n) (v : Value) {change : ChangeRecord}
    (name : change.name = n) : w.Alters ((w.putSlot o n (.data v)).record o change) o ∧
      ((w.putSlot o n (.data v)).record o change).Piped r d o n ∧
      ((w.putSlot o n (.data v)).record o change).Awaits (.property r d o n) := by
  obtain ⟨c, get, m⟩ := h.heard
  have there : (w.putSlot o n (.data v)).objects.get? o =
      some { c with properties := Entries.put n (.data v) c.properties } := by
    simp only [putSlot, modifyObject, Store.get?_modify_self, get, Option.map_some]
  have heard : c.listeners.entries ≠ [] := by
    intro none
    simp [Listeners.toList, none] at m
  have made := (record_eq there change).trans (if_neg heard)
  have objects := objects_withRecord there change (!c.scheduled) o
  rw [if_pos rfl] at objects
  rw [made]
  have alters : w.Alters ((w.putSlot o n (.data v)).withRecord o change (!c.scheduled)) o :=
    ⟨rfl, rfl, rfl, by rw [objects, get]; rfl⟩
  refine ⟨alters, h.alters alters fun slot e => ?_, _, objects, change, ?_, name⟩
  · rw [slot?_withRecord, slot?_putSlot, if_pos ⟨rfl, rfl, by simp [Store.contains, get]⟩] at e
    exact ⟨v, (Option.some.inj e).symm⟩
  · exact List.mem_append_right _ (List.mem_singleton_self _)

/-- **A write** changes nothing, or its change waits to be told. -/
theorem Piped.set (h : w.Piped r d o n) (v : Value) : w.set o n v = w ∨
    w.Alters (w.set o n v) o ∧ (w.set o n v).Piped r d o n ∧
      (w.set o n v).Awaits (.property r d o n) := by
  unfold World.set
  split
  · exact .inl rfl
  · cases slot : w.slot? o n with
    | none => exact .inr (h.recorded v rfl)
    | some s =>
      obtain ⟨old, rfl⟩ := h.plain s slot
      simp only
      split
      · exact .inl rfl
      · exact .inr (h.recorded v rfl)

/-- The world after the records of an object were taken. -/
theorem takeRecords_eq {c : ObjectCell} (get : w.objects.get? o = some c) : w.takeRecords o =
    ((c.pending, c.listeners.toList),
      w.modifyObject o fun cell => { cell with pending := [], scheduled := false }) := by
  simp only [takeRecords, get]

theorem get_takeRecords (w : World η) (o o' : Ref .object) (m : String) :
    (w.takeRecords o).2.get o' m = w.get o' m := by
  unfold takeRecords
  split
  · rfl
  · exact (Holds.modifyObject w o (f := fun cell => { cell with pending := [], scheduled := false })
      (fun _ => rfl) fun _ => rfl).get o' m

theorem Piped.takeRecords (h : w.Piped r d o n) :
    w.Alters (w.takeRecords o).2 o ∧ (w.takeRecords o).2.Piped r d o n := by
  obtain ⟨c, get, -⟩ := h.heard
  let f (cell : ObjectCell) : ObjectCell := { cell with pending := [], scheduled := false }
  have taken : (w.takeRecords o).2 = w.modifyObject o f := congrArg Prod.snd (takeRecords_eq get)
  have alters : w.Alters (w.modifyObject o f) o :=
    ⟨rfl, rfl, rfl, Store.map_get?_modify _ _ _ fun _ => rfl⟩
  have slot : (w.modifyObject o f).slot? o n = w.slot? o n := slot?_modifyObject n fun _ => rfl
  rw [taken]
  exact ⟨alters, h.alters alters fun s e => h.plain s (slot.symm.trans e)⟩

/-- The observer of the channel has the value of the property. -/
theorem Piped.leafValue (h : w.Piped r d o n) : w.leafValue (.property r) = w.get o n := by
  obtain ⟨c, get, rfl, rfl⟩ := h.cell
  simp only [World.leafValue, get]

end World

namespace Circle

variable {F : Circle η} {env : Env η} {w w' : World η} {r : Ref .property} {d : Ref .dispatcher}
  {o : Ref .object} {n : String}

theorem Ready.piped (is : F.channel = .property r d o n) (ready : F.Ready w) : w.Piped r d o n := by
  have := ready.opened
  rwa [is] at this

/-- What leaves the observers and who is told as they are. -/
theorem Ready.alters (is : F.channel = .property r d o n) (ready : F.Ready w) (scene : F.scene w')
    (alters : w.Alters w' o) (piped : w'.Piped r d o n) : F.Goes w w' := by
  have callbacks : w'.callbacksOf F.channel = w.callbacksOf F.channel := by
    simp only [is, World.callbacksOf, alters.properties]
  have stays : F.Stays w' → F.Stays w := by
    rintro ⟨s, m⟩
    exact ⟨s, callbacks ▸ m⟩
  have guest : ∀ s, F.Guest w s → F.Guest w' s := fun s guest =>
    ⟨guest.cast, fun same st => guest.other same (stays st)⟩
  refine ⟨⟨scene, is ▸ piped, callbacks ▸ ready.cast, fun st => callbacks ▸ ready.order (stays st),
    fun r' d' o' n' is' => ?_⟩, stays⟩
  obtain ⟨rfl, rfl, rfl, rfl⟩ := Channel.property.inj (is.symm.trans is')
  obtain ⟨others, parked, listeners⟩ := ready.company _ _ _ _ is
  refine ⟨fun r' c p ne get m => ?_, fun u c q get m => ?_, fun c h get m => ?_⟩
  · exact guest _ (others r' c p ne (alters.properties ▸ get) m)
  · exact guest _ (parked u c q (alters.placeholders ▸ get) m)
  · have same := alters.listeners.symm
    rw [get, Option.map_some, Option.map_eq_some_iff] at same
    obtain ⟨c₀, get₀, same⟩ := same
    exact listeners c₀ h get₀ (same ▸ m)

/-- **A property is written.**  The member stays abreast, for the change waits to be told. -/
theorem Ready.set (is : F.channel = .property r d o n) (ready : F.Ready w)
    (scene : ∀ w w', F.Ready w → F.channel.Turns w w' → F.scene w') (v : Value) :
    F.Keeps w (w.set o n v) := by
  rcases (ready.piped is).set v with same | ⟨alters, piped, awaits⟩
  · rw [same]
    exact .refl ready
  · exact ⟨ready.alters is (scene w _ ready (is ▸ .sets r d o n v w)) alters piped,
      fun _ _ => .inr (is ▸ awaits)⟩

/-! ### The callbacks of several properties -/

/-- Telling the callbacks of another property keeps the member abreast. -/
theorem Announces.tellOther (A : F.Announces env) (is : F.channel = .property r d o n)
    (ready : F.Ready w) {r' : Ref .property} (other : r' ≠ r) (new old : Value) :
    (Run.tellProperty env r' new old).Meets w (fun _ w' => F.Keeps w w') fun _ => True := by
  rw [Run.tellProperty, Run.meets_bind, Run.meets_read]
  cases get : w.properties.get? r' with
  | none => exact .refl ready
  | some c =>
    refine A.guests new old (fun s m => ?_) ready
    obtain ⟨p, there, rfl⟩ := List.mem_map.1 (List.mem_reverse.1 m)
    exact (ready.company _ _ _ _ is).callbacks r' c p other get there

/-- So does telling those who are parked. -/
theorem Announces.tellPlaceholder (A : F.Announces env)
    (resolved : ∀ w u, F.Ready w → F.Step w (w.resolvePlaceholder u))
    (is : F.channel = .property r d o n) (ready : F.Ready w) (u : Ref .placeholder)
    (new old : Value) :
    (Run.tellPlaceholder env u new old).Meets w (fun _ w' => F.Keeps w w') fun _ => True := by
  rw [Run.tellPlaceholder, Run.meets_bind, Run.meets_modify, Run.meets_bind, Run.meets_read]
  have step := resolved w u ready
  cases get : (w.resolvePlaceholder u).placeholders.get? u with
  | none => exact step.keeps
  | some c =>
    have parked : ∀ s ∈ c.parked.map (·.subscriber), F.Guest (w.resolvePlaceholder u) s := by
      intro s m
      obtain ⟨q, there, rfl⟩ := List.mem_map.1 m
      exact (step.ready.company _ _ _ _ is).parked u c q get there
    exact (A.guests new old parked step.ready).mono (fun _ _ kept => step.keeps.trans kept)
      fun _ h => h

/-- Telling the callbacks of the channel makes the member abreast. -/
theorem Announces.tellOwn (A : F.Announces env) (is : F.channel = .property r d o n)
    (ready : F.Ready w) (old : Value) : (Run.tellProperty env r (w.get o n) old).Meets w
      (fun _ w' => F.Goes w w' ∧ F.Abreast w') fun _ => True := by
  obtain ⟨c, get, -⟩ := (ready.piped is).cell
  have value : w.get o n = F.value w := by
    rw [value, is]
    exact (ready.piped is).leafValue.symm
  have callbacks : ((c.callbacks.entries.map (·.2)).reverse : List Subscriber) =
      ((w.callbacksOf F.channel).map (·.2)).reverse := by
    simp only [is, World.callbacksOf, get, Option.map_some, Option.getD_some]
  simp only [Run.tellProperty, Run.meets_bind, Run.meets_read, get]
  change (env.announceAll (c.callbacks.entries.map (·.2)).reverse (w.get o n) old).Meets w _ _
  rw [callbacks, value]
  exact A.audience ready old

/-- **A dispatcher hands out a batch of records.**  The member stays abreast, and it is abreast if
the dispatcher is the one of the channel and a record is about the property. -/
theorem Announces.dispatch (A : F.Announces env)
    (resolved : ∀ w u, F.Ready w → F.Step w (w.resolvePlaceholder u))
    (is : F.channel = .property r d o n) (ready : F.Ready w) (d' : Ref .dispatcher)
    (records : List ChangeRecord) : (Run.dispatchRecords env d' records).Meets w
      (fun _ w' => F.Goes w w' ∧
        (F.Abreast w ∨ d' = d ∧ (∃ record ∈ records, record.name = n) → F.Abreast w'))
      fun _ => True := by
  have piped := ready.piped is
  obtain ⟨dc, handed, object, observer⟩ := piped.handed
  rw [Run.dispatchRecords, Run.meets_bind, Run.meets_read]
  cases get : w.dispatchers.get? d' with
  | none =>
    refine ⟨⟨ready, id⟩, Or.rec id ?_⟩
    rintro ⟨rfl, -⟩
    rw [get] at handed
    cases handed
  | some c =>
    rw [Run.meets_bind, Run.meets_read]
    split
    next =>
      -- the invariant of the loop; the channel is told once, if it is told at all
      let inv (left : List (Leaf × ChangeRecord)) (w₁ : World η) : Prop := F.Goes w w₁ ∧
        (∀ t ∈ left, t.1 = .property r → c.object = o ∧ t.2.name = n) ∧
        (F.Abreast w ∨ (∃ t ∈ World.targets records c.observers, t.1 = .property r) ∧
          (∀ t ∈ left, t.1 ≠ .property r) → F.Abreast w₁)
      refine Run.Meets.mono (Run.meets_forEach (World.targets records c.observers) inv
        ⟨⟨ready, id⟩, ?_, ?_⟩ ?_) ?_ fun _ h => h
      · rintro ⟨l, record⟩ m rfl
        exact piped.once d' c record.name get (World.mem_targets m).2
      · rintro (abreast | ⟨⟨t, m, own⟩, none⟩)
        · exact abreast
        · exact absurd own (none t m)
      · rintro ⟨l, record⟩ left w₁ ⟨goes, own, abreast⟩
        rw [Run.meets_bind, Run.meets_read]
        have rest : ∀ t ∈ left, t.1 = .property r → c.object = o ∧ t.2.name = n :=
          fun t m => own t (List.mem_cons_of_mem _ m)
        have pass : l ≠ .property r → ∀ w₂, F.Keeps w₁ w₂ → inv left w₂ := by
          intro other w₂ kept
          refine ⟨goes.trans kept.toGoes, rest, fun h => kept.abreast (abreast ?_)⟩
          exact h.imp_right (And.imp_right fun last => List.forall_mem_cons.2 ⟨other, last⟩)
        cases l with
        | property r' =>
          by_cases same : r' = r
          · obtain ⟨rfl, rfl⟩ := own _ List.mem_cons_self (congrArg Leaf.property same)
            rw [same]
            exact (A.tellOwn is goes.ready _).mono
              (fun _ w₂ h => ⟨goes.trans h.1, rest, fun _ => h.2⟩) fun _ h => h
          · exact (A.tellOther is goes.ready same _ _).mono
              (fun _ w₂ kept => pass (fun h => same (Leaf.property.inj h)) w₂ kept) fun _ h => h
        | placeholder u =>
          exact (A.tellPlaceholder resolved is goes.ready u _ _).mono
            (fun _ w₂ kept => pass (fun is => by cases is) w₂ kept) fun _ h => h
        | _ => exact pass (fun is => by cases is) w₁ (.refl goes.ready)
      · rintro - w' ⟨goes, -, abreast⟩
        refine ⟨goes, fun h => abreast (h.imp_right ?_)⟩
        rintro ⟨rfl, record, m, rfl⟩
        obtain rfl := Option.some.inj (handed.symm.trans get)
        obtain ⟨record', target⟩ := World.mem_targets_of_mem m observer
        exact ⟨⟨_, target, rfl⟩, fun _ m => absurd m List.not_mem_nil⟩
    next gone =>
      refine ⟨⟨ready, id⟩, Or.rec id ?_⟩
      rintro ⟨rfl, -⟩
      obtain rfl := Option.some.inj (handed.symm.trans get)
      obtain ⟨oc, there, -⟩ := piped.heard
      simp [object, Store.contains, there] at gone

/-- **An object delivers its change records**, and the member stays abreast. -/
theorem Announces.deliver (A : F.Announces env)
    (scene : ∀ w w', F.Ready w → F.channel.Turns w w' → F.scene w')
    (taken : ∀ w v, F.Ready w → F.knows w v → F.knows (w.takeRecords o).2 v)
    (resolved : ∀ w u, F.Ready w → F.Step w (w.resolvePlaceholder u))
    (is : F.channel = .property r d o n) (ready : F.Ready w) :
    (Run.deliver env o).Meets w (fun _ w' => F.Keeps w w') fun _ => True := by
  have piped := ready.piped is
  obtain ⟨c, get, listens⟩ := piped.heard
  obtain ⟨alters, piped'⟩ := piped.takeRecords
  have goes : F.Goes w (w.takeRecords o).2 :=
    ready.alters is (scene w _ ready (is ▸ .takes r d o n w)) alters piped'
  -- what the member knew it knows, unless the change has just been taken
  have before : F.Abreast w → ¬ w.Awaits F.channel → F.Abreast (w.takeRecords o).2 := by
    intro abreast none stays
    refine .inl ?_
    have value : F.value (w.takeRecords o).2 = F.value w := by
      simp only [value, is, Channel.leaf, piped'.leafValue, piped.leafValue,
        World.get_takeRecords]
    rw [value]
    exact taken w _ ready ((abreast (goes.stays stays)).resolve_right none)
  rw [Run.deliver, Run.meets_bind, Run.meets_update]
  simp only [World.takeRecords_eq get] at goes before ⊢
  split
  next none =>
    refine ⟨goes, fun abreast => before abreast ?_⟩
    rw [is]
    rintro ⟨c', get', record, m, -⟩
    obtain rfl := Option.some.inj (get.symm.trans get')
    rw [List.isEmpty_iff.1 none] at m
    cases m
  next =>
    generalize World.modifyObject w o _ = w₁ at goes before ⊢
    let named : Prop := ∃ record ∈ c.pending, record.name = n
    let inv (left : List RecordListener) (w₂ : World η) : Prop := F.Goes w₁ w₂ ∧
      (∀ h, .hook h ∈ left → F.listener h) ∧
      (F.Abreast w₁ ∨ named ∧ .dispatcher d ∉ left → F.Abreast w₂)
    refine Run.Meets.mono (Run.meets_forEach c.listeners.toList inv ⟨⟨goes.ready, id⟩,
      fun h m => ?_, ?_⟩ ?_) ?_ fun _ h => h
    · exact (ready.company _ _ _ _ is).listeners c h get m
    · rintro (abreast | ⟨-, none⟩)
      · exact abreast
      · exact absurd listens none
    · rintro l left w₂ ⟨goes₂, hooks, abreast⟩
      have rest : ∀ h, .hook h ∈ left → F.listener h := fun h m => hooks h (List.mem_cons_of_mem _ m)
      cases l with
      | dispatcher d' =>
        refine (A.dispatch resolved is goes₂.ready d' c.pending).mono ?_ fun _ h => h
        rintro - w₃ ⟨goes₃, abreast₃⟩
        refine ⟨goes₂.trans goes₃, rest, fun h => abreast₃ ?_⟩
        rcases h with before | ⟨some, none⟩
        · exact .inl (abreast (.inl before))
        · by_cases same : d' = d
          · exact .inr ⟨same, some⟩
          · refine .inl (abreast (.inr ⟨some, ?_⟩))
            exact List.not_mem_cons_of_ne_of_not_mem (fun h => same (by cases h; rfl)) none
      | hook h =>
        refine (A.listener h c.pending w₂ (hooks h List.mem_cons_self) goes₂.ready).mono ?_
          fun _ h => h
        rintro - w₃ kept
        refine ⟨goes₂.trans kept.toGoes, rest, fun h => kept.abreast (abreast (h.imp_right ?_))⟩
        exact And.imp_right (List.not_mem_cons_of_ne_of_not_mem fun is => by cases is)
    · rintro - w₃ ⟨goes₃, -, abreast⟩
      refine ⟨goes.trans goes₃, fun h => abreast ?_⟩
      by_cases some : w.Awaits F.channel
      · rw [is] at some
        obtain ⟨c', get', record, m, name⟩ := some
        obtain rfl := Option.some.inj (get.symm.trans get')
        exact .inr ⟨⟨record, m, name⟩, List.not_mem_nil⟩
      · exact .inl (before h some)

end Circle

end ViewBinding
