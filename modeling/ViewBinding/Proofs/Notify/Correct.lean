import ViewBinding.Proofs.Notify.Deliver
import ViewBinding.Proofs.Sameness

/-!
# Notify — those who play by the rules

A two-way binding is a callback of its element: it assigns what the element shows to its source.
What it knows is what the source holds (`Circle.ofBinding`), and it takes note of every value that it
is told and does nothing else (`ofBinding_hears`).

Beside it stands a host whose hooks take notes, and whose first hook corrects one value by writing
through the observer that told it.  Among such hooks a two-way binding plays by the rules
(`binding_plays`), and so does a hook that takes notes of a property of an object (`reader_plays`).
-/

namespace ViewBinding

/-! ### Two-way bindings -/

section

variable {η : Type} {w w' : World η}

namespace World

variable {b : Ref .binding} {vm : Ref .object} {p : String}

/-- A binding carries what its element shows to the property `p` of `vm`, which holds plain values. -/
structure CarriesBack (w : World η) (b : Ref .binding) (vm : Ref .object) (p : String) : Prop where
  bound : ∃ cell scope, w.bindings.get? b = some cell ∧ cell.expression = .name p ∧
    cell.source = some scope ∧ w.ownerOf scope p = .object vm
  unfrozen : w.isFrozen vm = false
  plain : ∃ v, w.slot? vm p = some (.data v)

/-- What is left of the world around a plain property that is written. -/
structure Written (w w' : World η) (vm : Ref .object) (p : String) (v : Value) : Prop where
  slot? : ∀ o n, w'.slot? o n = if o = vm ∧ n = p then some (.data v) else w.slot? o n
  isFrozen : ∀ o, w'.isFrozen o = w.isFrozen o
  bindings : w'.bindings = w.bindings
  elements : w'.elements = w.elements
  elementProperties : w'.elementProperties = w.elementProperties

theorem written_record (live : w.objects.contains vm = true) (v : Value) (change : ChangeRecord) :
    w.Written ((w.putSlot vm p (.data v)).record vm change) vm p v := by
  have slots : ∀ o n, (w.putSlot vm p (.data v)).slot? o n =
      if o = vm ∧ n = p then some (.data v) else w.slot? o n := fun o n => by
    simp only [slot?_putSlot, live, and_true]
  have frozen : ∀ o, (w.putSlot vm p (.data v)).isFrozen o = w.isFrozen o :=
    fun o => isFrozen_modifyObject fun _ => rfl
  rcases record_cases (w.putSlot vm p (.data v)) vm change with same | ⟨queue, made⟩
  · rw [same]
    exact ⟨slots, frozen, rfl, rfl, rfl⟩
  · rw [made]
    exact ⟨fun o n => (slot?_withRecord _ _ _ _ _ _).trans (slots o n),
      fun o => ((tunes_withRecord _ _ _ _).isFrozen o).trans (frozen o), rfl, rfl, rfl⟩

/-- **What the element shows is carried back.** -/
theorem CarriesBack.set (h : w.CarriesBack b vm p) (v : Value) :
    (w.set vm p v).CarriesBack b vm p ∧ ((w.set vm p v).get vm p).Agrees v ∧
      (w.set vm p v).elements = w.elements ∧
      (w.set vm p v).elementProperties = w.elementProperties := by
  obtain ⟨old, slot⟩ := h.plain
  have live : w.objects.contains vm = true := by
    cases get : w.objects.get? vm with
    | none => simp [slot?, get] at slot
    | some c => simp [Store.contains, get]
  have get : w.get vm p = old := by simp only [World.get, slot, slotValue]
  have set : w.set vm p v = if old.same v then w
      else (w.putSlot vm p (.data v)).record vm ⟨p, .update, old⟩ := by
    simp only [World.set, h.unfrozen, slot, Bool.false_eq_true, if_false]
  rw [set]
  split
  next same => exact ⟨h, .inl (get ▸ same), rfl, rfl⟩
  next =>
    have written := written_record (p := p) live v ⟨p, .update, old⟩
    generalize (w.putSlot vm p (.data v)).record vm ⟨p, .update, old⟩ = w' at written
    have has : ∀ o n, w'.has o n = w.has o n := fun o n => by
      rw [World.has, written.slot?, World.has]
      split
      next both => rw [both.1, both.2, slot]; rfl
      · rfl
    have slot' := (written.slot? vm p).trans (if_pos ⟨rfl, rfl⟩)
    obtain ⟨cell, scope, bound, expression, source, owner⟩ := h.bound
    refine ⟨⟨⟨cell, scope, written.bindings ▸ bound, expression, source,
      (ownerOf_eq has scope p).trans owner⟩, (written.isFrozen vm).trans h.unfrozen, v, slot'⟩, ?_,
      written.elements, written.elementProperties⟩
    simp only [World.get, slot', slotValue]
    exact Value.agrees_self v

theorem CarriesBack.react (h : w.CarriesBack b vm p) (env : Env η) (v old : Value) :
    Run.react env (.target b) v old w = (.ok (), w.set vm p v) := by
  obtain ⟨cell, scope, bound, expression, source, owner⟩ := h.bound
  obtain ⟨_, element, property, mode, observer, _, so, ss, ts⟩ := cell
  subst expression source
  have ends : (Run.ignoreFailure (Run.updateSource env b v)).Ends False w
      fun _ w' => w' = w.set vm p v := by
    refine Run.ends_ignoreFailure ?_
    simp only [Run.updateSource, Run.ends_bind, Run.ends_read, bound, Run.ends_discard,
      Expr.assignTo, owner, Run.assignMember, Run.ends_modify]
    exact rfl
  obtain ⟨⟨⟩, w', ran, rfl⟩ := ends.exists_eq_ok
  exact ran

theorem CarriesBack.of_eq (h : w.CarriesBack b vm p) (objects : w'.objects = w.objects)
    (bindings : w'.bindings = w.bindings) : w'.CarriesBack b vm p := by
  have slot? : ∀ o n, w'.slot? o n = w.slot? o n := fun o n => by simp only [World.slot?, objects]
  obtain ⟨cell, scope, bound, expression, source, owner⟩ := h.bound
  refine ⟨⟨cell, scope, bindings ▸ bound, expression, source, ?_⟩, ?_, ?_⟩
  · exact (ownerOf_eq (fun o n => congrArg Option.isSome (slot? o n)) scope p).trans owner
  · simp only [World.isFrozen, objects]
    exact h.unfrozen
  · exact (slot? vm p).symm ▸ h.plain

end World

/-- A two-way binding as a member: what it knows is what its source holds. -/
def Circle.ofBinding (r : Ref .elementProperty) (token : Token) (b : Ref .binding)
    (vm : Ref .object) (p : String) (cast quiet : Subscriber → Prop) : Circle η where
  channel := .element r
  token := token
  member := .target b
  knows w v := (w.get vm p).Agrees v
  cast := cast
  quiet := quiet
  listener _ := False
  scene w := w.CarriesBack b vm p

section
variable {r : Ref .elementProperty} {token : Token} {b : Ref .binding} {vm : Ref .object}
  {p : String} {cast quiet : Subscriber → Prop}

/-- **A two-way binding plays by the rules.** -/
theorem ofBinding_hears (ready : (Circle.ofBinding r token b vm p cast quiet).Ready w)
    (envs : Env η → Prop) (env : Env η) (v old : Value) :
    (Circle.ofBinding r token b vm p cast quiet).Hears envs v (Run.react env (.target b) v old) w := by
  have carries : w.CarriesBack b vm p := ready.scene
  obtain ⟨carries', agrees, elements, observers⟩ := carries.set v
  refine .of_notes ((Run.meets_of_eq_ok (carries.react env v old)).2 ⟨?_, ?_, agrees⟩)
  · refine ready.element rfl carries' ?_ ?_
    · obtain ⟨c, get, access, handled, live⟩ := ready.opened
      exact ⟨c, observers ▸ get, access, handled, elements ▸ live⟩
    · simp only [Circle.ofBinding, World.callbacksOf, observers]
  · simp only [Circle.value, Circle.ofBinding, Channel.leaf, World.leafValue, World.readElement,
      World.elementGet, World.attributeOf, World.css, elements, observers]

theorem ofBinding_scene (w' : World η)
    (ready : (Circle.ofBinding r token b vm p cast quiet).Ready w)
    (turns : (Circle.ofBinding (η := η) r token b vm p cast quiet).channel.Turns w w') :
    w'.CarriesBack b vm p := by
  cases turns with
  | shows | sees => exact ready.scene.of_eq rfl rfl

end

end

/-! ### Hooks that correct -/

/-- The values that hooks were told, the latest last. -/
abbrev Notebook := List (Ref .hook × Value)

/-- A host whose hooks note what they are told.  The first hook corrects the value `wrong`. -/
def Host.correcting (wrong : Value) (correct : Env Notebook → Run Notebook Unit) : Host Notebook where
  call _ _ _ _ := pure .undefined
  convert _ _ _ _ := pure none
  fire env h occasion := match occasion with
    | .changed new _ => do
      Run.modify fun w => { w with host := w.host ++ [(h, new)] }
      if h = ⟨0⟩ ∧ new = wrong then correct env else pure ()
    | _ => pure ()
  late w := (false, w.host)

/-- The last value that a hook was told. -/
def World.lastTold (w : World Notebook) (h : Ref .hook) : Option Value :=
  (w.host.filter (·.1 = h)).getLast?.map (·.2)

/-- The second hook as a member: what it knows is what it was told last. -/
def Circle.ofReader (channel : Channel) (token : Token) : Circle Notebook where
  channel := channel
  token := token
  member := .hook ⟨1⟩
  knows w v := w.lastTold ⟨1⟩ = some v
  cast s := s = .hook ⟨0⟩ ∨ s = .hook ⟨1⟩
  quiet _ := False
  listener _ := False
  scene w := w.placeholders = .empty

theorem World.callbacksOf_note (w : World Notebook) (notes : Notebook) (channel : Channel) :
    { w with host := notes }.callbacksOf channel = w.callbacksOf channel := by
  cases channel <;> rfl

namespace Circle

variable {F : Circle Notebook} {w : World Notebook}

/-- Taking notes is beside the channel. -/
theorem Ready.noted (ready : F.Ready w) (notes : Notebook)
    (scene : F.scene { w with host := notes }) : F.Goes w { w with host := notes } := by
  have stays : F.Stays { w with host := notes } → F.Stays w := by
    rintro ⟨s, m⟩
    exact ⟨s, w.callbacksOf_note notes _ ▸ m⟩
  have guest : ∀ {s}, F.Guest w s → F.Guest { w with host := notes } s :=
    fun g => ⟨g.cast, fun same => g.other same ∘ stays⟩
  refine ⟨⟨scene, ?_, ?_, fun s => ?_, fun r d o n is => ?_⟩, stays⟩
  · have opened := ready.opened
    cases is : F.channel with
    | element => exact (is ▸ opened :)
    | property =>
      obtain ⟨cell, handed, heard, plain, once⟩ := ready.piped is
      exact ⟨cell, handed, heard, plain, once⟩
  · exact w.callbacksOf_note notes _ ▸ ready.cast
  · exact w.callbacksOf_note notes _ ▸ ready.order (stays s)
  · obtain ⟨callbacks, parked, listeners⟩ := ready.company r d o n is
    exact ⟨fun r' c p other get m => guest (callbacks r' c p other get m),
      fun u c q get m => guest (parked u c q get m), listeners⟩

variable {wrong : Value} {correct : Env Notebook → Run Notebook Unit} {rounds depth : Nat}

/-- A hook notes what it is told, and perhaps corrects it. -/
theorem correcting_does {h : Ref .hook} {new old : Value}
    (scene : ∀ notes, F.scene { w with host := notes })
    (knows : ∀ v, F.knows w v → F.knows { w with host := w.host ++ [(h, new)] } v)
    (corrects : ∀ env w', (Host.correcting wrong correct).Within rounds depth env → F.Ready w' →
      F.Does ((Host.correcting wrong correct).Within rounds depth) (correct env) w')
    (ready : F.Ready w) :
    F.Does ((Host.correcting wrong correct).Within rounds depth)
      (Run.react (machine (Host.correcting wrong correct) rounds depth) (.hook h) new old) w := by
  cases depth with
  | zero => exact .step trivial
  | succ depth =>
    refine .bind (.step ⟨ready.noted _ (scene _), ?_, knows, ?_⟩) fun _ w' _ ready' => ?_
    · rw [value, value]
      cases F.channel <;> rfl
    · cases F.channel <;> exact id
    · split
      · exact corrects _ w' ⟨depth, Nat.le_succ _, rfl⟩ ready'
      · exact .step (Step.refl ready')

/-- The two-way binding among hooks that correct what the element shows. -/
theorem binding_plays (r : Ref .elementProperty) (token : Token) (b : Ref .binding)
    (vm : Ref .object) (p : String) (v : Value) :
    (Circle.ofBinding r token b vm p (· ∈ [.hook ⟨0⟩, .target b, .hook ⟨1⟩]) (· = .hook ⟨1⟩)).Plays
      (Host.correcting wrong fun env => Run.writeElement env r v) rounds where
  others depth s new old w cast other ready := by
    obtain ⟨h, rfl⟩ : ∃ h, s = .hook h := by
      simp only [ofBinding, List.mem_cons, List.not_mem_nil, or_false] at cast other
      rcases cast with rfl | rfl | rfl
      · exact ⟨_, rfl⟩
      · exact absurd rfl other
      · exact ⟨_, rfl⟩
    exact correcting_does (fun _ => ready.scene.of_eq rfl rfl) (fun _ => id)
      (fun env w' nested _ => .write nested v w') ready
  quiet depth s new old w quiet _ ready := by
    subst quiet
    cases depth with
    | zero => trivial
    | succ depth =>
      exact ⟨ready.noted _ (ready.scene.of_eq rfl rfl), rfl, fun _ => id, id⟩
  member depth new old w ready := ofBinding_hears ready _ _ new old
  listener _ _ _ _ h := h.elim
  scene w w' ready turns := ofBinding_scene w' ready turns
  taken _ _ _ _ _ _ is := nomatch is
  resolved _ _ _ _ _ _ is := nomatch is

/-- A hook that notes the property of an object among hooks that correct it. -/
theorem reader_plays (r : Ref .property) (d : Ref .dispatcher) (o : Ref .object) (n : String)
    (token : Token) (v : Value) :
    (Circle.ofReader (.property r d o n) token).Plays
      (Host.correcting wrong fun env => do
        Run.writeLeaf env (.property r) v
        Run.deliver env o) rounds where
  others depth s new old w cast other ready := by
    obtain rfl := cast.resolve_right other
    refine correcting_does (fun _ => ready.scene) (fun v => ?_) (fun env w' nested _ => ?_) ready
    · intro known
      simpa [ofReader, World.lastTold] using known
    · exact .bind (.write nested v w') fun _ w'' _ _ => .tell nested w''
  quiet _ _ _ _ _ h := h.elim
  member depth new old w ready := by
    refine .of_notes ?_
    cases depth with
    | zero => trivial
    | succ depth =>
      refine ⟨ready.noted _ ready.scene, rfl, ?_⟩
      simp [ofReader, World.lastTold]
  listener _ _ _ _ h := h.elim
  scene w w' ready turns := by
    have piped := ready.piped rfl
    cases turns with
    | sets =>
      rcases piped.set ‹Value› with same | ⟨alters, -⟩
      · exact same.symm ▸ ready.scene
      · exact alters.placeholders.trans ready.scene
    | takes => exact piped.takeRecords.1.placeholders.trans ready.scene
  taken _ _ o _ w v _ _ known := by
    have host : (w.takeRecords o).2.host = w.host := by
      unfold World.takeRecords
      split <;> rfl
    simpa only [ofReader, World.lastTold, host] using known
  resolved _ _ _ _ w u _ ready := by
    have none : w.resolvePlaceholder u = w := by
      simp [World.resolvePlaceholder, show w.placeholders = .empty from ready.scene, Store.get?,
        Store.empty]
    exact none.symm ▸ Step.refl ready

end Circle

end ViewBinding
