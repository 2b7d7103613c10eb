import ViewBinding.Proofs.OneWay.Serve

/-!
# OneWay — settling

A microtask takes a change that is due and tells it to the bindings that hear of it (`Paying`); each
writes the value to its element, unless it is there already.  So a flush runs the microtasks that
wait when it begins and no others, and nothing is due afterwards (`Serving.flush`).
-/

namespace ViewBinding

namespace World

variable {η : Type} {w w' : World η} {sources : Ref .object → Prop} {p : String} {scope : Scope}
  {vm : Ref .object} {b : Ref .binding} {cell : BindingCell}

/-- A binding is bound to a scope in which the name means the property of an object. -/
def Hears (w : World η) (sources : Ref .object → Prop) (p : String) (vm : Ref .object)
    (sub : Subscriber) : Prop :=
  ∃ b cell scope, sub = .source b ∧ w.bindings.get? b = some cell ∧ cell.source = some scope ∧
    w.Reads sources p scope vm

/-- From the world `w₀` a microtask has begun to tell: `now` is told about `vm`, the leaves in `owed`
are still to be told, and the microtasks `rest` wait.  A bound target shows its source, or its
binding is among those who will be told. -/
structure Telling (w₀ : World η) (sources : Ref .object → Prop) (p : String)
    (rest : List Microtask) (vm : Ref .object) (now : List Subscriber) (owed : List Leaf)
    (w : World η) : Prop where
  feeds : w.Feeds sources p
  named : ∀ sub ∈ now, w.Hears sources p vm sub
  listed : ∀ l ∈ owed, ∃ o n, w.place? l = some (o, n) ∧
    ∀ sub ∈ w.told l, n = p ∧ w.Hears sources p o sub
  serves : ∀ b cell scope vm, w.bindings.get? b = some cell → cell.source = some scope →
    w.Reads sources p scope vm → cell.sourceSubscription = none ∧ b ∈ w.connects.queue ∨
      cell.sourceSubscription ≠ none ∧ (w.Shows p vm cell ∨ .source b ∈ now ∨
        ∃ l ∈ owed, .source b ∈ w.told l)
  tasks : w.tasks.microtasks = rest
  attends : w₀.Attends w sources p
  connects : w.connects = w₀.connects
  flushing : w.tasks.flushing = w₀.tasks.flushing

/-- What is told about the property of an object is told to bindings that read it. -/
theorem Feeds.told (F : w.Feeds sources p) {l : Leaf} {o : Ref .object} {n : String}
    (at' : w.leafAt? o n = some l) {sub : Subscriber} (m : sub ∈ w.told l) :
    n = p ∧ w.Hears sources p o sub := by
  obtain ⟨t, m⟩ := mem_told.1 m
  obtain ⟨s, own, voice⟩ := F.wired.voiced o n l t sub at' m
  obtain ⟨b, cell, scope, rfl, rfl, get, -, source, reads⟩ :=
    F.only s o n sub ⟨own, l, t, voice, at', m⟩
  exact ⟨rfl, b, cell, scope, rfl, get, source, reads⟩

theorem Hears.carry {sub : Subscriber} (h : w.Hears sources p vm sub)
    (bindings : w'.bindings = w.bindings)
    (has : ∀ o n, ¬ (sources o ∧ n = p) → w'.has o n = w.has o n) : w'.Hears sources p vm sub := by
  obtain ⟨b, cell, scope, is, get, source, reads⟩ := h
  exact ⟨b, cell, scope, is, bindings ▸ get, source, reads.carry has⟩

/-- A microtask takes what is due. -/
theorem Takes.telling {rest : List Microtask} {owed : List Leaf} (S : w.Serving sources p)
    (takes : w.Takes w' rest owed) : Telling w sources p rest vm [] owed w' := by
  have F := S.feeds
  have bindings : w'.bindings = w.bindings := congrArg Backdrop.bindings takes.backdrop
  have elements : w'.elements = w.elements := congrArg Backdrop.elements takes.backdrop
  have connects : w'.connects = w.connects := congrArg Backdrop.connects takes.backdrop
  have told : ∀ l, w'.told l = w.told l := fun l => told_congr (takes.audience l)
  have has : ∀ o n, ¬ (sources o ∧ n = p) → w'.has o n = w.has o n := fun o n _ => takes.has o n
  refine ⟨F.carry takes.wired takes.contains takes.isFrozen takes.doubled has bindings
    (congrArg Backdrop.elementProperties takes.backdrop) (fun _ => by rw [elements])
    fun s o n sub => takes.toTunes.enrolled, fun _ m => (List.not_mem_nil m).elim, fun l m => ?_, fun b cell scope vm get source reads => ?_,
    congrArg Backdrop.microtasks takes.backdrop, ⟨has, takes.get, fun b => by rw [bindings],
      fun _ _ _ => .of_elements elements⟩, connects,
    congrArg Backdrop.flushing takes.backdrop⟩
  · obtain ⟨o, n, at', -⟩ := takes.handed l m
    refine ⟨o, n, (takes.place? l).trans (F.wired.current o n l at').1, fun sub heard => ?_⟩
    obtain ⟨name, hears⟩ := F.told at' (told l ▸ heard)
    exact ⟨name, hears.carry bindings has⟩
  · rw [bindings] at get
    have reads := reads.carry fun o n h => (has o n h).symm
    have shown : w'.elementGet cell.element cell.property =
        w.elementGet cell.element cell.property := by simp only [elementGet, elements]
    rw [connects, Shows, takes.get, shown]
    refine (S.serves b cell scope vm get source reads).imp_right fun served => ?_
    obtain ⟨linked, shows⟩ := served
    refine ⟨linked, ?_⟩
    rcases shows with due | agrees
    · -- a change that is due is still due, or it is owed to the binding
      by_cases due' : w'.Due vm p
      · exact .inl (.inl due')
      · obtain ⟨s, keeps⟩ := Option.ne_none_iff_exists'.1 linked
        obtain ⟨scope', vm', source', reads', -, l, t, -, at', m⟩ := (F.rigged b cell get).linked s keeps
        cases source.symm.trans source'
        cases reads.unique reads'
        exact .inr (.inr ⟨l, takes.owes vm p l due due' at' (List.ne_nil_of_mem m),
          (told l).symm ▸ mem_told.2 ⟨t, m⟩⟩)
    · exact .inl (.inr agrees)

/-! ### Telling -/

section
variable {w₀ : World η} {rest : List Microtask} {now : List Subscriber} {owed : List Leaf} {host : Host η} {rounds rounds' depth : Nat}
  {cut : Prop}

/-- **A binding learns that its source changed.**  Its element shows the value afterwards. -/
theorem Feeds.announce (F : w.Feeds sources p) (get : w.bindings.get? b = some cell)
    (source : cell.source = some scope) (x old : Value) :
    ((machine host rounds (depth + 1)).announce (.source b) x old).Ends cut w fun _ w' =>
      (w' = w ∨ w' = w.elementSet cell.element cell.property x) ∧
        x.Agrees (w'.elementGet cell.element cell.property) := by
  have rig := (F.rigged b cell get).toFeeder
  have reads : w.leafValue cell.targetObserver = w.elementGet cell.element cell.property := by
    obtain ⟨r, c, target, observer, element, property, access, -⟩ := rig.target
    simp only [target, leafValue, observer, readElement, access, element, property, rig.live, if_true]
  change (Run.sourceChanged (machine host rounds depth) b x).Ends cut w _
  have write : (Run.updateTarget (machine host rounds depth) b x).Ends cut w fun _ w' =>
      w' = w.elementSet cell.element cell.property x := by
    simp only [Run.updateTarget, Run.ends_bind, Run.ends_read, get]
    exact rig.writeLeaf x
  have agrees : x.Agrees
      ((w.elementSet cell.element cell.property x).elementGet cell.element cell.property) := by
    rw [elementGet_elementSet_self rig.live]
    exact Value.agrees_self x
  obtain ⟨_, e, n, _, target, _, _, _, _⟩ := cell
  subst source
  simp only [Run.sourceChanged, Run.ends_bind, Run.ends_read, get]
  dsimp only at reads
  rw [reads]
  by_cases same : x.same (w.elementGet e n) = true
  · rw [if_pos same]
    exact ⟨.inl rfl, .inl same⟩
  · rw [if_neg same]
    refine Run.ends_ignoreFailure (write.mono ?_)
    rintro _ _ rfl
    exact ⟨.inr rfl, agrees⟩

/-- **Telling one subscriber.** -/
theorem Telling.announce {sub : Subscriber} (T : Telling w₀ sources p rest vm (sub :: now) owed w)
    (old : Value) :
    ((machine host rounds (depth + 1)).announce sub (w.get vm p) old).Ends cut w fun _ w' =>
      Telling w₀ sources p rest vm now owed w' ∧ w'.get vm p = w.get vm p ∧
        ∀ l, w'.place? l = w.place? l := by
  obtain ⟨b, cell, scope, rfl, get, source, reads⟩ := T.named sub List.mem_cons_self
  refine (T.feeds.announce get source (w.get vm p) old).mono fun _ w' h => ?_
  -- as far as the properties of objects are concerned nothing has changed
  have F := T.feeds
  obtain ⟨aside, feeds, bindings, connects, flushing, others⟩ : w.Aside w' ∧
      w'.Feeds sources p ∧ w'.bindings = w.bindings ∧ w'.connects = w.connects ∧
        w'.tasks.flushing = w.tasks.flushing ∧ ∀ e, e ≠ cell.element → ∀ n,
          w'.elementGet e n = w.elementGet e n := by
    rcases h.1 with rfl | rfl
    · exact ⟨.refl w', F, rfl, rfl, rfl, fun _ _ _ => rfl⟩
    · exact ⟨aside_elementSet _ _ _ _, F.elementSet _ _ _, rfl, rfl, rfl,
        fun e other n => elementGet_elementSet_of_ne _ n _ other⟩
  have written : w'.elementGet cell.element cell.property =
      w.elementGet cell.element cell.property ∨
        w'.elementGet cell.element cell.property = w.get vm p := by
    rcases h.1 with rfl | rfl
    · exact .inl rfl
    · exact .inr (elementGet_elementSet_self (F.rigged b cell get).live _)
  have has : ∀ o n, ¬ (sources o ∧ n = p) → w'.has o n = w.has o n := fun o n _ => aside.has o n
  have told : ∀ l, w'.told l = w.told l := fun l => told_congr (aside.audience l)
  refine ⟨⟨feeds, fun sub m => (T.named sub (List.mem_cons_of_mem _ m)).carry bindings has,
    fun l m => ?_, fun b' cell' scope' vm' get' source' reads' => ?_,
    aside.microtasks.trans T.tasks, ?_, connects.trans T.connects, flushing.trans T.flushing⟩,
    aside.get vm p, aside.place?⟩
  · obtain ⟨o, n, place, all⟩ := T.listed l m
    refine ⟨o, n, (aside.place? l).trans place, fun sub heard => ?_⟩
    obtain ⟨name, hears⟩ := all sub (told l ▸ heard)
    exact ⟨name, hears.carry bindings has⟩
  · rw [bindings] at get'
    have reads' := reads'.carry fun o n h => (has o n h).symm
    rw [connects]
    refine (T.serves b' cell' scope' vm' get' source' reads').imp_right fun served => ?_
    obtain ⟨linked, told'⟩ := served
    refine ⟨linked, ?_⟩
    by_cases same : cell'.element = cell.element
    · cases F.apart b' b cell' cell get' get same
      rw [get] at get'
      cases get'
      cases source.symm.trans source'
      cases reads.unique reads'
      exact .inl (.inr (aside.get vm p ▸ h.2))
    · rw [Shows, aside.due, aside.get, others _ same]
      rcases told' with shows | m | ⟨l, m, heard⟩
      · exact .inl shows
      · refine .inr (.inl ((List.mem_cons.1 m).resolve_left fun is => same ?_))
        cases is
        rw [get] at get'
        cases get'
        rfl
      · exact .inr (.inr ⟨l, m, (told l).symm ▸ heard⟩)
  · refine T.attends.trans ⟨has, aside.get, fun b => by rw [bindings], fun b' cell' get' => ?_⟩
    by_cases same : cell'.element = cell.element
    · cases F.apart b' b cell' cell get' get same
      rw [get] at get'
      cases get'
      refine written.imp_right fun shows => ⟨scope, vm, source, reads, shows⟩
    · exact .inl (others _ same _)

/-- Telling everybody who is told now. -/
theorem Telling.announceAll (T : Telling w₀ sources p rest vm now owed w) (old : Value) :
    ((machine host rounds (depth + 1)).announceAll now (w.get vm p) old).Ends cut w fun _ w' =>
      Telling w₀ sources p rest vm [] owed w' ∧ ∀ l, w'.place? l = w.place? l := by
  refine (Run.ends_forEach (fun now w' => Telling w₀ sources p rest vm now owed w' ∧
    w'.get vm p = w.get vm p ∧ ∀ l, w'.place? l = w.place? l) ⟨T, rfl, fun _ => rfl⟩ ?_).mono
      fun _ w' h => ⟨h.1, h.2.2⟩
  rintro sub now w₁ ⟨T₁, value, place⟩
  rw [← value]
  exact (T₁.announce old).mono fun _ w₂ ⟨T₂, value', place'⟩ =>
    ⟨T₂, value', fun l => (place' l).trans (place l)⟩

/-- The subscribers of the first leaf owed are told now. -/
theorem Telling.turn {l : Leaf} {o : Ref .object} {n : String}
    (T : Telling w₀ sources p rest vm [] (l :: owed) w) (place : w.place? l = some (o, n)) :
    Telling w₀ sources p rest o (w.told l) owed w where
  feeds := T.feeds
  named sub heard := by
    obtain ⟨o', n', place', all⟩ := T.listed l List.mem_cons_self
    cases place.symm.trans place'
    exact (all sub heard).2
  listed l' m := T.listed l' (List.mem_cons_of_mem _ m)
  serves b cell scope vm get source reads := by
    refine (T.serves b cell scope vm get source reads).imp_right fun served => ?_
    obtain ⟨linked, told⟩ := served
    refine ⟨linked, ?_⟩
    rcases told with shows | m | ⟨l', m, heard⟩
    · exact .inl shows
    · cases m
    · rcases List.mem_cons.1 m with rfl | m
      · exact .inr (.inl heard)
      · exact .inr (.inr ⟨l', m, heard⟩)
  tasks := T.tasks
  attends := T.attends
  connects := T.connects
  flushing := T.flushing

/-- Nothing changes for those who are to be told when a placeholder resolves itself. -/
theorem Telling.stays (T : Telling w₀ sources p rest vm [] owed w) (stays : w.Stays w')
    (audience : ∀ l v, w.place? l = some v → w'.audience l = w.audience l) :
    Telling w₀ sources p rest vm [] owed w' := by
  have still := stays.still
  have bindings : w'.bindings = w.bindings := congrArg Backdrop.bindings still.backdrop
  have elements : w'.elements = w.elements := congrArg Backdrop.elements still.backdrop
  have connects : w'.connects = w.connects := congrArg Backdrop.connects still.backdrop
  have has : ∀ o n, ¬ (sources o ∧ n = p) → w'.has o n = w.has o n := fun o n _ => stays.has o n
  have told : ∀ l ∈ owed, w'.told l = w.told l := fun l m => by
    obtain ⟨o, n, place, -⟩ := T.listed l m
    exact told_congr (audience l _ place)
  refine ⟨T.feeds.carry stays.wired still.contains still.isFrozen still.doubled has bindings
    (congrArg Backdrop.elementProperties still.backdrop) (fun _ => by rw [elements])
    stays.enrolled_iff, fun _ m => (List.not_mem_nil m).elim, fun l m => ?_, fun b cell scope vm get source reads => ?_,
    (congrArg Backdrop.microtasks still.backdrop).trans T.tasks,
    T.attends.trans ⟨has, still.get, fun b => by rw [bindings],
      fun _ _ _ => .of_elements elements⟩, connects.trans T.connects,
    (congrArg Backdrop.flushing still.backdrop).trans T.flushing⟩
  · obtain ⟨o, n, place, all⟩ := T.listed l m
    refine ⟨o, n, stays.place? l _ place, fun sub heard => ?_⟩
    obtain ⟨name, hears⟩ := all sub (told l m ▸ heard)
    exact ⟨name, hears.carry bindings has⟩
  · rw [bindings] at get
    have reads := reads.carry fun o n h => (has o n h).symm
    have shown : w'.elementGet cell.element cell.property =
        w.elementGet cell.element cell.property := by simp only [elementGet, elements]
    rw [connects, Shows, still.due, still.get, shown]
    refine (T.serves b cell scope vm get source reads).imp_right fun served => ?_
    obtain ⟨linked, told'⟩ := served
    refine ⟨linked, ?_⟩
    rcases told' with shows | m | ⟨l, m, heard⟩
    · exact .inl shows
    · cases m
    · exact .inr (.inr ⟨l, m, (told l m).symm ▸ heard⟩)

/-- Nobody is being told. -/
theorem Telling.nobody (T : Telling w₀ sources p rest vm [] owed w) (o : Ref .object) :
    Telling w₀ sources p rest o [] owed w :=
  ⟨T.feeds, nofun, T.listed, T.serves, T.tasks, T.attends, T.connects, T.flushing⟩

/-- **Telling pays.** -/
theorem pays_telling : Pays (machine host rounds (depth + 1)) cut
    (fun owed w => ∀ vm, Telling w₀ sources p rest vm [] owed w) where
  wired owed w T := (T ⟨0⟩).feeds.wired
  resolve u owed w T stays audience vm := (T vm).stays stays audience
  tell l owed w o n old T place := by
    have T₁ := (T o).turn place
    have same : (machine host rounds (depth + 1)).announceAll (w.told l) (w.get o n) old =
        (machine host rounds (depth + 1)).announceAll (w.told l) (w.get o p) old := by
      by_cases none : w.told l = []
      · rw [none]
        rfl
      · obtain ⟨sub, heard⟩ := List.exists_mem_of_ne_nil _ none
        obtain ⟨o', n', place', all⟩ := (T o).listed l List.mem_cons_self
        cases place.symm.trans place'
        rw [(all sub heard).1]
    rw [same]
    exact (T₁.announceAll old).mono fun _ w' h =>
      ⟨fun vm => h.1.nobody vm, fun l p e => (h.2 l).trans e⟩

/-! ### Flushing -/

/-- Between the microtasks of a flush nobody is being told. -/
theorem Telling.serving (T : Telling w₀ sources p rest vm [] [] w)
    (waiting : w₀.connects.queued.Perm w₀.connects.queue) : w.Serving sources p where
  feeds := T.feeds
  waiting := T.connects ▸ waiting
  serves b cell scope vm get source reads := by
    refine (T.serves b cell scope vm get source reads).imp_right fun served => ?_
    obtain ⟨linked, told⟩ := served
    refine ⟨linked, ?_⟩
    rcases told with shows | m | ⟨l, m, -⟩
    · exact shows
    · cases m
    · cases m

/-- What concerns neither objects nor bindings. -/
theorem Serving.markFlushing (S : w.Serving sources p) (flushing : Bool) :
    (Run.markFlushing flushing w).Serving sources p ∧
      w.Attends (Run.markFlushing flushing w) sources p := by
  have idles : w.Idles (Run.markFlushing flushing w) :=
    idles_work S.feeds.wired { w.tasks with flushing } rfl w.connects w.polling w.host
  exact ⟨idles.serving S rfl, idles.attends⟩

/-- **A flush ends** if there are rounds for the microtasks that wait, and nothing is due then. -/
theorem Serving.flush (S : w.Serving sources p) (rests : w.tasks.flushing = false)
    (enough : rounds ≤ w.tasks.microtasks.length → cut) :
    (Run.flushMicrotasks (machine host rounds (depth + 1))).Ends cut w fun _ w' =>
      w'.Serving sources p ∧ w.Attends w' sources p ∧ w'.tasks.microtasks = [] ∧
        w'.tasks.flushing = false ∧ w'.connects = w.connects := by
  obtain ⟨S₀, attends₀⟩ := S.markFlushing true
  rw [Run.ends_flush rests]
  refine (Run.ends_drainMicrotasks (fun tasks w' => w'.tasks.microtasks = tasks ∧
    w'.Serving sources p ∧ w.Attends w' sources p ∧ w'.connects = w.connects) (fun _ _ h => h.1) ?_
    w.tasks.microtasks (Run.markFlushing true w) _ 0 ⟨rfl, S₀, attends₀, rfl⟩ enough).mono ?_
  · rintro task rest w₁ ⟨waiting, S₁, attends, connects⟩
    refine (pays_telling.runMicrotask S₁.feeds.wired waiting fun w₂ owed takes vm =>
      takes.telling S₁).mono fun _ w₂ T => ?_
    have T := T ⟨0⟩
    exact ⟨T.tasks, T.serving S₁.waiting, attends.trans T.attends, T.connects.trans connects⟩
  · rintro _ w₁ ⟨-, idle, S₁, attends, connects⟩
    obtain ⟨S', attends'⟩ := S₁.markFlushing false
    exact ⟨S', attends.trans attends', idle, rfl, connects⟩

end

end World

end ViewBinding
