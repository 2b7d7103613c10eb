import ViewBinding.Proofs.Path.Reseat

/-!
# Path — a change runs down a chain

What a link tells makes the link after it take another seat and tell in turn, and so on to the end of
the chain (`cascade`).  Afterwards each of these links watches the member of the value before it, and
the hook has heard of the value at the end.
-/

namespace ViewBinding

namespace World

section
variable {η : Type} {w : World η} {c : Chain} {q : ChainLink} {rest : List ChainLink}

/-- A link tells the link after it. -/
theorem Link.tellPath {env : Env η} {cut : Prop} {post : Unit → World η → Prop} {v : Value}
    (L : w.Link c q rest) (wired : w.Wired)
    (tell : ∀ w' old, w.Passes w' (fun _ => False) →
      (env.announceAll (c.told rest).reverse v old).Ends cut w' post) :
    (Run.tellPath env q.2 v).Ends cut w post := by
  obtain ⟨cell, get, -, ⟨callbacks, -⟩, -⟩ := L
  simp only [Run.tellPath, Run.ends_bind, Run.ends_read, get, Run.ends_modify, Env.notify,
    Listeners.newestFirst, callbacks]
  exact tell _ _ (passes_modifyPath wired q.2 (.inr fun _ => rfl))

/-- A link hears of the member that it watches. -/
theorem Link.holder?_of_enrolled (L : w.Link c q rest) {s : Ref .subscription} {o : Ref .object}
    {n : String} (e : w.Enrolled s o n (.pathMember q.2)) : w.holder? q.2 = some o ∧ q.1 = n := by
  obtain ⟨cell, get, -, -, seated⟩ := L
  generalize known : cell.right = right, cell.rightSubscription = s' at seated
  have holder := holder?_of_seated get known seated rfl
  cases seated with
  | away silent => exact absurd e (silent s o n)
  | «at» place live direct enrolled =>
    obtain ⟨rfl, rfl, rfl⟩ := (enrolled s o n).1 e
    rw [Option.bind_some, place, Option.map_some] at holder
    exact ⟨holder, rfl⟩

/-- Where there is an object there is a property. -/
theorem has_of_object? {o : Ref .object} {n : String} (some : (w.get o n).object? ≠ none) :
    w.has o n = true := by
  by_cases has : w.has o n = true
  · exact has
  · rw [get_of_not_has (Bool.not_eq_true _ ▸ has)] at some
    exact absurd rfl some

/-- A link that sees an object watches something that is there. -/
theorem Link.present (L : w.Link c q rest)
    (some : (w.memberOf (w.holder? q.2) q.1).object? ≠ none) : w.Present (.pathMember q.2) := by
  intro s o n e
  obtain ⟨holder, rfl⟩ := L.holder?_of_enrolled e
  rw [holder, memberOf] at some
  exact has_of_object? some

/-- The member of nothing is nothing. -/
theorem object?_ne_none_of_memberOf {holder : Option (Ref .object)} {n : String}
    (some : (w.memberOf holder n).object? ≠ none) : holder ≠ none := by
  rintro rfl
  exact some rfl

end

/-- A change has run down `rest`, from `w` to `w'`. -/
structure Cascaded (w w' : World Notes) (c : Chain) (rest : List ChainLink) (v : Value) : Prop where
  shifts : w.Shifts w' fun sub => ∃ q ∈ rest, sub = .pathMember q.2
  paths : w.SamePaths w' fun p => ∃ q ∈ rest, p = q.2
  rig : w'.Rig c
  ordered : w'.Ordered c c.links
  tracks : w'.Tracks (fun _ => False) False v rest
  noted : ∃ notes, notes ≠ [] ∧ w'.host = w.host ++ notes ∧
    ∀ note ∈ notes, note.1 = w'.finalValue v rest

variable {c : Chain} {cut : Prop} {rounds : Nat}

/-- What moves nobody may come first. -/
theorem Cascaded.of_passes {w w₁ w' : World Notes} {rest : List ChainLink} {v : Value}
    (passes : w.Passes w₁ fun _ => False) (C : w₁.Cascaded w' c rest v) :
    w.Cascaded w' c rest v where
  shifts := (passes.toShifts.mono nofun).trans C.shifts
  paths := (passes.paths.mono nofun).trans C.paths
  rig := C.rig
  ordered := C.ordered
  tracks := C.tracks
  noted := passes.host ▸ C.noted

/-- The hooks at the end of a chain take a note each. -/
theorem announceAll_noting {depth : Nat} {v old : Value} {subs : List Subscriber}
    (hooked : ∀ sub ∈ subs, ∃ hook, sub = .hook hook) (w : World Notes) :
    ((machine Host.noting rounds (depth + 2)).announceAll subs v old).Ends cut w fun _ w' =>
      w' = { w with host := w.host ++ subs.map fun _ => (v, old) } := by
  induction subs generalizing w with
  | nil =>
    rw [List.map_nil, List.append_nil]
    exact Run.ends_forEach_nil.2 rfl
  | cons sub rest ih =>
    obtain ⟨hook, rfl⟩ := hooked sub List.mem_cons_self
    rw [Env.announceAll, Run.ends_forEach_cons]
    refine (ih (fun sub m => hooked sub (List.mem_cons_of_mem _ m)) _).mono ?_
    rintro - w' rfl
    simp only [List.map_cons, List.append_assoc, List.singleton_append]

theorem ends_announceAll_singleton {env : Env Notes} {sub : Subscriber} {v old : Value}
    {w : World Notes} {post : Unit → World Notes → Prop} :
    (env.announceAll [sub] v old).Ends cut w post ↔ (env.announce sub v old).Ends cut w post := by
  simp only [Env.announceAll, Run.ends_forEach_cons, Run.ends_forEach_nil]

/-- The hooks at the end of a chain note its value. -/
theorem announceAll_told (hooked : c.Hooked) {depth : Nat} {v old : Value} (w : World Notes) :
    ((machine Host.noting rounds (depth + 2)).announceAll (c.told []).reverse v old).Ends cut w
      fun _ w' => ∃ notes, notes ≠ [] ∧ (∀ note ∈ notes, note.1 = v) ∧
        w' = { w with host := w.host ++ notes } :=
  (announceAll_noting (fun sub m => hooked sub (List.mem_reverse.1 m)) w).mono fun _ _ is =>
    ⟨_, by simp [Chain.told], by simp, is⟩

/-- **A change runs down a chain.** -/
theorem cascade (hooked : c.Hooked) (rest : List ChainLink) :
    ∀ (done : List ChainLink) (w : World Notes) (v old : Value) (depth : Nat),
      c.links = done ++ rest → w.Rig c → w.Ordered c done →
        (∀ o, v.object? = some o → w.objects.contains o = true) →
          (v.object? ≠ none → ∀ sub ∈ c.subs done, w.Present sub) → rest.length + 2 ≤ depth →
            ((machine Host.noting rounds depth).announceAll (c.told rest).reverse v old).Ends cut w
              fun _ w' => w.Cascaded w' c rest v := by
  induction rest with
  | nil =>
    intro done w v old depth split R O live present deep
    obtain ⟨depth, rfl⟩ : ∃ d, depth = d + 2 := ⟨depth - 2, by simp at deep; omega⟩
    rw [List.append_nil] at split
    refine (announceAll_told hooked w).mono ?_
    rintro - _ ⟨notes, some, same, rfl⟩
    have aside : w.Aside { w with host := w.host ++ notes } :=
      ⟨rfl, rfl, rfl, rfl, rfl, rfl, rfl, rfl, rfl, Nat.le_refl _, rfl, rfl, id, id⟩
    have shifts : w.Shifts _ fun _ => False := aside.shifts R.wired rfl rfl rfl
    exact ⟨shifts.mono nofun, .of_eq rfl, R.shifts shifts (.of_eq rfl) nofun nofun,
      (split ▸ O).carry shifts.toCarries fun _ _ => id, trivial, notes, some, rfl, same⟩
  | cons q rest ih =>
    intro done w v old depth split R O live present deep
    obtain ⟨depth, rfl⟩ : ∃ d, depth = d + 1 := ⟨depth - 1, by simp at deep; omega⟩
    rw [Chain.told, List.reverse_singleton, ends_announceAll_singleton]
    change (Run.pathObjectChanged (machine Host.noting rounds depth) q.2 v).Ends cut w _
    refine pathObjectChanged_spec R split O live present fun w₁ passes R₁ O₁ holder => ?_
    refine (R₁.links done q rest split).tellPath R₁.wired fun w₂ old' passes₂ => ?_
    have R₂ : w₂.Rig c := R₁.shifts passes₂.toShifts passes₂.paths nofun nofun
    have L₂ : w₂.Link c q rest := R₂.links done q rest split
    have holder₂ : w₂.holder? q.2 = v.object? :=
      ((R₁.links done q rest split).holder?_eq passes₂.toCarries (passes₂.paths q.2 id)).trans holder
    have value : w₁.memberOf (w₁.holder? q.2) q.1 = w₂.memberOf (w₂.holder? q.2) q.1 := by
      rw [holder, holder₂, memberOf_eq passes₂.get]
    have split' : c.links = (done ++ [q]) ++ rest := by simpa using split
    rw [value]
    refine (ih (done ++ [q]) w₂ _ old' depth split' R₂ (O₁.carry passes₂.toCarries fun _ _ => id)
      ?_ ?_ (by simp at deep; omega)).mono fun _ w' C => ?_
    · exact fun o is => live_of_memberOf R₂.closed is
    · intro some sub m
      rcases Chain.mem_subs_snoc.1 m with m | rfl
      · have first := present (holder₂ ▸ object?_ne_none_of_memberOf some) sub m
        exact passes₂.present id (passes.present (Chain.ne_of_mem_subs split m) first)
      · exact L₂.present some
    · have other : ¬ ∃ q' ∈ rest, q.2 = q'.2 := by
        rintro ⟨q', m, same⟩
        exact Chain.not_mem_rest split m same
      have holder' := L₂.holder?_eq C.shifts.toCarries (C.paths q.2 other)
      have value' : w'.memberOf (w'.holder? q.2) q.1 = w₂.memberOf (w₂.holder? q.2) q.1 := by
        rw [holder', memberOf_eq C.shifts.get]
      obtain ⟨notes, some, host, same⟩ := C.noted
      refine ⟨?_, ?_, C.rig, C.ordered, ⟨.inr (holder'.trans holder₂), ?_⟩, notes, some, ?_,
        fun note m => ?_⟩
      · exact ((passes.toShifts.trans (passes₂.toShifts.mono fun _ => False.elim)).mono
          fun sub is => ⟨q, List.mem_cons_self, is⟩).trans
            (C.shifts.mono fun _ => Exists.imp fun _ => And.imp_left (List.mem_cons_of_mem _))
      · refine ((passes.paths.trans (passes₂.paths.mono fun _ => False.elim)).mono fun p is => ?_).trans
          (C.paths.mono fun _ => Exists.imp fun _ => And.imp_left (List.mem_cons_of_mem _))
        exact ⟨q, List.mem_cons_self, Subscriber.pathMember.inj is⟩
      · rw [value']
        exact C.tracks.mono False.elim fun _ _ => id
      · rw [host, passes₂.host, passes.host]
      · rw [same note m, finalValue, value']

end World

end ViewBinding
