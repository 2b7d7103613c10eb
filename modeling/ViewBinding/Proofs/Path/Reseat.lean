import ViewBinding.Proofs.Path.Chain

/-!
# Path — taking another seat

A link that learns of another object gives up the subscription with the member that it watched, and
subscribes to the member of the new object (`pathObjectChanged_spec`).  Since it has been registered
last by then, it is still further down than whoever comes before it in the chain.
-/

namespace ViewBinding

namespace World

variable {η : Type} {w w' w'' : World η} {moved moved' : Subscriber → Prop} {c : Chain}
  {q : ChainLink} {done rest : List ChainLink}

/-- `w'` differs from `w` only in what the `moved` links watch, and its host has heard nothing
new. -/
structure Passes (w w' : World η) (moved : Subscriber → Prop) : Prop
    extends Shifts w w' moved where
  paths : w.SamePaths w' fun p => moved (.pathMember p)
  host : w'.host = w.host

theorem Passes.trans (h : w.Passes w' moved) (h' : w'.Passes w'' moved) : w.Passes w'' moved :=
  ⟨h.toShifts.trans h'.toShifts, h.paths.trans h'.paths, h'.host.trans h.host⟩

theorem Stays.passes (h : w.Stays w') : w.Passes w' moved where
  toShifts := h.shifts
  paths := .of_eq (congrArg Backdrop.paths h.still.backdrop)
  host := congrArg Backdrop.host h.still.backdrop

theorem Follows.passes {s : Ref .subscription} {o : Ref .object} {n : String} {sub : Subscriber}
    (h : w.Follows w' s o n sub) (is : moved sub) : w.Passes w' moved where
  toShifts := h.shifts is
  paths := .of_eq (congrArg Backdrop.paths h.still.backdrop)
  host := congrArg Backdrop.host h.still.backdrop

theorem Drops.passes {s : Ref .subscription} (h : w.Drops w' s)
    (is : ∀ o n sub, w.Enrolled s o n sub → moved sub) : w.Passes w' moved where
  toShifts := h.shifts is
  paths := .of_eq (congrArg Backdrop.paths h.still.backdrop)
  host := congrArg Backdrop.host h.still.backdrop

theorem aside_modifyPath (w : World η) (p : Ref .path) (f : PathCell → PathCell) :
    w.Aside (w.modifyPath p f) :=
  ⟨rfl, rfl, rfl, rfl, rfl, rfl, rfl, rfl, rfl, Nat.le_refl _, rfl, rfl, id, id⟩

/-- A change of a path that moves, or one that cannot be seen of it. -/
theorem passes_modifyPath (wired : w.Wired) (p : Ref .path) {f : PathCell → PathCell}
    (is : moved (.pathMember p) ∨ ∀ cell, (f cell).core = cell.core) :
    w.Passes (w.modifyPath p f) moved where
  toShifts := (aside_modifyPath w p f).shifts wired rfl rfl rfl
  paths p' stays := by
    by_cases same : p' = p
    · subst same
      have keeps := is.resolve_left stays
      simp only [modifyPath, Store.get?_modify_self, Option.map_map]
      exact congrArg (Option.map · (w.paths.get? p')) (funext keeps)
    · simp only [modifyPath, Store.get?_modify_of_ne f same]
  host := rfl

/-! ### Where somebody hears from -/

/-- Whoever is heard is registered with a leaf of the property. -/
def Placed (w : World η) (sub : Subscriber) : Prop :=
  ∀ s o n, w.Enrolled s o n sub →
    ∃ l t, w.directVoice? s = some (l, t) ∧ w.place? l = some (o, n)

/-- Every property that somebody hears of is there. -/
def Present (w : World η) (sub : Subscriber) : Prop :=
  ∀ s o n, w.Enrolled s o n sub → w.has o n = true

/-- Somebody hears of nothing. -/
def Silent (w : World η) (sub : Subscriber) : Prop := ∀ s o n, ¬ w.Enrolled s o n sub

section
variable {sub sub' : Subscriber} {s : Ref .subscription} {o : Ref .object} {n : String}

theorem Carries.placed (h : w.Carries w' moved) (stays : ¬ moved sub) (P : w.Placed sub) :
    w'.Placed sub := by
  intro s o n e
  have e := (h.enrolled s o n sub stays).1 e
  obtain ⟨l, t, direct, place⟩ := P s o n e
  exact ⟨l, t, (h.direct s o n sub stays e).trans direct, h.place? l _ place⟩

theorem Carries.present (h : w.Carries w' moved) (stays : ¬ moved sub) (P : w.Present sub) :
    w'.Present sub :=
  fun s o n e => h.has o n (P s o n ((h.enrolled s o n sub stays).1 e))

theorem Carries.silent (h : w.Carries w' moved) (stays : ¬ moved sub) (S : w.Silent sub) :
    w'.Silent sub :=
  fun s o n e => S s o n ((h.enrolled s o n sub stays).1 e)

/-- Nobody is before or after somebody who hears of nothing. -/
theorem Silent.orders (S : w.Silent sub') (sub : Subscriber) : w.Orders sub sub' where
  before _ s' o n _ e := absurd e (S s' o n)
  absent _ _ _ _ _ := S
  parked _ s' _ o' _ n' _ _ _ _ e := absurd e (S s' o' n')

/-- Who subscribes now is further down than those who hear of what is there. -/
theorem Follows.orders (F : w.Follows w' s o n sub') (S : w.Silent sub') (ne : sub ≠ sub')
    (placed : w.Placed sub) (present : w.Present sub) : w'.Orders sub sub' := by
  have own : ∀ {s₁ o₁ n₁}, w'.Enrolled s₁ o₁ n₁ sub → w.Enrolled s₁ o₁ n₁ sub := fun e =>
    ((F.enrolled_iff _ _ _ _).1 e).resolve_right fun ⟨_, _, _, is⟩ => ne is
  have new : ∀ {s₁ o₁ n₁}, w'.Enrolled s₁ o₁ n₁ sub' → s₁ = s ∧ o₁ = o ∧ n₁ = n := fun e =>
    (((F.enrolled_iff _ _ _ _).1 e).resolve_left (S _ _ _)).imp_right fun h => ⟨h.1, h.2.1⟩
  refine ⟨fun s₁ s₂ o₁ n₁ e e' => ?_, fun s₁ o₁ n₁ e none => ?_,
    fun s₁ s₂ o₁ o₂ n₁ n₂ u t t' e e' direct direct' => ?_⟩
  · obtain ⟨rfl, rfl, rfl⟩ := new e'
    exact F.later s₁ sub (own e)
  · rw [F.has _ _ (present _ _ _ (own e))] at none
    cases none
  · obtain ⟨rfl, rfl, rfl⟩ := new e'
    obtain ⟨l, t₂, direct₂, place₂, absent⟩ := F.direct
    rw [direct', Option.some.injEq, Prod.mk.injEq] at direct₂
    obtain ⟨rfl, rfl⟩ := direct₂
    obtain ⟨l, t₁, direct₁, place₁⟩ := placed _ _ _ (own e)
    rw [F.directVoice?_of_enrolled (own e), direct₁, Option.some.injEq, Prod.mk.injEq] at direct
    obtain ⟨rfl, rfl⟩ := direct
    rw [F.place? _ _ place₁, Option.some.injEq, Prod.mk.injEq] at place₂
    obtain ⟨rfl, rfl⟩ := place₂
    rw [F.has _ _ (present _ _ _ (own e))] at absent
    exact absurd (absent u rfl) Bool.noConfusion

end

/-! ### The subscribers of a chain -/

theorem Rig.placed (R : w.Rig c) {sub : Subscriber} (m : sub ∈ c.subs c.links) : w.Placed sub := by
  intro s o n e
  rcases Chain.mem_subs.1 m with rfl | ⟨q, m', rfl⟩
  · obtain ⟨rfl, rfl, rfl⟩ := (R.anchored s o n).1 e
    exact R.anchorDirect
  · obtain ⟨done, rest, split⟩ := List.append_of_mem m'
    obtain ⟨cell, -, -, -, seated⟩ := R.links done q rest split
    generalize cell.right = right, cell.rightSubscription = s' at seated
    cases seated with
    | away silent => exact absurd e (silent s o n)
    | «at» place live direct enrolled =>
      obtain ⟨rfl, rfl, rfl⟩ := (enrolled s o n).1 e
      exact direct

/-- What does not move the subscriber keeps the root of a chain. -/
theorem Anchored.carry {sub : Subscriber} (R : w.Anchored c sub) (h : w.Carries w' moved)
    (stays : ¬ moved sub) (plain : ∀ o n, ¬ w'.IsDoubled o n)
    (closed : ∀ o n o', w'.get o n = .object o' → w.objects.contains o' = true)
    (dueHas : ∀ o n, w'.Due o n → w'.has o n = true) : w'.Anchored c sub where
  wired := h.wired
  provides := (provides_eq h.bindings h.attached _).trans R.provides
  live := (h.contains _).trans R.live
  plain := plain
  closed o n o' e := (h.contains o').trans (closed o n o' e)
  dueHas := dueHas
  anchored s o n := (h.enrolled s o n _ stays).trans (R.anchored s o n)
  anchorDirect := by
    obtain ⟨l, t, direct, place⟩ := R.anchorDirect
    have e := (R.anchored _ _ _).2 ⟨rfl, rfl, rfl⟩
    exact ⟨l, t, (h.direct _ _ _ _ stays e).trans direct, h.place? _ _ place⟩

theorem Anchored.shifts {sub : Subscriber} (R : w.Anchored c sub) (h : w.Shifts w' moved)
    (stays : ¬ moved sub) : w'.Anchored c sub :=
  R.carry h.toCarries stays (fun o n e => R.plain o n (h.doubled o n e))
    (fun o n o' e => R.closed o n o' ((h.get o n).symm.trans e))
    fun o n due => h.has o n (R.dueHas o n ((h.due o n).1 due))

/-- What moves only links that are wired up again keeps a chain. -/
theorem Rig.carry (R : w.Rig c) (h : w.Carries w' moved)
    (paths : w.SamePaths w' fun p => moved (.pathMember p))
    (own : ∀ sub, moved sub → ∃ q ∈ c.links, sub = .pathMember q.2)
    (again : ∀ done q rest, c.links = done ++ q :: rest → moved (.pathMember q.2) →
      w'.Link c q rest)
    (plain : ∀ o n, ¬ w'.IsDoubled o n)
    (closed : ∀ o n o', w'.get o n = .object o' → w.objects.contains o' = true)
    (dueHas : ∀ o n, w'.Due o n → w'.has o n = true) : w'.Rig c := by
  have stays : ¬ moved (c.down c.links) := fun is => by
    obtain ⟨q, m, e⟩ := own _ is
    exact Chain.down_ne q m q.2 e
  exact {
    toAnchored := R.toAnchored.carry h stays plain closed dueHas
    links := fun done q rest split => by
      by_cases is : moved (.pathMember q.2)
      · exact again done q rest split is
      · exact (R.links done q rest split).carry h is (paths q.2 is)
    known := fun s o n sub e => by
      by_cases is : moved sub
      · exact Chain.mem_subs.2 (.inr (own sub is))
      · exact R.known s o n sub ((h.enrolled s o n sub is).1 e) }

theorem Rig.shifts (R : w.Rig c) (h : w.Shifts w' moved)
    (paths : w.SamePaths w' fun p => moved (.pathMember p))
    (own : ∀ sub, moved sub → ∃ q ∈ c.links, sub = .pathMember q.2)
    (again : ∀ done q rest, c.links = done ++ q :: rest → moved (.pathMember q.2) →
      w'.Link c q rest) : w'.Rig c :=
  R.carry h.toCarries paths own again (fun o n e => R.plain o n (h.doubled o n e))
    (fun o n o' e => R.closed o n o' ((h.get o n).symm.trans e))
    fun o n due => h.has o n (R.dueHas o n ((h.due o n).1 due))

/-! ### Taking another seat -/

/-- A subscription makes one subscriber hear. -/
theorem Enrolled.unique (r : w.Registered) {s : Ref .subscription} {o o' : Ref .object}
    {n n' : String} {sub sub' : Subscriber} (e : w.Enrolled s o n sub)
    (e' : w.Enrolled s o' n' sub') : sub = sub' := by
  obtain ⟨-, l, t, voice, -, m⟩ := e
  obtain ⟨-, l', t', voice', -, m'⟩ := e'
  rw [voice, Option.some.injEq, Prod.mk.injEq] at voice'
  obtain ⟨rfl, rfl⟩ := voice'
  exact r.eq_of_mem_audience m m'

/-- The member of a value is watched by a leaf, if the value is an object. -/
theorem resolveMember_spec (h : w.Wired) {provider : Provider}
    (provides : w.provides provider = true) {v : Value}
    (live : ∀ o, v.object? = some o → w.objects.contains o = true) (n : String) :
    w.Stays (w.resolveMember (.member provider n) v).2 ∧
      (v.object? = none ∧ (w.resolveMember (.member provider n) v).1 = none ∨
        ∃ o l, v.object? = some o ∧ (w.resolveMember (.member provider n) v).1 = some l ∧
          (w.resolveMember (.member provider n) v).2.place? l = some (o, n)) := by
  cases v with
  | object o =>
    obtain ⟨grown, wired, at'⟩ := objectObserver_spec h (live o rfl) n
    simp only [resolveMember, provides, if_true, propertyObserver]
    exact ⟨.of_grows h grown wired, .inr ⟨o, _, rfl, rfl, (wired.current o n _ at').1⟩⟩
  | _ =>
    simp only [resolveMember, provides, if_true, propertyObserver]
    exact ⟨.refl h, .inl ⟨rfl, trivial⟩⟩

/-- A world in which a link knows another leaf and has given up its subscription. -/
def vacated (w : World η) (p : Ref .path) (right : Option Leaf) (s : Option (Ref .subscription)) :
    World η :=
  (w.modifyPath p fun cell => { cell with right, rightSubscription := none }).disposeOption s

theorem vacated_spec (h : w.Wired) {cell : PathCell}
    (seated : w.Seated q cell.right cell.rightSubscription) (right : Option Leaf) :
    w.Passes (w.vacated q.2 right cell.rightSubscription) (· = .pathMember q.2) ∧
      (w.vacated q.2 right cell.rightSubscription).Silent (.pathMember q.2) ∧
      (w.vacated q.2 right cell.rightSubscription).paths =
        (w.modifyPath q.2 fun cell => { cell with right, rightSubscription := none }).paths := by
  have aside := aside_modifyPath w q.2 fun cell => { cell with right, rightSubscription := none }
  have passes : w.Passes (w.modifyPath q.2 fun cell =>
      { cell with right, rightSubscription := none }) (· = .pathMember q.2) :=
    passes_modifyPath h q.2 (.inl rfl)
  unfold vacated
  generalize w.modifyPath q.2 (fun cell => { cell with right, rightSubscription := none }) = w₁ at *
  generalize cell.right = right', cell.rightSubscription = s at seated
  cases seated with
  | away silent => exact ⟨passes, fun s o n e => silent s o n (aside.enrolled.1 e), rfl⟩
  | «at» place live direct enrolled =>
    rename_i l s o
    obtain ⟨l', t, direct, place'⟩ := direct
    have e := (enrolled s o q.1).2 ⟨rfl, rfl, rfl⟩
    have e₁ := aside.enrolled.2 e
    have drops := dispose_spec passes.wired ((aside.directVoice? s).trans direct) e₁.own
      ((aside.place? l').trans place')
    refine ⟨passes.trans (drops.passes fun o' n' sub e' => ?_), fun s' o' n' e' => ?_,
      congrArg Backdrop.paths drops.still.backdrop⟩
    · exact e'.unique passes.wired.toRegistered e₁
    · obtain ⟨e', ne⟩ := (drops.enrolled_iff s' o' n' _).1 e'
      exact ne ((enrolled s' o' n').1 (aside.enrolled.1 e')).1

/-- Who is further down than the links before it may come after them. -/
theorem Ordered.snoc (O : w.Ordered c done)
    (orders : ∀ sub ∈ c.subs done, w.Orders sub (.pathMember q.2)) : w.Ordered c (done ++ [q]) := by
  have subs : c.subs (done ++ [q]) = c.subs done ++ [.pathMember q.2] := by
    simp only [Chain.subs, List.map_append, List.map_cons, List.map_nil, List.cons_append]
  unfold Ordered
  rw [subs, List.pairwise_append]
  refine ⟨O, List.pairwise_singleton _ _, fun sub m sub' m' => ?_⟩
  rw [List.mem_singleton.1 m']
  exact orders sub m

/-- The leaf of a path is known from its cell. -/
theorem holder?_of_seated {cell : PathCell} (get : w.paths.get? q.2 = some cell)
    {right : Option Leaf} {s : Option (Ref .subscription)} (known : cell.right = right)
    (seated : w.Seated q right s) {o : Option (Ref .object)}
    (place : right.bind (fun l => (w.place? l).map (·.1)) = o) : w.holder? q.2 = o := by
  simp only [holder?, get, Option.bind_some, known]
  cases seated with
  | away => exact place
  | «at» => exact place

/-- Who subscribes to its member has a seat. -/
theorem Follows.seated {l : Leaf} {s : Ref .subscription} {o : Ref .object}
    (F : w.Follows w' s o q.1 (.pathMember q.2)) (silent : w.Silent (.pathMember q.2))
    (place : w.place? l = some (o, q.1)) (live : w.objects.contains o = true) :
    w'.Seated q (some l) (some s) := by
  refine .at (F.place? l _ place) ((F.still.contains o).trans live) ?_ fun s' o' n' => ?_
  · obtain ⟨l', t, direct, place', -⟩ := F.direct
    exact ⟨l', t, direct, place'⟩
  · rw [F.enrolled_iff]
    exact ⟨fun e => (e.resolve_left (silent s' o' n')).imp_right fun h => ⟨h.1, h.2.1⟩,
      fun ⟨h, h', h''⟩ => .inr ⟨h, h', h'', rfl⟩⟩

/-- **A link takes a seat.**  `tell` is what follows when it has. -/
theorem pathObjectChanged_spec {env : Env η} {cut : Prop} {post : Unit → World η → Prop}
    (R : w.Rig c) (split : c.links = done ++ q :: rest) (O : w.Ordered c done) {v : Value}
    (live : ∀ o, v.object? = some o → w.objects.contains o = true)
    (present : v.object? ≠ none → ∀ sub ∈ c.subs done, w.Present sub)
    (tell : ∀ w', w.Passes w' (· = .pathMember q.2) → w'.Rig c → w'.Ordered c (done ++ [q]) →
      w'.holder? q.2 = v.object? →
        (Run.tellPath env q.2 (w'.memberOf (w'.holder? q.2) q.1)).Ends cut w' post) :
    (Run.pathObjectChanged env q.2 v).Ends cut w post := by
  obtain ⟨cell, get, resolver, callbacks, seated⟩ := R.links done q rest split
  obtain ⟨stays, found⟩ := resolveMember_spec R.wired R.provides live q.1
  simp only [Run.pathObjectChanged, Run.ends_bind, Run.ends_read, get, Run.ends_update, resolver,
    Run.ends_modify]
  generalize w.resolveMember (.member c.provider q.1) v = resolved at stays found ⊢
  obtain ⟨right, w₁⟩ := resolved
  dsimp only at stays found ⊢
  have seated₁ : w₁.Seated q cell.right cell.rightSubscription :=
    (show w.Passes w₁ fun _ => False from stays.passes).seated id seated
  have get₁ : w₁.paths.get? q.2 = some cell := by
    have paths : w₁.paths = w.paths := congrArg Backdrop.paths stays.still.backdrop
    rw [paths, get]
  obtain ⟨passes₂, silent, paths⟩ := vacated_spec stays.wired seated₁ right
  have passes : w.Passes (w₁.vacated q.2 right cell.rightSubscription) (· = .pathMember q.2) :=
    stays.passes.trans passes₂
  have get₂ : (w₁.vacated q.2 right cell.rightSubscription).paths.get? q.2 =
      some { cell with right, rightSubscription := none } := by
    rw [paths, modifyPath, Store.get?_modify_self, get₁, Option.map_some]
  have place₂ : ∀ l v, w₁.place? l = some v →
      (w₁.vacated q.2 right cell.rightSubscription).place? l = some v := passes₂.place?
  change Run.Ends cut _ (w₁.vacated q.2 right cell.rightSubscription) post
  generalize w₁.vacated q.2 right cell.rightSubscription = w₂ at *
  have ne : ∀ sub ∈ c.subs done, ¬ sub = .pathMember q.2 :=
    fun sub m => Chain.ne_of_mem_subs split m
  have again : ∀ w', w.Passes w' (· = .pathMember q.2) → w'.Link c q rest → w'.Rig c := by
    intro w' passes link
    refine R.shifts passes.toShifts passes.paths (fun sub is => ⟨q, by simp [split], is⟩)
      fun done' q' rest' split' is => ?_
    obtain ⟨rfl, rfl, rfl⟩ := Chain.split_eq split split' (Subscriber.pathMember.inj is)
    exact link
  rcases found with ⟨none, rfl⟩ | ⟨o, l, is, rfl, place⟩
  · -- there is no object, and nothing to subscribe to
    have holder : w₂.holder? q.2 = v.object? := by
      simp only [holder?, get₂, Option.bind_some, none]
    have orders := Ordered.snoc (O.carry passes.toCarries ne) fun sub _ => silent.orders sub
    have link : w₂.Link c q rest := ⟨_, get₂, resolver, callbacks, .away silent⟩
    have tells := tell w₂ passes (again w₂ passes link) orders holder
    rw [holder, none] at tells
    exact tells
  · simp only [Run.ends_bind]
    refine Run.ends_attempt ((subscribeLeaf_spec passes.wired (place₂ l _ place) _).mono
      fun s w₃ F => ?_)
    simp only [Run.ends_bind, Run.ends_modify, Run.ends_read]
    -- the new subscription is written down
    have passes₃ : w₂.Passes w₃ (· = .pathMember q.2) := F.passes rfl
    have aside := aside_modifyPath w₃ q.2 fun cell => { cell with rightSubscription := some s }
    have passes₄ : w₃.Passes (w₃.modifyPath q.2 fun cell =>
        { cell with rightSubscription := some s }) (· = .pathMember q.2) :=
      passes_modifyPath F.wired q.2 (.inl rfl)
    have get₄ : (w₃.modifyPath q.2 fun cell =>
        { cell with rightSubscription := some s }).paths.get? q.2 =
          some { cell with right := some l, rightSubscription := some s } := by
      have paths : w₃.paths = w₂.paths := congrArg Backdrop.paths F.still.backdrop
      rw [modifyPath, Store.get?_modify_self, paths, get₂, Option.map_some]
    have shifts₄ : w₃.Shifts (w₃.modifyPath q.2 fun cell =>
        { cell with rightSubscription := some s }) fun _ => False :=
      aside.shifts F.wired rfl rfl rfl
    generalize (w₃.modifyPath q.2 fun cell => { cell with rightSubscription := some s }) = w₄ at *
    have passes' := (passes.trans passes₃).trans passes₄
    have place₄ : w₄.place? l = some (o, q.1) :=
      passes₄.place? l _ (passes₃.place? l _ (place₂ l _ place))
    have seated : w₄.Seated q (some l) (some s) := shifts₄.seated id
      (F.seated silent (place₂ l _ place) ((passes.contains o).trans (live o is)))
    have orders : ∀ sub ∈ c.subs done, w₃.Orders sub (.pathMember q.2) := by
      intro sub m
      have placed : w.Placed sub := R.placed <| by
        rcases Chain.mem_subs.1 m with is | ⟨q', m', is⟩
        · exact Chain.mem_subs.2 (.inl is)
        · exact Chain.mem_subs.2 (.inr ⟨q', split ▸ List.mem_append_left _ m', is⟩)
      have some : v.object? ≠ none := by
        rw [is]
        exact Option.some_ne_none o
      exact F.orders silent (ne sub m) (passes.placed (ne sub m) placed)
        (passes.present (ne sub m) (present some sub m))
    have O₃ := Ordered.snoc (O.carry (passes.trans passes₃).toCarries ne) orders
    have O₄ := O₃.carry shifts₄.toCarries fun _ _ => id
    have holder : w₄.holder? q.2 = v.object? := by
      simp only [holder?, get₄, Option.bind_some, place₄, Option.map_some, is]
    have tells := tell w₄ passes' (again w₄ passes' ⟨_, get₄, resolver, callbacks, seated⟩) O₄ holder
    rw [holder, is] at tells
    rw [leafValue_of_place? passes'.wired.toAttentive place₄]
    exact tells

end World

end ViewBinding
