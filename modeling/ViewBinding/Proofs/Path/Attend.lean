import ViewBinding.Proofs.Path.Runs

/-!
# Path — the present object

Where nothing waits, a chain hears of what lies on the way from its root, each link of the member of
the object that one sees before it, and of nothing else (`Rolling.enrolled_iff`, `Rolling.hears`).  A
write and a flush then tell something exactly if the write changes something on the way
(`Following.flush_write`, `present_object_heard`): while a microtask tells, either the hook has taken
a note or somebody is still to be told, or neither (`Noticed`).

Others may subscribe to the path meanwhile, and subscriptions with it may end (`Attention`): as long as
one is left, the path attends (`Following.attention`).  A path that nobody subscribes to keeps the leaf
of the object that it knows, and whoever subscribes anew hears of that object, even if another one has
taken its place (`left_object_heard`).
-/

namespace ViewBinding

/-- What is done with a path that somebody subscribes to. -/
inductive Attention where
  | of (change : Change)
  | subscribe (hook : Ref .hook)
  | dispose (s : Ref .subscription)

namespace Attention

/-- Carries out what is done with the path `p`. -/
def run (env : Env Notes) (p : Ref .path) : Attention → Run Notes Unit
  | of change => change.run env
  | subscribe hook => discard (Run.subscribe env (.path p) (.hook hook))
  | dispose s => Run.modify fun w => w.dispose s

/-- Subscriptions with the path may end while others are left. -/
def Allowed (w : World Notes) (p : Ref .path) : Attention → Prop
  | of change => change.Allowed w
  | subscribe _ => True
  | dispose s => ∀ d, w.disposal? s = some d → ∃ t cell, d = .callback (.path p) t ∧
      w.paths.get? p = some cell ∧ (cell.callbacks.remove t).isEmpty = false

/-- `w'` comes from `w` by what is allowed. -/
inductive Reaches (depth : Nat) (p : Ref .path) : World Notes → World Notes → Prop
  | refl (w : World Notes) : Reaches depth p w w
  | step {w w' w'' : World Notes} {act : Attention} {rounds : Nat} (before : Reaches depth p w w')
      (allowed : act.Allowed w' p)
      (ran : act.run (machine Host.noting rounds depth) p w' = (.ok (), w'')) : Reaches depth p w w''

end Attention

/-- A chain at whose end others hear of the value. -/
def Chain.retold (c : Chain) (top : Subscriber) (others : List Subscriber) (some : c.links ≠ []) :
    Chain :=
  { c with top, others, lone := fun none => absurd none some }

section
variable {c : Chain} {top : Subscriber} {others : List Subscriber} {some : c.links ≠ []}
  {rest : List ChainLink}

theorem Chain.down_retold (more : rest ≠ []) : (c.retold top others some).down rest = c.down rest := by
  cases rest with
  | nil => exact absurd rfl more
  | cons => rfl

theorem Chain.told_retold (more : rest ≠ []) : (c.retold top others some).told rest = c.told rest := by
  cases rest with
  | nil => exact absurd rfl more
  | cons => rfl

theorem Chain.course_retold : (c.retold top others some).course = c.course :=
  congrArg (fun sub => (c.root, c.name, c.links, sub)) (down_retold some)

end

namespace World

section
variable {w w' : World Notes} {c : Chain} {log : Notes} {waiting rest : List Microtask}
  {owed : List Leaf} {told cut : Prop} {rounds rounds' depth : Nat}
  {o : Ref .object} {n : String} {v : Value}

/-- A property lies on the way: it is the root, or a member that one reads who goes from object to
object. -/
def OnWay (w : World η) (root : Ref .object) (name : String) (names : List String)
    (o : Ref .object) (n : String) : Prop :=
  o = root ∧ n = name ∨ ∃ before after, names = before ++ n :: after ∧
    (w.seen (w.get root name) before).object? = some o

/-- A subscriber hears of one property, by one subscription. -/
def HearsOnly (w : World η) (sub : Subscriber) (o : Ref .object) (n : String) : Prop :=
  ∃ s, ∀ s' o' n', w.Enrolled s' o' n' sub ↔ s' = s ∧ o' = o ∧ n' = n

/-! ### Where nothing waits -/

/-- Where nothing waits, a link watches the member of the value that one sees before it. -/
theorem Rolling.holder?_eq (P : Rolling c log [] [] [] w) {done rest : List ChainLink}
    {q : ChainLink} (split : c.links = done ++ q :: rest) :
    w.holder? q.2 = (w.seen (w.get c.root c.name) (done.map (·.1))).object? := by
  have tracks := P.settled
  rw [split, tracks_append] at tracks
  obtain ⟨before, settled, -⟩ := tracks
  rw [← before.finalValue_eq]
  refine settled.resolve_left ?_
  simp

/-- **Those of a chain hear of what lies on the way**, and of nothing else. -/
theorem Rolling.enrolled_iff (P : Rolling c log [] [] [] w) :
    (∃ s sub, w.Enrolled s o n sub) ↔ w.OnWay c.root c.name (c.links.map (·.1)) o n := by
  constructor
  · rintro ⟨s, sub, e⟩
    rcases Chain.mem_subs.1 (P.rig.known s o n sub e) with rfl | ⟨q, m, rfl⟩
    · exact .inl ((P.rig.anchored s o n).1 e).2
    · obtain ⟨done, rest, split⟩ := List.append_of_mem m
      obtain ⟨holder, rfl⟩ := (P.rig.links done q rest split).holder?_of_enrolled e
      refine .inr ⟨done.map (·.1), rest.map (·.1), by simp [split], ?_⟩
      rw [← P.holder?_eq split, holder]
  · rintro (⟨rfl, rfl⟩ | ⟨before, after, names, object⟩)
    · exact ⟨_, _, (P.rig.anchored _ _ _).2 ⟨rfl, rfl, rfl⟩⟩
    · obtain ⟨done, tail, split, rfl, names'⟩ := List.map_eq_append_iff.1 names
      obtain ⟨q, rest, rfl, rfl, -⟩ := List.map_eq_cons_iff.1 names'
      obtain ⟨s, e⟩ := P.rig.enrolled_of_holder? (q := q) (by simp [split])
        ((P.holder?_eq split).trans object)
      exact ⟨s, _, e⟩

/-- A link hears of the member of the object that one sees before it, and of nothing where there is
no object. -/
theorem Rolling.hears (P : Rolling c log [] [] [] w) {done rest : List ChainLink}
    {q : ChainLink} (split : c.links = done ++ q :: rest) :
    match (w.seen (w.get c.root c.name) (done.map (·.1))).object? with
    | some o => w.HearsOnly (.pathMember q.2) o q.1
    | none => w.Silent (.pathMember q.2) := by
  rw [← P.holder?_eq split]
  obtain ⟨cell, get, -, -, seated⟩ := P.rig.links done q rest split
  simp only [holder?, get, Option.bind_some]
  generalize cell.right = right, cell.rightSubscription = s at seated
  cases seated with
  | away silent => exact silent
  | «at» place live direct enrolled =>
    simp only [place, Option.map_some]
    exact ⟨_, enrolled⟩

/-! ### Subscribing and disposing -/

/-- **Others hear of the value at the end.**  A chain is rigged as before where its last path has other
subscribers. -/
theorem Rolling.retell (P : Rolling c log waiting now owed w) (h : w.Shifts w' fun _ => False)
    (host : w'.host = w.host) {links : List ChainLink} {q : ChainLink}
    (split : c.links = links ++ [q]) (paths : w.SamePaths w' (· = q.2)) {cell : PathCell}
    {callbacks : Listeners Subscriber} (get : w.paths.get? q.2 = some cell)
    (get' : w'.paths.get? q.2 = some { cell with callbacks }) {top : Subscriber}
    {others : List Subscriber} (told : callbacks.toList = top :: others) (some : c.links ≠ []) :
    Rolling (c.retold top others some) log waiting now owed w' := by
  have links' : ∀ done q' rest, c.links = done ++ q' :: rest →
      w'.Link (c.retold top others some) q' rest := by
    intro done q' rest split'
    rcases List.eq_nil_or_concat rest with rfl | ⟨rest, last, rfl⟩
    · -- the last link
      obtain ⟨-, same⟩ := List.append_inj' (split.symm.trans split') rfl
      obtain rfl := (List.cons.inj same).1
      obtain ⟨cell', is, resolver, ⟨-, active⟩, seated⟩ := P.rig.links done q [] split'
      obtain rfl := Option.some.inj (get.symm.trans is)
      exact ⟨_, get', resolver, ⟨told, active⟩, h.seated id seated⟩
    · rw [List.concat_eq_append] at split' ⊢
      have split'' : links ++ [q] = (done ++ q' :: rest) ++ [last] := by
        rw [← split, split', List.append_assoc, List.cons_append]
      obtain ⟨-, same⟩ := List.append_inj' split'' rfl
      obtain rfl := (List.cons.inj same).1
      have other : ¬ q'.2 = q.2 := Chain.not_mem_rest split' (by simp)
      obtain ⟨cell', is, resolver, active, seated⟩ := (P.rig.links done q' _ split').carry
        h.toCarries id (paths q'.2 other)
      exact ⟨cell', is, resolver, by rwa [Chain.told_retold (by simp)], seated⟩
  have anchored : w'.Anchored c (c.down c.links) := P.rig.toAnchored.shifts h id
  have down : (c.retold top others some).down c.links = c.down c.links := Chain.down_retold some
  refine P.carry ?_ Chain.course_retold h.toCarries (fun q' m => ?_) h.get
    (fun o n => (h.due o n).2) h.microtasks host
  · exact {
      toAnchored := down ▸ { anchored with }
      links := links'
      known := fun s o n sub e => by
        have m := P.rig.known s o n sub ((h.enrolled s o n sub id).1 e)
        unfold Chain.subs at m ⊢
        rwa [← down] at m }
  · obtain ⟨done, rest, split'⟩ := List.append_of_mem m
    refine (P.rig.links done q' rest split').holder?_eq_of_right h.toCarries ?_
    by_cases same : q'.2 = q.2
    · rw [same, get, get', Option.map_some, Option.map_some]
    · exact map_right_eq (paths q'.2 same)

theorem Following.retell (F : w.Following c) (h : w.Shifts w' fun _ => False)
    (host : w'.host = w.host) {links : List ChainLink} {q : ChainLink}
    (split : c.links = links ++ [q]) (paths : w.SamePaths w' (· = q.2)) {cell : PathCell}
    {callbacks : Listeners Subscriber} (get : w.paths.get? q.2 = some cell)
    (get' : w'.paths.get? q.2 = some { cell with callbacks }) {top : Subscriber}
    {others : List Subscriber} (told : callbacks.toList = top :: others) (some : c.links ≠ []) :
    w'.Following (c.retold top others some) where
  rolling := by
    rw [host, h.microtasks]
    exact F.rolling.retell h host split paths get get' told some
  rests := h.flushing.trans F.rests

/-- A path has other subscribers. -/
theorem samePaths_modifyPath (w : World η) (p : Ref .path) (f : PathCell → PathCell) :
    w.SamePaths (w.modifyPath p f) (· = p) := fun p' ne => by
  rw [modifyPath, Store.get?_modify_of_ne _ ne]

/-- **Subscribing to a path that attends** already. -/
theorem Following.subscribe (F : w.Following c) {links : List ChainLink} {q : ChainLink}
    (split : c.links = links ++ [q]) (some : c.links ≠ []) (hook : Ref .hook) :
    (Run.subscribe (machine Host.noting rounds depth) (.path q.2) (.hook hook)).Ends cut w
      fun _ w' => w'.Following (c.retold c.top (c.others ++ [.hook hook]) some) := by
  obtain ⟨cell, get, -, ⟨told, active⟩, -⟩ := F.rolling.rig.links links q [] split
  let t : Token := ⟨w.nextToken⟩
  let w₁ := w.freshToken.2.modifyPath q.2 fun cell =>
    { cell with callbacks := cell.callbacks.add t (.hook hook) }
  have aside : w.Aside w₁ :=
    ⟨rfl, rfl, rfl, rfl, rfl, rfl, rfl, rfl, rfl, Nat.le_succ _, rfl, rfl, id, id⟩
  have get₁ : w₁.paths.get? q.2 =
      Option.some { cell with callbacks := cell.callbacks.add t (.hook hook) } := by
    change (w.paths.modify q.2 _).get? q.2 = _
    rw [Store.get?_modify_self, get, Option.map_some]
  simp only [Run.subscribe, Run.subscribePath, Run.ends_bind, Run.ends_update, Run.ends_modify]
  refine Run.ends_attempt ?_
  change (Run.activate _ q.2).Ends cut w₁ _
  -- the path follows its object already
  simp only [Run.activate, Run.ends_bind, Run.ends_read, get₁, active, if_true, Run.ends_pure,
    Run.ends_update]
  change (w₁.withSubscription (.callback (.path q.2) t)).Following _
  have spares : w.Spares (w₁.withSubscription (.callback (.path q.2) t)) :=
    aside.spares_callback F.rolling.rig.wired trivial (Nat.lt_succ_self _)
  refine F.retell (spares.shifts rfl rfl rfl) rfl split (samePaths_modifyPath w q.2 _) get get₁ ?_ some
  rw [Listeners.toList_add, told, Chain.told, List.cons_append]

/-- **Disposing a subscription with a path** that others subscribe to. -/
theorem Following.dispose (F : w.Following c) {links : List ChainLink} {q : ChainLink}
    (split : c.links = links ++ [q]) (some : c.links ≠ []) {s : Ref .subscription} {t : Token}
    {cell : PathCell} (is : w.disposal? s = Option.some (.callback (.path q.2) t))
    (get : w.paths.get? q.2 = Option.some cell)
    (left : (cell.callbacks.remove t).isEmpty = false) :
    ∃ top others, (w.dispose s).Following (c.retold top others some) ∧
      ∀ sub ∈ top :: others, sub ∈ c.told [] := by
  obtain ⟨cell', get', -, ⟨told, -⟩, -⟩ := F.rolling.rig.links links q [] split
  obtain rfl := Option.some.inj (get.symm.trans get')
  have room := index_lt_size_of_disposal? is
  obtain ⟨depth, size⟩ : ∃ depth, w.subscriptions.size = depth + 1 :=
    ⟨w.subscriptions.size - 1, by omega⟩
  have ended : (w.modifySubscription s fun _ => ⟨none⟩).paths.get? q.2 = Option.some cell := get
  -- somebody is left, so the path stays active and only its list of callbacks gets shorter
  have same : w.dispose s = (w.ended s).modifyPath q.2 fun cell' =>
      { cell' with callbacks := cell.callbacks.remove t } := by
    rw [World.dispose, size]
    simp only [disposeWithin, is, undo, undoCallback, ended, left, Bool.false_eq_true, if_false,
      List.foldl_nil]
    rfl
  have wired := F.rolling.rig.wired
  have drops : w.Drops (w.ended s) s := .of_foreign wired is trivial
  have shifts : w.Shifts (w.ended s) fun _ => False := drops.shifts fun o n sub e => by
    obtain ⟨-, l, t, voice, at', -⟩ := e
    exact not_fits_of_foreign is trivial voice o (wired.current o n l at').2.2
  have after := aside_modifyPath (w.ended s) q.2 fun cell' =>
    { cell' with callbacks := cell.callbacks.remove t }
  obtain ⟨top, others, told'⟩ : ∃ top others, (cell.callbacks.remove t).toList = top :: others := by
    cases entries : (cell.callbacks.remove t).toList with
    | nil =>
      rw [Listeners.isEmpty, List.map_eq_nil_iff.1 entries] at left
      cases left
    | cons top others => exact ⟨top, others, rfl⟩
  refine ⟨top, others, ?_, fun sub m => ?_⟩
  · rw [same]
    refine F.retell (shifts.trans (after.shifts drops.wired rfl rfl rfl)) rfl split
      (samePaths_modifyPath _ q.2 _) get ?_ told' some
    rw [modifyPath, Store.get?_modify_self, show (w.ended s).paths.get? q.2 = _ from get, Option.map_some]
  · rw [← told', Listeners.toList, Listeners.remove] at m
    rw [← told]
    obtain ⟨entry, m, is⟩ := List.mem_map.1 m
    exact List.mem_map.2 ⟨entry, (List.mem_filter.1 m).1, is⟩

/-- **What attention keeps.** -/
theorem Following.attention (F : w.Following c) (hooked : c.Hooked)
    (deep : c.links.length + 3 ≤ depth) {links : List ChainLink} {q : ChainLink}
    (split : c.links = links ++ [q]) {act : Attention} (allowed : act.Allowed w q.2)
    (ran : act.run (machine Host.noting rounds depth) q.2 w = (.ok (), w')) :
    ∃ c', w'.Following c' ∧ c'.Hooked ∧ c'.course = c.course := by
  have some : c.links ≠ [] := by simp [split]
  cases act with
  | of change => exact ⟨c, F.change hooked deep allowed ran, hooked, rfl⟩
  | subscribe hook =>
    obtain ⟨s, ran⟩ := Run.exists_of_discard ran
    have subscribes : (Run.subscribe (machine Host.noting rounds depth) (.path q.2)
      (.hook hook)).Ends False w _ := F.subscribe split some hook
    refine ⟨_, (Run.ends_of_eq_ok ran).1 subscribes, fun sub m => ?_, Chain.course_retold⟩
    rw [Chain.told, Chain.retold, ← List.cons_append, List.mem_append, List.mem_singleton] at m
    exact m.elim (hooked sub) fun is => ⟨hook, is⟩
  | dispose s =>
    obtain rfl := (Prod.mk.inj ran).2
    change ∃ c', (w.dispose s).Following c' ∧ _
    cases disposal : w.disposal? s with
    | none =>
      rw [World.dispose, disposeWithin_of_none _ disposal]
      exact ⟨c, F, hooked, rfl⟩
    | some d =>
      obtain ⟨t, cell, rfl, get, left⟩ := allowed d disposal
      obtain ⟨top, others, F', fewer⟩ := F.dispose split some disposal get left
      exact ⟨_, F', fun sub m => hooked sub (fewer sub m), Chain.course_retold⟩

theorem Following.attends (F : w.Following c) (hooked : c.Hooked)
    (deep : c.links.length + 3 ≤ depth) {links : List ChainLink} {q : ChainLink}
    (split : c.links = links ++ [q]) (reaches : Attention.Reaches depth q.2 w w') :
    ∃ c', w'.Following c' ∧ c'.Hooked ∧ c'.course = c.course := by
  induction reaches with
  | refl => exact ⟨c, F, hooked, rfl⟩
  | step _ allowed ran ih =>
    obtain ⟨c', F', hooked', same⟩ := ih
    obtain ⟨-, -, links', -⟩ := Chain.course_eq same
    obtain ⟨c'', F'', hooked'', same'⟩ :=
      F'.attention hooked' (links'.symm ▸ deep) (links'.trans split) allowed ran
    exact ⟨c'', F'', hooked'', same'.trans same⟩

/-! ### Whether anything is told -/

/-- While a microtask tells the leaves `owed`: if `told` holds then the hook has taken a note or
somebody is still to be told, and otherwise neither. -/
structure Noticed (c : Chain) (log : Notes) (waiting : List Microtask) (owed : List Leaf)
    (told : Prop) (w : World Notes) : Prop extends Rolling c log waiting [] owed w where
  yes : told → w.host ≠ log ∨ ∃ sub, w.Hot [] owed sub
  no : ¬ told → w.host = log ∧ ∀ sub, ¬ w.Hot [] owed sub

/-- Whoever is to be told was to be told before a placeholder kept everything as it was. -/
theorem Hot.of_stays {sub : Subscriber} (H : w'.Hot [] owed sub) (stays : w.Stays w')
    (kept : ∀ l v, w.place? l = some v → w'.audience l = w.audience l)
    (listed : ∀ l ∈ owed, ∃ o n, w.IsOwed l o n) : w.Hot [] owed sub := by
  rcases H with ⟨s, o, n, e, due⟩ | m | ⟨l, m, heard⟩
  · exact .inl ⟨s, o, n, (stays.enrolled_iff s o n sub).1 e, (stays.still.due o n).1 due⟩
  · cases m
  · obtain ⟨o, n, owes⟩ := listed l m
    exact .inr (.inr ⟨l, m, told_congr (kept l _ owes.place) ▸ heard⟩)

/-- Where nobody is told by the first leaf, the others are left. -/
theorem Hot.of_nobody {l : Leaf} {sub : Subscriber} (H : w.Hot [] (l :: owed) sub)
    (nobody : w.told l = []) : w.Hot [] owed sub := by
  rcases H with due | m | ⟨l', m, heard⟩
  · exact .inl due
  · exact .inr (.inl m)
  · rcases List.mem_cons.1 m with rfl | m
    · rw [nobody] at heard
      cases heard
    · exact .inr (.inr ⟨l', m, heard⟩)

/-- **Telling pays**, and takes a note for everybody who is told. -/
theorem pays_noticed (hooked : c.Hooked) (deep : c.links.length + 3 ≤ depth) :
    Pays (machine Host.noting rounds depth) cut
      (fun owed w => Noticed c log waiting owed told w) where
  wired owed w P := P.rig.wired
  resolve u owed w P stays kept := by
    have host : (w.resolvePlaceholder u).host = w.host :=
      congrArg Backdrop.host stays.still.backdrop
    have carries : w.Carries (w.resolvePlaceholder u) fun _ => False := stays.passes.toCarries
    refine ⟨P.toRolling.passes stays.passes, fun is => ?_, fun is => ?_⟩
    · rw [host]
      refine (P.yes is).imp_right (Exists.imp fun sub H => ?_)
      exact H.carry carries id (fun o n => (stays.still.due o n).2) id P.listed P.rig.wired
    · obtain ⟨same, cold⟩ := P.no is
      exact ⟨host.trans same, fun sub H => cold sub (H.of_stays stays kept P.listed)⟩
  tell l owed w o n old P place := by
    obtain ⟨o', n', owes⟩ := P.listed l List.mem_cons_self
    have place' := owes.place
    rw [place, Option.some.injEq, Prod.mk.injEq] at place'
    obtain ⟨rfl, rfl⟩ := place'
    by_cases nobody : w.told l = []
    · rw [nobody]
      refine ⟨⟨nobody ▸ P.toRolling.turn, fun is => ?_, fun is => ?_⟩, fun _ _ e => e⟩
      · exact (P.yes is).imp_right (Exists.imp fun sub H => H.of_nobody nobody)
      · refine ⟨(P.no is).1, fun sub H => (P.no is).2 sub ?_⟩
        exact H.imp_right (Or.imp_right fun ⟨l', m, heard⟩ => ⟨l', List.mem_cons_of_mem _ m, heard⟩)
    · have somebody : told := Classical.byContradiction fun is => by
        obtain ⟨sub, heard⟩ := List.exists_mem_of_ne_nil _ nobody
        exact (P.no is).2 sub (.inr (.inr ⟨l, List.mem_cons_self, heard⟩))
      refine (P.toRolling.turn.announceAll owes hooked deep old).mono ?_
      rintro - w' ⟨P', places, notes, host, length⟩
      refine ⟨⟨P', fun _ => .inl ?_, fun is => absurd somebody is⟩, places⟩
      obtain ⟨new, was, -⟩ := P.noted
      rw [host, was, List.append_assoc]
      refine fun same => nobody (List.length_eq_zero_iff.1 (Nat.le_zero.1 ?_))
      rwa [(List.append_eq_nil_iff.1 (List.append_right_eq_self.1 same)).2] at length

/-- Whoever is told by the leaves owed was to be told before a microtask took what was due. -/
theorem Takes.of_hot {sub : Subscriber} (takes : w.Takes w' rest owed) (wired : w.Wired)
    (H : w'.Hot [] owed sub) : w.Hot [] [] sub := by
  rcases H with ⟨s, o, n, e, due⟩ | m | ⟨l, m, heard⟩
  · exact .inl ⟨s, o, n, (takes.carries.enrolled s o n sub id).1 e, takes.due o n due⟩
  · cases m
  · obtain ⟨t, heard⟩ := mem_told.1 heard
    obtain ⟨o, n, at', due⟩ := takes.handed l m
    rw [takes.audience] at heard
    obtain ⟨s, own, voice⟩ := wired.voiced o n l t sub at' heard
    exact .inl ⟨s, o, n, ⟨own, l, t, voice, at', heard⟩, due⟩

theorem Takes.noticed (P : Noticed c log waiting [] told w) (takes : w.Takes w' rest owed) :
    Noticed c log rest owed told w' := by
  have host : w'.host = w.host := congrArg Backdrop.host takes.backdrop
  refine ⟨takes.rolling P.toRolling, fun is => ?_, fun is => ?_⟩
  · rw [host]
    exact (P.yes is).imp_right (Exists.imp fun sub H => takes.hot H)
  · obtain ⟨same, cold⟩ := P.no is
    exact ⟨host.trans same, fun sub H => cold sub (takes.of_hot P.rig.wired H)⟩

/-- **The microtasks come to an end**, and they have told something exactly if `told` holds. -/
theorem drainMicrotasks_noticed (hooked : c.Hooked) (deep : c.links.length + 3 ≤ depth)
    (waiting : List Microtask) (w : World Notes) (rounds ran : Nat)
    (P : Noticed c log waiting [] told w) (enough : rounds ≤ waiting.length → cut) :
    (Run.drainMicrotasks (machine Host.noting rounds' depth) rounds ran).Ends cut w
      fun ran' w' => ran' = ran + waiting.length ∧ Rolling c log [] [] [] w' ∧
        (w'.host ≠ log ↔ told) := by
  refine (Run.ends_drainMicrotasks (fun tasks => Noticed c log tasks [] told)
    (fun _ _ P => P.tasks) (fun _ _ _ P => (pays_noticed hooked deep).runMicrotask P.rig.wired P.tasks
      fun _ _ takes => takes.noticed P) waiting w rounds ran P enough).mono ?_
  rintro ran' w' ⟨rfl, P'⟩
  refine ⟨rfl, P'.toRolling, fun other => Classical.byContradiction fun is => ?_, fun is => ?_⟩
  · exact other (P'.no is).1
  · refine (P'.yes is).resolve_right ?_
    rintro ⟨sub, ⟨s, o, n, -, due⟩ | m | ⟨l, m, -⟩⟩
    · exact P'.rig.wired.not_due P'.tasks o n due
    · cases m
    · cases m

/-- A write changes something: the object is not frozen, and the property has another value or comes
to be. -/
def Alteration (w : World η) (o : Ref .object) (n : String) (v : Value) : Prop :=
  w.isFrozen o = false ∧ (w.has o n = true → (w.get o n).same v = false)

/-- A write that changes something is told. -/
theorem Alteration.tells (h : w.Alteration o n v) (wired : w.Wired)
    (live : w.objects.contains o = true) (plain : ¬ w.IsDoubled o n) :
    w.Tells (w.set o n v) o n := by
  obtain ⟨unfrozen, other⟩ := h
  obtain ⟨-, ⟨unchanged, frozen | same⟩ | ⟨-, -, -, -, tells⟩⟩ := set_spec wired live plain v
  · rw [unfrozen] at frozen
    cases frozen
  · -- then there is no such property, and the write makes it
    cases slot : w.slot? o n with
    | some _ =>
      rw [other (by rw [has, slot, Option.isSome_some])] at same
      cases same
    | none =>
      have made : w.set o n v = (w.putSlot o n (.data v)).record o ⟨n, .add, .undefined⟩ := by
        simp only [set, unfrozen, slot, Bool.false_eq_true, if_false]
      have present := slot?_putSlot w o o n n (.data v)
      rw [if_pos ⟨rfl, rfl, live⟩, ← slot?_record _ o o ⟨n, .add, .undefined⟩, ← made, unchanged,
        slot] at present
      cases present
  · exact tells

/-- **Writing a property** makes somebody wait to be told exactly if the property lies on the way and
the write changes something. -/
theorem Rolling.write_hot (P : Rolling c log [] [] [] w) (live : w.objects.contains o = true) (v : Value) :
    (∃ sub, (w.set o n v).Hot [] [] sub) ↔
      w.OnWay c.root c.name (c.links.map (·.1)) o n ∧ w.Alteration o n v := by
  have tells := fun h : w.Alteration o n v => h.tells P.rig.wired live (P.rig.plain o n)
  obtain ⟨writes, same⟩ := set_spec P.rig.wired live (P.rig.plain o n) v
  generalize w.set o n v = w' at writes same tells ⊢
  rw [← P.enrolled_iff]
  have calm := P.rig.wired.not_due P.tasks
  have enrolled : ∀ s o' n' sub, w'.Enrolled s o' n' sub ↔ w.Enrolled s o' n' sub :=
    fun _ _ _ _ => writes.toTunes.enrolled
  constructor
  · rintro ⟨sub, ⟨s, o', n', e, due⟩ | m | ⟨l, m, -⟩⟩
    · obtain ⟨rfl, rfl⟩ := (writes.dueOr o' n' due).resolve_left (calm o' n')
      rcases same with ⟨rfl, -⟩ | ⟨unfrozen, other, -⟩
      · exact absurd due (calm o' n')
      · exact ⟨⟨s, sub, (enrolled s o' n' sub).1 e⟩, unfrozen, other⟩
    · cases m
    · cases m
  · rintro ⟨⟨s, sub, e⟩, alters⟩
    obtain ⟨l, t, -, at', m⟩ := e.heard
    refine ⟨sub, .inl ⟨s, o, n, (enrolled s o n sub).2 e, ?_⟩⟩
    exact tells alters l at' (List.ne_nil_of_mem m)

/-- **A flush after a write** tells something exactly if the property lies on the way and the write
changes something. -/
theorem Following.flush_write (F : w.Following c) (idle : w.tasks.microtasks = [])
    (hooked : c.Hooked) (deep : c.links.length + 3 ≤ depth)
    (live : w.objects.contains o = true)
    (known : ∀ o', v = .object o' → w.objects.contains o' = true)
    (enough : rounds ≤ (w.set o n v).tasks.microtasks.length → cut) :
    (Run.flushMicrotasks (machine Host.noting rounds depth)).Ends cut (w.set o n v) fun ran w' =>
      ran = (w.set o n v).tasks.microtasks.length ∧ Rolling c w.host [] [] [] w' ∧
        (w'.host ≠ w.host ↔
          w.OnWay c.root c.name (c.links.map (·.1)) o n ∧ w.Alteration o n v) := by
  have P : Rolling c w.host [] [] [] w := idle ▸ F.rolling
  have F' : (w.set o n v).Following c := F.write live known
  have host : (w.set o n v).host = w.host :=
    congrArg Backdrop.host (set_spec P.rig.wired live (P.rig.plain o n) v).1.backdrop
  have hot := P.write_hot (n := n) live v
  generalize w.set o n v = w₁ at F' host hot enough
  have aside := aside_markFlushing w₁ true
  have begun : Noticed c w.host w₁.tasks.microtasks [] (∃ sub, w₁.Hot [] [] sub)
      (Run.markFlushing true w₁) := by
    have same : ∀ sub, (Run.markFlushing true w₁).Hot [] [] sub ↔ w₁.Hot [] [] sub := fun sub => by
      simp only [Hot, aside.enrolled, aside.due, List.not_mem_nil, false_and]
    refine ⟨?_, fun is => .inr (is.imp fun sub => (same sub).2), fun is => ⟨host, fun sub H => ?_⟩⟩
    · exact host ▸ F'.rolling.spares (aside.spares F'.rolling.rig.wired) rfl rfl rfl rfl
    · exact is ⟨sub, (same sub).1 H⟩
  have as : (machine Host.noting rounds depth).rounds = rounds := by cases depth <;> rfl
  rw [Run.ends_flush F'.rests, as, ← hot]
  refine (drainMicrotasks_noticed hooked deep w₁.tasks.microtasks _ _ 0 begun enough).mono ?_
  rintro ran w' ⟨rfl, P', told⟩
  refine ⟨Nat.zero_add _, ?_, told⟩
  exact P'.spares ((aside_markFlushing w' false).spares P'.rig.wired) rfl rfl rfl rfl

end

/-! ### Runs -/

section
variable {w : World Notes} {root : Ref .object} {name : String} {provider : Provider}
  {scope : Scope} {members : List String} {n : String} {e : Expr} {depth : Nat}

/-- Connecting and subscribing go through, and the chain is followed from then on. -/
theorem Opens.follows (opens : w.Opens root provider) (chain : e.IsChain name (members ++ [n]))
    (owner : w.ownerOf scope name = .object root) (deep : members.length + 4 ≤ depth)
    (hook : Ref .hook) (rounds : Nat) :
    ∃ info w₁ p s w₂,
      e.connect (machine Host.noting rounds depth) provider scope w = (.ok info, w₁) ∧
      info.observer = some (.path p) ∧
      Run.subscribe (machine Host.noting rounds depth) (.path p) (.hook hook) w₁ = (.ok s, w₂) ∧
      ∃ c links, w₂.Following c ∧ c.root = root ∧ c.name = name ∧ c.Hooked ∧
        c.links = links ++ [(n, p)] ∧ links.map (·.1) = members := by
  have connects : (e.connect (machine Host.noting rounds depth) provider scope).Ends False w _ :=
    connect_spec chain ⟨opens.unwatched.wired, opens.provides, opens.live, opens.closed⟩ owner
  obtain ⟨info, w₁, connected, readies, ob, links, known, P, names⟩ := connects.exists_eq_ok
  obtain ⟨p, links, rfl, rfl, split⟩ : ∃ p links', ob = .path p ∧ links = links' ++ [(n, p)] ∧
      links'.map (·.1) = members := by
    cases P with
    | root => simp at names
    | @link _ links' n' p _ before get =>
      rw [List.map_append] at names
      obtain ⟨before, same⟩ := List.append_inj' names rfl
      obtain rfl := (List.cons.inj same).1
      exact ⟨p, links', rfl, rfl, before⟩
  have length : (links ++ [(n, p)]).length = members.length + 1 := by simp [← split]
  have subscribes : (Run.subscribe (machine Host.noting rounds depth) (.path p) (.hook hook)).Ends
      False w₁ _ := subscribe_spec _ (.hook hook) length P
        (opens.fresh.shifts readies.toShifts) (by omega)
  obtain ⟨s, w₂, subscribed, c, rfl, rfl, rfl, told, split', J⟩ := subscribes.exists_eq_ok
  refine ⟨info, w₁, p, s, w₂, connected, known, subscribed, c, links, ?_, rfl, rfl, .of_told told,
    split', split⟩
  exact J.following (readies.microtasks.trans opens.unwatched.microtasks)
    (readies.flushing.trans opens.rests)

/-- **A subscribed path attends to the present object.**  However properties are written and flushed
since it was subscribed to, and whoever else subscribes or takes a subscription back as long as one is
left: where nothing waits, the path hears of the member of the object that one sees before it, by one
subscription, and of nothing where that is no object.

A write and a flush then tell something exactly if the write changes a property on the way: the
member of the present object, or what decides which object is the present one.  Objects that were
on the way once are not, and what was told last is the value that the path shows. -/
theorem present_object_heard (opens : w.Opens root provider)
    (chain : e.IsChain name (members ++ [n])) (owner : w.ownerOf scope name = .object root)
    (deep : members.length + 4 ≤ depth) (hook : Ref .hook) (rounds : Nat) :
    ∃ info w₁ p s w₂,
      e.connect (machine Host.noting rounds depth) provider scope w = (.ok info, w₁) ∧
      info.observer = some (.path p) ∧
      Run.subscribe (machine Host.noting rounds depth) (.path p) (.hook hook) w₁ = (.ok s, w₂) ∧
      ∀ w', Attention.Reaches depth p w₂ w' → w'.tasks.microtasks = [] →
        (match (w'.seen (w'.get root name) members).object? with
          | some o => w'.HearsOnly (.pathMember p) o n
          | none => w'.Silent (.pathMember p)) ∧
        ∀ o m v rounds, (Change.write o m v).Allowed w' →
          (w'.set o m v).tasks.microtasks.length < rounds →
          ∃ w'' new, Run.flushMicrotasks (machine Host.noting rounds depth) (w'.set o m v) =
              (.ok (w'.set o m v).tasks.microtasks.length, w'') ∧ w''.host = w'.host ++ new ∧
            (new ≠ [] ↔ w'.OnWay root name (members ++ [n]) o m ∧ w'.Alteration o m v) ∧
            ∀ note, new.getLast? = some note → note.1 = w''.observerValue (.path p) := by
  obtain ⟨info, w₁, p, s, w₂, connected, known, subscribed, c₀, links, start, root', name', hooked₀,
    split₀, rfl⟩ := opens.follows chain owner deep hook rounds
  refine ⟨info, w₁, p, s, w₂, connected, known, subscribed, fun w' reaches idle => ?_⟩
  have length : c₀.links.length + 3 ≤ depth := by
    rw [List.length_map] at deep
    rw [split₀, List.length_append, List.length_singleton]
    omega
  obtain ⟨c, F, hooked, same⟩ : ∃ c, w'.Following c ∧ _ := start.attends hooked₀ length split₀ reaches
  obtain ⟨root'', name'', links', -⟩ := Chain.course_eq same
  obtain rfl := root''.trans root'
  obtain rfl := name''.trans name'
  have split : c.links = links ++ [(n, p)] := links'.trans split₀
  have deep' : c.links.length + 3 ≤ depth := links' ▸ length
  refine ⟨Rolling.hears (idle ▸ F.rolling) split, fun o m v rounds allowed enough => ?_⟩
  have flushes : (Run.flushMicrotasks (machine Host.noting rounds depth)).Ends False
      (w'.set o m v) _ := F.flush_write idle hooked deep' allowed.1 allowed.2
        fun few => absurd enough (Nat.not_lt.2 few)
  obtain ⟨_, w'', flushed, rfl, P, told⟩ := flushes.exists_eq_ok
  obtain ⟨new, host, last⟩ := P.noted
  refine ⟨w'', new, flushed, host, ?_, fun note is => ?_⟩
  · rw [host, split, List.map_append] at told
    exact (not_congr List.append_right_eq_self).symm.trans told
  · rw [last note is, (P.observerValue split).1]

end

set_option synthInstance.maxSize 512 in
/-- The user of the office is heard by two, one of whom leaves; then the user takes another name. -/
theorem user_name_heard : ∃ info w₁ p s w₂, ∃ w₃ : World Notes, ∃ w' new,
    userName.connect (machine Host.noting 1 4) .engine officeScope (office (.object ⟨0⟩)) =
      (.ok info, w₁) ∧ info.observer = some (.path p) ∧
    Run.subscribe (machine Host.noting 1 4) (.path p) (.hook ⟨0⟩) w₁ = (.ok s, w₂) ∧
    Attention.Reaches 4 p w₂ (w₃.dispose s) ∧ w₃.disposal? s ≠ none ∧
    (w₃.dispose s).HearsOnly (.pathMember p) ⟨0⟩ "name" ∧
    Run.flushMicrotasks (machine Host.noting 2 4) ((w₃.dispose s).set ⟨0⟩ "name" (.string "Bob")) =
      (.ok ((w₃.dispose s).set ⟨0⟩ "name" (.string "Bob")).tasks.microtasks.length, w') ∧
    w'.host = (w₃.dispose s).host ++ new ∧ new ≠ [] := by
  have chain : Expr.IsChain "user" ([] ++ ["name"]) userName := .member .name _
  have owner : (office (.object ⟨0⟩)).ownerOf officeScope "user" = .object ⟨1⟩ := by decide +kernel
  obtain ⟨info, w₁, p, s, w₂, connected, known, subscribed, heard⟩ :=
    present_object_heard office_opens chain owner (Nat.le_refl 4) ⟨0⟩ 1
  -- somebody else subscribes, and the first one leaves; then nothing waits, and the user is there
  -- under another name
  have there : (userName.connect (machine Host.noting 1 4) .engine officeScope).Ends False
      (office (.object ⟨0⟩)) fun info w₁ => info.observer = some (.path ⟨0⟩) ∧
        (Run.subscribe (machine Host.noting 1 4) (.path ⟨0⟩) (.hook ⟨0⟩)).Ends False w₁ fun s w₂ =>
        ((Attention.subscribe ⟨1⟩).run (machine Host.noting 1 4) ⟨0⟩).Ends False w₂ fun _ w₃ =>
          (w₃.disposal? s = some (.callback (.path ⟨0⟩) ⟨0⟩) ∧
            (w₃.paths.get? ⟨0⟩).map (fun cell => (cell.callbacks.remove ⟨0⟩).isEmpty) = some false) ∧
          (w₃.dispose s).tasks.microtasks = [] ∧ (w₃.dispose s).objects.contains ⟨0⟩ = true ∧
          (w₃.dispose s).get ⟨1⟩ "user" = .object ⟨0⟩ ∧ (w₃.dispose s).isFrozen ⟨0⟩ = false ∧
          ((w₃.dispose s).get ⟨0⟩ "name").same (.string "Bob") = false ∧
          ((w₃.dispose s).set ⟨0⟩ "name" (.string "Bob")).tasks.microtasks.length < 2 := by
    decide +kernel
  obtain ⟨first, there⟩ := (Run.ends_of_eq_ok connected).1 there
  obtain rfl : p = ⟨0⟩ := by simpa [known] using first
  obtain ⟨⟨⟩, w₃, joined, ⟨is, left⟩, idle, live, user, unfrozen, other, enough⟩ :=
    ((Run.ends_of_eq_ok subscribed).1 there).exists_eq_ok
  have joins : (Attention.subscribe ⟨1⟩).Allowed w₂ ⟨0⟩ := trivial
  have ends : (Attention.dispose s).Allowed w₃ ⟨0⟩ := fun d is' => by
    obtain ⟨cell, get, left⟩ := Option.map_eq_some_iff.1 left
    exact ⟨_, cell, Option.some.inj (is'.symm.trans is), get, left⟩
  have ended : (Attention.dispose s).run (machine Host.noting 1 4) ⟨0⟩ w₃ = (.ok (), w₃.dispose s) :=
    rfl
  have reaches : Attention.Reaches 4 ⟨0⟩ w₂ (w₃.dispose s) :=
    .step (.step (.refl w₂) joins joined) ends ended
  obtain ⟨attends, tells⟩ := heard _ reaches idle
  obtain ⟨w', new, flushed, host, told, -⟩ := tells ⟨0⟩ "name" (.string "Bob") 2
    ⟨live, fun o e => by cases e⟩ enough
  simp only [seen, user, Value.object?] at attends
  refine ⟨info, w₁, ⟨0⟩, s, w₂, w₃, w', new, connected, known, subscribed, reaches, ?_, attends,
    flushed, host, ?_⟩
  · rw [is]
    exact Option.some_ne_none _
  · exact told.2 ⟨.inr ⟨[], [], rfl, by rw [seen, user]; rfl⟩, unfrozen, fun _ => other⟩

/-- The office with another person, who could be the user. -/
def sharedOffice : World Notes := ((office (.object ⟨0⟩)).newObject [("name", .string "Bob")]).2

set_option synthInstance.maxSize 4096 in
/-- **An object that was left while nobody listened is heard.**  The only subscription with the name of
the user ends, another user takes the place of the first one, and somebody subscribes anew.  What is
told then is the new name of the first user, and not the one of the present user. -/
theorem left_object_heard :
    (userName.connect (machine Host.noting 9 4) .engine officeScope).Ends False sharedOffice fun _ w₁ =>
    (Run.subscribe (machine Host.noting 9 4) (.path ⟨0⟩) (.hook ⟨0⟩)).Ends False w₁ fun s w₂ =>
    (Run.flushMicrotasks (machine Host.noting 9 4)).Ends False
      ((w₂.dispose s).set ⟨1⟩ "user" (.object ⟨3⟩)) fun _ w₃ =>
    (Run.subscribe (machine Host.noting 9 4) (.path ⟨0⟩) (.hook ⟨1⟩)).Ends False w₃ fun _ w₄ =>
      w₄.tasks.microtasks = [] ∧ w₄.get ⟨1⟩ "user" = .object ⟨3⟩ ∧
    (Run.flushMicrotasks (machine Host.noting 9 4)).Ends False
      (w₄.set ⟨0⟩ "name" (.string "Alan")) fun _ w₅ => w₅.host.map (·.1) = [.string "Alan"] ∧
    (Run.flushMicrotasks (machine Host.noting 9 4)).Ends False
      (w₅.set ⟨3⟩ "name" (.string "Ben")) fun _ w₆ => w₆.host = w₅.host := by
  decide +kernel

end World

end ViewBinding
