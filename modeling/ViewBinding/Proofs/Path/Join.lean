import ViewBinding.Proofs.Path.Cascade
import ViewBinding.Proofs.Path.Connect

/-!
# Path — subscribing to a chain

The first subscription with the last path of a chain makes the paths subscribe, each to what comes
before it and then to its member, so that the chain grows from the root on (`Chain.grow`, `Rig.grow`).
Afterwards the chain is rigged and every link watches the member of the value before it
(`subscribe_spec`).
-/

namespace ViewBinding

namespace Chain

variable {c : Chain} {q : ChainLink} {top : Subscriber}

/-- A chain with a link more at its end. -/
def grow (c : Chain) (q : ChainLink) (top : Subscriber) (fresh : q.2 ∉ c.links.map (·.2)) : Chain where
  root := c.root
  name := c.name
  provider := c.provider
  top := top
  others := []
  links := c.links ++ [q]
  anchor := c.anchor
  lone _ := rfl
  distinct := by
    rw [List.map_append, List.nodup_append]
    refine ⟨c.distinct, List.pairwise_singleton _ _, fun p m p' m' same => fresh ?_⟩
    rw [List.map_singleton, List.mem_singleton] at m'
    rwa [← m', ← same]

variable {fresh : q.2 ∉ c.links.map (·.2)}

/-- The last link of a chain tells the new one. -/
theorem told_grow (is : c.told [] = [.pathObject q.2]) (rest : List ChainLink) :
    (c.grow q top fresh).told (rest ++ [q]) = c.told rest := by
  cases rest with
  | nil => exact is.symm
  | cons => rfl

theorem down_grow (is : c.told [] = [.pathObject q.2]) (rest : List ChainLink) :
    (c.grow q top fresh).down (rest ++ [q]) = c.down rest := by
  cases rest with
  | nil => exact (List.cons.inj is).1.symm
  | cons => rfl

theorem subs_grow (is : c.told [] = [.pathObject q.2]) (links : List ChainLink) :
    (c.grow q top fresh).subs links = c.subs links := by
  unfold subs
  rw [← down_grow is c.links]
  rfl

theorem subs_grow_links (is : c.told [] = [.pathObject q.2]) :
    (c.grow q top fresh).subs (c.grow q top fresh).links = c.subs c.links ++ [.pathMember q.2] := by
  rw [subs_grow is]
  exact subs_append c c.links [q]

/-- Who belongs to a chain is not its next link. -/
theorem ne_of_mem_of_fresh (is : c.told [] = [.pathObject q.2]) (fresh : q.2 ∉ c.links.map (·.2))
    {sub : Subscriber} (m : sub ∈ c.subs c.links) : sub ≠ .pathMember q.2 := by
  rintro rfl
  have split : (c.grow q (.pathMember q.2) fresh).links = c.links ++ q :: [] := rfl
  exact ne_of_mem_subs split (subs_grow is c.links ▸ m) rfl

end Chain

namespace World

section
variable {η : Type} {w w' w'' : World η} {c : Chain} {q : ChainLink} {top : Subscriber}
  {done rest : List ChainLink} {fresh : q.2 ∉ c.links.map (·.2)}

/-- The value at the end of a chain is an object only if everybody hears of something that is
there. -/
theorem present_of_finalValue (links : List ChainLink)
    (seated : ∀ q ∈ links, ∃ rest, w.Link c q rest) : ∀ v : Value,
      w.Tracks (fun _ => False) False v links → (w.finalValue v links).object? ≠ none →
        v.object? ≠ none ∧ ∀ q ∈ links, w.Present (.pathMember q.2) := by
  induction links with
  | nil => exact fun v _ some => ⟨some, fun q m => absurd m List.not_mem_nil⟩
  | cons q rest ih =>
    rintro v ⟨settled, tracks⟩ some
    obtain ⟨some', present⟩ := ih (fun q' m => seated q' (List.mem_cons_of_mem _ m)) _
      (tracks.mono (by simp) fun _ _ => id) some
    obtain ⟨after, L⟩ := seated q List.mem_cons_self
    refine ⟨settled.resolve_left id ▸ object?_ne_none_of_memberOf some', fun q' m => ?_⟩
    rcases List.mem_cons.1 m with rfl | m
    · exact L.present some'
    · exact present q' m

theorem Rig.present (R : w.Rig c)
    (tracks : w.Tracks (fun _ => False) False (w.get c.root c.name) c.links)
    (some : (w.finalValue (w.get c.root c.name) c.links).object? ≠ none) :
    ∀ sub ∈ c.subs c.links, w.Present sub := by
  have seated : ∀ q ∈ c.links, ∃ rest, w.Link c q rest := fun q m => by
    obtain ⟨done, rest, split⟩ := List.append_of_mem m
    exact ⟨rest, R.links done q rest split⟩
  obtain ⟨some', present⟩ := present_of_finalValue c.links seated _ tracks some
  intro sub m
  rcases Chain.mem_subs.1 m with rfl | ⟨q, m', rfl⟩
  · intro s o n e
    obtain ⟨-, rfl, rfl⟩ := (R.anchored s o n).1 e
    exact has_of_object? some'
  · exact present q m'

/-- A link stays wired up when the chain grows. -/
theorem Link.grow (L : w.Link c q rest) {q' : ChainLink} {fresh : q'.2 ∉ c.links.map (·.2)}
    (is : c.told [] = [.pathObject q'.2]) : w.Link (c.grow q' top fresh) q (rest ++ [q']) := by
  obtain ⟨cell, get, resolver, active, seated⟩ := L
  exact ⟨cell, get, resolver, by rwa [Chain.told_grow is], seated⟩

/-- **A chain grows** by a link that is wired up. -/
theorem Rig.grow (R : w.Rig c) (is : c.told [] = [.pathObject q.2])
    (h : w.Shifts w' (· = .pathMember q.2)) (paths : w.SamePaths w' fun p => p = q.2)
    (link : w'.Link (c.grow q top fresh) q []) : w'.Rig (c.grow q top fresh) := by
  have stays : c.down c.links ≠ .pathMember q.2 :=
    Chain.ne_of_mem_of_fresh is fresh List.mem_cons_self
  have down : (c.grow q top fresh).down (c.grow q top fresh).links = c.down c.links :=
    Chain.down_grow is c.links
  have anchored : w'.Anchored c (c.down c.links) := R.toAnchored.shifts h stays
  exact {
    toAnchored := down ▸ { anchored with }
    links := fun done q' rest split => by
      rcases List.eq_nil_or_concat rest with rfl | ⟨rest, last, rfl⟩
      · obtain ⟨-, same⟩ := List.append_inj' (show c.links ++ [q] = done ++ [q'] from split) rfl
        obtain rfl := (List.cons.inj same).1
        exact link
      · rw [List.concat_eq_append] at split ⊢
        have split' : c.links ++ [q] = (done ++ q' :: rest) ++ [last] := by
          rw [List.append_assoc]
          exact split
        obtain ⟨before, same⟩ := List.append_inj' split' rfl
        obtain rfl := (List.cons.inj same).1
        have other : ¬ q'.2 = q.2 := fun e => fresh (List.mem_map.2 ⟨q', by simp [before], e⟩)
        have L : w'.Link c q' rest := (R.links done q' rest before).carry h.toCarries
          (fun e => other (Subscriber.pathMember.inj e)) (paths q'.2 other)
        exact L.grow is
    known := fun s o n sub e => by
      rw [Chain.subs_grow_links is, List.mem_append, List.mem_singleton]
      by_cases same : sub = .pathMember q.2
      · exact .inr same
      · exact .inl (R.known s o n sub ((h.enrolled s o n sub same).1 e)) }

/-! ### Subscribing -/

variable {root : Ref .object} {name : String} {provider : Provider} {ob : Observer}
  {links : List ChainLink}

/-- A chain can be connected, nobody hears of anything yet, and what is due is there. -/
structure Fresh (w : World η) (root : Ref .object) (provider : Provider) : Prop
    extends Connectable w root provider where
  silent : ∀ sub, w.Silent sub
  plain : ∀ o n, ¬ w.IsDoubled o n
  dueHas : ∀ o n, w.Due o n → w.has o n = true

/-- `w'` is `w` with the chain `c` rigged. -/
structure Rigs (w w' : World η) (c : Chain) : Prop
    extends Shifts w w' (· ∈ c.subs c.links) where
  drawn : w.Draws w'
  rig : w'.Rig c
  ordered : w'.Ordered c c.links
  tracks : w'.Tracks (fun _ => False) False (w'.get c.root c.name) c.links
  paths : ∀ p, p ∉ c.links.map (·.2) → w'.paths.get? p = w.paths.get? p
  host : w'.host = w.host

theorem Fresh.shifts (F : w.Fresh root provider) (h : w.Shifts w' fun _ => False) :
    w'.Fresh root provider where
  wired := h.wired
  provides := (provides_eq h.bindings h.attached _).trans F.provides
  live := (h.contains _).trans F.live
  closed o n o' e := (h.contains o').trans (F.closed o n o' ((h.get o n).symm.trans e))
  silent sub s o n e := F.silent sub s o n ((h.enrolled s o n sub id).1 e)
  plain o n e := F.plain o n (h.doubled o n e)
  dueHas o n due := h.has o n (F.dueHas o n ((h.due o n).1 due))

/-- Subscribing to the root of a chain. -/
theorem Fresh.subscribeRoot {l : Leaf} (F : w.Fresh root provider)
    (place : w.place? l = some (root, name)) {env : Env η} {cut : Prop} (sub : Subscriber) :
    (Run.subscribe env (.leaf l) sub).Ends cut w fun s w' =>
      w.Rigs w' ⟨root, name, provider, sub, [], [], s, List.nodup_nil, fun _ => rfl⟩ := by
  refine (subscribeLeaf_spec F.wired place sub).mono fun s w' h => ?_
  have shifts : w.Shifts w' (· = sub) := h.shifts rfl
  have enrolled : ∀ s' o n sub', w'.Enrolled s' o n sub' ↔
      s' = s ∧ o = root ∧ n = name ∧ sub' = sub := fun s' o n sub' =>
    (h.enrolled_iff s' o n sub').trans (or_iff_right (F.silent sub' s' o n))
  refine ⟨shifts.mono fun sub is => List.mem_singleton.2 is, h.toDraws, ?_,
    List.pairwise_singleton _ _, trivial, fun p _ => ?_, congrArg Backdrop.host h.still.backdrop⟩
  · exact {
      wired := h.wired
      provides := (provides_eq shifts.bindings shifts.attached _).trans F.provides
      live := (shifts.contains _).trans F.live
      plain := fun o n e => F.plain o n (shifts.doubled o n e)
      closed := fun o n o' e =>
        (shifts.contains o').trans (F.closed o n o' ((shifts.get o n).symm.trans e))
      dueHas := fun o n due => shifts.has o n (F.dueHas o n ((shifts.due o n).1 due))
      anchored := fun s' o n => (enrolled s' o n sub).trans (by simp)
      anchorDirect := by
        obtain ⟨l', t, direct, place', -⟩ := h.direct
        exact ⟨l', t, direct, place'⟩
      links := fun done q rest split => by cases done <;> cases split
      known := fun s' o n sub' e => List.mem_singleton.2 ((enrolled s' o n sub').1 e).2.2.2 }
  · rw [show w'.paths = w.paths from congrArg Backdrop.paths h.still.backdrop]

/-- A chain is rigged with a link more. -/
theorem Rigs.extend (J : w.Rigs w' c) (is : c.told [] = [.pathObject q.2])
    (h : w'.Passes w'' (· = .pathMember q.2)) (drawn : w'.Draws w'')
    (others : ∀ p, p ≠ q.2 → w''.paths.get? p = w'.paths.get? p)
    (link : w''.Link (c.grow q top fresh) q [])
    (orders : ∀ sub ∈ c.subs c.links, w''.Orders sub (.pathMember q.2))
    (holder : w''.holder? q.2 = (w'.finalValue (w'.get c.root c.name) c.links).object?) :
    w.Rigs w'' (c.grow q top fresh) := by
  have subs : (c.grow q top fresh).subs (c.grow q top fresh).links =
      c.subs c.links ++ [.pathMember q.2] := Chain.subs_grow_links is
  have ne : ∀ sub ∈ c.subs c.links, ¬ sub = .pathMember q.2 :=
    fun sub m => Chain.ne_of_mem_of_fresh is fresh m
  have holders : ∀ q' ∈ c.links, w''.holder? q'.2 = w'.holder? q'.2 := fun q' m => by
    obtain ⟨done, rest, split⟩ := List.append_of_mem m
    refine (J.rig.links done q' rest split).holder?_eq h.toCarries (h.paths q'.2 fun same => ?_)
    exact fresh (List.mem_map.2 ⟨q', m, Subscriber.pathMember.inj same⟩)
  refine ⟨(J.toShifts.mono fun sub m => ?_).trans (h.toShifts.mono fun sub e => ?_),
    J.drawn.trans drawn, J.rig.grow is h.toShifts (h.paths.mono fun p => Subscriber.pathMember.inj)
      link, ?_, ?_, fun p other => ?_, h.host.trans J.host⟩
  · rw [subs]
    exact List.mem_append_left _ m
  · rw [subs]
    exact List.mem_append_right _ (List.mem_singleton.2 e)
  · refine Ordered.snoc ?_ fun sub m => orders sub (Chain.subs_grow is _ ▸ m)
    have carried : w''.Ordered c c.links := J.ordered.carry h.toCarries ne
    unfold Ordered at carried ⊢
    rwa [Chain.subs_grow is]
  · refine (tracks_append c.links [q] _ _).2 ⟨?_, .inr ?_, trivial⟩
    · exact (tracks_congr holders h.get _ _).2 ((h.get _ _).symm ▸ J.tracks)
    · rw [holder, finalValue_congr holders h.get]
      exact congrArg (fun v => (w'.finalValue v c.links).object?) (h.get _ _).symm
  · have split : p ∉ c.links.map (·.2) ∧ p ≠ q.2 := by
      rw [show (c.grow q top fresh).links = c.links ++ [q] from rfl, List.map_append,
        List.mem_append, List.map_singleton, List.mem_singleton] at other
      exact not_or.1 other
    exact (others p split.2).trans (J.paths p split.1)

/-- A path as it is once it follows its object and its member. -/
def settled (w : World η) (p : Ref .path) (left right : Option (Ref .subscription)) : World η :=
  w.modifyPath p fun cell => { cell with leftSubscription := left, rightSubscription := right }

/-- **A chain that is rigged up to a path** grows by the path when that subscribes to its member. -/
theorem Rigs.subscribeMember {cell : PathCell} {cut : Prop} (J : w.Rigs w' c)
    (is : c.told [] = [.pathObject q.2]) (get : w'.paths.get? q.2 = some cell)
    (resolver : cell.resolver = .member c.provider q.1) (alone : cell.callbacks.toList = [top])
    (right : w'.Resolves (w'.finalValue (w'.get c.root c.name) c.links) q.1 cell.right)
    (fresh : q.2 ∉ c.links.map (·.2)) :
    (Run.subscribeMember q.2).Ends cut w' fun s w'' => ∀ left,
      w.Rigs (w''.settled q.2 (some left) s) (c.grow q top fresh) := by
  have silent : w'.Silent (.pathMember q.2) := fun s o n e =>
    Chain.ne_of_mem_of_fresh is fresh (J.rig.known s o n _ e) rfl
  -- the path writes down its subscriptions
  have settles : ∀ (w₁ : World η) (left s), w₁.Wired → w₁.paths = w'.paths →
      w₁.Passes (w₁.settled q.2 left s) (· = .pathMember q.2) ∧
      (w₁.settled q.2 left s).paths.get? q.2 =
        some { cell with leftSubscription := left, rightSubscription := s } ∧
      ∀ p, p ≠ q.2 → (w₁.settled q.2 left s).paths.get? p = w'.paths.get? p := by
    intro w₁ left s wired same
    refine ⟨passes_modifyPath wired q.2 (.inl rfl), ?_, fun p ne => ?_⟩
    · rw [settled, modifyPath, Store.get?_modify_self, same, get, Option.map_some]
    · rw [settled, modifyPath, Store.get?_modify_of_ne _ ne, same]
  simp only [Run.subscribeMember, Run.ends_bind, Run.ends_read, get, Option.bind_some]
  rcases right with ⟨nothing, noRight⟩ | ⟨o, l, object, known, place⟩
  · -- there is no object, and nothing to subscribe to
    rw [noRight]
    intro left
    obtain ⟨passes, get', others⟩ := settles w' (some left) none J.rig.wired rfl
    have silent' : (w'.settled q.2 (some left) none).Silent (.pathMember q.2) := fun s o n e =>
      silent s o n ((aside_modifyPath w' q.2 _).enrolled.1 e)
    refine J.extend is passes (.of_eq rfl (Nat.le_refl _)) others ⟨_, get', resolver, ⟨alone, rfl⟩, ?_⟩
      (fun sub _ => silent'.orders sub) ?_
    · rw [show ({ cell with leftSubscription := some left, rightSubscription := none } :
        PathCell).right = none from noRight]
      exact .away silent'
    · simp only [holder?, get', Option.bind_some, noRight, nothing]
  · rw [known, Run.ends_map]
    refine (subscribeLeaf_spec J.rig.wired place _).mono fun s w₁ F left => ?_
    have live : w'.objects.contains o = true := by
      obtain ⟨rest, before⟩ | nothing := c.links.eq_nil_or_concat.symm
      · obtain ⟨last, before⟩ := before
        rw [before, List.concat_eq_append, finalValue_append] at object
        exact live_of_memberOf J.rig.closed object
      · rw [nothing] at object
        exact J.rig.closed _ _ o (Value.object?_eq_some.1 object)
    have present := J.rig.present J.tracks (by rw [object]; exact Option.some_ne_none o)
    obtain ⟨passes, get', others⟩ := settles w₁ (some left) (some s) F.wired
      (congrArg Backdrop.paths F.still.backdrop)
    have aside : w₁.Shifts (w₁.settled q.2 (some left) (some s)) fun _ => False :=
      (aside_modifyPath w₁ q.2 _).shifts F.wired rfl rfl rfl
    have place' : (w₁.settled q.2 (some left) (some s)).place? l = some (o, q.1) :=
      aside.place? l _ (F.place? l _ place)
    have subscribes : w'.Passes w₁ (· = .pathMember q.2) := F.passes rfl
    refine J.extend is (subscribes.trans passes) (F.toDraws.trans (.of_eq rfl (Nat.le_refl _)))
      others ⟨_, get', resolver, ⟨alone, rfl⟩, ?_⟩ (fun sub m => ?_) ?_
    · rw [show ({ cell with leftSubscription := some left, rightSubscription := some s } :
        PathCell).right = some l from known]
      exact aside.seated id (F.seated silent place live)
    · have ne := Chain.ne_of_mem_of_fresh is fresh m
      exact aside.orders id id (F.orders silent ne (J.rig.placed m) (present sub m))
    · simp only [holder?, get', Option.bind_some, known, place', Option.map_some, object]

/-- What moves nobody may come before a chain is rigged, and after it. -/
theorem Rigs.between {w₁ w₂ : World η} (before : w.Shifts w₁ fun _ => False)
    (host : w₁.host = w.host)
    (others : ∀ p, p ∉ c.links.map (·.2) → w₁.paths.get? p = w.paths.get? p) (J : w₁.Rigs w₂ c)
    (after : w₂.Shifts w' fun _ => False) (host' : w'.host = w₂.host) (same : w'.paths = w₂.paths)
    (drawn : w.Draws w') : w.Rigs w' c := by
  have holders : ∀ q ∈ c.links, w'.holder? q.2 = w₂.holder? q.2 := fun q m => by
    obtain ⟨done, rest, split⟩ := List.append_of_mem m
    exact (J.rig.links done q rest split).holder?_eq after.toCarries (by rw [same])
  refine ⟨((before.mono fun _ => False.elim).trans J.toShifts).trans (after.mono fun _ => False.elim),
    drawn, J.rig.shifts after (.of_eq same) (fun _ => False.elim) (fun _ _ _ _ => False.elim),
    J.ordered.carry after.toCarries fun _ _ => id, ?_, fun p other => ?_,
    host'.trans (J.host.trans host)⟩
  · rw [after.get]
    exact (tracks_congr holders after.get _ _).2 J.tracks
  · rw [same, J.paths p other, others p other]

/-- `w'` is `w` with a chain rigged that has these links and tells `sub`. -/
def Chained (w w' : World η) (root : Ref .object) (name : String) (provider : Provider)
    (links : List ChainLink) (sub : Subscriber) : Prop :=
  ∃ c : Chain, c.root = root ∧ c.name = name ∧ c.provider = provider ∧ c.told [] = [sub] ∧
    c.links = links ∧ w.Rigs w' c

/-- **A path that subscribes** to what comes before it, and then to its member. -/
theorem subscribePath_spec {env : Env η} {cut : Prop} {cell : PathCell} {p : Ref .path} {n : String}
    (F : w.Fresh root provider) (get : w.paths.get? p = some cell)
    (resolver : cell.resolver = .member provider n) (alone : cell.callbacks.entries = [])
    (idle : cell.leftSubscription = none) (fresh : p ∉ links.map (·.2))
    (right : w.Resolves (w.seen (w.get root name) (links.map (·.1))) n cell.right)
    (first : ∀ w₁, w.Shifts w₁ (fun _ => False) →
      (∀ p', p' ≠ p → w₁.paths.get? p' = w.paths.get? p') →
        (env.subscribe cell.left (.pathObject p)).Ends cut w₁ fun _ w' =>
          w₁.Chained w' root name provider links (.pathObject p)) (sub : Subscriber) :
    (Run.subscribePath env p sub).Ends cut w fun _ w' =>
      w.Chained w' root name provider (links ++ [(n, p)]) sub := by
  -- the path writes down its subscriber
  let t : Token := ⟨w.nextToken⟩
  let w₁ := w.freshToken.2.modifyPath p fun cell => { cell with callbacks := cell.callbacks.add t sub }
  have aside : w.Aside w₁ :=
    ⟨rfl, rfl, rfl, rfl, rfl, rfl, rfl, rfl, rfl, Nat.le_succ _, rfl, rfl, id, id⟩
  have shifts : w.Shifts w₁ fun _ => False := aside.shifts F.wired rfl rfl rfl
  have get₁ : w₁.paths.get? p = some { cell with callbacks := cell.callbacks.add t sub } := by
    change (w.paths.modify p _).get? p = _
    rw [Store.get?_modify_self, get, Option.map_some]
  have others : ∀ p', p' ≠ p → w₁.paths.get? p' = w.paths.get? p' := fun p' ne =>
    Store.get?_modify_of_ne _ ne
  simp only [Run.subscribePath, Run.ends_bind, Run.ends_update, Run.ends_modify]
  refine Run.ends_attempt ?_
  change (Run.activate env p).Ends cut w₁ _
  simp only [Run.activate, Run.ends_bind, Run.ends_read, get₁, idle, Option.isSome_none,
    Bool.false_eq_true, if_false]
  refine (first w₁ shifts others).mono fun left w₂ chained => ?_
  obtain ⟨c, rfl, rfl, rfl, top, rfl, J⟩ := chained
  have get₂ : w₂.paths.get? p = some { cell with callbacks := cell.callbacks.add t sub } :=
    (J.paths p fresh).trans get₁
  have alone' : (cell.callbacks.add t sub).toList = [sub] := by
    rw [Listeners.toList_add, Listeners.toList, alone, List.map_nil, List.nil_append]
  refine (J.subscribeMember (q := (n, p)) top get₂ resolver alone' ?_ fresh).mono
    fun s w₃ grown => ?_
  · have value : w₂.finalValue (w₂.get c.root c.name) c.links =
        w.seen (w.get c.root c.name) (c.links.map (·.1)) := by
      rw [J.tracks.finalValue_eq, J.get, shifts.get,
        seen_congr fun o n => (J.get o n).trans (shifts.get o n)]
    rw [value]
    refine right.imp_right fun resolved => ?_
    obtain ⟨o, l, is, known, place⟩ := resolved
    exact ⟨o, l, is, known, J.place? l _ (shifts.place? l _ place)⟩
  -- the subscription with the path is nobody's who hears of a property
  have R := grown left
  simp only [Run.ends_modify, Run.ends_update]
  change World.Chained w ((w₃.settled p (some left) s).withSubscription (.callback (.path p) t)) _ _ _ _ _
  generalize w₃.settled p (some left) s = w₄ at R ⊢
  have unused : ∀ s' ob, w₄.disposal? s' ≠ some (.callback ob t) := by
    intro s' ob e
    rcases R.drawn.drawn s' ob t e with e | later
    · exact Nat.lt_irrefl _ (F.wired.issued s' ob t ((aside.disposal? s').symm.trans e))
    · exact Nat.not_succ_le_self _ later
  have spares : w₄.Spares (w₄.withSubscription (.callback (.path p) t)) := by
    refine spares_withSubscription R.rig.wired trivial fun ob t' same => ?_
    obtain ⟨-, rfl⟩ := Disposal.callback.inj same
    exact ⟨R.drawn.nextToken, unused⟩
  refine ⟨c.grow (n, p) sub fresh, rfl, rfl, rfl, rfl, rfl, R.between shifts rfl (fun p' other => ?_)
    (spares.shifts rfl rfl rfl) rfl rfl ⟨?_, fun s' ob t' e => ?_⟩⟩
  · refine others p' fun same => other ?_
    rw [same]
    exact List.mem_map.2 ⟨(n, p), by simp [Chain.grow], rfl⟩
  · exact Nat.le_trans (Nat.le_succ _) R.drawn.nextToken
  · rw [disposal?_withSubscription] at e
    split at e
    · obtain ⟨-, rfl⟩ := Disposal.callback.inj (Option.some.inj e)
      exact .inr (Nat.le_refl _)
    · refine (R.drawn.drawn s' ob t' e).imp (fun e => (aside.disposal? s').symm.trans e) fun later => ?_
      exact Nat.le_trans (Nat.le_succ _) later

/-- **Subscribing to what has been planned** rigs the chain. -/
theorem subscribe_spec {host : Host η} {rounds : Nat} {cut : Prop} (n : Nat) :
    ∀ {w : World η} {ob : Observer} {links : List ChainLink} {depth : Nat} (sub : Subscriber),
      links.length = n → w.Planned root name provider ob links → w.Fresh root provider →
        n ≤ depth → (Run.subscribe (machine host rounds depth) ob sub).Ends cut w fun _ w' =>
          w.Chained w' root name provider links sub := by
  induction n with
  | zero =>
    intro w ob links depth sub length P F deep
    cases P with
    | root place =>
      exact (F.subscribeRoot place sub).mono fun s w' J => ⟨_, rfl, rfl, rfl, rfl, rfl, J⟩
    | link => simp at length
  | succ n ih =>
    intro w ob links depth sub length P F deep
    cases P with
    | root => cases length
    | link before get left resolver alone idle right fresh =>
      obtain ⟨depth, rfl⟩ : ∃ d, depth = d + 1 := ⟨depth - 1, by omega⟩
      refine subscribePath_spec F get resolver alone idle fresh right (fun w₁ shifts others => ?_) sub
      have planned := before.carry shifts.place? shifts.get fun p' m cell' e =>
        (others p' (by rintro rfl; exact fresh m)).trans e
      exact ih _ (by simpa using length) (left ▸ planned) (F.shifts shifts) (by omega)

end

end World

end ViewBinding
