import ViewBinding.Machine
import ViewBinding.Proofs.Leaf.Deliver
import ViewBinding.Proofs.Path.Shift

/-!
# Path — chains of members

A chain watches `x.a.b.c`: its root leaf is the property `x` of an object, and each of its links is a
path that watches a member of the value before it.  Each link hears of its member, and the first link
hears of the root as well; what a link has heard it tells the link after it, and the last link tells
whoever is at the top.

`w.Rig c` says that the links of `c` are wired up in `w`, `w.Ordered c c.links` that whoever is further
down the chain has been registered later, and `w.Tracks hot above v links` that each of `links` watches
the member of the value before it, unless somebody before it is `hot`, that is, still to be told.
-/

namespace ViewBinding

/-- What a hook has been told: the new and the old values, the first ones first. -/
abbrev Notes := List (Value × Value)

/-- A host whose hooks note what they are told. -/
def Host.noting : Host Notes where
  call _ _ _ _ := pure .undefined
  convert _ _ _ _ := pure none
  fire _ _ occasion :=
    match occasion with
    | .changed new old => Run.modify fun w => { w with host := w.host ++ [(new, old)] }
    | _ => pure ()
  late w := (false, w.host)

/-- A link of a chain: the member that it watches, and its path. -/
abbrev ChainLink := String × Ref .path

/-- A chain of members of the property `name` of the object `root`. -/
structure Chain where
  root : Ref .object
  name : String
  provider : Provider
  /-- Who hears of the value at the end. -/
  top : Subscriber
  /-- Who else does, the last ones last. -/
  others : List Subscriber
  links : List ChainLink
  /-- The subscription with the root. -/
  anchor : Ref .subscription
  distinct : (links.map (·.2)).Nodup
  /-- The root tells one subscriber. -/
  lone : links = [] → others = []

namespace Chain

/-- Who is told first by what comes before `links`. -/
def down (c : Chain) : List ChainLink → Subscriber
  | [] => c.top
  | q :: _ => .pathObject q.2

/-- All who are told by what comes before `links`. -/
def told (c : Chain) : List ChainLink → List Subscriber
  | [] => c.top :: c.others
  | q :: _ => [.pathObject q.2]

/-- Only hooks hear of the value at the end. -/
def Hooked (c : Chain) : Prop := ∀ sub ∈ c.told [], ∃ hook, sub = .hook hook

/-- Where a chain runs, whoever hears of the value at the end. -/
def course (c : Chain) : Ref .object × String × List ChainLink × Subscriber :=
  (c.root, c.name, c.links, c.down c.links)

/-- Who hears of the root and of the members that `links` watch. -/
def subs (c : Chain) (links : List ChainLink) : List Subscriber :=
  c.down c.links :: links.map fun q => .pathMember q.2

variable {c : Chain} {q : ChainLink} {done rest : List ChainLink}

/-- A subscriber is further down a chain than another. -/
def Below (c : Chain) (sub sub' : Subscriber) : Prop :=
  List.Sublist [sub, sub'] (c.subs c.links)

theorem told_links (c : Chain) : c.told c.links = [c.down c.links] := by
  cases links : c.links with
  | nil => rw [told, down, c.lone links]
  | cons => rfl

theorem Hooked.of_told {hook : Ref .hook} (told : c.told [] = [.hook hook]) : c.Hooked :=
  fun _ m => ⟨hook, List.mem_singleton.1 (told ▸ m)⟩

theorem course_eq {c' : Chain} (same : c'.course = c.course) : c'.root = c.root ∧
    c'.name = c.name ∧ c'.links = c.links ∧ c'.down c'.links = c.down c.links := by
  simpa only [course, Prod.mk.injEq] using same

theorem mem_subs {links : List ChainLink} {sub : Subscriber} :
    sub ∈ c.subs links ↔ sub = c.down c.links ∨ ∃ q ∈ links, sub = .pathMember q.2 := by
  simp only [Chain.subs, List.mem_cons, List.mem_map, eq_comm]

theorem mem_subs_snoc {sub : Subscriber} :
    sub ∈ c.subs (done ++ [q]) ↔ sub ∈ c.subs done ∨ sub = .pathMember q.2 := by
  simp only [Chain.subs, List.map_append, List.map_cons, List.map_nil, List.mem_cons,
    List.mem_append, List.not_mem_nil, or_false, or_assoc]

/-- What comes first in a chain is no member. -/
theorem down_ne (q : ChainLink) (m : q ∈ c.links) (p : Ref .path) :
    c.down c.links ≠ .pathMember p := by
  cases e : c.links with
  | nil => exact absurd (e ▸ m) List.not_mem_nil
  | cons => exact nofun

theorem not_mem_rest (split : c.links = done ++ q :: rest) {q' : ChainLink} (m : q' ∈ rest) :
    q.2 ≠ q'.2 := by
  have := c.distinct
  rw [split, List.map_append, List.nodup_append] at this
  exact fun same => (List.nodup_cons.1 this.2.1).1 (List.mem_map.2 ⟨q', m, same.symm⟩)

/-- A path is at one place in a chain. -/
theorem split_eq (split : c.links = done ++ q :: rest) {done' rest' : List ChainLink}
    {q' : ChainLink} (split' : c.links = done' ++ q' :: rest') (same : q'.2 = q.2) :
    done' = done ∧ q' = q ∧ rest' = rest := by
  have distinct := c.distinct
  rw [split] at distinct split'
  clear split
  induction done generalizing done' with
  | nil =>
    cases done' with
    | nil => simpa [eq_comm] using split'
    | cons d done' =>
      obtain ⟨rfl, rfl⟩ := List.cons.inj split'
      refine absurd same fun same => (List.nodup_cons.1 distinct).1 ?_
      exact List.mem_map.2 ⟨q', by simp, same⟩
  | cons d done ih =>
    cases done' with
    | nil =>
      obtain ⟨rfl, rfl⟩ := List.cons.inj split'
      refine absurd same fun same => (List.nodup_cons.1 distinct).1 ?_
      exact List.mem_map.2 ⟨q, by simp, same.symm⟩
    | cons d' done' =>
      obtain ⟨rfl, split''⟩ := List.cons.inj split'
      obtain ⟨rfl, is⟩ := ih split'' (List.nodup_cons.1 distinct).2
      exact ⟨rfl, is⟩

/-- Who hears of what comes before some links is none of them. -/
theorem not_mem_of_mem_subs (split : c.links = done ++ rest) {sub : Subscriber}
    (m : sub ∈ c.subs done) : ¬ ∃ q ∈ rest, sub = .pathMember q.2 := by
  rintro ⟨q, m', rfl⟩
  rcases mem_subs.1 m with is | ⟨q', m'', is⟩
  · exact down_ne q (by simp [split, m']) q.2 is.symm
  · have := c.distinct
    rw [split, List.map_append, List.nodup_append] at this
    exact this.2.2 _ (List.mem_map_of_mem m'') _ (List.mem_map_of_mem m')
      (Subscriber.pathMember.inj is).symm

theorem ne_of_mem_subs (split : c.links = done ++ q :: rest) {sub : Subscriber}
    (m : sub ∈ c.subs done) : sub ≠ .pathMember q.2 :=
  fun is => not_mem_of_mem_subs split m ⟨q, List.mem_cons_self, is⟩

/-- The subscribers of a chain up to a link and of the rest. -/
theorem subs_append (c : Chain) (done rest : List ChainLink) :
    c.subs (done ++ rest) = c.subs done ++ rest.map fun q => .pathMember q.2 := by
  simp only [Chain.subs, List.map_append, List.cons_append]

/-- Who is told is the first of its chain, or a link. -/
theorem exists_last {sub : Subscriber} (m : sub ∈ c.subs c.links) :
    ∃ done rest before, c.links = done ++ rest ∧ c.subs done = before ++ [sub] := by
  rcases mem_subs.1 m with rfl | ⟨q, m', rfl⟩
  · exact ⟨[], c.links, [], rfl, rfl⟩
  · obtain ⟨done, rest, split⟩ := List.append_of_mem m'
    exact ⟨done ++ [q], rest, c.subs done, by simp [split], subs_append c done [q]⟩

section
variable {sub sub' : Subscriber} {before : List Subscriber}

theorem below_of_mem_before (split : c.links = done ++ rest) (last : c.subs done = before ++ [sub])
    (m : sub' ∈ before) : c.Below sub' sub := by
  unfold Below
  rw [split, subs_append, last]
  refine List.Sublist.trans ?_ (List.sublist_append_left _ _)
  exact (List.singleton_sublist.2 m).append (List.Sublist.refl [sub])

theorem below_of_mem_rest (split : c.links = done ++ rest) (last : c.subs done = before ++ [sub])
    (m : q ∈ rest) : c.Below sub (.pathMember q.2) := by
  unfold Below
  rw [split, subs_append, last, List.append_assoc]
  refine List.Sublist.trans ?_ (List.sublist_append_right _ _)
  exact (List.Sublist.refl [sub]).append (List.singleton_sublist.2 (List.mem_map.2 ⟨q, m, rfl⟩))

end

end Chain

/-- The object that a value is. -/
def Value.object? : Value → Option (Ref .object)
  | .object o => some o
  | _ => none

theorem Value.object?_eq_some {v : Value} {o : Ref .object} : v.object? = some o ↔ v = .object o := by
  cases v <;> simp [Value.object?]

/-- What one sees of a path apart from the value that it has told last. -/
def PathCell.core (c : PathCell) : Resolver × Listeners Subscriber × Option (Ref .subscription) ×
    Option Leaf × Option (Ref .subscription) :=
  (c.resolver, c.callbacks, c.leftSubscription, c.right, c.rightSubscription)

namespace World

variable {η : Type} {w w' w'' : World η} {c : Chain}

/-- The member of an object, if there is one. -/
def memberOf (w : World η) (holder : Option (Ref .object)) (n : String) : Value :=
  match holder with
  | some o => w.get o n
  | none => .undefined

/-- The object whose member a path watches. -/
def holder? (w : World η) (p : Ref .path) : Option (Ref .object) :=
  match (w.paths.get? p).bind (·.right) with
  | some l => (w.place? l).map (·.1)
  | none => none

/-- The leaf and the subscription by which a link watches its member. -/
inductive Seated (w : World η) (q : ChainLink) : Option Leaf → Option (Ref .subscription) → Prop
  | away (silent : ∀ s o n, ¬ w.Enrolled s o n (.pathMember q.2)) : Seated w q none none
  | at {l : Leaf} {s : Ref .subscription} {o : Ref .object} (place : w.place? l = some (o, q.1))
      (live : w.objects.contains o = true)
      (direct : ∃ l' t, w.directVoice? s = some (l', t) ∧ w.place? l' = some (o, q.1))
      (enrolled : ∀ s' o' n', w.Enrolled s' o' n' (.pathMember q.2) ↔ s' = s ∧ o' = o ∧ n' = q.1) :
      Seated w q (some l) (some s)

/-- A link is wired up between what comes before it and the `rest` of its chain. -/
def Link (w : World η) (c : Chain) (q : ChainLink) (rest : List ChainLink) : Prop :=
  ∃ cell, w.paths.get? q.2 = some cell ∧ cell.resolver = .member c.provider q.1 ∧
    (cell.callbacks.toList = c.told rest ∧ cell.leftSubscription.isSome = true) ∧
    w.Seated q cell.right cell.rightSubscription

/-- A subscriber hears of the root of a chain, and properties hold data. -/
structure Anchored (w : World η) (c : Chain) (sub : Subscriber) : Prop where
  wired : w.Wired
  provides : w.provides c.provider = true
  live : w.objects.contains c.root = true
  plain : ∀ o n, ¬ w.IsDoubled o n
  closed : ∀ o n o', w.get o n = .object o' → w.objects.contains o' = true
  dueHas : ∀ o n, w.Due o n → w.has o n = true
  anchored : ∀ s o n, w.Enrolled s o n sub ↔ s = c.anchor ∧ o = c.root ∧ n = c.name
  anchorDirect : ∃ l t, w.directVoice? c.anchor = some (l, t) ∧ w.place? l = some (c.root, c.name)

/-- The links of a chain are wired up, and nobody else watches a property. -/
structure Rig (w : World η) (c : Chain) : Prop extends Anchored w c (c.down c.links) where
  links : ∀ done q rest, c.links = done ++ q :: rest → w.Link c q rest
  known : ∀ s o n sub, w.Enrolled s o n sub → sub ∈ c.subs c.links

/-- The subscriber `sub'` is further down a chain than `sub`. -/
structure Orders (w : World η) (sub sub' : Subscriber) : Prop where
  before : ∀ s s' o n, w.Enrolled s o n sub → w.Enrolled s' o n sub' → w.Before s s'
  absent : ∀ s o n, w.Enrolled s o n sub → w.has o n = false →
    ∀ s' o' n', ¬ w.Enrolled s' o' n' sub'
  parked : ∀ s s' o o' n n' u t t', w.Enrolled s o n sub → w.Enrolled s' o' n' sub' →
    w.directVoice? s = some (.placeholder u, t) → w.directVoice? s' ≠ some (.placeholder u, t')

/-- Who is further down has been registered later. -/
def Ordered (w : World η) (c : Chain) (links : List ChainLink) : Prop :=
  (c.subs links).Pairwise w.Orders

/-- Each link watches the member of the value before it, unless somebody `above` it or before it is
`hot`. -/
def Tracks (w : World η) (hot : Subscriber → Prop) (above : Prop) (v : Value) :
    List ChainLink → Prop
  | [] => True
  | q :: rest => (above ∨ w.holder? q.2 = v.object?) ∧
    w.Tracks hot (above ∨ hot (.pathMember q.2)) (w.memberOf (w.holder? q.2) q.1) rest

/-- The value at the end of a chain. -/
def finalValue (w : World η) (v : Value) : List ChainLink → Value
  | [] => v
  | q :: rest => w.finalValue (w.memberOf (w.holder? q.2) q.1) rest

/-! ### What keeps the wiring -/

section
variable {moved : Subscriber → Prop} {q : ChainLink} {rest done : List ChainLink}
  {right : Option Leaf} {s : Option (Ref .subscription)} {sub sub' : Subscriber}

theorem Carries.orders (h : w.Carries w' moved) (stays : ¬ moved sub) (stays' : ¬ moved sub')
    (O : w.Orders sub sub') : w'.Orders sub sub' where
  before s s' o n e e' := by
    have e₁ := (h.enrolled s o n sub stays).1 e
    have e₂ := (h.enrolled s' o n sub' stays').1 e'
    exact h.before s s' o o n n sub sub' stays stays' e₁ e₂ (O.before s s' o n e₁ e₂)
  absent s o n e none s' o' n' e' := by
    refine O.absent s o n ((h.enrolled s o n sub stays).1 e) ?_ s' o' n'
      ((h.enrolled s' o' n' sub' stays').1 e')
    exact Bool.eq_false_iff.2 fun has => by simp [h.has o n has] at none
  parked s s' o o' n n' u t t' e e' direct direct' := by
    have e₁ := (h.enrolled s o n sub stays).1 e
    have e₂ := (h.enrolled s' o' n' sub' stays').1 e'
    rw [h.direct s o n sub stays e₁] at direct
    rw [h.direct s' o' n' sub' stays' e₂] at direct'
    exact O.parked s s' o o' n n' u t t' e₁ e₂ direct direct'

theorem Carries.seated (h : w.Carries w' moved) (stays : ¬ moved (.pathMember q.2))
    (S : w.Seated q right s) : w'.Seated q right s := by
  cases S with
  | away silent =>
    exact .away fun s o n e => silent s o n ((h.enrolled s o n _ stays).1 e)
  | «at» place live direct enrolled =>
    refine .at (h.place? _ _ place) ((h.contains _).trans live) ?_ fun s' o' n' => ?_
    · obtain ⟨l', t, direct, place'⟩ := direct
      have e := (enrolled _ _ _).2 ⟨rfl, rfl, rfl⟩
      exact ⟨l', t, (h.direct _ _ _ _ stays e).trans direct, h.place? _ _ place'⟩
    · exact (h.enrolled s' o' n' _ stays).trans (enrolled s' o' n')

/-- The paths of `w'` that are not `changed` are wired up as in `w`. -/
def SamePaths (w w' : World η) (changed : Ref .path → Prop) : Prop :=
  ∀ p, ¬ changed p → (w'.paths.get? p).map PathCell.core = (w.paths.get? p).map PathCell.core

theorem SamePaths.of_eq {changed : Ref .path → Prop} (paths : w'.paths = w.paths) :
    w.SamePaths w' changed :=
  fun p _ => by rw [paths]

theorem SamePaths.trans {changed : Ref .path → Prop} (h : w.SamePaths w' changed)
    (h' : w'.SamePaths w'' changed) : w.SamePaths w'' changed :=
  fun p other => (h' p other).trans (h p other)

theorem SamePaths.mono {changed changed' : Ref .path → Prop} (h : w.SamePaths w' changed)
    (weaker : ∀ p, changed p → changed' p) : w.SamePaths w' changed' :=
  fun p other => h p fun is => other (weaker p is)

theorem core_eq {cell cell' : PathCell} (same : cell'.core = cell.core) :
    cell'.resolver = cell.resolver ∧ cell'.callbacks = cell.callbacks ∧
      cell'.leftSubscription = cell.leftSubscription ∧ cell'.right = cell.right ∧
        cell'.rightSubscription = cell.rightSubscription := by
  simpa only [PathCell.core, Prod.mk.injEq] using same

theorem Link.carry (L : w.Link c q rest) (h : w.Carries w' moved)
    (stays : ¬ moved (.pathMember q.2))
    (same : (w'.paths.get? q.2).map PathCell.core = (w.paths.get? q.2).map PathCell.core) :
    w'.Link c q rest := by
  obtain ⟨cell, get, resolver, active, seated⟩ := L
  rw [get, Option.map_some, Option.map_eq_some_iff] at same
  obtain ⟨cell', get', same⟩ := same
  obtain ⟨r, cb, left, right, s⟩ := core_eq same
  refine ⟨cell', get', r.trans resolver, cb ▸ left ▸ active, ?_⟩
  rw [right, s]
  exact h.seated stays seated

theorem map_right_eq {cell cell' : Option PathCell}
    (same : cell'.map PathCell.core = cell.map PathCell.core) :
    cell'.map (·.right) = cell.map (·.right) := by
  have rights := congrArg (Option.map fun core => core.2.2.2.1) same
  rwa [Option.map_map, Option.map_map] at rights

theorem Link.holder?_eq_of_right (L : w.Link c q rest) (h : w.Carries w' moved)
    (same : (w'.paths.get? q.2).map (·.right) = (w.paths.get? q.2).map (·.right)) :
    w'.holder? q.2 = w.holder? q.2 := by
  obtain ⟨cell, get, -, -, seated⟩ := L
  rw [get, Option.map_some, Option.map_eq_some_iff] at same
  obtain ⟨cell', get', right⟩ := same
  simp only [holder?, get, get', Option.bind_some, right]
  generalize cell.right = right, cell.rightSubscription = s at seated
  cases seated with
  | away => rfl
  | «at» place => simp only [place, h.place? _ _ place]

theorem Link.holder?_eq (L : w.Link c q rest) (h : w.Carries w' moved)
    (same : (w'.paths.get? q.2).map PathCell.core = (w.paths.get? q.2).map PathCell.core) :
    w'.holder? q.2 = w.holder? q.2 :=
  L.holder?_eq_of_right h (map_right_eq same)

/-- The value of a path is the member that it watches. -/
theorem Link.observerValue (L : w.Link c q rest) (h : w.Attentive) :
    w.observerValue (.path q.2) = w.memberOf (w.holder? q.2) q.1 := by
  obtain ⟨cell, get, -, -, seated⟩ := L
  simp only [World.observerValue, holder?, get, Option.bind_some]
  generalize cell.right = right, cell.rightSubscription = s at seated
  cases seated with
  | away => rfl
  | «at» place => simp only [place, leafValue_of_place? h place, Option.map_some, memberOf]

theorem memberOf_eq (same : ∀ o n, w'.get o n = w.get o n) (holder : Option (Ref .object))
    (n : String) : w'.memberOf holder n = w.memberOf holder n := by
  cases holder <;> simp only [memberOf, same]

/-- The member of an object that is there is there. -/
theorem live_of_memberOf (closed : ∀ o n o', w.get o n = .object o' → w.objects.contains o' = true)
    {holder : Option (Ref .object)} {n : String} {o : Ref .object}
    (is : (w.memberOf holder n).object? = some o) : w.objects.contains o = true := by
  cases holder with
  | none => cases is
  | some o' => exact closed o' n o (Value.object?_eq_some.1 is)

theorem provides_eq (bindings : w'.bindings = w.bindings) (attached : w'.attached = w.attached)
    (provider : Provider) : w'.provides provider = w.provides provider := by
  cases provider <;> simp only [World.provides, bindings, attached]

theorem Ordered.carry {links : List ChainLink} (O : w.Ordered c links) (h : w.Carries w' moved)
    (stays : ∀ sub ∈ c.subs links, ¬ moved sub) : w'.Ordered c links :=
  List.Pairwise.imp_of_mem (fun m m' O => h.orders (stays _ m) (stays _ m') O) O

/-! ### Tracking -/

variable {hot hot' : Subscriber → Prop} {above above' : Prop} {v : Value}

/-- Whether the last link is hot does not matter. -/
theorem Tracks.mono {links : List ChainLink} : ∀ {above above' : Prop} {v : Value},
    w.Tracks hot above v links → (above → above') →
      (∀ q ∈ links.dropLast, hot (.pathMember q.2) → hot' (.pathMember q.2)) →
        w.Tracks hot' above' v links := by
  induction links with
  | nil => exact fun _ _ _ => trivial
  | cons q rest ih =>
    rintro above above' v ⟨settled, tracks⟩ weaker hotter
    refine ⟨settled.imp_left weaker, ?_⟩
    cases rest with
    | nil => trivial
    | cons q' rest =>
      exact ih tracks (Or.imp weaker (hotter q List.mem_cons_self))
        fun q'' m => hotter q'' (List.mem_cons_of_mem _ m)

theorem tracks_append (xs ys : List ChainLink) : ∀ (above : Prop) (v : Value),
    w.Tracks hot above v (xs ++ ys) ↔ w.Tracks hot above v xs ∧
      w.Tracks hot (above ∨ ∃ q ∈ xs, hot (.pathMember q.2)) (w.finalValue v xs) ys := by
  induction xs with
  | nil =>
    intro above v
    simp [Tracks, finalValue]
  | cons q rest ih =>
    intro above v
    simp only [List.cons_append, Tracks, ih, finalValue, List.mem_cons, exists_eq_or_imp, and_assoc,
      or_assoc]

theorem finalValue_append (xs ys : List ChainLink) : ∀ v : Value,
    w.finalValue v (xs ++ ys) = w.finalValue (w.finalValue v xs) ys := by
  induction xs with
  | nil => exact fun _ => rfl
  | cons q rest ih => exact fun v => ih _

/-- A value that changes makes its link hot. -/
theorem Tracks.change {links : List ChainLink} (holders : ∀ q ∈ links, w'.holder? q.2 = w.holder? q.2)
    (members : ∀ q ∈ links, w'.memberOf (w.holder? q.2) q.1 = w.memberOf (w.holder? q.2) q.1 ∨
      hot' (.pathMember q.2))
    (hotter : ∀ q ∈ links, hot (.pathMember q.2) → hot' (.pathMember q.2)) :
    ∀ {above above' : Prop} {v v' : Value}, w.Tracks hot above v links → (above → above') →
      (v' = v ∨ above') → w'.Tracks hot' above' v' links := by
  induction links with
  | nil => exact fun _ _ _ => trivial
  | cons q rest ih =>
    rintro above above' v v' ⟨settled, tracks⟩ weaker value
    have holder := holders q List.mem_cons_self
    refine ⟨?_, ?_⟩
    · rcases value with rfl | is
      · exact settled.imp weaker holder.trans
      · exact .inl is
    · rw [holder]
      exact ih (fun q m => holders q (List.mem_cons_of_mem _ m))
        (fun q m => members q (List.mem_cons_of_mem _ m))
        (fun q m => hotter q (List.mem_cons_of_mem _ m)) tracks
        (Or.imp weaker (hotter q List.mem_cons_self))
        ((members q List.mem_cons_self).imp id .inr)

theorem tracks_congr {links : List ChainLink} (holders : ∀ q ∈ links, w'.holder? q.2 = w.holder? q.2)
    (get : ∀ o n, w'.get o n = w.get o n) : ∀ (above : Prop) (v : Value),
      w'.Tracks hot above v links ↔ w.Tracks hot above v links := by
  induction links with
  | nil => exact fun _ _ => Iff.rfl
  | cons q rest ih =>
    intro above v
    simp only [Tracks, holders q List.mem_cons_self, memberOf_eq get,
      ih fun q' m => holders q' (List.mem_cons_of_mem _ m)]

theorem finalValue_congr {links : List ChainLink}
    (holders : ∀ q ∈ links, w'.holder? q.2 = w.holder? q.2) (get : ∀ o n, w'.get o n = w.get o n) :
    ∀ v : Value, w'.finalValue v links = w.finalValue v links := by
  induction links with
  | nil => exact fun _ => rfl
  | cons q rest ih =>
    intro v
    simp only [finalValue, holders q List.mem_cons_self, memberOf_eq get,
      ih fun q' m => holders q' (List.mem_cons_of_mem _ m)]

end

end World

end ViewBinding
