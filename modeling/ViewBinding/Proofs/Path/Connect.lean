import ViewBinding.Machine
import ViewBinding.Proofs.Path.Reseat

/-!
# Path — connecting and subscribing

Connecting `x.a.b.c` makes a path for each member, which knows the leaf of its member but is not
subscribed to anything yet (`Planned`, `connect_spec`).  The first subscription makes the paths
subscribe one after the other, from the root on, and then the chain is rigged (`subscribe_spec`).
-/

namespace ViewBinding

/-- An expression that reads members of a name: the name and the members, the first one first. -/
inductive Expr.IsChain (name : String) : List String → Expr → Prop
  | name : IsChain name [] (.name name)
  | member {members : List String} {e : Expr} (before : IsChain name members e) (n : String) :
      IsChain name (members ++ [n]) (.member e n)

namespace World

section
variable {η : Type} {w w' w'' : World η} {root : Ref .object} {name : String} {provider : Provider}
  {ob : Observer} {links : List ChainLink}

/-- The value that one sees who goes from a value from object to object. -/
def seen (w : World η) (v : Value) : List String → Value
  | [] => v
  | n :: rest => w.seen (w.memberOf v.object? n) rest

theorem seen_append (w : World η) (xs ys : List String) :
    ∀ v, w.seen v (xs ++ ys) = w.seen (w.seen v xs) ys := by
  induction xs with
  | nil => exact fun _ => rfl
  | cons n rest ih => exact fun v => ih _

theorem seen_congr (get : ∀ o n, w'.get o n = w.get o n) (names : List String) :
    ∀ v, w'.seen v names = w.seen v names := by
  induction names with
  | nil => exact fun _ => rfl
  | cons n rest ih =>
    intro v
    simp only [seen, memberOf_eq get, ih]

/-- Links that watch the members of the values before them see what there is. -/
theorem Tracks.finalValue_eq : ∀ {links : List ChainLink} {v : Value},
    w.Tracks (fun _ => False) False v links → w.finalValue v links = w.seen v (links.map (·.1))
  | [], _, _ => rfl
  | q :: rest, v, ⟨settled, tracks⟩ => by
    have settled := settled.resolve_left id
    rw [finalValue, List.map_cons, seen, ← settled]
    exact (tracks.mono (by simp) fun _ _ => id).finalValue_eq

/-- The leaf that a path knows is the one of the member `n` of a value. -/
def Resolves (w : World η) (v : Value) (n : String) (right : Option Leaf) : Prop :=
  v.object? = none ∧ right = none ∨
    ∃ o l, v.object? = some o ∧ right = some l ∧ w.place? l = some (o, n)

/-- The paths that connecting a chain has made, with nothing subscribed. -/
inductive Planned (w : World η) (root : Ref .object) (name : String) (provider : Provider) :
    Observer → List ChainLink → Prop
  | root {l : Leaf} (place : w.place? l = some (root, name)) :
      Planned w root name provider (.leaf l) []
  | link {ob : Observer} {links : List ChainLink} {n : String} {p : Ref .path} {cell : PathCell}
      (before : Planned w root name provider ob links) (get : w.paths.get? p = some cell)
      (left : cell.left = ob) (resolver : cell.resolver = .member provider n)
      (alone : cell.callbacks.entries = []) (idle : cell.leftSubscription = none)
      (right : w.Resolves (w.seen (w.get root name) (links.map (·.1))) n cell.right)
      (fresh : p ∉ links.map (·.2)) : Planned w root name provider (.path p) (links ++ [(n, p)])

theorem Planned.distinct (P : w.Planned root name provider ob links) : (links.map (·.2)).Nodup := by
  induction P with
  | root => exact List.nodup_nil
  | link before get left resolver alone idle right fresh ih =>
    rw [List.map_append, List.nodup_append]
    refine ⟨ih, by simp, fun p m p' m' same => ?_⟩
    rw [same, List.mem_singleton.1 m'] at m
    exact fresh m

/-- Where the leaves and the values are the same, what is planned is planned still. -/
theorem Planned.carry (P : w.Planned root name provider ob links)
    (place? : ∀ l v, w.place? l = some v → w'.place? l = some v)
    (get : ∀ o n, w'.get o n = w.get o n)
    (paths : ∀ p ∈ links.map (·.2), ∀ cell, w.paths.get? p = some cell →
      w'.paths.get? p = some cell) : w'.Planned root name provider ob links := by
  induction P with
  | root place => exact .root (place? _ _ place)
  | link before e left resolver alone idle right fresh ih =>
    refine .link (ih fun p m => paths p ?_) (paths _ ?_ _ e) left resolver alone idle ?_ fresh
    · rw [List.map_append]
      exact List.mem_append_left _ m
    · simp
    · rw [get, seen_congr get]
      exact right.imp_right fun ⟨o, l, is, known, place⟩ => ⟨o, l, is, known, place? _ _ place⟩

/-- What is planned shows what one sees. -/
theorem Planned.observerValue (P : w.Planned root name provider ob links) (h : w.Attentive) :
    w.observerValue ob = w.seen (w.get root name) (links.map (·.1)) := by
  cases P with
  | root place => exact leafValue_of_place? h place
  | link before e left resolver alone idle right fresh =>
    simp only [World.observerValue, e, Option.bind_some, List.map_append, List.map_cons,
      List.map_nil, seen_append, seen]
    rcases right with ⟨nothing, none⟩ | ⟨o, l, is, known, place⟩
    · rw [none, nothing]
      rfl
    · rw [known, is]
      exact leafValue_of_place? h place

/-- Everything of `w` is there in `w'` as it was, and there may be more paths and leaves. -/
structure Readies (w w' : World η) : Prop extends Shifts w w' fun _ => False where
  paths : ∀ p cell, w.paths.get? p = some cell → w'.paths.get? p = some cell
  host : w'.host = w.host

theorem Readies.trans (h : w.Readies w') (h' : w'.Readies w'') : w.Readies w'' :=
  ⟨h.toShifts.trans h'.toShifts, fun p cell e => h'.paths p cell (h.paths p cell e),
    h'.host.trans h.host⟩

theorem Stays.readies (h : w.Stays w') : w.Readies w' where
  toShifts := h.shifts
  paths p cell e := by
    have paths : w'.paths = w.paths := congrArg Backdrop.paths h.still.backdrop
    rw [paths, e]
  host := congrArg Backdrop.host h.still.backdrop

/-- A world with a path more. -/
def withPath (w : World η) (cell : PathCell) : World η := { w with paths := w.paths.alloc cell }

theorem readies_withPath (h : w.Wired) (cell : PathCell) : w.Readies (w.withPath cell) where
  toShifts := Aside.shifts ⟨rfl, rfl, rfl, rfl, rfl, rfl, rfl, rfl, rfl, Nat.le_refl _, rfl, rfl,
    id, id⟩ h rfl rfl rfl
  paths _ _ e := (Store.get?_alloc_of_ne _ (Store.ne_next_of_get? e)).trans e
  host := rfl

/-- What a chain can be connected in: the provider is there, and what is an object is there. -/
structure Connectable (w : World η) (root : Ref .object) (provider : Provider) : Prop where
  wired : w.Wired
  provides : w.provides provider = true
  live : w.objects.contains root = true
  closed : ∀ o n o', w.get o n = .object o' → w.objects.contains o' = true

theorem Readies.connectable (h : w.Readies w') (C : w.Connectable root provider) :
    w'.Connectable root provider where
  wired := h.wired
  provides := (provides_eq h.bindings h.attached _).trans C.provides
  live := (h.contains _).trans C.live
  closed o n o' e := (h.contains o').trans (C.closed o n o' ((h.get o n).symm.trans e))

/-- What one sees is there. -/
theorem Connectable.live_of_seen (C : w.Connectable root provider) (names : List String) :
    ∀ o, (w.seen (w.get root name) names).object? = some o → w.objects.contains o = true := by
  suffices ∀ v, (∀ o, v.object? = some o → w.objects.contains o = true) →
      ∀ o, (w.seen v names).object? = some o → w.objects.contains o = true from
    this _ fun o is => C.closed root name o (Value.object?_eq_some.1 is)
  induction names with
  | nil => exact fun v live => live
  | cons n rest ih =>
    exact fun v _ => ih _ fun o is => live_of_memberOf C.closed is

theorem Planned.exists_cell (P : w.Planned root name provider ob links) {p : Ref .path}
    (m : p ∈ links.map (·.2)) : ∃ cell, w.paths.get? p = some cell := by
  induction P with
  | root => cases m
  | link before get left resolver alone idle right fresh ih =>
    rw [List.map_append, List.mem_append] at m
    rcases m with m | m
    · exact ih m
    · rw [List.mem_singleton.1 m]
      exact ⟨_, get⟩

/-- Making a path for a member of what is planned. -/
theorem newPath_spec (P : w.Planned root name provider ob links) (C : w.Connectable root provider)
    (n : String) : w.Readies (w.newPath ob (.member provider n)).2 ∧
      (w.newPath ob (.member provider n)).2.Planned root name provider
        (.path (w.newPath ob (.member provider n)).1)
        (links ++ [(n, (w.newPath ob (.member provider n)).1)]) := by
  obtain ⟨stays, found⟩ := resolveMember_spec C.wired C.provides
    (show ∀ o, (w.seen (w.get root name) _).object? = some o → _ from
      C.live_of_seen (links.map (·.1))) n
  rw [newPath, P.observerValue C.wired.toAttentive]
  generalize w.resolveMember (.member provider n) _ = resolved at stays found ⊢
  obtain ⟨right, w₁⟩ := resolved
  dsimp only at stays found ⊢
  generalize (right.map w₁.leafValue).getD .undefined = value
  change w.Readies (w₁.withPath { left := ob, resolver := .member provider n, right, value }) ∧
    (w₁.withPath { left := ob, resolver := .member provider n, right, value }).Planned root name
      provider (.path w₁.paths.next) (links ++ [(n, w₁.paths.next)])
  have readies := stays.readies.trans (readies_withPath stays.wired
    { left := ob, resolver := .member provider n, right, value })
  refine ⟨readies, .link (P.carry readies.place? readies.get fun p _ => readies.paths p)
    (Store.get?_alloc_next _ _) rfl rfl rfl rfl ?_ fun m => ?_⟩
  · rw [readies.get, seen_congr readies.get]
    exact found
  · obtain ⟨cell, e⟩ := P.exists_cell m
    exact Store.ne_next_of_get? (stays.readies.paths _ _ e) rfl

/-- **Connecting a chain** of members of something that an object owns. -/
theorem connect_spec {env : Env η} {cut : Prop} {scope : Scope} {members : List String} {e : Expr}
    (chain : e.IsChain name members) (C : w.Connectable root provider)
    (owner : w.ownerOf scope name = .object root) :
    (e.connect env provider scope).Ends cut w fun info w' => w.Readies w' ∧
      ∃ ob links, info.observer = some ob ∧ w'.Planned root name provider ob links ∧
        links.map (·.1) = members := by
  induction chain with
  | name =>
    obtain ⟨grown, wired, at'⟩ := objectObserver_spec C.wired C.live name
    simp only [Expr.connect, Run.connectName, Run.ends_update, owner, propertyObserver]
    exact ⟨(Stays.of_grows C.wired grown wired).readies, _, [], rfl,
      .root (wired.current root name _ at').1, rfl⟩
  | member before n ih =>
    simp only [Expr.connect, Run.ends_bind]
    refine ih.mono fun info w₁ connected => ?_
    obtain ⟨readies, ob, links, known, P, names⟩ := connected
    obtain ⟨made, P'⟩ := newPath_spec P (readies.connectable C) n
    simp only [Run.connectMember, Run.ends_update, known]
    refine ⟨readies.trans made, _, _, rfl, P', ?_⟩
    rw [List.map_append, names, List.map_singleton]

end

end World

end ViewBinding
