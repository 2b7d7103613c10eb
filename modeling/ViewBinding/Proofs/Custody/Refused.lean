import ViewBinding.Proofs.Custody.Hosts
import ViewBinding.Proofs.Leaf.Unwatched

/-!
# Custody — subscribing that fails

A composite whose part cannot be connected or subscribed takes its callback back and lets all parts
go, whatever the host has done in between: no part keeps a subscription, so the composite is registered
nowhere, and the part that has refused has forgotten it in the same way.  A path takes its callback back
as well.  If it was its object that refused, nothing is left of the path there either.  This is so at any
depth (`refused_withdraws`).

What a composite is registered with, one of its parts keeps, whatever the parts are (`parts_account`).

But if the object accepts and then the member refuses, the path stays registered with its object, and
nobody keeps what would end that (`left_with_the_object`).
-/

namespace ViewBinding

variable {η α : Type}

namespace World

variable {w w' w'' : World η} {c : Ref .composite} {i : Nat} {s : Ref .subscription}

/-! ### Disposing only takes away -/

/-- Registrations have gone and parts have let subscriptions go, and nothing has been added. -/
structure Sheds (w w' : World η) : Prop where
  registered : ∀ ob, w'.board.registered ob ⊆ w.board.registered ob
  retains : ∀ c i s, w'.Retains c i s → w.Retains c i s

theorem Sheds.refl (w : World η) : w.Sheds w := ⟨fun _ => List.Subset.refl _, fun _ _ _ => id⟩

theorem Sheds.trans (h : w.Sheds w') (h' : w'.Sheds w'') : w.Sheds w'' where
  registered ob := List.Subset.trans (h'.registered ob) (h.registered ob)
  retains c i s keeps := h.retains c i s (h'.retains c i s keeps)

theorem Sheds.of_composites (registered : ∀ ob, w'.board.registered ob ⊆ w.board.registered ob)
    (same : w'.composites = w.composites) : w.Sheds w' where
  registered := registered
  retains c i s := by
    rintro ⟨part, is, keeps⟩
    exact ⟨part, by rwa [part?, ← same], keeps⟩

/-- Only what is undone of a registration with a composite touches composites. -/
theorem composites_undoCallback (w : World η) (t : Token) {ob : Observer}
    (other : ∀ c, ob ≠ .composite c) : (w.undoCallback t ob).2.composites = w.composites := by
  cases ob with
  | composite c => exact absurd rfl (other c)
  | path p =>
    simp only [undoCallback]
    split
    · rfl
    · split <;> rfl
  | leaf l =>
    cases l with
    | setter r | property r => rfl
    | placeholder r =>
      simp only [undoCallback]
      split <;> rfl
    | contents r =>
      simp only [undoCallback]
      split
      · rfl
      · split
        · split <;> rfl
        · rfl
    | element r | select r | poll r =>
      simp only [undoCallback]
      split
      · rfl
      · split <;> rfl

theorem sheds_undoCallback (w : World η) (t : Token) (ob : Observer) :
    w.Sheds (w.undoCallback t ob).2 := by
  have registered : ∀ ob', (w.undoCallback t ob).2.board.registered ob' ⊆
      w.board.registered ob' := fun ob' p m =>
    ((releases_undoCallback w t ob).registered ob' p m).1
  by_cases other : ∃ c, ob = .composite c
  · obtain ⟨c, rfl⟩ := other
    refine ⟨registered, fun c' i s => ?_⟩
    rintro ⟨part, is, keeps⟩
    unfold undoCallback at is
    dsimp only at is
    split at is
    · exact ⟨part, is, keeps⟩
    next cell get =>
      by_cases same : c' = c
      · subst same
        split at is
        · rw [part?_modifyComposite, if_pos rfl, get] at is
          simp only [Option.bind_some, Array.getElem?_map, Option.map_eq_some_iff] at is
          obtain ⟨_, -, rfl⟩ := is
          cases keeps
        · rw [part?_modifyComposite, if_pos rfl, get] at is
          refine ⟨part, ?_, keeps⟩
          simpa only [part?, get, Option.bind_eq_bind, Option.bind_some] using is
      · split at is
        · rw [part?_modifyComposite, if_neg same] at is
          exact ⟨part, is, keeps⟩
        · rw [part?_modifyComposite, if_neg same] at is
          exact ⟨part, is, keeps⟩
  · exact .of_composites registered (composites_undoCallback w t fun c is => other ⟨c, is⟩)

theorem sheds_dispose (w : World η) (s : Ref .subscription) : w.Sheds (w.dispose s) := by
  refine disposeWithin_keeps (P := fun w' => w.Sheds w') (fun w' s h => h.trans ?_) (fun w' d h => ?_)
    _ s w (.refl w)
  · exact .of_composites (fun ob => by cases ob with
      | leaf l => cases l <;> exact List.Subset.refl _
      | _ => exact List.Subset.refl _) rfl
  · exact undo_keeps (P := fun w' => w.Sheds w') (fun w' t ob h => h.trans (sheds_undoCallback w' t ob))
      (fun w' e t h => h.trans (.of_composites (fun ob => by cases ob with
        | leaf l => cases l <;> exact List.Subset.refl _
        | _ => exact List.Subset.refl _) rfl)) w' d h

theorem sheds_disposeOption (w : World η) (s : Option (Ref .subscription)) :
    w.Sheds (w.disposeOption s) := by
  cases s with
  | none => exact .refl w
  | some s => exact sheds_dispose w s

theorem sheds_letGo {part : Part} (is : w.part? c i = some part) :
    w.Sheds (w.modifyPart c i fun part => { part with subscription := none }) where
  registered ob := by
    have callbacks : (w.modifyPart c i fun part =>
        { part with subscription := none }).board.composites = w.board.composites :=
      w.composites.listAt_modify c (by exact fun _ => rfl)
    cases ob with
    | composite c' =>
      exact fun p m => (congrFun callbacks c').subst (motive := fun l => p ∈ l) m
    | leaf l => cases l <;> exact List.Subset.refl _
    | path p => exact List.Subset.refl _
  retains c' i' s keeps := by
    obtain ⟨-, -, none⟩ | ⟨-, keeps⟩ := (retains_modifyPart is).1 keeps
    · cases none
    · exact keeps

end World

namespace Run

open World

variable {env : Env η} {w : World η} {c : Ref .composite}

theorem Ends.yields {x : Run η α} {post : α → World η → Prop} (h : x.Ends False w post)
    (fails : World η → Prop) : x.Yields w post fails := by
  obtain ⟨a, w', ran, ended⟩ := h.exists_eq_ok
  unfold Yields
  rw [ran]
  exact ended

/-- **A composite lets all its parts go**, without calling anybody. -/
theorem ends_reconnect_off (env : Env η) (c : Ref .composite) (w : World η) :
    (reconnect env c false).Ends False w fun _ w' =>
      w.Sheds w' ∧ ∀ i s, ¬ w'.Retains c i s := by
  rw [reconnect, ends_bind, ends_read, ends_bind, ends_read]
  -- whatever part still keeps something is still to be visited
  refine (ends_forEach (fun rest w' => w.Sheds w' ∧ ∀ i s, w'.Retains c i s → i ∈ rest)
    ⟨.refl w, fun i s keeps => ?_⟩ fun i rest w' ⟨sheds, left⟩ => ?_).mono
    fun _ w' ⟨sheds, left⟩ => ⟨sheds, fun i s keeps => List.not_mem_nil (left i s keeps)⟩
  · obtain ⟨part, is, -⟩ := keeps
    obtain ⟨cell, get, is⟩ := Option.bind_eq_some_iff.1 is
    obtain ⟨lt, -⟩ := Array.getElem?_eq_some_iff.1 is
    simpa only [partCount, get, Option.map_some, Option.getD_some, List.mem_range] using lt
  · rw [reconnectPart, ends_bind, ends_read]
    split
    next gone =>
      refine ⟨sheds, fun i' s keeps => (List.mem_cons.1 (left i' s keeps)).resolve_left ?_⟩
      rintro rfl
      obtain ⟨part, is, -⟩ := keeps
      cases gone.symm.trans is
    next part is =>
      rw [Bool.false_and, if_neg Bool.false_ne_true, ends_modify]
      have letGo := sheds_letGo is
      have disposed := sheds_disposeOption (w'.modifyPart c i fun part =>
        { part with subscription := none }) part.subscription
      refine ⟨sheds.trans (letGo.trans disposed), fun i' s keeps => ?_⟩
      obtain ⟨-, -, none⟩ | ⟨other, keeps⟩ := (retains_modifyPart is).1 (disposed.retains c i' s keeps)
      · cases none
      · exact (List.mem_cons.1 (left i' s keeps)).resolve_left fun same => other ⟨rfl, same⟩

end Run

/-! ### Withdrawing -/

namespace World

variable {w w' w'' : World η} {n : Nat} {ob : Observer} {p : Ref .path} {t : Token}

/-- Nothing tells when the property of an element changes, so its observer refuses subscribers. -/
def Refuses (w : World η) (l : Leaf) : Prop :=
  ∃ r cell, l = .element r ∧ w.elementProperties.get? r = some cell ∧ cell.handled = false

/-- The observer that a path watches its object with. -/
def objectOf? (w : World η) (p : Ref .path) : Option Observer := (w.paths.get? p).map (·.left)

/-- The observer of the member of a path. -/
def memberOf? (w : World η) (p : Ref .path) : Option Leaf := (w.paths.get? p).bind (·.right)

/-- Nothing differs that a subscriber of a path does not change. -/
structure SavePaths (w w' : World η) : Prop where
  composites : w'.composites = w.composites
  leaves : ∀ l, w'.board.registered (.leaf l) = w.board.registered (.leaf l)
  objects : ∀ p, w'.objectOf? p = w.objectOf? p

theorem SavePaths.trans (h : w.SavePaths w') (h' : w'.SavePaths w'') : w.SavePaths w'' where
  composites := h'.composites.trans h.composites
  leaves l := (h'.leaves l).trans (h.leaves l)
  objects p := (h'.objects p).trans (h.objects p)

theorem SavePaths.modifyComposite (h : w.SavePaths w') (c : Ref .composite)
    (f : CompositeCell → CompositeCell) :
    (w.modifyComposite c f).SavePaths (w'.modifyComposite c f) where
  composites := congrArg (·.modify c f) h.composites
  leaves l := by
    have same := h.leaves l
    cases l <;> exact same
  objects := h.objects

/-- A composite has a new callback under the token `t`, and so may paths have. -/
def Joined (w start : World η) (c : Ref .composite) (t : Token) : Prop :=
  ∃ τ, (w.modifyComposite c fun cell => { cell with callbacks := cell.callbacks.add t τ }).SavePaths
    start

end World

/-- The parts of a composite before the `i`-th are as its new subscriber wants them. -/
def Run.ComesTo (env : Env η) (c : Ref .composite) (i : Nat) (w w' : World η) : Prop :=
  forEach (List.range i) (reconnectPart env c true (w.primaryValue? c)) w = (.ok (), w')

namespace World

variable {w w' w'' : World η} {n : Nat} {ob : Observer} {p : Ref .path} {t : Token}

/-- What is left in `w'` of a subscriber that an observer has failed to subscribe in `w`, where it drew
the `n`-th token. -/
inductive Withdraws (host : Host η) (rounds : Nat) : World η → World η → Nat → Observer → Prop
  /-- A leaf has the callbacks that it had. -/
  | leaf {w w' : World η} {n : Nat} {l : Leaf}
      (same : w'.board.registered (.leaf l) = w.board.registered (.leaf l)) :
      Withdraws host rounds w w' n (.leaf l)
  /-- A composite has not the callback, and its parts keep nothing.  One of them could not be
  connected. -/
  | unconnected {w start w₁ w₂ w' : World η} {n i depth : Nat} {c : Ref .composite} {part : Part}
      {cause : BindingError} (own : ∀ τ, (⟨n⟩, τ) ∉ w'.board.registered (.composite c))
      (idle : ∀ i s, ¬ w'.Retains c i s) (joined : w.Joined start c ⟨n⟩)
      (comes : Run.ComesTo (machine host rounds depth) c i start w₁)
      (is : w₁.part? c i = some part)
      (failed : Run.partInfo (machine host rounds depth) c i part w₁ = (.error cause, w₂))
      (rest : w₂.Sheds w') : Withdraws host rounds w w' n (.composite c)
  /-- A composite has not the callback, and its parts keep nothing.  What watches one of them has
  refused, and not the callback of the composite. -/
  | part {w start w₁ w₂ w₃ w' : World η} {n i depth : Nat} {c : Ref .composite} {part : Part}
      {info : ConnectInfo} {observer : Observer} {cause : BindingError}
      (own : ∀ τ, (⟨n⟩, τ) ∉ w'.board.registered (.composite c))
      (idle : ∀ i s, ¬ w'.Retains c i s) (joined : w.Joined start c ⟨n⟩)
      (comes : Run.ComesTo (machine host rounds depth) c i start w₁)
      (is : w₁.part? c i = some part)
      (connected : Run.partInfo (machine host rounds depth) c i part w₁ = (.ok info, w₂))
      (watched : info.observer = some observer)
      (failed : Run.followPart (machine host rounds depth) c i observer w₂ = (.error cause, w₃))
      (beyond : Withdraws host rounds w₂ w₃ w₂.nextToken observer) (rest : w₃.Sheds w') :
      Withdraws host rounds w w' n (.composite c)
  /-- A path has not the callback, and its object has refused, and not the callback of the path. -/
  | path {w w' : World η} {n : Nat} {p : Ref .path} {object : Observer}
      (is : w.objectOf? p = some object) (own : ∀ τ, (⟨n⟩, τ) ∉ w'.board.registered (.path p))
      (beyond : Withdraws host rounds w w' (n + 1) object) : Withdraws host rounds w w' n (.path p)
  /-- A path has not the callback, and its member has refused. -/
  | member {w w' : World η} {n : Nat} {p : Ref .path} {l : Leaf}
      (own : ∀ τ, (⟨n⟩, τ) ∉ w'.board.registered (.path p)) (is : w'.memberOf? p = some l)
      (refuses : w'.Refuses l) : Withdraws host rounds w w' n (.path p)

theorem sheds_remove (w : World η) (ob : Observer) (plain : ob.IsPlain) (t : Token) :
    w.Sheds (w.modifyCallbacks (·.remove t) ob) where
  registered ob' q m := ((releases_modifyCallbacks w ob plain t []).registered ob' q m).1
  retains c i s := by
    rintro ⟨part, is, keeps⟩
    refine ⟨part, ?_, keeps⟩
    cases ob with
    | leaf l => cases l <;> exact is
    | path p => exact is
    | composite c' =>
      rw [modifyCallbacks, part?_modifyComposite] at is
      split at is
      next same => exact same ▸ is
      · exact is

theorem not_registered_remove (w : World η) (ob : Observer) (plain : ob.IsPlain) (t : Token)
    (τ : Subscriber) :
    (t, τ) ∉ (w.modifyCallbacks (·.remove t) ob).board.registered ob := fun m =>
  ((releases_modifyCallbacks w ob plain t []).registered ob _ m).2 ⟨rfl, rfl⟩

/-- Callbacks of paths come before that and go afterwards. -/
theorem Withdraws.within {host : Host η} {rounds : Nat} {w₁ w₂ : World η}
    (h : w₁.Withdraws host rounds w₂ n ob) :
    ∀ {w w' : World η}, w.SavePaths w₁ → w₂.Sheds w' →
      (∀ l, w'.board.registered (.leaf l) = w₂.board.registered (.leaf l)) →
      (∀ p, w'.memberOf? p = w₂.memberOf? p) →
      w'.elementProperties = w₂.elementProperties → w.Withdraws host rounds w' n ob := by
  induction h with
  | leaf same =>
    intro w w' before _ leaves _ _
    exact .leaf ((leaves _).trans (same.trans (before.leaves _)))
  | unconnected own idle joined comes is failed rest =>
    intro w w' before sheds _ _ _
    obtain ⟨τ, joined⟩ := joined
    exact .unconnected (fun τ m => own τ (sheds.registered _ m))
      (fun i s keeps => idle i s (sheds.retains _ i s keeps))
      ⟨τ, (before.modifyComposite _ _).trans joined⟩ comes is failed (rest.trans sheds)
  | part own idle joined comes is connected watched failed beyond rest =>
    intro w w' before sheds _ _ _
    obtain ⟨τ, joined⟩ := joined
    exact .part (fun τ m => own τ (sheds.registered _ m))
      (fun i s keeps => idle i s (sheds.retains _ i s keeps))
      ⟨τ, (before.modifyComposite _ _).trans joined⟩ comes is connected watched failed beyond
      (rest.trans sheds)
  | path is own _ ih =>
    intro w w' before sheds leaves members elements
    exact .path (before.objects _ ▸ is) (fun τ m => own τ (sheds.registered _ m))
      (ih before sheds leaves members elements)
  | member own is refuses =>
    intro w w' _ sheds _ members elements
    obtain ⟨r, cell, rfl, get, refused⟩ := refuses
    exact .member (fun τ m => own τ (sheds.registered _ m)) (members _ ▸ is)
      ⟨r, cell, rfl, elements ▸ get, refused⟩

theorem objectOf?_modifyPath (w : World η) (p p' : Ref .path) {f : PathCell → PathCell}
    (same : ∀ cell, (f cell).left = cell.left) : (w.modifyPath p f).objectOf? p' = w.objectOf? p' :=
  Store.map_get?_modify _ _ _ same

theorem memberOf?_modifyPath (w : World η) (p p' : Ref .path) {f : PathCell → PathCell}
    (same : ∀ cell, (f cell).right = cell.right) :
    (w.modifyPath p f).memberOf? p' = w.memberOf? p' := by
  have mapped := congrArg (Option.bind · id) (Store.map_get?_modify w.paths p p' same)
  simp only [Option.bind_map, Function.id_comp] at mapped
  exact mapped

end World

namespace Run

open World

variable {env : Env η} {w : World η}

theorem yields_subscribeLeaf (l : Leaf) (τ : Subscriber) (w : World η) :
    (subscribeLeaf l τ).Yields w (fun _ _ => True) fun w' => w' = w ∧ w.Refuses l := by
  cases l with
  | element r =>
    refine yields_bind.2 (yields_read.2 ?_)
    split
    next cell get =>
      split
      · trivial
      next unhandled => exact ⟨rfl, r, cell, rfl, get, Bool.not_eq_true _ ▸ unhandled⟩
    · trivial
  | _ => trivial

section
variable {host : Host η} {rounds depth : Nat}

/-- What has failed, where it has. -/
theorem yields_failed {x : Run η α} : x.Yields w (fun _ _ => True) fun w' =>
    ∃ cause, x w = (.error cause, w') := by
  unfold Yields
  rcases x w with ⟨_ | cause | _ | _, w'⟩
  · trivial
  · exact ⟨cause, rfl⟩
  · trivial
  · trivial

theorem yields_forEach {κ : Type} {f : κ → Run η Unit} {fails : κ → World η → World η → Prop}
    (each : ∀ a w, (f a).Yields w (fun _ _ => True) (fails a w)) (xs : List κ) :
    ∀ w, (forEach xs f).Yields w (fun _ _ => True) fun w' => ∃ before a rest w₁,
      xs = before ++ a :: rest ∧ forEach before f w = (.ok (), w₁) ∧ fails a w₁ w' := by
  induction xs with
  | nil => exact fun _ => trivial
  | cons a rest ih =>
    refine fun w => yields_bind_of_ran ((each a w).mono (fun ⟨⟩ w₁ _ ran => ?_)
      fun w' failed => ⟨[], a, rest, w, rfl, rfl, failed⟩)
    refine (ih w₁).mono (fun _ _ => id) ?_
    rintro w' ⟨before, b, rest, w₂, rfl, came, failed⟩
    refine ⟨a :: before, b, rest, w₂, rfl, ?_, failed⟩
    change Run.bind (f a) _ w = _
    rw [Run.bind, ran]
    exact came

/-- A part of a composite could not be connected, or what watches it has refused. -/
inductive PartFails (host : Host η) (rounds depth : Nat) (c : Ref .composite) (i : Nat)
    (w w' : World η) : Prop
  | unconnected {part : Part} {cause : BindingError} (is : w.part? c i = some part)
      (failed : partInfo (machine host rounds depth) c i part w = (.error cause, w'))
  | refused {part : Part} {info : ConnectInfo} {observer : Observer} {cause : BindingError}
      {w₁ : World η} (is : w.part? c i = some part)
      (connected : partInfo (machine host rounds depth) c i part w = (.ok info, w₁))
      (watched : info.observer = some observer)
      (failed : followPart (machine host rounds depth) c i observer w₁ = (.error cause, w'))
      (beyond : w₁.Withdraws host rounds w' w₁.nextToken observer)

variable (E : ∀ ob τ w, ((machine host rounds depth).subscribe ob τ).Yields w (fun _ _ => True)
  fun w' => w.Withdraws host rounds w' w.nextToken ob)
include E

theorem yields_reconnectPart (c : Ref .composite) (on : Bool) (primary : Option Value) (i : Nat)
    (w : World η) : (reconnectPart (machine host rounds depth) c on primary i).Yields w
      (fun _ _ => True) (PartFails host rounds depth c i w) := by
  refine yields_bind.2 (yields_read.2 ?_)
  split
  · trivial
  next part is =>
    split
    · refine yields_bind_of_ran (yields_failed.mono (fun info w₁ _ connected => ?_)
        fun w' ⟨cause, failed⟩ => .unconnected is failed)
      split
      next observer _ watched =>
        have follows : (followPart (machine host rounds depth) c i observer).Yields w₁
            (fun _ _ => True) fun w' => w₁.Withdraws host rounds w' w₁.nextToken observer := by
          refine yields_bind.2 ((E observer (.part c) w₁).mono (fun s w₂ _ => ?_) fun _ => id)
          refine yields_bind.2 (yields_read.2 ?_)
          split <;> trivial
        exact (follows.and yields_failed).mono (fun _ _ _ => trivial)
          fun w' ⟨withdraws, cause, failed⟩ => .refused is connected watched failed withdraws
      · trivial
    · trivial

/-- The parts are reconnected in their order, until one fails. -/
theorem yields_reconnect (c : Ref .composite) (w : World η) :
    (reconnect (machine host rounds depth) c true).Yields w (fun _ _ => True) fun w' =>
      ∃ i w₁, ComesTo (machine host rounds depth) c i w w₁ ∧
        PartFails host rounds depth c i w₁ w' := by
  refine yields_bind.2 (yields_read.2 (yields_bind.2 (yields_read.2 ?_)))
  refine (yields_forEach (yields_reconnectPart E c true _) _ w).mono (fun _ _ => id) ?_
  rintro w' ⟨before, i, rest, w₁, split, came, failed⟩
  -- the parts before the one that has failed are those with the smaller indices
  rw [List.range_eq_range', List.range'_eq_append_iff] at split
  obtain ⟨k, -, rfl, split⟩ := split
  obtain ⟨rfl, -⟩ := List.range'_eq_cons_iff.1 split.symm
  refine ⟨_, w₁, ?_, failed⟩
  rwa [Nat.mul_one, Nat.zero_add, ComesTo, List.range_eq_range']

/-- **A composite withdraws** the callback, and its parts let everything go. -/
theorem yields_subscribeComposite (c : Ref .composite) (τ : Subscriber) (w : World η) :
    (subscribeComposite (machine host rounds depth) c τ).Yields w (fun _ _ => True) fun w' =>
      w.Withdraws host rounds w' w.nextToken (.composite c) := by
  refine yields_bind.2 (yields_update.2 (yields_bind.2 (yields_modify.2 (yields_bind.2
    (yields_read.2 ?_)))))
  split
  · refine yields_bind.2 (yields_attempt.2 ((yields_reconnect E c _).mono (fun _ _ _ => trivial) ?_))
    rintro w₁ ⟨i, w₀, comes, failed⟩ cause -
    refine yields_bind.2 (yields_modify.2 (yields_bind.2 ?_))
    -- the second pass cannot fail, and what it leaves is less than what the first one has left
    refine (ends_reconnect_off _ c _).yields _ |>.mono (fun _ w₂ ⟨sheds, idle⟩ => ?_) fun _ => id
    have own : ∀ τ', (⟨w.nextToken⟩, τ') ∉ w₂.board.registered (.composite c) := fun τ' m =>
      not_registered_remove w₁ (.composite c) trivial _ τ' (sheds.registered _ m)
    have rest : w₁.Sheds w₂ := (sheds_remove w₁ (.composite c) trivial _).trans sheds
    have beside : w.SavePaths w.freshToken.2 :=
      ⟨rfl, fun l => by cases l <;> rfl, fun _ => rfl⟩
    have joined : w.Joined _ c ⟨w.nextToken⟩ := ⟨τ, beside.modifyComposite c _⟩
    cases failed with
    | unconnected is failed => exact .unconnected own idle joined comes is failed rest
    | refused is connected watched failed beyond =>
      exact .part own idle joined comes is connected watched failed beyond rest
  · trivial

/-- A path that cannot be activated has been refused by its object or by its member. -/
theorem yields_activate (p : Ref .path) (w : World η) :
    (activate (machine host rounds depth) p).Yields w (fun _ _ => True) fun w' =>
      (∃ object, w.objectOf? p = some object ∧ w.Withdraws host rounds w' w.nextToken object) ∨
        ∃ l, w'.memberOf? p = some l ∧ w'.Refuses l := by
  refine yields_bind.2 (yields_read.2 ?_)
  split
  · trivial
  next cell get =>
    split
    · trivial
    · refine yields_bind.2 ((E cell.left (.pathObject p) w).mono (fun s w₁ _ => ?_) fun w' withdraws =>
        .inl ⟨cell.left, congrArg (Option.map PathCell.left) get, withdraws⟩)
      refine yields_bind.2 (yields_bind.2 (yields_read.2 ?_))
      split
      next l is =>
        refine yields_bind.2 ((yields_subscribeLeaf l (.pathMember p) w₁).mono
          (fun _ _ _ => trivial) ?_)
        rintro _ ⟨rfl, refuses⟩
        exact .inr ⟨l, is, refuses⟩
      · trivial

/-- **A path withdraws** the callback, and its object has withdrawn the path unless its member has
refused. -/
theorem yields_subscribePath (p : Ref .path) (τ : Subscriber) (w : World η) :
    (subscribePath (machine host rounds depth) p τ).Yields w (fun _ _ => True) fun w' =>
      w.Withdraws host rounds w' w.nextToken (.path p) := by
  refine yields_bind.2 (yields_update.2 (yields_bind.2 (yields_modify.2 (yields_bind.2
    (yields_attempt.2 ((yields_activate E p _).mono (fun _ _ _ => trivial) fun w₂ refused cause _ =>
      yields_bind.2 (yields_modify.2 ?_)))))))
  have own : ∀ τ', (w.freshToken.1, τ') ∉
      (w₂.modifyCallbacks (·.remove w.freshToken.1) (.path p)).board.registered (.path p) :=
    not_registered_remove w₂ (.path p) trivial _
  obtain ⟨object, is, withdraws⟩ | ⟨l, is, refuses⟩ := refused
  · rw [objectOf?_modifyPath _ p p (by exact fun _ => rfl)] at is
    refine .path is own (withdraws.within ⟨rfl, fun l => ?_,
      fun p' => objectOf?_modifyPath _ p p' (by exact fun _ => rfl)⟩
      (sheds_remove w₂ (.path p) trivial _) (fun l => ?_)
      (fun p' => memberOf?_modifyPath w₂ p p' (by exact fun _ => rfl)) rfl)
    · cases l <;> rfl
    · cases l <;> rfl
  · exact .member own ((memberOf?_modifyPath w₂ p p (by exact fun _ => rfl)).trans is) refuses

end

theorem yields_subscribe_leaf (host : Host η) (rounds : Nat) (l : Leaf) (τ : Subscriber)
    (w : World η) : (subscribeLeaf l τ).Yields w (fun _ _ => True) fun w' =>
      w.Withdraws host rounds w' w.nextToken (.leaf l) :=
  (yields_subscribeLeaf l τ w).mono (fun _ _ _ => trivial) fun _ refused =>
    .leaf (refused.1 ▸ rfl)

/-- **Whoever is refused withdraws**, whatever the host does, and however its calls nest.  The world may
be any, so a path may have been given any leaf for its member, and any observer for its object. -/
theorem yields_subscribe_machine (host : Host η) (rounds : Nat) : ∀ depth ob τ (w : World η),
    (subscribe (machine host rounds depth) ob τ).Yields w (fun _ _ => True) fun w' =>
      w.Withdraws host rounds w' w.nextToken ob := by
  have step : ∀ depth, (∀ ob τ w, ((machine host rounds depth).subscribe ob τ).Yields w
      (fun _ _ => True) fun w' => w.Withdraws host rounds w' w.nextToken ob) → ∀ ob τ w,
        (subscribe (machine host rounds depth) ob τ).Yields w (fun _ _ => True) fun w' =>
          w.Withdraws host rounds w' w.nextToken ob := fun depth E ob τ w => by
    cases ob with
    | leaf l => exact yields_subscribe_leaf host rounds l τ w
    | path p => exact yields_subscribePath E p τ w
    | composite c => exact yields_subscribeComposite E c τ w
  intro depth
  induction depth with
  | zero => exact step 0 fun _ _ _ => trivial
  | succ depth ih => exact step (depth + 1) ih

end Run

/-- What a composite is registered with, one of its parts keeps. -/
theorem Board.Custody.exists_retains {w : World η} {c : Ref .composite} {ob : Observer} {t : Token}
    (A : w.board.Custody (.part c) [] []) (m : (t, .part c) ∈ w.board.registered ob) :
    ∃ i s, w.Retains c i s ∧ w.board.Ends s ob t := by
  obtain ⟨s, kept, ends⟩ := A.exists_ends m
  obtain ⟨i, keeps⟩ := World.mem_keeps_part.1 kept
  exact ⟨i, s, keeps, ends⟩

/-- **No registration of a composite is left unaccounted for**, wherever a conducted host has left an
engine, with a result or with a failure: one of its parts keeps what ends it.  The parts may be any
expressions, also paths, calls and composites. -/
theorem parts_account {host : Host η} (conducted : host.Conducted) (rounds depth : Nat)
    {x : Run η α} (h : Conduct (machine host rounds depth) x) (config : Config) (state : η)
    (c : Ref .composite) :
    x.Yields (World.new config state)
      (fun _ w => ∀ ob t, (t, .part c) ∈ w.board.registered ob →
        ∃ i s, w.Retains c i s ∧ w.board.Ends s ob t)
      fun w => ∀ ob t, (t, .part c) ∈ w.board.registered ob →
        ∃ i s, w.Retains c i s ∧ w.board.Ends s ob t :=
  (h.guards (conducted.guards_machine (σ := .part c) trivial rounds depth) trivial
    _ [] [] (World.custody_new config state _)).mono
      (fun _ _ A _ _ => A.exists_retains) fun _ A _ _ => A.exists_retains

/-- **A subscriber that is refused is forgotten** wherever a conducted host has left an engine: by the
observer, by the parts of composites and by the objects of paths as far as these refused.  A composite
whose parts keep nothing is registered nowhere. -/
theorem refused_withdraws {host : Host η} (conducted : host.Conducted) (rounds depth : Nat)
    {x : Run η α} (h : Conduct (machine host rounds depth) x) (config : Config) (state : η) {a : α}
    {w w' : World η} (ran : x (World.new config state) = (.ok a, w)) {ob : Observer} {τ : Subscriber}
    {cause : BindingError}
    (refused : Run.subscribe (machine host rounds depth) ob τ w = (.error cause, w')) :
    w.Withdraws host rounds w' w.nextToken ob ∧ ∀ c, (∀ i s, ¬ w'.Retains c i s) →
      ∀ ob' t, (t, .part c) ∉ w'.board.registered ob' := by
  refine ⟨(Run.yields_subscribe_machine host rounds depth ob τ w).of_eq_error refused,
    fun c idle ob' t => ?_⟩
  have E := conducted.guards_machine (σ := .part c) trivial rounds depth
  have before := (h.guards E trivial _ [] [] (World.custody_new config state _)).of_eq_ok ran
  have after := (Run.enters_subscribe E trivial ob τ w [] [] before).of_eq_error refused
  intro m
  obtain ⟨i, s, keeps, -⟩ := after.exists_retains m
  exact idle i s keeps

/-! ### Refusals -/

theorem silent_conducted : (Host.silent : Host η).Conducted where
  call _ _ _ _ := Manages.pure _
  convert _ _ _ _ := Manages.pure _
  fire _ _ _ := Manages.pure _

/-- What is attempted in vain has failed. -/
theorem Run.eq_error_of_attempt {x : Run η α} {w w' : World η} {cause : BindingError}
    (h : x.attempt w = (.ok (.error cause), w')) : x w = (.error cause, w') := by
  unfold Run.attempt at h
  rcases e : x w with ⟨_ | _ | _ | _, w₁⟩ <;> rw [e] at h <;> cases h
  rfl

/-- An operation is connected while its right operand, a call of what is no function, is not needed;
then it is. -/
def Run.prepared : Run Unit Unit := do
  let o ← Run.update (·.newObject [("x", .bool false)])
  discard (Run.update (·.newLevel (.object o)))
  discard ((Expr.binary "&&" (.name "x") (.callName "f" [])).connect (machine .silent 9 9) .engine
    (.root ⟨.object ⟨0⟩, ⟨1⟩⟩))
  Run.modify (·.set ⟨0⟩ "x" (.bool true))

theorem conduct_prepared : Conduct (machine .silent 9 9) Run.prepared :=
  .bind (.unseen (by exact fun w => ⟨.of_eq rfl, rfl⟩)) fun o =>
    .bind (.discard (.unseen (by exact fun w => ⟨.of_eq rfl, rfl⟩))) fun _ =>
      .bind (.discard (.connect _ _ _)) fun _ =>
        .unseen (f := fun w => ((), w.set ⟨0⟩ "x" (.bool true))) fun w =>
          have same := World.layer_of_canopy (w.canopy_set ⟨0⟩ "x" (.bool true))
          ⟨.of_eq (by simp), congrArg Layer.bindings same⟩

theorem prepared_refuses : Run.prepared.Ends False (World.new .standard ()) fun _ w =>
    (Run.subscribe (machine .silent 9 9) (.composite ⟨0⟩) (.hook ⟨0⟩)).attempt.Ends False w
      fun result w' => (result matches .error _) = true ∧ w.subscriptions.size = 0 ∧
        w'.subscriptions.size = 1 := by
  decide +kernel

/-- The left operand has been subscribed when the right one is refused. -/
theorem prepared_withdraws : ∃ w w' cause,
    Run.prepared (World.new .standard ()) = (.ok (), w) ∧
    Run.subscribe (machine .silent 9 9) (.composite ⟨0⟩) (.hook ⟨0⟩) w = (.error cause, w') ∧
    (w.subscriptions.size = 0 ∧ w'.subscriptions.size = 1) ∧
    ∀ ob t, (t, .part ⟨0⟩) ∉ w'.board.registered ob := by
  obtain ⟨⟨⟩, w, ran, attempted⟩ := prepared_refuses.exists_eq_ok
  obtain ⟨result, w', subscribed, fails, made⟩ := attempted.exists_eq_ok
  cases result with
  | ok s => cases fails
  | error cause =>
    have refused := Run.eq_error_of_attempt subscribed
    obtain ⟨withdraws, nowhere⟩ :=
      refused_withdraws silent_conducted 9 9 conduct_prepared .standard () ran refused
    cases withdraws with
    | unconnected _ idle => exact ⟨w, w', cause, ran, refused, made, nowhere ⟨0⟩ idle⟩
    | part _ idle => exact ⟨w, w', cause, ran, refused, made, nowhere ⟨0⟩ idle⟩

/-- A path from a property of an object to a property of an element that nothing tells about. -/
def Run.laid : Run Unit Leaf := do
  let user ← Run.update (·.newObject [("name", .string "Ada")])
  let vm ← Run.update (·.newObject [("user", .object user)])
  let left ← Run.update (·.objectObserver vm "user")
  let e ← Run.update (·.newElement "div" false)
  discard (Run.update (·.newPath (.leaf left) (.element e "title")))
  pure left

set_option synthInstance.maxSize 256 in
/-- **A path that its member has refused stays with its object.**  It is registered there, although it
has no subscribers, and hears of the next change. -/
theorem left_with_the_object : Run.laid.Ends False (World.new .standard ()) fun left w =>
    w.board.registered (.leaf left) = [] ∧
    (Run.subscribe (machine .silent 9 9) (.path ⟨0⟩) (.hook ⟨0⟩)).attempt.Ends False w
      fun result w' => (result matches .error _) = true ∧
        w'.board.registered (.path ⟨0⟩) = [] ∧
        (w'.board.registered (.leaf left)).map (·.2) = [.pathObject ⟨0⟩] ∧
        w'.memberOf? ⟨0⟩ ≠ none ∧
        (Run.flushMicrotasks (machine .silent 9 9)).Ends False (w'.set ⟨1⟩ "user" .null)
          fun _ w'' => w''.memberOf? ⟨0⟩ = none := by
  decide +kernel

end ViewBinding
