import ViewBinding.Proofs.Composite.Accounts
import ViewBinding.Proofs.Evaluating
import ViewBinding.Proofs.Keeping
import ViewBinding.Proofs.Leaf.Slots

/-!
# Composite — what leaves the account alone

A part that has not been connected yet is connected when its condition comes to hold.  Where its
expression is plain, this does nothing but ask the locator for the leaf of a property: the expression
is a name of a property that is there for good, or one that nothing watches.

`P o n` says that the property `n` of the object `o` is there for good.  `w.Furnished P` says that it
is there, and that the locator hands out leaves of properties that were there at the first request.
`w.Steady P w'` says that going from `w` to `w'` leaves composites, registrations and subscriptions
alone, and the world furnished.  `w.Accounted P []` is the invariant of all that follows: the world is
furnished, parts that are not connected yet are plain, and composites account for every subscription.

`x.Honest P` says of a computation: wherever it ends, with a result, with a failure or cut off, in the
middle of whatever it was about, a world that was accounted for still is.  What evaluating does by
itself is honest, so evaluating an expression is, as long as what it calls back is
(`Run.Evaluates.honest`).
-/

namespace ViewBinding

/-- Some level of the scope has the name, for good. -/
def Scope.Provides (P : Ref .object → String → Prop) (scope : Scope) (n : String) : Prop :=
  ∃ level ∈ scope.levels, P level.locals n ∨ ∃ o, level.context = .object o ∧ P o n

/-- An expression that is connected without evaluating anything: a name that the scope has for good,
or an expression that nothing watches. -/
def Expr.IsPlain (P : Ref .object → String → Prop) (scope : Scope) : Expr → Prop
  | .name n => scope.Provides P n
  | .primitive _ | .string _ | .chain _ | .assign .. => True
  | _ => False

namespace World

variable {η : Type} {w w' w'' : World η} {P : Ref .object → String → Prop} {o : Ref .object}
  {n : String} {scope : Scope} {c : Ref .composite} {i : Nat} {l : Leaf}
  {loose : List (Ref .subscription)}

/-! ### A furnished world -/

/-- What is there for good is there, and the locator hands out direct leaves. -/
structure Furnished (P : Ref .object → String → Prop) (w : World η) : Prop where
  there : ∀ o n, P o n → w.has o n = true
  cached : ∀ p ∈ w.locator.properties, w.Rooted p.2
  dispatcher : ∀ p ∈ w.locator.dispatchers,
    ∃ cell, w.dispatchers.get? p.2 = some cell ∧ cell.object = p.1
  handed : ∀ d cell p, w.dispatchers.get? d = some cell → p ∈ cell.observers → w.Rooted p.2

/-- A name that a scope has for good belongs to an object that has it. -/
theorem Furnished.exists_owner (F : w.Furnished P) (provides : scope.Provides P n) :
    ∃ o, w.ownerOf scope n = .object o ∧ w.has o n = true := by
  have owned : (scope.levels.findSome? (w.levelOwner? n)).isSome := by
    obtain ⟨level, m, owns⟩ := provides
    refine List.findSome?_isSome_iff.2 ⟨level, m, ?_⟩
    unfold levelOwner?
    rcases owns with owns | ⟨o, context, owns⟩
    · rw [if_pos (F.there _ n owns)]
      rfl
    · split
      · rfl
      · simp only [context, F.there o n owns, if_true, Option.isSome_some]
  obtain ⟨owner, owned⟩ := Option.isSome_iff_exists.1 owned
  obtain ⟨level, -, at'⟩ := List.exists_of_findSome?_eq_some owned
  have result : w.ownerOf scope n = owner := by simp only [ownerOf, owned]
  unfold levelOwner? at at'
  split at at'
  next has =>
    cases at'
    exact ⟨_, result, has⟩
  · split at at'
    next o context =>
      split at at'
      next has =>
        cases at'
        exact ⟨o, result.trans context, has⟩
      · cases at'
    · cases at'

/-- `w'` has the locator of `w`, and the properties of `w` that are there for good. -/
structure Settings (P : Ref .object → String → Prop) (w w' : World η) : Prop where
  properties : w'.locator.properties = w.locator.properties
  dispatchers : w'.locator.dispatchers = w.locator.dispatchers
  observers : ∀ d, (w'.dispatchers.get? d).map (fun c => (c.object, c.observers))
    = (w.dispatchers.get? d).map fun c => (c.object, c.observers)
  place? : ∀ l, w.place? l ≠ none → w'.place? l ≠ none
  has : ∀ o n, P o n → w.has o n = true → w'.has o n = true

theorem Settings.rooted (h : w.Settings P w') (rooted : w.Rooted l) : w'.Rooted l :=
  ⟨rooted.1, h.place? l rooted.2⟩

theorem Furnished.settings (F : w.Furnished P) (h : w.Settings P w') : w'.Furnished P where
  there o n fixed := h.has o n fixed (F.there o n fixed)
  cached p m := h.rooted (F.cached p (h.properties ▸ m))
  dispatcher p m := by
    obtain ⟨cell, get, of⟩ := F.dispatcher p (h.dispatchers ▸ m)
    have same := h.observers p.2
    rw [get, Option.map_some, Option.map_eq_some_iff] at same
    obtain ⟨cell', get', same⟩ := same
    exact ⟨cell', get', (congrArg Prod.fst same).trans of⟩
  handed d cell p get m := by
    have same := (h.observers d).symm
    rw [get, Option.map_some, Option.map_eq_some_iff] at same
    obtain ⟨cell', get', same⟩ := same
    obtain ⟨-, observers⟩ := Prod.mk.inj same
    exact h.rooted (F.handed d cell' p get' (observers ▸ m))

/-! ### Steady changes -/

/-- The scope of a composite. -/
def scopeOf? (w : World η) (c : Ref .composite) : Option Scope :=
  (w.composites.get? c).map (·.scope)

/-- What composites are seen by, for the account. -/
def outline (w : World η) (c : Ref .composite) :
    Option (Scope × List (Token × Subscriber) × Array Part) :=
  (w.composites.get? c).map fun cell => (cell.scope, cell.callbacks.entries, cell.parts)

theorem part?_eq (w : World η) (c : Ref .composite) (i : Nat) :
    w.part? c i = (w.outline c).bind (·.2.2[i]?) := by
  simp only [part?, outline]
  cases w.composites.get? c <;> rfl

theorem followersOf_eq (w : World η) (c : Ref .composite) :
    w.followersOf c = ((w.outline c).map (·.2.1)).getD [] := by
  simp only [followersOf, outline]
  cases w.composites.get? c <;> rfl

theorem scopeOf?_eq (w : World η) (c : Ref .composite) :
    w.scopeOf? c = (w.outline c).map (·.1) := by
  simp only [scopeOf?, outline]
  cases w.composites.get? c <;> rfl

/-- `w'` has the composites, the registrations and the subscriptions of `w`. -/
structure Steady (P : Ref .object → String → Prop) (w w' : World η) : Prop where
  outline : ∀ c, w'.outline c = w.outline c
  directVoice? : ∀ s, w'.directVoice? s = w.directVoice? s
  audience : ∀ l, w'.audience l = w.audience l
  place? : ∀ l, w.place? l ≠ none → w'.place? l ≠ none
  collectors : ∀ c, w'.collectorsOf c = w.collectorsOf c
  nextToken : w.nextToken ≤ w'.nextToken
  furnished : w.Furnished P → w'.Furnished P

namespace Steady

theorem refl (w : World η) : w.Steady P w :=
  ⟨fun _ => rfl, fun _ => rfl, fun _ => rfl, fun _ => id, fun _ => rfl, Nat.le_refl _, id⟩

theorem trans (h : w.Steady P w') (h' : w'.Steady P w'') : w.Steady P w'' where
  outline c := (h'.outline c).trans (h.outline c)
  directVoice? s := (h'.directVoice? s).trans (h.directVoice? s)
  audience l := (h'.audience l).trans (h.audience l)
  place? l := h'.place? l ∘ h.place? l
  collectors c := (h'.collectors c).trans (h.collectors c)
  nextToken := Nat.le_trans h.nextToken h'.nextToken
  furnished := h'.furnished ∘ h.furnished

theorem part? (h : w.Steady P w') (c : Ref .composite) (i : Nat) :
    w'.part? c i = w.part? c i := by rw [part?_eq, h.outline, part?_eq]

theorem followersOf (h : w.Steady P w') (c : Ref .composite) :
    w'.followersOf c = w.followersOf c := by rw [followersOf_eq, h.outline, followersOf_eq]

theorem scopeOf? (h : w.Steady P w') (c : Ref .composite) :
    w'.scopeOf? c = w.scopeOf? c := by rw [scopeOf?_eq, h.outline, scopeOf?_eq]

theorem rooted (h : w.Steady P w') (rooted : w.Rooted l) : w'.Rooted l :=
  ⟨rooted.1, h.place? l rooted.2⟩

theorem rearranges (h : w.Steady P w') : w.Rearranges w' [] where
  directVoice? := h.directVoice?
  audience := h.audience
  place? := h.place?
  collectors := h.collectors
  nextToken := h.nextToken
  followers c p m := .inl (h.followersOf c ▸ m)
  fits c i part info is some := .inl ⟨part, h.part? c i ▸ is, some⟩
  watches c i part l is watched := ⟨part, (h.part? c i).trans is, watched⟩
  retains c i s := by simp only [Retains, h.part?, List.not_mem_nil, not_false_eq_true, and_true]
  lost s m := absurd m List.not_mem_nil
  apart := List.nodup_nil
  idle c alone := .inl (h.followersOf c ▸ alone)

end Steady

/-- With the same locator. -/
theorem Steady.of_settings (outline : ∀ c, w'.outline c = w.outline c)
    (directVoice? : ∀ s, w'.directVoice? s = w.directVoice? s)
    (audience : ∀ l, w'.audience l = w.audience l)
    (collectors : ∀ c, w'.collectorsOf c = w.collectorsOf c)
    (nextToken : w.nextToken ≤ w'.nextToken) (settings : w.Settings P w') : w.Steady P w' where
  outline := outline
  directVoice? := directVoice?
  audience := audience
  place? := settings.place?
  collectors := collectors
  nextToken := nextToken
  furnished F := F.settings settings

/-- What the account sees of a world, beside the names that objects have. -/
def registry (w : World η) :=
  (w.composites, w.subscriptions, w.setters, w.properties, w.placeholders, w.polls, w.contents,
    w.nextToken, w.locator, w.dispatchers)

theorem Steady.of_registry (same : w'.registry = w.registry)
    (has : ∀ o n, P o n → w.has o n = true → w'.has o n = true) : w.Steady P w' := by
  simp only [registry, Prod.mk.injEq] at same
  obtain ⟨composites, subscriptions, setters, properties, placeholders, polls, contents, nextToken,
    locator, dispatchers⟩ := same
  refine .of_settings (fun c => ?_) (fun s => ?_) (fun l => ?_) (fun c => ?_)
    (Nat.le_of_eq nextToken.symm) ⟨?_, ?_, fun d => ?_, fun l => ?_, has⟩
  · simp only [World.outline, composites]
  · simp only [World.directVoice?, World.disposal?, subscriptions]
  · cases l <;> simp only [World.audience, setters, properties, placeholders, polls]
  · simp only [collectorsOf, contents]
  · rw [locator]
  · rw [locator]
  · rw [dispatchers]
  · cases l <;> simp only [World.place?, setters, properties, placeholders, polls, imp_self]

theorem has_of_slots (same : ∀ o, w'.slots o = w.slots o) (o : Ref .object) (n : String)
    (has : w.has o n = true) : w'.has o n = true := by
  rwa [has_eq_isSome, slot?_eq, same, ← slot?_eq, ← has_eq_isSome]

/-! ### Objects and arrays -/

theorem steady_queueMicrotask (w : World η) (task : Microtask) :
    w.Steady P (w.queueMicrotask task) := .of_registry rfl fun _ _ _ => id

theorem Steady.queues (h : w.Steady P w') (task : Microtask) :
    w.Steady P (w'.queueMicrotask task) := h.trans (steady_queueMicrotask w' task)

theorem steady_modifyObject (w : World η) (o : Ref .object) {f : ObjectCell → ObjectCell}
    (same : ∀ c, (f c).properties = c.properties) : w.Steady P (w.modifyObject o f) :=
  .of_registry rfl fun o' n _ => has_of_slots (slots_modifyObject w o · same) o' n

theorem steady_record (w : World η) (o : Ref .object) (change : ChangeRecord) :
    w.Steady P (w.record o change) := by
  refine .of_registry ?_ fun o' n _ => has_of_slots (slots_record w o · change) o' n
  unfold record
  split
  · rfl
  · split
    · rfl
    · dsimp only
      split <;> rfl

theorem steady_putSlot (w : World η) (o : Ref .object) (n : String) (slot : Slot) :
    w.Steady P (w.putSlot o n slot) := by
  refine .of_registry rfl fun o' n' _ has => ?_
  rw [has_eq_isSome, slot?_putSlot]
  split
  · rfl
  · exact has

/-- What a trap keeps for its subscribers is not in the account. -/
theorem steady_modifySetter (w : World η) (r : Ref .setter) {f : SetterCell → SetterCell}
    (object : ∀ c, ((f c).object, (f c).property) = (c.object, c.property))
    (callbacks : ∀ c, (f c).callbacks.entries = c.callbacks.entries) :
    w.Steady P (w.modifySetter r f) := by
  refine .of_settings (fun _ => rfl) (fun _ => rfl) (fun l => ?_) (fun _ => rfl) (Nat.le_refl _)
    ⟨rfl, rfl, fun _ => rfl, fun l => ?_, fun _ _ _ => id⟩
  · cases l with
    | setter r' => exact congrArg (Option.getD · []) (Store.map_get?_modify _ _ _ callbacks)
    | _ => rfl
  · cases l with
    | setter r' =>
      have same := Store.map_get?_modify (g := fun c => (c.object, c.property)) w.setters r r' object
      exact fun there gone => there (same.symm.trans gone)
    | _ => exact id

theorem steady_writeTrap (w : World η) (r : Ref .setter) (v : Value) :
    w.Steady P (w.writeTrap r v) := by
  unfold writeTrap
  split
  · exact .refl w
  · split
    · exact .refl w
    · split
      · exact steady_modifySetter w r (fun _ => rfl) fun _ => rfl
      · refine Steady.queues ?_ _
        exact steady_modifySetter w r (fun _ => rfl) fun _ => rfl

theorem steady_set (w : World η) (o : Ref .object) (n : String) (v : Value) :
    w.Steady P (w.set o n v) := by
  unfold set
  split
  · exact .refl w
  · split
    · exact steady_writeTrap w _ v
    · exact steady_putSlot w o n _
    · split
      · exact .refl w
      · exact (steady_putSlot w o n _).trans (steady_record _ o _)
    · exact (steady_putSlot w o n _).trans (steady_record _ o _)

theorem steady_newObject (w : World η) (properties : List (String × Value)) :
    w.Steady P (w.newObject properties).2 := by
  refine .of_registry rfl fun o n _ has => ?_
  have older : o ≠ w.objects.next := by
    rintro rfl
    simp [World.has, slot?] at has
  rw [has_eq_isSome] at has ⊢
  rwa [slot?, show (w.newObject properties).2.objects.get? o = w.objects.get? o from
    Store.get?_alloc_of_ne _ older]

theorem steady_takeRecords (w : World η) (o : Ref .object) : w.Steady P (w.takeRecords o).2 := by
  unfold takeRecords
  split
  · exact .refl w
  · exact steady_modifyObject w o fun _ => rfl

theorem steady_setItem (w : World η) (a : Ref .array) (index : Nat) (v : Value) :
    w.Steady P (w.setItem a index v).2 := by
  refine .of_registry ?_ fun o n _ => has_of_slots (fun o => ?_) o n
  all_goals
    unfold setItem
    split
    · rfl
    · dsimp only
      split <;> rfl

/-- What an observer of contents keeps for its subscribers is not in the account. -/
theorem steady_modifyContents (w : World η) (r : Ref .contents) {f : ContentsCell → ContentsCell}
    (callbacks : ∀ c, (f c).callbacks.entries = c.callbacks.entries) :
    w.Steady P (w.modifyContents r f) :=
  .of_settings (fun _ => rfl) (fun _ => rfl) (fun l => by cases l <;> rfl)
    (fun _ => congrArg (Option.getD · []) (Store.map_get?_modify _ _ _ callbacks)) (Nat.le_refl _)
    ⟨rfl, rfl, fun _ => rfl, fun l => by cases l <;> exact id, fun _ _ _ => id⟩

theorem steady_collectSplice (w : World η) (r : Ref .contents) (splice : Splice) :
    w.Steady P (w.collectSplice r splice) := by
  unfold collectSplice
  split
  · exact .refl w
  · dsimp only
    split
    · exact steady_modifyContents w r fun _ => rfl
    · refine Steady.queues ?_ _
      exact steady_modifyContents w r fun _ => rfl

theorem Touches.steady (h : w.Touches w') : w.Steady P w' := by
  cases h with
  | nothing => exact .refl w
  | set o n v => exact steady_set w o n v
  | newObject properties => exact steady_newObject w properties
  | newArray items => exact .of_registry rfl fun _ _ _ => id
  | setItem a index v => exact steady_setItem w a index v
  | collectSplice r splice => exact steady_collectSplice w r splice

/-! ### The invariant -/

/-- The world is furnished, parts that are not connected yet are plain, and composites account for
every subscription but the `loose` ones. -/
structure Accounted (P : Ref .object → String → Prop) (w : World η)
    (loose : List (Ref .subscription)) : Prop where
  furnished : w.Furnished P
  plain : ∀ c i part scope, w.part? c i = some part → part.info = none →
    w.scopeOf? c = some scope → part.expression.IsPlain P scope
  accounts : w.Accounts loose

theorem Accounted.steady (A : w.Accounted P loose) (h : w.Steady P w') : w'.Accounted P loose where
  furnished := h.furnished A.furnished
  plain c i part scope is unconnected at' :=
    A.plain c i part scope (h.part? c i ▸ is) unconnected (h.scopeOf? c ▸ at')
  accounts := A.accounts.rearranges h.rearranges

end World

/-! ### Computations that keep the account -/

variable {η α β : Type} {P : Ref .object → String → Prop} {w : World η}

/-- The computation keeps the account of composites, wherever it ends. -/
def Run.Honest (P : Ref .object → String → Prop) (x : Run η α) : Prop :=
  ∀ w : World η, w.Accounted P [] → (x w).2.Accounted P []

/-- What is called back keeps the account of composites.  Subscribing to a leaf does nothing but
that. -/
structure Env.Honest (P : Ref .object → String → Prop) (env : Env η) : Prop where
  call : ∀ f this args, (env.call f this args).Honest P
  convert : ∀ c direction v args, (env.convert c direction v args).Honest P
  fire : ∀ hook occasion, (env.fire hook occasion).Honest P
  hook : ∀ h new old, (env.announce (.hook h) new old).Honest P
  part : ∀ c new old, (env.announce (.part c) new old).Honest P
  leaf : ∀ l s w, env.subscribe (.leaf l) s w = Run.subscribeLeaf l s w ∨
    env.subscribe (.leaf l) s w = (.exhausted, w)

namespace Run

variable {x : Run η α}

theorem Honest.meets (h : x.Honest P) (A : w.Accounted P []) :
    x.Meets w (fun _ w' => w'.Accounted P []) (·.Accounted P []) := Keeps.meets h A

theorem honest_of_meets (h : ∀ w : World η, w.Accounted P [] →
    x.Meets w (fun _ w' => w'.Accounted P []) (·.Accounted P [])) : x.Honest P := keeps_of_meets h

theorem honest_update {f : World η → α × World η} (h : ∀ w : World η, w.Steady P (f w).2) :
    (update f).Honest P := fun w A => A.steady (h w)

theorem honest_modify {f : World η → World η} (h : ∀ w : World η, w.Steady P (f w)) :
    (modify f).Honest P := fun w A => A.steady (h w)

theorem Honest.bind (h : x.Honest P) {f : α → Run η β} (h' : ∀ a, (f a).Honest P) :
    (x >>= f).Honest P := Keeps.bind h h'

/-- A computation that begins with a look at the world. -/
theorem honest_read_bind {f : World η → α} {g : α → Run η β}
    (h : ∀ w : World η, w.Accounted P [] → (g (f w) w).2.Accounted P []) :
    (read f >>= g).Honest P := h

theorem Honest.attempt (h : x.Honest P) : x.attempt.Honest P := Keeps.attempt h

theorem Honest.discard (h : x.Honest P) : (discard x : Run η PUnit).Honest P :=
  h.bind fun _ => keeps_pure _

/-- **Evaluating is honest**, as long as what it calls back is. -/
theorem Evaluates.honest {env : Env η} (h : x.Evaluates env) (E : env.Honest P) : x.Honest P :=
  h.keeps (fun _ _ A touches => A.steady touches.steady) ⟨E.call, E.convert, E.fire⟩

end Run

end ViewBinding
