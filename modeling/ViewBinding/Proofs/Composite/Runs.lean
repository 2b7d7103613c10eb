import ViewBinding.Proofs.Composite.Followers
import ViewBinding.Proofs.Leaf.Unwatched

/-!
# Composite — what followers and host functions may do

A host deals with composites by `Deed`s: it evaluates and connects expressions, follows composites and
leaves them, changes the world in ways that are steady, and has change records delivered, microtasks
flushed and properties polled.  Its functions and hooks do so as well, in the middle of an evaluation
or of a notification, which may be one of a composite that they themselves made or leave.

Since connecting a plain part calls nobody back, all deeds keep the account, however deep they nest
(`Host.Behaves.honest`), and after any of them composites and registrations agree
(`composites_reconciled`).  A part that is no name, such as a call, is connected in the middle of a
pass by evaluating it.  What it calls may leave the composite then, and the pass goes on to subscribe
to the part for nobody (`left_in_a_pass`).
-/

namespace ViewBinding

variable {η α : Type} {P : Ref .object → String → Prop}

/-- What the host does with composites. -/
inductive Deed (P : Ref .object → String → Prop) (env : Env η) : {α : Type} → Run η α → Prop
  | step {α : Type} {f : World η → α × World η} (h : ∀ w : World η, w.Steady P (f w).2) :
      Deed P env (Run.update f)
  | evaluate {α : Type} {x : Run η α} (h : x.Evaluates env) : Deed P env x
  | connect {scope : Scope} {e : Expr} (flat : e.IsFlat P scope) (provider : Provider) :
      Deed P env (e.connect env provider scope)
  | follow (c : Ref .composite) (h : Ref .hook) :
      Deed P env (Run.subscribe env (.composite c) (.hook h))
  | leave (s : Ref .subscription) : Deed P env (Run.modify (·.leave s))
  | deliver (o : Ref .object) : Deed P env (Run.deliver env o)
  | flush : Deed P env (Run.flushMicrotasks env)
  | poll : Deed P env (Run.poll env)
  | bind {α β : Type} {x : Run η α} {f : α → Run η β} (first : Deed P env x)
      (next : ∀ a, Deed P env (f a)) : Deed P env (x >>= f)
  | attempt {α : Type} {x : Run η α} (h : Deed P env x) : Deed P env x.attempt
  /-- Calling deeper than calls may nest. -/
  | cutOff {α : Type} : Deed P env (Run.cutOff : Run η α)

/-- A host that does nothing else, and whose converters change nothing that composites depend on. -/
structure Host.Behaves (host : Host η) (P : Ref .object → String → Prop) : Prop where
  call : ∀ env f this args, Deed P env (host.call env f this args)
  convert : ∀ c direction v args (w : World η), w.Steady P (host.convert c direction v args w).2
  fire : ∀ env hook occasion, Deed P env (host.fire env hook occasion)

namespace Deed

variable {env : Env η} {x : Run η α}

theorem pure (a : α) : Deed P env (Pure.pure a : Run η α) := .evaluate (.pure a)

theorem discard (h : Deed P env x) : Deed P env (discard x : Run η PUnit) :=
  .bind h fun _ => pure _

theorem modify {f : World η → World η} (h : ∀ w : World η, w.Steady P (f w)) :
    Deed P env (Run.modify f) := .step (f := fun w => ((), f w)) h

theorem forEach {f : α → Run η Unit} (h : ∀ a, Deed P env (f a)) :
    ∀ items : List α, Deed P env (Run.forEach items f)
  | [] => pure ()
  | a :: rest => .bind (h a) fun _ => forEach h rest

/-- **Deeds are honest** where callbacks are. -/
theorem honest (deed : Deed P env x) (E : env.Honest P) : x.Honest P := by
  induction deed with
  | step h => exact Run.honest_update h
  | evaluate h => exact h.honest E
  | connect flat provider => exact Run.honest_connect E flat provider
  | follow c h => exact Run.honest_subscribeComposite E c h
  | leave s => exact fun w A => A.leave s
  | deliver o => exact Run.honest_deliver E o
  | flush => exact Run.honest_flush E
  | poll => exact Run.honest_poll E
  | bind _ _ first next => exact first.bind next
  | attempt _ h => exact h.attempt
  | cutOff => exact Run.keeps_cutOff

end Deed

/-- **The environment of such a host is honest**, however deep calls may nest. -/
theorem Host.Behaves.honest {host : Host η} (behaves : host.Behaves P) (rounds : Nat) :
    ∀ depth, (machine host rounds depth).Honest P
  | 0 =>
    { call := fun _ _ _ => Run.keeps_cutOff
      convert := fun c direction v args w A => A.steady (behaves.convert c direction v args w)
      fire := fun _ _ => Run.keeps_cutOff
      hook := fun _ _ _ => Run.keeps_cutOff
      part := fun _ _ _ => Run.keeps_cutOff
      leaf := fun _ _ _ => .inr rfl }
  | depth + 1 =>
    have E := behaves.honest rounds depth
    { call := fun f this args => (behaves.call _ f this args).honest E
      convert := fun c direction v args w A => A.steady (behaves.convert c direction v args w)
      fire := fun hook occasion => (behaves.fire _ hook occasion).honest E
      hook := fun h new old => E.fire h (.changed new old)
      part := fun c _ _ => Run.honest_partChanged E c
      leaf := fun _ _ _ => .inl rfl }

namespace World

variable {w : World η}

/-- A world in which nothing is observed yet, with what is there for good. -/
structure Vacant (w : World η) (P : Ref .object → String → Prop) : Prop extends w.Unwatched where
  composites : ∀ c, w.composites.get? c = none
  contents : ∀ c, w.contents.get? c = none
  there : ∀ o n, P o n → w.has o n = true

theorem Vacant.accounted (h : w.Vacant P) : w.Accounted P [] := by
  have voices : ∀ s, w.directVoice? s = none := fun s => by
    simp only [directVoice?, h.toUnwatched.disposal?]
  have parts : ∀ c i, w.part? c i = none := fun c i => by simp [part?, h.composites]
  have nobody : ∀ l p, p ∉ w.audience l := fun l p => by simp [h.toUnwatched.audience]
  have alone : ∀ c, w.followersOf c = [] := fun c => by simp [followersOf, h.composites]
  refine ⟨⟨h.there, ?_, ?_, ?_⟩, ?_, ?_⟩
  · simp [h.propertyCache]
  · simp [h.dispatcherCache]
  · intro d cell p get
    simp [h.dispatchers] at get
  · intro c i part scope is
    simp [parts] at is
  · constructor
    · intro s l t is
      simp [voices] at is
    · intro s s' l l' t is
      simp [voices] at is
    · exact fun l p m => absurd m (nobody l p)
    · intro l
      rw [h.toUnwatched.audience]
      exact List.nodup_nil
    · exact fun l p m => absurd m (nobody l p)
    · intro c
      simp [collectorsOf, h.contents]
    · intro c p m
      simp [alone] at m
    · intro c i part info is
      simp [parts] at is
    · intro c i part s is
      simp [parts] at is
    · rintro c c' i i' s ⟨part, is, -⟩
      simp [parts] at is
    · exact fun l t c m => absurd m (nobody l _)
    · exact fun s m => absurd m List.not_mem_nil
    · exact fun s m => absurd m List.not_mem_nil
    · exact List.nodup_nil
    · rintro c i s - ⟨part, is, -⟩
      simp [parts] at is

/-- The subscriptions that composites keep and the registrations of composites agree. -/
structure Reconciled (w : World η) : Prop where
  /-- What a part keeps is a registration of the composite, with the leaf that connecting the part
  gave. -/
  heard : ∀ c i part s, w.part? c i = some part → part.subscription = some s →
    ∃ l t, part.Watches l ∧ w.directVoice? s = some (l, t) ∧ (t, .part c) ∈ w.audience l
  /-- A registration of a composite with a leaf is kept by one of its parts, and by no other part. -/
  kept : ∀ c l t, (t, .part c) ∈ w.audience l → ∃ s i, w.directVoice? s = some (l, t) ∧
    w.Retains c i s ∧ ∀ c' i', w.Retains c' i' s → c' = c ∧ i' = i
  /-- No two registrations with a leaf have the same token. -/
  distinct : ∀ l, Entries.Distinct (w.audience l)
  /-- The parts of a composite without followers keep nothing. -/
  idle : ∀ c i part, w.followerCount c = 0 → w.part? c i = some part → part.subscription = none

theorem Accounts.reconciled (A : w.Accounts []) : w.Reconciled where
  heard := A.kept
  kept c l t m := by
    obtain ⟨s, voice, there⟩ := A.booked l t c m
    obtain ⟨i, keeps⟩ := there.resolve_left List.not_mem_nil
    exact ⟨s, i, voice, keeps, fun c' i' keeps' => A.once c' c i' i s keeps' keeps⟩
  distinct := A.distinct
  idle c i part alone is := by
    rw [followerCount_eq, List.length_eq_zero_iff] at alone
    cases keeps : part.subscription with
    | none => rfl
    | some s => exact absurd ⟨part, is, keeps⟩ (A.idle c i s alone)

/-- No part of a composite without followers is subscribed. -/
theorem Reconciled.subscribedCount (h : w.Reconciled) {c : Ref .composite}
    (alone : w.followerCount c = 0) : w.subscribedCount c = 0 := by
  unfold World.subscribedCount
  cases get : w.composites.get? c with
  | none => rfl
  | some cell =>
    refine Array.countP_eq_zero.2 fun part m subscribed => ?_
    obtain ⟨i, is⟩ := Array.mem_iff_getElem?.1 m
    rw [h.idle c i part alone (by simp [World.part?, get, is])] at subscribed
    cases subscribed

end World

/-- **Composites and registrations agree** wherever a deed ends that begins where nothing is observed,
whatever functions and followers do meanwhile: also where it fails or is cut off. -/
theorem composites_reconciled {host : Host η} (behaves : host.Behaves P) (rounds depth : Nat)
    {w : World η} (vacant : w.Vacant P) {x : Run η α} (deed : Deed P (machine host rounds depth) x) :
    (x w).2.Reconciled :=
  (deed.honest (behaves.honest rounds depth) w vacant.accounted).accounts.reconciled

/-! ### Leaving from within an evaluation -/

/-- A host whose functions leave composites.  The second hook follows the first composite anew and
leaves it, too. -/
def Host.leaving (gone : List (Ref .subscription)) : Host Unit where
  call _ _ _ _ := do
    Run.forEach gone fun s => Run.modify (·.leave s)
    pure .undefined
  convert _ _ _ _ := pure none
  fire env hook _ :=
    if hook = ⟨1⟩ then do
      discard (Run.subscribe env (.composite ⟨0⟩) (.hook ⟨2⟩))
      Run.modify (·.leave ⟨2⟩)
    else pure ()
  late w := (false, w.host)

theorem leaving_behaves (gone : List (Ref .subscription)) : (Host.leaving gone).Behaves P where
  call _ _ _ _ := .bind (.forEach .leave gone) fun _ => .pure _
  convert _ _ _ _ w := .refl w
  fire env hook _ := by
    unfold Host.leaving
    dsimp only
    split
    · exact .bind (.discard (.follow _ _)) fun _ => .leave _
    · exact .pure ()

/-- A view model with a function and a switch. -/
def stage (on : Value) : World Unit :=
  (((World.new .standard ()).newObject [("f", .function ⟨0⟩), ("x", on)]).2.newLevel
    (.object ⟨0⟩)).2

/-- The scope of the view model. -/
def stageScope : Scope := .root ⟨.object ⟨0⟩, ⟨1⟩⟩

/-- What the stage has for good. -/
def OnStage (o : Ref .object) (n : String) : Prop := o = ⟨0⟩ ∧ (n = "f" ∨ n = "x")

theorem stage_vacant (on : Value) : (stage on).Vacant OnStage where
  toUnwatched := ((World.unwatched_new Config.standard ()).newObject _).newLevel _
  composites c := by simp [stage, World.newLevel, World.newObject, World.new]
  contents c := by simp [stage, World.newLevel, World.newObject, World.new]
  there o n := by
    rintro ⟨rfl, rfl | rfl⟩ <;> rfl

/-- The expression is connected on the stage, hooks follow the composite, the switch is turned on and
the change delivered, with functions that leave composites. -/
def Run.staged (gone : List (Ref .subscription)) (e : Expr) (hooks : List (Ref .hook)) :
    Run Unit Unit := do
  discard (e.connect (machine (.leaving gone) 9 9) .engine stageScope)
  Run.forEach hooks fun h =>
    discard (Run.subscribe (machine (.leaving gone) 9 9) (.composite ⟨0⟩) (.hook h))
  Run.modify (·.set ⟨0⟩ "x" (.bool true))
  discard (Run.flushMicrotasks (machine (.leaving gone) 9 9))

theorem staged_deed (gone : List (Ref .subscription)) {e : Expr} (flat : e.IsFlat OnStage stageScope)
    (hooks : List (Ref .hook)) :
    Deed OnStage (machine (.leaving gone) 9 9) (Run.staged gone e hooks) :=
  .bind (.discard (.connect flat .engine)) fun _ =>
    .bind (.forEach (fun h => .discard (.follow ⟨0⟩ h)) hooks) fun _ =>
      .bind (.modify fun w => World.steady_set w ⟨0⟩ "x" (.bool true)) fun _ => .discard .flush

/-- The only follower leaves while the function is called, in the middle of an evaluation. -/
theorem left_in_an_evaluation :
    (Run.staged [⟨2⟩] (.callName "f" [.name "x"]) [⟨0⟩] (stage (.bool false))).2.Reconciled ∧
      (Run.staged [⟨2⟩] (.callName "f" [.name "x"]) [⟨0⟩]).Ends False (stage (.bool false))
        fun _ w => w.partCount ⟨0⟩ = 2 ∧ w.followerCount ⟨0⟩ = 0 ∧ w.subscribedCount ⟨0⟩ = 0 := by
  have f : stageScope.Provides OnStage "f" :=
    ⟨_, List.mem_singleton_self _, .inr ⟨⟨0⟩, rfl, rfl, .inl rfl⟩⟩
  have x : stageScope.Provides OnStage "x" :=
    ⟨_, List.mem_singleton_self _, .inr ⟨⟨0⟩, rfl, rfl, .inr rfl⟩⟩
  have flat : Expr.IsFlat OnStage stageScope (.callName "f" [.name "x"]) :=
    ⟨f, fun e m => List.mem_singleton.1 m ▸ x⟩
  refine ⟨?_, by decide +kernel⟩
  exact composites_reconciled (leaving_behaves [⟨2⟩]) 9 9 (stage_vacant _) (staged_deed _ flat _)

theorem staged_switch :
    (Run.staged [⟨1⟩, ⟨3⟩] (.binary "&&" (.name "x") (.callName "f" [])) [⟨0⟩, ⟨1⟩]).Ends False
      (stage (.bool false)) fun _ w => w.followerCount ⟨0⟩ = 0 ∧ w.subscribedCount ⟨0⟩ = 1 := by
  decide +kernel

/-- **Followers that leave in the middle of a pass.**  The switch is on, so the call is connected, and
evaluated for that.  The function leaves the composite for its last two followers, and the pass goes
on to subscribe to the call: nobody follows the composite, and one of its parts is subscribed. -/
theorem left_in_a_pass : ∃ w',
    Run.staged [⟨1⟩, ⟨3⟩] (.binary "&&" (.name "x") (.callName "f" [])) [⟨0⟩, ⟨1⟩]
      (stage (.bool false)) = (.ok (), w') ∧
    w'.followerCount ⟨0⟩ = 0 ∧ w'.subscribedCount ⟨0⟩ = 1 ∧ ¬ w'.Reconciled := by
  obtain ⟨⟨⟩, w', ran, alone, subscribed⟩ := staged_switch.exists_eq_ok
  refine ⟨w', ran, alone, subscribed, fun reconciled => ?_⟩
  rw [reconciled.subscribedCount alone] at subscribed
  cases subscribed

end ViewBinding
