import ViewBinding.Proofs.OneWay.Settle

/-!
# OneWay — frames

A frame connects bindings that wait, and each shows its source then (`Serving.drainConnects`).  Its
other tasks tell nobody: no polled property is heard of (`Feeds.unheard`), and the host does nothing
in a frame (`Host.Rests`).  The microtasks are flushed in the end (`Serving.frame`).
-/

namespace ViewBinding

/-- What the host does in a frame leaves the world alone. -/
def Host.Rests {η : Type} (host : Host η) : Prop :=
  ∀ env h w, host.fire env h .frame w = (.ok (), w)

namespace World

variable {η : Type} {w w' w'' : World η} {sources : Ref .object → Prop} {p : String} {scope : Scope}
  {vm : Ref .object} {b : Ref .binding} {cell : BindingCell} {q : ConnectQueue}

/-- As `Attends`, and no more waits than before. -/
structure Tends (w w' : World η) (sources : Ref .object → Prop) (p : String) : Prop
    extends Attends w w' sources p where
  microtasks : w'.tasks.microtasks = w.tasks.microtasks
  flushing : w'.tasks.flushing = w.tasks.flushing
  shorter : w'.connects.queue.length ≤ w.connects.queue.length

theorem Tends.refl (w : World η) : w.Tends w sources p := ⟨.refl w, rfl, rfl, Nat.le_refl _⟩

theorem Tends.trans (h : w.Tends w' sources p) (h' : w'.Tends w'' sources p) :
    w.Tends w'' sources p :=
  ⟨h.toAttends.trans h'.toAttends, h'.microtasks.trans h.microtasks, h'.flushing.trans h.flushing,
    Nat.le_trans h'.shorter h.shorter⟩

theorem Idles.tends (h : w.Idles w') (flushing : w'.tasks.flushing = w.tasks.flushing)
    (shorter : w'.connects.queue.length ≤ w.connects.queue.length) : w.Tends w' sources p :=
  ⟨h.attends, h.spares.microtasks, flushing, shorter⟩

/-! ### Connecting what waits -/

section
variable {host : Host η} {rounds depth : Nat} {cut : Prop}

/-- **Connecting the binding that has waited longest.**  If it has been unbound meanwhile, nothing
happens. -/
theorem Serving.connectNext (S : w.Serving sources p) (popped : w.connects.pop? = some (b, q)) :
    (Run.ignoreFailure (Run.connectBinding (machine host rounds (depth + 1)) b true)).Ends cut
      (w.withQueue q) fun _ w' => w'.Serving sources p ∧ w.Tends w' sources p ∧ w'.connects = q := by
  obtain ⟨queue, queued, -, -⟩ := ConnectQueue.queue_of_pop? popped
  have idles := idles_withQueue S.feeds.wired q
  have F := idles.feeds S.feeds
  have shorter : q.queue.length ≤ w.connects.queue.length := by simp [queue]
  have waiting : q.queued.Perm q.queue := by
    rw [queued]
    have := S.waiting.erase b
    rwa [queue, List.erase_cons_head] at this
  have but : (w.withQueue q).ServingBut sources p b := ⟨F, waiting, fun b' other =>
    idles.serves (S.serves b') fun m => (List.mem_cons.1 (queue ▸ m)).resolve_left other⟩
  have tends : w.Tends (w.withQueue q) sources p := idles.tends rfl shorter
  have unbound : (w.withQueue q).sourceOf? b = none → (w.withQueue q).Serving sources p := by
    intro none
    refine but.serving fun cell scope vm get source => ?_
    simp only [sourceOf?, get, Option.bind_eq_bind, Option.bind_some, source] at none
    cases none
  refine Run.ends_ignoreFailure ?_
  cases get : (w.withQueue q).bindings.get? b with
  | none =>
    simp only [Run.connectBinding, Run.ends_bind, Run.ends_read, get]
    exact ⟨unbound (by simp [sourceOf?, get]), tends, rfl⟩
  | some cell =>
    cases source : cell.source with
    | none =>
      obtain ⟨_, _, _, _, _, _, _, _, _⟩ := cell
      subst source
      simp only [Run.connectBinding, Run.ends_bind, Run.ends_read, get]
      exact ⟨unbound (by simp [sourceOf?, get]), tends, rfl⟩
    | some scope =>
      obtain ⟨vm, reads⟩ := (F.rigged b cell get).reads scope source
      refine (F.connect get source reads true fun no => by cases no).mono ?_
      rintro _ w' ⟨turned, serves, connects⟩
      refine ⟨(but.turned get turned connects).serving serves, tends.trans
        ⟨turned.attends F get, turned.turns.microtasks, turned.turns.flushing,
          Nat.le_of_eq (by rw [connects])⟩, connects⟩

/-- **Connecting what waits** until none is left or the time is up. -/
theorem Serving.drainConnects : ∀ (fuel connected : Nat) (w : World η), w.Serving sources p →
    (fuel ≤ w.connects.queue.length → cut) →
      (Run.drainConnects (machine host rounds (depth + 1)) fuel connected).Ends cut w
        fun _ w' => w'.Serving sources p ∧ w.Tends w' sources p
  | 0, _, w, _, enough => enough (Nat.zero_le _)
  | fuel + 1, connected, w, S, enough => by
    simp only [Run.drainConnects, Run.ends_bind, Run.ends_update]
    cases popped : w.connects.pop? with
    | none => exact ⟨S, .refl w⟩
    | some next =>
      obtain ⟨b, q⟩ := next
      obtain ⟨queue, -⟩ := ConnectQueue.queue_of_pop? popped
      simp only [Run.ends_bind]
      refine (S.connectNext popped).mono ?_
      rintro _ w₁ ⟨S₁, tends₁, connects₁⟩
      have goOn : ∀ w₂ : World η, w₂.Serving sources p → w.Tends w₂ sources p → w₂.connects = w₁.connects →
          (Run.drainConnects (machine host rounds (depth + 1)) fuel (connected + 1)).Ends cut w₂
            fun _ w' => w'.Serving sources p ∧ w.Tends w' sources p := by
        intro w₂ S₂ tends₂ connects₂
        refine (Serving.drainConnects fuel (connected + 1) w₂ S₂ fun few => enough ?_).mono
          fun _ w' h => ⟨h.1, tends₂.trans h.2⟩
        rw [connects₂, connects₁] at few
        simp only [queue, List.length_cons]
        omega
      split
      · -- a look at the clock changes the host only
        let w₂ : World η := { w₁ with host := (host.late w₁).2 }
        have idles : w₁.Idles w₂ := idles_work S₁.feeds.wired w₁.tasks rfl w₁.connects w₁.polling _
        have S₂ := idles.serving S₁ rfl
        have tends₂ := tends₁.trans (idles.tends rfl (Nat.le_refl _))
        change (Run.bind host.look _).Ends cut w₁ _
        refine Run.ends_bind.2 ?_
        rw [Host.look, Run.ends_update]
        change (if (host.late w₁).1 then _ else _ : Run η Unit).Ends cut w₂ _
        split
        · exact ⟨S₂, tends₂⟩
        · exact goOn w₂ S₂ tends₂ rfl
      · exact goOn w₁ S₁ tends₁ rfl

/-- **The connects of a frame.** -/
theorem Serving.flushConnects (S : w.Serving sources p)
    (enough : rounds ≤ w.connects.queue.length → cut) :
    (Run.flushConnects (machine host rounds (depth + 1))).Ends cut w fun _ w' =>
      w'.Serving sources p ∧ w.Tends w' sources p := by
  simp only [Run.flushConnects, Run.ends_bind, Run.ends_modify, Run.ends_read]
  refine (S.drainConnects _ 0 w enough).mono ?_
  rintro _ w₁ ⟨S₁, tends₁⟩
  -- ending the cycle leaves the queue alone
  have cycle : (w₁.connects.endCycle.queued.Perm w₁.connects.endCycle.queue) ∧
      w₁.connects.endCycle.queue = w₁.connects.queue := by
    unfold ConnectQueue.endCycle
    split <;> exact ⟨S₁.waiting, rfl⟩
  let w₂ : World η := w₁.withQueue w₁.connects.endCycle
  have idles₂ := idles_withQueue S₁.feeds.wired w₁.connects.endCycle
  have S₂ : w₂.Serving sources p := ⟨idles₂.feeds S₁.feeds, cycle.1,
    fun b => idles₂.serves (S₁.serves b) fun m => cycle.2.symm ▸ m⟩
  have tends₂ := tends₁.trans (idles₂.tends rfl (Nat.le_of_eq (congrArg _ cycle.2)))
  have idles₃ := idles_requestFrame S₂.feeds.wired .connects
  change (if w₂.connects.size = 0 then _ else _ : Run η Unit).Ends cut w₂ _
  split
  · exact ⟨S₂, tends₂⟩
  · exact ⟨idles₃.serving S₂ rfl, tends₂.trans (idles₃.tends rfl (Nat.le_refl _))⟩

end

/-! ### Polling -/

/-- No polled property is heard of: sources are not frozen. -/
theorem Feeds.unheard (F : w.Feeds sources p) {r : Ref .poll} {c : PollCell}
    (get : w.polls.get? r = some c) : c.callbacks.entries = [] := by
  refine List.eq_nil_iff_forall_not_mem.2 fun x heard => ?_
  have place : w.place? (.poll r) = some (c.object, c.property) := by
    simp only [place?, get, Option.map_some]
  rcases F.wired.unique _ _ _ place with at' | ⟨_, successor, -⟩
  · have m : x ∈ w.audience (.poll r) := by
      simpa only [audience, get, Option.map_some, Option.getD_some] using heard
    obtain ⟨t, sub⟩ := x
    obtain ⟨s, own, voice⟩ := F.wired.voiced _ _ _ t sub at' m
    obtain ⟨_, _, _, -, -, -, -, -, reads⟩ := F.only s _ _ sub ⟨own, _, t, voice, at', m⟩
    have frozen : w.isFrozen c.object = true := (F.wired.current _ _ _ at').2.2
    rw [F.unfrozen _ reads.source] at frozen
    cases frozen
  · cases successor

/-- A look at a polled property concerns nobody. -/
theorem idles_modifyPoll (h : w.Wired) (r : Ref .poll) (old : Option Value) :
    w.Idles (w.modifyPoll r fun cell => { cell with old }) := by
  let w' := w.modifyPoll r fun cell => { cell with old }
  have place : ∀ l, w'.place? l = w.place? l := fun l => by
    cases l with
    | poll r' => exact Store.map_get?_modify _ _ _ fun _ => rfl
    | _ => rfl
  have audience : ∀ l, w'.audience l = w.audience l := fun l => by
    cases l with
    | poll r' =>
      exact congrArg (Option.getD · []) (Store.map_get?_modify (g := (·.callbacks.entries)) w.polls r
        r' (f := fun cell => { cell with old }) fun _ => rfl)
    | _ => rfl
  have tunes : w.Tunes w' := ⟨⟨rfl, fun _ => rfl, rfl, rfl, fun _ => rfl, fun _ => rfl, fun _ => rfl,
    fun _ => rfl, fun _ => rfl, place, fun _ => rfl⟩, audience, fun _ _ => rfl, rfl, Nat.le_refl _⟩
  have wired : w'.Wired :=
    ⟨tunes.located h.toLocated, tunes.registered h.toRegistered, h.listener, h.listens,
      fun o n l at' heard => h.hearing o n l at' (audience l ▸ heard), h.trapping, h.willing, h.trap,
      h.scheduled, h.pending, h.queued, h.tasks, h.known⟩
  exact ⟨⟨wired, rfl, rfl, fun _ _ => rfl, fun _ _ => rfl, fun _ => rfl, fun _ => rfl,
    fun _ _ => Iff.rfl, fun _ _ => rfl, place, audience, fun _ _ _ _ => tunes.enrolled,
    fun s s' ⟨l, t, t', sub, sub', voice, voice', m, m', lt⟩ => ⟨l, t, t', sub, sub',
      (tunes.voice? s).trans voice, (tunes.voice? s').trans voice', (audience l).symm ▸ m,
        (audience l).symm ▸ m', lt⟩,
    fun _ _ => Iff.rfl, fun _ _ e => e⟩, rfl, rfl, rfl⟩

section
variable {host : Host η} {rounds depth : Nat} {cut : Prop}

/-- **Polling** tells nobody. -/
theorem Serving.poll (S : w.Serving sources p) :
    (Run.poll (machine host rounds (depth + 1))).Ends cut w fun _ w' =>
      w'.Serving sources p ∧ w.Tends w' sources p := by
  let Kept (w' : World η) : Prop := w'.Serving sources p ∧ w.Tends w' sources p
  have idle : ∀ w₁ w₂ : World η, Kept w₁ → w₁.Idles w₂ → w₂.connects = w₁.connects →
      w₂.tasks.flushing = w₁.tasks.flushing → Kept w₂ := fun w₁ w₂ h idles connects flushing =>
    ⟨idles.serving h.1 connects, h.2.trans (idles.tends flushing (Nat.le_of_eq (by rw [connects])))⟩
  have work : ∀ w₁ : World η, Kept w₁ → ∀ polling, Kept { w₁ with polling } := fun w₁ h polling =>
    idle w₁ _ h (idles_work h.1.feeds.wired w₁.tasks rfl w₁.connects polling w₁.host) rfl rfl
  simp only [Run.poll, Run.ends_bind, Run.ends_modify, Run.ends_read]
  refine Run.Ends.mono (Run.ends_forEach (fun _ w' => Kept w') (work w ⟨S, .refl w⟩ _) ?_)
    fun _ w₁ h => ?_
  · intro r _ w₁ h
    have F := h.1.feeds
    rw [Run.ends_bind, Run.ends_read]
    split
    · cases get : w₁.polls.get? r with
      | none =>
        simp only [Run.tellPoll, Run.ends_bind, Run.ends_read, get]
        exact h
      | some c =>
        have silent : c.callbacks.newestFirst = [] := by
          simp only [Listeners.newestFirst, Listeners.toList, F.unheard get, List.map_nil,
            List.reverse_nil]
        simp only [Run.tellPoll, Run.ends_bind, Run.ends_read, get, Run.ends_modify, Env.notify,
          silent, Env.announceAll, Run.ends_forEach_nil]
        exact idle w₁ _ h (idles_modifyPoll F.wired r _) rfl rfl
    · exact h
  · split
    · exact h
    · rw [Run.ends_modify, schedulePolling]
      split
      · exact h
      · have h₂ := work w₁ h { w₁.polling with scheduled := true }
        exact idle _ _ h₂ (idles_requestFrame h₂.1.feeds.wired .poll) rfl rfl

/-! ### Frames -/

/-- **A frame** ends if there are rounds for what waits, and no microtask waits then. -/
theorem Serving.frame (S : w.Serving sources p) (rests : host.Rests)
    (idle : w.tasks.flushing = false)
    (enough : rounds ≤ max w.tasks.microtasks.length w.connects.queue.length → cut) :
    (Run.runFrame (machine host rounds (depth + 1))).Ends cut w fun _ w' =>
      w'.Serving sources p ∧ w.Attends w' sources p ∧ w'.tasks.microtasks = [] ∧
        w'.tasks.flushing = false := by
  let taken : World η := { w with tasks := { w.tasks with frames := [] } }
  have idles : w.Idles taken := idles_work S.feeds.wired { w.tasks with frames := [] } rfl w.connects
    w.polling w.host
  have tends : w.Tends taken sources p := idles.tends rfl (Nat.le_refl _)
  rw [Run.runFrame, Run.ends_bind, Run.ends_update, Run.ends_bind]
  refine (Run.Ends.mono (Run.ends_forEach
    (fun _ w' => w'.Serving sources p ∧ w.Tends w' sources p) ⟨idles.serving S rfl, tends⟩ ?_) ?_)
  · intro task _ w₁ ⟨S₁, tends₁⟩
    have kept : ∀ {x : Run η Unit}, (x.Ends cut w₁ fun _ w' => w'.Serving sources p ∧ w₁.Tends w' sources p) →
        x.Ends cut w₁ fun _ w' => w'.Serving sources p ∧ w.Tends w' sources p := fun h =>
      h.mono fun _ w' h => ⟨h.1, tends₁.trans h.2⟩
    cases task with
    | poll => exact kept S₁.poll
    | connects =>
      refine kept (S₁.flushConnects fun few => enough ?_)
      exact Nat.le_trans few (Nat.le_trans tends₁.shorter (Nat.le_max_right _ _))
    | hook h => exact (Run.ends_of_eq_ok (rests _ h w₁)).2 ⟨S₁, tends₁⟩
  · rintro _ w₁ ⟨S₁, tends₁⟩
    have few : rounds ≤ w₁.tasks.microtasks.length → cut := fun few =>
      enough (Nat.le_trans (tends₁.microtasks ▸ few) (Nat.le_max_left _ _))
    refine Run.ends_bind.2 (Run.ends_discard.2 ((S₁.flush (tends₁.flushing.trans idle) few).mono ?_))
    rintro _ w' ⟨S', attends, none, rests', -⟩
    exact ⟨S', tends₁.toAttends.trans attends, none, rests'⟩

end

end World

end ViewBinding
