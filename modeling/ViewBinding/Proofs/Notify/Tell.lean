import ViewBinding.Proofs.Notify.Circle

/-!
# Notify — telling a circle

An element property tells its callbacks as soon as it is written, and an object when its change
records are delivered.  In both cases the newest callback is told first, and everybody is told the
value from when the notification began.

The quiet callbacks that are told before the member leave that value alone, so the member is told the
present one; whatever the older callbacks write is told to the member again, in a notification of its
own (`Announces.audience`).  A delivery also tells the callbacks of other properties, before and after
those of the channel (`Announces.deliver`).
-/

namespace ViewBinding

variable {η : Type}

namespace Circle

variable {F : Circle η} {env : Env η} {w w' : World η}

/-- What telling anybody in an environment does to the member. -/
structure Announces (F : Circle η) (env : Env η) : Prop where
  guest : ∀ s new old w, F.Guest w s → F.Ready w →
    (env.announce s new old).Meets w (fun _ w' => F.Keeps w w') fun _ => True
  quiet : ∀ s new old w, F.quiet s → s ≠ F.member → F.Ready w →
    (env.announce s new old).Meets w (fun _ w' => F.Step w w') fun _ => True
  member : ∀ new old w, F.Ready w → (env.announce F.member new old).Meets w
    (fun _ w' => F.Goes w w' ∧ (new = F.value w → F.Abreast w')) fun _ => True
  listener : ∀ h records w, F.listener h → F.Ready w →
    (env.fire h (.records records)).Meets w (fun _ w' => F.Keeps w w') fun _ => True

/-! ### The callbacks of one observer -/

/-- Guests keep the member abreast. -/
theorem Announces.guests (A : F.Announces env) (new old : Value) {ss : List Subscriber}
    (guests : ∀ s ∈ ss, F.Guest w s) (ready : F.Ready w) :
    (env.announceAll ss new old).Meets w (fun _ w' => F.Keeps w w') fun _ => True := by
  induction ss generalizing w with
  | nil => exact .refl ready
  | cons s ss ih =>
    refine Run.meets_bind.2 ((A.guest s new old w (guests s List.mem_cons_self) ready).mono ?_
      fun _ h => h)
    rintro - w₁ kept
    have left : ∀ s ∈ ss, F.Guest w₁ s := fun s m =>
      (guests s (List.mem_cons_of_mem _ m)).goes kept.toGoes
    exact (ih left kept.ready).mono (fun _ _ kept' => kept.trans kept') fun _ h => h

/-- Quiet callbacks leave the value as it is to those who are told after them. -/
theorem Announces.quietly (A : F.Announces env) {v old : Value} {newer rest : List Subscriber}
    {post : World η → Prop} (quiet : ∀ s ∈ newer, F.quiet s ∧ s ≠ F.member) (ready : F.Ready w)
    (present : v = F.value w)
    (next : ∀ w₁, F.Goes w w₁ → v = F.value w₁ →
      (env.announceAll rest v old).Meets w₁ (fun _ w' => post w') fun _ => True) :
    (env.announceAll (newer ++ rest) v old).Meets w (fun _ w' => post w') fun _ => True := by
  induction newer generalizing w with
  | nil => exact next w ⟨ready, id⟩ present
  | cons s newer ih =>
    obtain ⟨still, other⟩ := quiet s List.mem_cons_self
    refine Run.meets_bind.2 ((A.quiet s v old w still other ready).mono ?_ fun _ h => h)
    rintro - w₁ step
    exact ih (fun s m => quiet s (List.mem_cons_of_mem _ m)) step.ready (present.trans step.value.symm)
      fun w₂ goes => next w₂ (step.toGoes.trans goes)

/-- **Those registered at the observer are told the present value.**  If the member stays it is
abreast afterwards. -/
theorem Announces.audience (A : F.Announces env) (ready : F.Ready w) (old : Value) :
    (env.announceAll ((w.callbacksOf F.channel).map (·.2)).reverse (F.value w) old).Meets w
      (fun _ w' => F.Goes w w' ∧ F.Abreast w') fun _ => True := by
  by_cases stays : F.Stays w
  · obtain ⟨older, newer, split, others, quiet⟩ := ready.order stays
    rw [split, List.map_append, List.map_cons, List.reverse_append, List.reverse_cons,
      List.append_assoc, List.singleton_append]
    refine A.quietly (fun s m => ?_) ready rfl fun w₁ goes present => ?_
    · obtain ⟨p, there, rfl⟩ := List.mem_map.1 (List.mem_reverse.1 m)
      exact quiet p there
    -- the member is told the present value, and again whatever the older ones write
    refine Run.meets_bind.2 ((A.member _ old w₁ goes.ready).mono ?_ fun _ h => h)
    rintro - w₂ ⟨goes', abreast⟩
    have left : ∀ s ∈ (older.map (·.2)).reverse, F.Guest w₂ s := fun s m => by
      obtain ⟨p, there, rfl⟩ := List.mem_map.1 (List.mem_reverse.1 m)
      exact ⟨ready.cast p (split ▸ List.mem_append_left _ there),
        fun same => absurd same (others p there)⟩
    refine (A.guests _ old left goes'.ready).mono ?_ fun _ h => h
    rintro - w₃ kept
    exact ⟨goes.trans (goes'.trans kept.toGoes), kept.abreast (abreast present)⟩
  · have guests : ∀ s ∈ ((w.callbacksOf F.channel).map (·.2)).reverse, F.Guest w s := fun s m => by
      obtain ⟨p, there, rfl⟩ := List.mem_map.1 (List.mem_reverse.1 m)
      exact ⟨ready.cast p there, fun _ => stays⟩
    refine (A.guests _ old guests ready).mono ?_ fun _ h => h
    rintro - w' kept
    exact ⟨kept.toGoes, kept.abreast fun stays' => absurd stays' stays⟩

/-! ### Properties of elements -/

section
variable {r : Ref .elementProperty}

/-- What leaves the observer of an element property and its callbacks as they are. -/
theorem Ready.element (is : F.channel = .element r) (ready : F.Ready w) (scene : F.scene w')
    (opened : w'.Open F.channel) (callbacks : w'.callbacksOf F.channel = w.callbacksOf F.channel) :
    F.Goes w w' where
  ready :=
    { scene, opened
      cast := callbacks ▸ ready.cast
      order := by
        rintro ⟨s, m⟩
        rw [callbacks] at m ⊢
        exact ready.order ⟨s, m⟩
      company := fun r d o n is' => nomatch is.symm.trans is' }
  stays := fun ⟨s, m⟩ => ⟨s, callbacks ▸ m⟩

/-- **An element property tells.** -/
theorem Announces.tellElement (A : F.Announces env)
    (scene : ∀ w w', F.Ready w → F.channel.Turns w w' → F.scene w') (is : F.channel = .element r)
    (ready : F.Ready w) :
    (Run.tellElement env r).Meets w (fun _ w' => F.Goes w w' ∧ F.Abreast w') fun _ => True := by
  obtain ⟨c, get, access, handled, live⟩ : ∃ c, w.elementProperties.get? r = some c ∧ _ := by
    have := ready.opened
    rwa [is] at this
  let seen := w.modifyElementProperty r fun cell => { cell with old := w.leafValue (.element r) }
  have there : seen.elementProperties.get? r = some { c with old := w.leafValue (.element r) } := by
    simp only [seen, World.modifyElementProperty, Store.get?_modify_self, get, Option.map_some]
  have callbacks : ((c.callbacks.entries.map (·.2)).reverse : List Subscriber) =
      ((seen.callbacksOf F.channel).map (·.2)).reverse := by
    simp only [is, World.callbacksOf, there, Option.map_some, Option.getD_some]
  have goes : F.Goes w seen := by
    refine ready.element is (scene w seen ready (is ▸ .sees r _ w)) ?_ ?_
    · rw [is]
      exact ⟨_, there, access, handled, live⟩
    · simp only [is, World.callbacksOf, there, get, Option.map_some, Option.getD_some]
  have value : w.leafValue (.element r) = F.value seen := by
    simp only [value, is, Channel.leaf, World.leafValue, get, there]
    rfl
  simp only [Run.tellElement, Run.meets_bind, Run.meets_read, get, Run.meets_modify]
  change (env.announceAll (c.callbacks.entries.map (·.2)).reverse (w.leafValue (.element r))
    c.old).Meets seen _ _
  rw [callbacks, value]
  exact (A.audience goes.ready _).mono (fun _ _ h => ⟨goes.trans h.1, h.2⟩) fun _ h => h

/-- **An element property is written**, and tells at once. -/
theorem Announces.writeElement (A : F.Announces env)
    (scene : ∀ w w', F.Ready w → F.channel.Turns w w' → F.scene w') (is : F.channel = .element r)
    (ready : F.Ready w) (v : Value) :
    (Run.writeElement env r v).Meets w (fun _ w' => F.Goes w w' ∧ F.Abreast w') fun _ => True := by
  obtain ⟨c, get, access, handled, live⟩ : ∃ c, w.elementProperties.get? r = some c ∧ _ := by
    have := ready.opened
    rwa [is] at this
  have goes : F.Goes w (w.elementSet c.element c.property v) := by
    refine ready.element is (scene w _ ready (is ▸ .shows r _ _ v w)) ?_ (by rw [is]; rfl)
    rw [is]
    exact ⟨c, get, access, handled, (Store.contains_modify _ _ _ _).trans live⟩
  simp only [Run.writeElement, Run.meets_bind, Run.meets_read, get, live, if_true, access,
    Run.meets_modify, handled]
  exact (A.tellElement scene is goes.ready).mono (fun _ _ h => ⟨goes.trans h.1, h.2⟩) fun _ h => h

end

end Circle

end ViewBinding
