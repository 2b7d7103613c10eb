import ViewBinding.Proofs.Ends
import ViewBinding.Proofs.Queue.Observers
import ViewBinding.Proofs.Queue.Unfailing

/-!
# Composite — no report is lost

A composite that is told of a change of one of its parts evaluates its expression, tells its
followers and brings its subscriptions in line.  Any of that may call the host, and what the host
does then may tell the composite of further changes.

`Diary host rounds c w es w'` says that the entries `es` are what happens to the composite `c` on
the way from `w` to `w'`.  Whatever a host does is recorded by a diary, however deep its calls nest,
as long as it keeps its hands off the flags of the composite (`Host.Reports.recorded`).  In every
diary a composite that is busy does nothing but note that it was told (`Diary.busy`), and one that
is clear is clear at the end (`Diary.clear`).

So no evaluation begins within another one, every report is answered by an evaluation that begins
after it, every evaluation is followed by a pass over the parts, and at the end both flags are clear
(`Host.Reports.no_report_is_lost`).
-/

namespace ViewBinding

variable {η α β : Type}

/-! ### What a composite does when it is told -/

namespace Run

variable {env : Env η} {c : Ref .composite} {w w₁ w₂ : World η}

/-- **A composite that is busy** does nothing but note that it was told. -/
theorem partChanged_of_busy (env : Env η) (busy : (w.flags c).calling = true) :
    partChanged env c w = (.ok (), w.setRerun c true) := by
  obtain ⟨cell, get⟩ := Option.isSome_iff_exists.1 (World.contains_of_calling busy)
  have calling : cell.calling = true := by
    simpa [World.flags, get, CompositeCell.flags] using busy
  unfold partChanged
  rw [bind_read, get]
  dsimp only
  rw [calling]
  rfl

/-- One that is not handles the change. -/
theorem partChanged_of_idle (env : Env η) (there : w.composites.contains c = true)
    (idle : (w.flags c).calling = false) :
    partChanged env c w = settle env c env.rounds (w.setCalling c true) := by
  obtain ⟨cell, get⟩ := Option.isSome_iff_exists.1 there
  have calling : cell.calling = false := by
    simpa [World.flags, get, CompositeCell.flags] using idle
  unfold partChanged
  rw [bind_read, get]
  dsimp only
  rw [calling]
  rfl

theorem partChanged_of_gone (env : Env η) (gone : w.composites.contains c = false) :
    partChanged env c w = (.ok (), w) := by
  have get : w.composites.get? c = none := by simpa [Store.contains] using gone
  unfold partChanged
  rw [bind_read, get]
  rfl

/-- One round of a composite: it evaluates its expression and tells its followers, and then it
brings its subscriptions in line, whether that fails or not. -/
structure Round (env : Env η) (c : Ref .composite) (w w₁ w₂ : World η) : Prop where
  evaluated : reevaluate env c w = (.ok (), w₁)
  connected : ∃ result,
    (reconnect env c (w₁.followerCount c != 0)).attempt w₁ = (.ok result, w₂)

/-- What a composite does after a round. -/
theorem Round.settle_succ (round : Round env c w w₁ w₂) (k : Nat) :
    settle env c (k + 1) w =
      if (w₂.flags c).rerun then settle env c k (w₂.setRerun c false)
      else (.ok (), w₂.setCalling c false) := by
  obtain ⟨evaluated, result, connected⟩ := round
  have passed : ignoreFailure (reconnect env c (w₁.followerCount c != 0)) w₁ = (.ok (), w₂) := by
    refine bind_eq_ok.2 ⟨result, w₂, connected, rfl⟩
  rw [settle, bind_of_ok evaluated, bind_read, bind_of_ok passed, bind_read, World.rerun_flags]
  split
  · rw [bind_modify]
    rfl
  · rfl

/-- Without a round a composite comes to no result. -/
theorem exists_round {k : Nat} {w' : World η} (ran : settle env c (k + 1) w = (.ok (), w')) :
    ∃ w₁ w₂, Round env c w w₁ w₂ := by
  rw [settle] at ran
  obtain ⟨⟨⟩, w₁, evaluated, ran⟩ := bind_eq_ok.1 ran
  rw [bind_read] at ran
  obtain ⟨⟨⟩, w₂, passed, -⟩ := bind_eq_ok.1 ran
  obtain ⟨result, w₂', connected, same⟩ := bind_eq_ok.1 passed
  cases same
  exact ⟨w₁, w₂, evaluated, result, connected⟩

end Run

/-! ### Diaries -/

/-- What is noted about a composite. -/
inductive Diary.Entry where
  /-- It is told that one of its parts has changed. -/
  | reported
  /-- It begins to evaluate its expression and to tell its followers. -/
  | evaluates
  | evaluated
  /-- It begins to bring its subscriptions in line. -/
  | connects
  | connected
deriving DecidableEq

/-- The entries of a round, with those made during the evaluation and those made during the pass. -/
def Diary.round (es es' : List Diary.Entry) : List Diary.Entry :=
  .evaluates :: (es ++ .evaluated :: .connects :: (es' ++ [.connected]))

mutual

/-- What happens to the composite `c` from one world to another, in a machine of the host.  There is
more than one way to record it: a second report in the same round changes nothing, so it may be
noted or not.  What diaries say (`Diary.Sound`) is said of all of them. -/
inductive Diary (host : Host η) (rounds : Nat) (c : Ref .composite) :
    World η → List Diary.Entry → World η → Prop
  /-- Nothing that its flags show. -/
  | aside {w w' : World η} (same : w'.flags c = w.flags c) : Diary host rounds c w [] w'
  /-- It is told of a change while it handles another one. -/
  | marked {w w' : World η} {depth : Nat} (busy : (w.flags c).calling = true)
      (ran : Run.partChanged (machine host rounds depth) c w = (.ok (), w')) :
      Diary host rounds c w [.reported] w'
  /-- It is told of a change and handles it. -/
  | handled {w w' : World η} {depth n : Nat} {es : List Diary.Entry}
      (there : w.composites.contains c = true) (idle : (w.flags c).calling = false)
      (ran : Run.partChanged (machine host rounds depth) c w = (.ok (), w'))
      (within : Diary.Rounds host rounds c depth true n (w.setCalling c true) es w') :
      Diary host rounds c w (.reported :: es) w'
  | trans {w w' w'' : World η} {es es' : List Diary.Entry} (first : Diary host rounds c w es w')
      (second : Diary host rounds c w' es' w'') : Diary host rounds c w (es ++ es') w''

/-- The rounds in which the composite `c` handles changes.  After `n` of them it goes on since
another change was reported meanwhile; and then it is through, if `through` says so. -/
inductive Diary.Rounds (host : Host η) (rounds : Nat) (c : Ref .composite) :
    Nat → Bool → Nat → World η → List Diary.Entry → World η → Prop
  | start {w : World η} {depth : Nat} : Diary.Rounds host rounds c depth false 0 w [] w
  | again {w w₁ w₂ w' : World η} {depth n : Nat} {through : Bool} {es es' es'' : List Diary.Entry}
      (round : Run.Round (machine host rounds depth) c w w₁ w₂)
      (first : Diary host rounds c w es w₁) (second : Diary host rounds c w₁ es' w₂)
      (more : (w₂.flags c).rerun = true)
      (rest : Diary.Rounds host rounds c depth through n (w₂.setRerun c false) es'' w') :
      Diary.Rounds host rounds c depth through (n + 1) w (Diary.round es es' ++ es'') w'
  | last {w w₁ w₂ : World η} {depth : Nat} {es es' : List Diary.Entry}
      (round : Run.Round (machine host rounds depth) c w w₁ w₂)
      (first : Diary host rounds c w es w₁) (second : Diary host rounds c w₁ es' w₂)
      (done : (w₂.flags c).rerun = false) :
      Diary.Rounds host rounds c depth true 0 w (Diary.round es es') (w₂.setCalling c false)

end

/-! ### What diaries say -/

namespace Diary

/-- What the entries of a composite that handled changes say. -/
structure Sound (es : List Entry) : Prop where
  /-- No evaluation begins within another one. -/
  single : ∀ p, p <+: es → p.count .evaluates ≤ p.count .evaluated + 1
  /-- Every report is followed by an evaluation that begins after it. -/
  answered : ∀ s, .reported :: s <:+ es → .evaluates ∈ s
  /-- Every evaluation is followed by a pass. -/
  passed : ∀ s, .evaluates :: s <:+ es → [.evaluated, .connects, .connected].Sublist s

variable {host : Host η} {rounds : Nat} {c : Ref .composite}

/-- **A composite that is busy** does nothing but note that it was told. -/
theorem busy : ∀ {w es w'}, Diary host rounds c w es w' → ∀ r, w.flags c = ⟨true, r⟩ →
    ∃ n, es = List.replicate n .reported ∧ w'.flags c = ⟨true, r || n != 0⟩
  | _, _, _, .aside same, r, busy => ⟨0, rfl, by simp [same, busy]⟩
  | _, _, _, .marked calling ran, r, _ => by
    rw [Run.partChanged_of_busy _ calling] at ran
    cases ran
    refine ⟨1, rfl, ?_⟩
    rw [World.flags_setRerun (World.contains_of_calling calling), calling]
    simp
  | _, _, _, .handled _ idle _ _, r, isBusy => by
    rw [isBusy] at idle
    cases idle
  | _, _, _, .trans first second, r, busy => by
    obtain ⟨n, rfl, busy'⟩ := Diary.busy first r busy
    obtain ⟨n', rfl, busy''⟩ := Diary.busy second _ busy'
    refine ⟨n + n', List.replicate_append_replicate, ?_⟩
    rw [busy'']
    cases r <;> cases n <;> cases n' <;> simp

/-! ### Rounds -/

section
variable {rest : List Entry} {n n' : Nat}

/-- The entries of a round in which nothing but reports was noted meanwhile. -/
def plainRound (n n' : Nat) : List Entry :=
  round (List.replicate n .reported) (List.replicate n' .reported)

theorem count_plainRound (n n' : Nat) (e : Entry) :
    (plainRound n n').count e = if e = .reported then n + n' else 1 := by
  cases e <;> simp [plainRound, round, List.count_append, List.count_replicate]

theorem single_plainRound
    (single : ∀ p, p <+: rest → p.count .evaluates ≤ p.count .evaluated + 1) {p : List Entry}
    (h : p <+: plainRound n n' ++ rest) : p.count .evaluates ≤ p.count .evaluated + 1 := by
  rcases List.prefix_or_prefix_of_prefix h (List.prefix_append (plainRound n n') rest) with
    within | ⟨q, rfl⟩
  · have few := within.count_le .evaluates
    rw [count_plainRound] at few
    exact Nat.le_add_left_of_le few
  · have further := single q ((List.prefix_append_right_inj _).1 h)
    rw [List.count_append, List.count_append, count_plainRound, count_plainRound]
    simp only [reduceCtorEq, if_false]
    omega

theorem passed_plainRound
    (passed : ∀ s, .evaluates :: s <:+ rest → [.evaluated, .connects, .connected].Sublist s)
    {s : List Entry} (h : .evaluates :: s <:+ plainRound n n' ++ rest) :
    [.evaluated, .connects, .connected].Sublist s := by
  let begun : List Entry := List.replicate n .reported ++
    .evaluated :: .connects :: (List.replicate n' .reported ++ [.connected])
  have once : .evaluates ∉ begun := by simp [begun]
  rcases List.suffix_cons_iff.1 h with first | ⟨t, later⟩
  · have is : s = begun ++ rest := (List.cons_eq_cons.1 first).2
    have pass : [.evaluated, .connects, .connected].Sublist begun :=
      List.sublist_append_of_sublist_right
        (.cons_cons _ (.cons_cons _ (List.sublist_append_right _ _)))
    exact is ▸ pass.trans (List.sublist_append_left begun rest)
  · rcases List.append_eq_append_iff.1 later with ⟨u, is, within⟩ | ⟨u, -, within⟩
    · cases u with
      | nil => exact passed s (within ▸ List.suffix_refl _)
      | cons e u =>
        obtain ⟨rfl, -⟩ := List.cons_eq_cons.1 within
        refine absurd ?_ once
        rw [show begun = t ++ .evaluates :: u from is]
        simp
    · exact passed s ⟨u, within.symm⟩

theorem answered_plainRound (answered : ∀ s, .reported :: s <:+ rest → .evaluates ∈ s)
    (evaluates : .evaluates ∈ rest) {s : List Entry}
    (h : .reported :: s <:+ plainRound n n' ++ rest) :
    .evaluates ∈ s := by
  rcases List.suffix_or_suffix_of_suffix h (List.suffix_append (plainRound n n') rest) with
    within | before
  · exact answered s within
  · rcases List.suffix_cons_iff.1 before with same | before
    · exact answered s (same ▸ List.suffix_refl _)
    · exact before.mem evaluates

/-- A round that is followed by another. -/
theorem Sound.again (sound : Sound rest) (evaluates : .evaluates ∈ rest) :
    Sound (plainRound n n' ++ rest) :=
  ⟨fun _ => single_plainRound sound.single,
    fun _ => answered_plainRound sound.answered evaluates, fun _ => passed_plainRound sound.passed⟩

/-- A round in which nothing is reported. -/
theorem sound_plainRound : Sound (plainRound 0 0) := by
  have single : ∀ p : List Entry, p <+: [] → p.count .evaluates ≤ p.count .evaluated + 1 :=
    fun p h => by simp [List.prefix_nil.1 h]
  have passed : ∀ s : List Entry, .evaluates :: s <:+ [] →
      [.evaluated, .connects, .connected].Sublist s := fun s h => by simp at h
  rw [← List.append_nil (plainRound 0 0)]
  refine ⟨fun _ => single_plainRound single, fun s h => ?_, fun _ => passed_plainRound passed⟩
  have reported : .reported ∈ plainRound 0 0 ++ [] := h.mem (List.mem_cons_self ..)
  simp [plainRound, round] at reported

/-- The report that a composite begins to handle is answered as well. -/
theorem Sound.reported {es : List Entry} (sound : Sound es) (evaluates : .evaluates ∈ es) :
    Sound (.reported :: es) where
  single p h := by
    cases p with
    | nil => simp
    | cons e p =>
      obtain ⟨rfl, within⟩ := List.cons_prefix_cons.1 h
      simpa using sound.single p within
  answered s h := by
    rcases List.suffix_cons_iff.1 h with first | later
    · exact (List.cons_eq_cons.1 first).2 ▸ evaluates
    · exact sound.answered s later
  passed s h := by
    rcases List.suffix_cons_iff.1 h with first | later
    · cases (List.cons_eq_cons.1 first).1
    · exact sound.passed s later

end

/-- What a busy composite is through a round. -/
theorem flags_round {w w₁ w₂ : World η} {es es' : List Entry} (first : Diary host rounds c w es w₁)
    (second : Diary host rounds c w₁ es' w₂) {r : Bool} (isBusy : w.flags c = ⟨true, r⟩) :
    ∃ a b, round es es' = plainRound a b ∧ w₂.flags c = ⟨true, r || a + b != 0⟩ := by
  obtain ⟨a, rfl, busy₁⟩ := busy first r isBusy
  obtain ⟨b, rfl, busy₂⟩ := busy second _ busy₁
  refine ⟨a, b, rfl, busy₂.trans ?_⟩
  cases r <;> cases a <;> cases b <;> simp

/-- **What the rounds of a busy composite come to.**  It is clear when it is through, and in every
round but the last one something was reported, or before the first. -/
theorem Rounds.of_busy : ∀ {depth through n w es w'},
    Rounds host rounds c depth through n w es w' → ∀ r, w.flags c = ⟨true, r⟩ →
      (through = true → (w'.composites.contains c = true ∧ w'.flags c = .clear) ∧
          Sound es ∧ .evaluates ∈ es) ∧
        n ≤ es.count .reported + r.toNat
  | _, _, _, _, _, _, .start, r, _ => ⟨nofun, Nat.zero_le _⟩
  | _, _, _, _, _, _, .again _ first second more rest, r, isBusy => by
    obtain ⟨a, b, plain, busy₂⟩ := flags_round first second isBusy
    have there := World.contains_of_calling (congrArg Flags.calling busy₂)
    have again := World.flags_setRerun there false
    rw [busy₂] at again more
    obtain ⟨settled, few⟩ := Rounds.of_busy rest false again
    rw [plain]
    refine ⟨fun through => ?_, ?_⟩
    · obtain ⟨clear, sound, evaluates⟩ := settled through
      exact ⟨clear, sound.again evaluates, List.mem_append_right _ evaluates⟩
    · have some : 1 ≤ a + b + r.toNat := by
        cases r with
        | true => simp
        | false => simpa [Nat.one_le_iff_ne_zero] using more
      rw [List.count_append, count_plainRound, if_pos rfl]
      simp only [Bool.toNat_false] at few
      omega
  | _, _, _, _, _, _, .last _ first second done, r, isBusy => by
    obtain ⟨a, b, plain, busy₂⟩ := flags_round first second isBusy
    have there := World.contains_of_calling (congrArg Flags.calling busy₂)
    have left := World.flags_setCalling there false
    rw [done] at left
    rw [busy₂] at done
    obtain ⟨-, rfl, rfl⟩ : r = false ∧ a = 0 ∧ b = 0 := by simpa using done
    refine ⟨fun _ => ⟨⟨?_, left⟩, plain ▸ sound_plainRound, List.mem_cons_self ..⟩, Nat.zero_le _⟩
    rwa [World.contains_setCalling]

/-- **A composite that is clear** is clear again. -/
theorem clear : ∀ {w es w'}, Diary host rounds c w es w' → w.flags c = .clear → w'.flags c = .clear
  | _, _, _, .aside same, isClear => same.trans isClear
  | _, _, _, .marked busy _, isClear => by
    rw [isClear] at busy
    cases busy
  | _, _, _, .handled there _ _ within, _ =>
    ((within.of_busy _ (World.flags_setCalling there true)).1 rfl).1.2
  | _, _, _, .trans first second, isClear => Diary.clear second (Diary.clear first isClear)

end Diary

/-! ### Hosts -/

/-- A relation that minds nothing but the flags of the composite `c`. -/
structure Heedless (c : Ref .composite) (T : World η → World η → Prop) : Prop where
  still : ∀ {w w' : World η}, w'.flags c = w.flags c → T w w'
  trans : ∀ {w w' w'' : World η}, T w w' → T w' w'' → T w w''

/-- The computation touches the flags of `c` through its environment only, or by telling `c` that a
part of it has changed. -/
def Run.Reports (c : Ref .composite) (env : Env η) (x : Run η α) : Prop :=
  ∀ T : World η → World η → Prop, Heedless c T → env.Moves T → (Run.partChanged env c).Moves T →
    x.Moves T

/-- A host whose functions and hooks do no more about the composite `c` than that, and whose
converters do nothing about it.  Its hooks have nobody to fail to. -/
structure Host.Reports (host : Host η) (c : Ref .composite) : Prop where
  call : ∀ env f this args, (host.call env f this args).Reports c env
  convert : ∀ converter direction v args w,
    (host.convert converter direction v args w).2.flags c = w.flags c
  fire : ∀ env hook occasion, (host.fire env hook occasion).Reports c env
  unfailing : ∀ env hook occasion, (host.fire env hook occasion).Unfailing

namespace Run

variable {c : Ref .composite} {env : Env η} {x : Run η α} {T : World η → World η → Prop}

theorem Observes.moves (h : x.Observes (· = c) env) (H : Heedless c T) (E : env.Moves T) :
    x.Moves T := h.moves_of (fun _ same => H.still (same c rfl)) H.trans E

theorem Observes.reports (h : x.Observes (· = c) env) : x.Reports c env :=
  fun _ H E _ => h.moves H E

/-- **Whoever is told something** reports to a composite, if anything. -/
theorem reports_react (s : Subscriber) (new old : Value) : (react env s new old).Reports c env := by
  by_cases is : s = .part c
  · exact is ▸ fun _ _ _ R => R
  · have other : ∀ k, s = .part k → ¬ k = c := fun k told same => is (same ▸ told)
    exact (observes_react other new old).reports

end Run

namespace Host.Reports

variable {host : Host η} {rounds : Nat} {c : Ref .composite} {T : World η → World η → Prop}

/-- **The callbacks of a machine** with a host that reports move the world as reports do. -/
theorem moves_machine (reports : host.Reports c) (H : Heedless c T)
    (R : ∀ depth, (machine host rounds depth).Moves T →
      (Run.partChanged (machine host rounds depth) c).Moves T) :
    ∀ depth, (machine host rounds depth).Moves T := by
  have convert : ∀ converter direction v args, (host.convert converter direction v args).Moves T :=
    fun converter direction v args w => by
      have same := reports.convert converter direction v args w
      generalize host.convert converter direction v args w = result at same
      obtain ⟨a | e | _ | _, w'⟩ := result
      · exact H.still same
      · exact H.still same
      · trivial
      · trivial
  have look : host.look.Moves T := fun w => H.still rfl
  intro depth
  induction depth with
  | zero =>
    exact ⟨fun _ _ _ _ => trivial, convert, fun _ _ _ => trivial, fun _ _ _ _ => trivial,
      fun _ _ _ => trivial, look⟩
  | succ depth ih =>
    exact ⟨fun f this args => reports.call _ f this args T H ih (R depth ih), convert,
      fun hook occasion => reports.fire _ hook occasion T H ih (R depth ih),
      fun s new old => Run.reports_react s new old T H ih (R depth ih),
      fun observer s => (Run.observes_subscribe observer s).moves H ih, look⟩

end Host.Reports

/-! ### Keeping a diary -/

/-- Some diary records what happens to the composite between two worlds. -/
def World.Recorded (host : Host η) (rounds : Nat) (c : Ref .composite) (w w' : World η) : Prop :=
  ∃ es, Diary host rounds c w es w'

section
variable {host : Host η} {rounds : Nat} {c : Ref .composite} {depth : Nat}

theorem World.heedless_recorded : Heedless c (World.Recorded host rounds c) where
  still same := ⟨[], .aside same⟩
  trans := by
    rintro w w' w'' ⟨es, first⟩ ⟨es', second⟩
    exact ⟨es ++ es', first.trans second⟩

/-- A round is recorded. -/
theorem Run.Round.recorded {w w₁ w₂ : World η} (round : Round (machine host rounds depth) c w w₁ w₂)
    (E : (machine host rounds depth).Moves (World.Recorded host rounds c)) :
    World.Recorded host rounds c w w₁ ∧ World.Recorded host rounds c w₁ w₂ := by
  obtain ⟨evaluated, result, connected⟩ := round
  have H : Heedless c (World.Recorded host rounds c) := World.heedless_recorded
  exact ⟨((Notifies.reevaluate c).observes.moves H E).of_eq_ok evaluated,
    ((observes_reconnect c _).moves H E).attempt.of_eq_ok connected⟩

/-- **What a composite does until no change is left** is recorded by rounds.  It comes to no end
only if it goes through as many rounds as it may, or a round comes to no end. -/
theorem Diary.of_settle (E : (machine host rounds depth).Moves (World.Recorded host rounds c)) :
    ∀ k w, (∀ w', Run.settle (machine host rounds depth) c k w = (.ok (), w') →
        ∃ n es, Rounds host rounds c depth true n w es w') ∧
      ((∃ w', Run.settle (machine host rounds depth) c k w = (.ok (), w')) ∨
        ∃ n es v, Rounds host rounds c depth false n w es v ∧
          (n = k ∨ ∀ v₁ v₂, ¬ Run.Round (machine host rounds depth) c v v₁ v₂)) := by
  intro k
  induction k with
  | zero => exact fun w => ⟨nofun, .inr ⟨0, [], w, .start, .inl rfl⟩⟩
  | succ k ih =>
    intro w
    by_cases goes : ∃ w₁ w₂, Run.Round (machine host rounds depth) c w w₁ w₂
    · obtain ⟨w₁, w₂, round⟩ := goes
      obtain ⟨⟨es, first⟩, es', second⟩ := round.recorded E
      rw [round.settle_succ]
      by_cases more : (w₂.flags c).rerun = true
      · rw [if_pos more]
        obtain ⟨ends, comes⟩ := ih (w₂.setRerun c false)
        refine ⟨fun w' ran => ?_, comes.imp id ?_⟩
        · obtain ⟨n, es'', rest⟩ := ends w' ran
          exact ⟨n + 1, _, .again round first second more rest⟩
        · rintro ⟨n, es'', v, rest, why⟩
          exact ⟨n + 1, _, v, .again round first second more rest, why.imp (congrArg (· + 1)) id⟩
      · rw [if_neg more]
        refine ⟨fun w' ran => ?_, .inl ⟨_, rfl⟩⟩
        cases ran
        exact ⟨0, _, .last round first second (Bool.eq_false_iff.2 more)⟩
    · refine ⟨fun w' ran => absurd (Run.exists_round ran) goes, .inr ⟨0, [], w, .start, .inr ?_⟩⟩
      exact fun v₁ v₂ round => goes ⟨v₁, v₂, round⟩

/-- **A report** is recorded. -/
theorem Diary.moves_partChanged (sound : (machine host rounds depth).Unfailing)
    (E : (machine host rounds depth).Moves (World.Recorded host rounds c)) :
    (Run.partChanged (machine host rounds depth) c).Moves (World.Recorded host rounds c) := by
  intro w
  have unfailing := Run.unfailing_partChanged sound c w
  generalize ran : Run.partChanged (machine host rounds depth) c w = result at unfailing
  obtain ⟨⟨⟩ | e | _ | _, w'⟩ := result
  · change World.Recorded host rounds c w w'
    by_cases calling : (w.flags c).calling = true
    · exact ⟨_, .marked calling ran⟩
    · have idle : (w.flags c).calling = false := Bool.eq_false_iff.2 calling
      by_cases there : w.composites.contains c = true
      · have settles := ran
        rw [Run.partChanged_of_idle _ there idle] at settles
        obtain ⟨n, es, within⟩ := (Diary.of_settle E _ _).1 w' settles
        exact ⟨_, .handled there idle ran within⟩
      · rw [Run.partChanged_of_gone _ (Bool.eq_false_iff.2 there)] at ran
        cases ran
        exact ⟨[], .aside rfl⟩
  · exact unfailing.elim
  · trivial
  · trivial

/-- **Whatever a host that reports does** is recorded, however deep its calls nest. -/
theorem Host.Reports.recorded (reports : host.Reports c) :
    ∀ depth, (machine host rounds depth).Moves (World.Recorded host rounds c) :=
  reports.moves_machine World.heedless_recorded fun depth =>
    Diary.moves_partChanged (Run.unfailing_machine reports.unfailing rounds depth)

/-- **No report is lost.**  A composite that handles nothing is told that a part of it has changed,
and more reports may come while it evaluates, tells its followers or passes over its parts, however
these end.

It comes to an end, unless it goes through as many rounds as it may, with a report in each, or a
round comes to no end.  At the end it has gone through rounds.  And whatever rounds it goes through,
no evaluation begins within another one, every report is followed by an evaluation that begins after
it and every evaluation by a pass, and at the end the composite handles nothing and no report is
left. -/
theorem Host.Reports.no_report_is_lost (reports : host.Reports c) (rounds depth : Nat)
    {w : World η} (there : w.composites.contains c = true) (idle : (w.flags c).calling = false) :
    ((∃ w', Run.partChanged (machine host rounds depth) c w = (.ok (), w')) ∨
      ∃ n es v, Diary.Rounds host rounds c depth false n (w.setCalling c true) es v ∧
        (n = rounds ∧ rounds ≤ es.count .reported + (w.flags c).rerun.toNat ∨
          ∀ v₁ v₂, ¬ Run.Round (machine host rounds depth) c v v₁ v₂)) ∧
    (∀ w', Run.partChanged (machine host rounds depth) c w = (.ok (), w') →
      ∃ n es, Diary.Rounds host rounds c depth true n (w.setCalling c true) es w') ∧
    ∀ n es w', Diary.Rounds host rounds c depth true n (w.setCalling c true) es w' →
      Diary.Sound (.reported :: es) ∧ w'.composites.contains c = true ∧ w'.flags c = .clear := by
  have busy := World.flags_setCalling there true
  have loops : (machine host rounds depth).rounds = rounds := by cases depth <;> rfl
  obtain ⟨ends, comes⟩ := Diary.of_settle (reports.recorded depth) rounds (w.setCalling c true)
  rw [Run.partChanged_of_idle _ there idle, loops]
  refine ⟨comes.imp id ?_, ends, fun n es w' within => ?_⟩
  · rintro ⟨n, es, v, within, why⟩
    refine ⟨n, es, v, within, why.imp (fun all => ⟨all, ?_⟩) id⟩
    exact all ▸ (within.of_busy _ busy).2
  · obtain ⟨clear, sound, evaluates⟩ := (within.of_busy _ busy).1 rfl
    exact ⟨sound.reported evaluates, clear⟩

/-- **Composites are clear** wherever a host that reports leaves an engine, with a result or with a
failure, so the next report finds them idle. -/
theorem Host.Reports.clear (reports : host.Reports c) (rounds depth : Nat) {x : Run η α}
    (h : x.Reports c (machine host rounds depth)) :
    x.Moves fun w w' => w.flags c = .clear → w'.flags c = .clear := by
  have E : (machine host rounds depth).Moves (World.Recorded host rounds c) :=
    reports.recorded depth
  have R := Diary.moves_partChanged (Run.unfailing_machine reports.unfailing rounds depth) E
  intro w
  have recorded := h _ World.heedless_recorded E R w
  generalize x w = result at recorded
  obtain ⟨a | e | _ | _, w'⟩ := result
  · exact fun isClear => recorded.elim fun _ diary => diary.clear isClear
  · exact fun isClear => recorded.elim fun _ diary => diary.clear isClear
  · trivial
  · trivial

end

/-! ### A follower that changes another part -/

/-- A host that keeps what its hook is told.  When the hook finds that `b` is still what it was, it
changes `b` and has the change delivered at once. -/
def Host.relaying : Host (List Value) where
  call _ _ _ _ := pure .undefined
  convert _ _ _ _ := pure none
  fire env _ occasion := do
    Run.modify fun w => { w with host := w.host ++ [match occasion with
      | .changed new _ => new
      | _ => .undefined] }
    let b ← Run.read fun w => w.get ⟨0⟩ "b"
    if b = .string "y" then
      Run.modify fun w => w.set ⟨0⟩ "b" (.string "z")
      Run.ignoreFailure (Run.deliver env ⟨0⟩)
    else pure ()
  late w := (false, w.host)

theorem relaying_reports (c : Ref .composite) : Host.relaying.Reports c where
  call _ _ _ _ := (Run.observes_pure _).reports
  convert _ _ _ _ _ := rfl
  fire env _ _ := by
    refine Run.Observes.reports ((Run.observes_modify ?_).bind fun _ =>
      (Run.observes_read _).bind fun b => Run.observes_ite ?_ (Run.observes_pure _))
    · exact fun w => rfl
    · exact (Run.observes_modify (by simp)).bind fun _ => (Run.observes_deliver _).ignoreFailure
  unfailing env _ _ := (Run.unfailing_modify _).bind fun _ => (Run.unfailing_read _).bind fun _ =>
    Run.unfailing_ite ((Run.unfailing_modify _).bind fun _ => Run.unfailing_ignoreFailure _)
      (Run.unfailing_pure _)

/-- Both parts of a sum are there, a hook follows the sum, and the first part is changed. -/
def relayed : World (List Value) :=
  let w := (((World.new .standard []).newObject [("a", .string "x"), ("b", .string "y")]).2.newLevel
    (.object ⟨0⟩)).2
  let scope : Scope := .root ⟨.object ⟨0⟩, ⟨1⟩⟩
  let setup : Run (List Value) Unit := do
    discard (Expr.connect (machine .relaying 9 9) .engine scope
      (.binary "+" (.name "a") (.name "b")))
    discard (Run.subscribe (machine .relaying 9 9) (.composite ⟨0⟩) (.hook ⟨0⟩))
    Run.modify (·.set ⟨0⟩ "a" (.string "w"))
  (setup w).2

set_option synthInstance.maxSize 256 in
theorem ends_relayed : (Run.partChanged (machine .relaying 9 9) ⟨0⟩).Ends False relayed fun _ w =>
    w.host = [.string "wy", .string "wz"] := by
  decide +kernel

set_option synthInstance.maxSize 256 in
/-- **A report from within a notification.**  The sum has been told of the first part, and its hook
changes the second one, so the sum is told of both once more.  It evaluates again when the hook has
come to an end, and the hook is told of that, too. -/
theorem told_while_telling : Host.relaying.Reports ⟨0⟩ ∧
    relayed.composites.contains ⟨0⟩ = true ∧ (relayed.flags ⟨0⟩).calling = false ∧
    ∃ n es w', Run.partChanged (machine .relaying 9 9) ⟨0⟩ relayed = (.ok (), w') ∧
      w'.host = [.string "wy", .string "wz"] ∧
      Diary.Rounds .relaying 9 ⟨0⟩ 9 true n (relayed.setCalling ⟨0⟩ true) es w' ∧
      Diary.Sound (.reported :: es) ∧ w'.composites.contains ⟨0⟩ = true ∧
      w'.flags ⟨0⟩ = .clear := by
  have there : relayed.composites.contains ⟨0⟩ = true := by decide +kernel
  have idle : (relayed.flags ⟨0⟩).calling = false := by decide +kernel
  obtain ⟨-, records, sound⟩ := (relaying_reports ⟨0⟩).no_report_is_lost 9 9 there idle
  obtain ⟨⟨⟩, w', ran, told⟩ := ends_relayed.exists_eq_ok
  obtain ⟨n, es, within⟩ := records w' ran
  exact ⟨relaying_reports ⟨0⟩, there, idle, n, es, w', ran, told, within, sound n es w' within⟩

end ViewBinding
