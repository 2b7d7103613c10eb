import ViewBinding.Proofs.Queue.Scripts

/-!
# Queue — the books and the course of events

`World.Balanced` is what the queue of connects keeps in step: the bindings that wait, the set of
them, the mark that a flush is requested, and the requests in the frames.  While a flush runs, or an
enqueueing that is about to ask for one, the mark is set and the request is not in the frames; the
number `owed` counts it.

`Course` is how a computation runs and what happens to the queue on the way: bindings are queued and
bindings are connected, and within a connect more of both may happen.  A course follows the
computation part by part, so it is a run of it (`Course.ran`), and the first that was queued is
the first that is connected (`Course.fifo`).

Every operation of the queue keeps the books and has a course, hence all that a scripted host can
make of an engine (`Script.keeps`).
-/

namespace ViewBinding

variable {η α β : Type}

/-- The bindings that wait are marked as waiting, each once, and a frame is asked for them, where
`owed` requests are still to be made. -/
structure World.Balanced (w : World η) (owed : Nat) : Prop where
  nodup : w.connects.queue.Nodup
  same : w.connects.queued.Perm w.connects.queue
  asked : w.requests + owed = if w.connects.requested then 1 else 0
  closed : w.connects.requested = false → w.connects.queue = [] ∧ w.connects.immediate = 0

/-- What happens to the queue of connects. -/
inductive ConnectQueue.Event where
  | queued (b : Ref .binding)
  | connected (b : Ref .binding)
deriving DecidableEq

/-- The binding that was queued. -/
def ConnectQueue.Event.queued? : Event → Option (Ref .binding)
  | queued b => some b
  | connected _ => none

/-- The binding that was connected. -/
def ConnectQueue.Event.connected? : Event → Option (Ref .binding)
  | queued _ => none
  | connected b => some b

namespace ConnectQueue.Event

@[simp] theorem queued?_queued (b : Ref .binding) : (queued b).queued? = some b := rfl

@[simp] theorem connected?_queued (b : Ref .binding) : (queued b).connected? = none := rfl

end ConnectQueue.Event

/-- The world with another queue of connects. -/
def World.withQueue (w : World η) (q : ConnectQueue) : World η := { w with connects := q }

/-- Counts or queues a binding and marks a flush as requested; tells whether the binding is to be
connected at once and whether the flush is still to be requested. -/
def World.acceptConnect (b : Ref .binding) (w : World η) : (Bool × Bool) × World η :=
  (((w.connects.accept b).1, !(w.connects.accept b).2.requested),
    w.withQueue { (w.connects.accept b).2 with requested := true })

/-- Takes the binding that has waited longest. -/
def World.popConnect (w : World η) : Option (Ref .binding) × World η :=
  match w.connects.pop? with
  | some (b, q) => (some b, w.withQueue q)
  | none => (none, w)

/-- Connects the binding that has waited longest; tells whether there was one. -/
def Run.connectNext (env : Env η) : Run η Bool := do
  match ← update World.popConnect with
  | none => Pure.pure false
  | some b =>
    ignoreFailure (connectBinding env b true)
    Pure.pure true

theorem World.popConnect_of_empty {w : World η} (empty : w.connects.pop? = none) :
    w.popConnect = (none, w) := by
  unfold popConnect
  rw [empty]

theorem World.popConnect_of_popped {w : World η} {b : Ref .binding} {q : ConnectQueue}
    (popped : w.connects.pop? = some (b, q)) : w.popConnect = (some b, w.withQueue q) := by
  unfold popConnect
  rw [popped]

theorem Run.connectNext_of_empty {env : Env η} {w : World η} (empty : w.connects.pop? = none) :
    connectNext env w = (.ok false, w) := by
  unfold connectNext
  simp only [Bind.bind, Run.bind, update, World.popConnect_of_empty empty]
  rfl

theorem Run.connectNext_of_popped {env : Env η} {w : World η} {b : Ref .binding} {q : ConnectQueue}
    (popped : w.connects.pop? = some (b, q)) : connectNext env w =
      (ignoreFailure (connectBinding env b true) >>= fun _ => Pure.pure true) (w.withQueue q) := by
  unfold connectNext
  simp only [Bind.bind, Run.bind, update, World.popConnect_of_popped popped]

/-- The outcome of a computation that comes to an end. -/
def Outcome.of : Except BindingError α → Outcome α
  | .ok a => .ok a
  | .error cause => .error cause

theorem Run.attempt_of_eq {x : Run η α} {w w' : World η} {r : Except BindingError α}
    (ran : x w = (.of r, w')) : x.attempt w = (.ok r, w') := by
  unfold attempt
  rw [ran]
  cases r <;> rfl

theorem Run.ignoreFailure_eq (x : Run η Unit) (w : World η) : ignoreFailure x w =
    match x w with
    | (.ok _, w') => (.ok (), w')
    | (.error _, w') => (.ok (), w')
    | (.overflow, w') => (.overflow, w')
    | (.exhausted, w') => (.exhausted, w') := by
  change Run.bind x.attempt _ w = _
  unfold Run.bind attempt
  rcases x w with ⟨_ | _ | _ | _, _⟩ <;> rfl

/-- How a computation runs from one world to another, with what result, and which events happen to the
queue on the way.  It runs part by part, each from the world that the part before it has left.
Whenever an event happens the books are balanced. -/
inductive Course (host : Host η) (rounds : Nat) : {α : Type} → Run η α → World η →
    List ConnectQueue.Event → Except BindingError α → World η → Prop
  /-- A step that leaves the queue alone in every world. -/
  | still {α : Type} {f : World η → α × World η}
      (same : ∀ w, (f w).2.connects.queue = w.connects.queue) (w : World η) :
      Course host rounds (Run.update f) w [] (.ok (f w).1) (f w).2
  | found {α : Type} {f : World η → Option α} {w : World η} {a : α} (is : f w = some a) :
      Course host rounds (fun w => Run.ofOption (f w) w) w [] (.ok a) w
  | fail {α : Type} (cause : BindingError) (w : World η) :
      Course host rounds (Run.fail cause : Run η α) w [] (.error cause) w
  | bind {α β : Type} {x : Run η α} {f : α → Run η β} {w w' w'' : World η}
      {es es' : List ConnectQueue.Event} {a : α} {r : Except BindingError β}
      (first : Course host rounds x w es (.ok a) w') (second : Course host rounds (f a) w' es' r w'') :
      Course host rounds (x >>= f) w (es ++ es') r w''
  | failed {α β : Type} {x : Run η α} {f : α → Run η β} {w w' : World η}
      {es : List ConnectQueue.Event} {cause : BindingError}
      (first : Course host rounds x w es (.error cause) w') :
      Course host rounds (x >>= f) w es (.error cause) w'
  | attempt {α : Type} {x : Run η α} {w w' : World η} {es : List ConnectQueue.Event}
      {r : Except BindingError α} (course : Course host rounds x w es r w') :
      Course host rounds x.attempt w es (.ok r) w'
  | ensuring {α : Type} {x : Run η α} {f : World η → World η} {w w' : World η}
      {es : List ConnectQueue.Event} {r : Except BindingError α}
      (course : Course host rounds x w es r w')
      (same : ∀ w, (f w).connects.queue = w.connects.queue) :
      Course host rounds (Run.ensuring x f) w es r (f w')
  /-- A binding that is to be connected at once, or waits already, is not queued. -/
  | accepted {w : World η} {b : Ref .binding}
      (same : (w.acceptConnect b).2.connects.queue = w.connects.queue) :
      Course host rounds (Run.update (World.acceptConnect b)) w [] (.ok (w.acceptConnect b).1)
        (w.acceptConnect b).2
  /-- A binding that does not wait is queued behind those that do. -/
  | queued {w : World η} {b : Ref .binding} (books : ∃ owed, w.Balanced owed)
      (fresh : b ∉ w.connects.queue)
      (behind : (w.acceptConnect b).2.connects.queue = w.connects.queue ++ [b]) :
      Course host rounds (Run.update (World.acceptConnect b)) w [.queued b]
        (.ok (w.acceptConnect b).1) (w.acceptConnect b).2
  /-- Nobody waits. -/
  | idle {w : World η} {depth : Nat} (empty : w.connects.pop? = none) :
      Course host rounds (Run.connectNext (machine host rounds depth)) w [] (.ok false) w
  /-- The binding that waited longest is taken out and connected, and more happens meanwhile. -/
  | connected {w w' : World η} {b : Ref .binding} {q : ConnectQueue} {depth : Nat}
      {r : Except BindingError Unit} {es : List ConnectQueue.Event}
      (books : ∃ owed, w.Balanced owed) (popped : w.connects.pop? = some (b, q))
      (inner : Course host rounds (Run.connectBinding (machine host rounds depth) b true)
        (w.withQueue q) es r w') :
      Course host rounds (Run.connectNext (machine host rounds depth)) w (.connected b :: es)
        (.ok true) w'

theorem ConnectQueue.queue_of_pop? {q q' : ConnectQueue} {b : Ref .binding}
    (h : q.pop? = some (b, q')) :
    q.queue = b :: q'.queue ∧ q'.queued = q.queued.erase b ∧ q'.requested = q.requested ∧
      q'.immediate = q.immediate := by
  unfold pop? at h
  split at h
  · cases h
  next found =>
    cases h
    exact ⟨found, rfl, rfl, rfl⟩

/-- What accepting a binding may be: it runs at once, waits already, or is queued. -/
theorem ConnectQueue.accept_cases (q : ConnectQueue) (b : Ref .binding) :
    (q.immediate < q.threshold ∧ q.accept b = (true, { q with immediate := q.immediate + 1 })) ∨
    (q.threshold ≤ q.immediate ∧ b ∈ q.queued ∧ q.accept b = (false, q)) ∨
    (q.threshold ≤ q.immediate ∧ b ∉ q.queued ∧
      q.accept b = (false, { q with queue := q.queue ++ [b], queued := b :: q.queued })) := by
  unfold accept
  split
  next now => exact .inl ⟨now, rfl⟩
  next full =>
    split
    next waits => exact .inr (.inl ⟨by omega, by simpa using waits, rfl⟩)
    next fresh => exact .inr (.inr ⟨by omega, by simpa using fresh, rfl⟩)

theorem ConnectQueue.requested_accept (q : ConnectQueue) (b : Ref .binding) :
    (q.accept b).2.requested = q.requested := by
  obtain ⟨-, e⟩ | ⟨-, -, e⟩ | ⟨-, -, e⟩ := q.accept_cases b <;> rw [e]

theorem ConnectQueue.queue_endCycle (q : ConnectQueue) : q.endCycle.queue = q.queue := by
  unfold endCycle
  split <;> rfl

namespace Course

variable {host : Host η} {rounds : Nat} {x : Run η α} {w w' : World η}
  {es : List ConnectQueue.Event} {r : Except BindingError α}

/-- **A course is a run** of its computation. -/
theorem ran (course : Course host rounds x w es r w') : x w = (.of r, w') := by
  induction course with
  | still _ _ | fail _ _ | accepted _ | queued _ _ _ => rfl
  | found is =>
    dsimp only
    rw [is]
    rfl
  | bind _ _ first second =>
    change Run.bind _ _ _ = _
    unfold Run.bind
    rw [first]
    exact second
  | failed _ first =>
    change Run.bind _ _ _ = _
    unfold Run.bind
    rw [first]
    rfl
  | attempt _ ih => exact Run.attempt_of_eq ih
  | ensuring _ _ ih =>
    unfold Run.ensuring
    rw [ih]
  | idle empty =>
    exact Run.connectNext_of_empty empty
  | @connected _ _ _ _ _ r _ _ popped _ ih =>
    rw [Run.connectNext_of_popped popped]
    simp only [Bind.bind, Run.bind, Run.ignoreFailure_eq, ih]
    cases r <;> rfl

end Course

/-! ### From one condition to another -/

section
variable {host : Host η} {rounds : Nat}

/-- From a world with `P` the computation runs a course.  If it gives a result there is `Q` then, and
if it fails there is `F`. -/
def Run.Follows (host : Host η) (rounds : Nat) (P : World η → Prop) (x : Run η α)
    (Q : α → World η → Prop) (F : World η → Prop) : Prop :=
  ∀ w, P w → match x w with
    | (.ok a, w') => Q a w' ∧ ∃ es, Course host rounds x w es (.ok a) w'
    | (.error cause, w') => F w' ∧ ∃ es, Course host rounds x w es (.error cause) w'
    | _ => True

namespace Run

variable {P : World η → Prop} {Q : α → World η → Prop} {F : World η → Prop} {x : Run η α}

theorem Follows.bind {f : α → Run η β} {R : β → World η → Prop} (h : x.Follows host rounds P Q F)
    (h' : ∀ a, (f a).Follows host rounds (Q a) R F) : (x >>= f).Follows host rounds P R F := by
  intro w p
  have first := h w p
  have unfolded : (x >>= f) w = Run.bind x f w := rfl
  rw [unfolded]
  unfold Run.bind
  generalize x w = result at first
  obtain ⟨a | cause | _ | _, w'⟩ := result
  · obtain ⟨q, es, course⟩ := first
    have second := h' a w' q
    dsimp only at second ⊢
    generalize f a w' = result at second
    obtain ⟨b | cause | _ | _, w''⟩ := result
    · obtain ⟨r, es', course'⟩ := second
      exact ⟨r, es ++ es', course.bind course'⟩
    · obtain ⟨fails, es', course'⟩ := second
      exact ⟨fails, es ++ es', course.bind course'⟩
    · trivial
    · trivial
  · obtain ⟨fails, es, course⟩ := first
    exact ⟨fails, es, course.failed⟩
  · trivial
  · trivial

theorem Follows.mono {Q' : α → World η → Prop} {F' : World η → Prop}
    (h : x.Follows host rounds P Q F) (weaker : ∀ a w, Q a w → Q' a w) (weaker' : ∀ w, F w → F' w) :
    x.Follows host rounds P Q' F' := by
  intro w p
  have before := h w p
  generalize x w = result at before
  obtain ⟨a | cause | _ | _, w'⟩ := result
  · exact before.imp_left (weaker a w')
  · exact before.imp_left (weaker' w')
  · trivial
  · trivial

/-- What does not fail. -/
theorem Follows.of_unfailing {F' : World η → Prop} (h : x.Follows host rounds P Q F)
    (sound : x.Unfailing) : x.Follows host rounds P Q F' := by
  intro w p
  have before := h w p
  have sound := sound w
  generalize x w = result at before sound
  obtain ⟨a | cause | _ | _, w'⟩ := result
  · exact before
  · exact sound.elim
  · trivial
  · trivial

theorem Follows.attempt {R : World η → Prop} (h : x.Follows host rounds P (fun _ => R) R) :
    x.attempt.Follows host rounds P (fun _ => R) F := by
  intro w p
  have before := h w p
  unfold Run.attempt
  generalize x w = result at before
  obtain ⟨a | cause | _ | _, w'⟩ := result
  · obtain ⟨r, es, course⟩ := before
    exact ⟨r, es, course.attempt⟩
  · obtain ⟨r, es, course⟩ := before
    exact ⟨r, es, course.attempt⟩
  · trivial
  · trivial

theorem Follows.ensuring {R : World η → Prop} {f : World η → World η}
    (h : x.Follows host rounds P (fun _ => R) R)
    (same : ∀ w, (f w).connects.queue = w.connects.queue) (after : ∀ w, R w → R (f w)) :
    (ensuring x f).Follows host rounds P (fun _ => R) R := by
  intro w p
  have before := h w p
  unfold Run.ensuring
  generalize x w = result at before
  obtain ⟨a | cause | _ | _, w'⟩ := result
  · obtain ⟨r, es, course⟩ := before
    exact ⟨after w' r, es, course.ensuring same⟩
  · obtain ⟨r, es, course⟩ := before
    exact ⟨after w' r, es, course.ensuring same⟩
  · trivial
  · trivial

theorem follows_still {f : World η → α × World η}
    (same : ∀ w, (f w).2.connects.queue = w.connects.queue) (after : ∀ w, P w → Q (f w).1 (f w).2) :
    (update f).Follows host rounds P Q F := fun w p => ⟨after w p, [], .still same w⟩

theorem follows_modify {f : World η → World η} {R : World η → Prop}
    (same : ∀ w, (f w).connects.queue = w.connects.queue) (after : ∀ w, P w → R (f w)) :
    (modify f).Follows host rounds P (fun _ => R) F :=
  follows_still (f := fun w => ((), f w)) same after

theorem follows_read (f : World η → α) (after : ∀ w, P w → Q (f w) w) :
    (read f).Follows host rounds P Q F := follows_still (f := fun w => (f w, w)) (fun _ => rfl) after

theorem follows_pure (a : α) : (Pure.pure a : Run η α).Follows host rounds P (fun _ => P) F :=
  follows_read (fun _ => a) fun _ p => p

theorem follows_cutOff : (cutOff : Run η α).Follows host rounds P Q F := fun _ _ => trivial

theorem follows_ite {c : Prop} [Decidable c] {x y : Run η α} (h : c → x.Follows host rounds P Q F)
    (h' : ¬c → y.Follows host rounds P Q F) : (if c then x else y).Follows host rounds P Q F := by
  split
  next yes => exact h yes
  next no => exact h' no

theorem Follows.ignoreFailure {x : Run η Unit} {R : World η → Prop}
    (h : x.Follows host rounds P (fun _ => R) R) :
    (ignoreFailure x).Follows host rounds P (fun _ => R) F := h.attempt.bind fun _ => follows_pure _

end Run

/-! ### Beneath the bindings -/

/-- Wherever the computation comes to an end it has run a course, and the books are as balanced as
before. -/
def Run.Booked (host : Host η) (rounds : Nat) (x : Run η α) : Prop :=
  ∀ owed, x.Follows host rounds (·.Balanced owed) (fun _ w => w.Balanced owed) (·.Balanced owed)

/-- The callbacks run courses and keep the books. -/
structure Env.Booked (host : Host η) (rounds : Nat) (env : Env η) : Prop where
  call : ∀ f this args, (env.call f this args).Booked host rounds
  convert : ∀ c direction v args, (env.convert c direction v args).Booked host rounds
  fire : ∀ hook occasion, (env.fire hook occasion).Booked host rounds
  announce : ∀ s new old, (env.announce s new old).Booked host rounds
  subscribe : ∀ observer s, (env.subscribe observer s).Booked host rounds
  late : env.late.Booked host rounds

theorem World.Balanced.aside {w w' : World η} {owed : Nat} (books : w.Balanced owed)
    (connects : w'.connects = w.connects) (requests : w'.requests = w.requests) :
    w'.Balanced owed := by
  obtain ⟨nodup, same, asked, closed⟩ := books
  exact ⟨connects ▸ nodup, connects ▸ same, by rw [connects, requests, asked], connects ▸ closed⟩

theorem World.Balanced.of_layer {w w' : World η} {owed : Nat} (books : w.Balanced owed)
    (same : w'.layer = w.layer) : w'.Balanced owed :=
  books.aside (congrArg Layer.connects same) (congrArg Layer.requests same)

namespace Run

variable {env : Env η} {x : Run η α}

theorem Booked.bind (h : x.Booked host rounds) {f : α → Run η β}
    (h' : ∀ a, (f a).Booked host rounds) : (x >>= f).Booked host rounds :=
  fun owed => (h owed).bind fun a => h' a owed

theorem Booked.attempt (h : x.Booked host rounds) : x.attempt.Booked host rounds :=
  fun owed => (h owed).attempt

theorem booked_update {f : World η → α × World η}
    (h : ∀ w, (f w).2.connects = w.connects ∧ (f w).2.requests = w.requests) :
    (update f).Booked host rounds := fun _ =>
  follows_still (fun w => congrArg ConnectQueue.queue (h w).1) fun w books =>
    books.aside (h w).1 (h w).2

/-- **What works beneath the bindings** runs a course and keeps the books, as its callbacks do. -/
theorem Beneath.booked (h : Beneath env x) (E : env.Booked host rounds) : x.Booked host rounds := by
  induction h with
  | step layer _ =>
    exact booked_update fun w => ⟨congrArg Layer.connects (layer w), congrArg Layer.requests (layer w)⟩
  | inspect f =>
    intro owed w books
    dsimp only
    cases is : f w with
    | none => trivial
    | some a => exact ⟨books, [], .found is⟩
  | fail cause => exact fun owed w books => ⟨books, [], .fail cause w⟩
  | breakOff => exact fun _ _ _ => trivial
  | cutOff => exact fun _ => follows_cutOff
  | call f this args => exact E.call f this args
  | convert c direction v args => exact E.convert c direction v args
  | fire hook occasion => exact E.fire hook occasion
  | announce s new old => exact E.announce s new old
  | subscribe observer s => exact E.subscribe observer s
  | bind _ _ first next => exact first.bind next
  | attempt _ ih => exact ih.attempt
  | ensuring _ same ih =>
    have layer := fun w => World.layer_of_canopy (same w)
    exact fun owed => (ih owed).ensuring
      (fun w => congrArg (·.connects.queue) (layer w)) fun w books => books.of_layer (layer w)

end Run

/-! ### Enqueueing -/

namespace World

variable {w : World η} {owed : Nat} {b : Ref .binding}

/-- Accepting a binding marks a flush as requested, and owes the request if there was none. -/
theorem Balanced.accept (books : w.Balanced owed) (b : Ref .binding) :
    (w.acceptConnect b).2.Balanced (owed + if (w.acceptConnect b).1.2 then 1 else 0) := by
  have balance : ∀ q : ConnectQueue, q.queue.Nodup → q.queued.Perm q.queue →
      (w.withQueue { q with requested := true }).Balanced
        (owed + if !w.connects.requested then 1 else 0) := fun q nodup same => by
    refine ⟨nodup, same, ?_, fun h => nomatch h⟩
    have := books.asked
    change w.requests + _ = 1
    split at this <;> simp_all
  unfold acceptConnect
  rw [ConnectQueue.requested_accept]
  obtain ⟨-, e⟩ | ⟨-, -, e⟩ | ⟨-, fresh, e⟩ := w.connects.accept_cases b
  · rw [e]
    exact balance _ books.nodup books.same
  · rw [e]
    exact balance _ books.nodup books.same
  · have fresh : b ∉ w.connects.queue := fun h => fresh (books.same.mem_iff.mpr h)
    rw [e]
    refine balance _ ?_ ((books.same.cons b).trans (List.perm_append_singleton b _).symm)
    refine List.nodup_append.mpr ⟨books.nodup, by simp, fun a waits c single => ?_⟩
    rintro rfl
    exact fresh (List.mem_singleton.mp single ▸ waits)

/-- What happens when a binding is accepted. -/
theorem Balanced.course_accept (books : w.Balanced owed) (b : Ref .binding) :
    ∃ es, Course host rounds (Run.update (acceptConnect b)) w es (.ok (w.acceptConnect b).1)
      (w.acceptConnect b).2 := by
  obtain ⟨-, e⟩ | ⟨-, -, e⟩ | ⟨-, fresh, e⟩ := w.connects.accept_cases b
  · exact ⟨[], .accepted (by simp [acceptConnect, withQueue, e])⟩
  · exact ⟨[], .accepted (by simp [acceptConnect, withQueue, e])⟩
  · exact ⟨[.queued b], .queued ⟨owed, books⟩ (fun h => fresh (books.same.mem_iff.mpr h))
      (by simp [acceptConnect, withQueue, e])⟩

/-- A flush that is owed was marked. -/
theorem Balanced.requested (books : w.Balanced (owed + 1)) : w.connects.requested = true := by
  have := books.asked
  split at this
  · assumption
  · omega

/-- Making a request that is owed. -/
theorem Balanced.request (books : w.Balanced (owed + 1)) :
    (w.requestFrame .connects).Balanced owed := by
  obtain ⟨nodup, same, asked, closed⟩ := books
  refine ⟨nodup, same, ?_, closed⟩
  have one : (w.requestFrame .connects).requests = w.requests + 1 := by
    simp [World.requests, World.requestFrame]
  rw [one, show (w.requestFrame .connects).connects = w.connects from rfl, ← asked]
  omega

/-- Ending a cycle leaves a request to be made only if something waits. -/
theorem Balanced.endCycle (books : w.Balanced (owed + 1)) :
    (w.withQueue w.connects.endCycle).Balanced
      (owed + if w.connects.endCycle.size = 0 then 0 else 1) := by
  have asked := books.asked
  rw [books.requested, if_pos rfl] at asked
  unfold ConnectQueue.endCycle
  split
  next empty =>
    have empty := List.isEmpty_iff.mp empty
    have none : w.requests = 0 ∧ owed = 0 := by omega
    refine ⟨books.nodup, books.same, ?_, fun _ => ⟨empty, rfl⟩⟩
    change w.requests + _ = 0
    simp [ConnectQueue.size, empty, none]
  next waits =>
    have waits : w.connects.size ≠ 0 := by simpa [ConnectQueue.size] using waits
    rw [if_neg waits]
    exact books

/-- Taking the requested tasks out leaves their requests owed. -/
theorem Balanced.takeFrames (books : w.Balanced owed) :
    ({ w with tasks := { w.tasks with frames := [] } } : World η).Balanced
      (owed + w.tasks.frames.count .connects) := by
  obtain ⟨nodup, same, asked, closed⟩ := books
  refine ⟨nodup, same, ?_, closed⟩
  rw [← show w.requests + owed = _ from asked]
  simp [World.requests, Nat.add_comm]

/-- Taking the binding that waited longest leaves the books balanced. -/
theorem Balanced.pop (books : w.Balanced (owed + 1)) {q : ConnectQueue}
    (popped : w.connects.pop? = some (b, q)) :
    (w.withQueue q).Balanced (owed + 1) := by
  obtain ⟨queue, queued, requested, -⟩ := ConnectQueue.queue_of_pop? popped
  have marked := requested.trans books.requested
  obtain ⟨nodup, same, asked, -⟩ := books
  rw [queue] at nodup same
  refine ⟨nodup.of_cons, ?_, ?_, fun h => ?_⟩
  · change q.queued.Perm q.queue
    rw [queued]
    simpa using same.erase b
  · change w.requests + _ = if q.requested then 1 else 0
    rw [asked, requested]
  · cases marked.symm.trans h

end World

section
variable {env : Env η} {b : Ref .binding}

/-- **Enqueueing** runs a course and keeps the books if connecting does. -/
theorem Run.booked_enqueueConnect (connect : (connectBinding env b false).Booked host rounds) :
    (enqueueConnect env b).Booked host rounds := by
  intro owed
  have ask : ∀ request : Bool, (if request then modify fun w : World η => w.requestFrame .connects
      else Pure.pure ()).Follows host rounds (·.Balanced (owed + if request then 1 else 0))
      (fun _ w => w.Balanced owed) (·.Balanced owed) := fun request => by
    cases request with
    | false => exact follows_pure ()
    | true => exact follows_modify (fun _ => rfl) fun w books => books.request
  refine Follows.bind (x := update (World.acceptConnect b))
    (Q := fun (r : Bool × Bool) w => w.Balanced (owed + if r.2 then 1 else 0))
    (fun w books => ⟨books.accept b, books.course_accept b⟩) fun (now, request) => ?_
  exact follows_ite (fun _ => (connect _).ignoreFailure.bind fun _ => ask request)
    fun _ => (follows_pure ()).bind fun _ => ask request

/-! ### Flushing -/

/-- Connecting what waits goes on after each connect, but not when the time is up after a batch. -/
theorem Run.drainConnects_succ (fuel connected : Nat) : drainConnects env (fuel + 1) connected = (do
    if ← connectNext env then
      if (connected + 1) % ConnectQueue.batchSize = 0 then
        if ← env.late then Pure.pure () else drainConnects env fuel (connected + 1)
      else drainConnects env fuel (connected + 1)
    else Pure.pure ()) := by
  funext w
  cases popped : w.connects.pop? with
  | none =>
    simp only [drainConnects, Bind.bind, Run.bind, update, popped, connectNext_of_empty popped]
    rfl
  | some next =>
    obtain ⟨b, q⟩ := next
    simp only [drainConnects, Bind.bind, Run.bind, update, popped, connectNext_of_popped popped]
    rw [show ({ w with connects := q } : World η) = w.withQueue q from rfl]
    rcases ignoreFailure (connectBinding env b true) (w.withQueue q) with ⟨_ | _ | _ | _, _⟩ <;> rfl

end

section
variable {depth : Nat}

/-- **Connecting who has waited longest** runs a course, and the request stays owed. -/
theorem Run.follows_connectNext {F : World η → Prop}
    (connect : ∀ b, (connectBinding (machine host rounds depth) b true).Booked host rounds)
    (owed : Nat) : (connectNext (machine host rounds depth)).Follows host rounds
      (·.Balanced (owed + 1)) (fun _ w => w.Balanced (owed + 1)) F := by
  intro w books
  cases popped : w.connects.pop? with
  | none =>
    rw [connectNext_of_empty popped]
    exact ⟨books, [], .idle popped⟩
  | some next =>
    obtain ⟨b, q⟩ := next
    have connected := connect b (owed + 1) (w.withQueue q) (books.pop popped)
    rw [connectNext_of_popped popped]
    simp only [Bind.bind, Run.bind, ignoreFailure_eq]
    generalize connectBinding (machine host rounds depth) b true (w.withQueue q) = result
      at connected
    obtain ⟨a | cause | _ | _, w'⟩ := result
    · obtain ⟨books', es, inner⟩ := connected
      exact ⟨books', .connected b :: es, .connected ⟨_, books⟩ popped inner⟩
    · obtain ⟨books', es, inner⟩ := connected
      exact ⟨books', .connected b :: es, .connected ⟨_, books⟩ popped inner⟩
    · trivial
    · trivial

/-- Connecting what waits goes on until nobody waits or the time is up. -/
theorem Run.follows_drainConnects {F : World η → Prop}
    (connect : ∀ b, (connectBinding (machine host rounds depth) b true).Booked host rounds)
    (look : ∀ owed, (machine host rounds depth).late.Follows host rounds (·.Balanced owed)
      (fun _ w => w.Balanced owed) F) (owed : Nat) :
    ∀ fuel connected, (drainConnects (machine host rounds depth) fuel connected).Follows host rounds
      (·.Balanced (owed + 1)) (fun _ w => w.Balanced (owed + 1)) F
  | 0, _ => follows_cutOff
  | fuel + 1, connected => by
    have goOn := follows_drainConnects connect look owed fuel (connected + 1)
    rw [drainConnects_succ]
    refine (follows_connectNext connect owed).bind fun more => follows_ite (fun _ => ?_) fun _ =>
      follows_pure ()
    exact follows_ite (fun _ => (look _).bind fun late => follows_ite (fun _ => follows_pure ())
      fun _ => goOn) fun _ => goOn

/-- **A flush** makes up for the request that it was owed to. -/
theorem Run.follows_flushConnects {F : World η → Prop}
    (connect : ∀ b, (connectBinding (machine host rounds depth) b true).Booked host rounds)
    (look : ∀ owed, (machine host rounds depth).late.Follows host rounds (·.Balanced owed)
      (fun _ w => w.Balanced owed) F) (owed : Nat) :
    (flushConnects (machine host rounds depth)).Follows host rounds (·.Balanced (owed + 1))
      (fun _ w => w.Balanced owed) F := by
  let Ended (w : World η) : Prop := w.Balanced (owed + if w.connects.size = 0 then 0 else 1)
  have ended : (modify fun w : World η => w.withQueue w.connects.endCycle).Follows host rounds
      (·.Balanced (owed + 1)) (fun _ => Ended) F :=
    follows_modify (fun w => w.connects.queue_endCycle) fun w books => books.endCycle
  refine (follows_drainConnects connect look owed _ 0).bind fun _ => ended.bind fun _ =>
    (follows_read (Q := fun size w => size = w.connects.size ∧ Ended w) _
      fun w ended => ⟨rfl, ended⟩).bind fun size => follows_ite (fun none => ?_) fun some => ?_
  · refine (follows_pure ()).mono (fun _ w h => ?_) fun _ h => h
    have ended := h.2
    simp only [Ended, ← h.1, none] at ended
    exact ended
  · refine follows_modify (fun _ => rfl) fun w h => ?_
    have ended := h.2
    simp only [Ended, ← h.1, some] at ended
    exact ended.request

/-! ### Frames -/

/-- The tasks of a frame make up for the requests among them. -/
theorem Run.follows_frameTasks {F : World η → Prop}
    (E : (machine host rounds depth).Booked host rounds) (sound : (machine host rounds depth).Unfailing)
    (connect : ∀ b, (connectBinding (machine host rounds depth) b true).Booked host rounds)
    (owed : Nat) : ∀ tasks : List FrameTask,
    (forEach tasks (runFrameTask (machine host rounds depth))).Follows host rounds
      (·.Balanced (owed + tasks.count .connects)) (fun _ w => w.Balanced owed) F
  | [] => follows_pure ()
  | task :: rest => by
    have goOn := follows_frameTasks (F := F) E sound connect owed rest
    cases task with
    | poll =>
      refine ((beneath_poll.booked E _).of_unfailing (unfailing_poll sound)).bind fun _ => ?_
      simpa using goOn
    | hook h =>
      refine ((E.fire h .frame _).of_unfailing (sound.fire h .frame)).bind fun _ => ?_
      simpa using goOn
    | connects =>
      have one : owed + (FrameTask.connects :: rest).count .connects =
          owed + rest.count .connects + 1 := by simp [Nat.add_assoc]
      rw [one]
      exact (follows_flushConnects connect (fun owed => (E.late owed).of_unfailing sound.late)
        (owed + rest.count .connects)).bind fun _ => goOn

/-- **A frame** runs a course and keeps the books. -/
theorem Run.booked_runFrame (E : (machine host rounds depth).Booked host rounds)
    (sound : (machine host rounds depth).Unfailing)
    (connect : ∀ b, (connectBinding (machine host rounds depth) b true).Booked host rounds) :
    (runFrame (machine host rounds depth)).Booked host rounds := by
  intro owed
  refine Follows.bind (Q := fun frames w => w.Balanced (owed + frames.count .connects))
    (follows_still (fun _ => rfl) fun w books => books.takeFrames) fun frames => ?_
  refine (follows_frameTasks E sound connect owed frames).bind fun _ => ?_
  have flush := (beneath_flushMicrotasks.booked E owed).bind fun ran => follows_pure PUnit.unit
  exact flush.bind fun _ => follows_pure frames.length

end

/-! ### Scripts -/

/-- The operations of the queue run courses and keep the books. -/
structure Env.Serves (host : Host η) (rounds : Nat) (env : Env η) : Prop where
  enqueue : ∀ b, (Run.enqueueConnect env b).Booked host rounds
  frame : (Run.runFrame env).Booked host rounds

/-- What is made of callbacks and of operations of the queue does as they do. -/
theorem Script.booked {env : Env η} {queue : Prop} {x : Run η α} (script : Script env queue x)
    (serves : queue → env.Serves host rounds) (E : env.Booked host rounds) : x.Booked host rounds := by
  induction script with
  | beneath h => exact h.booked E
  | aside h => exact Run.booked_update h
  | bind _ _ first next => exact first.bind next
  | attempt _ h => exact h.attempt
  | flush => exact Run.beneath_flushMicrotasks.booked E
  | setThreshold h f =>
    exact fun owed => Run.follows_modify (fun _ => rfl) fun w books =>
      ⟨books.nodup, books.same, books.asked, books.closed⟩
  | enqueue h b => exact (serves h).enqueue b
  | frame h => exact (serves h).frame

namespace Host.Scripted

/-- What the queue does in a machine with a scripted host. -/
theorem serves (scripted : host.Scripted) (depth : Nat)
    (E : (machine host rounds depth).Booked host rounds) :
    (machine host rounds depth).Serves host rounds := by
  have connect : ∀ b evaluate,
      (Run.connectBinding (machine host rounds depth) b evaluate).Booked host rounds :=
    fun b evaluate => by
      have script : Script (machine host rounds depth) False _ := Script.connect b evaluate
      exact script.booked False.elim E
  exact ⟨fun b => Run.booked_enqueueConnect (connect b false), Run.booked_runFrame E
    (Run.unfailing_machine scripted.unfailing rounds depth) fun b => connect b true⟩

/-- **The callbacks of a machine** with a scripted host run courses and keep the books. -/
theorem booked_machine (scripted : host.Scripted) :
    ∀ depth, (machine host rounds depth).Booked host rounds := by
  have dead : (Run.dead : Env η).Booked host rounds :=
    ⟨fun _ _ _ _ => Run.follows_cutOff, fun _ _ _ _ _ => Run.follows_cutOff,
      fun _ _ _ => Run.follows_cutOff, fun _ _ _ _ => Run.follows_cutOff,
      fun _ _ _ => Run.follows_cutOff, fun _ => Run.follows_cutOff⟩
  have convert : ∀ c direction v args, (host.convert c direction v args).Booked host rounds :=
    fun c direction v args => (scripted.convert _ c direction v args).booked dead
  have look : host.look.Booked host rounds := Run.booked_update fun w => ⟨rfl, rfl⟩
  intro depth
  induction depth with
  | zero =>
    exact ⟨fun _ _ _ _ => Run.follows_cutOff, convert, fun _ _ _ => Run.follows_cutOff,
      fun _ _ _ _ => Run.follows_cutOff, fun _ _ _ => Run.follows_cutOff, look⟩
  | succ depth ih =>
    have queue := fun _ : True => scripted.serves depth ih
    exact ⟨fun f this args => (scripted.call _ f this args).booked queue ih, convert,
      fun hook occasion => (scripted.fire _ hook occasion).booked queue ih,
      fun s new old => (Run.beneath_react s new old).booked ih,
      fun observer s => (Run.beneath_subscribe observer s).booked ih, look⟩

end Host.Scripted

/-- **Scripts** run courses and keep the books. -/
theorem Script.keeps (scripted : host.Scripted) {depth : Nat} {queue : Prop} {x : Run η α}
    (script : Script (machine host rounds depth) queue x) : x.Booked host rounds :=
  script.booked (fun _ => scripted.serves depth (scripted.booked_machine depth))
    (scripted.booked_machine depth)

end

end ViewBinding
