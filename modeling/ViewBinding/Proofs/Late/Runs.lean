import ViewBinding.Proofs.Late.Tell
import ViewBinding.Proofs.Leaf.Unwatched

/-!
# Late — runs

The properties of an object are watched, some of which the object does not have yet: observers are
asked for, hooks are subscribed to them, subscriptions are disposed, properties are written and
removed, and the microtasks are flushed, in any order (`Late.Act`).  A subscription with an observer
that was asked for before its property came to be is as good as any other, whether it was made
before or after, and whether the placeholder has resolved itself yet: every flush calls the hooks of
the live subscriptions to what the batch records, each of them once and with the value that the
property has now, and nothing else calls anybody (`Late.told_once`).
-/

namespace ViewBinding

namespace Late

variable {η : Type}

/-- What is done with an object and with those who watch it. -/
inductive Act where
  /-- Asks for the observer of a property. -/
  | ask (n : String)
  /-- Subscribes a hook through one of the observers that have been asked for. -/
  | subscribe (handle : Nat) (hook : Ref .hook)
  /-- Disposes one of the subscriptions that have been made. -/
  | dispose (made : Nat)
  /-- Writes a property. -/
  | set (n : String) (v : Value)
  /-- Removes a property. -/
  | remove (n : String)
  /-- Runs the microtasks. -/
  | flush

namespace Act

/-- Carries out an act on the object `o` and keeps the roster. -/
def run (env : Env η) (o : Ref .object) (roster : Roster) : Act → Run η Roster
  | ask n => do
    let l ← Run.update fun w => w.objectObserver o n
    pure { roster with handles := roster.handles ++ [(n, l)] }
  | subscribe handle hook =>
    match roster.handles[handle]? with
    | none => pure roster
    | some (n, l) => do
      let s ← Run.subscribeLeaf l (.hook hook)
      pure { roster with made := roster.made ++ [s], live := roster.live ++ [⟨s, n, hook⟩] }
  | dispose made =>
    match roster.made[made]? with
    | none => pure roster
    | some s => do
      Run.modify fun w => w.dispose s
      pure { roster with live := roster.live.filter (·.subscription ≠ s) }
  | set n v => do
    Run.modify fun w => w.set o n v
    pure roster
  | remove n => do
    Run.modify fun w => (w.remove o n).2
    pure roster
  | flush => do
    discard (Run.flushMicrotasks env)
    pure roster

/-- Only properties with names in `P` are written. -/
def Allowed (P : String → Prop) : Act → Prop
  | set n _ => P n
  | _ => True

/-- Whether an act neither runs microtasks nor changes a property. -/
def isQuiet : Act → Bool
  | ask _ | subscribe .. | dispose _ => true
  | _ => false

/-- Whom an act tells, and what: a flush tells the batch, and other acts tell nobody. -/
def bulletin (w : World η) (o : Ref .object) (live : List Watch) : Act → List (Ref .hook × Value)
  | flush => w.bulletin o live
  | _ => []

/-- Whether an act changes a property. -/
def Changes (w : World η) (o : Ref .object) (n : String) : Act → Prop
  | set n' v => n' = n ∧ (w.get o n).same v = false
  | remove n' => n' = n ∧ w.has o n = true
  | _ => False

end Act

/-- An act has turned `w` into `w'` and the roster into `roster'`. -/
structure Does (notes : η → List Note) (o : Ref .object) (P : String → Prop) (w : World η)
    (roster : Roster) (act : Act) (roster' : Roster) (w' : World η) : Prop where
  attended : w'.Attended o P roster'
  rests : w'.tasks.flushing = false
  told : ∃ new, notes w'.host = notes w.host ++ new ∧
    (new.map Note.call).Perm (act.bulletin w o roster.live)
  emptied : act = .flush → w'.batch o = []
  recorded : ∀ x ∈ roster.live, act.Changes w o x.name →
    (w'.batch o).any (·.name = x.name) = true

end Late

namespace World

variable {η : Type} {w w' : World η} {o : Ref .object} {P : String → Prop} {roster : Roster}
  {n : String}

/-! ### One act -/

namespace Attended

/-- Somebody has asked for an observer. -/
theorem ask (A : w.Attended o P roster) (n : String) :
    (w.objectObserver o n).2.Attended o P
      { roster with handles := roster.handles ++ [(n, (w.objectObserver o n).1)] } := by
  obtain ⟨grows, wired, at'⟩ := objectObserver_spec A.wired A.live n
  have A' := A.harmless (grows.harmless A.wired wired)
  refine { A' with handles := fun x m => ?_ }
  rcases List.mem_append.1 m with m | m
  · exact A'.handles x m
  · rw [List.mem_singleton.1 m]
    exact (wired.current o n _ at').1

/-- The subscriptions that have been made are there. -/
theorem there (A : w.Attended o P roster) {s : Ref .subscription} (m : s ∈ roster.made) :
    w.subscriptions.get? s ≠ none := by
  rcases A.made s m with m | gone
  · obtain ⟨x, watched, rfl⟩ := List.mem_map.1 m
    exact fun fresh => (A.watched.heard watched).ne_of_fresh A.wired.toLocated fresh rfl
  · rw [gone]
    nofun

/-- A hook has been subscribed. -/
theorem subscribe (A : w.Attended o P roster) {s : Ref .subscription} {hook : Ref .hook}
    (follows : w.Follows w' s o n (.hook hook)) (slots : w'.slots o = w.slots o) :
    w'.Attended o P
      { roster with made := roster.made ++ [s], live := roster.live ++ [⟨s, n, hook⟩] } := by
  have config : w'.config = w.config := congrArg Backdrop.config follows.still.backdrop
  have microtasks : w'.tasks.microtasks = w.tasks.microtasks :=
    congrArg Backdrop.microtasks follows.still.backdrop
  have W := A.watched.subscribe follows
  refine ⟨W.wired, (follows.still.contains o).trans A.live, ?_, microtasks ▸ A.tasks,
    slots ▸ A.distinct, fun n p e => A.plain n p ((isDoubled_of_slots slots n).1 e),
    fun x m => follows.place? _ _ (A.handles x m), W.enrolled, W.once, fun s' m => ?_⟩
  · simpa only [World.isDispatched, follows.still.isFrozen, config] using A.dispatched
  · rw [List.map_append, List.mem_append]
    rcases List.mem_append.1 m with m | m
    · exact (A.made s' m).imp .inl (follows.subscriptions s' _)
    · exact .inl (.inr m)

/-- One of the subscriptions has been disposed, perhaps again. -/
theorem dispose (A : w.Attended o P roster) {s : Ref .subscription} (m : s ∈ roster.made) :
    (w.dispose s).Attended o P
        { roster with live := roster.live.filter (·.subscription ≠ s) } ∧
      w.Still (w.dispose s) := by
  rcases A.made s m with listed | gone
  · obtain ⟨x, watched, rfl⟩ := List.mem_map.1 listed
    have drops := (A.watched.heard watched).drops A.wired
    have slots := slots_dispose w x.subscription o
    have config : (w.dispose x.subscription).config = w.config :=
      congrArg Backdrop.config drops.still.backdrop
    have microtasks : (w.dispose x.subscription).tasks.microtasks = w.tasks.microtasks :=
      congrArg Backdrop.microtasks drops.still.backdrop
    refine ⟨⟨drops.wired, (drops.still.contains o).trans A.live, ?_, microtasks ▸ A.tasks,
      slots ▸ A.distinct, fun n p e => A.plain n p ((isDoubled_of_slots slots n).1 e),
      fun y m => (drops.place? y.2).trans (A.handles y m), fun s n sub => ?_,
      A.once.sublist (List.filter_sublist.map _), fun s m => ?_⟩, drops.still⟩
    · simpa only [World.isDispatched, drops.still.isFrozen, config] using A.dispatched
    · rw [drops.enrolled_iff, A.enrolled]
      simp only [List.mem_filter, decide_eq_true_eq, ← exists_and_right, and_assoc]
    · by_cases same : s = x.subscription
      · exact .inr (same ▸ drops.get?_self (same ▸ A.there m))
      · rcases A.made s m with live | gone
        · obtain ⟨y, watched, rfl⟩ := List.mem_map.1 live
          exact .inl (List.mem_map.2 ⟨y, List.mem_filter.2 ⟨watched, decide_eq_true same⟩, rfl⟩)
        · exact .inr (disposed_dispose gone _)
  · -- nothing is left to dispose
    have done : w.dispose s = w := disposeWithin_of_none _ (by simp [disposal?, gone])
    have out : ∀ x ∈ roster.live, decide (x.subscription ≠ s) = true := by
      intro x watched
      refine decide_eq_true fun same => ?_
      obtain ⟨l, t, -, direct, -⟩ := (A.watched.heard watched).direct A.wired.toLocated
      simp [directVoice?, disposal?, same, gone] at direct
    rw [done, List.filter_eq_self.2 out]
    exact ⟨A, .refl w⟩

/-- A property has been written or removed. -/
theorem writes (A : w.Attended o P roster) (h : w.Writes w' o n)
    (distinct : Entries.Distinct (w'.slots o)) : w'.Attended o P roster where
  wired := h.wired
  live := (h.contains o).trans A.live
  dispatched := (h.isDispatched o).trans A.dispatched
  tasks task m := by
    rcases h.tasks task m with m | is | ⟨r, -, place⟩
    · exact A.tasks task m
    · exact is
    · -- the object has no trapped properties
      have fits := (A.wired.current o n _ (A.wired.leafAt?_of_setter place)).2.2
      have dispatched := A.dispatched
      simp [World.isDispatched, fits.2] at dispatched
  distinct := distinct
  plain n p e := A.plain n p (h.doubled o n e)
  handles x m := (h.place? x.2).trans (A.handles x m)
  enrolled := (A.watched.tunes h.toTunes h.wired).enrolled
  once := A.once
  made s m := (A.made s m).imp_right fun e => h.subscriptions ▸ e

/-- What is told to those who listen is recorded. -/
theorem recorded (A : w.Attended o P roster) (A' : w'.Attended o P roster) (tells : w.Tells w' o n)
    {x : Watch} (m : x ∈ roster.live) (name : x.name = n) :
    (w'.batch o).any (·.name = x.name) = true := by
  obtain ⟨-, l, t, -, at', m⟩ := A.watched.heard m
  subst name
  exact ((A'.due_iff o x.name).1 (tells l at' (List.ne_nil_of_mem m))).2

end Attended

end World

namespace Late

open World

variable {η : Type} {w w' : World η} {o : Ref .object} {P : String → Prop} {roster : Roster}
  {host : Host η} {notes : η → List Note} {rounds depth : Nat} {act : Act} {n : String}

/-- A quiet act that leaves the backdrop as it is. -/
theorem Does.quiet {roster' : Roster} (A' : w'.Attended o P roster')
    (rests : w.tasks.flushing = false) (backdrop : w'.backdrop = w.backdrop)
    (quiet : act.isQuiet = true) : Does notes o P w roster act roster' w' where
  attended := A'
  rests := (congrArg Backdrop.flushing backdrop).trans rests
  told := by
    refine ⟨[], (congrArg notes (congrArg Backdrop.host backdrop)).trans
      (List.append_nil _).symm, ?_⟩
    cases act <;> first | exact .nil | cases quiet
  emptied is := by rw [is] at quiet; cases quiet
  recorded x _ change := by cases act <;> first | exact change.elim | cases quiet

/-- An act that writes or removes a property. -/
theorem Does.written (A : w.Attended o P roster) (rests : w.tasks.flushing = false)
    (writes : w.Writes w' o n) (distinct : Entries.Distinct (w'.slots o))
    (silent : act.bulletin w o roster.live = []) (other : act ≠ .flush)
    (tells : ∀ n', act.Changes w o n' → n' = n ∧ w.Tells w' o n) :
    Does notes o P w roster act roster w' where
  attended := A.writes writes distinct
  rests := (congrArg Backdrop.flushing writes.backdrop).trans rests
  told := by
    refine ⟨[], (congrArg notes (congrArg Backdrop.host writes.backdrop)).trans
      (List.append_nil _).symm, ?_⟩
    rw [silent]
    exact .nil
  emptied is := absurd is other
  recorded x m change := by
    obtain ⟨name, tells⟩ := tells x.name change
    exact A.recorded (A.writes writes distinct) tells m name

/-- Subscribing to an observer that has been asked for. -/
theorem subscribed (A : w.Attended o P roster) {l : Leaf} (place : w.place? l = some (o, n))
    (hook : Ref .hook) : (Run.subscribeLeaf l (.hook hook)).Ends False w fun s w' =>
      w.Follows w' s o n (.hook hook) ∧ w'.slots o = w.slots o := by
  have spec : (Run.subscribeLeaf l (.hook hook)).Ends False w fun s w' =>
    w.Follows w' s o n (.hook hook) := subscribeLeaf_spec A.wired place _
  cases l with
  | property p => exact ⟨spec, slots_subscribeProperty w p _ o⟩
  | placeholder u => exact ⟨spec, slots_subscribePlaceholder w u _ o⟩
  | setter r | poll r =>
    -- there is no other kind of observer of the object
    have dispatched := A.dispatched
    rcases A.wired.unique o n _ place with at' | ⟨p, resolved, -⟩
    · have fits := (A.wired.current o n _ at').2.2
      simp only [World.Fits] at fits
      simp [World.isDispatched, fits] at dispatched
    · cases resolved
  | _ => cases place

/-- **What one act does.** -/
theorem does (A : w.Attended o P roster) (rests : w.tasks.flushing = false)
    (passive : host.Passive notes) (allowed : act.Allowed P) (enough : 2 ≤ rounds) :
    (act.run (machine host rounds (depth + 2)) o roster).Ends False w fun roster' w' =>
      Does notes o P w roster act roster' w' := by
  have unfrozen : w.isFrozen o = false ∧ w.config.strategy = .changeRecords := by
    simpa [World.isDispatched] using A.dispatched
  cases act with
  | ask n =>
    obtain ⟨grows, -⟩ := objectObserver_spec A.wired A.live n
    exact .quiet (A.ask n) rests grows.backdrop rfl
  | subscribe handle hook =>
    cases e : roster.handles[handle]? with
    | none =>
      simp only [Act.run, e]
      exact .quiet A rests rfl rfl
    | some x =>
      simp only [Act.run, e, Run.ends_bind, Run.ends_pure']
      refine (subscribed A (A.handles x (List.mem_of_getElem? e)) hook).mono fun s w' h => ?_
      exact .quiet (A.subscribe h.1 h.2) rests h.1.still.backdrop rfl
  | dispose made =>
    cases e : roster.made[made]? with
    | none =>
      simp only [Act.run, e]
      exact .quiet A rests rfl rfl
    | some s =>
      simp only [Act.run, e, Run.ends_bind, Run.ends_modify, Run.ends_pure']
      obtain ⟨A', still⟩ := A.dispose (List.mem_of_getElem? e)
      exact .quiet A' rests still.backdrop rfl
  | set n v =>
    obtain ⟨writes, result⟩ := set_spec A.wired A.live (A.plain n allowed) v
    refine .written A rests writes (distinct_set A.distinct n v) rfl Act.noConfusion ?_
    rintro _ ⟨rfl, change⟩
    rcases result with ⟨-, frozen | same⟩ | ⟨-, -, -, -, tells⟩
    · rw [unfrozen.1] at frozen
      cases frozen
    · rw [same] at change
      cases change
    · exact ⟨rfl, tells⟩
  | remove n =>
    obtain ⟨writes, result⟩ := remove_spec (n := n) A.wired unfrozen.2 fun c e =>
      slots_of_get? e ▸ A.distinct
    refine .written A rests writes (distinct_remove A.distinct n) rfl Act.noConfusion ?_
    rintro _ ⟨rfl, present⟩
    rcases result with ⟨-, frozen | absent⟩ | ⟨-, -, -, tells⟩
    · rw [unfrozen.1] at frozen
      cases frozen
    · rw [absent] at present
      cases present
    · exact ⟨rfl, tells⟩
  | flush =>
    simp only [Act.run, Run.ends_bind, Run.ends_discard, Run.ends_pure']
    refine (A.flush rests passive enough).mono ?_
    rintro _ w' ⟨A', rests', empty, told⟩
    exact ⟨A', rests', told, fun _ => empty, fun _ _ => False.elim⟩

/-! ### Runs -/

/-- **What every run keeps.**  It goes through, and the roster still says who watches. -/
theorem runs (passive : host.Passive notes) (enough : 2 ≤ rounds) (acts : List Act) :
    ∀ {roster : Roster} {w : World η}, w.Attended o P roster → w.tasks.flushing = false →
      (∀ act ∈ acts, act.Allowed P) →
      (acts.foldlM (Act.run (machine host rounds (depth + 2)) o) roster).Ends False w
        fun roster' w' => w'.Attended o P roster' ∧ w'.tasks.flushing = false := by
  induction acts with
  | nil => exact fun A rests _ => ⟨A, rests⟩
  | cons act rest ih =>
    intro roster w A rests allowed
    rw [List.foldlM_cons, Run.ends_bind]
    refine (does A rests passive (allowed act List.mem_cons_self) enough).mono fun roster' w' D => ?_
    exact ih D.attended D.rests fun act m => allowed act (List.mem_cons_of_mem _ m)

/-- Nobody watches an object that is not frozen and whose changes are recorded, and nothing waits to
be told. -/
structure Unattended (w : World η) (o : Ref .object) : Prop where
  wired : w.Wired
  live : w.objects.contains o = true
  unfrozen : w.isFrozen o = false
  strategy : w.config.strategy = .changeRecords
  rests : w.tasks.flushing = false
  idle : w.tasks.microtasks = []
  distinct : Entries.Distinct (w.slots o)
  nobody : ∀ s n sub, ¬ w.Enrolled s o n sub

/-- Where nothing is watched, nobody watches an object. -/
theorem Unattended.of_unwatched (h : w.Unwatched) (live : w.objects.contains o = true)
    (unfrozen : w.isFrozen o = false) (strategy : w.config.strategy = .changeRecords)
    (rests : w.tasks.flushing = false) (distinct : Entries.Distinct (w.slots o)) :
    Unattended w o where
  wired := h.wired
  live := live
  unfrozen := unfrozen
  strategy := strategy
  rests := rests
  idle := h.microtasks
  distinct := distinct
  nobody s n sub := by
    rintro ⟨-, l, t, -, -, m⟩
    rw [h.audience] at m
    cases m

theorem Unattended.attended (h : Unattended w o) :
    w.Attended o (fun n => ¬ w.IsDoubled o n) {} where
  wired := h.wired
  live := h.live
  dispatched := by simp [World.isDispatched, h.unfrozen, h.strategy]
  tasks task m := by simp [h.idle] at m
  distinct := h.distinct
  plain _ plain := plain
  handles x m := by cases m
  enrolled s n sub := by
    refine ⟨fun e => absurd e (h.nobody s n sub), ?_⟩
    rintro ⟨hook, -, m⟩
    cases m
  once := .nil
  made s m := by cases m

/-- **Properties are told once, late ones as well.**  The object has no watchers at first, and perhaps
not the properties either; its accessors, which keep something else than what is written to them, are
not written.  After any acts, the next act goes through as well.  If it is a flush, it calls the hooks
of the live subscriptions to what the batch records, each once for each of its subscriptions and with
the present value of the property, and leaves no batch; if it is another act, it calls nobody.  A
change of a property with a live subscription is recorded. -/
theorem told_once (passive : host.Passive notes) (start : Unattended w o) (deep : 2 ≤ depth)
    (enough : 2 ≤ rounds) {acts : List Act}
    (allowed : ∀ act ∈ acts, act.Allowed fun n => ¬ w.IsDoubled o n) :
    ∃ roster w', acts.foldlM (Act.run (machine host rounds depth) o) {} w = (.ok roster, w') ∧
      ∀ act : Act, act.Allowed (fun n => ¬ w.IsDoubled o n) → ∃ roster' w'' new,
        act.run (machine host rounds depth) o roster w' = (.ok roster', w'') ∧
          notes w''.host = notes w'.host ++ new ∧
          (new.map Note.call).Perm (act.bulletin w' o roster.live) ∧
          (act = .flush → w''.batch o = []) ∧
          ∀ x ∈ roster.live, act.Changes w' o x.name →
            (w''.batch o).any (·.name = x.name) = true := by
  obtain ⟨depth, rfl⟩ := Nat.exists_eq_add_of_le' deep
  obtain ⟨roster, w', ran, A, rests⟩ :=
    (runs passive enough acts start.attended start.rests allowed).exists_eq_ok
  refine ⟨roster, w', ran, fun act allowed => ?_⟩
  obtain ⟨roster', w'', acted, D⟩ := (does A rests passive allowed enough).exists_eq_ok
  obtain ⟨new, noted, told⟩ := D.told
  exact ⟨roster', w'', new, acted, noted, told, D.emptied, D.recorded⟩

/-! ### A shelf -/

/-- A host whose hooks note what they are told. -/
def remembering : Host (List Note) where
  call _ _ _ _ := pure .undefined
  convert _ _ _ _ := pure none
  fire _ hook occasion :=
    match occasion with
    | .changed new old => Run.modify fun w => { w with host := w.host ++ [⟨hook, new, old⟩] }
    | _ => pure ()
  late w := (false, w.host)

theorem aside_noted (w : World (List Note)) (note : Note) :
    w.Aside { w with host := w.host ++ [note] } :=
  ⟨rfl, rfl, rfl, rfl, rfl, rfl, rfl, rfl, rfl, Nat.le_refl _, rfl, rfl, id, id⟩

theorem passive_remembering : remembering.Passive id := fun _ _ _ _ w wired =>
  ⟨(aside_noted w _).harmless wired, rfl⟩

/-- An object without properties. -/
def shelf : World (List Note) := ((World.new .standard ([] : List Note)).newObject []).2

theorem unattended_shelf : Unattended shelf ⟨0⟩ :=
  .of_unwatched ((unwatched_new Config.standard ([] : List Note)).newObject []) rfl rfl rfl rfl .nil

theorem plain_shelf (n : String) : ¬ shelf.IsDoubled ⟨0⟩ n := by
  rintro ⟨v, slot⟩
  rw [slot?_eq] at slot
  cases slot

/-- A hook is subscribed to a property that is not there, then the property is written, and two more
hooks are subscribed through the observer asked for at first, one of which is disposed. -/
def lateActs : List Act :=
  [.ask "book", .subscribe 0 ⟨7⟩, .set "book" (.string "Emma"), .subscribe 0 ⟨8⟩, .subscribe 0 ⟨9⟩,
    .dispose 1]

theorem lateActs_allowed : ∀ act ∈ lateActs, act.Allowed fun n => ¬ shelf.IsDoubled ⟨0⟩ n := by
  intro act _
  cases act <;> first | exact trivial | exact plain_shelf _

/-- What is to be told then. -/
theorem lateActs_bulletin : (lateActs.foldlM (Act.run (machine remembering 2 2) ⟨0⟩) {}).Ends False
    shelf fun roster w' => w'.host.map Note.call = [] ∧ w'.bulletin ⟨0⟩ roster.live =
      [(⟨7⟩, .string "Emma"), (⟨9⟩, .string "Emma")] := by decide +kernel

/-- The first and the last hook are told about the book once, and the hook between them is not. -/
theorem book_told_once : remembering.Passive id ∧ Unattended shelf ⟨0⟩ ∧
    (∀ act ∈ lateActs, act.Allowed fun n => ¬ shelf.IsDoubled ⟨0⟩ n) ∧
    ∃ roster w' roster' w'',
      lateActs.foldlM (Act.run (machine remembering 2 2) ⟨0⟩) {} shelf = (.ok roster, w') ∧
      Act.flush.run (machine remembering 2 2) ⟨0⟩ roster w' = (.ok roster', w'') ∧
      (w''.host.map Note.call).Perm [(⟨7⟩, .string "Emma"), (⟨9⟩, .string "Emma")] := by
  obtain ⟨roster, w', ran, next⟩ := told_once passive_remembering unattended_shelf (Nat.le_refl 2)
    (Nat.le_refl 2) lateActs_allowed
  obtain ⟨roster', w'', new, flushed, noted, told, -⟩ := next .flush trivial
  obtain ⟨_, _, ran', none, bulletin⟩ := lateActs_bulletin.exists_eq_ok
  rw [ran] at ran'
  cases ran'
  refine ⟨passive_remembering, unattended_shelf, lateActs_allowed, roster, w', roster', w'', ran,
    flushed, ?_⟩
  rw [show w''.host = w'.host ++ new from noted, List.map_append, none, List.nil_append, ← bulletin]
  exact told

end Late

end ViewBinding
