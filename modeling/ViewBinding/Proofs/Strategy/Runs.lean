import ViewBinding.Proofs.Strategy.Heard
import ViewBinding.Proofs.Late.Runs

/-!
# Strategy — runs

Hooks are subscribed to properties of an object; then the properties are written and the microtasks
are flushed, in any order (`Strategy.Act`).  A ledger keeps what has been written and which properties
have changed since the last flush, and knows nothing of records, traps and microtasks; yet it says
what every flush reports, however the object is observed (`Strategy.reports_ledger`).  So the
strategies tell the same changes and have the same values at every moment
(`Strategy.strategies_agree`).
-/

namespace ViewBinding

namespace Strategy

variable {η : Type}

/-! ### What is done and what is to be told -/

/-- The values of properties, and the names of those that have changed since the last flush. -/
structure Ledger where
  values : String → Value
  changed : List String := []

/-- What is done with an object that is watched. -/
inductive Act where
  /-- Writes a property. -/
  | set (n : String) (v : Value)
  /-- Runs the microtasks. -/
  | flush

namespace Act

/-- Carries out an act on the object `o`. -/
def run (env : Env η) (o : Ref .object) : Act → Run η Unit
  | set n v => Run.modify fun w => w.set o n v
  | flush => discard (Run.flushMicrotasks env)

/-- Only properties with these names are written. -/
def Allowed (names : List String) : Act → Prop
  | set n _ => n ∈ names
  | flush => True

/-- The ledger after an act.  To write what is there is no change; a change stays one when the
property returns to the value that it had. -/
def after (L : Ledger) : Act → Ledger
  | set n v =>
    if (L.values n).same v then L
    else { values := Function.update L.values n v, changed := n :: L.changed }
  | flush => { L with changed := [] }

/-- What an act reports to a family of hooks: a flush reports every property that has changed, to each
of its hooks and with the value that it has, and a write reports nothing. -/
def report (L : Ledger) (family : List (String × Ref .hook)) : Act → List (Ref .hook × Value)
  | set _ _ => []
  | flush => (family.filter (·.1 ∈ L.changed)).map fun x => (x.2, L.values x.1)

end Act

/-- Subscribes hooks to observers of properties. -/
def watch (o : Ref .object) (family : List (String × Ref .hook)) : Run η Unit :=
  Run.forEach family fun x => do
    let l ← Run.update fun w => w.objectObserver o x.1
    discard (Run.subscribeLeaf l (.hook x.2))

/-- Subscribes hooks and then carries out acts. -/
def run (env : Env η) (o : Ref .object) (family : List (String × Ref .hook)) (acts : List Act) :
    Run η Unit := do
  watch o family
  Run.forEach acts (Act.run env o)

/-- An object that is not frozen is to be observed by the strategy.  Its properties with these names
are data, nobody watches them yet, and nothing waits to be told. -/
structure Fresh (strategy : Strategy) (w : World η) (o : Ref .object) (names : List String) :
    Prop where
  wired : w.Wired
  live : w.objects.contains o = true
  unfrozen : w.isFrozen o = false
  strategy : w.config.strategy = strategy
  rests : w.tasks.flushing = false
  idle : w.tasks.microtasks = []
  data : ∀ n ∈ names, ∃ v, w.slot? o n = some (.data v)
  nobody : ∀ s n sub, ¬ w.Enrolled s o n sub

section
variable {w w' : World η} {o : Ref .object} {names : List String} {watches : List Watch}
  {family : List (String × Ref .hook)} {L : Ledger} {act : Act} {n : String} {v : Value}
  {strategy : Strategy} {host : Host η} {notes : η → List Note} {rounds depth : Nat}

/-! ### Subscribing -/

/-- Where nothing is watched, nobody watches an object. -/
theorem Fresh.of_unwatched (h : w.Unwatched) (live : w.objects.contains o = true)
    (unfrozen : w.isFrozen o = false) (same : w.config.strategy = strategy)
    (rests : w.tasks.flushing = false) (data : ∀ n ∈ names, ∃ v, w.slot? o n = some (.data v)) :
    strategy.Fresh w o names where
  wired := h.wired
  live := live
  unfrozen := unfrozen
  strategy := same
  rests := rests
  idle := h.microtasks
  data := data
  nobody s n sub := by
    rintro ⟨-, l, t, -, -, m⟩
    rw [h.audience] at m
    cases m

theorem Fresh.heard (h : strategy.Fresh w o names) : w.Heard o names [] where
  wired := h.wired
  live := h.live
  unfrozen := h.unfrozen
  has n m := by
    obtain ⟨v, slot⟩ := h.data n m
    rw [World.has, slot, Option.isSome_some]
  plain n m := by
    rintro ⟨v', doubled⟩
    obtain ⟨v, slot⟩ := h.data n m
    rw [slot] at doubled
    cases doubled
  tasks task m := by
    rw [h.idle] at m
    cases m
  enrolled s n sub := by
    refine ⟨fun e => absurd e (h.nobody s n sub), ?_⟩
    rintro ⟨hook, -, m⟩
    cases m
  once := .nil

/-- Where no microtasks wait, no changes are due. -/
theorem Fresh.not_due (h : strategy.Fresh w o names) (n : String) : ¬ w.Due o n := by
  intro due
  obtain ⟨task, m, -⟩ := h.wired.exists_task_of_due due
  rw [h.idle] at m
  cases m

/-- **Subscribing a family of hooks** makes each of them hear of its property, and nothing else is
told or changes. -/
theorem watches_family (family : List (String × Ref .hook)) :
    ∀ {watches : List Watch} {w : World η}, w.Heard o names watches →
      (watch o family).Ends False w fun _ w' => w.Still w' ∧ ∃ more : List Watch,
        w'.Heard o names (watches ++ more) ∧ more.map (fun x => (x.name, x.hook)) = family := by
  induction family with
  | nil => exact fun {watches w} H => ⟨.refl w, [], by rwa [List.append_nil], rfl⟩
  | cons x rest ih =>
    intro watches w H
    obtain ⟨grows, wired, at'⟩ := World.objectObserver_spec H.wired H.live x.1
    have asked := H.mild (grows.mild H.wired wired)
    rw [watch, Run.ends_forEach_cons, Run.ends_bind, Run.ends_update, Run.ends_discard]
    have place := (wired.current o x.1 _ at').1
    refine (World.subscribeLeaf_spec wired place _).mono fun s w₁ follows => ?_
    refine (ih (asked.subscribe follows)).mono ?_
    rintro _ w' ⟨still, more, H', named⟩
    refine ⟨((grows.still H.wired.toAttentive).trans follows.still).trans still,
      ⟨s, x.1, x.2⟩ :: more, ?_, by rw [List.map_cons, named]⟩
    rwa [List.append_assoc] at H'

/-! ### One act -/

/-- The object is as the ledger says, and what the ledger lists as changed is due. -/
structure Agrees (w : World η) (o : Ref .object) (names : List String) (watches : List Watch)
    (L : Ledger) : Prop where
  heard : w.Heard o names watches
  rests : w.tasks.flushing = false
  get : ∀ n, w.get o n = L.values n
  due : ∀ x ∈ watches, w.Due o x.name ↔ x.name ∈ L.changed

/-- A write is entered in the ledger. -/
theorem Agrees.set (A : Agrees w o names watches L) (named : n ∈ names) (v : Value) :
    Agrees (w.set o n v) o names watches ((Act.set n v).after L) := by
  have H := A.heard
  obtain ⟨writes, result⟩ := World.set_spec H.wired H.live (H.plain n named) v
  rw [A.get] at result
  rcases result with ⟨unchanged, frozen | same⟩ | ⟨-, differs, got, there, tells⟩
  · rw [H.unfrozen] at frozen
    cases frozen
  · rw [unchanged, Act.after, if_pos same]
    exact A
  · -- whoever watches the property makes the change due, and no other change is due that was not
    rw [Act.after, if_neg (by rw [differs (H.has n named)]; exact Bool.false_ne_true)]
    refine ⟨H.writes writes named there, (congrArg Backdrop.flushing writes.backdrop).trans A.rests,
      fun n' => ?_, fun x watched => ?_⟩
    · by_cases same : n' = n
      · rw [same]
        exact got.trans (Function.update_self n v L.values).symm
      · have others := (writes.get o n' fun both => same both.2).trans (A.get n')
        exact others.trans (Function.update_of_ne same v L.values).symm
    · rw [List.mem_cons, ← A.due x watched, or_comm]
      constructor
      · exact fun due => (writes.dueOr o x.name due).imp_right And.right
      · rintro (due | rfl)
        · exact writes.due o x.name due
        · obtain ⟨-, l, t, -, at', m⟩ := H.heard watched
          exact tells l at' (List.ne_nil_of_mem m)

/-- **What one act does.**  It agrees with the ledger afterwards, and reports what the ledger
says. -/
theorem Agrees.does (A : Agrees w o names watches L) (mild : host.Mild notes)
    (allowed : act.Allowed names) (enough : names.length + 2 ≤ rounds) :
    (act.run (machine host rounds (depth + 2)) o).Ends False w fun _ w' =>
      Agrees w' o names watches (act.after L) ∧ ∃ new, notes w'.host = notes w.host ++ new ∧
        (new.map Note.call).Perm (act.report L (watches.map fun x => (x.name, x.hook))) := by
  cases act with
  | set n v =>
    obtain ⟨writes, -⟩ := World.set_spec A.heard.wired A.heard.live (A.heard.plain n allowed) v
    have host : (w.set o n v).host = w.host := congrArg Backdrop.host writes.backdrop
    refine ⟨A.set allowed v, [], ?_, .nil⟩
    rw [host, List.append_nil]
  | flush =>
    rw [Act.run, Run.ends_discard]
    refine (A.heard.flush A.rests A.due mild enough).mono ?_
    rintro _ w' ⟨H, rests, get, none, new, noted, told⟩
    refine ⟨⟨H, rests, fun n => (get o n).trans (A.get n), fun x m => ?_⟩, new, noted, ?_⟩
    · simp only [none x m, Act.after, List.not_mem_nil]
    · have reported : w.report o watches L.changed =
          Act.flush.report L (watches.map fun x => (x.name, x.hook)) := by
        simp only [World.report, Act.report, List.filter_map, List.map_map, A.get]
        rfl
      exact reported ▸ told

/-! ### Runs -/

/-- **What every run keeps.**  It goes through and agrees with the ledger. -/
theorem Agrees.runs (mild : host.Mild notes) (enough : names.length + 2 ≤ rounds) (acts : List Act) :
    ∀ {L : Ledger} {w : World η}, Agrees w o names watches L → (∀ act ∈ acts, act.Allowed names) →
      (Run.forEach acts (Act.run (machine host rounds (depth + 2)) o)).Ends False w fun _ w' =>
        Agrees w' o names watches (acts.foldl Act.after L) := by
  induction acts with
  | nil => exact fun A _ => A
  | cons act rest ih =>
    intro L w A allowed
    rw [Run.ends_forEach_cons]
    refine (A.does mild (allowed act List.mem_cons_self) enough).mono fun _ w₁ h => ?_
    exact ih h.1 fun act m => allowed act (List.mem_cons_of_mem _ m)

/-- **A ledger says what is reported**, by whichever strategy the object is observed: it has the values
that the object has after any acts, and the next act reports what it says. -/
theorem reports_ledger (mild : host.Mild notes) (deep : 2 ≤ depth)
    (enough : names.length + 2 ≤ rounds) (fresh : strategy.Fresh w o names)
    (named : ∀ x ∈ family, x.1 ∈ names) {acts : List Act}
    (allowed : ∀ act ∈ acts, act.Allowed names) :
    ∃ w', run (machine host rounds depth) o family acts w = (.ok (), w') ∧
      (∀ n, w'.get o n = (acts.foldl Act.after ⟨w.get o, []⟩).values n) ∧
      ∀ act : Act, act.Allowed names → ∃ w'' new,
        act.run (machine host rounds depth) o w' = (.ok (), w'') ∧
          notes w''.host = notes w'.host ++ new ∧
          (new.map Note.call).Perm (act.report (acts.foldl Act.after ⟨w.get o, []⟩) family) := by
  obtain ⟨depth, rfl⟩ := Nat.exists_eq_add_of_le' deep
  obtain ⟨⟨⟩, w₁, opened, still, watches, H, rfl⟩ := (watches_family family fresh.heard).exists_eq_ok
  have A : Agrees w₁ o names watches ⟨w.get o, []⟩ := by
    refine ⟨H, (congrArg Backdrop.flushing still.backdrop).trans fresh.rests, still.get o,
      fun x _ => ?_⟩
    simp only [still.due, fresh.not_due, List.not_mem_nil]
  obtain ⟨⟨⟩, w', ran, A'⟩ := (A.runs mild enough acts allowed).exists_eq_ok
  refine ⟨w', Run.bind_eq_ok.2 ⟨_, _, opened, ran⟩, A'.get, fun act allowed => ?_⟩
  obtain ⟨⟨⟩, w'', acted, -, new, noted, told⟩ := (A'.does mild allowed enough).exists_eq_ok
  exact ⟨w'', new, acted, noted, told⟩

end

/-- **The strategies tell the same changes.**  An object with the same properties is observed by
change records in one world and by traps in another.  Hooks are subscribed to its properties, and then
these are written and the microtasks are flushed, in any order.  Both runs go through, the object has
the same values in both worlds after any acts, and the next act goes through as well and reports the
same in both.  If it is a flush, it calls the hook of each subscription whose property has changed
since the last flush, once and with the value of the property, and no other; if it is a write, it
calls nobody. -/
theorem strategies_agree {host : Host η} {notes : η → List Note} {rounds depth : Nat}
    (mild : host.Mild notes) (deep : 2 ≤ depth) {names : List String}
    (enough : names.length + 2 ≤ rounds) {w₁ w₂ : World η} {o₁ o₂ : Ref .object}
    (recorded : changeRecords.Fresh w₁ o₁ names) (trapped : setter.Fresh w₂ o₂ names)
    (same : ∀ n, w₁.get o₁ n = w₂.get o₂ n) {family : List (String × Ref .hook)}
    (named : ∀ x ∈ family, x.1 ∈ names) {acts : List Act}
    (allowed : ∀ act ∈ acts, act.Allowed names) :
    ∃ w₁' w₂', run (machine host rounds depth) o₁ family acts w₁ = (.ok (), w₁') ∧
      run (machine host rounds depth) o₂ family acts w₂ = (.ok (), w₂') ∧
      (∀ n, w₁'.get o₁ n = w₂'.get o₂ n) ∧
      ∀ act : Act, act.Allowed names → ∃ w₁'' w₂'' new₁ new₂,
        act.run (machine host rounds depth) o₁ w₁' = (.ok (), w₁'') ∧
          act.run (machine host rounds depth) o₂ w₂' = (.ok (), w₂'') ∧
          notes w₁''.host = notes w₁'.host ++ new₁ ∧ notes w₂''.host = notes w₂'.host ++ new₂ ∧
          (new₁.map Note.call).Perm (new₂.map Note.call) ∧
          (new₁.map Note.call).Perm (act.report (acts.foldl Act.after ⟨w₁.get o₁, []⟩) family) := by
  -- both worlds begin with one ledger, and neither knows of the other
  have start : w₂.get o₂ = w₁.get o₁ := funext fun n => (same n).symm
  obtain ⟨w₁', ran₁, get₁, next₁⟩ := reports_ledger mild deep enough recorded named allowed
  obtain ⟨w₂', ran₂, get₂, next₂⟩ := reports_ledger mild deep enough trapped named allowed
  rw [start] at get₂ next₂
  refine ⟨w₁', w₂', ran₁, ran₂, fun n => (get₁ n).trans (get₂ n).symm, fun act allowed => ?_⟩
  obtain ⟨w₁'', new₁, acted₁, noted₁, told₁⟩ := next₁ act allowed
  obtain ⟨w₂'', new₂, acted₂, noted₂, told₂⟩ := next₂ act allowed
  exact ⟨w₁'', w₂'', new₁, new₂, acted₁, acted₂, noted₁, noted₂, told₁.trans told₂.symm, told₁⟩

/-! ### A library card -/

theorem mild_remembering : Late.remembering.Mild id := fun _ _ _ _ w wired =>
  ⟨(Late.aside_noted w _).mild wired, rfl⟩

/-- An object with two properties, observed by the strategy. -/
def card (strategy : Strategy) : World (List Note) :=
  ((World.new { Config.standard with strategy } ([] : List Note)).newObject
    [("book", .string "Emma"), ("reader", .string "Jane")]).2

theorem fresh_card (strategy : Strategy) : strategy.Fresh (card strategy) ⟨0⟩ ["book", "reader"] := by
  refine .of_unwatched ((World.unwatched_new { Config.standard with strategy }
    ([] : List Note)).newObject _) rfl rfl rfl rfl fun n m => ?_
  rcases List.mem_cons.1 m with rfl | m
  · exact ⟨.string "Emma", rfl⟩
  · rw [List.mem_singleton.1 m]
    exact ⟨.string "Jane", rfl⟩

/-- Two hooks watch the book, and one the reader. -/
def cardHooks : List (String × Ref .hook) := [("book", ⟨7⟩), ("reader", ⟨8⟩), ("book", ⟨9⟩)]

/-- Both properties are written and told; then another book is lent, and the first one again. -/
def cardActs : List Act :=
  [.set "book" (.string "Persuasion"), .set "reader" (.string "Mary"), .flush,
    .set "book" (.string "Emma"), .set "book" (.string "Persuasion")]

/-- The book is where it was when the last flush told it, and has changed since; the reader has not.
Both strategies tell so. -/
theorem book_told_alike : Late.remembering.Mild id ∧
    changeRecords.Fresh (card changeRecords) ⟨0⟩ ["book", "reader"] ∧
    setter.Fresh (card setter) ⟨0⟩ ["book", "reader"] ∧
    (∀ n, (card changeRecords).get ⟨0⟩ n = (card setter).get ⟨0⟩ n) ∧
    (∀ x ∈ cardHooks, x.1 ∈ ["book", "reader"]) ∧
    (∀ act ∈ cardActs, act.Allowed ["book", "reader"]) ∧
    ∃ w₁ w₂ w₁' w₂' new₁ new₂,
      run (machine Late.remembering 4 2) ⟨0⟩ cardHooks cardActs (card changeRecords) = (.ok (), w₁) ∧
      run (machine Late.remembering 4 2) ⟨0⟩ cardHooks cardActs (card setter) = (.ok (), w₂) ∧
      Act.flush.run (machine Late.remembering 4 2) ⟨0⟩ w₁ = (.ok (), w₁') ∧
      Act.flush.run (machine Late.remembering 4 2) ⟨0⟩ w₂ = (.ok (), w₂') ∧
      w₁'.host = w₁.host ++ new₁ ∧ w₂'.host = w₂.host ++ new₂ ∧
      (new₁.map Note.call).Perm (new₂.map Note.call) ∧
      (new₁.map Note.call).Perm [(⟨7⟩, .string "Persuasion"), (⟨9⟩, .string "Persuasion")] := by
  have same : ∀ n, (card changeRecords).get ⟨0⟩ n = (card setter).get ⟨0⟩ n := fun _ => rfl
  have named : ∀ x ∈ cardHooks, x.1 ∈ ["book", "reader"] := by decide
  have allowed : ∀ act ∈ cardActs, act.Allowed ["book", "reader"] := by
    simp [cardActs, Act.Allowed]
  have reported : Act.flush.report (cardActs.foldl Act.after ⟨(card changeRecords).get ⟨0⟩, []⟩)
      cardHooks = [(⟨7⟩, .string "Persuasion"), (⟨9⟩, .string "Persuasion")] := by decide +kernel
  obtain ⟨w₁, w₂, ran₁, ran₂, -, next⟩ := strategies_agree mild_remembering (Nat.le_refl 2)
    (Nat.le_refl 4) (fresh_card changeRecords) (fresh_card setter) same named allowed
  obtain ⟨w₁', w₂', new₁, new₂, flushed₁, flushed₂, noted₁, noted₂, alike, told⟩ :=
    next .flush trivial
  exact ⟨mild_remembering, fresh_card changeRecords, fresh_card setter, same, named, allowed, w₁, w₂,
    w₁', w₂', new₁, new₂, ran₁, ran₂, flushed₁, flushed₂, noted₁, noted₂, alike, reported ▸ told⟩

end Strategy

end ViewBinding
