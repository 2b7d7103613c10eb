import ViewBinding.Proofs.Leaf.Unwatched
import ViewBinding.Proofs.Path.Join
import ViewBinding.Proofs.Path.Roll

/-!
# Path — runs

A chain of members is connected and subscribed to, and then properties of objects are written, in any
order, and the microtasks are flushed now and then (`Change`).  After every flush the observer shows
the value that one sees who goes from object to object, and this is the value that the flush has told
last (`members_followed`).

Evaluation goes further: it finds the members of texts and lists, and `null` behind nothing.  So the
observer and evaluation agree as long as every value on the way is an object, or is something that has
no such member and is not nullish (`evaluated_eq_seen`, `evaluated_eq_seen_iff`), and otherwise they
need not (`text_length_unseen`).
-/

namespace ViewBinding

/-- What is done while a chain is watched. -/
inductive Change where
  /-- Writes a property of an object. -/
  | write (o : Ref .object) (n : String) (v : Value)
  /-- Runs the microtasks. -/
  | flush

/-- Carries out a change. -/
def Change.run (env : Env Notes) : Change → Run Notes Unit
  | write o n v => Run.modify fun w => w.set o n v
  | flush => discard (Run.flushMicrotasks env)

/-- Only objects that are there are written, and no objects that are not. -/
def Change.Allowed (w : World Notes) : Change → Prop
  | write o _ v => w.objects.contains o = true ∧ ∀ o', v = .object o' → w.objects.contains o' = true
  | flush => True

/-- `w'` comes from `w` by changes that are allowed. -/
inductive Change.Reaches (depth : Nat) : World Notes → World Notes → Prop
  | refl (w : World Notes) : Reaches depth w w
  | step {w w' w'' : World Notes} {change : Change} {rounds : Nat} (before : Reaches depth w w')
      (allowed : change.Allowed w')
      (ran : change.run (machine Host.noting rounds depth) w' = (.ok (), w'')) : Reaches depth w w''

namespace World

/-! ### Evaluating members -/

section
variable {η : Type} {w : World η} {name : String} {members : List String} {e : Expr}

/-- What evaluation finds who goes from a value from member to member. -/
def evaluated (w : World η) (v : Value) : List String → Value
  | [] => v
  | n :: rest => w.evaluated (if v.isNullish then .null else w.member v n) rest

theorem evaluated_append (w : World η) (xs ys : List String) :
    ∀ v, w.evaluated v (xs ++ ys) = w.evaluated (w.evaluated v xs) ys := by
  induction xs with
  | nil => exact fun _ => rfl
  | cons n rest ih => exact fun v => ih _

/-- Evaluating a chain of members changes nothing. -/
theorem eval_chain {env : Env η} {converters : Converters} {scope : Scope}
    (chain : e.IsChain name members) :
    e.eval env converters scope w = (.ok (w.evaluated (w.lookup scope name) members), w) := by
  induction chain with
  | name => rfl
  | @member members e before n ih =>
    rw [evaluated_append, Expr.eval]
    change Run.bind (e.eval env converters scope) _ w = _
    rw [Run.bind, ih]
    cases nullish : (w.evaluated (w.lookup scope name) members).isNullish with
    | true => simp only [if_true, evaluated, nullish]; rfl
    | false => simp only [evaluated, nullish]; rfl

/-- The member of a value is read alike by whoever goes from object to object: the value is an
object, or it is not nullish and has no such member. -/
def ReadsAlike (w : World η) (v : Value) (n : String) : Prop :=
  v.isNullish = false ∧ w.member v n = w.memberOf v.object? n

/-- Every value on the way is read alike. -/
def AllAlike (w : World η) (v : Value) : List String → Prop
  | [] => True
  | n :: rest => w.ReadsAlike v n ∧ w.AllAlike (w.memberOf v.object? n) rest

theorem evaluated_eq_seen (names : List String) : ∀ v : Value, w.AllAlike v names →
    w.evaluated v names = w.seen v names := by
  induction names with
  | nil => exact fun _ _ => rfl
  | cons n rest ih =>
    rintro v ⟨⟨there, same⟩, alike⟩
    simp only [evaluated, seen, there, same, Bool.false_eq_true, if_false]
    exact ih _ alike

/-- **The last member** decides if all before it are read alike. -/
theorem evaluated_eq_seen_iff {v : Value} {names : List String} (alike : w.AllAlike v names)
    (n : String) : w.evaluated v (names ++ [n]) = w.seen v (names ++ [n]) ↔
      w.ReadsAlike (w.seen v names) n := by
  rw [evaluated_append, seen_append, evaluated_eq_seen names v alike]
  generalize w.seen v names = u
  cases nullish : u.isNullish with
  | false => simp only [evaluated, seen, nullish, ReadsAlike, Bool.false_eq_true, if_false, true_and]
  | true =>
    have nothing : u.object? = none := by
      cases u <;> first | rfl | cases nullish
    simp only [evaluated, seen, nullish, ReadsAlike, nothing, memberOf, if_true, reduceCtorEq,
      false_and]

end

/-! ### Following a chain -/

section
variable {w w' : World Notes} {c : Chain} {log : Notes} {waiting : List Microtask}
  {now : List Subscriber} {owed : List Leaf} {cut : Prop} {rounds depth : Nat}

/-- A change of other things leaves a chain as it is. -/
theorem Rolling.spares (P : Rolling c log waiting now owed w) (h : w.Spares w')
    (bindings : w'.bindings = w.bindings) (attached : w'.attached = w.attached)
    (paths : w'.paths = w.paths) (host : w'.host = w.host) :
    Rolling c log waiting now owed w' := by
  have C : w.Carries w' fun _ => False := h.carries bindings attached
  refine P.carry ?_ rfl C (fun q m => P.rig.holder?_eq C paths m) h.get (fun o n => (h.due o n).2)
    h.microtasks host
  exact P.rig.carry C (.of_eq paths) (fun _ => False.elim) (fun _ _ _ _ => False.elim)
    (fun o n e => P.rig.plain o n ((h.doubled o n).1 e))
    (fun o n o' e => P.rig.closed o n o' ((h.get o n).symm.trans e))
    (fun o n due => (h.has o n).trans (P.rig.dueHas o n ((h.due o n).1 due)))

/-- What has been told before is not told now. -/
theorem Rolling.anew (P : Rolling c log waiting now owed w) :
    Rolling c w.host waiting now owed w :=
  ⟨P.rig, P.tasks, P.ordered, P.tracks, ⟨[], (List.append_nil _).symm, fun _ is => by cases is⟩,
    P.listed⟩

/-- What holds between two changes. -/
structure Following (c : Chain) (w : World Notes) : Prop where
  rolling : Rolling c w.host w.tasks.microtasks [] [] w
  rests : w.tasks.flushing = false

theorem Rigs.following {w₀ : World Notes} (J : w₀.Rigs w c) (idle : w₀.tasks.microtasks = [])
    (rests : w₀.tasks.flushing = false) : w.Following c where
  rolling := by
    rw [J.microtasks, idle]
    refine ⟨J.rig, J.microtasks.trans idle, J.ordered, ?_,
      ⟨[], (List.append_nil _).symm, fun _ is => by cases is⟩, fun l m => absurd m List.not_mem_nil⟩
    exact J.tracks.mono False.elim fun _ _ => False.elim
  rests := J.flushing.trans rests

theorem Following.write (F : w.Following c) {o : Ref .object} {n : String} {v : Value}
    (live : w.objects.contains o = true)
    (known : ∀ o', v = .object o' → w.objects.contains o' = true) : (w.set o n v).Following c := by
  obtain ⟨writes, -⟩ := set_spec F.rolling.rig.wired live (F.rolling.rig.plain o n) v
  exact ⟨(F.rolling.write live known).anew, (congrArg Backdrop.flushing writes.backdrop).trans F.rests⟩

/-- **A flush** ends if there are rounds for the microtasks that wait. -/
theorem Following.flush (F : w.Following c) (hooked : c.Hooked)
    (deep : c.links.length + 3 ≤ depth) (enough : rounds ≤ w.tasks.microtasks.length → cut) :
    (Run.flushMicrotasks (machine Host.noting rounds depth)).Ends cut w fun ran w' =>
      ran = w.tasks.microtasks.length ∧ Rolling c w.host [] [] [] w' ∧ w'.Following c := by
  have begun : Rolling c w.host w.tasks.microtasks [] [] (Run.markFlushing true w) :=
    F.rolling.spares ((aside_markFlushing w true).spares F.rolling.rig.wired) rfl rfl rfl rfl
  have as : (machine Host.noting rounds depth).rounds = rounds := by cases depth <;> rfl
  rw [Run.ends_flush F.rests, as]
  refine (drainMicrotasks_rolling hooked deep w.tasks.microtasks (Run.markFlushing true w) _ 0 begun
    enough).mono ?_
  rintro ran w' ⟨rfl, P⟩
  have ended : Rolling c w.host [] [] [] (Run.markFlushing false w') :=
    P.spares ((aside_markFlushing w' false).spares P.rig.wired) rfl rfl rfl rfl
  refine ⟨Nat.zero_add _, ended, ?_, rfl⟩
  rw [ended.tasks]
  exact ended.anew

/-- **What one change keeps.** -/
theorem Following.change (F : w.Following c) (hooked : c.Hooked)
    (deep : c.links.length + 3 ≤ depth) {change : Change} (allowed : change.Allowed w)
    (ran : change.run (machine Host.noting rounds depth) w = (.ok (), w')) : w'.Following c := by
  have kept : (change.run (machine Host.noting rounds depth)).Ends True w fun _ w' =>
      w'.Following c := by
    cases change with
    | write o n v => exact F.write allowed.1 allowed.2
    | flush =>
      simp only [Change.run, Run.ends_discard]
      exact (F.flush hooked deep fun _ => trivial).mono fun _ _ h => h.2.2
  exact (Run.ends_of_eq_ok ran).1 kept

/-- **What every run keeps.** -/
theorem Following.reaches (F : w.Following c) (hooked : c.Hooked)
    (deep : c.links.length + 3 ≤ depth) (reaches : Change.Reaches depth w w') : w'.Following c := by
  induction reaches with
  | refl => exact F
  | step _ allowed ran ih => exact ih.change hooked deep allowed ran

/-- Where nothing waits, the last path shows what one sees. -/
theorem Rolling.observerValue (P : Rolling c log [] [] [] w) {links : List ChainLink}
    {n : String} {p : Ref .path} (split : c.links = links ++ [(n, p)]) :
    w.observerValue (.path p) = w.finalValue (w.get c.root c.name) c.links ∧
      w.observerValue (.path p) = w.seen (w.get c.root c.name) (c.links.map (·.1)) := by
  have shows : w.observerValue (.path p) = w.finalValue (w.get c.root c.name) c.links := by
    rw [(P.rig.links links (n, p) [] split).observerValue P.rig.wired.toAttentive, split,
      finalValue_append]
    rfl
  exact ⟨shows, shows.trans P.settled.finalValue_eq⟩

end

/-! ### Runs -/

section
variable {w : World Notes} {root : Ref .object} {name : String} {provider : Provider}
  {scope : Scope} {members : List String} {n : String} {e : Expr} {depth : Nat}

/-- Nothing is watched yet, and properties hold data, objects among them that are there. -/
structure Opens (w : World Notes) (root : Ref .object) (provider : Provider) : Prop where
  unwatched : w.Unwatched
  provides : w.provides provider = true
  live : w.objects.contains root = true
  closed : ∀ o n o', w.get o n = .object o' → w.objects.contains o' = true
  plain : ∀ o n, ¬ w.IsDoubled o n
  rests : w.tasks.flushing = false

theorem Opens.fresh (h : w.Opens root provider) : w.Fresh root provider where
  wired := h.unwatched.wired
  provides := h.provides
  live := h.live
  closed := h.closed
  silent sub s o n := by
    rintro ⟨-, l, t, -, -, m⟩
    rw [h.unwatched.audience] at m
    cases m
  plain := h.plain
  dueHas o n due := absurd due (h.unwatched.wired.not_due h.unwatched.microtasks o n)

/-- **A member is followed** through every sequence of writes and flushes.  Connecting and
subscribing go through.  Whatever has been done since, a flush ends after the microtasks that wait
when it begins, its last note is the value that the observer shows then, and that is the value that
one sees who goes from object to object.  If every value before the last member is read alike, then
evaluation gives the same exactly if the last member is read alike as well. -/
theorem members_followed (opens : w.Opens root provider) (chain : e.IsChain name (members ++ [n]))
    (owner : w.ownerOf scope name = .object root) (deep : members.length + 4 ≤ depth)
    (hook : Ref .hook) (rounds : Nat) :
    ∃ info w₁ p s w₂,
      e.connect (machine Host.noting rounds depth) provider scope w = (.ok info, w₁) ∧
      info.observer = some (.path p) ∧
      Run.subscribe (machine Host.noting rounds depth) (.path p) (.hook hook) w₁ = (.ok s, w₂) ∧
      ∀ w', Change.Reaches depth w₂ w' → ∀ rounds, w'.tasks.microtasks.length < rounds →
        ∃ w'', Run.flushMicrotasks (machine Host.noting rounds depth) w' =
            (.ok w'.tasks.microtasks.length, w'') ∧
          w''.observerValue (.path p) = w''.seen (w''.get root name) (members ++ [n]) ∧
          (∃ new, w''.host = w'.host ++ new ∧
            ∀ note, new.getLast? = some note → note.1 = w''.observerValue (.path p)) ∧
          (w''.ownerOf scope name = .object root → w''.AllAlike (w''.get root name) members →
            ∀ env converters, ∃ v, e.eval env converters scope w'' = (.ok v, w'') ∧
              (v = w''.observerValue (.path p) ↔
                w''.ReadsAlike (w''.seen (w''.get root name) members) n)) := by
  -- connecting
  have connects : (e.connect (machine Host.noting rounds depth) provider scope).Ends False w _ :=
    connect_spec chain ⟨opens.unwatched.wired, opens.provides, opens.live, opens.closed⟩ owner
  obtain ⟨info, w₁, connected, readies, ob, links, known, P, names⟩ := connects.exists_eq_ok
  have F := opens.fresh.shifts readies.toShifts
  obtain ⟨p, links, rfl, rfl, split⟩ : ∃ p links', ob = .path p ∧ links = links' ++ [(n, p)] ∧
      links'.map (·.1) = members := by
    cases P with
    | root => simp at names
    | @link _ links' n' p _ before get =>
      rw [List.map_append] at names
      obtain ⟨before, same⟩ := List.append_inj' names rfl
      obtain rfl := (List.cons.inj same).1
      exact ⟨p, links', rfl, rfl, before⟩
  -- subscribing
  have length : (links ++ [(n, p)]).length = members.length + 1 := by simp [← split]
  have subscribes : (Run.subscribe (machine Host.noting rounds depth) (.path p) (.hook hook)).Ends
      False w₁ _ := subscribe_spec _ (.hook hook) length P F (by omega)
  obtain ⟨s, w₂, subscribed, c, rfl, rfl, rfl, told, hl, J⟩ := subscribes.exists_eq_ok
  refine ⟨info, w₁, p, s, w₂, connected, known, subscribed, fun w' reaches rounds enough => ?_⟩
  have deep' : c.links.length + 3 ≤ depth := by rw [hl, length]; omega
  have hooked : c.Hooked := .of_told told
  have start : w₂.Following c := J.following (readies.microtasks.trans opens.unwatched.microtasks)
    (readies.flushing.trans opens.rests)
  have flushes : (Run.flushMicrotasks (machine Host.noting rounds depth)).Ends False w' _ :=
    (start.reaches hooked deep' reaches).flush hooked deep' fun few => absurd enough (Nat.not_lt.2 few)
  obtain ⟨_, w'', flushed, rfl, rolled, -⟩ := flushes.exists_eq_ok
  obtain ⟨shows, sees⟩ := rolled.observerValue hl
  rw [hl, List.map_append, List.map_singleton, split] at sees
  refine ⟨w'', flushed, sees, ?_, fun owner' alike env converters => ⟨_, eval_chain chain, ?_⟩⟩
  · rw [shows]
    exact rolled.noted
  · have found : w''.lookup scope c.name = w''.get c.root c.name := by rw [lookup, owner', member]
    rw [sees, found]
    exact evaluated_eq_seen_iff alike n

end

/-! ### An office -/

/-- A view model with a user that has a name or is something else. -/
def office (user : Value) : World Notes :=
  (((((World.new .standard ([] : Notes)).newObject [("name", .string "Ann")]).2).newObject
    [("user", user)]).2.newLevel (.object ⟨1⟩)).2

/-- The scope of the office. -/
def officeScope : Scope := .root ⟨.object ⟨1⟩, ⟨2⟩⟩

theorem office_slot? {user : Value} {o : Ref .object} {n : String} {s : Slot}
    (e : (office user).slot? o n = some s) : s = .data (.string "Ann") ∨ s = .data user := by
  obtain ⟨_ | _ | _ | i⟩ := o
  · change Entries.get? n [("name", Slot.data (.string "Ann"))] = some s at e
    simp only [Entries.get?] at e
    split at e <;> cases e
    exact .inl rfl
  · change Entries.get? n [("user", Slot.data user)] = some s at e
    simp only [Entries.get?] at e
    split at e <;> cases e
    exact .inr rfl
  · cases e
  · cases e

theorem office_opens : (office (.object ⟨0⟩)).Opens ⟨1⟩ .engine where
  unwatched := (((unwatched_new Config.standard ([] : Notes)).newObject _).newObject _).newLevel _
  provides := rfl
  live := rfl
  closed o n o' e := by
    unfold World.get at e
    split at e
    next s slot =>
      rcases office_slot? slot with rfl | rfl
      · cases e
      · cases e
        rfl
    · cases e
  plain o n := by
    rintro ⟨v, slot⟩
    rcases office_slot? slot with is | is <;> cases is
  rests := rfl

/-- The name of the user. -/
def userName : Expr := .member (.name "user") "name"

/-- The name of the user is followed: the user is an object, and it takes another name. -/
theorem user_name_followed : ∃ info w₁ p s w₂ w',
    (office (.object ⟨0⟩)).Opens ⟨1⟩ .engine ∧ Expr.IsChain "user" ["name"] userName ∧
    userName.connect (machine Host.noting 1 4) .engine officeScope (office (.object ⟨0⟩)) =
      (.ok info, w₁) ∧ info.observer = some (.path p) ∧
    Run.subscribe (machine Host.noting 1 4) (.path p) (.hook ⟨0⟩) w₁ = (.ok s, w₂) ∧
    let w₃ := w₂.set ⟨0⟩ "name" (.string "Bob")
    Run.flushMicrotasks (machine Host.noting (w₃.tasks.microtasks.length + 1) 4) w₃ =
      (.ok w₃.tasks.microtasks.length, w') ∧
    w'.observerValue (.path p) = w'.seen (w'.get ⟨1⟩ "user") ["name"] := by
  have chain : Expr.IsChain "user" ([] ++ ["name"]) userName := .member .name _
  have owner : (office (.object ⟨0⟩)).ownerOf officeScope "user" = .object ⟨1⟩ := by decide +kernel
  obtain ⟨info, w₁, p, s, w₂, connected, known, subscribed, follows⟩ :=
    members_followed office_opens chain owner (Nat.le_refl 4) ⟨0⟩ 1
  -- the user is still there
  have there : (userName.connect (machine Host.noting 1 4) .engine officeScope).Ends False
      (office (.object ⟨0⟩)) fun info w₁ => info.observer = some (.path ⟨0⟩) ∧
        (Run.subscribe (machine Host.noting 1 4) (.path ⟨0⟩) (.hook ⟨0⟩)).Ends False w₁ fun _ w₂ =>
          w₂.objects.contains ⟨0⟩ = true := by decide +kernel
  obtain ⟨first, there⟩ := (Run.ends_of_eq_ok connected).1 there
  obtain rfl : p = ⟨0⟩ := by simpa [known] using first
  have allowed : (Change.write ⟨0⟩ "name" (.string "Bob")).Allowed w₂ :=
    ⟨(Run.ends_of_eq_ok subscribed).1 there, fun o e => by cases e⟩
  have written : (Change.write ⟨0⟩ "name" (.string "Bob")).run (machine Host.noting 1 4) w₂ =
    (.ok (), w₂.set ⟨0⟩ "name" (.string "Bob")) := rfl
  obtain ⟨w', flushed, shows, -⟩ := follows _ (.step (.refl w₂) allowed written) _ (Nat.lt_succ_self _)
  exact ⟨info, w₁, ⟨0⟩, s, w₂, w', office_opens, chain, connected, known, subscribed, flushed, shows⟩

/-- The length of the user. -/
def userLength : Expr := .member (.name "user") "length"

/-- **The length of a text goes unseen.**  Connecting finds that the text is three long, but the
observer shows `undefined`, also after the text has become another one, of which evaluation finds that
it is four long.  When `null` takes the place of the text, the flush tells `undefined`, and evaluation
finds `null`. -/
theorem text_length_unseen :
    ((userLength.connect (machine Host.noting 9 9) .engine officeScope).Ends False
        (office (.string "abc")) fun info w₁ => info = ⟨.number 3.0, some (.path ⟨0⟩)⟩ ∧
      (Run.subscribe (machine Host.noting 9 9) (.path ⟨0⟩) (.hook ⟨0⟩)).Ends False w₁ fun _ w₂ =>
        w₂.observerValue (.path ⟨0⟩) = .undefined ∧
      (Run.flushMicrotasks (machine Host.noting 9 9)).Ends False
        (w₂.set ⟨1⟩ "user" (.string "abcd")) fun _ w₃ =>
          w₃.observerValue (.path ⟨0⟩) = .undefined ∧
      (userLength.eval (machine Host.noting 9 9) .registered officeScope).Ends False w₃ fun v _ =>
        v = .number 4.0) ∧
    ((userLength.connect (machine Host.noting 9 9) .engine officeScope).Ends False
        (office (.string "abc")) fun info w₁ => info = ⟨.number 3.0, some (.path ⟨0⟩)⟩ ∧
      (Run.subscribe (machine Host.noting 9 9) (.path ⟨0⟩) (.hook ⟨0⟩)).Ends False w₁ fun _ w₂ =>
      (Run.flushMicrotasks (machine Host.noting 9 9)).Ends False
        (w₂.set ⟨1⟩ "user" .null) fun _ w₃ => w₃.host = [(.undefined, .undefined)] ∧
      (userLength.eval (machine Host.noting 9 9) .registered officeScope).Ends False w₃ fun v _ =>
        v = .null) :=
  ⟨by decide +kernel, by decide +kernel⟩

end World

end ViewBinding
