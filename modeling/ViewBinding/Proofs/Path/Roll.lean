import ViewBinding.Proofs.Path.Cascade

/-!
# Path — telling the links of a chain

A microtask tells the subscribers of one leaf after the other.  Those further down a chain are told
before those that they depend on (`IsOwed.order`), so none of them is told what no longer concerns
it.  Whoever has not been told yet is `Hot`, and what comes after a hot link may lag behind
(`Rolling`).

A write of a property makes the links hot that watch it (`Rolling.write`).  A microtask takes what is
due and tells it (`Takes.rolling`), so nobody is hot any more when the microtasks have come to their
end (`drainMicrotasks_rolling`), and every link watches the member of the value before it.
-/

namespace ViewBinding

namespace World

section
variable {η : Type} {w w' : World η} {c : Chain} {moved : Subscriber → Prop} {l : Leaf}
  {sub sub' : Subscriber} {now now' : List Subscriber} {owed : List Leaf}

/-- A subscriber is still to be told: about a change that is due, or it is among those who are told
`now`, or among those whom the leaves `owed` tell. -/
def Hot (w : World η) (now : List Subscriber) (owed : List Leaf) (sub : Subscriber) : Prop :=
  (∃ s o n, w.Enrolled s o n sub ∧ w.Due o n) ∨ sub ∈ now ∨ ∃ l ∈ owed, sub ∈ w.told l

/-- A leaf of a property that is there, whose audience hears of the property. -/
structure IsOwed (w : World η) (l : Leaf) (o : Ref .object) (n : String) : Prop where
  place : w.place? l = some (o, n)
  has : w.has o n = true
  listed : ∀ u, l = .placeholder u → w.Listed u o n

variable {o : Ref .object} {n : String}

theorem IsOwed.carry (h : w.IsOwed l o n) (C : w.Carries w' moved) : w'.IsOwed l o n where
  place := C.place? l _ h.place
  has := C.has o n h.has
  listed u is := C.listed u o n (is ▸ h.place) h.has (h.listed u is)

/-- A leaf that is no placeholder is the one at its property. -/
theorem Located.leafAt?_of_place? (h : w.Located) (place : w.place? l = some (o, n))
    (other : ∀ u, l ≠ .placeholder u) : w.leafAt? o n = some l := by
  rcases h.unique o n l place with at' | ⟨r, successor, -⟩
  · exact at'
  · cases l with
    | placeholder u => exact absurd rfl (other u)
    | _ => cases successor

/-- Whom a leaf tells hears of its property. -/
theorem IsOwed.enrolled (h : w.IsOwed l o n) (wired : w.Wired) {t : Token}
    (m : (t, sub) ∈ w.audience l) : ∃ s, w.Enrolled s o n sub ∧
      (∀ u, l = .placeholder u → w.directVoice? s = some (l, t)) ∧
        ((∀ u, l ≠ .placeholder u) → w.voice? s = some (l, t)) := by
  by_cases other : ∀ u, l ≠ .placeholder u
  · have at' := wired.leafAt?_of_place? h.place other
    obtain ⟨s, own, voice⟩ := wired.voiced o n l t sub at' m
    exact ⟨s, ⟨own, l, t, voice, at', m⟩, fun u is => absurd is (other u), fun _ => voice⟩
  · obtain ⟨u, is⟩ := Classical.not_forall.1 other
    obtain rfl := Classical.not_not.1 is
    obtain ⟨s, e, direct⟩ := h.listed u rfl t sub m
    exact ⟨s, e, fun _ _ => direct, fun no => absurd rfl (no u)⟩

/-- **Whoever depends on another one is told first.** -/
theorem IsOwed.order (h : w.IsOwed l o n) (wired : w.Wired) (O : w.Ordered c c.links) :
    (w.told l).Pairwise fun sub sub' => ¬ c.Below sub sub' := by
  have orders : ∀ {sub sub'}, c.Below sub sub' → w.Orders sub sub' :=
    fun below => List.pairwise_iff_forall_sublist.1 O below
  by_cases other : ∀ u, l ≠ .placeholder u
  · have told : w.told l = (w.audience l).reverse.map (·.2) := by
      cases l with
      | placeholder u => exact absurd rfl (other u)
      | _ => rfl
    rw [told, List.pairwise_map, List.pairwise_reverse]
    refine (wired.sorted l).imp_of_mem fun {p p'} m m' earlier below => ?_
    -- the later one is told first, so it cannot come first in the chain
    obtain ⟨s, e, -, voice⟩ := h.enrolled wired m
    obtain ⟨s', e', -, voice'⟩ := h.enrolled wired m'
    obtain ⟨l₁, t, t', _, _, v, v', -, -, later⟩ := (orders below).before s' s o n e' e
    rw [voice' other, Option.some.injEq, Prod.mk.injEq] at v
    rw [voice other, Option.some.injEq, Prod.mk.injEq] at v'
    rw [← v.2, ← v'.2] at later
    exact Nat.lt_asymm earlier later
  · obtain ⟨u, is⟩ := Classical.not_forall.1 other
    obtain rfl := Classical.not_not.1 is
    rw [told, List.pairwise_map]
    refine (wired.sorted _).imp_of_mem fun {p p'} m m' _ below => ?_
    -- two that are registered with one placeholder are not in one chain
    obtain ⟨s, e, direct, -⟩ := h.enrolled wired m
    obtain ⟨s', e', direct', -⟩ := h.enrolled wired m'
    exact (orders below).parked s s' o o n n u p.1 p'.1 e e' (direct u rfl) (direct' u rfl)

/-- Who stays is still to be told. -/
theorem Hot.carry (H : w.Hot now owed sub) (C : w.Carries w' moved) (stays : ¬ moved sub)
    (due : ∀ o n, w.Due o n → w'.Due o n) (fewer : sub ∈ now → sub ∈ now')
    (listed : ∀ l ∈ owed, ∃ o n, w.IsOwed l o n) (wired : w.Wired) : w'.Hot now' owed sub := by
  rcases H with ⟨s, o, n, e, d⟩ | m | ⟨l, m, heard⟩
  · exact .inl ⟨s, o, n, (C.enrolled s o n sub stays).2 e, due o n d⟩
  · exact .inr (.inl (fewer m))
  · obtain ⟨o, n, h⟩ := listed l m
    obtain ⟨t, heard⟩ := mem_told.1 heard
    obtain ⟨s, e, direct, -⟩ := h.enrolled wired heard
    refine .inr (.inr ⟨l, m, mem_told.2 ?_⟩)
    by_cases other : ∀ u, l ≠ .placeholder u
    · obtain ⟨-, l', t', -, at', m'⟩ := (C.enrolled s o n sub stays).2 e
      rw [C.wired.leafAt?_of_place? (C.place? l _ h.place) other, Option.some.injEq] at at'
      exact ⟨t', at' ▸ m'⟩
    · obtain ⟨u, is⟩ := Classical.not_forall.1 other
      exact ⟨t, C.registered s o n sub l t stays e (direct u (Classical.not_not.1 is)) heard⟩

end

/-- While a microtask tells the subscribers `now` and then the leaves `owed`: every link watches the
member of the value before it, unless somebody before it is hot, and what the hook has heard last
since `log` is the value at the end.  The other microtasks are `waiting`. -/
structure Rolling (c : Chain) (log : Notes) (waiting : List Microtask) (now : List Subscriber)
    (owed : List Leaf) (w : World Notes) : Prop where
  rig : w.Rig c
  tasks : w.tasks.microtasks = waiting
  ordered : w.Ordered c c.links
  tracks : w.Tracks (w.Hot now owed) (w.Hot now owed (c.down c.links)) (w.get c.root c.name) c.links
  noted : ∃ new, w.host = log ++ new ∧ ∀ note, new.getLast? = some note →
    note.1 = w.finalValue (w.get c.root c.name) c.links
  listed : ∀ l ∈ owed, ∃ o n, w.IsOwed l o n

section
variable {w w' : World Notes} {c : Chain} {log : Notes} {waiting : List Microtask}
  {now : List Subscriber} {owed : List Leaf} {cut : Prop} {rounds depth : Nat} {sub : Subscriber}
  {done rest : List ChainLink}

/-- Whoever comes before somebody who hears of something hears of what is there. -/
theorem Ordered.present (O : w.Ordered c c.links) {s : Ref .subscription} {o : Ref .object}
    {n : String} (e : w.Enrolled s o n sub) {sub' : Subscriber} (below : c.Below sub' sub) :
    w.Present sub' := by
  intro s' o' n' e'
  by_cases has : w.has o' n' = true
  · exact has
  · have orders := List.pairwise_iff_forall_sublist.1 O below
    exact absurd e (orders.absent s' o' n' e' (Bool.not_eq_true _ ▸ has) s o n)

/-- Nobody hears of two properties. -/
theorem Rig.place_eq (R : w.Rig c) {s s' : Ref .subscription} {o o' : Ref .object} {n n' : String}
    (e : w.Enrolled s o n sub) (e' : w.Enrolled s' o' n' sub) : o = o' ∧ n = n' := by
  rcases Chain.mem_subs.1 (R.known s o n sub e) with rfl | ⟨q, m, rfl⟩
  · obtain ⟨-, rfl, rfl⟩ := (R.anchored s o n).1 e
    obtain ⟨-, rfl, rfl⟩ := (R.anchored s' o' n').1 e'
    exact ⟨rfl, rfl⟩
  · obtain ⟨done, rest, split⟩ := List.append_of_mem m
    have L := R.links done q rest split
    obtain ⟨holder, rfl⟩ := L.holder?_of_enrolled e
    obtain ⟨holder', rfl⟩ := L.holder?_of_enrolled e'
    exact ⟨Option.some.inj (holder.symm.trans holder'), rfl⟩

/-- **Telling one subscriber of a chain.**  What it tells runs down the links after it. -/
theorem Rig.announce (R : w.Rig c) (O : w.Ordered c c.links) (hooked : c.Hooked)
    (deep : c.links.length + 3 ≤ depth) {before : List Subscriber} (split : c.links = done ++ rest)
    (last : c.subs done = before ++ [sub]) {s : Ref .subscription} {o : Ref .object} {n : String}
    (e : w.Enrolled s o n sub) (old : Value) :
    w.finalValue (w.get c.root c.name) done = w.get o n ∧
      ((machine Host.noting rounds depth).announce sub (w.get o n) old).Ends cut w
        fun _ w' => w.Cascaded w' c rest (w.get o n) := by
  have present : (w.get o n).object? ≠ none → ∀ sub' ∈ c.subs done, w.Present sub' := by
    intro some sub' m
    rw [last, List.mem_append, List.mem_singleton] at m
    rcases m with m | rfl
    · exact O.present e (Chain.below_of_mem_before split last m)
    · intro s' o' n' e'
      obtain ⟨rfl, rfl⟩ := R.place_eq e e'
      exact has_of_object? some
  have live : ∀ o', (w.get o n).object? = some o' → w.objects.contains o' = true :=
    fun o' is => R.closed o n o' (Value.object?_eq_some.1 is)
  have shorter : rest.length ≤ c.links.length := by simp [split]
  have O' : w.Ordered c done := by
    unfold Ordered at O ⊢
    rw [split, Chain.subs_append] at O
    exact (List.pairwise_append.1 O).1
  rcases List.eq_nil_or_concat done with rfl | ⟨done, q, rfl⟩
  · -- the first of the chain
    obtain ⟨rfl, is⟩ : before = [] ∧ c.down c.links = sub := by
      cases before with
      | nil => exact ⟨rfl, (List.cons.inj last).1⟩
      | cons => simp [Chain.subs] at last
    subst is
    obtain ⟨rfl, rfl, rfl⟩ := (R.anchored s o n).1 e
    rw [List.nil_append] at split
    have runs : ((machine Host.noting rounds depth).announceAll (c.told rest).reverse _ old).Ends
        cut w _ := cascade hooked rest [] w _ old depth split R O' live present (by omega)
    simp only [← split, Chain.told_links, List.reverse_singleton, Env.announceAll,
      Run.ends_forEach_cons, Run.ends_forEach_nil] at runs
    exact ⟨rfl, split ▸ runs⟩
  · rw [List.concat_eq_append, Chain.subs_append] at last
    obtain ⟨rfl, is⟩ := List.append_inj' last rfl
    obtain rfl : Subscriber.pathMember q.2 = sub := (List.cons.inj is).1
    rw [List.concat_eq_append] at split O' present ⊢
    have L : w.Link c q rest := R.links done q rest (by simpa using split)
    obtain ⟨holder, rfl⟩ := L.holder?_of_enrolled e
    refine ⟨by rw [finalValue_append, finalValue, finalValue, holder, memberOf], ?_⟩
    obtain ⟨depth, rfl⟩ : ∃ d, depth = d + 1 := ⟨depth - 1, by omega⟩
    change (Run.tellPath (machine Host.noting rounds depth) q.2 (w.get o q.1)).Ends cut w _
    refine L.tellPath R.wired fun w₁ old' passes => ?_
    have R₁ : w₁.Rig c := R.shifts passes.toShifts passes.paths
      (fun _ moved => moved.elim) (fun _ _ _ _ moved => moved.elim)
    refine (cascade hooked rest (done ++ [q]) w₁ _ old' depth split R₁
      (O'.carry passes.toCarries fun _ _ => id) (fun o' is => (passes.contains o').trans (live o' is))
      (fun some sub' m => passes.present id (present some sub' m)) (by omega)).mono fun _ w' C => ?_
    exact .of_passes passes C

/-- What has run down the rest of a chain leaves the links before it as they are. -/
theorem Cascaded.holder?_eq {v : Value} (C : w.Cascaded w' c rest v) (R : w.Rig c)
    (split : c.links = done ++ rest) {q : ChainLink} (m : q ∈ done) :
    w'.holder? q.2 = w.holder? q.2 := by
  obtain ⟨done, after, rfl⟩ := List.append_of_mem m
  have split' : c.links = done ++ q :: (after ++ rest) := by simpa using split
  refine (R.links _ _ _ split').holder?_eq C.shifts.toCarries (C.paths q.2 ?_)
  exact fun ⟨q', m', same⟩ => Chain.not_mem_rest split' (List.mem_append_right _ m') same

/-- The links before the one that is told lag behind as before. -/
theorem Rolling.tracks_done {v : Value} (P : Rolling c log waiting (sub :: now) owed w)
    (split : c.links = done ++ rest) {before : List Subscriber} (last : c.subs done = before ++ [sub])
    (C : w.Cascaded w' c rest v) :
    w'.Tracks (w'.Hot now owed) (w'.Hot now owed (c.down c.links)) (w'.get c.root c.name) done := by
  have tracks := P.tracks
  rw [split, tracks_append, ← split] at tracks
  rw [tracks_congr (fun q m => C.holder?_eq P.rig split m) C.shifts.get, C.shifts.get]
  rcases List.eq_nil_or_concat done with rfl | ⟨done, q, rfl⟩
  · trivial
  · rw [List.concat_eq_append] at split last tracks ⊢
    rw [Chain.subs_append] at last
    obtain ⟨-, is⟩ := List.append_inj' last rfl
    obtain rfl : Subscriber.pathMember q.2 = sub := (List.cons.inj is).1
    have hot : ∀ sub ∈ c.subs done, w.Hot (.pathMember q.2 :: now) owed sub →
        w'.Hot now owed sub := by
      intro sub m H
      have m' : sub ∈ c.subs (done ++ [q]) := Chain.mem_subs_snoc.2 (.inl m)
      have ne : sub ≠ .pathMember q.2 :=
        Chain.ne_of_mem_subs (show c.links = done ++ q :: rest by simpa using split) m
      exact H.carry C.shifts.toCarries (Chain.not_mem_of_mem_subs split m')
        (fun o n => (C.shifts.due o n).2) (fun m => (List.mem_cons.1 m).resolve_left ne) P.listed
        P.rig.wired
    refine tracks.1.mono (hot _ (Chain.mem_subs.2 (.inl rfl))) fun q' m => hot _ ?_
    rw [List.dropLast_concat] at m
    exact Chain.mem_subs.2 (.inr ⟨q', m, rfl⟩)

/-- **Telling one subscriber.** -/
theorem Rolling.announce (P : Rolling c log waiting (sub :: now) owed w) (hooked : c.Hooked)
    (deep : c.links.length + 3 ≤ depth) {s : Ref .subscription} {o : Ref .object} {n : String}
    (e : w.Enrolled s o n sub) (old : Value) :
    ((machine Host.noting rounds depth).announce sub (w.get o n) old).Ends cut w fun _ w' =>
      Rolling c log waiting now owed w' ∧ w.Shifts w' (c.Below sub) ∧
        ∃ notes, notes ≠ [] ∧ w'.host = w.host ++ notes := by
  obtain ⟨done, rest, before, split, last⟩ := Chain.exists_last (P.rig.known s o n sub e)
  obtain ⟨value, ends⟩ : _ ∧ ((machine Host.noting rounds depth).announce sub _ old).Ends cut w _ :=
    P.rig.announce P.ordered hooked deep split last e old
  refine ends.mono fun _ w' C => ⟨⟨C.rig, C.shifts.microtasks.trans P.tasks, C.ordered, ?_, ?_,
    fun l m => ?_⟩, C.shifts.mono ?_, C.noted.imp fun _ h => ⟨h.1, h.2.1⟩⟩
  · have value' : w'.finalValue (w'.get c.root c.name) done = w.get o n := by
      rw [finalValue_congr (fun q m => C.holder?_eq P.rig split m) C.shifts.get, C.shifts.get, value]
    have first := P.tracks_done split last C
    rw [split, tracks_append, value', ← split]
    exact ⟨first, C.tracks.mono False.elim fun _ _ => False.elim⟩
  · obtain ⟨new, host, -⟩ := P.noted
    obtain ⟨notes, some, host', same⟩ := C.noted
    refine ⟨new ++ notes, by rw [host', host, List.append_assoc], fun note is => ?_⟩
    rw [List.getLast?_append, List.getLast?_eq_some_getLast some, Option.some_or,
      Option.some.injEq] at is
    rw [same note (is ▸ List.getLast_mem some), split, finalValue_append,
      finalValue_congr (fun q m => C.holder?_eq P.rig split m) C.shifts.get, C.shifts.get, value]
  · obtain ⟨o, n, h⟩ := P.listed l m
    exact ⟨o, n, h.carry C.shifts.toCarries⟩
  · rintro sub' ⟨q, m, rfl⟩
    exact Chain.below_of_mem_rest split last m

/-- Telling everybody whom a leaf tells.  Each of them makes the hooks take notes. -/
theorem Rolling.announceAll {l : Leaf} {o : Ref .object} {n : String} {owed : List Leaf}
    (P : Rolling c log waiting (w.told l) owed w) (owes : w.IsOwed l o n) (hooked : c.Hooked)
    (deep : c.links.length + 3 ≤ depth) (old : Value) :
    ((machine Host.noting rounds depth).announceAll (w.told l) (w.get o n) old).Ends cut w
      fun _ w' => Rolling c log waiting [] owed w' ∧
        (∀ l v, w.place? l = some v → w'.place? l = some v) ∧
          ∃ notes, w'.host = w.host ++ notes ∧ (w.told l).length ≤ notes.length := by
  refine (Run.ends_forEach (fun now w' => Rolling c log waiting now owed w' ∧
    (∀ sub ∈ now, ∃ s, w'.Enrolled s o n sub) ∧ now.Pairwise (fun sub sub' => ¬ c.Below sub sub') ∧
      w'.get o n = w.get o n ∧ (∀ l v, w.place? l = some v → w'.place? l = some v) ∧
      ∃ notes, w'.host = w.host ++ notes ∧ (w.told l).length ≤ notes.length + now.length)
    ⟨P, fun sub m => ?_, owes.order P.rig.wired P.ordered, rfl, fun _ _ e => e, [], by simp, by simp⟩
    fun sub now w' h => ?_).mono fun _ w' h => ⟨h.1, h.2.2.2.2⟩
  · obtain ⟨t, m⟩ := mem_told.1 m
    obtain ⟨s, e, -⟩ := owes.enrolled P.rig.wired m
    exact ⟨s, e⟩
  · obtain ⟨P, heard, order, get, places, notes, host, length⟩ := h
    obtain ⟨s, e⟩ := heard sub List.mem_cons_self
    obtain ⟨first, order⟩ := List.pairwise_cons.1 order
    rw [← get]
    refine (P.announce hooked deep e old).mono fun _ w'' h => ?_
    obtain ⟨P', S, more, some, host'⟩ := h
    refine ⟨P', fun sub' m => ?_, order, S.get o n, fun l v e => S.place? l v (places l v e),
      notes ++ more, by rw [host', host, List.append_assoc], ?_⟩
    · obtain ⟨s', e'⟩ := heard sub' (List.mem_cons_of_mem _ m)
      exact ⟨s', (S.enrolled s' o n sub' (first sub' m)).2 e'⟩
    · have := List.length_pos_iff.2 some
      rw [List.length_cons] at length
      rw [List.length_append]
      omega

/-- The subscribers of the first leaf owed are told now. -/
theorem Rolling.turn {l : Leaf} (P : Rolling c log waiting [] (l :: owed) w) :
    Rolling c log waiting (w.told l) owed w := by
  have turn : ∀ sub, w.Hot [] (l :: owed) sub → w.Hot (w.told l) owed sub := by
    rintro sub (due | m | ⟨l', m, heard⟩)
    · exact .inl due
    · cases m
    · rcases List.mem_cons.1 m with rfl | m
      · exact .inr (.inl heard)
      · exact .inr (.inr ⟨l', m, heard⟩)
  exact ⟨P.rig, P.tasks, P.ordered, P.tracks.mono (turn _) fun q _ => turn _, P.noted,
    fun l' m => P.listed l' (List.mem_cons_of_mem _ m)⟩

/-- What moves nobody and changes no value changes nothing for those who are to be told, whoever
hears of the value at the end. -/
theorem Rolling.carry (P : Rolling c log waiting now owed w) {c' : Chain} (rig : w'.Rig c')
    (same : c'.course = c.course) (h : w.Carries w' fun _ => False)
    (holders : ∀ q ∈ c.links, w'.holder? q.2 = w.holder? q.2)
    (get : ∀ o n, w'.get o n = w.get o n) (due : ∀ o n, w.Due o n → w'.Due o n)
    (tasks : w'.tasks.microtasks = w.tasks.microtasks) (host : w'.host = w.host) :
    Rolling c' log waiting now owed w' := by
  obtain ⟨root, name, links, down⟩ := Chain.course_eq same
  have hot : ∀ sub, w.Hot now owed sub → w'.Hot now owed sub := fun sub H =>
    H.carry h id due id P.listed P.rig.wired
  refine ⟨rig, tasks.trans P.tasks, ?_, ?_, ?_, fun l m => ?_⟩
  · have carried : w'.Ordered c c.links := P.ordered.carry h fun _ _ => id
    unfold Ordered Chain.subs at carried ⊢
    rwa [down, links]
  · rw [down, links, root, name, tracks_congr holders get, get]
    exact P.tracks.mono (hot _) fun q _ => hot _
  · rw [host, links, root, name, finalValue_congr holders get, get]
    exact P.noted
  · obtain ⟨o, n, owes⟩ := P.listed l m
    exact ⟨o, n, owes.carry h⟩

theorem Rolling.passes (P : Rolling c log waiting now owed w) (h : w.Passes w' fun _ => False) :
    Rolling c log waiting now owed w' := by
  refine P.carry (P.rig.shifts h.toShifts h.paths nofun nofun) rfl h.toCarries (fun q m => ?_) h.get
    (fun o n => (h.due o n).2) h.microtasks h.host
  obtain ⟨done, rest, split⟩ := List.append_of_mem m
  exact (P.rig.links done q rest split).holder?_eq h.toCarries (h.paths q.2 id)

/-- **Telling pays.** -/
theorem pays_rolling (hooked : c.Hooked) (deep : c.links.length + 3 ≤ depth) :
    Pays (machine Host.noting rounds depth) cut
      (fun owed w => Rolling c log waiting [] owed w) where
  wired owed w P := P.rig.wired
  resolve u owed w P stays _ := P.passes stays.passes
  tell l owed w o n old P place := by
    obtain ⟨o', n', owes⟩ := P.listed l List.mem_cons_self
    have place' := owes.place
    rw [place, Option.some.injEq, Prod.mk.injEq] at place'
    obtain ⟨rfl, rfl⟩ := place'
    exact (P.turn.announceAll owes hooked deep old).mono fun _ _ h => ⟨h.1, h.2.1⟩

end

/-! ### Writes and flushes -/

variable {w w' : World Notes} {c : Chain} {log : Notes} {waiting rest : List Microtask}
  {now : List Subscriber} {owed : List Leaf} {cut : Prop} {rounds rounds' depth : Nat}
  {sub : Subscriber}

/-- What tunes the leaves leaves the links where they are. -/
theorem Rig.holder?_eq (R : w.Rig c) (C : w.Carries w' fun _ => False) (paths : w'.paths = w.paths)
    {q : ChainLink} (m : q ∈ c.links) : w'.holder? q.2 = w.holder? q.2 := by
  obtain ⟨done, rest, split⟩ := List.append_of_mem m
  exact (R.links done q rest split).holder?_eq C (by rw [paths])

/-- A link watches its member, if it watches anything. -/
theorem Rig.enrolled_of_holder? (R : w.Rig c) {q : ChainLink} (m : q ∈ c.links) {o : Ref .object}
    (holder : w.holder? q.2 = some o) : ∃ s, w.Enrolled s o q.1 (.pathMember q.2) := by
  obtain ⟨done, rest, split⟩ := List.append_of_mem m
  obtain ⟨cell, get, -, -, seated⟩ := R.links done q rest split
  generalize known : cell.right = right, cell.rightSubscription = s' at seated
  have holder' := holder?_of_seated get known seated rfl
  rw [holder] at holder'
  cases seated with
  | away silent => cases holder'
  | «at» place live direct enrolled =>
    rw [Option.bind_some, place, Option.map_some] at holder'
    obtain rfl := Option.some.inj holder'
    exact ⟨_, (enrolled _ _ _).2 ⟨rfl, rfl, rfl⟩⟩

/-- **Writing a property** makes those hot who hear of it. -/
theorem Rolling.write (P : Rolling c log waiting [] [] w) {o : Ref .object} {n : String} {v : Value}
    (live : w.objects.contains o = true)
    (known : ∀ o', v = .object o' → w.objects.contains o' = true) :
    Rolling c w.host (w.set o n v).tasks.microtasks [] [] (w.set o n v) := by
  have R := P.rig
  obtain ⟨writes, same⟩ := set_spec R.wired live (R.plain o n) v
  generalize w.set o n v = w' at writes same ⊢
  have host : w'.host = w.host := congrArg Backdrop.host writes.backdrop
  have paths : w'.paths = w.paths := congrArg Backdrop.paths writes.backdrop
  have has : ∀ o' n', w.has o' n' = true → w'.has o' n' = true := fun o' n' has => by
    rcases same with ⟨rfl, -⟩ | ⟨-, -, -, has', -⟩
    · exact has
    · by_cases here : o' = o ∧ n' = n
      · rw [here.1, here.2, has']
      · rw [writes.has o' n' here, has]
  have C : w.Carries w' fun _ => False := writes.toTunes.carries writes.wired has
    (congrArg Backdrop.bindings writes.backdrop) (congrArg Backdrop.attached writes.backdrop)
  have hot : ∀ sub, w.Hot [] [] sub → w'.Hot [] [] sub := fun sub H =>
    H.carry C id writes.due id nofun R.wired
  -- who hears of the property will be told
  have tells : ∀ {s sub}, w.Enrolled s o n sub → w'.get o n = w.get o n ∨ w'.Hot [] [] sub := by
    intro s sub e
    rcases same with ⟨rfl, -⟩ | ⟨-, -, -, -, tells⟩
    · exact .inl rfl
    · obtain ⟨l, t, -, at', m⟩ := e.heard
      have due := tells l at' (List.ne_nil_of_mem m)
      exact .inr (.inl ⟨s, o, n, C.enrolled s o n sub id |>.2 e, due⟩)
  have value : ∀ {s o' n' sub}, w.Enrolled s o' n' sub →
      w'.get o' n' = w.get o' n' ∨ w'.Hot [] [] sub := by
    intro s o' n' sub e
    by_cases here : o' = o ∧ n' = n
    · obtain ⟨rfl, rfl⟩ := here
      exact tells e
    · exact .inl (writes.get o' n' here)
  have rig : w'.Rig c := by
    refine R.carry C (.of_eq paths) nofun nofun (fun o' n' e => R.plain o' n' (writes.doubled o' n' e))
      (fun o' n' o'' e => ?_) fun o' n' due => ?_
    · by_cases here : o' = o ∧ n' = n
      · rcases same with ⟨rfl, -⟩ | ⟨-, -, get, -, -⟩
        · exact R.closed o' n' o'' e
        · rw [here.1, here.2, get] at e
          exact known o'' e
      · exact R.closed o' n' o'' ((writes.get o' n' here).symm.trans e)
    · rcases writes.dueOr o' n' due with due | ⟨rfl, rfl⟩
      · exact has o' n' (R.dueHas o' n' due)
      · rcases same with ⟨rfl, -⟩ | ⟨-, -, -, has', -⟩
        · exact R.dueHas o' n' due
        · exact has'
  refine ⟨rig, rfl, P.ordered.carry C fun _ _ => id, ?_, ⟨[], by simp [host], nofun⟩, nofun⟩
  refine P.tracks.change (fun q m => R.holder?_eq C paths m) (fun q m => ?_) (fun q _ => hot _) (hot _)
    (value ((R.anchored _ _ _).2 ⟨rfl, rfl, rfl⟩))
  cases holder : w.holder? q.2 with
  | none => exact .inl rfl
  | some o' =>
    obtain ⟨s, e⟩ := R.enrolled_of_holder? m holder
    exact value e

theorem Takes.carries (takes : w.Takes w' rest owed) : w.Carries w' fun _ => False :=
  takes.toTunes.carries takes.wired (fun o n e => (takes.has o n).trans e)
    (congrArg Backdrop.bindings takes.backdrop) (congrArg Backdrop.attached takes.backdrop)

/-- Whoever was to be told about what a microtask takes is told by the leaves owed. -/
theorem Takes.hot (takes : w.Takes w' rest owed) (H : w.Hot [] [] sub) : w'.Hot [] owed sub := by
  rcases H with ⟨s, o, n, e, due⟩ | m | ⟨l, m, -⟩
  · have e' := (takes.carries.enrolled s o n sub id).2 e
    by_cases due' : w'.Due o n
    · exact .inl ⟨s, o, n, e', due'⟩
    · obtain ⟨l, t, -, at', m⟩ := e.heard
      refine .inr (.inr ⟨l, takes.owes o n l due due' at' (List.ne_nil_of_mem m), ?_⟩)
      exact mem_told.2 ⟨t, (takes.audience l).symm ▸ m⟩
  · cases m
  · cases m

/-- A microtask takes what is due. -/
theorem Takes.rolling (P : Rolling c log waiting [] [] w) (takes : w.Takes w' rest owed) :
    Rolling c log rest [] owed w' := by
  have R := P.rig
  have host : w'.host = w.host := congrArg Backdrop.host takes.backdrop
  have paths : w'.paths = w.paths := congrArg Backdrop.paths takes.backdrop
  have C := takes.carries
  have holders := fun q m => R.holder?_eq C paths (q := q) m
  have hot : ∀ sub, w.Hot [] [] sub → w'.Hot [] owed sub := fun _ => takes.hot
  refine ⟨R.carry C (.of_eq paths) nofun nofun (fun o n e => R.plain o n (takes.doubled o n e))
    (fun o n o' e => R.closed o n o' ((takes.get o n).symm.trans e))
    (fun o n due => (takes.has o n).trans (R.dueHas o n (takes.due o n due))),
    congrArg Backdrop.microtasks takes.backdrop, P.ordered.carry C fun _ _ => id, ?_, ?_,
    fun l m => ?_⟩
  · rw [tracks_congr holders takes.get, takes.get]
    exact P.tracks.mono (hot _) fun q _ => hot _
  · rw [host, finalValue_congr holders takes.get, takes.get]
    exact P.noted
  · obtain ⟨o, n, at', due⟩ := takes.handed l m
    refine ⟨o, n, (takes.place? l).trans (R.wired.current o n l at').1,
      (takes.has o n).trans (R.dueHas o n due), ?_⟩
    rintro u rfl t sub m
    rw [takes.audience] at m
    obtain ⟨s, own, voice⟩ := R.wired.voiced o n _ t sub at' m
    have direct := R.wired.directVoice?_of_voice? voice
    exact ⟨s, (C.enrolled s o n sub id).2 ⟨own, _, t, voice, at', m⟩,
      (C.direct s o n sub id ⟨own, _, t, voice, at', m⟩).trans direct⟩

/-- **The microtasks come to an end**, unless there are too few rounds for those that wait. -/
theorem drainMicrotasks_rolling (hooked : c.Hooked) (deep : c.links.length + 3 ≤ depth)
    (waiting : List Microtask) : ∀ (w : World Notes) (rounds ran : Nat),
      Rolling c log waiting [] [] w → (rounds ≤ waiting.length → cut) →
        (Run.drainMicrotasks (machine Host.noting rounds' depth) rounds ran).Ends cut w
          fun ran' w' => ran' = ran + waiting.length ∧ Rolling c log [] [] [] w' :=
  Run.ends_drainMicrotasks (fun tasks => Rolling c log tasks [] [])
    (fun _ _ P => P.tasks) (fun _ _ _ P => (pays_rolling hooked deep).runMicrotask P.rig.wired P.tasks
      fun _ _ takes => takes.rolling P) waiting

/-- Where nothing waits, every link watches the member of the value before it. -/
theorem Rolling.settled (P : Rolling c log [] [] [] w) :
    w.Tracks (fun _ => False) False (w.get c.root c.name) c.links := by
  have cold : ∀ sub, ¬ w.Hot [] [] sub := by
    rintro sub (⟨s, o, n, -, due⟩ | m | ⟨l, m, -⟩)
    · exact P.rig.wired.not_due P.tasks o n due
    · cases m
    · cases m
  exact P.tracks.mono (cold _) fun q _ => cold _

end World

end ViewBinding
