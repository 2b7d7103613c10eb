import ViewBinding.Bind
import ViewBinding.Proofs.Notify.Correct

/-!
# Notify — the last notification

Callbacks that write through the observer that tells them start notifications within notifications.
When the outermost one returns, a callback that stayed registered has last been told the present
value, provided that no callback which came after it writes (`last_told_true`).

The proviso is needed: everybody in a notification is told the value from when it began, so whoever
came before a callback that writes is told the newer value first and the older one last.  A two-way
binding then keeps a value that its element does not show any more (`corrected_too_early`).
-/

namespace ViewBinding

variable {η : Type} {F : Circle η} {host : Host η} {rounds depth : Nat} {env : Env η} {w w' : World η}

namespace Circle

/-- **Writing and telling keep the member abreast** where announcing does. -/
theorem Plays.tells (plays : F.Plays host rounds) (A : F.Announces env) : F.Tells env where
  write w v ready := by
    cases is : F.channel with
    | element r =>
      refine (A.writeElement plays.scene is ready v).mono ?_ fun _ h => h
      exact fun _ _ h => ⟨h.1, fun _ => h.2⟩
    | property r d o n =>
      obtain ⟨c, get, rfl, rfl⟩ := (ready.piped is).cell
      obtain ⟨oc, there, -⟩ := (ready.piped is).heard
      simp only [Channel.leaf, Run.writeLeaf, Run.meets_bind, Run.meets_read, get, Run.writeObject,
        Run.meets_modify, Store.contains, there, Option.isSome_some, if_true]
      exact ready.set is plays.scene v
  tell w ready := by
    cases is : F.channel with
    | element r =>
      refine (A.tellElement plays.scene is ready).mono ?_ fun _ h => h
      exact fun _ _ h => ⟨h.1, fun _ => h.2⟩
    | property r d o n =>
      exact A.deliver plays.scene (fun w v => plays.taken r d o n w v is)
        (fun w u => plays.resolved r d o n w u is) is ready

/-- **Announcing keeps the member abreast**, by induction on how deep calls may nest. -/
theorem Plays.announces (plays : F.Plays host rounds) :
    ∀ depth, F.Announces (machine host rounds depth)
  | 0 =>
    { guest _ _ _ _ _ _ := trivial
      quiet _ _ _ _ _ _ _ := trivial
      member _ _ _ _ := trivial
      listener _ _ _ _ _ := trivial }
  | depth + 1 => by
    have tells : ∀ env, host.Within rounds depth env → F.Tells env := by
      rintro _ ⟨d, le, rfl⟩
      have : d < depth + 1 := Nat.lt_succ_of_le le
      exact plays.tells (plays.announces d)
    refine ⟨fun s new old w guest ready => ?_, fun s new old w still other ready => ?_,
      fun new old w ready => ?_, fun h records w mine ready => ?_⟩
    · by_cases same : s = F.member
      · subst same
        refine ((plays.member depth new old w ready).abreast tells).mono ?_ fun _ h => h
        exact fun _ _ h => h.1.keeps (guest.other rfl)
      · exact (plays.others depth s new old w guest.cast same ready).keeps tells ready
    · exact plays.quiet depth s new old w still other ready
    · exact (plays.member depth new old w ready).abreast tells
    · exact (plays.listener depth h records w mine ready).keeps tells ready

end Circle

/-- **The last notification tells the truth.**  Of those who are told through a channel, the ones who
came after the member write nothing; the others may write through the channel and make it tell
whenever they are told, in any depth, and end registrations.

When writing the property of an element returns, or telling about it, the member knows the present
value if it is still registered.  When an object has delivered its changes, the one of the property
among them, the member knows the present value of the property, unless a change that was not
delivered waits. -/
theorem last_told_true (plays : F.Plays host rounds) (ready : F.Ready w) (depth : Nat) :
    (∀ r, F.channel = .element r → ∀ w',
      (∃ v, Run.writeElement (machine host rounds depth) r v w = (.ok (), w')) ∨
        Run.tellElement (machine host rounds depth) r w = (.ok (), w') →
      F.Stays w' → F.knows w' (w'.leafValue (.element r))) ∧
    ∀ r d o n, F.channel = .property r d o n → w.Awaits (.property r d o n) → ∀ w',
      Run.deliver (machine host rounds depth) o w = (.ok (), w') →
      F.Stays w' → F.knows w' (w'.leafValue (.property r)) ∨ w'.Awaits (.property r d o n) := by
  have A := plays.announces depth
  refine ⟨fun r is w' ran stays => ?_, fun r d o n is awaits w' ran stays => ?_⟩
  · have abreast : F.Abreast w' := by
      rcases ran with ⟨v, ran⟩ | ran
      · exact ((A.writeElement plays.scene is ready v).of_eq_ok ran).2
      · exact ((A.tellElement plays.scene is ready).of_eq_ok ran).2
    have known := abreast stays
    simp only [Circle.value, is, Channel.leaf] at known
    exact known.resolve_right id
  · have kept := (A.deliver plays.scene (fun w v => plays.taken r d o n w v is)
      (fun w u => plays.resolved r d o n w u is) is ready).of_eq_ok ran
    have known := kept.abreast (fun _ => .inr (is ▸ awaits)) stays
    simpa only [Circle.value, is, Channel.leaf] using known

/-! ### An entry that is corrected -/

/-- A name in a model, its observer, and an input element bound to it both ways.  A hook that
corrects was told of the element before the binding, and another one after it; both were told of the
property, the one that corrects first. -/
def entry : World Notebook :=
  { World.new .standard [] with
    objects := ⟨#[
      some { properties := [("name", .data (.string ""))]
             listeners := ⟨[(⟨0⟩, .dispatcher ⟨0⟩)]⟩ },
      some { properties := [] }]⟩
    dispatchers := ⟨#[some
      { object := ⟨0⟩, observers := [("name", .property ⟨0⟩)], listener := some ⟨0⟩ }]⟩
    properties := ⟨#[some
      { dispatcher := ⟨0⟩, object := ⟨0⟩, property := "name"
        callbacks := ⟨[(⟨1⟩, .hook ⟨0⟩), (⟨2⟩, .hook ⟨1⟩)]⟩ }]⟩
    elements := ⟨#[some { tag := "input", svg := false }]⟩
    elementProperties := ⟨#[some
      { element := ⟨0⟩, property := "value", access := .property, handled := true
        callbacks := ⟨[(⟨3⟩, .hook ⟨0⟩), (⟨4⟩, .target ⟨0⟩), (⟨5⟩, .hook ⟨1⟩)]⟩ }]⟩
    bindings := ⟨#[some
      { expression := .name "name", element := ⟨0⟩, property := "value", mode := .twoWay
        targetObserver := .element ⟨0⟩, source := some (.root ⟨.object ⟨0⟩, ⟨1⟩⟩) }]⟩
    nextToken := 6 }

/-- The first hook writes what it corrects to the element. -/
def entryMachine : Env Notebook :=
  machine (.correcting (.string "ada") fun env => Run.writeElement env ⟨0⟩ (.string "Ada")) 9 9

/-- The first hook writes what it corrects to the model, and has it delivered. -/
def modelMachine : Env Notebook :=
  machine (.correcting (.string "ada") fun env => do
    Run.writeLeaf env (.property ⟨0⟩) (.string "Ada")
    Run.deliver env ⟨0⟩) 9 9

theorem entry_binding_ready : (Circle.ofBinding ⟨0⟩ ⟨4⟩ ⟨0⟩ ⟨0⟩ "name"
    (· ∈ [.hook ⟨0⟩, .target ⟨0⟩, .hook ⟨1⟩]) (· = .hook ⟨1⟩)).Ready entry where
  scene := ⟨⟨_, _, rfl, rfl, rfl, rfl⟩, rfl, _, rfl⟩
  opened := ⟨_, rfl, rfl, rfl, rfl⟩
  cast p m := List.mem_map_of_mem m
  order _ := ⟨[(⟨3⟩, .hook ⟨0⟩)], [(⟨5⟩, .hook ⟨1⟩)], rfl, by decide, by simp [Circle.ofBinding]⟩
  company _ _ _ _ is := nomatch is

theorem entry_alone {κ : Entity} {α : Type} {r : Ref κ} {a c : α}
    (get : (Store.mk #[some a] : Store κ α).get? r = some c) : r = ⟨0⟩ ∧ c = a := by
  obtain ⟨_ | n⟩ := r
  · exact ⟨rfl, (Option.some.inj get).symm⟩
  · exact absurd get (by simp [Store.get?])

theorem entry_piped : entry.Piped ⟨0⟩ ⟨0⟩ ⟨0⟩ "name" where
  cell := ⟨_, rfl, rfl, rfl⟩
  handed := ⟨_, rfl, rfl, rfl⟩
  heard := ⟨_, rfl, by decide⟩
  plain slot e := ⟨_, (Option.some.inj e).symm⟩
  once d c m get handed := by
    obtain ⟨-, rfl⟩ := entry_alone get
    refine ⟨rfl, ?_⟩
    simp only [Entries.get?] at handed
    split at handed
    next same => exact same.symm
    next => cases handed

theorem entry_reader_ready :
    (Circle.ofReader (.property ⟨0⟩ ⟨0⟩ ⟨0⟩ "name") ⟨2⟩).Ready entry where
  scene := rfl
  opened := entry_piped
  cast := by
    simp [Circle.ofReader, World.callbacksOf, entry, Store.get?]
  order _ := ⟨[(⟨1⟩, .hook ⟨0⟩)], [], rfl, by simp [Circle.ofReader], by simp⟩
  company r d o n is := by
    cases is
    refine ⟨fun r' c p other get => absurd (entry_alone get).1 other, fun u c q get => ?_, fun c h get m => ?_⟩
    · simp [entry, World.new, Store.get?, Store.empty] at get
    · obtain rfl := Option.some.inj get
      simp [Listeners.toList] at m

/-- The binding was told of the element after the hook that corrects, so the model has the corrected
name; and so it is with the hook that was told of the model after the one that corrects. -/
theorem corrected_in_time :
    (∃ w', Run.writeElement entryMachine ⟨0⟩ (.string "ada") entry = (.ok (), w') ∧
      w'.leafValue (.element ⟨0⟩) = .string "Ada" ∧ (w'.get ⟨0⟩ "name").Agrees (.string "Ada")) ∧
    ∃ w', Run.deliver modelMachine ⟨0⟩ (entry.set ⟨0⟩ "name" (.string "ada")) = (.ok (), w') ∧
      w'.leafValue (.property ⟨0⟩) = .string "Ada" ∧ w'.lastTold ⟨1⟩ = some (.string "Ada") := by
  constructor
  · have ends : (Run.writeElement entryMachine ⟨0⟩ (.string "ada")).Ends False entry fun _ w' =>
        w'.leafValue (.element ⟨0⟩) = .string "Ada" ∧
          (⟨4⟩, .target ⟨0⟩) ∈ w'.callbacksOf (.element ⟨0⟩) := by
      decide +kernel
    obtain ⟨⟨⟩, w', ran, shows, stays⟩ := ends.exists_eq_ok
    refine ⟨w', ran, shows, shows ▸ ?_⟩
    exact (last_told_true (Circle.binding_plays _ _ _ _ _ _) entry_binding_ready 9).1 ⟨0⟩ rfl w'
      (.inl ⟨_, ran⟩) ⟨_, stays⟩
  · have ends : (Run.deliver modelMachine ⟨0⟩).Ends False (entry.set ⟨0⟩ "name" (.string "ada"))
        fun _ w' => w'.leafValue (.property ⟨0⟩) = .string "Ada" ∧
          (⟨2⟩, .hook ⟨1⟩) ∈ w'.callbacksOf (.property ⟨0⟩ ⟨0⟩ ⟨0⟩ "name") ∧
            (w'.objects.get? ⟨0⟩).map (·.pending.length) = some 0 := by
      decide +kernel
    obtain ⟨⟨⟩, w', ran, holds, stays, delivered⟩ := ends.exists_eq_ok
    refine ⟨w', ran, holds, holds ▸ ?_⟩
    have plays := @Circle.reader_plays (.string "ada") 9 ⟨0⟩ ⟨0⟩ ⟨0⟩ "name" ⟨2⟩ (.string "Ada")
    have known := (last_told_true plays (entry_reader_ready.set rfl plays.scene _).ready 9).2
      ⟨0⟩ ⟨0⟩ ⟨0⟩ "name" rfl ⟨_, rfl, _, List.mem_singleton_self _, rfl⟩ w' ran ⟨_, stays⟩
    refine known.resolve_right fun ⟨c, get, record, waits, _⟩ => ?_
    rw [get, Option.map_some, Option.some.injEq, List.length_eq_zero_iff] at delivered
    exact absurd waits (delivered ▸ List.not_mem_nil)

/-- The same element with a binding that was told before the hook that corrects.  The binding is told
the corrected name first and the other one last: the element shows "Ada", and the model has "ada". -/
theorem corrected_too_early : Run.Ends False (do
    let b ← Run.update fun w => w.newBinding ⟨0⟩ "value" (.name "name") .twoWay
    Run.bindTo entryMachine b (.root ⟨.object ⟨0⟩, ⟨1⟩⟩)
    discard (Run.subscribeLeaf (.element ⟨0⟩) (.hook ⟨0⟩))
    Run.writeElement entryMachine ⟨0⟩ (.string "ada") : Run Notebook Unit)
    { entry with elementProperties := .empty, bindings := .empty } fun _ w =>
      (w.callbacksOf (.element ⟨0⟩)).map (·.2) = [.target ⟨0⟩, .hook ⟨0⟩] ∧
        w.leafValue (.element ⟨0⟩) = .string "Ada" ∧ w.get ⟨0⟩ "name" = .string "ada" := by
  decide +kernel

end ViewBinding
