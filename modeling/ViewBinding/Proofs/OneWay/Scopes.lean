import ViewBinding.Proofs.OneWay.Runs
import ViewBinding.Proofs.Queue.Unbound

/-!
# OneWay — the scope of a binding

A binding that is unbound writes neither its source nor its target until it is bound again, whatever
callbacks do in the meantime (`unbound_inert`).  One that is bound shows nothing new but what the name
means in the scope that it is bound to, as long as nobody binds it in the midst of telling
(`shows_own_scope`).  Otherwise that is not so: those who are told are fixed before the first of them is
told, and a hook among them may bind a binding to another scope that is to be told later on.  That
binding then shows the value of its old scope (`stale_scope_shown`).
-/

namespace ViewBinding

/-! ### Unbound bindings -/

section
variable {η α : Type} {b : Ref .binding} {host : Host η}

/-- **An unbound binding is inert** until it is bound.  Whatever is done in the meantime, callbacks
of the host that do anything but bind it included: it does nothing when it is told that its source or
its target has changed, or when its turn comes to be connected, so that it writes neither. -/
theorem unbound_inert (aloof : host.Aloof b) {rounds depth : Nat} {x : Run η α}
    (between : Aloof (machine host rounds depth) b x) {w w' : World η} {result : Outcome α}
    (unbound : w.sourceOf? b = none) (ran : x w = (result, w'))
    (whole : (∃ a, result = .ok a) ∨ ∃ cause, result = .error cause) :
    w'.sourceOf? b = none ∧ ∀ (env : Env η) (new old : Value) (evaluate : Bool),
      Run.react env (.source b) new old w' = (.ok (), w') ∧
      Run.react env (.target b) new old w' = (.ok (), w') ∧
      Run.connectBinding env b evaluate w' = (.ok (), w') := by
  have unbound' : w'.sourceOf? b = none := by
    have moved := between.moves (aloof.moves_machine rounds depth) w
    rw [ran] at moved
    rcases whole with ⟨a, rfl⟩ | ⟨cause, rfl⟩
    · exact moved unbound
    · exact moved unbound
  exact ⟨unbound', fun env new old evaluate => ⟨inert_sourceChanged unbound' new,
    inert_targetChanged unbound' new, inert_connectBinding unbound' evaluate⟩⟩

end

/-- A host whose hooks bind a binding to a scope when they are told about a change. -/
def Host.rebinding (b : Ref .binding) (scope : Scope) : Host Unit where
  call _ _ _ _ := pure .undefined
  convert _ _ _ _ := pure none
  fire env _ occasion :=
    match occasion with
    | .changed _ _ => Run.ignoreFailure (Run.bindTo env b scope)
    | _ => pure ()
  late w := (false, w.host)

namespace World

open OneWay

section
variable {η : Type} {w w' : World η} {sources : Ref .object → Prop} {p : String} {host : Host η}
  {acts : List Act}

/-- **A binding shows its own scope only**, whatever has been bound, unbound, written, flushed and
connected before.  Between two acts it hears of nothing but the name in the scope that it is bound to.
What its element shows after an act it has shown before, or it is what the name means in the scope that
the binding is bound to then. -/
theorem shows_own_scope (rests : host.Rests) (start : w.Rested sources p)
    (reaches : Reaches host sources p w acts w') (b : Ref .binding) :
    (∀ s o n, w'.Enrolled s o n (.source b) → ∃ scope, w'.sourceOf? b = some scope ∧ n = p ∧
      w'.ownerOf scope p = .object o) ∧
    ∀ (act : Act) (rounds depth : Nat) (w'' : World η), act.Allowed w' sources p →
      act.run (machine host rounds (depth + 1)) p w' = (.ok (), w'') →
        w''.shownBy? b = w'.shownBy? b ∨ ∃ scope, w''.sourceOf? b = some scope ∧
          w''.shownBy? b = some (w''.lookup scope p) := by
  obtain ⟨R, -⟩ := start.ready.reaches rests reaches
  constructor
  · intro s o n heard
    obtain ⟨b', cell, scope, same, rfl, get, -, source, reads⟩ := R.serving.feeds.only s o n _ heard
    cases same
    exact ⟨scope, by rw [sourceOf?_eq, get, Option.bind_some, source], rfl, reads.ownerOf⟩
  · intro act rounds depth w'' allowed ran
    have does := (Run.ends_of_eq_ok ran).1 (R.does rests allowed fun _ => trivial)
    refine (does.shown b).imp_right ?_
    rintro ⟨scope, vm, bound, reads, shows⟩
    exact ⟨scope, bound, by rw [shows, lookup, reads.ownerOf, member]⟩

end

/-! ### Two desks -/

/-- Two view models with one property each, and a binding of it to the title of an element. -/
def twoDesks : World Unit :=
  let w := ((World.new .standard ()).newObject [("p", .number 1.0)]).2
  let w := (w.newObject [("p", .number 100.0)]).2
  { ((w.newLevel (.object ⟨0⟩)).2.newLevel (.object ⟨1⟩)).2 with
    elements := Store.empty.alloc { tag := "p", svg := false }
    elementProperties := Store.empty.alloc (titleObserver 0)
    bindings := Store.empty.alloc (titleBinding 0) }

/-- The scopes of the first and the second view model. -/
def firstScope : Scope := .root ⟨.object ⟨0⟩, ⟨2⟩⟩
def secondScope : Scope := .root ⟨.object ⟨1⟩, ⟨3⟩⟩

/-- The desks, whose hooks bind the binding to the second scope. -/
def desksMachine : Env Unit := machine (Host.rebinding ⟨0⟩ secondScope) 9 9

set_option synthInstance.maxSize 256 in
/-- **A stale scope is shown.**  A hook that hears of the property of the first view model binds the
binding to the second scope, where the name means 100; but the binding is still told that the first
view model has 5, and its element shows that. -/
theorem stale_scope_shown :
    (Run.bindTo desksMachine ⟨0⟩ firstScope).Ends False twoDesks fun _ w₁ =>
    w₁.leafAt? ⟨0⟩ "p" = some (.property ⟨0⟩) ∧
    (Run.subscribe desksMachine (.leaf (.property ⟨0⟩)) (.hook ⟨0⟩)).Ends False w₁ fun _ w₂ =>
    (Run.flushMicrotasks desksMachine).Ends False (w₂.set ⟨0⟩ "p" (.number 5.0)) fun ran w₃ =>
      ran = 1 ∧ w₃.sourceOf? ⟨0⟩ = some secondScope ∧ w₃.lookup secondScope "p" = .number 100.0 ∧
        w₃.elementGet ⟨0⟩ "title" = .number 5.0 := by
  decide +kernel

end World

end ViewBinding
