import ViewBinding.Config

/-!
# Mode — the direction of a binding

A binding carries values from its source expression to its target, back, or both ways.
-/

namespace ViewBinding

/-- The direction in which a binding carries values. -/
inductive Mode where
  /-- To the target, once, when the binding is bound. -/
  | oneTime
  /-- To the target whenever the source changes. -/
  | toView
  /-- To the source whenever the target changes. -/
  | fromView
  /-- Both ways. -/
  | twoWay
deriving DecidableEq, Repr

namespace Mode

/-- The mode of a binding that does not say. -/
def standard : Mode := toView

instance : Inhabited Mode := ⟨standard⟩

/-- Whether the source is written to the target. -/
def updatesTarget : Mode → Bool
  | fromView => false
  | _ => true

/-- Whether the target is written to the source. -/
def updatesSource : Mode → Bool
  | fromView | twoWay => true
  | _ => false

/-- The name of a mode. -/
def name : Mode → String
  | oneTime => "oneTime"
  | toView => "toView"
  | fromView => "fromView"
  | twoWay => "twoWay"

/-- The mode with this name. -/
def ofName? (name : String) : Option Mode :=
  [oneTime, toView, fromView, twoWay].find? (·.name = name)

/-- The mode that a JSON text names. -/
def ofJson? (text : String) : Option Mode := do
  ofName? (← (← Json.parse? text).asChoice?)

/-- The JSON text of a mode. -/
def toJson (mode : Mode) : String := (Json.string mode.name).print

end Mode

end ViewBinding
