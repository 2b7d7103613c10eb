import ViewBinding.Value

/-!
# Scope — where names are looked up

A scope is a chain of levels, the innermost first.  Each level has a context, which is usually an
object of the host, and an object of locals such as `$index`.  A scope is a value: it never changes,
though the objects it names do.
-/

namespace ViewBinding

/-- One level of a scope. -/
structure Level where
  context : Value
  locals : Ref .object
deriving DecidableEq

/-- A chain of levels, the innermost first. -/
structure Scope where
  inner : Level
  outer : List Level
deriving DecidableEq

namespace Scope

/-- A scope of one level. -/
def root (level : Level) : Scope := ⟨level, []⟩

/-- A scope with a level inside another scope. -/
def child (level : Level) (parent : Scope) : Scope := ⟨level, parent.inner :: parent.outer⟩

/-- The levels, the innermost first. -/
def levels (scope : Scope) : List Level := scope.inner :: scope.outer

/-- The context of the innermost level. -/
def context (scope : Scope) : Value := scope.inner.context

end Scope

end ViewBinding
