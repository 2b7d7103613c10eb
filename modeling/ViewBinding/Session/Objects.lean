import ViewBinding.Machine
import ViewBinding.Session.Literal

/-!
# Session.Objects — steps about registers, objects, arrays and scopes
-/

namespace ViewBinding.Session

namespace RegisterAction

/-- Takes a step about registers. -/
def run : RegisterAction Step → Act Report
  | keep register literal => do
    Act.keep register (.value (← literal.make))
    pure .nothing
  | discard register => do
    Act.modifyHost fun s => { s with registers := Entries.erase register s.registers }
    Act.collect
    pure .nothing
  | «show» literal => do Act.report (← literal.make)
  | compare left right => do
    let a ← left.make
    let b ← right.make
    pure (.flag (a.same b))

end RegisterAction

namespace ObjectAction

/-- Takes a step about an object. -/
def run (env : Env State) (o : Ref .object) : ObjectAction Step → Act Report
  | get name register => do
    let v ← Run.read fun w => w.get o name
    Act.keepIn register (.value v)
    Act.report v
  | set name literal => do
    let v ← literal.make
    Run.modify fun w => w.set o name v
    pure .nothing
  | remove name => do pure (.flag (← Run.update fun w => w.remove o name))
  | has name => do pure (.flag (← Run.read fun w => w.has o name))
  | names => do pure (.texts (← Run.read fun w => w.names o))
  | size => do
    let n ← Run.read fun w => (w.names o).length
    pure (.list [.count n, .flag (n == 0)])
  | freeze => do
    Run.modify fun w => w.freeze o
    pure .nothing
  | isFrozen => do pure (.flag (← Run.read fun w => w.isFrozen o))
  | double name => do
    pure (.flag (← Run.update fun w => w.defineSlot o name (.doubled .undefined)))
  | listen tag register reaction => do
    let hook ← Act.newHook .records tag reaction
    let token ← Run.update fun w => w.listenRecords o (.hook hook)
    Act.keepIn register (.listener token)
    pure .nothing
  | unlisten listener => do
    let token ← Act.listener listener
    Run.modify fun w => w.unlistenRecords o token
    pure .nothing
  | deliver => do
    Run.deliver env o
    pure .nothing

end ObjectAction

namespace ArrayAction

/-- Takes a step about an array. -/
def run (env : Env State) (a : Ref .array) : ArrayAction Step → Act Report
  | get index => do Act.report (← Run.read fun w => w.item a index)
  | set index literal => do
    Run.setItem env a index (← literal.make)
    pure .nothing
  | push literal => do
    Run.pushItem env a (← literal.make)
    pure .nothing
  | splice index count items => do
    let removed ← Run.splice env a index count (← Literal.makeList items)
    pure (.list (← removed.mapM Act.report))
  | replace items => do
    Run.replaceItems env a (← Literal.makeList items)
    pure .nothing
  | clear => do
    Run.clearItems env a
    pure .nothing
  | find literal => do
    let v ← literal.make
    let index ← Run.read fun w => w.indexOf? a v
    pure (.list [(index.map Report.count).getD .nothing, .flag index.isSome])
  | size => do
    let n ← Run.read fun w => w.length a
    pure (.list [.count n, .flag (n == 0)])
  | listen tag register reaction => do
    let hook ← Act.newHook .splices tag reaction
    let token ← Run.update fun w => w.listenSplices a (.hook hook)
    Act.keepIn register (.listener token)
    pure .nothing
  | unlisten listener => do
    let token ← Act.listener listener
    Run.modify fun w => w.unlistenSplices a token
    pure .nothing

end ArrayAction

/-- What connecting gave: the value and the kind of the observer, which goes into a register. -/
def reportConnect (info : ConnectInfo) (register : Option String) : Act Report := do
  match info.observer with
  | some observer => Act.keepIn register (.observer observer)
  | none => pure ()
  pure (.record [("value", ← Act.report info.value),
    ("kind", .optionalText (info.observer.map Observer.kind))])

/-- The context and the locals of a level. -/
def reportLevel (level : Level) : Act Report := do
  pure (.list [← Act.report level.context, ← Act.report (.object level.locals)])

namespace ScopeAction

/-- Takes a step about a scope. -/
def run (env : Env State) : ScopeAction Step → Act Report
  | create register context parent => do
    let context ← context.make
    let level ← Run.update fun w => w.newLevel context
    let scope ←
      match parent with
      | some name => do pure (Scope.child level (← Act.scope name))
      | none => pure (Scope.root level)
    Act.keepIn register (.scope scope)
    pure .nothing
  | setLocal scope name literal => do
    let scope ← Act.scope scope
    let v ← literal.make
    Run.modify fun w => w.set scope.inner.locals name v
    pure .nothing
  | owner scope name register => do
    let scope ← Act.scope scope
    let v ← Run.read fun w => w.ownerOf scope name
    Act.keepIn register (.value v)
    Act.report v
  | read scope name => do
    let scope ← Act.scope scope
    Act.report (← Run.read fun w => w.lookup scope name)
  | levels scope => do
    let scope ← Act.scope scope
    pure (.list ((← Act.report scope.context) :: (← scope.levels.mapM reportLevel)))
  | eval scope expression register => do
    let scope ← Act.scope scope
    Act.withExpr expression fun e => do
      let v ← e.eval env .registered scope
      Act.keepIn register (.value v)
      Act.report v
  | assign scope expression literal => do
    let scope ← Act.scope scope
    Act.withExpr expression fun e => do
      let v ← literal.make
      Act.report (← e.assignTo env .registered scope v)
  | connect scope expression register => do
    let scope ← Act.scope scope
    Act.withExpr expression fun e => do
      reportConnect (← e.connect env .engine scope) register

end ScopeAction

end ViewBinding.Session
