import ViewBinding.Session.Observers

/-!
# Session.Elements — steps about elements, bindings and converters
-/

namespace ViewBinding.Session

namespace ElementAction

/-- The namespace that a step names. -/
def spaceOf (name : String) : String := if name = "xlink" then linkNamespace else name

/-- The value and the mark of an option. -/
def reportOption (e : Ref .element) : Act Report := do
  let value ← Run.read fun w => w.elementGet e "value"
  let selected ← Run.read fun w => w.elementGet e "selected"
  pure (.list [← Act.report value, ← Act.report selected])

/-- The value of an option. -/
def reportOptionValue (e : Ref .element) : Act Report := do
  Act.report (← Run.read fun w => w.elementGet e "value")

/-- Takes a step about an element. -/
def run (env : Env State) : ElementAction Step → Act Report
  | create register tag svg => do
    let e ← Run.update fun w => w.newElement tag svg
    Act.keepIn register (.element e)
    pure .nothing
  | createOption register value model => do
    let e ← Run.update fun w => w.newOption value
    match model with
    | some literal => do
      let v ← literal.make
      Run.modify fun w => w.elementSet e "model" v
    | none => pure ()
    Act.keepIn register (.element e)
    pure .nothing
  | describe element => do
    let e ← Act.element element
    let w ← Run.world
    pure (.list [.text (w.tag e), .flag (w.isSvg e), .flag (w.isSelect e),
      .flag (w.isMultiple e), .count (w.children e).length])
  | get element name => do
    let e ← Act.element element
    Act.report (← Run.read fun w => w.elementGet e name)
  | set element name literal => do
    let e ← Act.element element
    let v ← literal.make
    Run.modify fun w => w.elementSet e name v
    pure .nothing
  | has element name => do
    let e ← Act.element element
    pure (.flag (← Run.read fun w => w.elementHas e name))
  | getAttribute element name space => do
    let e ← Act.element element
    Act.report (← Run.read fun w => w.attributeOf e (space.map spaceOf) name)
  | setAttribute element name literal space => do
    let e ← Act.element element
    let text ← Run.display (← literal.make)
    Run.modify fun w => w.setAttribute e (space.map spaceOf) name text
    pure .nothing
  | removeAttribute element name space => do
    let e ← Act.element element
    Run.modify fun w => w.removeAttribute e (space.map spaceOf) name
    pure .nothing
  | css element => do
    let e ← Act.element element
    pure (.text (← Run.read fun w => w.css e))
  | setCss element literal => do
    let e ← Act.element element
    let text ← Run.display (← literal.make)
    Run.modify fun w => w.setCss e text
    pure .nothing
  | append element child => do
    let e ← Act.element element
    Run.appendChild env e (← Act.element child)
    pure .nothing
  | remove element child => do
    let e ← Act.element element
    pure (.flag (← Run.removeChild env e (← Act.element child)))
  | pick element index selected => do
    let e ← Act.element element
    Run.modify fun w => w.pickOption e index selected
    pure .nothing
  | options element => do
    let e ← Act.element element
    let all ← (← Run.read fun w => w.options e).mapM reportOption
    let selected ← (← Run.read fun w => w.selectedOptions e).mapM reportOptionValue
    pure (.record [("all", .list all), ("selected", .list selected)])
  | dispatch element event => do
    let e ← Act.element element
    Run.dispatchEvent env e event
    pure .nothing
  | listen element event tag register reaction => do
    let e ← Act.element element
    let hook ← Act.newHook .events tag reaction
    let token ← Run.update fun w => w.listenEvents e event (.hook hook)
    Act.keepIn register (.listener token)
    pure .nothing
  | unlisten element listener => do
    let e ← Act.element element
    let token ← Act.listener listener
    Run.modify fun w => w.unlistenEvents e token
    pure .nothing
  | handle element events tag register reaction => do
    let e ← Act.element element
    let hook ← Act.newHook .handler tag reaction
    let s ← Run.update fun w => w.handleEvents e events (.hook hook)
    Act.keepIn register (.subscription s)
    pure (.texts events)
  | listenChildren element tag register reaction => do
    let e ← Act.element element
    let hook ← Act.newHook .children tag reaction
    let token ← Run.update fun w => w.listenChildren e (.hook hook)
    Act.keepIn register (.listener token)
    pure .nothing
  | unlistenChildren element listener => do
    let e ← Act.element element
    let token ← Act.listener listener
    Run.modify fun w => w.unlistenChildren e token
    pure .nothing

end ElementAction

namespace BindingAction

/-- Makes and binds `count` bindings, numbered from `start` on. -/
def bindMany (env : Env State) (stem property : String) (e : Expr) (mode : Mode) (scope : Scope)
    (start : Nat) : Nat → Act Unit
  | 0 => pure ()
  | count + 1 => do
    let element ← Run.update fun w => w.newElement "input" false
    Act.keep (stem ++ "el" ++ toString start) (.element element)
    let b ← Run.update fun w => w.newBinding element property e mode
    Act.keep (stem ++ toString start) (.binding b)
    Run.bindTo env b scope
    bindMany env stem property e mode scope (start + 1) count

/-- Equal neighbours of a list together, with their number. -/
def runLengths {α : Type} [BEq α] : List α → List (Nat × α)
  | [] => []
  | a :: rest =>
    match runLengths rest with
    | (n, b) :: runs => if a == b then (n + 1, b) :: runs else (1, a) :: (n, b) :: runs
    | [] => [(1, a)]

/-- The property of an element of one of many bindings. -/
def targetValue (stem property : String) (index : Nat) : Act Snapshot := do
  let e ← Act.element (stem ++ "el" ++ toString index)
  Act.snapshot (← Run.read fun w => w.elementGet e property)

/-- Takes a step about bindings. -/
def run (env : Env State) : BindingAction Step → Act Report
  | create register element property expression mode => do
    let owner ← Act.element element
    Act.withExpr expression fun e => do
      let b ← Run.update fun w => w.newBinding owner property e mode
      Act.keepIn register (.binding b)
      pure (.list [.text property, .text e.text, .flag true])
  | bind binding scope => do
    let b ← Act.binding binding
    let scope ← Act.scope scope
    Run.bindTo env b scope
    pure .nothing
  | unbind binding => do
    let b ← Act.binding binding
    Run.modify fun w => w.unbind b
    pure .nothing
  | isBound binding => do
    let b ← Act.binding binding
    pure (.flag (← Run.read fun w => w.isBound b))
  | connect binding evaluate => do
    Run.connectBinding env (← Act.binding binding) evaluate
    pure .nothing
  | updateTarget binding literal => do
    let b ← Act.binding binding
    Run.updateTarget env b (← literal.make)
    pure .nothing
  | updateSource binding literal => do
    let b ← Act.binding binding
    Run.updateSource env b (← literal.make)
    pure .nothing
  | target binding register => do
    let b ← Act.binding binding
    let cell ← Run.ofOption (← Run.read fun w => w.bindings.get? b)
    Act.keepIn register (.observer (.leaf cell.targetObserver))
    let tag ← Run.read fun w => w.tag cell.element
    pure (.list [.text cell.property, .text tag, .text cell.targetObserver.kind,
      .text cell.expression.text, .flag cell.mode.updatesTarget, .flag cell.mode.updatesSource])
  | createMany stem count property expression mode scope => do
    let scope ← Act.scope scope
    Act.withExpr expression fun e => do
      bindMany env stem property e mode scope 0 count
      pure .nothing
  | targets stem count property => do
    let values ← (List.range count).mapM (targetValue stem property)
    pure (.list ((runLengths values).map fun (n, v) => .list [.count n, .value v]))

end BindingAction

namespace ConverterAction

/-- Takes a step about converters. -/
def run (env : Env State) : ConverterAction Step → Act Report
  | register name converter => do
    Run.modify fun w => w.register name converter
    pure .nothing
  | registerByConvention typeName converter => do
    pure (.optionalText (← Run.update fun w => w.registerByConvention typeName converter))
  | names => do
    let names ← Run.read (·.converterNames)
    pure (.list [.texts names, .count names.length, .flag names.isEmpty])
  | convert name literal args direction => do
    let v ← literal.make
    let values ← Literal.makeList args
    match ← Run.read fun w => w.converter? name .registered with
    | none => pure (.text "missing")
    | some converter =>
      match ← env.convert converter direction v values with
      | some result => do pure (.list [← Act.report result])
      | none => pure (.list [])

end ConverterAction

end ViewBinding.Session
