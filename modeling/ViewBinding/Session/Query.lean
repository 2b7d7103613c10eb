import ViewBinding.Session.Host
import ViewBinding.Value.Document

/-!
# Session.Query — single questions

Questions that need no steps: what an expression evaluates to in described levels, what a value is
like, what a JSON text means, and how the observer caches grow and shrink.
-/

namespace ViewBinding.Session

/-! ### Evaluation -/

/-- A level of a scope as a question describes it. -/
structure LevelLiteral where
  context : Literal Step
  locals : List (String × Literal Step)

/-- The converters that a question may use, under their own names. -/
def catalogue : Converters := .given (converterKeys.map fun key => (key, ⟨key⟩))

/-- Makes a level. -/
def LevelLiteral.make (literal : LevelLiteral) : Act Level := do
  let context ← literal.context.make
  let level ← Run.update fun w => w.newLevel context
  Run.forEach literal.locals fun (name, item) => do
    let v ← item.make
    Run.modify fun w => w.set level.locals name v
  pure level

/-- Makes the levels of a scope, the outermost first, and gives them the innermost first. -/
def makeLevels (made : List Level) : List LevelLiteral → Act (List Level)
  | [] => pure made
  | literal :: rest => do makeLevels ((← literal.make) :: made) rest

/-- What became of an evaluation: its answer, the levels afterwards, the outermost first, and what
was reported. -/
structure Evaluation where
  answer : Answer
  levels : List Report
  events : List Event

/-- Evaluates an expression, or assigns a value through it. -/
def evaluateIn (env : Env State) (scope : Scope) (e : Expr) (assigned : Option (Literal Step)) :
    Act Report := do
  match assigned with
  | some literal => do
    let v ← literal.make
    Act.report (← e.assignTo env catalogue scope v)
  | none => do Act.report (← e.eval env catalogue scope)

/-- Makes levels, evaluates in them, and looks at them afterwards. -/
def evaluation (levels : List LevelLiteral) (e : Expr) (assigned : Option (Literal Step)) :
    Act (Answer × List Report) := do
  match ← makeLevels [] levels with
  | [] => pure (.broken, [])
  | inner :: outer => do
    let answer ←
      match ← Run.attempt (evaluateIn environment ⟨inner, outer⟩ e assigned) with
      | .ok report => pure (Answer.done report)
      | .error cause => pure (Answer.failed cause)
    let after ← (inner :: outer).reverse.mapM reportLevel
    pure (answer, after)

/-- The result of a computation in a new world, if it came to an end. -/
def inNewWorld {α : Type} (config : Config) (x : Act α) : Option (α × World State) :=
  match x (World.new config {}) with
  | (.ok a, w) => some (a, w)
  | _ => none

/-- Evaluates an expression in levels that are described, the outermost first. -/
def evaluate (levels : List LevelLiteral) (e : Expr) (assigned : Option (Literal Step)) :
    Evaluation :=
  match inNewWorld .standard (evaluation levels e assigned) with
  | some ((answer, after), w) => ⟨answer, after, w.host.events.reverse⟩
  | none => ⟨.broken, [], []⟩

/-! ### Values -/

/-- Which of the views of a value give something: text, number, object, array, function, and whether
it is a text and whether it is a function. -/
def viewsOf (v : Value) : List Report :=
  let isText := v matches .string _
  [isText, v matches .number _, v matches .object _, v matches .array _, v.isFunction, isText,
    v.isFunction].map .flag

/-- How a value compares with another one. -/
def compareWith (v other : Value) : Act (List (String × Report)) := do
  let loose ← Run.looseSame v other
  let back ← Run.looseSame other v
  pure [("strict", .flag (v.same other)), ("loose", .flag loose), ("loose_back", .flag back)]

/-- The JSON text of a value. -/
def jsonText (v : Value) : Act String := do
  pure (← Run.ofOption (← Run.read fun w => w.toJson? v)).print

/-- What a value is like. -/
def describeValue (literal : Literal Step) (names : List String) (other : Option (Literal Step))
    (debug : Bool) : Act Report := do
  let v ← literal.make
  let comparison ←
    match other with
    | some item => do compareWith v (← item.make)
    | none => pure []
  let diagnostic ←
    if debug then
      let text ← Run.ofOption (← Run.read fun w => w.debug? v)
      pure [("debug", Report.text text)]
    else pure []
  let properties ← names.mapM fun name => do Act.report (← Run.read fun w => w.member v name)
  pure (.record ([("type", Report.text v.typeName), ("display", .text (← Run.display v)),
    ("number", .value (.number v.toNumber)), ("truthy", .flag v.isTruthy),
    ("nullish", .flag v.isNullish), ("undefined", .flag v.isUndefined),
    ("json", .text (← jsonText v)), ("props", .list properties),
    ("as", .list (viewsOf v))] ++ diagnostic ++ comparison))

/-- What a JSON document means as a value. -/
def describeDocument (document : Json) : Act Report := do
  let v ← Run.update fun w => w.ofJson document
  pure (.record [("value", ← Act.report v), ("json", .text (← jsonText v)),
    ("display", .text (← Run.display v))])

/-- The report of a question about a new world. -/
def ask (question : Act Report) : Answer :=
  match question (World.new .standard {}) with
  | (.ok report, _) => .done report
  | (.error cause, _) => .failed cause
  | _ => .broken

/-! ### Caches -/

/-- Something that is observed in a trial of the caches. -/
inductive Specimen where
  | object
  | frozen
  | array
  | element
  | number
deriving DecidableEq, Repr

/-- Makes two observers of an object. -/
def observeObject (w : World State) (freeze : Bool) : List Thing × World State :=
  let (o, w) := w.newObject [("a", .undefined), ("b", .undefined)]
  let w := if freeze then w.freeze o else w
  let w := (w.objectObserver o "a").2
  ([o.thing], (w.objectObserver o "b").2)

/-- Makes a specimen with its observers, and gives what the host holds of it. -/
def Specimen.observe (w : World State) : Specimen → List Thing × World State
  | object => observeObject w false
  | frozen => observeObject w true
  | array =>
    let (a, w) := w.newArray []
    ([a.thing], (w.contentsObserver a).2)
  | element =>
    let (e, w) := w.newElement "input" false
    ([e.thing], (w.elementObserver e "value").2)
  | number => ([], (w.propertyObserver (.number 1.0) "a").2)

/-- The sizes of the caches in a trial. -/
structure CacheTrial where
  /-- The size after each specimen. -/
  counts : List Nat
  before : Nat
  removed : Nat
  after : Nat

/-- Observes specimens and lets go of each one when `keep` newer ones are there, unless it is
pinned.  `held` are the specimens held, the latest first. -/
def observeAll (keep : Nat) (pinned : List Nat) (index : Nat) (held : List (Nat × List Thing)) :
    List Specimen → World State → List Nat × World State
  | [], w => ([], w)
  | specimen :: rest, w =>
    let (things, w) := specimen.observe w
    let count := w.cachedCount
    let held := ((index, things) :: held).filter fun (i, _) =>
      index < i + keep || pinned.contains i
    let w := w.collect (held.flatMap (·.2))
    let (counts, w) := observeAll keep pinned (index + 1) held rest w
    (count :: counts, w)

/-- Observes specimens and prunes the caches at the end. -/
def cacheTrial (strategy : Strategy) (specimens : List Specimen) (keep : Nat)
    (pinned : List Nat) : CacheTrial :=
  let (counts, w) := observeAll keep pinned 0 [] specimens
    (World.new { Config.standard with strategy } {})
  let (removed, after) := w.prune
  { counts, before := w.cachedCount, removed, after := after.cachedCount }

end ViewBinding.Session
