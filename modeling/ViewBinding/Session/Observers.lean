import ViewBinding.Session.Objects

/-!
# Session.Observers — steps about tasks, observers and the engine
-/

namespace ViewBinding.Session

/-- The text of whether something is so. -/
def boolText (b : Bool) : String := if b then "true" else "false"

namespace TaskAction

/-- Takes a step about the queue of tasks. -/
def run (env : Env State) : TaskAction Step → Act Report
  | flush => do pure (.count (← Run.flushMicrotasks env))
  | frame => do pure (.count (← Run.runFrame env))
  | pending => do
    let tasks ← Run.read (·.tasks)
    pure (.list [.count tasks.microtasks.length, .count tasks.frames.length])
  | microtask tag reaction => do
    let hook ← Act.newHook .microtask tag reaction
    Run.modify fun w => w.queueMicrotask (.hook hook)
    pure .nothing
  | requestFrame tag reaction => do
    let hook ← Act.newHook .frame tag reaction
    Run.modify fun w => w.requestFrame (.hook hook)
    pure .nothing
  | «show» => do
    let tasks ← Run.read (·.tasks)
    pure (.text ("TaskQueue \x7b micro_tasks: " ++ toString tasks.microtasks.length
      ++ ", frames: " ++ toString tasks.frames.length
      ++ ", flushing: " ++ boolText tasks.flushing ++ " \x7d"))

end TaskAction

namespace WatchAction

/-- Puts a leaf into a register and reports its kind. -/
def reportLeaf (leaf : Leaf) (register : Option String) : Act Report := do
  Act.keepIn register (.observer (.leaf leaf))
  pure (.text leaf.kind)

/-- Takes a step that gets hold of an observer. -/
def run (env : Env State) : WatchAction Step → Act Report
  | property literal name register => do
    let v ← literal.make
    match ← Run.update fun w => w.propertyObserver v name with
    | some leaf => reportLeaf leaf register
    | none => pure .nothing
  | element target name register => do
    let e ← Act.element target
    reportLeaf (← Run.update fun w => w.elementObserver e name) register
  | contents array register => do
    let a ← Act.array array
    reportLeaf (.contents (← Run.update fun w => w.contentsObserver a)) register
  | setter object name register => do
    let o ← Act.object object
    let s ← Run.update fun w => w.newSetter o name
    Act.keepIn register (.observer (.leaf (.setter s)))
    pure .nothing
  | dispatcher object register => do
    let o ← Act.object object
    let d ← Run.update fun w => w.objectDispatcher o
    Act.keepIn register (.dispatcher d)
    pure .nothing
  | newDispatcher object register => do
    let o ← Act.object object
    let d ← Run.update fun w => w.newDispatcher o
    Act.keepIn register (.dispatcher d)
    pure .nothing
  | dispatched source name register => do
    let d ← Act.dispatcher source
    reportLeaf (← Run.update fun w => w.dispatcherObserver d name) register
  | isObserving source => do
    let d ← Act.dispatcher source
    pure (.flag (← Run.read fun w => ((w.dispatchers.get? d).bind (·.listener)).isSome))
  | path left name fixed register => do
    let observer ← Act.observer left
    let resolver ←
      match fixed with
      | some target => do pure (Resolver.element (← Act.element target) name)
      | none => pure (Resolver.member .engine name)
    let p ← Run.update fun w => w.newPath observer resolver
    Act.keepIn register (.observer (.path p))
    pure .nothing
  | composite scope expression register => do
    let scope ← Act.scope scope
    Act.withExpr expression fun e => do
      let c ← Run.openComposite env .detachable scope e
      Act.keepIn register (.observer (.composite c))
      pure .nothing
  | addPrimary whole expression register => do
    let c ← Act.composite whole
    Act.withExpr expression fun e => do
      reportConnect (← Run.addPrimaryOf env c e) register
  | addPart whole expression condition register => do
    let c ← Act.composite whole
    Act.withExpr expression fun e => do
      reportConnect (← Run.addPartOf env c e condition) register
  | reconnect whole on => do
    let c ← Act.composite whole
    Run.reconnect env c on
    pure .nothing
  | detach => do
    Run.modify fun w => { w with attached := false }
    pure .nothing

end WatchAction

namespace ObserverAction

/-- What there is to know about a leaf. -/
def inspectLeaf (w : World State) : Leaf → List (String × Report)
  | .setter r =>
    match w.setters.get? r with
    | some cell => [("property", .text cell.property), ("observing", .flag cell.observing)]
    | none => []
  | .property r =>
    match w.properties.get? r with
    | some cell => [("property", .text cell.property)]
    | none => []
  | .placeholder r =>
    match w.placeholders.get? r with
    | some cell =>
      [("property", .text cell.property), ("parked", .count cell.parked.length),
        ("actual", .optionalText (cell.actual.map fun p => (Leaf.property p).kind))]
    | none => []
  | .element r =>
    match w.elementProperties.get? r with
    | some cell =>
      [("property", .text cell.property), ("handler", .flag cell.handled),
        ("tag", .optionalText ((w.elements.get? cell.element).map (·.tag)))]
    | none => []
  | .select _ => []
  | .contents r =>
    match w.contents.get? r with
    | some cell =>
      [("alive", .flag (w.arrays.contains cell.array)),
        ("splices", .list (cell.last.map fun splice => .record
          [("index", .count splice.index),
            ("removed", .list (splice.removed.map fun v => .value (w.snapshot v))),
            ("added", .count splice.added)]))]
    | none => []
  | .poll r =>
    match w.polls.get? r with
    | some cell => [("property", .text cell.property), ("dirty", .flag (w.isDirty r))]
    | none => []

/-- What there is to know about an observer. -/
def inspectObserver (w : World State) : Observer → List (String × Report)
  | .leaf leaf => inspectLeaf w leaf
  | .path _ => []
  | .composite c =>
    match w.composites.get? c with
    | some cell =>
      [("text", .text cell.expression.text), ("children", .count (w.partCount c)),
        ("subscribed", .count (w.subscribedCount c)), ("observable", .flag (w.isObservable c))]
    | none => []

/-- Lets an observer tell its subscribers. -/
def callObserver (env : Env State) : Observer → Act Unit
  | .leaf (.setter r) => Run.tellSetter env r
  | .leaf (.element r) => Run.tellElement env r
  | .leaf (.select r) => Run.tellSelect env r
  | .leaf (.contents r) => Run.tellContents env r
  | .leaf (.poll r) => Run.tellPoll env r
  | .composite c => Run.partChanged env c
  | _ => pure ()

/-- Tells a select what to do. -/
def orderSelect (env : Env State) (r : Ref .select) : SelectOrder → Act Unit
  | .options => Run.modify fun w => w.synchronizeOptions r
  | .value => Run.synchronizeValue env r
  | .bind => Run.modify fun w => w.bindSelect r
  | .unbind => Run.modify fun w => w.unbindSelect r

/-- Takes a step about an observer or a subscription. -/
def run (env : Env State) : ObserverAction Step → Act Report
  | get observer => do
    let observer ← Act.observer observer
    Act.report (← Run.read fun w => w.observerValue observer)
  | set observer literal => do
    let observer ← Act.observer observer
    Run.writeObserver env observer (← literal.make)
    pure .nothing
  | compare left right => do
    let a ← Act.observer left
    let b ← Act.observer right
    pure (.flag (a = b))
  | call observer => do
    callObserver env (← Act.observer observer)
    pure .nothing
  | order observer what => do
    match ← Act.observer observer with
    | .leaf (.select r) => orderSelect env r what
    | _ => pure ()
    pure .nothing
  | subscribe observer tag register reaction => do
    let observer ← Act.observer observer
    let hook ← Act.newHook .changes tag reaction
    let s ← Run.subscribe env observer (.hook hook)
    Act.keepIn register (.subscription s)
    pure .nothing
  | dispose subscription => do
    let s ← Act.subscription subscription
    Run.modify fun w => w.dispose s
    pure .nothing
  | isDisposed subscription => do
    let s ← Act.subscription subscription
    pure (.flag (← Run.read fun w => w.isDisposed s))
  | emptySubscription register => do
    let s ← Run.update fun w => w.newSubscription none
    Act.keepIn register (.subscription s)
    pure .nothing
  | inspect observer => do
    let observer ← Act.observer observer
    pure (.record (("kind", .text observer.kind)
      :: (← Run.read fun w => inspectObserver w observer)))
  | «show» observer => do
    let observer ← Act.observer observer
    let text ← Run.ofOption (← Run.read fun w => w.debug? (w.observerValue observer))
    pure (.text ("Observer \x7b kind: " ++ Text.quoteDebug observer.kind ++ ", value: " ++ text
      ++ " \x7d"))
  | showSubscription subscription => do
    let s ← Act.subscription subscription
    let disposed ← Run.read fun w => w.isDisposed s
    pure (.text ("Subscription \x7b disposed: " ++ boolText disposed ++ " \x7d"))

end ObserverAction

namespace EngineAction

/-- The largest threshold that is reported. -/
def reportedThreshold : Nat := Nat.pow 2 53

/-- Takes a step about the engine. -/
def run (env : Env State) : EngineAction → Act Report
  | trackedCount => do pure (.count (← Run.read fun w => w.polling.tracked.length))
  | poll => do
    Run.poll env
    pure .nothing
  | cachedCount => do pure (.count (← Run.read fun w => w.cachedCount))
  | prune => do pure (.count (← Run.update fun w => w.prune))
  | config => do
    let w ← Run.world
    pure (.list [.flag true, .count w.config.threshold, .count w.config.frameBudget,
      .texts w.config.observedEvents, .count w.tasks.frames.length])
  | queueSize => do pure (.count (← Run.read fun w => w.connects.size))
  | threshold => do
    pure (.count (min (← Run.read fun w => w.connects.threshold) reportedThreshold))
  | setThreshold n => do
    Run.modify fun w => w.setThreshold n
    pure .nothing
  | enableQueue => do
    Run.modify fun w => w.enableQueue
    pure .nothing
  | disableQueue => do
    Run.modify fun w => w.disableQueue
    pure .nothing

end EngineAction

end ViewBinding.Session
