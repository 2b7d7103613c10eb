import ViewBinding.Connect

/-!
# Evaluating and connecting — what they are made of

Evaluating an expression and assigning through one do little by themselves: they set properties and
items, make objects and arrays, and let observers of contents collect what happened to an array
(`World.Touches`).  Whatever else comes of them is what they call back: functions, converters and
hooks of the host.

`x.Evaluates env` says that the computation `x` is made of just that.  It holds of `Expr.eval` and
`Expr.assignTo`, so what is shown of such computations by induction is shown of all expressions.

Connecting evaluates, too.  Besides, it finds the observers of properties, and makes paths and
composites (`World.Assembles`).  `x.Connects env` says that `x` is made of that, and holds of
`Expr.connect`.
-/

namespace ViewBinding

variable {η α β : Type} {env : Env η}

/-- What evaluating does to a world by itself. -/
inductive World.Touches (w : World η) : World η → Prop
  | nothing : w.Touches w
  | set (o : Ref .object) (n : String) (v : Value) : w.Touches (w.set o n v)
  | newObject (properties : List (String × Value)) : w.Touches (w.newObject properties).2
  | newArray (items : List Value) : w.Touches (w.newArray items).2
  | setItem (a : Ref .array) (index : Nat) (v : Value) : w.Touches (w.setItem a index v).2
  | collectSplice (c : Ref .contents) (splice : Splice) : w.Touches (w.collectSplice c splice)

/-- The computation touches the world and calls back, one after the other. -/
inductive Run.Evaluates (env : Env η) : {α : Type} → Run η α → Prop
  | step {α : Type} {f : World η → α × World η} (h : ∀ w : World η, w.Touches (f w).2) :
      Evaluates env (Run.update f)
  /-- Where something must be there, the computation is cut off without it. -/
  | inspect {α : Type} (f : World η → Option α) :
      Evaluates env (fun w => Run.ofOption (f w) w : Run η α)
  | fail {α : Type} (cause : BindingError) : Evaluates env (Run.fail cause : Run η α)
  | call (f : Ref .function) (this : Value) (args : List Value) :
      Evaluates env (env.call f this args)
  | callConvert (c : Converter) (direction : Direction) (v : Value) (args : List Value) :
      Evaluates env (env.convert c direction v args)
  | fire (hook : Ref .hook) (occasion : Occasion) : Evaluates env (env.fire hook occasion)
  | bind {α β : Type} {x : Run η α} {f : α → Run η β} (first : Evaluates env x)
      (next : ∀ a, Evaluates env (f a)) : Evaluates env (x >>= f)

namespace Run.Evaluates

open Run

variable {x y : Run η α}

theorem read (f : World η → α) : (Run.read f).Evaluates env :=
  .step (f := fun w => (f w, w)) fun _ => .nothing

theorem pure (a : α) : (Pure.pure a : Run η α).Evaluates env := read fun _ => a

theorem modify {f : World η → World η} (h : ∀ w : World η, w.Touches (f w)) :
    (Run.modify f).Evaluates env := .step (f := fun w => ((), f w)) h

theorem map (h : x.Evaluates env) (f : α → β) : (f <$> x).Evaluates env :=
  h.bind fun a => pure (f a)

theorem discard (h : x.Evaluates env) : (discard x : Run η PUnit).Evaluates env := h.map _

theorem ite {c : Prop} [Decidable c] (h : x.Evaluates env) (h' : y.Evaluates env) :
    (if c then x else y).Evaluates env := by
  split
  · exact h
  · exact h'

theorem forEach {f : α → Run η Unit} (items : List α) (h : ∀ a, (f a).Evaluates env) :
    (Run.forEach items f).Evaluates env := by
  induction items with
  | nil => exact pure ()
  | cons a rest ih => exact (h a).bind fun _ => ih

/-! ### Operators -/

theorem display (v : Value) : (Run.display v : Run η String).Evaluates env := inspect _

theorem compareValues? (left right : Value) :
    (Run.compareValues? left right : Run η (Option Ordering)).Evaluates env := by
  unfold Run.compareValues?
  split
  · exact (display left).bind fun _ => map (display right) _
  · exact pure _

theorem operate (operator : Operator) (left right : Value) :
    (Run.operate operator left right : Run η Value).Evaluates env := by
  cases operator with
  | add =>
    unfold Run.operate
    dsimp only
    split
    · exact pure _
    · exact (display left).bind fun _ => map (display right) _
  | equal | different => exact (inspect _).map _
  | less | greater | atMost | atLeast => exact (compareValues? left right).map _
  | _ => exact pure _

theorem binary (text : String) (left right : Value) :
    (Run.binary text left right : Run η Value).Evaluates env := by
  unfold Run.binary
  split
  · exact pure _
  · split
    · exact operate _ left right
    · exact fail _

/-! ### Members -/

theorem indexOfKey? (key : Value) :
    (Run.indexOfKey? key : Run η (Option Nat)).Evaluates env := by
  unfold Run.indexOfKey?
  split
  · exact pure _
  · exact (display _).map _

theorem readKey (v key : Value) : (Run.readKey v key : Run η Value).Evaluates env := by
  unfold Run.readKey
  split
  · refine (indexOfKey? key).bind fun index => ?_
    split
    · exact read _
    · exact pure _
  · exact fail _
  · exact fail _
  · exact (display key).bind fun _ => read _

/-- An item is set, and those who listen to the array are told. -/
theorem putItem (a : Ref .array) (index : Nat) (v : Value) :
    (Run.setItem env a index v).Evaluates env := by
  unfold Run.setItem
  split
  · exact fail _
  · refine discard (.bind (.step fun _ => .setItem a index v) fun splice =>
      .bind (.bind (read _) fun listeners => forEach listeners fun l => ?_) fun _ => pure _)
    cases l with
    | contents c => exact modify fun _ => .collectSplice c splice
    | hook h => exact fire h _

theorem writeKey (v key new : Value) :
    (Run.writeKey env v key new).Evaluates env := by
  unfold Run.writeKey
  split
  · refine (indexOfKey? key).bind fun index => ?_
    split
    · exact putItem _ _ new
    · exact pure _
  · exact (display key).bind fun n => modify fun _ => .set _ n new
  · exact fail _
  · exact fail _
  · exact pure _

theorem assignMember (e : Expr) (owner : Value) (n : String)
    (v : Value) : (Run.assignMember env e owner n v).Evaluates env := by
  unfold Run.assignMember
  split
  · exact Evaluates.bind (modify fun _ => .set _ n v) fun _ => pure _
  · exact (writeKey _ _ v).bind fun _ => pure _
  · exact fail _
  · exact fail _
  · exact fail _

/-! ### Calls -/

theorem converter (converters : Converters) (n : String) :
    (Run.converter converters n : Run η Converter).Evaluates env := by
  refine (read _).bind fun found => ?_
  split
  · exact pure _
  · exact fail _

theorem convert (c : Converter) (direction : Direction)
    (v : Value) (args : List Value) : (Run.convert env c direction v args).Evaluates env :=
  map (callConvert c direction v args) _

theorem callNamed (callee : Value) (n : String) (this : Value)
    (args : List Value) : (Run.callNamed env callee n this args).Evaluates env := by
  unfold Run.callNamed
  split
  · exact call _ this args
  · exact fail _
  · exact fail _
  · exact fail _

/-! ### Expressions -/

section
variable (cs : Converters) (scope : Scope)

mutual

/-- **Evaluating an expression** is made of touches and callbacks. -/
theorem eval : ∀ e : Expr, (e.eval env cs scope).Evaluates env
  | .chain es => by
    rw [Expr.eval]
    exact evalChain .undefined es
  | .pipe _ n _ all => by
    rw [Expr.eval]
    refine (converter cs n).bind fun c => .bind (evalList all) fun values => ?_
    split <;> exact convert c _ _ _
  | .assign target value => by
    rw [Expr.eval]
    exact (eval value).bind fun v => assignTo target v
  | .conditional condition yes no => by
    rw [Expr.eval]
    exact (eval condition).bind fun v => ite (eval yes) (eval no)
  | .name n => by
    rw [Expr.eval]
    exact read _
  | .member owner n => by
    rw [Expr.eval]
    exact (eval owner).bind fun v => ite (pure _) (read _)
  | .keyed owner key => by
    rw [Expr.eval]
    exact (eval owner).bind fun v => .bind (eval key) fun k => readKey v k
  | .callName n args => by
    rw [Expr.eval]
    exact (evalList args).bind fun values => .bind (read _) fun owner =>
      .bind (read _) fun callee => callNamed callee n owner values
  | .callMember owner n args => by
    rw [Expr.eval]
    exact (eval owner).bind fun v => .bind (evalList args) fun values =>
      .bind (read _) fun callee => callNamed callee n v values
  | .call callee args => by
    rw [Expr.eval]
    refine (eval callee).bind fun v => ?_
    split
    · exact (evalList args).bind fun values => call _ .undefined values
    · exact fail _
  | .binary operator left right => by
    rw [Expr.eval]
    refine (eval left).bind fun l => ite ?_ (ite ?_ ?_)
    · exact ite (map (eval right) _) (pure _)
    · exact ite (pure _) (map (eval right) _)
    · exact (eval right).bind fun r => binary operator l r
  | .negate _ operand => by
    rw [Expr.eval]
    exact (eval operand).map _
  | .primitive p => by
    rw [Expr.eval]
    exact pure _
  | .string s => by
    rw [Expr.eval]
    exact pure _
  | .array elements => by
    rw [Expr.eval]
    exact (evalList elements).bind fun values => .step fun _ => .newArray values
  | .object keys values => by
    rw [Expr.eval]
    exact Evaluates.bind (.step fun _ => .newObject []) fun o => .bind (evalEntries o keys values)
      fun _ => pure _

theorem evalList : ∀ es : List Expr, (Expr.evalList env cs scope es).Evaluates env
  | [] => by
    rw [Expr.evalList]
    exact pure _
  | e :: rest => by
    rw [Expr.evalList]
    exact (eval e).bind fun v => map (evalList rest) _

theorem evalChain : ∀ (last : Value) (es : List Expr),
    (Expr.evalChain env cs scope last es).Evaluates env
  | last, [] => by
    rw [Expr.evalChain]
    exact pure _
  | last, e :: rest => by
    rw [Expr.evalChain]
    exact (eval e).bind fun v => evalChain _ rest

theorem evalEntries : ∀ (o : Ref .object) (keys : List String) (es : List Expr),
    (Expr.evalEntries env cs scope o keys es).Evaluates env
  | o, key :: keys, e :: rest => by
    rw [Expr.evalEntries]
    exact (eval e).bind fun v => .bind (modify fun _ => .set o key v) fun _ =>
      evalEntries o keys rest
  | _, [], _ => by
    rw [Expr.evalEntries]
    · exact pure _
    · simp
  | _, _ :: _, [] => by
    rw [Expr.evalEntries]
    · exact pure _
    · simp

/-- **Assigning through an expression** is, too. -/
theorem assignTo : ∀ (e : Expr) (v : Value), (e.assignTo env cs scope v).Evaluates env
  | .name n, v => by
    rw [Expr.assignTo]
    exact (read _).bind fun owner => assignMember _ owner n v
  | .member owner n, v => by
    rw [Expr.assignTo]
    refine (eval owner).bind fun holder => ite (assignMember _ holder n v) ?_
    exact Evaluates.bind (.step fun _ => .newObject []) fun o =>
      .bind (discard (assignTo owner (.object o))) fun _ => assignMember _ _ n v
  | .keyed owner key, v => by
    rw [Expr.assignTo]
    exact (eval owner).bind fun holder => .bind (eval key) fun k =>
      .bind (writeKey holder k v) fun _ => pure _
  | .pipe input n args _, v => by
    rw [Expr.assignTo]
    exact (converter cs n).bind fun c => .bind (evalList args) fun values =>
      .bind (convert c .fromView v values) fun v => assignTo input v
  | .chain _, _ | .assign _ _, _ | .conditional _ _ _, _ | .callName _ _, _
  | .callMember _ _ _, _ | .call _ _, _ | .binary _ _ _, _ | .negate _ _, _ | .primitive _, _
  | .string _, _ | .array _, _ | .object _ _, _ => by
    rw [Expr.assignTo] <;> first | exact fail _ | simp

end

end

end Run.Evaluates

/-! ### Connecting -/

/-- What connecting does to a world besides evaluating. -/
inductive World.Assembles (w : World η) : World η → Prop
  | observer (v : Value) (n : String) : w.Assembles (w.propertyObserver v n).2
  | path (left : Observer) (resolver : Resolver) : w.Assembles (w.newPath left resolver).2
  | composite (e : Expr) (provider : Provider) (scope : Scope) (v : Value) :
      w.Assembles (w.newComposite e provider scope v).2
  /-- A part is added that nobody has subscribed to. -/
  | part (c : Ref .composite) {part : Part} (loose : part.subscription = none) :
      w.Assembles (w.pushPart c part)
  | primary (c : Ref .composite) (info : ConnectInfo) :
      w.Assembles (w.modifyComposite c fun cell => { cell with primary := some info })

/-- The computation evaluates and assembles, one after the other. -/
inductive Run.Connects (env : Env η) : {α : Type} → Run η α → Prop
  | evaluate {α : Type} {x : Run η α} (h : x.Evaluates env) : Connects env x
  | assemble {α : Type} {f : World η → α × World η} (h : ∀ w : World η, w.Assembles (f w).2) :
      Connects env (Run.update f)
  | bind {α β : Type} {x : Run η α} {f : α → Run η β} (first : Connects env x)
      (next : ∀ a, Connects env (f a)) : Connects env (x >>= f)

namespace Run.Connects

open Run

variable {x y : Run η α}

theorem read (f : World η → α) : (Run.read f).Connects env := .evaluate (.read f)

theorem pure (a : α) : (Pure.pure a : Run η α).Connects env := .evaluate (.pure a)

theorem modify {f : World η → World η} (h : ∀ w : World η, w.Assembles (f w)) :
    (Run.modify f).Connects env := .assemble (f := fun w => ((), f w)) h

theorem ite {c : Prop} [Decidable c] (h : x.Connects env) (h' : y.Connects env) :
    (if c then x else y).Connects env := by
  split
  · exact h
  · exact h'

theorem discard (h : x.Connects env) : (discard x : Run η PUnit).Connects env :=
  h.bind fun _ => pure _

theorem connectName (scope : Scope) (n : String) :
    (Run.connectName scope n : Run η ConnectInfo).Connects env :=
  .assemble fun w => .observer (w.ownerOf scope n) n

theorem connectMember (provider : Provider) (object : ConnectInfo) (n : String) :
    (Run.connectMember provider object n : Run η ConnectInfo).Connects env :=
  .assemble fun w => by
    dsimp only
    cases object.observer with
    | none => exact .observer object.value n
    | some left => exact .path left (.member provider n)

theorem openComposite (provider : Provider) (scope : Scope) (e : Expr) :
    (Run.openComposite env provider scope e).Connects env :=
  (read _).bind fun cs => .bind (.evaluate (.eval cs scope e)) fun v =>
    .assemble fun _ => .composite e provider scope v

theorem addPart (c : Ref .composite) (e : Expr) (condition : Condition)
    {connect : Run η ConnectInfo} (h : connect.Connects env) :
    (Run.addPart c e condition connect).Connects env := by
  refine (read _).bind fun primary => ite (h.bind fun info => ite ?_ ?_) ?_
  · exact (modify fun _ => .part c rfl).bind fun _ => pure _
  · exact (pure ()).bind fun _ => pure _
  · exact (modify fun _ => .part c rfl).bind fun _ => pure _

theorem addPrimary (c : Ref .composite) (e : Expr) {connect : Run η ConnectInfo}
    (h : connect.Connects env) : (Run.addPrimary c e connect).Connects env :=
  (addPart c e .always h).bind fun info =>
    .bind (modify fun _ => .primary c info) fun _ => pure _

theorem closeComposite (c : Ref .composite) :
    (Run.closeComposite c : Run η ConnectInfo).Connects env := read _

section
variable (provider : Provider) (scope : Scope)

mutual

/-- **Connecting an expression** evaluates and assembles. -/
theorem connect : ∀ e : Expr, (e.connect env provider scope).Connects env
  | .chain _ | .assign _ _ | .primitive _ | .string _ => by
    rw [Expr.connect]
    exact pure _
  | .name n => by
    rw [Expr.connect]
    exact connectName scope n
  | .member owner n => by
    rw [Expr.connect]
    exact (connect owner).bind fun info => connectMember provider info n
  | .pipe _ _ _ all => by
    rw [Expr.connect]
    exact (openComposite provider scope _).bind fun c =>
      .bind (connectParts c .always all) fun _ => closeComposite c
  | .conditional condition yes no => by
    rw [Expr.connect]
    exact (openComposite provider scope _).bind fun c =>
      .bind (addPrimary c condition (connect condition)).discard fun _ =>
        .bind (addPart c yes .truthy (connect yes)).discard fun _ =>
          .bind (addPart c no .falsy (connect no)).discard fun _ => closeComposite c
  | .keyed owner key => by
    rw [Expr.connect]
    exact (openComposite provider scope _).bind fun c =>
      .bind (addPart c owner .always (connect owner)).discard fun _ =>
        .bind (addPart c key .always (connect key)).discard fun _ => closeComposite c
  | .callName n args => by
    rw [Expr.connect]
    exact (openComposite provider scope _).bind fun c =>
      .bind (addPrimary c (.name n) (connectName scope n)).discard fun _ =>
        .bind (connectParts c .isFunction args) fun _ => closeComposite c
  | .callMember owner n args => by
    rw [Expr.connect]
    have callee := (connect owner).bind fun info => connectMember provider info n
    exact (openComposite provider scope _).bind fun c =>
      .bind (addPrimary c (.member owner n) callee).discard fun _ =>
        .bind (connectParts c .isFunction args) fun _ => closeComposite c
  | .call callee args => by
    rw [Expr.connect]
    exact (openComposite provider scope _).bind fun c =>
      .bind (addPrimary c callee (connect callee)).discard fun _ =>
        .bind (connectParts c .isFunction args) fun _ => closeComposite c
  | .binary operator left right => by
    rw [Expr.connect]
    refine (openComposite provider scope _).bind fun c => ?_
    split
    next condition _ =>
      exact (addPrimary c left (connect left)).discard.bind fun _ =>
        .bind (addPart c right condition (connect right)).discard fun _ => closeComposite c
    · exact (addPart c left .always (connect left)).discard.bind fun _ =>
        .bind (addPart c right .always (connect right)).discard fun _ => closeComposite c
  | .negate _ operand => by
    rw [Expr.connect]
    exact (openComposite provider scope _).bind fun c =>
      .bind (addPart c operand .always (connect operand)).discard fun _ => closeComposite c
  | .array elements => by
    rw [Expr.connect]
    exact (openComposite provider scope _).bind fun c =>
      .bind (connectParts c .always elements) fun _ => closeComposite c
  | .object _ values => by
    rw [Expr.connect]
    exact (openComposite provider scope _).bind fun c =>
      .bind (connectParts c .always values) fun _ => closeComposite c

theorem connectParts (c : Ref .composite) (condition : Condition) :
    ∀ es : List Expr, (Expr.connectParts env provider scope c condition es).Connects env
  | [] => by
    rw [Expr.connectParts]
    exact pure _
  | e :: rest => by
    rw [Expr.connectParts]
    exact (addPart c e condition (connect e)).discard.bind fun _ => connectParts c condition rest

end

end

end Run.Connects

end ViewBinding
