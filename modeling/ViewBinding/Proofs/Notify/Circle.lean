import ViewBinding.Machine
import ViewBinding.Proofs.Leaf.Deliver
import ViewBinding.Proofs.Tasks.Errands

/-!
# Notify — those who are told

A `Channel` is an observer through which a value is written and told.  A `Circle` singles out one
callback of a channel, its member, and says of whom else is told what they may do: the callbacks that
came after the member are quiet, and everybody else may write through the channel and make it tell,
as often and as deeply nested as they like (`Circle.Does`).

Of a callback that stays, `Abreast` says that it knows the present value, or that a change of the
value still waits to be told.  `Does.keeps` is the rule for what a callback does: if telling and
writing keep a callback abreast, so does whatever is made of them.
-/

namespace ViewBinding

/-- An observer through which a value is written and told: of a property of an element, or of the
property `n` of the object `o`, which the dispatcher `d` hands out. -/
inductive Channel where
  | element (r : Ref .elementProperty)
  | property (r : Ref .property) (d : Ref .dispatcher) (o : Ref .object) (n : String)

/-- The observer of a channel. -/
def Channel.leaf : Channel → Leaf
  | element r => .element r
  | property r _ _ _ => .property r

variable {η : Type}

/-- Tells the callbacks of a channel: an element tells the property, and an object delivers its
change records. -/
def Run.tellThrough (env : Env η) : Channel → Run η Unit
  | .element r => tellElement env r
  | .property _ _ o _ => deliver env o

namespace World

/-- The registrations at the observer of a channel, the oldest first. -/
def callbacksOf (w : World η) : Channel → List (Token × Subscriber)
  | .element r => ((w.elementProperties.get? r).map (·.callbacks.entries)).getD []
  | .property r _ _ _ => ((w.properties.get? r).map (·.callbacks.entries)).getD []

/-- A change of the value waits to be told. -/
def Awaits (w : World η) : Channel → Prop
  | .element _ => False
  | .property _ _ o n => ∃ c, w.objects.get? o = some c ∧ ∃ record ∈ c.pending, record.name = n

/-- The observer of a plain property, which a dispatcher that listens hands out for this property and
for no other. -/
structure Piped (w : World η) (r : Ref .property) (d : Ref .dispatcher) (o : Ref .object)
    (n : String) : Prop where
  cell : ∃ c, w.properties.get? r = some c ∧ c.object = o ∧ c.property = n
  handed : ∃ c, w.dispatchers.get? d = some c ∧ c.object = o ∧
    Entries.get? n c.observers = some (.property r)
  heard : ∃ c, w.objects.get? o = some c ∧ .dispatcher d ∈ c.listeners.toList
  plain : ∀ slot, w.slot? o n = some slot → ∃ v, slot = .data v
  once : ∀ d' c m, w.dispatchers.get? d' = some c → Entries.get? m c.observers = some (.property r) →
    c.object = o ∧ m = n

/-- The channel works: events tell about the property of the element, which is read and written as a
property; or change records tell about the property of the object. -/
def Open (w : World η) : Channel → Prop
  | .element r => ∃ c, w.elementProperties.get? r = some c ∧ c.access = .property ∧
    c.handled = true ∧ w.elements.contains c.element = true
  | .property r d o n => w.Piped r d o n

end World

/-- The environments in which calls nest at most `depth` deep. -/
def Host.Within (host : Host η) (rounds depth : Nat) (env : Env η) : Prop :=
  ∃ d ≤ depth, env = machine host rounds d

/-- What a channel itself does to a world when it is written and when it tells. -/
inductive Channel.Turns : Channel → World η → World η → Prop
  | shows (r : Ref .elementProperty) (e : Ref .element) (name : String) (v : Value) (w : World η) :
    Turns (.element r) w (w.elementSet e name v)
  | sees (r : Ref .elementProperty) (v : Value) (w : World η) :
    Turns (.element r) w (w.modifyElementProperty r fun cell => { cell with old := v })
  | sets (r : Ref .property) (d : Ref .dispatcher) (o : Ref .object) (n : String) (v : Value)
    (w : World η) : Turns (.property r d o n) w (w.set o n v)
  | takes (r : Ref .property) (d : Ref .dispatcher) (o : Ref .object) (n : String) (w : World η) :
    Turns (.property r d o n) w (w.takeRecords o).2

/-- One callback of a channel, under the token of its registration, among those who are told. -/
structure Circle (η : Type) where
  channel : Channel
  token : Token
  member : Subscriber
  /-- What the callback holds the value to be. -/
  knows : World η → Value → Prop
  /-- Who may be told. -/
  cast : Subscriber → Prop
  /-- Who writes nothing. -/
  quiet : Subscriber → Prop
  /-- The hooks that may listen to the change records. -/
  listener : Ref .hook → Prop
  /-- What all of them leave as it is. -/
  scene : World η → Prop

namespace Circle

variable (F : Circle η)

/-- The value that the channel is about. -/
def value (w : World η) : Value := w.leafValue F.channel.leaf

/-- The member is registered. -/
def Stays (w : World η) : Prop := ∃ s, (F.token, s) ∈ w.callbacksOf F.channel

/-- Somebody else who may be told.  The member itself is one once its registration has ended. -/
structure Guest (w : World η) (s : Subscriber) : Prop where
  cast : F.cast s
  other : s = F.member → ¬ F.Stays w

/-- Who else is told when an object delivers its change records. -/
structure Company (w : World η) (r : Ref .property) (o : Ref .object) : Prop where
  callbacks : ∀ r' c p, r' ≠ r → w.properties.get? r' = some c → p ∈ c.callbacks.entries →
    F.Guest w p.2
  parked : ∀ u c q, w.placeholders.get? u = some c → q ∈ c.parked → F.Guest w q.subscriber
  listeners : ∀ c h, w.objects.get? o = some c → .hook h ∈ c.listeners.toList → F.listener h

/-- What holds all the while.  Those who came after the member are quiet. -/
structure Ready (w : World η) : Prop where
  scene : F.scene w
  opened : w.Open F.channel
  cast : ∀ p ∈ w.callbacksOf F.channel, F.cast p.2
  order : F.Stays w → ∃ older newer,
    w.callbacksOf F.channel = older ++ (F.token, F.member) :: newer ∧
      (∀ p ∈ older, p.2 ≠ F.member) ∧ ∀ p ∈ newer, F.quiet p.2 ∧ p.2 ≠ F.member
  company : ∀ r d o n, F.channel = .property r d o n → F.Company w r o

/-- If the member stays, it knows the value, unless a change waits to be told. -/
def Abreast (w : World η) : Prop := F.Stays w → F.knows w (F.value w) ∨ w.Awaits F.channel

/-- What may happen at all: a registration that has ended stays so. -/
structure Goes (w w' : World η) : Prop where
  ready : F.Ready w'
  stays : F.Stays w' → F.Stays w

/-- What happens to the member once it is abreast. -/
structure Keeps (w w' : World η) : Prop extends F.Goes w w' where
  abreast : F.Abreast w → F.Abreast w'

/-- A step beside the value. -/
structure Step (w w' : World η) : Prop extends F.Goes w w' where
  value : F.value w' = F.value w
  knows : ∀ v, F.knows w v → F.knows w' v
  awaits : w.Awaits F.channel → w'.Awaits F.channel

/-- The member takes note of a value. -/
structure Notes (v : Value) (w w' : World η) : Prop extends F.Goes w w' where
  value : F.value w' = F.value w
  knows : F.knows w' v

/-- What a callback may do from a world on: steps beside the value, writing through the channel, and
making it tell. -/
inductive Does (envs : Env η → Prop) : {α : Type} → Run η α → World η → Prop
  | step {α : Type} {x : Run η α} {w : World η}
    (h : x.Meets w (fun _ w' => F.Step w w') fun _ => True) : Does envs x w
  | write {env : Env η} (h : envs env) (v : Value) (w : World η) :
    Does envs (Run.writeLeaf env F.channel.leaf v) w
  | tell {env : Env η} (h : envs env) (w : World η) : Does envs (Run.tellThrough env F.channel) w
  | bind {α β : Type} {x : Run η α} {f : α → Run η β} {w : World η} (first : Does envs x w)
    (next : ∀ a w', x w = (.ok a, w') → F.Ready w' → Does envs (f a) w') : Does envs (x >>= f) w

/-- The member takes note of what it is told before it does anything else. -/
def Hears (envs : Env η → Prop) (v : Value) (x : Run η Unit) (w : World η) : Prop :=
  ∃ note rest : Run η Unit, x w = (note >>= fun _ => rest) w ∧
    note.Meets w (fun _ w' => F.Notes v w w') (fun _ => True) ∧
      ∀ w', note w = (.ok (), w') → F.Ready w' → F.Does envs rest w'

/-- Everybody plays by the rules, and the scene is another one than the channel's own. -/
structure Plays (host : Host η) (rounds : Nat) : Prop where
  others : ∀ depth s new old w, F.cast s → s ≠ F.member → F.Ready w →
    F.Does (host.Within rounds depth) (Run.react (machine host rounds depth) s new old) w
  quiet : ∀ depth s new old w, F.quiet s → s ≠ F.member → F.Ready w →
    (Run.react (machine host rounds depth) s new old).Meets w (fun _ w' => F.Step w w') fun _ => True
  member : ∀ depth new old w, F.Ready w →
    F.Hears (host.Within rounds depth) new (Run.react (machine host rounds depth) F.member new old) w
  listener : ∀ depth h records w, F.listener h → F.Ready w →
    F.Does (host.Within rounds depth) (host.fire (machine host rounds depth) h (.records records)) w
  scene : ∀ w w', F.Ready w → F.channel.Turns w w' → F.scene w'
  taken : ∀ r d o n w v, F.channel = .property r d o n → F.Ready w → F.knows w v →
    F.knows (w.takeRecords o).2 v
  resolved : ∀ r d o n w u, F.channel = .property r d o n → F.Ready w →
    F.Step w (w.resolvePlaceholder u)

variable {F} {w w' w'' : World η}

theorem Goes.trans (h : F.Goes w w') (h' : F.Goes w' w'') : F.Goes w w'' :=
  ⟨h'.ready, h.stays ∘ h'.stays⟩

theorem Step.refl (ready : F.Ready w) : F.Step w w := ⟨⟨ready, id⟩, rfl, fun _ => id, id⟩

theorem Keeps.refl (ready : F.Ready w) : F.Keeps w w := ⟨⟨ready, id⟩, id⟩

theorem Keeps.trans (h : F.Keeps w w') (h' : F.Keeps w' w'') : F.Keeps w w'' :=
  ⟨h.toGoes.trans h'.toGoes, h'.abreast ∘ h.abreast⟩

theorem Step.keeps (h : F.Step w w') : F.Keeps w w' where
  toGoes := h.toGoes
  abreast before stays := by
    rw [h.value]
    exact (before (h.stays stays)).imp (h.knows _) h.awaits

/-- Where the member does not stay there is nothing to know. -/
theorem Goes.keeps (h : F.Goes w w') (gone : ¬ F.Stays w) : F.Keeps w w' :=
  ⟨h, fun _ stays => absurd (h.stays stays) gone⟩

theorem Guest.goes {s : Subscriber} (guest : F.Guest w s) (h : F.Goes w w') : F.Guest w' s :=
  ⟨guest.cast, fun same stays => guest.other same (h.stays stays)⟩

/-- Writing and telling in an environment keep the member abreast. -/
structure Tells (F : Circle η) (env : Env η) : Prop where
  write : ∀ w v, F.Ready w →
    (Run.writeLeaf env F.channel.leaf v).Meets w (fun _ w' => F.Keeps w w') fun _ => True
  tell : ∀ w, F.Ready w →
    (Run.tellThrough env F.channel).Meets w (fun _ w' => F.Keeps w w') fun _ => True

/-- **What a callback does keeps the member abreast.** -/
theorem Does.keeps {envs : Env η → Prop} (tells : ∀ env, envs env → F.Tells env) {α : Type}
    {x : Run η α} (does : F.Does envs x w) (ready : F.Ready w) :
    x.Meets w (fun _ w' => F.Keeps w w') fun _ => True := by
  induction does with
  | step h => exact h.mono (fun _ _ step => step.keeps) fun _ h => h
  | write h v w => exact (tells _ h).write w v ready
  | tell h w => exact (tells _ h).tell w ready
  | bind _ _ first next =>
    refine Run.meets_bind.2 ((first ready).traced.mono ?_ fun _ h => h)
    rintro a w₁ ⟨ran, kept⟩
    exact (next a w₁ ran kept.ready kept.ready).mono (fun _ _ kept' => kept.trans kept') fun _ h => h

/-- A member that does no more than taking note. -/
theorem Hears.of_notes {envs : Env η → Prop} {x : Run η Unit} {v : Value}
    (h : x.Meets w (fun _ w' => F.Notes v w w') fun _ => True) : F.Hears envs v x w := by
  refine ⟨x, pure (), ?_, h, fun w' _ ready => .step (Step.refl ready)⟩
  change x w = Run.bind x Run.pure w
  unfold Run.bind
  rcases x w with ⟨_ | _ | _ | _, w'⟩ <;> rfl

/-- The member that is told the value is abreast afterwards, whatever it does about it. -/
theorem Hears.abreast {envs : Env η → Prop} (tells : ∀ env, envs env → F.Tells env)
    {x : Run η Unit} {v : Value} (hears : F.Hears envs v x w) :
    x.Meets w (fun _ w' => F.Goes w w' ∧ (v = F.value w → F.Abreast w')) fun _ => True := by
  obtain ⟨note, rest, same, notes, does⟩ := hears
  refine Run.Meets.of_eq (Run.meets_bind.2 (notes.traced.mono ?_ fun _ h => h)) same
  rintro ⟨⟩ w₁ ⟨ran, noted⟩
  refine ((does w₁ ran noted.ready).keeps tells noted.ready).mono ?_ fun _ h => h
  rintro - w₂ kept
  refine ⟨noted.toGoes.trans kept.toGoes, fun present => kept.abreast fun _ => .inl ?_⟩
  rw [noted.value, ← present]
  exact noted.knows

end Circle

end ViewBinding
