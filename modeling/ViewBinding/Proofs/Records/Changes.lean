import ViewBinding.Objects

/-!
# Records — changes of an object and taking them back

What a write or a removal changes is decided by what the object contains: a write adds a property,
updates one whose value is another one by strict equality, or changes nothing, and a frozen object
does not change at all (`World.written?`, `World.removed?`).

The record of a change tells how to take it back (`ChangeRecord.undo`).  For an object that contains
only plain values, writing and removing make the change that they should, ask for its record and for
nothing else, and taking back that record restores what the object contained (`World.set_cases`,
`World.remove_cases`).
-/

namespace ViewBinding

namespace ChangeRecord

/-- Takes a change back: an added key is deleted, and any other gets its old value. -/
def undo (record : ChangeRecord) (contents : String → Option Value) : String → Option Value :=
  fun name => if name = record.name then
    match record.kind with
    | .add => none
    | .update | .delete => some record.old
  else contents name

/-- Takes changes back, the last one first. -/
def undoAll (records : List ChangeRecord) (contents : String → Option Value) :
    String → Option Value :=
  records.foldr undo contents

@[simp] theorem undoAll_append (records records' : List ChangeRecord)
    (contents : String → Option Value) :
    undoAll (records ++ records') contents = undoAll records (undoAll records' contents) :=
  List.foldr_append

end ChangeRecord

namespace World

variable {η : Type}

/-- What an object contains: the values of its properties by their names. -/
def valuesOf (w : World η) (o : Ref .object) : String → Option Value :=
  fun name => (w.slot? o name).map w.slotValue

/-- The change that writing a value to a property makes. -/
def written? (w : World η) (o : Ref .object) (name : String) (v : Value) : Option ChangeRecord :=
  if w.isFrozen o then none
  else
    match w.valuesOf o name with
    | none => some ⟨name, .add, .undefined⟩
    | some old => if old.same v then none else some ⟨name, .update, old⟩

/-- The change that removing a property makes. -/
def removed? (w : World η) (o : Ref .object) (name : String) : Option ChangeRecord :=
  if w.isFrozen o then none
  else (w.valuesOf o name).map fun old => ⟨name, .delete, old⟩

end World

namespace ObjectCell

/-- The object has no properties but plain values, and no two of one name. -/
structure Plain (cell : ObjectCell) : Prop where
  distinct : Entries.Distinct cell.properties
  data : ∀ p ∈ cell.properties, ∃ v, p.2 = .data v

/-- The plain values by their names. -/
def values (cell : ObjectCell) : String → Option Value :=
  fun name => match Entries.get? name cell.properties with
    | some (.data v) => some v
    | _ => none

/-- The object with other properties. -/
def withProperties (cell : ObjectCell) (properties : List (String × Slot)) : ObjectCell :=
  { cell with properties }

/-- The object after it was asked for the record of a change. -/
def recorded (cell : ObjectCell) (change : ChangeRecord) : ObjectCell :=
  if cell.listeners.isEmpty then cell
  else { cell with pending := cell.pending ++ [change], scheduled := true }

/-- With these properties in place of its own, a plain object is plain, and taking the change back
restores what it contained. -/
structure Alters (cell : ObjectCell) (change : ChangeRecord) (properties : List (String × Slot)) :
    Prop where
  plain : (cell.withProperties properties).Plain
  undo : change.undo (cell.withProperties properties).values = cell.values

variable {cell : ObjectCell} {name : String}

theorem Plain.slot (plain : cell.Plain) (name : String) : Entries.get? name cell.properties = none ∨
    ∃ v, Entries.get? name cell.properties = some (.data v) := by
  cases e : Entries.get? name cell.properties with
  | none => exact .inl rfl
  | some slot =>
    obtain ⟨v, is⟩ := plain.data _ (Entries.mem_of_get? e)
    exact .inr ⟨v, congrArg some is⟩

/-- Writing a value. -/
theorem Plain.put (plain : cell.Plain) (name : String) (v : Value) :
    (cell.withProperties (Entries.put name (.data v) cell.properties)).Plain where
  distinct := plain.distinct.put
  data p m := (Entries.mem_put m).elim (fun is => ⟨v, congrArg Prod.snd is⟩) (plain.data p)

/-- Making an object with these values. -/
theorem Plain.foldl_put (values : List (String × Value)) : ∀ {cell : ObjectCell}, cell.Plain →
    (cell.withProperties (values.foldl (fun slots (name, v) => Entries.put name (.data v) slots)
      cell.properties)).Plain := by
  induction values with
  | nil => exact fun plain => plain
  | cons p values ih => exact fun plain => ih (plain.put p.1 p.2)

theorem values_put (name : String) (v : Value) (other : String) :
    (cell.withProperties (Entries.put name (.data v) cell.properties)).values other =
      if other = name then some v else cell.values other := by
  simp only [values, withProperties, Entries.get?_put]
  by_cases same : other = name
  · rw [if_pos same, if_pos same]
  · rw [if_neg same, if_neg same]

theorem mem_of_mem_erase {p : String × Slot} :
    ∀ {entries : List (String × Slot)}, p ∈ Entries.erase name entries → p ∈ entries
  | q :: rest, m => by
    rw [Entries.erase] at m
    split at m
    · exact List.mem_cons_of_mem _ m
    · exact (List.mem_cons.1 m).elim (fun is => is ▸ List.mem_cons_self)
        fun m => List.mem_cons_of_mem _ (mem_of_mem_erase m)

/-- Removing a property. -/
theorem Plain.erase (plain : cell.Plain) (name : String) :
    (cell.withProperties (Entries.erase name cell.properties)).Plain where
  distinct := plain.distinct.erase
  data p m := plain.data p (mem_of_mem_erase m)

theorem Plain.values_erase (plain : cell.Plain) (name other : String) :
    (cell.withProperties (Entries.erase name cell.properties)).values other =
      if other = name then none else cell.values other := by
  simp only [values, withProperties]
  by_cases same : other = name
  · rw [if_pos same, same, plain.distinct.get?_erase_self]
  · rw [if_neg same, Entries.get?_erase_of_ne _ same]

/-- A new property, and the record that it was added. -/
theorem Plain.alters_add (plain : cell.Plain) (absent : cell.values name = none) (v : Value) :
    cell.Alters ⟨name, .add, .undefined⟩ (Entries.put name (.data v) cell.properties) where
  plain := plain.put name v
  undo := by
    funext other
    simp only [ChangeRecord.undo, values_put]
    split
    next is => rw [is, absent]
    next isNot => rfl

/-- A new value of a property, and the record of the old one. -/
theorem Plain.alters_update (plain : cell.Plain) {old : Value}
    (present : cell.values name = some old) (v : Value) :
    cell.Alters ⟨name, .update, old⟩ (Entries.put name (.data v) cell.properties) where
  plain := plain.put name v
  undo := by
    funext other
    simp only [ChangeRecord.undo, values_put]
    split
    next is => rw [is, present]
    next isNot => rfl

/-- A property that is gone, and the record of its value. -/
theorem Plain.alters_delete (plain : cell.Plain) {old : Value}
    (present : cell.values name = some old) :
    cell.Alters ⟨name, .delete, old⟩ (Entries.erase name cell.properties) where
  plain := plain.erase name
  undo := by
    funext other
    simp only [ChangeRecord.undo, plain.values_erase]
    split
    next is => rw [is, present]
    next isNot => rfl

end ObjectCell

namespace World

variable {η : Type} {w : World η} {o : Ref .object} {cell : ObjectCell}

/-- A plain object contains its plain values. -/
theorem valuesOf_of_plain (there : w.objects.get? o = some cell) (plain : cell.Plain) :
    w.valuesOf o = cell.values := by
  funext name
  have slot : w.slot? o name = Entries.get? name cell.properties := by
    simp only [slot?, there, Option.bind_eq_bind, Option.bind_some]
  simp only [valuesOf, ObjectCell.values, slot]
  obtain e | ⟨v, e⟩ := plain.slot name <;> rw [e] <;> rfl

/-- Asking for a record after other properties were put in place: the record waits, and a delivery is
queued unless one was. -/
theorem record_withProperties (there : w.objects.get? o = some cell) (change : ChangeRecord)
    {f : ObjectCell → ObjectCell} {properties : List (String × Slot)}
    (is : f cell = cell.withProperties properties) :
    ((w.modifyObject o f).record o change).objects.get? o =
        some ((cell.withProperties properties).recorded change) ∧
      ((w.modifyObject o f).record o change).host = w.host ∧
      ((w.modifyObject o f).record o change).tasks =
        if cell.listeners.isEmpty ∨ cell.scheduled then w.tasks
        else (w.queueMicrotask (.deliver o)).tasks := by
  have now : (w.modifyObject o f).objects.get? o = some (cell.withProperties properties) := by
    simp [modifyObject, there, is]
  simp only [record, now, ObjectCell.recorded, ObjectCell.withProperties]
  by_cases unheard : cell.listeners.isEmpty
  · simp only [unheard, if_true, true_or]
    exact ⟨now, rfl, rfl⟩
  · have after : ((w.modifyObject o f).modifyObject o fun cell =>
          { cell with pending := cell.pending ++ [change], scheduled := true }).objects.get? o =
        some { cell with
          properties, pending := cell.pending ++ [change], scheduled := true } := by
      rw [modifyObject, Store.get?_modify_self, now]
      rfl
    by_cases scheduled : cell.scheduled <;>
      simp only [unheard, scheduled, if_true, if_false, or_true, or_self, Bool.false_eq_true]
    · exact ⟨after, rfl, rfl⟩
    · exact ⟨after, rfl, rfl⟩

/-- Writing a property changes nothing, or makes the change that it should and asks for its record. -/
theorem set_cases (there : w.objects.get? o = some cell) (plain : cell.Plain) (name : String)
    (v : Value) : (w.written? o name v = none ∧ w.set o name v = w) ∨
      ∃ change f properties, w.written? o name v = some change ∧
        w.set o name v = (w.modifyObject o f).record o change ∧
        f cell = cell.withProperties properties ∧ cell.Alters change properties := by
  have slot : w.slot? o name = Entries.get? name cell.properties := by
    simp only [slot?, there, Option.bind_eq_bind, Option.bind_some]
  let put (cell : ObjectCell) := cell.withProperties (Entries.put name (.data v) cell.properties)
  simp only [written?, set, valuesOf_of_plain there plain]
  split
  · exact .inl ⟨rfl, rfl⟩
  · obtain e | ⟨old, e⟩ := plain.slot name
    · have absent : cell.values name = none := by rw [ObjectCell.values, e]
      simp only [slot, e, absent]
      exact .inr ⟨_, put, _, rfl, rfl, rfl, plain.alters_add absent v⟩
    · have present : cell.values name = some old := by rw [ObjectCell.values, e]
      simp only [slot, e, present]
      by_cases same : old.same v
      · rw [if_pos same, if_pos same]
        exact .inl ⟨rfl, rfl⟩
      · rw [if_neg same, if_neg same]
        exact .inr ⟨_, put, _, rfl, rfl, rfl, plain.alters_update present v⟩

/-- Removing a property changes nothing, or makes the change that it should and asks for its record. -/
theorem remove_cases (there : w.objects.get? o = some cell) (plain : cell.Plain) (name : String) :
    (w.removed? o name = none ∧ (w.remove o name).2 = w) ∨
      ∃ change f properties, w.removed? o name = some change ∧
        (w.remove o name).2 = (w.modifyObject o f).record o change ∧
        f cell = cell.withProperties properties ∧ cell.Alters change properties := by
  have slot : w.slot? o name = Entries.get? name cell.properties := by
    simp only [slot?, there, Option.bind_eq_bind, Option.bind_some]
  let erase (cell : ObjectCell) := cell.withProperties (Entries.erase name cell.properties)
  simp only [removed?, remove, valuesOf_of_plain there plain]
  split
  · exact .inl ⟨rfl, rfl⟩
  · obtain e | ⟨old, e⟩ := plain.slot name
    · have absent : cell.values name = none := by rw [ObjectCell.values, e]
      simp only [slot, e, absent, Option.map_none]
      exact .inl ⟨trivial, trivial⟩
    · have present : cell.values name = some old := by rw [ObjectCell.values, e]
      simp only [slot, e, present, Option.map_some, slotValue]
      exact .inr ⟨_, erase, _, rfl, rfl, rfl, plain.alters_delete present⟩

end World

end ViewBinding
