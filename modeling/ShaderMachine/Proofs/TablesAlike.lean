import ShaderMachine.Proofs.ExecutionSteps

/-! # Tables that differ in data alone

Executed instructions give IDs values and variables and nothing else, so a call leaves every name,
decoration, type, function, label and imported set as it is.

* **`Table.Alike`** — two tables differ at most in values and variables.
* **`Table.Changes.alike`** — what executed instructions do to a table keeps it alike.
* **`Table.Alike.typeOf`** and **`Table.Alike.extendedSet`** — what alike tables agree on. -/

namespace ShaderMachine

/-- Whether a definition may change when instructions are executed: it is none yet, a value or a
variable. -/
def Definition.Varies : Definition → Prop
  | .unset | .constant _ | .var _ => True
  | _ => False

/-- Data varies. -/
theorem Definition.IsData.varies {definition : Definition} (is_data : definition.IsData) :
    definition.Varies := by
  cases definition with
  | constant value => trivial
  | var contents => trivial
  | _ => cases is_data

/-- What data may be given in place of varies. -/
theorem Definition.IsData.varies_before {definition before : Definition}
    (is_data : definition.IsData)
    (replaced : before = .unset ∨ before.kind = definition.kind) : before.Varies := by
  rcases replaced with rfl | same_kind
  · trivial
  · cases definition with
    | constant value | var contents =>
        cases before <;> cases same_kind
        trivial
    | _ => cases is_data

/-- Whether two definitions are the same or both may change. -/
def Definition.Alike (first second : Definition) : Prop :=
  first = second ∨ first.Varies ∧ second.Varies

namespace Definition.Alike

variable {first second third : Definition}

/-- A definition is like itself. -/
theorem refl (definition : Definition) : definition.Alike definition :=
  Or.inl rfl

/-- Being alike goes both ways. -/
theorem symm (alike : first.Alike second) : second.Alike first := by
  rcases alike with same | ⟨first_varies, second_varies⟩
  · exact Or.inl same.symm
  · exact Or.inr ⟨second_varies, first_varies⟩

/-- What is like something alike is alike. -/
theorem trans (alike : first.Alike second) (more : second.Alike third) : first.Alike third := by
  rcases alike with rfl | ⟨first_varies, second_varies⟩
  · exact more
  · rcases more with rfl | ⟨-, third_varies⟩
    · exact Or.inr ⟨first_varies, second_varies⟩
    · exact Or.inr ⟨first_varies, third_varies⟩

/-- What is like a definition that does not vary is that definition. -/
theorem eq_of_not_varies (alike : first.Alike second) (fixed : ¬ first.Varies) :
    second = first := by
  rcases alike with same | ⟨varies, -⟩
  · exact same.symm
  · exact absurd varies fixed

/-- Definitions that are alike carry the same function. -/
theorem function?_eq (alike : first.Alike second) : first.function? = second.function? := by
  rcases alike with rfl | ⟨first_varies, second_varies⟩
  · rfl
  · cases first <;> cases first_varies <;> cases second <;> cases second_varies <;> rfl

end Definition.Alike

/-- Whether two records have the same name and decorations and definitions that are alike. -/
structure Record.Alike (first second : Record) : Prop where
  /-- The names are the same. -/
  name : first.name = second.name
  /-- The decorations are the same. -/
  decorations : first.decorations = second.decorations
  /-- The definitions are alike. -/
  definition : first.definition.Alike second.definition

namespace Record.Alike

variable {first second third : Record}

/-- A record is like itself. -/
theorem refl (record : Record) : record.Alike record :=
  ⟨rfl, rfl, .refl _⟩

/-- Being alike goes both ways. -/
theorem symm (alike : first.Alike second) : second.Alike first :=
  ⟨alike.name.symm, alike.decorations.symm, alike.definition.symm⟩

/-- What is like something alike is alike. -/
theorem trans (alike : first.Alike second) (more : second.Alike third) : first.Alike third :=
  ⟨alike.name.trans more.name, alike.decorations.trans more.decorations,
    alike.definition.trans more.definition⟩

end Record.Alike

/-- Whether two tables differ at most in values and variables. -/
structure Table.Alike (first second : Table) : Prop where
  /-- The bounds are the same. -/
  bound : first.bound = second.bound
  /-- The records of every ID are alike. -/
  records : ∀ id, (first.records.getD id {}).Alike (second.records.getD id {})

namespace Table.Alike

variable {table next last : Table} {id : Id}

/-- A table is like itself. -/
theorem refl (table : Table) : table.Alike table :=
  ⟨rfl, fun _ => .refl _⟩

/-- Being alike goes both ways. -/
theorem symm (alike : table.Alike next) : next.Alike table :=
  ⟨alike.bound.symm, fun id => (alike.records id).symm⟩

/-- What is like something alike is alike. -/
theorem trans (alike : table.Alike next) (more : next.Alike last) : table.Alike last :=
  ⟨alike.bound.trans more.bound, fun id => (alike.records id).trans (more.records id)⟩

/-- Writing a record that is like the one before keeps a table alike. -/
theorem put {record changed : Record} (found : table.get id = .ok record)
    (alike : record.Alike changed) : table.Alike (table.put id changed) := by
  obtain ⟨-, rfl⟩ := get_eq_ok_iff.mp found
  refine ⟨rfl, fun other => ?_⟩
  rw [getD_put]
  split
  · rename_i same
    rw [same]
    exact alike
  · exact .refl _

/-- A record of one of two tables that are alike is like one of the other. -/
theorem get {record : Record} (alike : table.Alike next) (found : table.get id = .ok record) :
    ∃ other, next.get id = .ok other ∧ record.Alike other := by
  obtain ⟨below, rfl⟩ := get_eq_ok_iff.mp found
  refine ⟨next.records.getD id {}, get_eq_ok_iff.mpr ⟨?_, rfl⟩, alike.records id⟩
  rw [← alike.bound]
  exact below

/-- A definition that does not vary is the same in tables that are alike. -/
theorem get_of_fixed {record : Record} (alike : table.Alike next)
    (found : table.get id = .ok record) (fixed : ¬ record.definition.Varies) :
    ∃ other, next.get id = .ok other ∧ other.definition = record.definition := by
  obtain ⟨other, found', same⟩ := alike.get found
  exact ⟨other, found', same.definition.eq_of_not_varies fixed⟩

/-- Tables that are alike have the same types. -/
theorem typeOf {type : DataType} (alike : table.Alike next) (is_type : table.typeOf id = .ok type) :
    next.typeOf id = .ok type := by
  obtain ⟨record, found, definition_eq⟩ := typeOf_eq_ok_iff.mp is_type
  obtain ⟨other, found', same⟩ := alike.get_of_fixed found (by
    rw [definition_eq]
    exact fun varies => varies)
  exact typeOf_eq_ok_iff.mpr ⟨other, found', same.trans definition_eq⟩

/-- Tables that are alike have the same functions. -/
theorem function? {record : Record} {body : FunctionRecord} (alike : table.Alike next)
    (found : table.get id = .ok record) (is_function : record.definition.function? = some body) :
    ∃ other, next.get id = .ok other ∧ other.definition.function? = some body := by
  obtain ⟨other, found', same⟩ := alike.get found
  exact ⟨other, found', same.definition.function?_eq ▸ is_function⟩

/-- Tables that are alike have the same imported sets. -/
theorem extendedSet {set : ExtendedSet} (alike : table.Alike next)
    (is_set : Execution.extendedSet table id = .ok set) :
    Execution.extendedSet next id = .ok set := by
  obtain ⟨record, found, is_set⟩ := exists_of_bind is_set
  split at is_set
  · rename_i imported definition_eq
    cases is_set
    obtain ⟨other, found', same⟩ := alike.get_of_fixed found (by
      rw [definition_eq]
      exact fun varies => varies)
    rw [Execution.extendedSet, found']
    simp only [bind, Except.bind, same, definition_eq, pure, Except.pure]
  · cases is_set
  · cases is_set

/-- An ID without a record has none in a table that is alike. -/
theorem get_error {error : MachineError} (alike : table.Alike next)
    (missing : table.get id = .error error) : next.get id = .error error := by
  unfold Table.get at missing ⊢
  rw [← alike.bound]
  split at missing
  · cases missing
  · rename_i above
    rw [if_neg above]
    exact missing

/-- Tables that are alike find the same bodies, or fail to find them the same. -/
theorem bodyBounds_eq {machine last : Machine} (alike : machine.table.Alike last.table)
    (id : Id) : machine.bodyBounds id = last.bodyBounds id := by
  rw [Machine.bodyBounds, Machine.bodyBounds]
  cases found : machine.table.get id with
  | error error => rw [alike.get_error found]
  | ok record =>
      obtain ⟨other, found', same⟩ := alike.get found
      rw [found']
      simp only [bind, Except.bind, same.definition.function?_eq]

end Table.Alike

/-- An executed instruction keeps a table alike. -/
theorem Table.Change.alike {table next : Table} (change : table.Change next) :
    table.Alike next := by
  cases change with
  | keep => exact .refl table
  | touch found => exact .put found (.refl _)
  | @assign id record definition found is_data fits before =>
      exact .put found ⟨rfl, rfl, Or.inr ⟨is_data.varies_before before, is_data.varies⟩⟩
  | store found is_variable length_eq =>
      refine .put found ⟨rfl, rfl, Or.inr ⟨?_, trivial⟩⟩
      rw [is_variable]
      trivial

/-- Executed instructions keep a table alike. -/
theorem Table.Changes.alike {table next : Table} (changes : table.Changes next) :
    table.Alike next := by
  induction changes with
  | refl => exact .refl table
  | tail _ change hyp => exact hyp.trans change.alike

end ShaderMachine
