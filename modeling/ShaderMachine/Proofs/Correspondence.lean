import Mathlib.Data.Option.Basic
import ShaderMachine.Proofs.Declarations
import ShaderMachine.Proofs.SameSteps

/-! # Tables that correspond

Two modules that differ in nothing but places and unknown instructions lead to records that differ
in places alone: where the body of a function starts and ends, and where a label stands. The second
table may have a larger bound. Which places go together is a parameter: they are the same in a
module with another bound, and moved in one with more instructions.

* **`Places`** — which places of two modules go together.
* **`Table.Corresponds`** — two tables differ in places and bounds alone.
* **`Table.Corresponds.shows`** — the second table shows all that the first one shows.
* **`Table.Corresponds.put`** — writing records that correspond keeps the correspondence. -/

namespace ShaderMachine

/-! ## Places -/

/-- Which places of two modules go together. -/
structure Places where
  /-- Where the body of a function starts. -/
  starts : Nat → Nat → Prop
  /-- Where an instruction stands. -/
  stands : Nat → Nat → Prop

namespace Places

/-- The same places, the other way around. -/
def flip (places : Places) : Places :=
  ⟨fun first second => places.starts second first, fun first second => places.stands second first⟩

/-- Places go together if they are the same. -/
def same : Places :=
  ⟨Eq, Eq⟩

end Places

/-- Whether two instructions are the same but for where they stand. -/
structure Instruction.Corresponds (places : Places) (first second : Instruction) : Prop where
  /-- They are of the same sort. -/
  opcode : second.opcode = first.opcode
  /-- They have the same operands. -/
  operands : second.operands = first.operands
  /-- They stand at places that go together. -/
  stands : places.stands first.offset second.offset
  /-- So do bodies that start after them. -/
  starts : places.starts first.stop second.stop

/-- Whether two functions are the same but for where their bodies start and end. -/
structure FunctionRecord.Corresponds (places : Places) (first second : FunctionRecord) :
    Prop where
  /-- They return the same type. -/
  returnType : second.returnType = first.returnType
  /-- They have the same signature. -/
  functionType : second.functionType = first.functionType
  /-- They have the same control mask. -/
  control : second.control = first.control
  /-- Their bodies start at places that go together. -/
  start : places.starts first.start second.start
  /-- Their bodies end at places that go together, if their ends were seen. -/
  stop : Option.Rel places.stands first.stop second.stop

/-- Whether two entry points are the same but for the places of their functions. -/
structure EntryPointRecord.Corresponds (places : Places) (first second : EntryPointRecord) :
    Prop where
  /-- They are declared for the same stages. -/
  models : second.models = first.models
  /-- They are declared under the same names. -/
  names : second.names = first.names
  /-- They have the same execution modes. -/
  modes : second.modes = first.modes
  /-- They have the same interface. -/
  interface : second.interface = first.interface
  /-- Their functions correspond, if they were seen. -/
  function : Option.Rel (FunctionRecord.Corresponds places) first.function second.function

/-- Whether two definitions are the same but for places. -/
inductive Definition.Corresponds (places : Places) : Definition → Definition → Prop
  /-- Neither is one. -/
  | unset : Corresponds places .unset .unset
  /-- They are the same and without places. -/
  | readable {definition : Definition} (readable : definition.IsReadable) :
      Corresponds places definition definition
  /-- They are entry points. -/
  | entryPoint {first second : EntryPointRecord} (entries : first.Corresponds places second) :
      Corresponds places (.entryPoint first) (.entryPoint second)
  /-- They are functions. -/
  | function {first second : FunctionRecord} (bodies : first.Corresponds places second) :
      Corresponds places (.function first) (.function second)
  /-- They are labels. -/
  | label {first second : Nat} (stands : places.stands first second) :
      Corresponds places (.label first) (.label second)

/-- Whether two records are the same but for places. -/
structure Record.Corresponds (places : Places) (first second : Record) : Prop where
  /-- They have the same name. -/
  name : second.name = first.name
  /-- They have the same decorations. -/
  decorations : second.decorations = first.decorations
  /-- Their definitions correspond. -/
  definition : first.definition.Corresponds places second.definition

/-- Whether two tables have records that are the same but for places, as far as the bound of the
first one reaches; beyond that nothing was written. -/
structure Table.Corresponds (places : Places) (first second : Table) : Prop where
  /-- The bound of the second one reaches as far. -/
  bound_le : first.bound ≤ second.bound
  /-- The records of every ID correspond. -/
  records : ∀ id, (first.records.getD id {}).Corresponds places (second.records.getD id {})
  /-- Nothing was written beyond the first bound. -/
  beyond : ∀ id, first.bound ≤ id → first.records.getD id {} = {}

/-! ## Reading a correspondence -/

section

variable {places : Places}

/-- Functions are the same if places are. -/
theorem FunctionRecord.Corresponds.eq_of_same {first second : FunctionRecord}
    (bodies : first.Corresponds .same second) : second = first := by
  obtain ⟨returnType, functionType, control, start, stop⟩ := first
  obtain ⟨returnType', functionType', control', start', stop'⟩ := second
  obtain ⟨rfl, rfl, rfl, start_eq, stop_eq⟩ := bodies
  cases start_eq
  cases stop_eq with
  | some same =>
      cases same
      rfl
  | none => rfl

namespace Definition.Corresponds

variable {first second : Definition}

/-- Definitions that correspond are of the same kind. -/
theorem kind_eq (corresponds : first.Corresponds places second) : second.kind = first.kind := by
  cases corresponds <;> rfl

/-- A readable definition corresponds to itself alone. -/
theorem eq_of_readable (corresponds : first.Corresponds places second)
    (readable : first.IsReadable) : second = first := by
  cases corresponds with
  | unset => rfl
  | readable => rfl
  | entryPoint | function | label => cases readable

/-- What corresponds to an unset definition is unset. -/
theorem isUnset_iff (corresponds : first.Corresponds places second) :
    second = .unset ↔ first = .unset := by
  cases corresponds with
  | unset | readable => rfl
  | entryPoint | function | label => simp

/-- Definitions that correspond are entry points of the same names. -/
theorem enters_iff (corresponds : first.Corresponds places second) {name : String} :
    (∃ entry, second = .entryPoint entry ∧ entry.hasName name = true) ↔
      ∃ entry, first = .entryPoint entry ∧ entry.hasName name = true := by
  cases corresponds with
  | unset | readable => rfl
  | entryPoint entries => simp [EntryPointRecord.hasName, entries.names]
  | function | label => simp

/-- Definitions that correspond carry functions that correspond. -/
theorem function? (corresponds : first.Corresponds places second) :
    Option.Rel (FunctionRecord.Corresponds places) first.function? second.function? := by
  cases corresponds with
  | unset => exact .none
  | readable readable =>
      cases first with
      | type | constant | var | extendedSet => exact .none
      | _ => cases readable
  | entryPoint entries => exact entries.function
  | function bodies => exact .some bodies
  | label => exact .none

/-- Definitions are the same if places are. -/
theorem eq_of_same (corresponds : first.Corresponds .same second) : second = first := by
  cases corresponds with
  | unset | readable => rfl
  | @entryPoint first second entries =>
      obtain ⟨models, names, modes, interface, function⟩ := first
      obtain ⟨models', names', modes', interface', function'⟩ := second
      obtain ⟨rfl, rfl, rfl, rfl, functions⟩ := entries
      cases functions with
      | some bodies => rw [bodies.eq_of_same]
      | none => rfl
  | function bodies => rw [bodies.eq_of_same]
  | label stands =>
      cases stands
      rfl

end Definition.Corresponds

namespace Record.Corresponds

variable {first second : Record}

/-- Nothing is known about either ID. -/
theorem empty : Record.Corresponds places {} {} :=
  ⟨rfl, rfl, .unset⟩

/-- Records that correspond are both unset or both not. -/
theorem isUnset_eq (corresponds : first.Corresponds places second) :
    second.isUnset = first.isUnset := by
  rw [isUnset, isUnset, corresponds.definition.kind_eq]

/-- Records that correspond are at the same location. -/
theorem location?_eq (corresponds : first.Corresponds places second) :
    second.location? = first.location? := by
  rw [location?, location?, decoration?, decoration?, corresponds.decorations]

/-- Records are the same if places are. -/
theorem eq_of_same (corresponds : first.Corresponds .same second) : second = first := by
  obtain ⟨name, decorations, definition⟩ := first
  obtain ⟨name', decorations', definition'⟩ := second
  obtain ⟨rfl, rfl, definitions⟩ := corresponds
  have definition_eq : definition' = definition := definitions.eq_of_same
  rw [definition_eq]

end Record.Corresponds

namespace Table.Corresponds

variable {first second : Table} {id : Id}

/-- Tables in which nothing is written. -/
theorem ofBound {bound bound' : Word} (bound_le : bound ≤ bound') :
    (Table.ofBound bound).Corresponds places (.ofBound bound') := by
  have empty (bound : Word) (id : Id) : (Table.ofBound bound).records.getD id {} = {} :=
    Std.TreeMap.getD_emptyc
  refine ⟨bound_le, fun id => ?_, fun id _ => empty bound id⟩
  rw [empty, empty]
  exact .empty

/-- A record of the first table corresponds to one of the second. -/
theorem get {record : Record} (corresponds : first.Corresponds places second)
    (found : first.get id = .ok record) :
    ∃ other, second.get id = .ok other ∧ record.Corresponds places other := by
  obtain ⟨below, rfl⟩ := get_eq_ok_iff.mp found
  exact ⟨_, get_eq_ok_iff.mpr ⟨UInt32.lt_of_lt_of_le below corresponds.bound_le, rfl⟩,
    corresponds.records id⟩

/-- The second table shows all that the first one shows. -/
theorem shows (corresponds : first.Corresponds places second) : first.Shows second := by
  intro id record found
  obtain ⟨other, found', records⟩ := corresponds.get found
  exact ⟨other, found', records.decorations, records.definition.eq_of_readable⟩

/-- Writing records that correspond keeps the correspondence. -/
theorem put {record changed changed' : Record} (corresponds : first.Corresponds places second)
    (found : first.get id = .ok record) (records : changed.Corresponds places changed') :
    (first.put id changed).Corresponds places (second.put id changed') := by
  obtain ⟨below, -⟩ := get_eq_ok_iff.mp found
  refine ⟨corresponds.bound_le, fun other => ?_, fun other above => ?_⟩
  · rw [Table.put, Table.put, Std.TreeMap.getD_insert, Std.TreeMap.getD_insert]
    split
    · exact records
    · exact corresponds.records other
  · rw [Table.put, Std.TreeMap.getD_insert]
    split
    · rename_i same
      rw [Std.LawfulEqCmp.eq_of_compare same] at below
      exact absurd below (UInt32.not_lt.mpr above)
    · exact corresponds.beyond other above

/-- Tables that correspond find the same entry points. -/
theorem entryPoint? (corresponds : first.Corresponds places second) {name : String}
    (found : first.entryPoint? name = some id) : second.entryPoint? name = some id :=
  entryPoint?_of_enters (fun id => (corresponds.records id).definition.enters_iff.symm) found

end Table.Corresponds

end

end ShaderMachine
