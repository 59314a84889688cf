import ShaderMachine.Machine.Setup
import ShaderMachine.Proofs.ExecutionSteps

/-! # What declarations do

An instruction of a module either says something about an ID, or gives an ID a definition that
fits the table, or declares an entry point, or starts or ends a function.

* **`Table.Declares`** — what a declaration does to a table.
* **`Setup.Opens`** and **`Setup.Closes`** — what the head and the end of a function do.
* **`Setup.step_inv`** — what one instruction of a module does.
* **`Setup.foldlM_preserves`** — what instructions of a module preserve, one after the other. -/

namespace ShaderMachine

/-! ## Changes -/

/-- What a declaration other than that of a function may do to a table, if values and variables may
only be given under a condition. -/
inductive Table.Declares (gives : Prop) (table : Table) : Table → Prop
  /-- Nothing changes. -/
  | keep : Declares gives table table
  /-- A record gets another name or a further decoration. -/
  | describe {id : Id} {record changed : Record} (found : table.get id = .ok record)
      (same : changed.definition = record.definition) : Declares gives table (table.put id changed)
  /-- An ID that stands for nothing gets a definition, which is not that of a function. -/
  | define {id : Id} {record : Record} {definition : Definition}
      (found : table.get id = .ok record) (fresh : record.definition = .unset)
      (fits : definition.Fits table) (plain : definition.function? = none)
      (data : definition.IsData → gives) :
      Declares gives table (table.put id { record with definition })
  /-- An entry point is declared, or more is said about it; its function stays as it is. -/
  | enter {id : Id} {record changed : Record} {entry : EntryPointRecord}
      (found : table.get id = .ok record) (enters : changed.definition = .entryPoint entry)
      (before : record.definition = .unset ∨ (∃ body, record.definition = .function body) ∨
        ∃ known, record.definition = .entryPoint known)
      (same : changed.definition.function? = record.definition.function?) :
      Declares gives table (table.put id changed)

/-- What a declaration other than that of a function may do to a setup. -/
def Setup.Declares (gives : Prop) (setup next : Setup) : Prop :=
  next.openFunction = setup.openFunction ∧ setup.table.Declares gives next.table

/-- Whether an instruction of a module may give an ID a value or a variable. -/
def Instruction.GivesData (instruction : Instruction) : Prop :=
  Opcode.ofNumber? instruction.opcode ∈ [some .constantTrue, some .constantFalse, some .constant,
    some .constantComposite, some .variableDecl, some .functionParameter]

/-- What the head of a function does to a setup: its body starts after the head. -/
def Setup.Opens (instruction : Instruction) (setup next : Setup) : Prop :=
  setup.openFunction = none ∧
    ∃ id record changed body, setup.table.get id = .ok record ∧
      (record.definition = .unset ∨ ∃ entry, record.definition = .entryPoint entry) ∧
      record.definition.function? = none ∧
      ((∃ entry, changed.definition = .entryPoint entry) ∨ changed.definition = .function body) ∧
      changed.definition.function? = some body ∧
      body.start = instruction.stop ∧ body.stop = none ∧
      next.table = setup.table.put id changed ∧ next.openFunction = some id

/-- What the end of a function does to a setup: the body of the open function ends there. -/
def Setup.Closes (instruction : Instruction) (setup next : Setup) : Prop :=
  ∃ id record, setup.openFunction = some id ∧ setup.table.get id = .ok record ∧
    next.table = setup.table.put id (record.ended instruction.offset) ∧ next.openFunction = none

namespace Setup

open OperandReader

variable {configuration : Configuration} {setup : Setup} {instruction : Instruction} {gives : Prop}

/-- Whether a handler makes a declaration, if it succeeds. -/
abbrev MakesDeclaration (gives : Prop) (setup : Setup) (reader : OperandReader Setup) : Prop :=
  reader.Meets (setup.Declares gives) fun _ => True

/-- A setup that stays as it is. -/
theorem declares_pure : setup.MakesDeclaration gives (pure setup) :=
  meets_pure ⟨rfl, .keep⟩

/-- A setup with another table. -/
theorem declares_withTable {table : Except MachineError Table}
    (changes : ∀ next, table = .ok next → setup.table.Declares gives next) :
    setup.MakesDeclaration gives (setup.withTable table) := by
  refine meets_compute (.of_cases ?_ fun _ _ => trivial)
  intro next is
  cases table with
  | error error => cases is
  | ok table =>
      cases is
      exact ⟨rfl, changes table rfl⟩

/-- A setup with a further definition. -/
theorem declares_withDefinition {id : Id} {definition : Definition}
    (fits : definition.Fits setup.table) (plain : definition.function? = none)
    (data : definition.IsData → gives) :
    setup.MakesDeclaration gives (setup.withDefinition id definition) := by
  refine declares_withTable fun next defined => ?_
  obtain ⟨record, found, fresh, rfl⟩ := Table.define_inv defined
  exact .define found fresh fits plain data

/-- A setup with a further type. -/
theorem declares_withType {id : Id} {type : DataType}
    (fits : type.size ≤ maxTypeSize → type.Fits setup.table) :
    setup.MakesDeclaration gives (setup.withType id type) := by
  unfold withType
  split
  · exact meets_throw trivial
  · rename_i small
    exact declares_withDefinition (fits (Nat.le_of_not_lt small)) rfl False.elim

/-- A definition that is added is given to the ID. -/
theorem exists_of_withDefinition {next : Setup} {cursor last : Cursor} {id : Id}
    {definition : Definition}
    (added : setup.withDefinition id definition cursor = .ok (next, last)) :
    ∃ table, setup.table.define id definition = .ok table ∧ next = { setup with table } := by
  obtain ⟨table, defined, rfl⟩ := exists_of_map (OperandReader.of_computed added).1
  exact ⟨table, defined, rfl⟩

/-- So is a type. -/
theorem exists_of_withType {next : Setup} {cursor last : Cursor} {id : Id} {type : DataType}
    (added : setup.withType id type cursor = .ok (next, last)) :
    ∃ table, setup.table.define id (.type type) = .ok table ∧ next = { setup with table } := by
  unfold withType at added
  split at added
  · cases added
  · exact exists_of_withDefinition added

/-! ## Names and modes -/

/-- An instruction that says nothing. -/
theorem declares_ignore : setup.MakesDeclaration gives (ignore configuration setup instruction) :=
  .drained declares_pure

/-- A debug name. -/
theorem declares_name : setup.MakesDeclaration gives (name configuration setup instruction) := by
  refine .word trivial fun target => ?_
  refine .string (fun _ => trivial) fun text => ?_
  refine .computed (fun _ _ => trivial) fun record found => ?_
  exact meets_pure ⟨rfl, .describe found rfl⟩

/-- A capability. -/
theorem declares_capability :
    setup.MakesDeclaration gives (capability configuration setup instruction) :=
  .word trivial fun _ => declares_pure

/-- An imported set of extended instructions. -/
theorem declares_extInstImport :
    setup.MakesDeclaration gives (extInstImport configuration setup instruction) := by
  refine .word trivial fun id => ?_
  refine .string (fun _ => trivial) fun text => ?_
  exact declares_withDefinition trivial rfl False.elim

/-- What becomes of a definition for which an entry point is declared. -/
inductive EntersPoint (model : ExecutionModel) (text : String) (interface : List Id) :
    Definition → Definition → Prop
  /-- Nothing was defined yet. -/
  | first : EntersPoint model text interface .unset
      (.entryPoint (.ofDeclaration model text interface))
  /-- The ID is an entry point already. -/
  | again (entry : EntryPointRecord) : EntersPoint model text interface (.entryPoint entry)
      (.entryPoint (entry.augment model text interface))
  /-- The ID is a function. -/
  | promoted (body : FunctionRecord) : EntersPoint model text interface (.function body)
      (.entryPoint { EntryPointRecord.ofDeclaration model text interface with
        function := some body })

/-- Declaring an entry point succeeds for these definitions. -/
theorem entersPoint_of_declareEntryPoint {id : Id} {definition next : Definition}
    {model : ExecutionModel} {text : String} {interface : List Id}
    (declared : declareEntryPoint id definition model text interface = .ok next) :
    EntersPoint model text interface definition next := by
  rw [declareEntryPoint.eq_def] at declared
  split at declared
  · cases declared
    exact .again _
  · cases declared
    exact .first
  · cases declared
    exact .promoted _
  · cases declared

/-- Declaring an entry point keeps the function of a definition. -/
theorem declareEntryPoint_inv {id : Id} {definition next : Definition} {model : ExecutionModel}
    {text : String} {interface : List Id}
    (declared : declareEntryPoint id definition model text interface = .ok next) :
    (∃ entry, next = .entryPoint entry) ∧
      (definition = .unset ∨ (∃ body, definition = .function body) ∨
        ∃ known, definition = .entryPoint known) ∧ next.function? = definition.function? := by
  cases entersPoint_of_declareEntryPoint declared with
  | first => exact ⟨⟨_, rfl⟩, Or.inl rfl, rfl⟩
  | again entry => exact ⟨⟨_, rfl⟩, Or.inr (Or.inr ⟨_, rfl⟩), rfl⟩
  | promoted body => exact ⟨⟨_, rfl⟩, Or.inr (Or.inl ⟨_, rfl⟩), rfl⟩

/-- An entry point. -/
theorem declares_entryPoint :
    setup.MakesDeclaration gives (entryPoint configuration setup instruction) := by
  refine .word trivial fun modelWord => ?_
  dsimp only
  split
  · rw [pure_bind]
    refine .word trivial fun function => ?_
    refine .string (fun _ => trivial) fun text => ?_
    refine .words fun interface => ?_
    refine .computed (fun _ _ => trivial) fun changed is => ?_
    obtain ⟨-, -, is⟩ := exists_of_bind is
    obtain ⟨record, found, is⟩ := exists_of_bind is
    obtain ⟨definition, declared, is⟩ := exists_of_bind is
    cases is
    obtain ⟨⟨entry, enters⟩, before, same⟩ := declareEntryPoint_inv declared
    exact meets_pure ⟨rfl, .enter found enters before same⟩
  · exact meets_malformed_bind trivial

/-- An execution mode. -/
theorem declares_executionMode :
    setup.MakesDeclaration gives (executionMode configuration setup instruction) := by
  refine .word trivial fun target => ?_
  refine .word trivial fun mode => ?_
  refine .words fun literals => declares_withTable fun next is => ?_
  obtain ⟨record, found, is⟩ := exists_of_bind is
  split at is
  · rename_i entry definition_eq
    cases is
    refine .enter found rfl (Or.inr (Or.inr ⟨entry, definition_eq⟩)) ?_
    rw [definition_eq]
    rfl
  · cases is
  · cases is

/-- A decoration. -/
theorem declares_decorate :
    setup.MakesDeclaration gives (decorate configuration setup instruction) := by
  refine .word trivial fun target => ?_
  refine .word trivial fun kind => ?_
  have literals : (readDecorationLiterals instruction kind).Meets (fun _ => True)
      fun _ => True := by
    unfold readDecorationLiterals
    split
    · exact .string (fun _ => trivial) fun text => .word trivial fun _ => meets_pure trivial
    · split
      · exact .word trivial fun _ => meets_pure trivial
      · exact meets_pure trivial
  refine literals.bind fun entry _ => declares_withTable fun next is => ?_
  obtain ⟨record, found, is⟩ := exists_of_bind is
  split at is
  · cases is
  · cases is
    exact .describe found rfl

/-! ## Types -/

/-- A type without parts fits unless it is too large. -/
theorem fits_of_no_members {table : Table} {type : DataType} (no_members : type.members = [])
    (no_vector : ∀ members, type ≠ .vector members) (small : type.size ≤ maxTypeSize) :
    type.Fits table := by
  refine ⟨small, fun member mem => ?_, fun members is_vector =>
    absurd is_vector (no_vector members)⟩
  rw [no_members] at mem
  cases mem

/-- Repeated members have the size of their type. -/
theorem sizeOf_of_repeatedMembers {table : Table} {type : Id} {count : Word}
    {members : List Member} (repeated : repeatedMembers table type count = .ok members) :
    ∃ size, table.sizeOf type = .ok size ∧ members = List.replicate count.toNat ⟨type, size⟩ := by
  obtain ⟨size, has_size, rfl⟩ := exists_of_map repeated
  exact ⟨size, has_size, rfl⟩

/-- A type without operands. -/
theorem declares_plainType {type : DataType} (no_members : type.members = [])
    (no_vector : ∀ members, type ≠ .vector members) :
    setup.MakesDeclaration gives (plainType type configuration setup instruction) :=
  .word trivial fun _ => declares_withType (fits_of_no_members no_members no_vector)

/-- An integer type. -/
theorem declares_typeInt :
    setup.MakesDeclaration gives (typeInt configuration setup instruction) := by
  refine .word trivial fun id => ?_
  refine .word trivial fun width => ?_
  refine .word trivial fun signedness => ?_
  split
  · exact declares_withType (fits_of_no_members rfl (by simp))
  · exact meets_malformed trivial

/-- A float type. -/
theorem declares_typeFloat :
    setup.MakesDeclaration gives (typeFloat configuration setup instruction) := by
  refine .word trivial fun id => ?_
  refine .word trivial fun width => ?_
  split
  · exact declares_withType (fits_of_no_members rfl (by simp))
  · exact meets_malformed trivial

/-- A vector type. -/
theorem declares_typeVector :
    setup.MakesDeclaration gives (typeVector configuration setup instruction) := by
  refine .word trivial fun id => ?_
  refine .word trivial fun component => ?_
  refine .word trivial fun count => ?_
  split
  · exact meets_malformed trivial
  · rename_i count_fits
    rw [not_or, UInt32.not_lt, UInt32.not_lt] at count_fits
    refine .computed (fun _ _ => trivial) fun members is => ?_
    obtain ⟨scalar, is_type, is⟩ := exists_of_bind is
    split at is
    · rename_i is_scalar
      -- The members are one scalar repeated, so their sizes are that of the scalar.
      obtain ⟨size, has_size, rfl⟩ := sizeOf_of_repeatedMembers is
      refine declares_withType fun small =>
        ⟨small, fun member mem => ?_, fun members is_vector => ?_⟩
      · rw [List.eq_of_mem_replicate mem]
        exact has_size
      · cases is_vector
        exact ⟨count.toNat, _, scalar, UInt32.le_iff_toNat_le.mp count_fits.1,
          UInt32.le_iff_toNat_le.mp count_fits.2, rfl, is_type, is_scalar⟩
    · cases is

/-- A matrix type. -/
theorem declares_typeMatrix :
    setup.MakesDeclaration gives (typeMatrix configuration setup instruction) := by
  refine .word trivial fun id => ?_
  refine .word trivial fun column => ?_
  refine .word trivial fun count => ?_
  split
  · exact meets_malformed trivial
  · refine .computed (fun _ _ => trivial) fun members is => ?_
    obtain ⟨type, -, is⟩ := exists_of_bind is
    obtain ⟨size, has_size, rfl⟩ := sizeOf_of_repeatedMembers is
    refine declares_withType fun small => ⟨small, fun member mem => ?_, by simp⟩
    rw [List.eq_of_mem_replicate mem]
    exact has_size

/-- An array type. -/
theorem declares_typeArray :
    setup.MakesDeclaration gives (typeArray configuration setup instruction) := by
  refine .word trivial fun id => ?_
  refine .word trivial fun element => ?_
  refine .word trivial fun lengthId => ?_
  refine .computed (fun _ _ => trivial) fun length _ => ?_
  split
  · exact meets_malformed trivial
  · refine .computed (fun _ _ => trivial) fun size has_size => ?_
    split
    · exact meets_throw trivial
    · refine declares_withType fun small => ⟨small, fun member mem => ?_, by simp⟩
      rw [List.mem_singleton.mp mem]
      exact has_size

/-- Members that are found one by one have the sizes of their types. -/
theorem sizeOf_of_mapM {table : Table} {types : List Id} {members : List Member}
    (is : types.mapM (fun type => (table.sizeOf type).map fun size => Member.mk type size) =
      .ok members) : ∀ member ∈ members, table.sizeOf member.type = .ok member.size := by
  induction types generalizing members with
  | nil =>
      cases is
      simp
  | cons type types hyp =>
      rw [List.mapM_cons] at is
      obtain ⟨member, first, is⟩ := exists_of_bind is
      obtain ⟨others, rest, is⟩ := exists_of_bind is
      obtain ⟨size, has_size, rfl⟩ := exists_of_map first
      cases is
      rw [List.forall_mem_cons]
      exact ⟨has_size, hyp rest⟩

/-- A structure type. -/
theorem declares_typeStruct :
    setup.MakesDeclaration gives (typeStruct configuration setup instruction) := by
  refine .word trivial fun id => ?_
  refine .words fun types => ?_
  refine .computed (fun _ _ => trivial) fun members is => ?_
  exact declares_withType fun small => ⟨small, sizeOf_of_mapM is, by simp⟩

/-- A pointer type. -/
theorem declares_typePointer :
    setup.MakesDeclaration gives (typePointer configuration setup instruction) := by
  refine .word trivial fun id => ?_
  refine .word trivial fun storageWord => ?_
  refine (Execution.meets_storageOfWord trivial).bind fun storage _ => ?_
  refine .word trivial fun pointee => ?_
  refine .computed (fun _ _ => trivial) fun _ _ => ?_
  exact declares_withType (fits_of_no_members rfl (by simp))

/-- A function signature. -/
theorem declares_typeFunction :
    setup.MakesDeclaration gives (typeFunction configuration setup instruction) := by
  refine .word trivial fun id => ?_
  refine .word trivial fun returnType => ?_
  refine .computed (fun _ _ => trivial) fun _ _ => ?_
  refine .words fun parameters => ?_
  refine .computed (fun _ _ => trivial) fun _ _ => ?_
  exact declares_withType (fits_of_no_members rfl (by simp))

/-! ## Constants and variables -/

/-- A truth value. -/
theorem declares_constantBool {truth : Bool} (data : gives) :
    setup.MakesDeclaration gives (constantBool truth configuration setup instruction) := by
  refine .word trivial fun type => ?_
  refine .word trivial fun id => ?_
  refine .computed (fun _ _ => trivial) fun checked is => ?_
  obtain ⟨boolean, is_type, is⟩ := exists_of_bind is
  split at is
  · rename_i is_bool
    have size_eq : boolean.size = 4 := by
      cases boolean with
      | bool => rfl
      | _ => cases is_bool
    refine declares_withDefinition (Table.sizeOf_eq_ok_iff.mpr ⟨boolean, is_type, ?_⟩) rfl
      fun _ => data
    rw [size_eq]
    rfl
  · cases is

/-- The size of the constants of a scalar type is its size. -/
theorem sizeOf_of_scalarConstantSize {table : Table} {type : Id} {size : Nat}
    (is : scalarConstantSize table type = .ok size) : table.sizeOf type = .ok size := by
  obtain ⟨data, is_type, is⟩ := exists_of_bind is
  rw [Table.sizeOf_eq_ok_iff]
  refine ⟨data, is_type, ?_⟩
  cases data with
  | int width signed | float width =>
      cases is
      rfl
  | _ => cases is

/-- A scalar constant. -/
theorem declares_constant (data : gives) :
    setup.MakesDeclaration gives (constant configuration setup instruction) := by
  refine .word trivial fun type => ?_
  refine .word trivial fun id => ?_
  refine .computed (fun _ _ => trivial) fun size is => ?_
  refine .counted trivial fun words counted => ?_
  refine declares_withDefinition ?_ rfl fun _ => data
  have enough : size ≤ (bytesOfWords words).length := by
    rw [length_bytesOfWords, counted]
    omega
  rw [Definition.Fits, Value.Fits, List.length_take_of_le enough]
  exact sizeOf_of_scalarConstantSize is

/-- Constituents make up as many bytes as the type has. -/
theorem sizeOf_of_foldComposite {table : Table} {result type : Id} {constituents : List Id}
    {bytes : Bytes} (is : foldComposite table result type constituents = .ok bytes) :
    table.sizeOf type = .ok bytes.length := by
  obtain ⟨size, has_size, is⟩ := exists_of_bind is
  obtain ⟨values, -, is⟩ := exists_of_bind is
  simp only at is
  split at is
  · rename_i length_eq
    cases is
    rw [length_eq]
    exact has_size
  · cases is

/-- A composite constant. -/
theorem declares_constantComposite (data : gives) :
    setup.MakesDeclaration gives (constantComposite configuration setup instruction) := by
  refine .word trivial fun type => ?_
  refine .word trivial fun id => ?_
  refine .words fun constituents => ?_
  refine .computed (fun _ _ => trivial) fun bytes is => ?_
  exact declares_withDefinition (sizeOf_of_foldComposite is) rfl fun _ => data

/-- A variable. -/
theorem declares_variableDecl (data : gives) :
    setup.MakesDeclaration gives (variableDecl configuration setup instruction) := by
  unfold variableDecl
  split
  · exact .drained declares_pure
  · have variable_read : (Execution.readVariable setup.table instruction).Meets
        (fun answer => answer.2.Fits setup.table) fun _ => True :=
      Execution.meets_readVariable.imp (fun _ fits => fits) fun _ _ => trivial
    exact variable_read.bind fun answer fits => declares_withDefinition fits rfl fun _ => data

/-! ## Functions -/

/-- A parameter. -/
theorem declares_functionParameter (data : gives) :
    setup.MakesDeclaration gives (functionParameter configuration setup instruction) := by
  refine .word trivial fun type => ?_
  refine .word trivial fun id => ?_
  split
  · exact meets_malformed trivial
  · refine .computed (fun _ _ => trivial) fun size has_size => ?_
    refine declares_withDefinition ?_ rfl fun _ => data
    rw [Definition.Fits, Value.Fits, List.length_replicate]
    exact has_size

/-- A block label. -/
theorem declares_label : setup.MakesDeclaration gives (label configuration setup instruction) := by
  refine .word trivial fun id => ?_
  split
  · exact meets_malformed trivial
  · exact declares_withDefinition trivial rfl False.elim

/-- What becomes of a definition for which a function is declared. -/
inductive BeginsFunction (body : FunctionRecord) : Definition → Definition → Prop
  /-- Nothing was defined yet. -/
  | first : BeginsFunction body .unset (.function body)
  /-- The ID is an entry point that has no function yet. -/
  | entered (entry : EntryPointRecord) (bodiless : entry.function = none) :
      BeginsFunction body (.entryPoint entry) (.entryPoint { entry with function := some body })

/-- Declaring a function succeeds for these definitions. -/
theorem beginsFunction_of_declareFunction {id : Id} {definition next : Definition}
    {body : FunctionRecord} (declared : declareFunction id definition body = .ok next) :
    BeginsFunction body definition next := by
  rw [declareFunction.eq_def] at declared
  split at declared
  · cases declared
    exact .first
  · cases declared
    exact .entered ⟨_, _, _, _, none⟩ rfl
  · cases declared

/-- Declaring a function gives it its body. -/
theorem declareFunction_inv {id : Id} {definition next : Definition} {body : FunctionRecord}
    (declared : declareFunction id definition body = .ok next) :
    (definition = .unset ∨ ∃ entry, definition = .entryPoint entry) ∧
      definition.function? = none ∧
      ((∃ entry, next = .entryPoint entry) ∨ next = .function body) ∧
      next.function? = some body := by
  cases beginsFunction_of_declareFunction declared with
  | first => exact ⟨Or.inl rfl, rfl, Or.inr rfl, rfl⟩
  | entered entry bodiless => exact ⟨Or.inr ⟨_, rfl⟩, bodiless, Or.inl ⟨_, rfl⟩, rfl⟩

/-- The head of a function. -/
theorem opens_function :
    (function configuration setup instruction).Meets (setup.Opens instruction) fun _ => True := by
  refine .word trivial fun returnType => ?_
  refine .word trivial fun id => ?_
  refine .word trivial fun control => ?_
  refine .word trivial fun functionType => ?_
  split
  · exact meets_malformed trivial
  · rename_i closed
    refine .computed (fun _ _ => trivial) fun table is => ?_
    obtain ⟨-, -, is⟩ := exists_of_bind is
    obtain ⟨-, -, is⟩ := exists_of_bind is
    obtain ⟨record, found, is⟩ := exists_of_bind is
    obtain ⟨definition, declared, is⟩ := exists_of_bind is
    cases is
    obtain ⟨before, fresh, enters, begun⟩ := declareFunction_inv declared
    exact meets_pure ⟨closed, id, record, { record with definition }, _, found, before, fresh,
      enters, begun, rfl, rfl, rfl, rfl⟩

/-- The function that a head opens is the one that its second operand says. -/
theorem operand_of_function {next : Setup} {cursor : Cursor} {id : Id}
    (opened : function configuration setup instruction instruction.cursor = .ok (next, cursor))
    (open_eq : next.openFunction = some id) : instruction.operands[1]? = some id := by
  obtain ⟨returnType, second, first_ahead, opened⟩ := exists_word opened
  obtain ⟨named, third, second_ahead, opened⟩ := exists_word opened
  obtain ⟨control, fourth, -, opened⟩ := exists_word opened
  obtain ⟨functionType, fifth, -, opened⟩ := exists_word opened
  -- The ID of the function is the second word that is read.
  have operands_eq : instruction.operands = returnType :: named :: third.ahead := by
    rw [← second_ahead, ← first_ahead]
    rfl
  cases outer : setup.openFunction with
  | some other =>
      simp only [outer] at opened
      cases opened
  | none =>
      simp only [outer] at opened
      obtain ⟨⟨table, last⟩, -, opened⟩ := exists_of_bind opened
      cases opened
      rw [operands_eq]
      exact open_eq

/-- The end of a function. -/
theorem closes_functionEnd :
    (functionEnd configuration setup instruction).Meets (setup.Closes instruction)
      fun _ => True := by
  unfold functionEnd
  split
  · exact meets_malformed trivial
  · rename_i id opened
    refine .computed (fun _ _ => trivial) fun table is => ?_
    obtain ⟨record, found, rfl⟩ := exists_of_map is
    exact meets_pure ⟨id, record, opened, found, rfl, rfl⟩

/-! ## Steps -/

/-- What an instruction does to a setup: the head of a function opens it, its end closes it, and
every other one makes a declaration. -/
def Moves (setup : Setup) (instruction : Instruction) (next : Setup) : Prop :=
  match Opcode.ofNumber? instruction.opcode with
  | some .function => setup.Opens instruction next
  | some .functionEnd => setup.Closes instruction next
  | _ => setup.Declares instruction.GivesData next

/-- The handler of a declaration does what the declaration should. -/
theorem meets_setupTable {handler : SetupHandler}
    (registered : setupTable.get? instruction.opcode = some handler) :
    (handler configuration setup instruction).Meets (setup.Moves instruction) fun _ => True := by
  obtain ⟨opcode, known, registered⟩ := Option.bind_eq_some_iff.mp registered
  have moves : setup.Moves instruction = fun next => match some opcode with
      | some .function => setup.Opens instruction next
      | some .functionEnd => setup.Closes instruction next
      | _ => setup.Declares instruction.GivesData next := by
    funext next
    rw [Moves, known]
  rw [moves]
  have data (mem : some opcode ∈ [some .constantTrue, some .constantFalse, some .constant,
      some .constantComposite, some .variableDecl, some .functionParameter]) :
      instruction.GivesData := by
    rw [Instruction.GivesData, known]
    exact mem
  -- There is one case for each handler; the head and the end of a function stand apart.
  cases opcode with
  | nop | source | sourceExtension | memberName | string | line | noLine | extension
  | moduleProcessed | memberDecorate | memoryModel =>
      cases registered
      exact declares_ignore
  | name =>
      cases registered
      exact declares_name
  | capability =>
      cases registered
      exact declares_capability
  | extInstImport =>
      cases registered
      exact declares_extInstImport
  | entryPoint =>
      cases registered
      exact declares_entryPoint
  | executionMode =>
      cases registered
      exact declares_executionMode
  | decorate =>
      cases registered
      exact declares_decorate
  | typeVoid | typeBool =>
      cases registered
      exact declares_plainType rfl (by simp)
  | typeInt =>
      cases registered
      exact declares_typeInt
  | typeFloat =>
      cases registered
      exact declares_typeFloat
  | typeVector =>
      cases registered
      exact declares_typeVector
  | typeMatrix =>
      cases registered
      exact declares_typeMatrix
  | typeArray =>
      cases registered
      exact declares_typeArray
  | typeStruct =>
      cases registered
      exact declares_typeStruct
  | typePointer =>
      cases registered
      exact declares_typePointer
  | typeFunction =>
      cases registered
      exact declares_typeFunction
  | constantTrue | constantFalse =>
      cases registered
      exact declares_constantBool (data (by decide))
  | constant =>
      cases registered
      exact declares_constant (data (by decide))
  | constantComposite =>
      cases registered
      exact declares_constantComposite (data (by decide))
  | variableDecl =>
      cases registered
      exact declares_variableDecl (data (by decide))
  | function =>
      cases registered
      exact opens_function
  | functionParameter =>
      cases registered
      exact declares_functionParameter (data (by decide))
  | functionEnd =>
      cases registered
      exact closes_functionEnd
  | label =>
      cases registered
      exact declares_label
  | _ => cases registered

/-- A function is never opened or closed without a handler. -/
theorem moves_of_unregistered {next : Setup}
    (unregistered : setupTable.get? instruction.opcode = none)
    (declares : setup.Declares instruction.GivesData next) :
    setup.Moves instruction next := by
  unfold Moves
  unfold Dispatch.get? at unregistered
  split
  · rename_i known
    rw [known] at unregistered
    cases unregistered
  · rename_i known
    rw [known] at unregistered
    cases unregistered
  · exact declares

/-- An instruction of a module runs its handler, or has none and changes no more than a count. -/
theorem step_cases {next : Setup} (stepped : setup.step configuration instruction = .ok next) :
    (∃ handler cursor, setupTable.get? instruction.opcode = some handler ∧
        handler configuration setup instruction instruction.cursor = .ok (next, cursor)) ∨
      setupTable.get? instruction.opcode = none ∧
        next = { setup with unsupported :=
          setup.unsupported + if setup.passesOver instruction then 0 else 1 } := by
  have ends := setup.stepEnds configuration instruction
  rw [stepped] at ends
  cases ends with
  | handled registered ends =>
      cases ends with
      | done handled at_end => exact Or.inl ⟨_, _, registered, handled⟩
  | passed missing executes =>
      rw [executes]
      exact Or.inr ⟨missing, rfl⟩
  | counted missing unknown lenient =>
      rw [unknown]
      exact Or.inr ⟨missing, rfl⟩

/-- What one instruction of a module does. -/
theorem step_inv {next : Setup} (stepped : setup.step configuration instruction = .ok next) :
    setup.Moves instruction next := by
  rcases step_cases stepped with ⟨handler, cursor, registered, handled⟩ | ⟨missing, rfl⟩
  · exact (meets_setupTable registered instruction.cursor).value handled
  · exact moves_of_unregistered missing ⟨rfl, .keep⟩

/-- An instruction of a module that has a handler runs it. -/
theorem exists_handled {next : Setup} {opcode : Opcode} {handler : SetupHandler}
    (stepped : setup.step configuration instruction = .ok next)
    (known : Opcode.ofNumber? instruction.opcode = some opcode)
    (registered : setupTable.handler? opcode = some handler) :
    ∃ cursor, handler configuration setup instruction instruction.cursor = .ok (next, cursor) := by
  have found : setupTable.get? instruction.opcode = some handler :=
    (Dispatch.get?_of_known _ known).trans registered
  rcases step_cases stepped with ⟨handler', cursor, found', handled⟩ | ⟨missing, -⟩
  · cases found.symm.trans found'
    exact ⟨cursor, handled⟩
  · cases found.symm.trans missing

/-- The function that an instruction opens is the one that its second operand says. -/
theorem operand_of_step {next : Setup} {id : Id}
    (stepped : setup.step configuration instruction = .ok next)
    (head : Opcode.ofNumber? instruction.opcode = some .function)
    (open_eq : next.openFunction = some id) : instruction.operands[1]? = some id := by
  obtain ⟨cursor, handled⟩ := exists_handled stepped head rfl
  exact operand_of_function handled open_eq

/-- What every instruction that is accepted preserves, accepting one after the other preserves. -/
theorem foldlM_preserves {P : Setup → Prop} {instructions : List Instruction} {last : Setup}
    (steps : ∀ setup next, ∀ instruction ∈ instructions,
      setup.step configuration instruction = .ok next → P setup → P next)
    (passed : instructions.foldlM (step configuration) setup = .ok last) (holds : P setup) :
    P last := by
  induction instructions generalizing setup with
  | nil =>
      cases passed
      exact holds
  | cons instruction instructions hyp =>
      rw [List.foldlM_cons] at passed
      obtain ⟨next, stepped, passed⟩ := exists_of_bind passed
      refine hyp (fun setup next other mem => ?_) passed
        (steps setup next instruction List.mem_cons_self stepped holds)
      exact steps setup next other (List.mem_cons_of_mem _ mem)

/-- A module that is passed has all its instructions accepted, and its functions end. -/
theorem run_inv {loaded : Module} {last : Setup} (passed : run configuration loaded = .ok last) :
    loaded.instructions.foldlM (step configuration) (ofModule loaded) = .ok last ∧
      last.openFunction = none := by
  obtain ⟨setup, folded, closed⟩ := exists_of_bind passed
  split at closed
  · cases closed
  · rename_i none_open
    cases closed
    exact ⟨folded, none_open⟩

end Setup

end ShaderMachine
