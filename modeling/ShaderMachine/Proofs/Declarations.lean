import ShaderMachine.Proofs.References
import ShaderMachine.Proofs.SameReadings
import ShaderMachine.Proofs.SetupSteps

/-! # What instructions of a module declare

An instruction of a module is read into a declaration about one ID, or says nothing. All that it
does to the records is what the declaration does to the record of that ID. An instruction that is
accepted makes the same declaration in a setup whose table shows what the first one shows; there it
may be refused, but for nothing other than the record of its ID.

* **`Declaration`** — what an instruction says about an ID, and **`Declaration.apply`** for what
  becomes of the ID's record.
* **`Setup.declare`** — a declaration that is made.
* **`Setup.Parallel`** — two setups that make the same declaration.
* **`Setup.step_parallel`** — an instruction that is accepted makes the same declaration in both.
* **`Setup.step_withResult`** — with another result, it makes the same declaration of that. -/

namespace ShaderMachine

/-! ## Declarations -/

/-- What an instruction of a module says about an ID. -/
inductive Declaration where
  /-- A debug name. -/
  | name (text : String)
  /-- A further decoration. -/
  | decoration (entry : DecorationEntry)
  /-- A type, a value, a variable or an imported set. -/
  | definition (definition : Definition) (readable : definition.IsReadable)
  /-- A block label, where the instruction stands. -/
  | label
  /-- An entry point with its interface. -/
  | entryPoint (model : ExecutionModel) (text : String) (interface : List Id)
  /-- An execution mode of an entry point. -/
  | executionMode (mode : Word) (literals : List Word)
  /-- The head of a function, whose body starts after the instruction. -/
  | function (returnType functionType : Id) (control : Word)
  /-- The end of a function, where the instruction stands. -/
  | functionEnd

/-- The record with a definition, if it had none. -/
def Record.defined (record : Record) (id : Id) (definition : Definition) :
    Except MachineError Record :=
  if record.isUnset then .ok { record with definition }
  else .error (.idRedefined id record.definition.kind definition.kind)

namespace Declaration

/-- What becomes of the record of an ID. -/
def apply (configuration : Configuration) (instruction : Instruction) (id : Id) (record : Record) :
    Declaration → Except MachineError Record
  | name text => .ok (record.named text)
  | decoration entry =>
      if configuration.maxDecorations ≤ record.decorations.length then
        .error (.tooManyDecorations id configuration.maxDecorations)
      else
        .ok (record.decorated entry)
  | definition given _ => record.defined id given
  | label => record.defined id (.label instruction.offset)
  | entryPoint model text interface =>
      (Setup.declareEntryPoint id record.definition model text interface).map fun definition =>
        { record with definition }.named text
  | executionMode mode literals =>
      match record.definition with
      | .entryPoint entry => .ok { record with
          definition := .entryPoint { entry with modes := entry.modes ++ [(mode, literals)] } }
      | .unset => .error (.undefinedId id)
      | other => .error (.typeMismatch id (.definition .entryPoint) (.definition other.kind))
  | function returnType functionType control =>
      (Setup.declareFunction id record.definition
        ⟨returnType, functionType, control, instruction.stop, none⟩).map fun definition =>
          { record with definition }
  | functionEnd => .ok (record.ended instruction.offset)

/-- The function whose body the pass is in afterwards. -/
def opens (id : Id) (before : Option Id) : Declaration → Option Id
  | function _ _ _ => some id
  | functionEnd => none
  | _ => before

/-- How often the ID gets a name that differs from the one it had. -/
def renames (record : Record) : Declaration → Nat
  | name text | entryPoint _ text _ => if record.isRenamedBy text then 1 else 0
  | _ => 0

/-- The record of an ID that is defined had no definition. -/
theorem defined_inv {id : Id} {record changed : Record} {definition : Definition}
    (is_defined : record.defined id definition = .ok changed) :
    record.definition = .unset ∧ changed = { record with definition } := by
  unfold Record.defined at is_defined
  split at is_defined
  · rename_i unset
    cases is_defined
    exact ⟨Table.isUnset_iff.mp unset, rfl⟩
  · cases is_defined

/-- What a declaration that can be made makes of the record of its ID. -/
inductive Applies (configuration : Configuration) (instruction : Instruction) (record : Record) :
    Declaration → Record → Prop
  /-- The ID gets a name. -/
  | name {text : String} :
      Applies configuration instruction record (name text) (record.named text)
  /-- The ID gets a decoration, for which there is room. -/
  | decoration {entry : DecorationEntry}
      (room : record.decorations.length < configuration.maxDecorations) :
      Applies configuration instruction record (decoration entry) (record.decorated entry)
  /-- The ID gets its definition. -/
  | definition {given : Definition} {readable : given.IsReadable}
      (unset : record.definition = .unset) :
      Applies configuration instruction record (definition given readable)
        { record with definition := given }
  /-- The ID is a label. -/
  | label (unset : record.definition = .unset) :
      Applies configuration instruction record label
        { record with definition := .label instruction.offset }
  /-- The ID is an entry point, and gets a name. -/
  | entryPoint {model : ExecutionModel} {text : String} {interface : List Id} {given : Definition}
      (enters : Setup.EntersPoint model text interface record.definition given) :
      Applies configuration instruction record (entryPoint model text interface)
        ({ record with definition := given }.named text)
  /-- The entry point gets a mode. -/
  | executionMode {mode : Word} {literals : List Word} {entry : EntryPointRecord}
      (is_entry : record.definition = .entryPoint entry) :
      Applies configuration instruction record (executionMode mode literals) { record with
        definition := .entryPoint { entry with modes := entry.modes ++ [(mode, literals)] } }
  /-- The ID is a function, which begins with the instruction. -/
  | function {returnType functionType : Id} {control : Word} {given : Definition}
      (begins : Setup.BeginsFunction
        ⟨returnType, functionType, control, instruction.stop, none⟩ record.definition given) :
      Applies configuration instruction record (function returnType functionType control)
        { record with definition := given }
  /-- The function, if there is one, ends with the instruction. -/
  | functionEnd :
      Applies configuration instruction record functionEnd (record.ended instruction.offset)

/-- What becomes of a record is what the declaration makes of it. -/
theorem applies_of_apply {configuration : Configuration} {instruction : Instruction} {id : Id}
    {record changed : Record} {declaration : Declaration}
    (applied : declaration.apply configuration instruction id record = .ok changed) :
    declaration.Applies configuration instruction record changed := by
  -- One way for each declaration, and none for one that is refused.
  cases declaration with
  | name text =>
      cases applied
      exact .name
  | decoration entry =>
      rw [apply] at applied
      split at applied
      · cases applied
      · rename_i room
        cases applied
        exact .decoration (Nat.lt_of_not_le room)
  | definition given readable =>
      obtain ⟨unset, rfl⟩ := defined_inv applied
      exact .definition unset
  | label =>
      obtain ⟨unset, rfl⟩ := defined_inv applied
      exact .label unset
  | entryPoint model text interface =>
      rw [apply] at applied
      obtain ⟨given, declared, rfl⟩ := exists_of_map applied
      exact .entryPoint (Setup.entersPoint_of_declareEntryPoint declared)
  | executionMode mode literals =>
      rw [apply] at applied
      split at applied
      · rename_i entry is_entry
        cases applied
        exact .executionMode is_entry
      · cases applied
      · cases applied
  | function returnType functionType control =>
      rw [apply] at applied
      obtain ⟨given, declared, rfl⟩ := exists_of_map applied
      exact .function (Setup.beginsFunction_of_declareFunction declared)
  | functionEnd =>
      cases applied
      exact .functionEnd

end Declaration

/-- A record that is found is found in a table that shows what the first one shows. -/
theorem Table.Shows.isOk_get {table next : Table} (shows : table.Shows next) (id : Id)
    (found : (table.get id).isOk = true) : (next.get id).isOk = true := by
  obtain ⟨record, found⟩ := exists_of_isOk found
  obtain ⟨other, found_other, -⟩ := shows id record found
  rw [found_other]
  rfl

/-- Records that are found are found in a table that shows what the first one shows. -/
theorem Table.Shows.isOk_mapM {table next : Table} (shows : table.Shows next) {ids : List Id}
    (found : (ids.mapM table.get).isOk = true) : (ids.mapM next.get).isOk = true := by
  induction ids with
  | nil => rfl
  | cons id ids hyp =>
      rw [List.mapM_cons] at found ⊢
      obtain ⟨all, found⟩ := exists_of_isOk found
      obtain ⟨record, found_id, found⟩ := exists_of_bind found
      obtain ⟨records, found_ids, -⟩ := exists_of_bind found
      obtain ⟨other, found_other, -⟩ := shows id record found_id
      obtain ⟨others, found_others⟩ := exists_of_isOk (hyp (by rw [found_ids]; rfl))
      rw [found_other]
      dsimp only [bind, Except.bind]
      rw [found_others]
      rfl

namespace Setup

/-- The setup with a declaration made. -/
def declare (configuration : Configuration) (instruction : Instruction) (setup : Setup) (id : Id)
    (declaration : Declaration) : Except MachineError Setup := do
  let record ← setup.table.get id
  let changed ← declaration.apply configuration instruction id record
  return { setup with
    table := setup.table.put id changed
    openFunction := declaration.opens id setup.openFunction
    nameAllocations := setup.nameAllocations + declaration.renames record }

/-- A declaration that is made changes one record. -/
theorem declare_inv {configuration : Configuration} {instruction : Instruction}
    {setup next : Setup} {id : Id} {declaration : Declaration}
    (declared : setup.declare configuration instruction id declaration = .ok next) :
    ∃ record changed, setup.table.get id = .ok record ∧
      declaration.apply configuration instruction id record = .ok changed ∧
      next = { setup with
        table := setup.table.put id changed
        openFunction := declaration.opens id setup.openFunction
        nameAllocations := setup.nameAllocations + declaration.renames record } := by
  obtain ⟨record, found, declared⟩ := exists_of_bind declared
  obtain ⟨changed, applied, declared⟩ := exists_of_bind declared
  cases declared
  exact ⟨record, changed, found, applied, rfl⟩

/-! ## Setups that declare the same -/

section

variable (configuration configuration' : Configuration) (instruction instruction' : Instruction)
  (setup setup' : Setup) (rename : Id → Id)

/-- Whether a setup came about as a result did from another one: both made the same declaration, of
an ID and of what that is renamed to, or stayed as they were but for a count. -/
inductive Parallel : Setup → Except MachineError Setup → Prop
  /-- An instruction is passed over. -/
  | kept : Parallel setup (.ok setup')
  /-- An instruction is skipped as unsupported. -/
  | skipped (lenient : configuration.strict = false) :
      Parallel { setup with unsupported := setup.unsupported + 1 }
        (.ok { setup' with unsupported := setup'.unsupported + 1 })
  /-- A declaration is made. -/
  | declared {next : Setup} (id : Id) (declaration : Declaration)
      (made : setup.declare configuration instruction id declaration = .ok next) :
      Parallel next (setup'.declare configuration' instruction' (rename id) declaration)

end

section

open OperandReader

variable {configuration configuration' : Configuration} {instruction instruction' : Instruction}
  {setup setup' : Setup} {rename : Id → Id} {id : Id}

/-- What is computed from a computed value is computed. -/
theorem compute_bind_pure {α β : Type} (computed : Except MachineError α) (f : α → β) :
    (compute computed >>= fun value => pure (f value)) = compute (computed.map f) := by
  funext cursor
  cases computed <;> rfl

/-- Something that is checked again, then the rest. -/
theorem leads_checked {α β γ δ : Type} {goes : α → Except MachineError β → Prop}
    {computed : Except MachineError γ} {computed' : Except MachineError δ}
    {reader : OperandReader α} {reader' : OperandReader β}
    (checked : computed.isOk = true → computed'.isOk = true)
    (after : reader.Leads reader' goes) :
    (compute computed >>= fun _ => reader).Leads (compute computed' >>= fun _ => reader') goes := by
  intro cursor cursor' value last ahead_eq read
  obtain ⟨found, is_found, read⟩ := exists_computed read
  cases computed' with
  | error error =>
      rw [is_found] at checked
      cases checked rfl
  | ok found' => exact after cursor cursor' value last ahead_eq read

/-- Something that a step of a computation needs is computed before. -/
theorem compute_bind {α β : Type} (computed : Except MachineError α)
    (f : α → Except MachineError β) :
    compute (computed >>= f) = compute computed >>= fun value => compute (f value) := by
  funext cursor
  cases computed <;> rfl

/-- Whether a reading that succeeds has another one make the same declaration, of an ID that is
renamed. -/
abbrev AlikeFrom (configuration configuration' : Configuration)
    (instruction instruction' : Instruction) (setup setup' : Setup) (rename : Id → Id)
    (reader reader' : OperandReader Setup) : Prop :=
  reader.Leads reader'
    (Parallel configuration configuration' instruction instruction' setup setup' rename)

/-- Whether a handler that succeeds makes the same declaration in another setup. -/
abbrev HandlesAlike (configuration configuration' : Configuration)
    (instruction instruction' : Instruction) (setup setup' : Setup) (handler : SetupHandler) :
    Prop :=
  AlikeFrom configuration configuration' instruction instruction' setup setup' (fun id => id)
    (handler configuration setup instruction) (handler configuration' setup' instruction')

/-- Whether a handler that succeeds makes the same declaration in another setup, of another ID if it
finds another one at a place. -/
abbrev HandlesRenamed (configuration configuration' : Configuration)
    (instruction instruction' : Instruction) (setup setup' : Setup) (rename : Id → Id) (place : Nat)
    (handler : SetupHandler) : Prop :=
  (handler configuration setup instruction).LeadsFrom (handler configuration' setup' instruction')
    (Parallel configuration configuration' instruction instruction' setup setup' rename)
    place rename

/-- What makes a declaration in every setup makes the same one in two of them. -/
theorem leads_of_declares (rename : Id → Id) (id : Id) (declaration : Declaration)
    (makes : Configuration → Instruction → Setup → Id → Except MachineError Setup)
    (same : ∀ configuration instruction setup id, makes configuration instruction setup id =
      setup.declare configuration instruction id declaration) :
    AlikeFrom configuration configuration' instruction instruction' setup setup' rename
      (compute (makes configuration instruction setup id))
      (compute (makes configuration' instruction' setup' (rename id))) := by
  rw [same, same]
  exact leads_compute fun _ made => .declared id declaration made

/-- Nothing is said. -/
theorem leads_nothing : AlikeFrom configuration configuration' instruction instruction' setup
    setup' rename (pure setup) (pure setup') :=
  leads_pure .kept

/-- A definition is given in both setups. -/
theorem leads_define (declaration : Declaration)
    (definition : Instruction → Definition)
    (gives : ∀ configuration instruction id record,
      declaration.apply configuration instruction id record =
        record.defined id (definition instruction))
    (opens : ∀ id before, declaration.opens id before = before)
    (renames : ∀ record, declaration.renames record = 0) :
    AlikeFrom configuration configuration' instruction instruction' setup setup' rename
      (setup.withDefinition id (definition instruction))
      (setup'.withDefinition (rename id) (definition instruction')) := by
  refine leads_of_declares rename id declaration (fun _ instruction setup id =>
    (setup.table.define id (definition instruction)).map fun table => { setup with table })
    fun configuration instruction setup id => ?_
  rw [declare, Table.define]
  cases setup.table.get id with
  | error error => rfl
  | ok record =>
      simp only [bind, Except.bind, gives, opens, renames, Record.defined]
      split <;> rfl

/-- A readable definition is given in both setups. -/
theorem leads_withDefinition {definition : Definition} (readable : definition.IsReadable) :
    AlikeFrom configuration configuration' instruction instruction' setup setup' rename
      (setup.withDefinition id definition) (setup'.withDefinition (rename id) definition) :=
  leads_define (.definition definition readable) (fun _ => definition) (fun _ _ _ _ => rfl)
    (fun _ _ => rfl) fun _ => rfl

/-- A type is declared in both setups. -/
theorem leads_withType {type : DataType} :
    AlikeFrom configuration configuration' instruction instruction' setup setup' rename
      (setup.withType id type) (setup'.withType (rename id) type) := by
  unfold withType
  split
  · exact leads_throw
  · exact leads_withDefinition trivial

/-- The record of an entry point with a further declaration. -/
def entered (setup : Setup) (function : Id) (model : ExecutionModel) (text : String)
    (interface : List Id) : Except MachineError Record := do
  let record ← setup.table.get function
  let definition ← declareEntryPoint function record.definition model text interface
  return { record with definition }

/-- The table with a function that is begun. -/
def begun (setup : Setup) (instruction : Instruction) (id returnType functionType : Id)
    (control : Word) : Except MachineError Table := do
  let record ← setup.table.get id
  let definition ← declareFunction id record.definition
    ⟨returnType, functionType, control, instruction.stop, none⟩
  return setup.table.put id { record with definition }

/-! ## Names and modes -/

/-- An instruction that says nothing. -/
theorem alike_ignore (place : Nat) :
    HandlesRenamed configuration configuration' instruction instruction' setup setup' rename place
      ignore :=
  .drained leads_nothing

/-- A debug name. -/
theorem alike_name :
    HandlesAlike configuration configuration' instruction instruction' setup setup' name := by
  refine .word fun target => .string fun text => ?_
  rw [compute_bind_pure, compute_bind_pure]
  refine leads_of_declares (fun id => id) target (.name text)
    (fun _ _ setup target => (setup.table.get target).map (setup.withNamed target text))
    fun configuration instruction setup target => ?_
  rw [declare]
  cases setup.table.get target <;> rfl

/-- A capability. -/
theorem alike_capability :
    HandlesAlike configuration configuration' instruction instruction' setup setup' capability :=
  .word fun _ => leads_nothing

/-- An imported set of extended instructions. -/
theorem alike_extInstImport :
    HandlesRenamed configuration configuration' instruction instruction' setup setup' rename 0
      extInstImport :=
  .here fun _ => .string fun _ => leads_withDefinition trivial

/-- An entry point. -/
theorem alike_entryPoint (shows : setup.table.Shows setup'.table) :
    HandlesAlike configuration configuration' instruction instruction' setup setup'
      entryPoint := by
  refine .word fun modelWord => ?_
  dsimp only
  split
  · rename_i model _
    rw [pure_bind, pure_bind]
    refine .word fun function => .string fun text => .words fun interface => ?_
    -- The interface is looked up before the record of the function is.
    have parts (setup : Setup) : (compute (do
        let _ ← interface.mapM setup.table.get
        setup.entered function model text interface) >>= fun record =>
          (pure (setup.withNamed function text record) : OperandReader Setup)) =
        (compute (interface.mapM setup.table.get) >>= fun _ => compute
          ((setup.entered function model text interface).map (setup.withNamed function text))) := by
      rw [compute_bind, bind_assoc]
      simp only [compute_bind_pure]
    refine Eq.mpr (congrArg₂ (AlikeFrom configuration configuration' instruction instruction'
      setup setup' fun id => id) (parts setup) (parts setup')) ?_
    refine leads_checked shows.isOk_mapM ?_
    refine leads_of_declares (fun id => id) function (.entryPoint model text interface)
      (fun _ _ setup function =>
      (setup.entered function model text interface).map (setup.withNamed function text))
      fun configuration instruction setup function => ?_
    rw [declare, entered]
    cases setup.table.get function with
    | error error => rfl
    | ok record =>
        simp only [bind, Except.bind, Declaration.apply]
        cases declareEntryPoint function record.definition model text interface <;> rfl
  · exact leads_malformed_bind

/-- An execution mode. -/
theorem alike_executionMode :
    HandlesAlike configuration configuration' instruction instruction' setup setup'
      executionMode := by
  refine .word fun target => .word fun mode => .words fun literals => ?_
  refine leads_of_declares (fun id => id) target (.executionMode mode literals)
    (fun _ _ setup target =>
    (do
      let record ← setup.table.get target
      match record.definition with
      | .entryPoint entry =>
          return setup.table.put target { record with
            definition := .entryPoint { entry with modes := entry.modes ++ [(mode, literals)] } }
      | .unset => .error (.undefinedId target)
      | other =>
          .error (.typeMismatch target (.definition .entryPoint) (.definition other.kind))).map
        fun table => { setup with table })
    fun configuration instruction setup target => ?_
  rw [declare]
  cases setup.table.get target with
  | error error => rfl
  | ok record =>
      simp only [bind, Except.bind, Declaration.apply]
      cases record.definition <;> rfl

/-- The literals of a decoration. -/
theorem repeats_decorationLiterals (kind : Word) :
    (readDecorationLiterals instruction kind).Repeats
      (readDecorationLiterals instruction' kind) := by
  unfold readDecorationLiterals
  split
  · exact .string fun _ => .word fun _ => leads_pure rfl
  · split
    · exact .word fun _ => leads_pure rfl
    · exact leads_pure rfl

/-- A decoration. -/
theorem alike_decorate :
    HandlesAlike configuration configuration' instruction instruction' setup setup' decorate := by
  refine .word fun target => .word fun kind => ?_
  refine .bind (repeats_decorationLiterals kind) fun entry => ?_
  refine leads_of_declares (fun id => id) target (.decoration entry)
    (fun configuration _ setup target =>
    (do
      let record ← setup.table.get target
      if configuration.maxDecorations ≤ record.decorations.length then
        .error (.tooManyDecorations target configuration.maxDecorations)
      else
        return setup.table.put target (record.decorated entry)).map fun table =>
          { setup with table })
    fun configuration instruction setup target => ?_
  rw [declare]
  cases setup.table.get target with
  | error error => rfl
  | ok record =>
      simp only [bind, Except.bind, Declaration.apply]
      split <;> rfl

/-! ## Types -/

/-- A type without operands. -/
theorem alike_plainType (type : DataType) :
    HandlesRenamed configuration configuration' instruction instruction' setup setup' rename 0
      (plainType type) :=
  .here fun _ => leads_withType

/-- An integer type. -/
theorem alike_typeInt :
    HandlesRenamed configuration configuration' instruction instruction' setup setup' rename 0
      typeInt := by
  refine .here fun id => .word fun width => .word fun signedness => ?_
  split
  · exact leads_withType
  · exact leads_malformed

/-- A float type. -/
theorem alike_typeFloat :
    HandlesRenamed configuration configuration' instruction instruction' setup setup' rename 0
      typeFloat := by
  refine .here fun id => .word fun width => ?_
  split
  · exact leads_withType
  · exact leads_malformed

section

variable (shows : setup.table.Shows setup'.table)

include shows

/-- A vector type. -/
theorem alike_typeVector :
    HandlesRenamed configuration configuration' instruction instruction' setup setup' rename 0
      typeVector := by
  refine .here fun id => .word fun component => .word fun count => ?_
  split
  · exact leads_malformed
  · refine .computed ?_ fun members => leads_withType
    refine (shows.typesFollow component).bind fun type => ?_
    split
    · exact shows.typesFollow.follows_repeatedMembers component count
    · exact .refl _

/-- A matrix type. -/
theorem alike_typeMatrix :
    HandlesRenamed configuration configuration' instruction instruction' setup setup' rename 0
      typeMatrix := by
  refine .here fun id => .word fun column => .word fun count => ?_
  split
  · exact leads_malformed
  · refine .computed ?_ fun members => leads_withType
    refine (shows.typesFollow.follows_expectKind column .vector).bind fun _ => ?_
    exact shows.typesFollow.follows_repeatedMembers column count

/-- An array type. -/
theorem alike_typeArray :
    HandlesRenamed configuration configuration' instruction instruction' setup setup' rename 0
      typeArray := by
  refine .here fun id => .word fun element => .word fun lengthId => ?_
  refine .computed (follows_integerConstant shows.typesFollow (shows lengthId)) fun length => ?_
  split
  · exact leads_malformed
  · refine .computed (shows.typesFollow.follows_sizeOf element) fun size => ?_
    split
    · exact leads_throw
    · exact leads_withType

/-- A structure type. -/
theorem alike_typeStruct :
    HandlesRenamed configuration configuration' instruction instruction' setup setup' rename 0
      typeStruct := by
  refine .here fun id => .words fun types => ?_
  refine .computed (Follows.mapM fun type _ => ?_) fun members => leads_withType
  exact (shows.typesFollow.follows_sizeOf type).map _

/-- A pointer type. -/
theorem alike_typePointer :
    HandlesRenamed configuration configuration' instruction instruction' setup setup' rename 0
      typePointer := by
  refine .here fun id => .word fun storageWord => ?_
  refine .bind (Execution.repeats_storageOfWord storageWord) fun storage => .word fun pointee => ?_
  exact leads_checked (shows.isOk_get pointee) leads_withType

/-- A function signature. -/
theorem alike_typeFunction :
    HandlesRenamed configuration configuration' instruction instruction' setup setup' rename 0
      typeFunction := by
  refine .here fun id => .word fun returnType => ?_
  refine .computed (shows.typesFollow returnType) fun _ => .words fun parameters => ?_
  exact .computed (Follows.mapM fun parameter _ => shows.typesFollow parameter)
    fun _ => leads_withType

/-! ## Constants and variables -/

/-- A truth value. -/
theorem alike_constantBool (truth : Bool) :
    HandlesRenamed configuration configuration' instruction instruction' setup setup' rename 1
      (constantBool truth) := by
  refine .next fun type => .here fun id => ?_
  exact .computed (shows.typesFollow.follows_expectKind type .bool)
    fun _ => leads_withDefinition trivial

/-- A scalar constant. -/
theorem alike_constant :
    HandlesRenamed configuration configuration' instruction instruction' setup setup' rename 1
      constant := by
  refine .next fun type => .here fun id => ?_
  refine .computed (shows.typesFollow.follows_scalarConstantSize type) fun size => ?_
  exact .bind (repeats_counted _) fun words => leads_withDefinition trivial

/-- A composite constant. -/
theorem alike_constantComposite :
    HandlesRenamed configuration configuration' instruction instruction' setup setup' rename 1
      constantComposite := by
  refine .next fun type => .here fun id => .words fun constituents => ?_
  refine .computed ?_ fun bytes => leads_withDefinition trivial
  exact follows_foldComposite shows.typesFollow type fun other _ => shows other

section

variable (open_eq : setup'.openFunction = setup.openFunction)

include open_eq

/-- A variable. -/
theorem alike_variableDecl :
    HandlesRenamed configuration configuration' instruction instruction' setup setup' rename 1
      variableDecl := by
  unfold HandlesRenamed variableDecl
  rw [open_eq]
  split
  · exact .drained leads_nothing
  · simp only [Execution.readVariable, bind_assoc, pure_bind]
    refine .next fun type => .here fun id => .word fun storageWord =>
      .optional fun initializer => ?_
    refine .bind (Execution.repeats_storageOfWord storageWord) fun storage => ?_
    refine .computed ?_ fun contents => leads_withDefinition trivial
    exact follows_createVariable shows.typesFollow type storage fun id _ => shows id

/-! ## Functions -/

/-- A parameter. -/
theorem alike_functionParameter :
    HandlesRenamed configuration configuration' instruction instruction' setup setup' rename 1
      functionParameter := by
  refine .next fun type => .here fun id => ?_
  rw [open_eq]
  split
  · exact leads_malformed
  · exact .computed (shows.typesFollow.follows_sizeOf type)
      fun size => leads_withDefinition trivial

/-- The head of a function. -/
theorem alike_function :
    HandlesRenamed configuration configuration' instruction instruction' setup setup' rename 1
      function := by
  refine .next fun returnType => .here fun id => .word fun control => .word fun functionType => ?_
  rw [open_eq]
  split
  · exact leads_malformed
  · -- The two types are looked up before the record of the function is.
    have parts (instruction : Instruction) (setup : Setup) (id : Id) : (compute (do
        let _ ← setup.table.typeOf returnType
        let _ ← setup.table.expectKind functionType .function
        setup.begun instruction id returnType functionType control) >>= fun table =>
          (pure { setup with table, openFunction := some id } : OperandReader Setup)) =
        (compute (setup.table.typeOf returnType) >>= fun _ =>
          compute (setup.table.expectKind functionType .function) >>= fun _ =>
            compute ((setup.begun instruction id returnType functionType control).map fun table =>
              { setup with table, openFunction := some id })) := by
      rw [compute_bind, bind_assoc]
      simp only [compute_bind, bind_assoc, compute_bind_pure]
    refine Eq.mpr (congrArg₂ (AlikeFrom configuration configuration' instruction instruction'
      setup setup' rename) (parts instruction setup id) (parts instruction' setup' (rename id))) ?_
    refine .computed (shows.typesFollow returnType) fun _ => ?_
    refine .computed (shows.typesFollow.follows_expectKind functionType .function) fun _ => ?_
    refine leads_of_declares rename id (.function returnType functionType control)
      (fun _ instruction setup id =>
        (setup.begun instruction id returnType functionType control).map
        fun table => { setup with table, openFunction := some id })
      fun configuration instruction setup id => ?_
    -- What follows is the declaration of the function, whatever its record is.
    rw [declare, begun]
    cases setup.table.get id with
    | error error => rfl
    | ok record =>
        simp only [bind, Except.bind, Declaration.apply]
        cases declareFunction id record.definition
          ⟨returnType, functionType, control, instruction.stop, none⟩ <;> rfl

omit shows in
/-- The end of a function. -/
theorem alike_functionEnd :
    HandlesAlike configuration configuration' instruction instruction' setup setup'
      functionEnd := by
  unfold HandlesAlike functionEnd
  rw [open_eq]
  split
  · exact leads_malformed
  · rename_i id _
    rw [compute_bind_pure, compute_bind_pure]
    refine leads_of_declares (fun id => id) id .functionEnd (fun _ instruction setup id =>
      (setup.table.modify id fun record => record.ended instruction.offset).map fun table =>
        { setup with table, openFunction := none })
      fun configuration instruction setup id => ?_
    rw [declare, Table.modify]
    cases setup.table.get id <;> rfl

omit shows in
/-- A block label. -/
theorem alike_label :
    HandlesRenamed configuration configuration' instruction instruction' setup setup' rename 0
      label := by
  refine .here fun id => ?_
  rw [open_eq]
  split
  · exact leads_malformed
  · exact leads_define .label (fun instruction => .label instruction.offset) (fun _ _ _ _ => rfl)
      (fun _ _ => rfl) fun _ => rfl

/-! ## Steps -/

/-- The handler of an instruction with a result makes the same declaration in both setups, of
another ID if it finds another result. -/
theorem handlesRenamed {handler : SetupHandler} {place : Nat}
    (registered : setupTable.get? instruction.opcode = some handler)
    (placed : instruction.resultPlace? = some place) :
    HandlesRenamed configuration configuration' instruction instruction' setup setup' rename place
      handler := by
  obtain ⟨opcode, known, registered⟩ := Option.bind_eq_some_iff.mp registered
  rw [Instruction.resultPlace?, known] at placed
  -- Every handler of an instruction with a result has its own lemma.
  cases opcode with
  | string =>
      cases registered
      exact alike_ignore _
  | extInstImport =>
      cases registered
      cases placed
      exact alike_extInstImport
  | typeVoid | typeBool =>
      cases registered
      cases placed
      exact alike_plainType _
  | typeInt =>
      cases registered
      cases placed
      exact alike_typeInt
  | typeFloat =>
      cases registered
      cases placed
      exact alike_typeFloat
  | typeVector =>
      cases registered
      cases placed
      exact alike_typeVector shows
  | typeMatrix =>
      cases registered
      cases placed
      exact alike_typeMatrix shows
  | typeArray =>
      cases registered
      cases placed
      exact alike_typeArray shows
  | typeStruct =>
      cases registered
      cases placed
      exact alike_typeStruct shows
  | typePointer =>
      cases registered
      cases placed
      exact alike_typePointer shows
  | typeFunction =>
      cases registered
      cases placed
      exact alike_typeFunction shows
  | constantTrue | constantFalse =>
      cases registered
      cases placed
      exact alike_constantBool shows _
  | constant =>
      cases registered
      cases placed
      exact alike_constant shows
  | constantComposite =>
      cases registered
      cases placed
      exact alike_constantComposite shows
  | variableDecl =>
      cases registered
      cases placed
      exact alike_variableDecl shows open_eq
  | function =>
      cases registered
      cases placed
      exact alike_function shows open_eq
  | functionParameter =>
      cases registered
      cases placed
      exact alike_functionParameter shows open_eq
  | label =>
      cases registered
      cases placed
      exact alike_label open_eq
  | nop | source | sourceExtension | name | memberName | line | noLine | extension | moduleProcessed
  | memoryModel | capability | entryPoint | executionMode | decorate | memberDecorate
  | functionEnd => cases placed
  | _ => cases registered

/-- The handler of an instruction that is accepted makes the same declaration in both setups. -/
theorem handlesAlike {handler : SetupHandler}
    (registered : setupTable.get? instruction.opcode = some handler) :
    HandlesAlike configuration configuration' instruction instruction' setup setup' handler := by
  cases placed : instruction.resultPlace? with
  | some place => exact (handlesRenamed shows open_eq registered placed).leads
  | none =>
      obtain ⟨opcode, known, registered⟩ := Option.bind_eq_some_iff.mp registered
      rw [Instruction.resultPlace?, known] at placed
      -- The other handlers that are registered have no result.
      cases opcode with
      | nop | source | sourceExtension | memberName | line | noLine | extension | moduleProcessed
      | memberDecorate | memoryModel =>
          cases registered
          exact (alike_ignore 0).leads
      | name =>
          cases registered
          exact alike_name
      | capability =>
          cases registered
          exact alike_capability
      | entryPoint =>
          cases registered
          exact alike_entryPoint shows
      | executionMode =>
          cases registered
          exact alike_executionMode
      | decorate =>
          cases registered
          exact alike_decorate
      | functionEnd =>
          cases registered
          exact alike_functionEnd open_eq
      | store | returnVoid => cases registered
      | _ => cases placed

omit shows in
/-- What the handlers of an instruction make of two setups, its steps make of them. -/
theorem step_parallel_of_handled {next : Setup}
    (opcode_eq : instruction'.opcode = instruction.opcode)
    (lenient : configuration'.strict = true → configuration.strict = true)
    (handled : ∀ handler, setupTable.get? instruction.opcode = some handler → ∀ cursor,
      handler configuration setup instruction instruction.cursor = .ok (next, cursor) →
        ∃ result last, handler configuration' setup' instruction' instruction'.cursor =
          result.map (fun value => (value, last)) ∧ last.ahead = cursor.ahead ∧
            Parallel configuration configuration' instruction instruction' setup setup' rename next
              result)
    (stepped : setup.step configuration instruction = .ok next) :
    Parallel configuration configuration' instruction instruction' setup setup' rename next
      (setup'.step configuration' instruction') := by
  have ends := setup.stepEnds configuration instruction
  rw [stepped] at ends
  cases ends with
  | @handled handler _ registered ends =>
      cases ends with
      | @done _ cursor accepted at_end =>
          obtain ⟨result, last', handled', ahead_eq', parallel⟩ :=
            handled handler registered cursor accepted
          -- The other handler has read every operand too.
          have at_end' : last'.isEmpty = true := by
            rw [Cursor.isEmpty, ahead_eq']
            exact at_end
          have same : setup'.handle configuration' instruction' handler = result := by
            rw [handle, handled']
            cases result with
            | error error => rfl
            | ok other =>
                simp only [Except.map, bind, Except.bind, at_end', if_true]
                rfl
          rw [step, opcode_eq, registered]
          simp only [same]
          exact parallel
  | passed missing executes =>
      rw [passesOver, ← open_eq] at executes
      rw [step, opcode_eq, missing]
      simp only [executes, if_true]
      exact .kept
  | counted missing unknown not_strict =>
      rw [passesOver, ← open_eq] at unknown
      have not_strict' : configuration'.strict = false :=
        eq_false_of_ne_true fun strict => by cases not_strict.symm.trans (lenient strict)
      rw [step, opcode_eq, missing]
      simp only [unknown, not_strict', Bool.false_eq_true, if_false]
      exact .skipped not_strict

/-- An instruction that is accepted makes the same declaration in a setup whose table shows what the
first one shows, or is passed over in both. -/
theorem step_parallel {next : Setup} (opcode_eq : instruction'.opcode = instruction.opcode)
    (operands_eq : instruction'.operands = instruction.operands)
    (lenient : configuration'.strict = true → configuration.strict = true)
    (stepped : setup.step configuration instruction = .ok next) :
    Parallel configuration configuration' instruction instruction' setup setup' (fun id => id) next
      (setup'.step configuration' instruction') := by
  refine step_parallel_of_handled open_eq opcode_eq lenient
    (fun handler registered cursor accepted => ?_) stepped
  exact handlesAlike shows open_eq registered _ _ next cursor operands_eq.symm accepted

end

end

end

section

variable {configuration : Configuration} {instruction : Instruction} {setup next : Setup}

/-- A table shows what it shows. -/
theorem shows_refl (table : Table) : table.Shows table :=
  fun _ => .of_eq rfl

/-- An instruction that is accepted makes a declaration, or changes no more than a count, which a
strict pass leaves alone. -/
theorem step_declares (stepped : setup.step configuration instruction = .ok next) :
    next = setup ∨
      configuration.strict = false ∧ next = { setup with unsupported := setup.unsupported + 1 } ∨
      ∃ id declaration, setup.declare configuration instruction id declaration = .ok next := by
  have parallel : Parallel configuration configuration instruction instruction setup setup
      (fun id => id) next (setup.step configuration instruction) :=
    step_parallel (shows_refl setup.table) rfl rfl rfl (fun strict => strict) stepped
  generalize setup.step configuration instruction = result at parallel
  cases parallel with
  | kept => exact Or.inl rfl
  | skipped lenient => exact Or.inr (Or.inl ⟨lenient, rfl⟩)
  | declared id declaration made => exact Or.inr (Or.inr ⟨id, declaration, made⟩)

/-- An instruction that is accepted makes the same declaration of another ID if that is its result.
-/
theorem step_withResult {place : Nat} (placed : instruction.resultPlace? = some place)
    (stepped : setup.step configuration instruction = .ok next) (id : Id) :
    Parallel configuration configuration instruction (instruction.withResult id) setup setup
      (fun _ => id) next (setup.step configuration (instruction.withResult id)) := by
  have other_eq : instruction.withResult id =
      { instruction with operands := instruction.operands.modify place fun _ => id } := by
    rw [Instruction.withResult, placed]
  rw [other_eq]
  refine step_parallel_of_handled rfl rfl (fun strict => strict)
    (fun handler registered cursor accepted => ?_) stepped
  exact handlesRenamed (shows_refl setup.table) rfl registered placed _ _ next cursor rfl accepted

/-- Instructions that are accepted keep the bound. -/
theorem bound_of_foldlM {instructions : List Instruction}
    (passed : instructions.foldlM (step configuration) setup = .ok next) :
    next.table.bound = setup.table.bound := by
  refine foldlM_preserves (P := fun next => next.table.bound = setup.table.bound)
    (fun before after instruction _ stepped same => ?_) passed rfl
  rcases step_declares stepped with rfl | ⟨-, rfl⟩ | ⟨id, declaration, made⟩
  · exact same
  · exact same
  · obtain ⟨record, changed, -, -, rfl⟩ := declare_inv made
    exact same

/-- A strict pass skips nothing. -/
theorem unsupported_of_foldlM {instructions : List Instruction}
    (strict : configuration.strict = true)
    (passed : instructions.foldlM (step configuration) setup = .ok next) :
    next.unsupported = setup.unsupported := by
  refine foldlM_preserves (P := fun next => next.unsupported = setup.unsupported)
    (fun before after instruction _ stepped same => ?_) passed rfl
  rcases step_declares stepped with rfl | ⟨lenient, -⟩ | ⟨id, declaration, made⟩
  · exact same
  · cases strict.symm.trans lenient
  · obtain ⟨record, changed, -, -, rfl⟩ := declare_inv made
    exact same

end

end Setup

end ShaderMachine
