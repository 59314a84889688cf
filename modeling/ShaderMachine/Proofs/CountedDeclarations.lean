import ShaderMachine.Machine.Setup
import ShaderMachine.Proofs.CountedReads

/-! # Declarations that take all their words

The handlers of declarations read the operands that layouts admit, too. A constant takes as many
words for its value as its type needs, whatever its layout says, and a decoration as many literals
as its kind has.

* **`Setup.handler_covers`** — declarations take what their layouts admit.
* **`Setup.reads_decorate`** — a decoration that miscounts its operands blames itself.
* **`Setup.reads_constant`** — a constant takes as many words as its type needs. -/

namespace ShaderMachine

/-! ## Computations of declarations -/

namespace Setup

section

variable {table : Table} {instruction : Instruction}

/-- An ID is given a definition, or it has one. -/
theorem sound_define (id : Id) (definition : Definition) :
    Sound table instruction (table.define id definition) := by
  refine .bind (sound_get id) fun record _ => ?_
  split
  · exact .pure
  · exact .error trivial

/-- A type of a kind is found, or its ID stands for something else. -/
theorem sound_expectKind (id : Id) (kind : DataKind) :
    Sound table instruction (table.expectKind id kind) := by
  refine .bind (sound_typeOf id) fun type _ => ?_
  split
  · exact .pure
  · exact .mismatch (by simp)

/-- The value of an integer constant is found, or its ID stands for something else. -/
theorem sound_integerConstant (id : Id) : Sound table instruction (table.integerConstant id) := by
  refine .bind (sound_value id) fun value _ => .bind (sound_typeOf value.type) fun type _ => ?_
  split
  · exact .pure
  · exact .mismatch (by simp)

/-- The size of the constants of a type is found, or its ID stands for something else. -/
theorem sound_scalarConstantSize (type : Id) :
    Sound table instruction (scalarConstantSize table type) := by
  refine .bind (sound_typeOf type) fun data _ => ?_
  split
  · exact .pure
  · exact .pure
  · exact .mismatch (by simp)

/-- A definition becomes that of an entry point, or it is that of something else. -/
theorem sound_declareEntryPoint (id : Id) (definition : Definition) (model : ExecutionModel)
    (text : String) (interface : List Id) :
    Sound table instruction (declareEntryPoint id definition model text interface) := by
  unfold declareEntryPoint
  split
  · exact .ok
  · exact .ok
  · exact .ok
  · exact .error trivial

/-- A definition becomes that of a function, or it is that of something else. -/
theorem sound_declareFunction (id : Id) (definition : Definition) (body : FunctionRecord) :
    Sound table instruction (declareFunction id definition body) := by
  unfold declareFunction
  split
  · exact .ok
  · exact .ok
  · exact .error trivial

end

/-! ## Declarations -/

open OperandReader OperandKind OperandLayout

variable {configuration : Configuration} {setup : Setup} {instruction : Instruction}
  {kinds : List OperandKind}

/-- A setup with another table. -/
theorem covers_withTable {computed : Except MachineError Table} (fair : Fair computed) :
    (setup.withTable computed).Covers instruction [] := by
  refine covers_compute fun error failed => ?_
  cases computed with
  | error fault =>
      cases failed
      exact fair _ rfl
  | ok table => cases failed

/-- A setup with a further definition. -/
theorem covers_withDefinition (id : Id) (definition : Definition) :
    (setup.withDefinition id definition).Covers instruction [] :=
  covers_withTable (Sound.fair setup.table fun _ => sound_define id definition)

/-- A setup with a further type. -/
theorem covers_withType (id : Id) (type : DataType) :
    (setup.withType id type).Covers instruction [] := by
  unfold withType
  split
  · exact reads_throw not_false
  · exact covers_withDefinition _ _

/-- An instruction that says nothing. -/
theorem covers_ignore : (ignore configuration setup instruction).Covers instruction kinds :=
  .drained covers_pure

/-- A debug name. -/
theorem covers_name : (name configuration setup instruction).Covers instruction [.id, .string] :=
  .word nofun fun target => .string fun _ =>
    .computed (Sound.fair setup.table fun _ => sound_get target) fun _ => covers_pure

/-- A capability. -/
theorem covers_capability :
    (capability configuration setup instruction).Covers instruction [.enumerant .capability] :=
  .word nofun fun _ => covers_pure

/-- An imported set of extended instructions. -/
theorem covers_extInstImport :
    (extInstImport configuration setup instruction).Covers instruction [.result, .string] :=
  .word nofun fun _ => .string fun _ => covers_withDefinition _ _

/-- An entry point. -/
theorem covers_entryPoint :
    (entryPoint configuration setup instruction).Covers instruction
      ([.enumerant .executionModel, .id, .string] ++ kinds) := by
  refine .word nofun fun modelWord => ?_
  cases ExecutionModel.ofValue? modelWord with
  | none => exact reads_malformed_bind not_false
  | some model =>
      simp only [pure_bind]
      refine .word nofun fun function => .string fun text => .words fun interface => ?_
      refine .computed (Sound.fair setup.table fun _ => ?_) fun record => covers_pure
      refine .bind (.mapM sound_get interface) fun _ _ =>
        .bind (sound_get function) fun record _ => ?_
      exact .bind (sound_declareEntryPoint _ _ _ _ _) fun _ _ => .pure

/-- An execution mode. -/
theorem covers_executionMode :
    (executionMode configuration setup instruction).Covers instruction
      ([.id, .enumerant .executionMode] ++ kinds) := by
  refine .word nofun fun target => .word nofun fun mode => .words fun literals => ?_
  refine covers_withTable
    (Sound.fair setup.table fun _ => .bind (sound_get target) fun record _ => ?_)
  split
  · exact .pure
  · exact .error trivial
  · exact .mismatch (by simp)

/-- A type without operands. -/
theorem covers_plainType (type : DataType) :
    (plainType type configuration setup instruction).Covers instruction [.result] :=
  .word nofun fun _ => covers_withType _ _

/-- An integer type. -/
theorem covers_typeInt :
    (typeInt configuration setup instruction).Covers instruction [.result, .integer, .integer] := by
  refine .word nofun fun id => .word nofun fun width => .word nofun fun signedness => ?_
  split
  · exact covers_withType _ _
  · exact reads_malformed not_false

/-- A float type. -/
theorem covers_typeFloat :
    (typeFloat configuration setup instruction).Covers instruction [.result, .integer] := by
  refine .word nofun fun id => .word nofun fun width => ?_
  split
  · exact covers_withType _ _
  · exact reads_malformed not_false

/-- A vector type. -/
theorem covers_typeVector :
    (typeVector configuration setup instruction).Covers instruction [.result, .id, .integer] := by
  refine .word nofun fun id => .word nofun fun component => .word nofun fun count => ?_
  split
  · exact reads_malformed not_false
  · refine .computed (Sound.fair setup.table fun _ => ?_) fun members => covers_withType _ _
    refine .bind (sound_typeOf component) fun type _ => ?_
    split
    · exact (sound_sizeOf component).map
    · exact .mismatch (by simp)

/-- A matrix type. -/
theorem covers_typeMatrix :
    (typeMatrix configuration setup instruction).Covers instruction [.result, .id, .integer] := by
  refine .word nofun fun id => .word nofun fun column => .word nofun fun count => ?_
  split
  · exact reads_malformed not_false
  · refine .computed (Sound.fair setup.table fun _ => ?_) fun members => covers_withType _ _
    exact .bind (sound_expectKind column .vector) fun _ _ => (sound_sizeOf column).map

/-- An array type. -/
theorem covers_typeArray :
    (typeArray configuration setup instruction).Covers instruction [.result, .id, .id] := by
  refine .word nofun fun id => .word nofun fun element => .word nofun fun lengthId => ?_
  refine .computed (Sound.fair setup.table fun _ => sound_integerConstant lengthId) fun length => ?_
  split
  · exact reads_malformed not_false
  · refine .computed (Sound.fair setup.table fun _ => sound_sizeOf element) fun size => ?_
    split
    · exact reads_throw not_false
    · exact covers_withType _ _

/-- A structure type. -/
theorem covers_typeStruct :
    (typeStruct configuration setup instruction).Covers instruction ([.result] ++ kinds) := by
  refine .word nofun fun id => .words fun types => ?_
  refine .computed (Sound.fair setup.table fun _ => ?_) fun members => covers_withType _ _
  exact .mapM (fun type => (sound_sizeOf type).map) types

/-- A pointer type. -/
theorem covers_typePointer :
    (typePointer configuration setup instruction).Covers instruction
      [.result, .enumerant .storageClass, .id] := by
  refine .word nofun fun id => .word nofun fun storageWord => ?_
  refine Execution.covers_storageOfWord fun storage => .word nofun fun pointee => ?_
  exact .computed (Sound.fair setup.table fun _ => sound_get pointee) fun _ => covers_withType _ _

/-- A function signature. -/
theorem covers_typeFunction :
    (typeFunction configuration setup instruction).Covers instruction
      ([.result, .id] ++ kinds) := by
  refine .word nofun fun id => .word nofun fun returnType => ?_
  refine .computed (Sound.fair setup.table fun _ => sound_typeOf returnType) fun _ => ?_
  refine .words fun parameters => ?_
  exact .computed (Sound.fair setup.table fun _ => .mapM sound_typeOf parameters) fun _ =>
    covers_withType _ _

/-- A truth value. -/
theorem covers_constantBool (truth : Bool) :
    (constantBool truth configuration setup instruction).Covers instruction
      [.resultType, .result] := by
  refine .word nofun fun type => .word nofun fun id => ?_
  exact .computed (Sound.fair setup.table fun _ => sound_expectKind type .bool) fun _ =>
    covers_withDefinition _ _

/-- A composite constant. -/
theorem covers_constantComposite :
    (constantComposite configuration setup instruction).Covers instruction
      ([.resultType, .result] ++ kinds) := by
  refine .word nofun fun type => .word nofun fun id => .words fun constituents => ?_
  exact .computed
    (Sound.fair setup.table fun _ => sound_foldComposite id type constituents) fun _ =>
    covers_withDefinition _ _

/-- A variable. -/
theorem covers_variableDecl (front : kinds <+: [.id]) :
    (variableDecl configuration setup instruction).Covers instruction
      ([.resultType, .result, .enumerant .storageClass] ++ kinds) := by
  unfold variableDecl
  split
  · exact .drained covers_pure
  · exact Execution.covers_readVariable front fun _ => covers_withDefinition _ _

/-- The head of a function. -/
theorem covers_function :
    (function configuration setup instruction).Covers instruction
      [.resultType, .result, .enumerant .functionControl, .id] := by
  refine .word nofun fun returnType => .word nofun fun id => .word nofun fun control => ?_
  refine .word nofun fun functionType => ?_
  cases setup.openFunction with
  | some outer => exact reads_malformed not_false
  | none =>
      refine .computed (Sound.fair setup.table fun _ => ?_) fun table => covers_pure
      refine .bind (sound_typeOf returnType) fun _ _ => ?_
      refine .bind (sound_expectKind functionType .function) fun _ _ => ?_
      refine .bind (sound_get id) fun record _ => ?_
      exact .bind (sound_declareFunction _ _ _) fun _ _ => .pure

/-- A parameter. -/
theorem covers_functionParameter :
    (functionParameter configuration setup instruction).Covers instruction
      [.resultType, .result] := by
  refine .word nofun fun type => .word nofun fun id => ?_
  split
  · exact reads_malformed not_false
  · exact .computed (Sound.fair setup.table fun _ => sound_sizeOf type) fun size =>
      covers_withDefinition _ _

/-- The end of a function. -/
theorem covers_functionEnd :
    (functionEnd configuration setup instruction).Covers instruction [] := by
  unfold functionEnd
  split
  · exact reads_malformed not_false
  · exact .computed (Sound.fair setup.table fun _ => (sound_get _).map) fun table => covers_pure

/-- A block label. -/
theorem covers_label : (label configuration setup instruction).Covers instruction [.result] := by
  refine .word nofun fun id => ?_
  split
  · exact reads_malformed not_false
  · exact covers_withDefinition _ _

/-- Instructions that declare something, but no decorations and no constants, take the operands that
their layouts admit. -/
theorem handler_covers {opcode : Opcode} {handler : SetupHandler}
    (known : Opcode.ofNumber? instruction.opcode = some opcode)
    (registered : setupTable.get? instruction.opcode = some handler)
    (no_decoration : opcode ≠ .decorate) (no_constant : opcode ≠ .constant)
    (admits : opcode.layout.Admits kinds) :
    (handler configuration setup instruction).Covers instruction kinds := by
  rw [Dispatch.get?_of_known _ known] at registered
  -- There is one case for each handler; what has none is not registered.
  cases opcode with
  | nop | source | sourceExtension | memberName | string | line | noLine | extension
  | moduleProcessed | memberDecorate | memoryModel =>
      cases registered
      exact covers_ignore
  | name =>
      cases registered
      obtain rfl := eq_of_admits rfl rfl admits
      exact covers_name
  | capability =>
      cases registered
      obtain rfl := eq_of_admits rfl rfl admits
      exact covers_capability
  | extInstImport =>
      cases registered
      obtain rfl := eq_of_admits rfl rfl admits
      exact covers_extInstImport
  | entryPoint =>
      cases registered
      obtain ⟨others, rfl, -⟩ := mem_of_admits admits
      exact covers_entryPoint
  | executionMode =>
      cases registered
      obtain ⟨others, rfl, -⟩ := mem_of_admits admits
      exact covers_executionMode
  | typeVoid | typeBool =>
      cases registered
      obtain rfl := eq_of_admits rfl rfl admits
      exact covers_plainType _
  | typeInt =>
      cases registered
      obtain rfl := eq_of_admits rfl rfl admits
      exact covers_typeInt
  | typeFloat =>
      cases registered
      obtain rfl := eq_of_admits rfl rfl admits
      exact covers_typeFloat
  | typeVector =>
      cases registered
      obtain rfl := eq_of_admits rfl rfl admits
      exact covers_typeVector
  | typeMatrix =>
      cases registered
      obtain rfl := eq_of_admits rfl rfl admits
      exact covers_typeMatrix
  | typeArray =>
      cases registered
      obtain rfl := eq_of_admits rfl rfl admits
      exact covers_typeArray
  | typeStruct =>
      cases registered
      obtain ⟨others, rfl, -⟩ := mem_of_admits admits
      exact covers_typeStruct
  | typePointer =>
      cases registered
      obtain rfl := eq_of_admits rfl rfl admits
      exact covers_typePointer
  | typeFunction =>
      cases registered
      obtain ⟨others, rfl, -⟩ := mem_of_admits admits
      exact covers_typeFunction
  | constantTrue | constantFalse =>
      cases registered
      obtain rfl := eq_of_admits rfl rfl admits
      exact covers_constantBool _
  | constantComposite =>
      cases registered
      obtain ⟨others, rfl, -⟩ := mem_of_admits admits
      exact covers_constantComposite
  | variableDecl =>
      cases registered
      obtain ⟨others, front, rfl⟩ := prefix_of_admits rfl admits
      exact covers_variableDecl front
  | function =>
      cases registered
      obtain rfl := eq_of_admits rfl rfl admits
      exact covers_function
  | functionParameter =>
      cases registered
      obtain rfl := eq_of_admits rfl rfl admits
      exact covers_functionParameter
  | functionEnd =>
      cases registered
      obtain rfl := eq_of_admits rfl rfl admits
      exact covers_functionEnd
  | label =>
      cases registered
      obtain rfl := eq_of_admits rfl rfl admits
      exact covers_label
  | decorate => exact absurd rfl no_decoration
  | constant => exact absurd rfl no_constant
  | _ => cases registered

/-! ## Decorations and constants -/

/-- A decoration that miscounts its operands blames itself. -/
theorem reads_decorate :
    (decorate configuration setup instruction).Reads instruction (fun _ => False)
      fun _ words => words = [] := by
  have literals (kind : Word) :
      (readDecorationLiterals instruction kind).Reads instruction (fun _ => False)
        fun _ _ => False := by
    unfold readDecorationLiterals
    have string : readString.Reads instruction (fun _ => False) fun _ _ => False :=
      reads_string fun _ => False.elim
    split
    · refine string.bind fun text => ?_
      exact (reads_word not_false).bind fun linkage => reads_pure fun _ => False.elim
    · split
      · exact (reads_word not_false).bind fun literal => reads_pure fun _ => False.elim
      · exact reads_pure fun _ => False.elim
  refine (reads_word not_false).bind fun target => (reads_word not_false).bind fun kind => ?_
  refine (literals kind).bind fun entry => ?_
  refine (covers_withTable fun error failed => ?_).of_imp fun _ => False.elim
  cases found : setup.table.get target with
  | error fault =>
      rw [found] at failed
      cases failed
      exact Sound.fair setup.table (fun _ => sound_get target) _ found
  | ok record =>
      simp only [found, bind, Except.bind] at failed
      split at failed
      · cases failed
        exact not_false
      · cases failed

/-- Whether words are the operands of a constant, as many as its type needs. -/
def IsConstant (table : Table) (words : List Word) : Prop :=
  ∃ type id value, words = type :: id :: value ∧
    ∀ size, scalarConstantSize table type = .ok size → value.length = (size + 3) / 4

/-- A constant takes as many words as its type needs. -/
theorem reads_constant :
    (constant configuration setup instruction).Reads instruction (IsConstant setup.table)
      fun _ words => words = [] := by
  refine (reads_word ?_).bind fun type => (reads_word ?_).bind fun id => ?_
  · rintro ⟨_, _, _, ⟨⟩, _⟩
  · rintro ⟨_, _, _, ⟨⟩, _⟩
  refine (reads_compute (Sound.fair setup.table fun _ => sound_scalarConstantSize type)).bind
    fun size => ?_
  refine (reads_words ?_).bind fun words => (covers_withDefinition _ _).of_imp ?_
  · rintro value ⟨is_size, _, _, _, ⟨⟩, enough⟩
    exact enough size is_size
  · exact fun _ none_left => ⟨[], .nil, none_left⟩

end Setup

end ShaderMachine
