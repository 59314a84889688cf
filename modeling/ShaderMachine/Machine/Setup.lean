import ShaderMachine.Binary.Module
import ShaderMachine.Machine.Execution

/-! # Setting a machine up

One pass over a module records everything it declares: names, decorations, types, constants,
module-scope variables, functions with the places of their bodies, and entry points. What belongs
to a function body is left for the calls.

**`Configuration`** holds the limits; **`Setup`** is what the pass has recorded so far;
**`setupTable`** is the table of handlers; **`Setup.step`** handles one instruction and
**`Setup.run`** the whole module. -/

namespace ShaderMachine

/-- The limits a machine works under. -/
structure Configuration where
  /-- The largest number of instructions that one call may execute. -/
  maxInstructions : Nat := 1000000
  /-- The largest number of decorations of one ID. -/
  maxDecorations : Nat := 8
  /-- Whether an unsupported instruction is an error rather than skipped. -/
  strict : Bool := false
  deriving DecidableEq, Repr

/-- What the pass over a module has recorded so far. -/
structure Setup where
  /-- The records. -/
  table : Table
  /-- The function whose body the pass is in. -/
  openFunction : Option Id := none
  /-- The number of times an ID got a name that differs from the one it had. -/
  nameAllocations : Nat := 0
  /-- The number of instructions skipped as unsupported. -/
  unsupported : Nat := 0

/-- The handler of an instruction in the pass over a module. -/
abbrev SetupHandler := Configuration → Setup → Instruction → OperandReader Setup

namespace Setup

open OperandReader

/-- The setup with another table. -/
def withTable (setup : Setup) (table : Except MachineError Table) : OperandReader Setup :=
  compute (table.map fun table => { setup with table })

/-- The setup with the definition of an ID added. -/
def withDefinition (setup : Setup) (id : Id) (definition : Definition) : OperandReader Setup :=
  setup.withTable (setup.table.define id definition)

/-- The setup with a record changed and named. -/
def withNamed (setup : Setup) (id : Id) (name : String) (record : Record) : Setup :=
  { setup with
    table := setup.table.put id (record.named name)
    nameAllocations := setup.nameAllocations + if record.isRenamedBy name then 1 else 0 }

/-- An instruction that says nothing the machine needs. -/
def ignore : SetupHandler := fun _ setup _ => do
  drain
  return setup

/-! ## Names and modes -/

/-- A debug name. -/
def name : SetupHandler := fun _ setup instruction => do
  let target ← readWord instruction
  let name ← readString
  let record ← compute (setup.table.get target)
  return setup.withNamed target name record

/-- A capability, which is accepted whatever it is. -/
def capability : SetupHandler := fun _ setup instruction => do
  let _ ← readWord instruction
  return setup

/-- An imported set of extended instructions. -/
def extInstImport : SetupHandler := fun _ setup instruction => do
  let id ← readWord instruction
  let name ← readString
  setup.withDefinition id (.extendedSet (.ofName name))

/-- What a function's definition becomes when an entry point is declared for it. -/
def declareEntryPoint (id : Id) (definition : Definition) (model : ExecutionModel) (name : String)
    (interface : List Id) : Except MachineError Definition :=
  match definition with
  | .entryPoint entry => .ok (.entryPoint (entry.augment model name interface))
  | .unset => .ok (.entryPoint (.ofDeclaration model name interface))
  | .function body =>
      .ok (.entryPoint { EntryPointRecord.ofDeclaration model name interface with
        function := some body })
  | other => .error (.idRedefined id other.kind .entryPoint)

/-- An entry point. -/
def entryPoint : SetupHandler := fun _ setup instruction => do
  let modelWord ← readWord instruction
  let model ← match ExecutionModel.ofValue? modelWord with
    | some model => pure model
    | none => malformed instruction (.unknownExecutionModel modelWord)
  let function ← readWord instruction
  let name ← readString
  let interface ← readRest
  let record ← compute do
    let _ ← interface.mapM setup.table.get
    let record ← setup.table.get function
    let definition ← declareEntryPoint function record.definition model name interface
    return { record with definition }
  return setup.withNamed function name record

/-- An execution mode of an entry point. -/
def executionMode : SetupHandler := fun _ setup instruction => do
  let target ← readWord instruction
  let mode ← readWord instruction
  let literals ← readRest
  setup.withTable do
    let record ← setup.table.get target
    match record.definition with
    | .entryPoint entry =>
        return setup.table.put target { record with
          definition := .entryPoint { entry with modes := entry.modes ++ [(mode, literals)] } }
    | .unset => .error (.undefinedId target)
    | other => .error (.typeMismatch target (.definition .entryPoint) (.definition other.kind))

/-- The first word of a packed string, without its terminator. -/
def firstWord (text : String) : Word :=
  match (text.toUTF8.toList.take 4 ++ [0, 0, 0, 0]) with
  | b₀ :: b₁ :: b₂ :: b₃ :: _ => Word.ofBytes b₀ b₁ b₂ b₃
  | _ => 0

/-- Read the literals of a decoration; of a linkage name only the first word is kept. -/
def readDecorationLiterals (instruction : Instruction) (kind : Word) :
    OperandReader DecorationEntry := do
  if kind = linkageDecoration then
    let name ← readString
    let linkage ← readWord instruction
    return ⟨kind, firstWord name, linkage⟩
  else if decorationLiterals kind = 1 then
    let literal ← readWord instruction
    return ⟨kind, literal, 0⟩
  else
    return ⟨kind, 0, 0⟩

/-- A decoration of an ID. -/
def decorate : SetupHandler := fun configuration setup instruction => do
  let target ← readWord instruction
  let kind ← readWord instruction
  let entry ← readDecorationLiterals instruction kind
  setup.withTable do
    let record ← setup.table.get target
    if configuration.maxDecorations ≤ record.decorations.length then
      .error (.tooManyDecorations target configuration.maxDecorations)
    else
      return setup.table.put target (record.decorated entry)

/-! ## Types -/

/-- The setup with a type added, which must not be too large. -/
def withType (setup : Setup) (id : Id) (type : DataType) : OperandReader Setup :=
  if maxTypeSize < type.size then throw (.typeTooLarge id type.size)
  else setup.withDefinition id (.type type)

/-- A type without operands. -/
def plainType (type : DataType) : SetupHandler := fun _ setup instruction => do
  let id ← readWord instruction
  setup.withType id type

/-- An integer type. -/
def typeInt : SetupHandler := fun _ setup instruction => do
  let id ← readWord instruction
  let width ← readWord instruction
  let signedness ← readWord instruction
  if width = 8 ∨ width = 16 ∨ width = 32 ∨ width = 64 then
    setup.withType id (.int width (signedness != 0))
  else
    malformed instruction (.integerWidth width)

/-- A float type. -/
def typeFloat : SetupHandler := fun _ setup instruction => do
  let id ← readWord instruction
  let width ← readWord instruction
  if width = 16 ∨ width = 32 ∨ width = 64 then
    setup.withType id (.float width)
  else
    malformed instruction (.floatWidth width)

/-- A number of equal members. -/
def repeatedMembers (table : Table) (type : Id) (count : Word) :
    Except MachineError (List Member) :=
  (table.sizeOf type).map fun size => List.replicate count.toNat ⟨type, size⟩

/-- A vector type. -/
def typeVector : SetupHandler := fun _ setup instruction => do
  let id ← readWord instruction
  let component ← readWord instruction
  let count ← readWord instruction
  if count < 2 ∨ 16 < count then
    malformed instruction (.vectorSize count)
  else
    let members ← compute do
      let type ← setup.table.typeOf component
      if type.isScalar then
        repeatedMembers setup.table component count
      else
        .error (.typeMismatch component .scalarComponent (.data type.kind))
    setup.withType id (.vector members)

/-- A matrix type. -/
def typeMatrix : SetupHandler := fun _ setup instruction => do
  let id ← readWord instruction
  let column ← readWord instruction
  let count ← readWord instruction
  if count < 2 ∨ 4 < count then
    malformed instruction (.matrixSize count)
  else
    let members ← compute do
      let _ ← setup.table.expectKind column .vector
      repeatedMembers setup.table column count
    setup.withType id (.matrix members)

/-- An array type. The length is kept modulo `2 ^ 32`. -/
def typeArray : SetupHandler := fun _ setup instruction => do
  let id ← readWord instruction
  let element ← readWord instruction
  let lengthId ← readWord instruction
  let length ← compute (setup.table.integerConstant lengthId)
  if length = 0 then
    malformed instruction .emptyArray
  else
    let size ← compute (setup.table.sizeOf element)
    if maxTypeSize < length * size then
      throw (.typeTooLarge id (min (length * size) 18446744073709551615))
    else
      setup.withType id (.array ⟨element, size⟩ (UInt32.ofNat length))

/-- A structure type. -/
def typeStruct : SetupHandler := fun _ setup instruction => do
  let id ← readWord instruction
  let types ← readRest
  let members ← compute (types.mapM fun type =>
    (setup.table.sizeOf type).map fun size => ⟨type, size⟩)
  setup.withType id (.struct members)

/-- A pointer type. What it points to may still be undeclared. -/
def typePointer : SetupHandler := fun _ setup instruction => do
  let id ← readWord instruction
  let storageWord ← readWord instruction
  let storage ← Execution.storageOfWord instruction storageWord
  let pointee ← readWord instruction
  let _ ← compute (setup.table.get pointee)
  setup.withType id (.pointer storage pointee)

/-- A function signature. -/
def typeFunction : SetupHandler := fun _ setup instruction => do
  let id ← readWord instruction
  let returnType ← readWord instruction
  let _ ← compute (setup.table.typeOf returnType)
  let parameters ← readRest
  let _ ← compute (parameters.mapM setup.table.typeOf)
  setup.withType id (.function returnType parameters)

/-! ## Constants and variables -/

/-- A truth value. -/
def constantBool (truth : Bool) : SetupHandler := fun _ setup instruction => do
  let type ← readWord instruction
  let id ← readWord instruction
  let _ ← compute (setup.table.expectKind type .bool)
  setup.withDefinition id (.constant ⟨type, Word.bytes (if truth then 1 else 0)⟩)

/-- The size of the constants of a scalar type. -/
def scalarConstantSize (table : Table) (type : Id) : Except MachineError Nat := do
  match ← table.typeOf type with
  | .int width _ | .float width => return scalarSize width
  | other => .error (.typeMismatch type .integerOrFloat (.data other.kind))

/-- A scalar constant: as many words as its type needs, the low-order one first. -/
def constant : SetupHandler := fun _ setup instruction => do
  let type ← readWord instruction
  let id ← readWord instruction
  let size ← compute (scalarConstantSize setup.table type)
  let words ← readWords instruction ((size + 3) / 4)
  setup.withDefinition id (.constant ⟨type, (bytesOfWords words).take size⟩)

/-- A composite constant. -/
def constantComposite : SetupHandler := fun _ setup instruction => do
  let type ← readWord instruction
  let id ← readWord instruction
  let constituents ← readRest
  let bytes ← compute (foldComposite setup.table id type constituents)
  setup.withDefinition id (.constant ⟨type, bytes⟩)

/-- A variable; those of functions are made when the function runs. -/
def variableDecl : SetupHandler := fun _ setup instruction => do
  if setup.openFunction.isSome then
    drain
    return setup
  else
    let (id, contents) ← Execution.readVariable setup.table instruction
    setup.withDefinition id (.var contents)

/-! ## Functions -/

/-- What an ID's definition becomes when its function is seen. -/
def declareFunction (id : Id) (definition : Definition) (body : FunctionRecord) :
    Except MachineError Definition :=
  match definition with
  | .unset => .ok (.function body)
  | .entryPoint ⟨models, names, modes, interface, none⟩ =>
      .ok (.entryPoint ⟨models, names, modes, interface, some body⟩)
  | other => .error (.idRedefined id other.kind .function)

/-- The head of a function. -/
def function : SetupHandler := fun _ setup instruction => do
  let returnType ← readWord instruction
  let id ← readWord instruction
  let control ← readWord instruction
  let functionType ← readWord instruction
  match setup.openFunction with
  | some outer => malformed instruction (.nestedFunction id outer)
  | none =>
      let table ← compute do
        let _ ← setup.table.typeOf returnType
        let _ ← setup.table.expectKind functionType .function
        let record ← setup.table.get id
        let definition ← declareFunction id record.definition
          ⟨returnType, functionType, control, instruction.stop, none⟩
        return setup.table.put id { record with definition }
      return { setup with table, openFunction := some id }

/-- A parameter, which holds zeros. -/
def functionParameter : SetupHandler := fun _ setup instruction => do
  let type ← readWord instruction
  let id ← readWord instruction
  if setup.openFunction.isNone then
    malformed instruction .strayParameter
  else
    let size ← compute (setup.table.sizeOf type)
    setup.withDefinition id (.constant ⟨type, List.replicate size 0⟩)

/-- The end of a function. -/
def functionEnd : SetupHandler := fun _ setup instruction => do
  match setup.openFunction with
  | none => malformed instruction .strayFunctionEnd
  | some id =>
      let table ← compute (setup.table.modify id fun record => record.ended instruction.offset)
      return { setup with table, openFunction := none }

/-- A block label. -/
def label : SetupHandler := fun _ setup instruction => do
  let id ← readWord instruction
  if setup.openFunction.isNone then
    malformed instruction .strayLabel
  else
    setup.withDefinition id (.label instruction.offset)

end Setup

/-- The handlers of all declarations. -/
def setupTable : Dispatch SetupHandler where
  name := "setup"
  handler? opcode := match opcode with
    | .nop | .source | .sourceExtension | .memberName | .string | .line | .noLine | .extension
    | .moduleProcessed | .memberDecorate | .memoryModel => some Setup.ignore
    | .name => some Setup.name
    | .capability => some Setup.capability
    | .extInstImport => some Setup.extInstImport
    | .entryPoint => some Setup.entryPoint
    | .executionMode => some Setup.executionMode
    | .decorate => some Setup.decorate
    | .typeVoid => some (Setup.plainType .void)
    | .typeBool => some (Setup.plainType .bool)
    | .typeInt => some Setup.typeInt
    | .typeFloat => some Setup.typeFloat
    | .typeVector => some Setup.typeVector
    | .typeMatrix => some Setup.typeMatrix
    | .typeArray => some Setup.typeArray
    | .typeStruct => some Setup.typeStruct
    | .typePointer => some Setup.typePointer
    | .typeFunction => some Setup.typeFunction
    | .constantTrue => some (Setup.constantBool true)
    | .constantFalse => some (Setup.constantBool false)
    | .constant => some Setup.constant
    | .constantComposite => some Setup.constantComposite
    | .variableDecl => some Setup.variableDecl
    | .function => some Setup.function
    | .functionParameter => some Setup.functionParameter
    | .functionEnd => some Setup.functionEnd
    | .label => some Setup.label
    | _ => none

namespace Setup

/-- The setup before the first instruction of a module. -/
def ofModule (loaded : Module) : Setup :=
  { table := .ofBound loaded.bound }

/-- Run a handler, which must read every operand. -/
def handle (configuration : Configuration) (setup : Setup) (instruction : Instruction)
    (handler : SetupHandler) : Except MachineError Setup := do
  let (next, cursor) ← handler configuration setup instruction instruction.cursor
  if cursor.isEmpty then return next
  else .error (.binary (instruction.malformed (.unreadOperands cursor.remaining)))

/-- Handle one instruction. Executed instructions are passed over in a function body, and
unsupported ones are counted, or end a strict pass. -/
def step (configuration : Configuration) (setup : Setup) (instruction : Instruction) :
    Except MachineError Setup :=
  match setupTable.get? instruction.opcode with
  | some handler => setup.handle configuration instruction handler
  | none =>
      if setup.openFunction.isSome && executionTable.contains instruction.opcode then
        .ok setup
      else if configuration.strict then
        .error (.unsupportedOpcode instruction.opcode instruction.offset)
      else
        .ok { setup with unsupported := setup.unsupported + 1 }

/-- Handle every instruction of a module; every function must end. -/
def run (configuration : Configuration) (loaded : Module) : Except MachineError Setup := do
  let setup ← loaded.instructions.foldlM (step configuration) (ofModule loaded)
  match setup.openFunction with
  | some id => .error (.unterminatedFunction id)
  | none => return setup

end Setup

end ShaderMachine
