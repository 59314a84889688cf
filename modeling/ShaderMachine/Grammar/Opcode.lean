/-! # Opcodes

The instructions this machine knows, with their numbers and their spellings in assembly text.

**`Opcode`** lists them in numeric order; **`Opcode.number`** and **`Opcode.ofNumber?`**,
**`Opcode.mnemonic`** and **`Opcode.ofMnemonic?`** pass between an instruction and how it is
written; any other number is an unsupported instruction. -/

namespace ShaderMachine

/-- An instruction this machine knows. -/
inductive Opcode where
  /-- No operation. -/
  | nop
  /-- Source language and version. -/
  | source
  /-- Source extension string. -/
  | sourceExtension
  /-- Debug name of an ID. -/
  | name
  /-- Debug name of a structure member. -/
  | memberName
  /-- Debug string. -/
  | string
  /-- Source line information. -/
  | line
  /-- Extension declaration. -/
  | extension
  /-- Import of an extended instruction set. -/
  | extInstImport
  /-- Instruction of an extended set. -/
  | extInst
  /-- Addressing and memory model. -/
  | memoryModel
  /-- Entry point declaration. -/
  | entryPoint
  /-- Execution mode of an entry point. -/
  | executionMode
  /-- Capability declaration. -/
  | capability
  /-- The void type. -/
  | typeVoid
  /-- The boolean type. -/
  | typeBool
  /-- An integer type of a width and signedness. -/
  | typeInt
  /-- A float type of a width. -/
  | typeFloat
  /-- A vector of scalar components. -/
  | typeVector
  /-- A matrix of vector columns. -/
  | typeMatrix
  /-- An array of fixed length. -/
  | typeArray
  /-- A structure. -/
  | typeStruct
  /-- A pointer into a storage class. -/
  | typePointer
  /-- A function signature. -/
  | typeFunction
  /-- The true constant. -/
  | constantTrue
  /-- The false constant. -/
  | constantFalse
  /-- A scalar constant. -/
  | constant
  /-- A composite constant. -/
  | constantComposite
  /-- The head of a function definition. -/
  | function
  /-- A function parameter. -/
  | functionParameter
  /-- The end of a function body. -/
  | functionEnd
  /-- A variable declaration. -/
  | variableDecl
  /-- A load through a pointer. -/
  | load
  /-- A store through a pointer. -/
  | store
  /-- A decoration of an ID. -/
  | decorate
  /-- A decoration of a structure member. -/
  | memberDecorate
  /-- A composite built from its constituents. -/
  | compositeConstruct
  /-- A part of a composite. -/
  | compositeExtract
  /-- Float negation. -/
  | fNegate
  /-- Float addition. -/
  | fAdd
  /-- Float subtraction. -/
  | fSub
  /-- Float multiplication. -/
  | fMul
  /-- Float division. -/
  | fDiv
  /-- A float vector scaled by a float. -/
  | vectorTimesScalar
  /-- Dot product of two float vectors. -/
  | dot
  /-- A block label. -/
  | label
  /-- Return from a void function. -/
  | returnVoid
  /-- End of line information. -/
  | noLine
  /-- Record of a processing step. -/
  | moduleProcessed
  deriving DecidableEq, Repr

namespace Opcode

/-- Every known instruction, in numeric order. -/
def all : List Opcode :=
  [.nop, .source, .sourceExtension, .name, .memberName, .string, .line, .extension,
    .extInstImport, .extInst, .memoryModel, .entryPoint, .executionMode, .capability, .typeVoid,
    .typeBool, .typeInt, .typeFloat, .typeVector, .typeMatrix, .typeArray, .typeStruct,
    .typePointer, .typeFunction, .constantTrue, .constantFalse, .constant, .constantComposite,
    .function, .functionParameter, .functionEnd, .variableDecl, .load, .store, .decorate,
    .memberDecorate, .compositeConstruct, .compositeExtract, .fNegate, .fAdd, .fSub, .fMul,
    .fDiv, .vectorTimesScalar, .dot, .label, .returnVoid, .noLine, .moduleProcessed]

/-- The number in the low half of the header word. -/
def number : Opcode → UInt16
  | nop => 0
  | source => 3
  | sourceExtension => 4
  | name => 5
  | memberName => 6
  | string => 7
  | line => 8
  | extension => 10
  | extInstImport => 11
  | extInst => 12
  | memoryModel => 14
  | entryPoint => 15
  | executionMode => 16
  | capability => 17
  | typeVoid => 19
  | typeBool => 20
  | typeInt => 21
  | typeFloat => 22
  | typeVector => 23
  | typeMatrix => 24
  | typeArray => 28
  | typeStruct => 30
  | typePointer => 32
  | typeFunction => 33
  | constantTrue => 41
  | constantFalse => 42
  | constant => 43
  | constantComposite => 44
  | function => 54
  | functionParameter => 55
  | functionEnd => 56
  | variableDecl => 59
  | load => 61
  | store => 62
  | decorate => 71
  | memberDecorate => 72
  | compositeConstruct => 80
  | compositeExtract => 81
  | fNegate => 127
  | fAdd => 129
  | fSub => 131
  | fMul => 133
  | fDiv => 136
  | vectorTimesScalar => 142
  | dot => 148
  | label => 248
  | returnVoid => 253
  | noLine => 317
  | moduleProcessed => 330

/-- The name without the leading `Op`. -/
def stem : Opcode → String
  | nop => "Nop"
  | source => "Source"
  | sourceExtension => "SourceExtension"
  | name => "Name"
  | memberName => "MemberName"
  | string => "String"
  | line => "Line"
  | extension => "Extension"
  | extInstImport => "ExtInstImport"
  | extInst => "ExtInst"
  | memoryModel => "MemoryModel"
  | entryPoint => "EntryPoint"
  | executionMode => "ExecutionMode"
  | capability => "Capability"
  | typeVoid => "TypeVoid"
  | typeBool => "TypeBool"
  | typeInt => "TypeInt"
  | typeFloat => "TypeFloat"
  | typeVector => "TypeVector"
  | typeMatrix => "TypeMatrix"
  | typeArray => "TypeArray"
  | typeStruct => "TypeStruct"
  | typePointer => "TypePointer"
  | typeFunction => "TypeFunction"
  | constantTrue => "ConstantTrue"
  | constantFalse => "ConstantFalse"
  | constant => "Constant"
  | constantComposite => "ConstantComposite"
  | function => "Function"
  | functionParameter => "FunctionParameter"
  | functionEnd => "FunctionEnd"
  | variableDecl => "Variable"
  | load => "Load"
  | store => "Store"
  | decorate => "Decorate"
  | memberDecorate => "MemberDecorate"
  | compositeConstruct => "CompositeConstruct"
  | compositeExtract => "CompositeExtract"
  | fNegate => "FNegate"
  | fAdd => "FAdd"
  | fSub => "FSub"
  | fMul => "FMul"
  | fDiv => "FDiv"
  | vectorTimesScalar => "VectorTimesScalar"
  | dot => "Dot"
  | label => "Label"
  | returnVoid => "Return"
  | noLine => "NoLine"
  | moduleProcessed => "ModuleProcessed"

/-- The spelling in assembly text. -/
def mnemonic (opcode : Opcode) : String :=
  "Op" ++ opcode.stem

/-- The instruction with a given number. -/
def ofNumber? (number : UInt16) : Option Opcode :=
  all.find? fun opcode => opcode.number == number

/-- The instruction with a given spelling. -/
def ofMnemonic? (mnemonic : String) : Option Opcode :=
  all.find? fun opcode => opcode.mnemonic == mnemonic

/-- A known instruction is found by its number. -/
@[simp] theorem ofNumber?_number (opcode : Opcode) : ofNumber? opcode.number = some opcode := by
  cases opcode <;> rfl

/-- Whether an instruction carries only debug or bookkeeping information. -/
def isMetadata : Opcode → Bool
  | nop | sourceExtension | memberName | string | line | noLine | extension
  | moduleProcessed | memberDecorate => true
  | _ => false

/-- Whether an instruction declares a type. -/
def isTypeDeclaration : Opcode → Bool
  | typeVoid | typeBool | typeInt | typeFloat | typeVector | typeMatrix | typeArray
  | typeStruct | typePointer | typeFunction => true
  | _ => false

/-- Whether an instruction declares a constant. -/
def isConstant : Opcode → Bool
  | constantTrue | constantFalse | constant | constantComposite => true
  | _ => false

/-- Whether an instruction computes with floats component by component. -/
def isFloatArithmetic : Opcode → Bool
  | fNegate | fAdd | fSub | fMul | fDiv | vectorTimesScalar | dot => true
  | _ => false

end Opcode

end ShaderMachine
