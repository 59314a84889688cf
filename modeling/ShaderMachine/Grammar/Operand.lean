import ShaderMachine.Grammar.Opcode
import ShaderMachine.Grammar.Enumerant

/-! # Operand layouts

What the operand words of each instruction mean. An instruction's operands are its `fixed` kinds
in order, then each `optional` kind while operands remain, then the `variadic` kind until the
instruction ends.

**`OperandKind`** is the meaning of one operand; **`OperandLayout`** is the meaning of all
operands of an instruction; **`Opcode.layout`** is the table. -/

namespace ShaderMachine

/-- The meaning of one operand. -/
inductive OperandKind where
  /-- The type of the instruction's result. -/
  | resultType
  /-- The ID that the instruction defines. -/
  | result
  /-- A reference to another ID. -/
  | id
  /-- An unsigned literal of one word. -/
  | integer
  /-- A packed string. -/
  | string
  /-- A literal whose width and meaning follow the result type. -/
  | constant
  /-- The number of an instruction of an extended set. -/
  | extended
  /-- A word that stands for a name. -/
  | enumerant (family : EnumFamily)
  deriving DecidableEq, Repr

namespace OperandKind

/-- The name of a kind. -/
def name : OperandKind → String
  | resultType => "IdResultType"
  | result => "IdResult"
  | id => "IdRef"
  | integer => "LiteralInteger"
  | string => "LiteralString"
  | constant => "LiteralContextDependent"
  | extended => "LiteralExtInst"
  | enumerant family => "Enum(" ++ family.name ++ ")"

/-- What someone who writes assembly text calls an operand of this kind. -/
def describe : OperandKind → String
  | resultType => "result type ID"
  | result => "result ID"
  | id => "ID"
  | integer => "integer literal"
  | string => "string literal"
  | constant => "constant literal"
  | extended => "extended instruction"
  | enumerant family => family.name ++ " enumerant"

end OperandKind

/-- The meaning of all operands of an instruction. -/
structure OperandLayout where
  /-- The operands that are always there. -/
  fixed : List OperandKind
  /-- The operands that may follow, each only if those before it are there. -/
  optional : List OperandKind := []
  /-- The kind of any number of further operands. -/
  variadic : Option OperandKind := none
  deriving DecidableEq, Repr

namespace OperandLayout

/-- Whether the instruction defines an ID. -/
def hasResult (layout : OperandLayout) : Bool :=
  layout.fixed.contains .result

/-- Whether the instruction's result has a type. -/
def hasResultType (layout : OperandLayout) : Bool :=
  layout.fixed.contains .resultType

end OperandLayout

namespace Opcode

/-- The operands of an instruction. -/
def layout : Opcode → OperandLayout
  | nop | functionEnd | returnVoid | noLine => ⟨[], [], none⟩
  | source => ⟨[.enumerant .sourceLanguage, .integer], [.id, .string], none⟩
  | sourceExtension | extension | moduleProcessed => ⟨[.string], [], none⟩
  | name => ⟨[.id, .string], [], none⟩
  | memberName => ⟨[.id, .integer, .string], [], none⟩
  | string | extInstImport => ⟨[.result, .string], [], none⟩
  | line => ⟨[.id, .integer, .integer], [], none⟩
  | extInst => ⟨[.resultType, .result, .id, .extended], [], some .id⟩
  | memoryModel => ⟨[.enumerant .addressingModel, .enumerant .memoryModel], [], none⟩
  | entryPoint => ⟨[.enumerant .executionModel, .id, .string], [], some .id⟩
  | executionMode => ⟨[.id, .enumerant .executionMode], [], some .integer⟩
  | capability => ⟨[.enumerant .capability], [], none⟩
  | typeVoid | typeBool | label => ⟨[.result], [], none⟩
  | typeInt => ⟨[.result, .integer, .integer], [], none⟩
  | typeFloat => ⟨[.result, .integer], [], none⟩
  | typeVector | typeMatrix => ⟨[.result, .id, .integer], [], none⟩
  | typeArray => ⟨[.result, .id, .id], [], none⟩
  | typeStruct => ⟨[.result], [], some .id⟩
  | typePointer => ⟨[.result, .enumerant .storageClass, .id], [], none⟩
  | typeFunction => ⟨[.result, .id], [], some .id⟩
  | constantTrue | constantFalse | functionParameter => ⟨[.resultType, .result], [], none⟩
  | constant => ⟨[.resultType, .result, .constant], [], none⟩
  | constantComposite | compositeConstruct => ⟨[.resultType, .result], [], some .id⟩
  | function => ⟨[.resultType, .result, .enumerant .functionControl, .id], [], none⟩
  | variableDecl => ⟨[.resultType, .result, .enumerant .storageClass], [.id], none⟩
  | load => ⟨[.resultType, .result, .id], [.integer], none⟩
  | store => ⟨[.id, .id], [.integer], none⟩
  | decorate => ⟨[.id, .enumerant .decoration], [], some .integer⟩
  | memberDecorate => ⟨[.id, .integer, .enumerant .decoration], [], some .integer⟩
  | compositeExtract => ⟨[.resultType, .result, .id], [], some .integer⟩
  | fNegate => ⟨[.resultType, .result, .id], [], none⟩
  | fAdd | fSub | fMul | fDiv | vectorTimesScalar | dot =>
      ⟨[.resultType, .result, .id, .id], [], none⟩

end Opcode

end ShaderMachine
