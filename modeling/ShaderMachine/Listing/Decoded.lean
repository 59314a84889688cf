import Std.Data.HashSet
import ShaderMachine.Binary.Module
import ShaderMachine.Grammar.GlslInstruction
import ShaderMachine.Grammar.Operand
import ShaderMachine.Grammar.Scalar

/-! # Decoded instructions

Instructions with their operand words read by the instruction's layout. Nothing is dropped: words
past the layout, and the words of unsupported instructions, are kept as literals.

**`DecodedOperand`** and **`DecodedInstruction`** are the decoded forms; **`Decoder`** holds what
earlier instructions say about later ones; **`Decoder.decode`** decodes one instruction and
**`decodeStream`** a whole stream. -/

namespace ShaderMachine

/-- One decoded operand. -/
inductive DecodedOperand where
  /-- An ID. -/
  | id (id : Id)
  /-- An integer of one word. -/
  | literal (value : Word)
  /-- A string. -/
  | str (text : String)
  /-- A word that stands for a name. -/
  | enumerant (family : EnumFamily) (value : Word)
  /-- The number of an extended instruction, and whether its set is the one with names here. -/
  | extended (isGlsl : Bool) (instruction : Word)
  /-- The words of a constant, and its type if that is a known scalar. -/
  | constant (scalar : Option Scalar) (words : List Word)
  deriving DecidableEq

/-- One decoded instruction. -/
structure DecodedInstruction where
  /-- The offset of its header word. -/
  offset : Nat
  /-- The number in its header word. -/
  opcode : UInt16
  /-- The ID it defines. -/
  result : Option Id
  /-- Its operands in order, the result left out. -/
  operands : List DecodedOperand
  deriving DecidableEq

namespace DecodedInstruction

/-- The instruction, if it is a supported one. -/
def opcode? (instruction : DecodedInstruction) : Option Opcode :=
  Opcode.ofNumber? instruction.opcode

end DecodedInstruction

/-- Why a stream cannot be decoded. -/
inductive ListingError where
  /-- An instruction ends before an operand that is always there. -/
  | missingOperand (offset : Nat) (opcode : Opcode) (kind : OperandKind)
  /-- The words themselves cannot be read. -/
  | invalidModule (error : BinaryError)
  deriving DecidableEq

namespace ListingError

/-- The wording of an error. -/
def message : ListingError → String
  | missingOperand offset opcode kind =>
      opcode.mnemonic ++ s!" at word {offset} is missing its " ++ kind.name ++ " operand"
  | invalidModule error => "Invalid module: " ++ error.message

end ListingError

/-- What earlier instructions say about later ones. -/
structure Decoder where
  /-- The scalar types declared so far. -/
  scalars : ScalarTable := ∅
  /-- The IDs under which the extended set with names is imported. -/
  glslSets : Std.HashSet Id := ∅

/-- An instruction while it is decoded. -/
structure Decoding where
  /-- The position after the operands read so far. -/
  cursor : Cursor
  /-- The ID that the instruction defines, once it is read. -/
  result : Option Id
  /-- The type of its result, once it is read. -/
  resultType : Option Id
  /-- The operands read so far, latest first. -/
  operands : List DecodedOperand

namespace Decoder

/-- Read a word and turn it into an operand. -/
def wordOperand (cursor : Cursor) (operand : Word → DecodedOperand) :
    Except BinaryError (DecodedOperand × Cursor) :=
  cursor.word.map fun (word, next) => (operand word, next)

/-- Read one operand of a kind. -/
def readOperand (decoder : Decoder) (decoding : Decoding) (kind : OperandKind) :
    Except BinaryError (DecodedOperand × Cursor) :=
  let cursor := decoding.cursor
  match kind with
  | .resultType | .result | .id => wordOperand cursor .id
  | .integer => wordOperand cursor .literal
  | .enumerant family => wordOperand cursor (.enumerant family)
  | .extended =>
      let isGlsl := match decoding.operands with
        | .id set :: _ => decoder.glslSets.contains set
        | _ => false
      wordOperand cursor (.extended isGlsl)
  | .string =>
      match cursor.literalString with
      | (.ok text, next) => .ok (.str text, next)
      | (.error error, _) => .error error
  | .constant =>
      let (words, next) := cursor.rest
      .ok (.constant (decoding.resultType.bind fun id => decoder.scalars[id]?) words, next)

/-- Read one operand of a kind and put it after the others. -/
def takeOperand (decoder : Decoder) (decoding : Decoding) (kind : OperandKind) :
    Except ListingError Decoding := do
  let (operand, next) ← (decoder.readOperand decoding kind).mapError .invalidModule
  match kind, operand with
  | .result, .id id => return { decoding with cursor := next, result := some id }
  | .resultType, .id id =>
      return { decoding with
        cursor := next, resultType := some id, operands := operand :: decoding.operands }
  | _, _ => return { decoding with cursor := next, operands := operand :: decoding.operands }

/-- Read an operand that is always there. -/
def fixedStep (decoder : Decoder) (offset : Nat) (opcode : Opcode) (decoding : Decoding)
    (kind : OperandKind) : Except ListingError Decoding :=
  if decoding.cursor.isEmpty then .error (.missingOperand offset opcode kind)
  else decoder.takeOperand decoding kind

/-- Read an operand if words are left. -/
def optionalStep (decoder : Decoder) (decoding : Decoding) (kind : OperandKind) :
    Except ListingError Decoding :=
  if decoding.cursor.isEmpty then .ok decoding else decoder.takeOperand decoding kind

/-- Read operands of a kind while words are left, at most `count` of them. -/
def variadicSteps (decoder : Decoder) (kind : OperandKind) :
    Nat → Decoding → Except ListingError Decoding
  | 0, decoding => .ok decoding
  | count + 1, decoding =>
      if decoding.cursor.isEmpty then
        .ok decoding
      else
        match decoder.takeOperand decoding kind with
        | .error error => .error error
        | .ok next => variadicSteps decoder kind count next

/-- Decode the operands of a supported instruction. Each variadic operand takes a word, so the
number of words left bounds their number. -/
def decodeOperands (decoder : Decoder) (instruction : Instruction) (opcode : Opcode) :
    Except ListingError DecodedInstruction := do
  let layout := opcode.layout
  let decoding ← layout.fixed.foldlM (decoder.fixedStep instruction.offset opcode)
    ⟨instruction.cursor, none, none, []⟩
  let decoding ← layout.optional.foldlM decoder.optionalStep decoding
  let decoding ← match layout.variadic with
    | none => pure decoding
    | some kind => decoder.variadicSteps kind decoding.cursor.remaining decoding
  let unread := decoding.cursor.ahead.map DecodedOperand.literal
  return ⟨instruction.offset, instruction.opcode, decoding.result,
    decoding.operands.reverse ++ unread⟩

/-- Decode one instruction. -/
def decode (decoder : Decoder) (instruction : Instruction) :
    Except ListingError DecodedInstruction :=
  match Opcode.ofNumber? instruction.opcode with
  | none => .ok ⟨instruction.offset, instruction.opcode, none,
      instruction.operands.map .literal⟩
  | some opcode => decoder.decodeOperands instruction opcode

/-- Note what a decoded instruction says about later ones. -/
def note (decoder : Decoder) (instruction : Instruction) (decoded : DecodedInstruction) :
    Decoder :=
  match decoded.opcode?, decoded.result, decoded.operands with
  | some .extInstImport, some id, [.str name] =>
      if name = glslSetName then { decoder with glslSets := decoder.glslSets.insert id }
      else decoder
  | some opcode, _, _ =>
      { decoder with scalars := decoder.scalars.note opcode instruction.operands }
  | none, _, _ => decoder

/-- Decode instructions in order, after those already `read` (latest first). -/
def decodeFrom (read : List DecodedInstruction) (decoder : Decoder) :
    List Instruction → Except ListingError (List DecodedInstruction)
  | [] => .ok read.reverse
  | instruction :: rest =>
      match decoder.decode instruction with
      | .error error => .error error
      | .ok decoded => decodeFrom (decoded :: read) (decoder.note instruction decoded) rest

end Decoder

/-- Decode a stream that starts at the offset `base`. The first fault in stream order decides. -/
def decodeStream (words : List Word) (base : Nat) :
    Except ListingError (List DecodedInstruction) := do
  let framing := Framing.ofWords base words
  let decoded ← Decoder.decodeFrom [] {} framing.instructions
  match framing.fault with
  | some fault => .error (.invalidModule fault)
  | none => return decoded

/-- Decode the instructions of a module. -/
def Module.decode (loaded : Module) : Except ListingError (List DecodedInstruction) :=
  Decoder.decodeFrom [] {} loaded.instructions

end ShaderMachine
