import ShaderMachine.Assembly.Ids
import ShaderMachine.Grammar.GlslInstruction
import ShaderMachine.Grammar.Scalar

/-! # Encoding statements

A statement becomes a header word and its operands, each encoded as the instruction's layout
says. How a constant is written depends on its type, so the scalar types declared so far go along.

**`Encoder`** holds the numbers of the IDs and the scalar types; **`Encoder.encode`** encodes one
statement; **`constantWords`** encodes the value of a constant; **`assembleWords`** and
**`assemble`** turn a text into a module, without and with loading it. -/

namespace ShaderMachine

/-- An integer literal of one word; nothing if the operand is no integer. -/
def integerWord? (line : Nat) (operand : Operand) : Option (Except AssemblyError Word) :=
  let tooWide := Except.error (AssemblyError.invalidLiteral line operand .tooWide)
  match operand with
  | .integer value =>
      if -2147483648 ≤ value.toInt ∧ value.toInt < 4294967296 then
        some (.ok (UInt32.ofInt value.toInt))
      else
        some tooWide
  | .bits value =>
      if value.toNat < 4294967296 then some (.ok (UInt32.ofNat value.toNat)) else some tooWide
  | _ => none

/-- Encode the value of a constant of a scalar type, if the type is known.

Values of 64 bits take two words. Hexadecimal literals are raw bits for any type. -/
def constantWords (line : Nat) (scalar : Option Scalar) (operand : Operand) :
    Except AssemblyError (List Word) :=
  let invalid (fault : LiteralFault) : Except AssemblyError (List Word) :=
    .error (.invalidLiteral line operand fault)
  let single (bits : Nat) : List Word := [UInt32.ofNat bits]
  let oneWord : Except AssemblyError (List Word) :=
    match integerWord? line operand with
    | some word => word.map fun word => [word]
    | none => invalid .notNumber
  match operand, scalar with
  | .float text, some (.float 64) =>
      match FloatFormat.double.read? text.toList with
      | some bits => .ok (splitDouble bits)
      | none => invalid .notDouble
  | .float text, some (.float 32) | .float text, none =>
      match FloatFormat.single.read? text.toList with
      | some bits => .ok (single bits)
      | none => invalid .notSingle
  | .float _, some (.float _) => invalid .bitsOnly
  | .float _, some (.int _ _) => invalid .notInteger
  | .integer value, some (.float 64) => .ok (splitDouble (FloatFormat.double.ofInt value.toInt))
  | .integer value, some (.float 32) => .ok (single (FloatFormat.single.ofInt value.toInt))
  | .integer _, some (.float _) => invalid .bitsOnly
  | .integer value, some (.int 64 _) => .ok (splitDouble value.toUInt64.toNat)
  | .bits value, some (.float 64) | .bits value, some (.int 64 _) =>
      .ok (splitDouble value.toNat)
  | _, _ => oneWord

/-- What the encoding of a statement depends on. -/
structure Encoder where
  /-- The numbers of the IDs. -/
  ids : IdNumbers
  /-- The scalar types declared so far. -/
  scalars : ScalarTable

namespace Encoder

/-- The encoder at the start of a text. -/
def ofStatements (statements : List Statement) : Except AssemblyError Encoder :=
  (IdNumbers.counted statements).map fun ids => ⟨ids, ∅⟩

/-- The number of an ID. -/
def idWord (encoder : Encoder) (line : Nat) (name : String) : Except AssemblyError Word :=
  match encoder.ids.get? name with
  | some id => .ok id
  | none => .error (.invalidId line name)

/-- Encode a name by a table of names, or an integer as it is. -/
def nameOrInteger (line : Nat) (kind : OperandKind) (table : String)
    (valueOf : String → Option Word) (operand : Operand) : Except AssemblyError (List Word) :=
  match operand with
  | .word name =>
      match valueOf name with
      | some value => .ok [value]
      | none => .error (.unknownEnumerant line table name)
  | _ =>
      match integerWord? line operand with
      | some word => word.map fun word => [word]
      | none => .error (.unexpectedOperand line kind operand)

/-- Encode one operand of a kind, in an instruction with a result type if it has one. -/
def operandWords (encoder : Encoder) (line : Nat) (resultType : Option Id) (kind : OperandKind)
    (operand : Operand) : Except AssemblyError (List Word) :=
  match kind, operand with
  | .resultType, .id name | .result, .id name | .id, .id name =>
      (encoder.idWord line name).map fun id => [id]
  | .string, .str text => .ok (packString text)
  | .integer, _ =>
      match integerWord? line operand with
      | some word => word.map fun word => [word]
      | none => .error (.unexpectedOperand line kind operand)
  | .extended, _ =>
      nameOrInteger line kind glslSetName
        (fun name => (GlslInstruction.ofName? name).map GlslInstruction.number) operand
  | .enumerant family, _ => nameOrInteger line kind family.name family.valueOf operand
  | .constant, _ =>
      constantWords line (resultType.bind fun id => encoder.scalars[id]?) operand
  | _, _ => .error (.unexpectedOperand line kind operand)

/-- The operands of a statement that are not encoded yet, with the words of the others. -/
structure Progress where
  /-- The words so far, in order. -/
  words : List Word
  /-- The operands left. -/
  operands : List Operand
  /-- The result type, once it is encoded. -/
  resultType : Option Id

/-- Encode an operand that is always there; the result stands before the instruction. -/
def fixedStep (encoder : Encoder) (statement : Statement) (progress : Progress)
    (kind : OperandKind) : Except AssemblyError Progress :=
  match kind, statement.result, progress.operands with
  | .result, some name, _ => do
      let id ← encoder.idWord statement.line name
      return { progress with words := progress.words ++ [id] }
  | _, _, [] => .error (.missingOperand statement.line statement.opcode kind)
  | _, _, operand :: rest => do
      let words ← encoder.operandWords statement.line progress.resultType kind operand
      let resultType := if kind = .resultType then words.getLast? else progress.resultType
      return ⟨progress.words ++ words, rest, resultType⟩

/-- Encode an operand that may be there. -/
def optionalStep (encoder : Encoder) (statement : Statement) (progress : Progress)
    (kind : OperandKind) : Except AssemblyError Progress :=
  match progress.operands with
  | [] => .ok progress
  | operand :: rest => do
      let words ← encoder.operandWords statement.line progress.resultType kind operand
      return { progress with words := progress.words ++ words, operands := rest }

/-- Encode all operands that are left, if the layout has room for them. -/
def variadicStep (encoder : Encoder) (statement : Statement) (progress : Progress)
    (kind : Option OperandKind) : Except AssemblyError Progress :=
  match kind with
  | none => .ok progress
  | some kind => do
      let words ← progress.operands.mapM
        (encoder.operandWords statement.line progress.resultType kind)
      return { progress with words := progress.words ++ words.flatten, operands := [] }

/-- The operand words of a statement. -/
def bodyWords (encoder : Encoder) (statement : Statement) : Except AssemblyError (List Word) := do
  let layout := statement.opcode.layout
  let progress ← layout.fixed.foldlM (encoder.fixedStep statement) ⟨[], statement.operands, none⟩
  let progress ← layout.optional.foldlM (encoder.optionalStep statement) progress
  let progress ← encoder.variadicStep statement progress layout.variadic
  match progress.operands with
  | [] => return progress.words
  | extra :: _ => .error (.tooManyOperands statement.line statement.opcode extra)

/-- Encode a statement, its header word first. -/
def encode (encoder : Encoder) (statement : Statement) : Except AssemblyError (List Word) :=
  match statement.result, statement.opcode.layout.hasResult with
  | none, true => .error (.missingResult statement.line statement.opcode)
  | some _, false => .error (.unexpectedResult statement.line statement.opcode)
  | _, _ => do
      let body ← encoder.bodyWords statement
      let count := body.length + 1
      if count < 65536 then
        return InstructionHeader.toWord ⟨statement.opcode.number, UInt16.ofNat count⟩ :: body
      else
        .error (.instructionTooLong statement.line statement.opcode count)

/-- Note the type that an encoded statement declares. -/
def note (encoder : Encoder) (statement : Statement) (words : List Word) : Encoder :=
  { encoder with scalars := encoder.scalars.note statement.opcode (words.drop 1) }

/-- Encode statements in order, after the words already `written` (latest statement first). -/
def encodeFrom (written : List (List Word)) (encoder : Encoder) :
    List Statement → Except AssemblyError (List (List Word))
  | [] => .ok written.reverse
  | statement :: rest =>
      match encoder.encode statement with
      | .error error => .error error
      | .ok words => encodeFrom (words :: written) (encoder.note statement words) rest

end Encoder

/-- The words of each statement of a text. -/
def encodeStatements (statements : List Statement) :
    Except AssemblyError (Id × List (List Word)) := do
  let encoder ← Encoder.ofStatements statements
  let words ← encoder.encodeFrom [] statements
  return (encoder.ids.bound, words)

/-- Assemble a text into the words of a module, which need not load. -/
def assembleWords (source : String) : Except AssemblyError (List Word) := do
  let (bound, words) ← encodeStatements (← parseSource source)
  return (ModuleHeader.ofBound bound 0).words ++ words.flatten

/-- Assemble a text into a module. -/
def assemble (source : String) : Except AssemblyError Module := do
  let words ← assembleWords source
  (Module.ofWords words).mapError .invalidModule

end ShaderMachine
