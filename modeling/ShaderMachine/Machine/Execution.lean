import ShaderMachine.Machine.Computation
import ShaderMachine.Machine.Dispatch
import ShaderMachine.Machine.OperandReader

/-! # Executing instructions

How the instructions of a function body read their operands and what effect they have.

**`ExecutionHandler`** is the handler of an instruction, which reads a table and slots and yields
an effect; **`executionTable`** is the table of all of them. -/

namespace ShaderMachine

/-- The handler of an executed instruction. -/
abbrev ExecutionHandler := Table → Slots → Instruction → OperandReader Effect

namespace Execution

open OperandReader

/-- An instruction without effect, whatever its operands. -/
def ignore : ExecutionHandler := fun _ _ _ => do
  drain
  return .nothing

/-- A block label. -/
def label : ExecutionHandler := fun _ _ instruction => do
  let _ ← readWord instruction
  return .nothing

/-- The end of a call, which has no operands. -/
def returnVoid : ExecutionHandler := fun _ _ _ =>
  return .nothing

/-- Read a storage class that was found as an operand word. -/
def storageOfWord (instruction : Instruction) (word : Word) : OperandReader StorageClass :=
  match StorageClass.ofValue? word with
  | some storage => pure storage
  | none => malformed instruction (.unknownStorageClass word)

/-- Read the operands of a variable and create it. -/
def readVariable (table : Table) (instruction : Instruction) : OperandReader (Id × Variable) := do
  let type ← readWord instruction
  let id ← readWord instruction
  let storageWord ← readWord instruction
  let initializer ← readOptional
  let storage ← storageOfWord instruction storageWord
  let contents ← compute (createVariable table type id storage initializer)
  return (id, contents)

/-- A variable, made anew each time it is executed. -/
def variableDecl : ExecutionHandler := fun table _ instruction => do
  let (id, contents) ← readVariable table instruction
  return .assign id (.var contents)

/-- A load. -/
def load : ExecutionHandler := fun table slots instruction => do
  let resultType ← readWord instruction
  let result ← readWord instruction
  let pointer ← readWord instruction
  let _ ← readOptional
  compute do
    let bytes ← loadBytes table slots resultType pointer
    finishValue table result resultType (some bytes)

/-- A store. -/
def store : ExecutionHandler := fun table _ instruction => do
  let pointer ← readWord instruction
  let object ← readWord instruction
  let _ ← readOptional
  let value ← compute (table.value object)
  return .store pointer object value.bytes

/-- A composite built from its constituents. -/
def compositeConstruct : ExecutionHandler := fun table _ instruction => do
  let resultType ← readWord instruction
  let result ← readWord instruction
  let constituents ← readRest
  compute do
    let bytes ← foldComposite table result resultType constituents
    finishValue table result resultType (some bytes)

/-- A part of a composite. -/
def compositeExtract : ExecutionHandler := fun table _ instruction => do
  let resultType ← readWord instruction
  let result ← readWord instruction
  let composite ← readWord instruction
  let indices ← readRest
  compute do
    let bytes ← extractComposite table composite indices
    finishValue table result resultType (some bytes)

/-- Read a number of IDs. -/
def readIds (instruction : Instruction) : Nat → OperandReader (List Id)
  | 0 => return []
  | count + 1 => do
      let id ← readWord instruction
      let rest ← readIds instruction count
      return id :: rest

/-- A float instruction with a number of operands. -/
def floats (operation : FloatOperation) (arity : Nat) : ExecutionHandler :=
  fun table _ instruction => do
    let resultType ← readWord instruction
    let result ← readWord instruction
    let operands ← readIds instruction arity
    compute (evaluateFloats table operation resultType result operands)

/-- The set of extended instructions that an ID stands for. -/
def extendedSet (table : Table) (id : Id) : Except MachineError ExtendedSet := do
  match (← table.get id).definition with
  | .extendedSet set => return set
  | .unset => .error (.undefinedId id)
  | other => .error (.typeMismatch id (.definition .extendedSet) (.definition other.kind))

/-- An instruction of an extended set. -/
def extInst : ExecutionHandler := fun table _ instruction => do
  let resultType ← readWord instruction
  let result ← readWord instruction
  let setId ← readWord instruction
  let number ← readWord instruction
  let set ← compute (extendedSet table setId)
  match set.instruction? number with
  | some known =>
      let operands ← readIds instruction known.arity
      compute (evaluateFloats table known.operation resultType result operands)
  | none => throw (.unsupportedExtended set.name number instruction.offset)

end Execution

/-- The handlers of all executed instructions. -/
def executionTable : Dispatch ExecutionHandler where
  name := "execution"
  handler? opcode := match opcode with
    | .nop | .line | .noLine | .functionParameter => some Execution.ignore
    | .label => some Execution.label
    | .returnVoid => some Execution.returnVoid
    | .variableDecl => some Execution.variableDecl
    | .load => some Execution.load
    | .store => some Execution.store
    | .compositeConstruct => some Execution.compositeConstruct
    | .compositeExtract => some Execution.compositeExtract
    | .fNegate => some (Execution.floats (.unary fun _ => Lane.neg) 1)
    | .fAdd => some (Execution.floats (.binary fun _ => Lane.add) 2)
    | .fSub => some (Execution.floats (.binary fun _ => Lane.sub) 2)
    | .fMul => some (Execution.floats (.binary fun _ => Lane.mul) 2)
    | .fDiv => some (Execution.floats (.binary fun _ => Lane.div) 2)
    | .vectorTimesScalar => some (Execution.floats .scale 2)
    | .dot => some (Execution.floats .dot 2)
    | .extInst => some Execution.extInst
    | _ => none

end ShaderMachine
