import ShaderMachine.Machine.Error
import ShaderMachine.Binary.Cursor

/-! # Reading operands

The operands of an instruction are read one after the other; whatever is left over at the end is
a fault of the module.

**`OperandReader`** is the reading of an operand; **`readWord`**, **`readOptional`**,
**`readWords`**, **`readString`** and **`readRest`** read the different forms; a word that is
wanted and missing is reported at the instruction. -/

namespace ShaderMachine

/-- A reading of operands, which moves a position over them. -/
abbrev OperandReader := StateT Cursor (Except MachineError)

namespace OperandReader

/-- End the reading with a malformation of the instruction. -/
def malformed {α : Type} (instruction : Instruction) (reason : Malformation) : OperandReader α :=
  throw (.binary (instruction.malformed reason))

/-- Read a word. -/
def readWord (instruction : Instruction) : OperandReader Word := fun cursor =>
  match cursor.word with
  | .ok (word, next) => .ok (word, next)
  | .error _ => .error (.binary (instruction.malformed .missingOperand))

/-- Read a word if one is left. -/
def readOptional : OperandReader (Option Word) := fun cursor =>
  .ok cursor.optional

/-- Read a number of words. -/
def readWords (instruction : Instruction) (count : Nat) : OperandReader (List Word) :=
  fun cursor =>
    match cursor.take count with
    | .ok (words, next) => .ok (words, next)
    | .error _ => .error (.binary (instruction.malformed .missingOperand))

/-- Read a string. -/
def readString : OperandReader String := fun cursor =>
  match cursor.literalString with
  | (.ok text, next) => .ok (text, next)
  | (.error error, _) => .error (.binary error)

/-- Read all words that are left. -/
def readRest : OperandReader (List Word) := fun cursor =>
  .ok cursor.rest

/-- Move over all words that are left. -/
def drain : OperandReader Unit := fun cursor =>
  .ok ((), cursor.drained)

/-- Do what does not read operands. -/
def compute {α : Type} (result : Except MachineError α) : OperandReader α := fun cursor =>
  result.map fun value => (value, cursor)

end OperandReader

end ShaderMachine
