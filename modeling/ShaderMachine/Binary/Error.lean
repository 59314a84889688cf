import ShaderMachine.Text.Basic
import ShaderMachine.Binary.Word

/-! # Faults of the binary form

What can be wrong with a module's words, as causes, and the one place that words them.

**`Malformation`** says why an instruction does not make sense; **`BinaryError`** is any fault
found while reading words; **`BinaryError.message`** is its text. -/

namespace ShaderMachine

/-- Why one instruction is not accepted. -/
inductive Malformation where
  /-- The header word counts no words at all. -/
  | emptyCount
  /-- The header word counts more words than the stream still holds. -/
  | overrun (count left : Nat)
  /-- A mode-setting instruction lacks the operands the loader needs. -/
  | missingOperands
  /-- An operand word was wanted and none was left. -/
  | missingOperand
  /-- Operand words were left over. -/
  | unreadOperands (count : Nat)
  /-- An entry point is declared for a pipeline stage that does not exist. -/
  | unknownExecutionModel (value : Word)
  /-- A pointer or variable names a storage class that does not exist. -/
  | unknownStorageClass (value : Word)
  /-- An integer type has a width that cannot be laid out. -/
  | integerWidth (width : Word)
  /-- A float type has a width that cannot be laid out. -/
  | floatWidth (width : Word)
  /-- A vector has too few or too many components. -/
  | vectorSize (count : Word)
  /-- A matrix has too few or too many columns. -/
  | matrixSize (count : Word)
  /-- An array is declared without elements. -/
  | emptyArray
  /-- A function is opened before the one around it has ended. -/
  | nestedFunction (inner outer : Id)
  /-- A function is closed and none is open. -/
  | strayFunctionEnd
  /-- A parameter is declared and no function is open. -/
  | strayParameter
  /-- A block label stands where no function is open. -/
  | strayLabel
  /-- A reason given by the reader of the instruction. -/
  | other (reason : String)
  deriving DecidableEq, Repr

namespace Malformation

/-- The wording of a reason. -/
def message : Malformation → String
  | emptyCount => "word count is 0"
  | overrun count left =>
      s!"word count {count} runs past the end of the stream ({left} words left)"
  | missingOperands => "missing operands"
  | missingOperand => "missing operand"
  | unreadOperands count => s!"{count} operand words left unread"
  | unknownExecutionModel value => s!"unknown execution model {value}"
  | unknownStorageClass value => s!"unknown storage class {value}"
  | integerWidth width => s!"unsupported integer width {width}"
  | floatWidth width => s!"unsupported float width {width}"
  | vectorSize count => s!"vector of {count} components"
  | matrixSize count => s!"matrix of {count} columns"
  | emptyArray => "array of length 0"
  | nestedFunction inner outer => s!"function {inner} starts inside function {outer}"
  | strayFunctionEnd => "OpFunctionEnd outside a function"
  | strayParameter => "parameter outside a function"
  | strayLabel => "label outside a function"
  | other reason => reason

end Malformation

/-- A fault found while reading the words of a module. -/
inductive BinaryError where
  /-- The first word is not the magic number. -/
  | badMagic (found : Word)
  /-- The file is no whole number of words, or shorter than a header. -/
  | truncated (length : Nat)
  /-- The header's bound on IDs is zero or too large. -/
  | invalidBound (bound : Word)
  /-- A word was wanted past the end of the stream. -/
  | endOfStream (offset : Nat)
  /-- An instruction is not accepted. -/
  | malformed (offset : Nat) (opcode : UInt16) (reason : Malformation)
  /-- A literal string runs to the end of its words without a NUL. -/
  | unterminatedString (offset : Nat)
  /-- A literal string is not UTF-8. -/
  | invalidString (offset : Nat)
  deriving DecidableEq, Repr

namespace BinaryError

/-- The wording of a fault. -/
def message : BinaryError → String
  | badMagic found =>
      "Invalid module magic: expected 0x07230203, got " ++ Text.hexWord found.toNat
  | truncated length =>
      s!"Truncated module: {length} bytes is not a whole number of words of at least " ++
        "a 5-word header"
  | invalidBound bound => s!"Invalid bound {bound}: must be in 1..=4194304"
  | endOfStream offset => s!"Unexpected end of stream at word {offset}"
  | malformed offset opcode reason =>
      s!"Malformed instruction {opcode} at word {offset}: " ++ reason.message
  | unterminatedString offset => s!"Literal string at word {offset} is not NUL-terminated"
  | invalidString offset => s!"Literal string at word {offset} is not valid UTF-8"

/-- Whether a fault lies in the file's header rather than in its instructions. -/
def isHeaderError : BinaryError → Bool
  | badMagic _ | truncated _ | invalidBound _ => true
  | _ => false

end BinaryError

end ShaderMachine
