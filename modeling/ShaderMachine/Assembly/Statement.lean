import ShaderMachine.Assembly.Token
import ShaderMachine.Grammar.Operand
import ShaderMachine.Binary.Error
import ShaderMachine.Binary.Trap

/-! # Statements of assembly text

A line of assembly text is blank or holds one statement: an instruction with its operands, and
its result before an equals sign if it has one.

**`Statement`** is a parsed line; **`AssemblyError`** is all that can be wrong with a text, and
**`AssemblyError.message`** words it; **`Statement.ofTokens?`** parses the tokens of a line and
**`parseSource`** a whole text. -/

namespace ShaderMachine

/-- One operand as it is written. -/
inductive Operand where
  /-- An ID, without its percent sign. -/
  | id (name : String)
  /-- A decimal integer. -/
  | integer (value : Int64)
  /-- A hexadecimal integer, as raw bits. -/
  | bits (value : UInt64)
  /-- A decimal float as it is written. -/
  | float (text : String)
  /-- A string. -/
  | str (text : String)
  /-- An enumerant or the name of an extended instruction. -/
  | word (text : String)
  deriving DecidableEq

namespace Operand

/-- How an operand reads in a message. -/
def describe : Operand → String
  | id name => "%" ++ name
  | integer value => toString value.toInt
  | bits value => Text.hex value.toNat
  | float text => text
  | str text => Text.quoteVisible text
  | word text => text

/-- The operand that a token stands for; an equals sign stands for none. -/
def ofToken? : Token → Option Operand
  | .id name => some (id name)
  | .word text => some (word text)
  | .integer value => some (integer value)
  | .hex value => some (bits value)
  | .float text => some (float text)
  | .str text => some (str text)
  | .equals => none

/-- The name of the ID that an operand refers to. -/
def idName? : Operand → Option String
  | id name => some name
  | _ => none

end Operand

/-- A line of assembly text that holds an instruction. -/
structure Statement where
  /-- The number of the line, from one. -/
  line : Nat
  /-- The name of the ID that the instruction defines. -/
  result : Option String
  /-- The instruction. -/
  opcode : Opcode
  /-- Its operands in order, the result left out. -/
  operands : List Operand
  deriving DecidableEq

/-- Why a line is no statement. -/
inductive SyntaxFault where
  /-- Some of its text is no token. -/
  | unexpectedInput (text : String)
  /-- Its first token is an ID and no equals sign follows. -/
  | missingEquals (result : String)
  /-- Its first token can start no statement. -/
  | notInstruction (token : Token)
  /-- No opcode follows the equals sign. -/
  | missingOpcode
  /-- A token among the operands is no operand. -/
  | unexpectedToken (token : Token) (mnemonic : String)
  deriving DecidableEq

namespace SyntaxFault

/-- The wording of a fault. -/
def message : SyntaxFault → String
  | unexpectedInput text => "unexpected input " ++ Text.quoteVisible text
  | missingEquals result => "expected '=' after %" ++ result
  | notInstruction token => "expected an instruction, found " ++ token.describe
  | missingOpcode => "expected an opcode after '='"
  | unexpectedToken token mnemonic =>
      "unexpected " ++ token.describe ++ " in operands of " ++ mnemonic

end SyntaxFault

/-- Why a literal does not fit its place. -/
inductive LiteralFault where
  /-- It has more than 32 bits. -/
  | tooWide
  /-- It is no float of 64 bits. -/
  | notDouble
  /-- It is no float of 32 bits. -/
  | notSingle
  /-- Floats of this width can only be given as bits. -/
  | bitsOnly
  /-- It is a float and the type is an integer type. -/
  | notInteger
  /-- It is no number at all. -/
  | notNumber
  deriving DecidableEq, Repr

namespace LiteralFault

/-- The wording of a fault. -/
def message : LiteralFault → String
  | tooWide => "does not fit in 32 bits"
  | notDouble => "not a 64-bit float"
  | notSingle => "not a 32-bit float"
  | bitsOnly => "write this float width as hex bits"
  | notInteger => "integer type needs an integer"
  | notNumber => "not a number"

end LiteralFault

/-- What is wrong with an assembly text. -/
inductive AssemblyError where
  /-- A line is no statement. -/
  | badSyntax (line column : Nat) (fault : SyntaxFault)
  /-- A mnemonic is unknown. -/
  | unknownInstruction (line : Nat) (mnemonic : String)
  /-- A name is none of the names its place allows. -/
  | unknownEnumerant (line : Nat) (kind name : String)
  /-- An operand is missing. -/
  | missingOperand (line : Nat) (opcode : Opcode) (kind : OperandKind)
  /-- There is an operand too many. -/
  | tooManyOperands (line : Nat) (opcode : Opcode) (operand : Operand)
  /-- An instruction that defines an ID has no result. -/
  | missingResult (line : Nat) (opcode : Opcode)
  /-- An instruction that defines no ID has a result. -/
  | unexpectedResult (line : Nat) (opcode : Opcode)
  /-- An operand is of another kind than its place wants. -/
  | unexpectedOperand (line : Nat) (kind : OperandKind) (operand : Operand)
  /-- A literal does not fit its place. -/
  | invalidLiteral (line : Nat) (operand : Operand) (fault : LiteralFault)
  /-- A numeric ID is zero or too large, or an ID has no number. -/
  | invalidId (line : Nat) (name : String)
  /-- An instruction takes more words than its header can count. -/
  | instructionTooLong (line : Nat) (opcode : Opcode) (words : Nat)
  /-- The assembled words do not load. -/
  | invalidModule (error : BinaryError)
  /-- The program stops: there are more IDs than words to number them. -/
  | stopped (trap : Trap)
  deriving DecidableEq

namespace AssemblyError

/-- The wording of an error. -/
def message : AssemblyError → String
  | badSyntax line column fault =>
      s!"Syntax error at line {line}, column {column}: " ++ fault.message
  | unknownInstruction line mnemonic => s!"Unknown instruction at line {line}: " ++ mnemonic
  | unknownEnumerant line kind name => s!"Unknown {kind} enumerant at line {line}: " ++ name
  | missingOperand line opcode kind =>
      opcode.mnemonic ++ s!" at line {line} is missing its " ++ kind.describe ++ " operand"
  | tooManyOperands line opcode operand =>
      opcode.mnemonic ++ s!" at line {line} has an extra operand: " ++ operand.describe
  | missingResult line opcode => opcode.mnemonic ++ s!" at line {line} needs a result ID"
  | unexpectedResult line opcode =>
      opcode.mnemonic ++ s!" at line {line} does not produce a result"
  | unexpectedOperand line kind operand =>
      "Expected " ++ kind.describe ++ s!" at line {line}, found " ++ operand.describe
  | invalidLiteral line operand fault =>
      "Invalid literal " ++ operand.describe ++ s!" at line {line}: " ++ fault.message
  | invalidId line name => "Invalid ID %" ++ name ++ s!" at line {line}"
  | instructionTooLong line opcode words =>
      opcode.mnemonic ++ s!" at line {line} is {words} words long"
  | invalidModule error => "Assembled module is invalid: " ++ error.message
  | stopped trap => trap.message

end AssemblyError

/-- Read the tokens after a mnemonic as operands. -/
def operandsOfTokens (line : Nat) (mnemonic : String) (tokens : List Token) :
    Except AssemblyError (List Operand) :=
  tokens.mapM fun token =>
    match Operand.ofToken? token with
    | some operand => .ok operand
    | none => .error (.badSyntax line 1 (.unexpectedToken token mnemonic))

namespace Statement

/-- Build a statement from its result, its mnemonic and the tokens after it. -/
def build (line : Nat) (result : Option String) (mnemonic : String) (tokens : List Token) :
    Except AssemblyError Statement :=
  match Opcode.ofMnemonic? mnemonic with
  | none => .error (.unknownInstruction line mnemonic)
  | some opcode => (operandsOfTokens line mnemonic tokens).map fun operands =>
      ⟨line, result, opcode, operands⟩

/-- Parse the tokens of a line; a blank line holds no statement. -/
def ofTokens? (line : Nat) : List Token → Except AssemblyError (Option Statement)
  | [] => .ok none
  | .id result :: .equals :: .word mnemonic :: tokens =>
      (build line (some result) mnemonic tokens).map some
  | .id _ :: .equals :: _ => .error (.badSyntax line 1 .missingOpcode)
  | .id result :: _ => .error (.badSyntax line 1 (.missingEquals result))
  | .word mnemonic :: tokens => (build line none mnemonic tokens).map some
  | token :: _ => .error (.badSyntax line 1 (.notInstruction token))

end Statement

/-- The tokens of a line; the first text that is no token is an error. -/
def lineTokens (number : Nat) (line : List Char) : Except AssemblyError (List Token) :=
  (scanLine line).mapM fun placed =>
    match placed.item with
    | .ok token => .ok token
    | .error text => .error (.badSyntax number (placed.start + 1) (.unexpectedInput text))

/-- Parse one line. -/
def parseLine (number : Nat) (line : List Char) : Except AssemblyError (Option Statement) := do
  Statement.ofTokens? number (← lineTokens number line)

/-- Parse a text; the first line with an error decides. -/
def parseSource (source : String) : Except AssemblyError (List Statement) := do
  let lines := (sourceLines source).zipIdx 1
  let statements ← lines.mapM fun (line, number) => parseLine number line
  return statements.filterMap id

end ShaderMachine
