import ShaderMachine.Binary.Error
import ShaderMachine.Machine.Record

/-! # Faults of a machine

What can go wrong when a machine is set up from a module or runs one of its functions.

**`Shape`** says what was wanted or found where two things do not fit together;
**`MachineError`** is any fault, **`MachineError.message`** its wording, and
**`MachineError.isFatal`** tells the faults that stop a lenient machine. -/

namespace ShaderMachine

/-- What an ID should stand for, or stands for. -/
inductive Shape where
  /-- A definition of a kind. -/
  | definition (kind : DefinitionKind)
  /-- A type of a kind. -/
  | data (kind : DataKind)
  /-- A vector with components of a kind. -/
  | vectorOf (kind : DataKind)
  /-- A constant of a type of a kind. -/
  | constantOf (kind : DataKind)
  /-- A vector of floats. -/
  | floatVector
  /-- A vector without components. -/
  | emptyVector
  /-- A float or a vector of floats. -/
  | floatScalarOrVector
  /-- A constant of an integer type. -/
  | integerConstant
  /-- A type that may be a vector's component type. -/
  | scalarComponent
  /-- An integer or float type. -/
  | integerOrFloat
  /-- Operands of the result's shape. -/
  | likeResult
  /-- Operands of different shapes. -/
  | mismatchedOperands
  /-- A result of a size. -/
  | resultOf (size : Nat)
  /-- An initializer of a size. -/
  | initializerOf (size : Nat)
  /-- A value of a size. -/
  | valueOf (size : Nat)
  /-- Constituents of a size together. -/
  | constituentsOf (size : Nat)
  /-- A number of bytes. -/
  | bytes (count : Nat)
  /-- At least a number of bytes. -/
  | atLeast (count : Nat)
  /-- A pointer to something of a size. -/
  | pointerTo (size : Nat)
  /-- A variable in a storage class. -/
  | variableIn (storage : StorageClass)
  /-- A composite that has a member at an index. -/
  | compositeWith (index : Word)
  /-- A type of a kind with a number of members. -/
  | members (kind : DataKind) (count : Nat)
  deriving DecidableEq, Repr

namespace Shape

/-- The wording of a shape. -/
def message : Shape → String
  | definition kind => kind.name
  | data kind => kind.name
  | vectorOf kind => kind.name ++ " vector"
  | constantOf kind => kind.name ++ " constant"
  | floatVector => "float vector"
  | emptyVector => "empty vector"
  | floatScalarOrVector => "float scalar or vector"
  | integerConstant => "integer constant"
  | scalarComponent => "scalar component type"
  | integerOrFloat => "integer or float type"
  | likeResult => "operands shaped like the result"
  | mismatchedOperands => "mismatched operands"
  | resultOf size => s!"{size}-byte result"
  | initializerOf size => s!"{size}-byte initializer"
  | valueOf size => s!"{size}-byte value"
  | constituentsOf size => s!"{size} bytes of constituents"
  | bytes count => s!"{count} bytes"
  | atLeast count => s!"at least {count} bytes"
  | pointerTo size => s!"pointer to {size} bytes"
  | variableIn storage => storage.name ++ " variable"
  | compositeWith index => s!"composite with member {index}"
  | members kind count => kind.name ++ s!" of {count} members"

end Shape

/-- A fault of a machine. -/
inductive MachineError where
  /-- The module's words are at fault. -/
  | binary (error : BinaryError)
  /-- An ID is not below the bound. -/
  | idOutOfRange (id : Id) (bound : Word)
  /-- An ID stands for nothing yet. -/
  | undefinedId (id : Id)
  /-- An ID already stands for something else. -/
  | idRedefined (id : Id) (existing requested : DefinitionKind)
  /-- An ID stands for something that does not fit. -/
  | typeMismatch (id : Id) (expected found : Shape)
  /-- A type is too large to lay out. -/
  | typeTooLarge (id : Id) (size : Nat)
  /-- There is no arithmetic for floats of a width. -/
  | unsupportedFloatWidth (id : Id) (width : Word)
  /-- An ID has more decorations than the configuration allows. -/
  | tooManyDecorations (id : Id) (max : Nat)
  /-- The body of a function does not end. -/
  | unterminatedFunction (id : Id)
  /-- An instruction is not supported. -/
  | unsupportedOpcode (opcode : UInt16) (offset : Nat)
  /-- An extended instruction is not supported. -/
  | unsupportedExtended (set : String) (instruction : Word) (offset : Nat)
  /-- No entry point has a name. -/
  | entryPointNotFound (name : String)
  /-- A call would execute more instructions than the configuration allows. -/
  | executionLimitExceeded (limit : Nat)
  /-- There is no such interface location. -/
  | locationOutOfRange (location : Word) (max : Nat)
  /-- An input variable has no location. -/
  | missingLocation (id : Id)
  /-- No input is bound at a location. -/
  | missingInput (location : Word)
  /-- The input at a location is too short for what is loaded. -/
  | inputTooShort (location : Word) (expected actual : Nat)
  /-- A store goes to storage that may not be written. -/
  | readOnlyStorage (id : Id) (storage : StorageClass)
  /-- The last call wrote no output at a location. -/
  | noOutputData (location : Word)
  deriving DecidableEq, Repr

namespace MachineError

/-- The wording of a fault. -/
def message : MachineError → String
  | binary error => "Spec error: " ++ error.message
  | idOutOfRange id bound => s!"ID {id} is out of range (bound {bound})"
  | undefinedId id => s!"ID {id} is used before it is defined"
  | idRedefined id existing requested =>
      s!"ID {id} is already a " ++ existing.name ++ ", cannot redefine it as a " ++ requested.name
  | typeMismatch id expected found =>
      s!"ID {id}: expected " ++ expected.message ++ ", found " ++ found.message
  | typeTooLarge id size => s!"Type {id} is too large: {size} bytes"
  | unsupportedFloatWidth id width => s!"Unsupported float width {width} for ID {id}"
  | tooManyDecorations id max => s!"ID {id} has more than {max} decorations"
  | unterminatedFunction id => s!"Function {id} has no OpFunctionEnd"
  | unsupportedOpcode opcode offset => s!"Unsupported opcode {opcode} at word {offset}"
  | unsupportedExtended set instruction offset =>
      s!"Unsupported extended instruction {instruction} of set \"" ++ set ++
        s!"\" at word {offset}"
  | entryPointNotFound name => "Entry point \"" ++ name ++ "\" not found"
  | executionLimitExceeded limit => s!"Execution limit exceeded: {limit} instructions"
  | locationOutOfRange location max => s!"Location {location} is out of range (max {max})"
  | missingLocation id => s!"Interface variable {id} has no Location decoration"
  | missingInput location => s!"No input data bound at location {location}"
  | inputTooShort location expected actual =>
      s!"Input at location {location} is too short: expected {expected} bytes, got {actual}"
  | readOnlyStorage id storage =>
      s!"Cannot store through {id}: " ++ storage.name ++ " storage is read-only"
  | noOutputData location => s!"No output data written at location {location}"

/-- Whether a fault stops a machine that skips what it does not support. -/
def isFatal : MachineError → Bool
  | unsupportedOpcode _ _ | unsupportedExtended _ _ _ => false
  | _ => true

end MachineError

end ShaderMachine
