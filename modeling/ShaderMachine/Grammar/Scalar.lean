import Std.Data.HashMap
import ShaderMachine.Grammar.Opcode
import ShaderMachine.Binary.Word

/-! # Scalar types of constants

How many words a constant takes and what they mean follows from its type, so whoever writes or
reads constants keeps track of the scalar types declared so far.

**`Scalar`** is a scalar type; **`Scalar.ofDeclaration?`** is the type that an instruction
declares; **`ScalarTable`** holds the latest declaration of each ID. -/

namespace ShaderMachine

/-- The type of a scalar constant. -/
inductive Scalar where
  /-- A float of a width in bits. -/
  | float (width : Word)
  /-- An integer of a width in bits. -/
  | int (width : Word) (signed : Bool)
  deriving DecidableEq, Repr

namespace Scalar

/-- The ID and the type that an instruction with these operand words declares.

Words past the declared ones make the declaration unreadable. -/
def ofDeclaration? : Opcode → List Word → Option (Id × Scalar)
  | .typeFloat, [id, width] => some (id, .float width)
  | .typeInt, [id, width, signedness] => some (id, .int width (signedness != 0))
  | _, _ => none

end Scalar

/-- The scalar types declared so far, by ID. -/
abbrev ScalarTable := Std.HashMap Id Scalar

namespace ScalarTable

/-- Note the type that an instruction declares, if it declares one. -/
def note (table : ScalarTable) (opcode : Opcode) (operands : List Word) : ScalarTable :=
  match Scalar.ofDeclaration? opcode operands with
  | some (id, scalar) => table.insert id scalar
  | none => table

end ScalarTable

/-- The words of a 64-bit value, the low-order one first. -/
def splitDouble (bits : Nat) : List Word :=
  [UInt32.ofNat bits, UInt32.ofNat (bits / 4294967296)]

/-- The 64-bit value of two words, the low-order one first. -/
def joinDouble (low high : Word) : Nat :=
  low.toNat + 4294967296 * high.toNat

end ShaderMachine
