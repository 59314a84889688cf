import ShaderMachine.Decimal.Notation
import ShaderMachine.Listing.Decoded
import ShaderMachine.Text.Quoted

/-! # Spelling instructions

How a decoded instruction reads in a listing, without its result. The spelling of every supported
instruction is assembly text.

**`spellConstant`** spells the words of a constant, **`DecodedOperand.spell`** an operand and
**`DecodedInstruction.spell`** an instruction. -/

namespace ShaderMachine

/-- Spell the bits of a float: finite ones as decimals, the others as bits. -/
def spellFloat (format : FloatFormat) (bits : Nat) : String :=
  if format.isFinite bits then DecimalStyle.listing.write format bits else Text.hex bits

/-- Spell the words of a constant of a scalar type, if the type is known.

Words that do not fit the type are spelt one by one. An unsigned integer of 64 bits is spelt in
hexadecimal once it is too large for a signed one. -/
def spellConstant (scalar : Option Scalar) (words : List Word) : String :=
  match scalar, words with
  | some (.float 32), [bits] => spellFloat .single bits.toNat
  | some (.float 64), [low, high] => spellFloat .double (joinDouble low high)
  | some (.int _ true), [word] => toString word.toInt32.toInt
  | some (.int _ true), [low, high] =>
      toString (UInt64.ofNat (joinDouble low high)).toInt64.toInt
  | some (.int _ false), [low, high] =>
      let value := joinDouble low high
      if value < 9223372036854775808 then toString value else Text.hex value
  | some (.int _ false), [word] => toString word.toNat
  | _, _ => " ".intercalate (words.map fun word => Text.hex word.toNat)

namespace DecodedOperand

/-- Spell an operand. A word is spelt by name only if the name stands for that very word. -/
def spell : DecodedOperand → String
  | .id number => "%" ++ toString number
  | .literal value => toString value
  | .str text => Text.quoteBare text
  | .enumerant family value =>
      match (family.nameOf value).filter fun name => family.valueOf name == some value with
      | some name => name
      | none => toString value
  | .extended isGlsl instruction =>
      match if isGlsl then GlslInstruction.ofNumber? instruction else none with
      | some known => known.name
      | none => toString instruction
  | .constant scalar words => spellConstant scalar words

end DecodedOperand

namespace DecodedInstruction

/-- Spell an instruction without its result. An unsupported one is spelt as a comment. -/
def spell (instruction : DecodedInstruction) : String :=
  let operands := instruction.operands.map DecodedOperand.spell
  match instruction.opcode? with
  | some opcode => " ".intercalate (opcode.mnemonic :: operands)
  | none =>
      let comment := s!"; unsupported opcode {instruction.opcode}:"
      " ".intercalate (comment :: operands)

end DecodedInstruction

end ShaderMachine
