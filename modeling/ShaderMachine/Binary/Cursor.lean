import ShaderMachine.Binary.Error
import ShaderMachine.Binary.LiteralString

/-! # Reading words in place

A position in a stream of words is the words behind it and the words ahead of it, so it cannot
lie outside the stream. Offsets count from a base, which lets the operands of one instruction
report positions within the whole file.

**`Cursor`** is the position; **`InstructionHeader`** is the first word of an instruction;
**`Instruction`** is one instruction cut out of the stream; **`Cursor.nextInstruction`** cuts it
out, and **`Cursor.literalString`** reads a packed string. -/

namespace ShaderMachine

/-- The first word of an instruction. -/
structure InstructionHeader where
  /-- Which instruction it is. -/
  opcode : UInt16
  /-- How many words it takes, this one included. -/
  wordCount : UInt16
  deriving DecidableEq, Repr

namespace InstructionHeader

/-- Split a header word: the count is in its high half, the opcode in its low half. -/
def ofWord (word : Word) : InstructionHeader :=
  ⟨UInt16.ofNat (word.toNat % 65536), UInt16.ofNat (word.toNat / 65536)⟩

/-- The header as a word. -/
def toWord (header : InstructionHeader) : Word :=
  UInt32.ofNat (65536 * header.wordCount.toNat + header.opcode.toNat)

/-- The number of operand words after the header. -/
def operandCount (header : InstructionHeader) : Nat :=
  header.wordCount.toNat - 1

end InstructionHeader

/-- One instruction of a stream. -/
structure Instruction where
  /-- The offset of its header word. -/
  offset : Nat
  /-- Which instruction it is. -/
  opcode : UInt16
  /-- The words after the header. -/
  operands : List Word
  deriving DecidableEq, Repr

namespace Instruction

/-- The number of words it takes, the header included. -/
def wordCount (instruction : Instruction) : Nat :=
  instruction.operands.length + 1

/-- The offset of the word after its last one. -/
def stop (instruction : Instruction) : Nat :=
  instruction.offset + instruction.wordCount

/-- Its words, the header first. -/
def words (instruction : Instruction) : List Word :=
  InstructionHeader.toWord ⟨instruction.opcode, UInt16.ofNat instruction.wordCount⟩ ::
    instruction.operands

/-- A malformation of this instruction. -/
def malformed (instruction : Instruction) (reason : Malformation) : BinaryError :=
  .malformed instruction.offset instruction.opcode reason

end Instruction

/-- Cut the first instruction off a stream that starts at `offset`. -/
def cutInstruction (offset : Nat) :
    List Word → Except BinaryError (Instruction × List Word)
  | [] => .error (.endOfStream offset)
  | word :: rest =>
      let header := InstructionHeader.ofWord word
      let operands := rest.take header.operandCount
      if header.wordCount = 0 then
        .error (.malformed offset header.opcode .emptyCount)
      else if operands.length < header.operandCount then
        .error (.malformed offset header.opcode
          (.overrun header.wordCount.toNat (rest.length + 1)))
      else
        .ok (⟨offset, header.opcode, operands⟩, rest.drop header.operandCount)

/-- What is cut off leaves a shorter stream. -/
theorem length_lt_of_cutInstruction {offset : Nat} {words rest : List Word}
    {instruction : Instruction} (cut : cutInstruction offset words = .ok (instruction, rest)) :
    rest.length < words.length := by
  cases words with
  | nil => simp [cutInstruction] at cut
  | cons word tail =>
      simp only [cutInstruction] at cut
      split at cut
      · cases cut
      · split at cut
        · cases cut
        · cases cut
          simp only [List.length_drop, List.length_cons]
          omega

/-- A position in a stream of words. -/
structure Cursor where
  /-- The offset of the stream's first word. -/
  base : Nat
  /-- The words behind the position, the nearest one first. -/
  behind : List Word
  /-- The words ahead of the position. -/
  ahead : List Word
  deriving DecidableEq, Repr

namespace Cursor

/-- The position at the start of a stream whose first word has the offset `base`. -/
def ofWords (words : List Word) (base : Nat) : Cursor :=
  ⟨base, [], words⟩

/-- All the words of the stream. -/
def words (cursor : Cursor) : List Word :=
  cursor.behind.reverse ++ cursor.ahead

/-- The offset of the next word. -/
def offset (cursor : Cursor) : Nat :=
  cursor.base + cursor.behind.length

/-- The number of words ahead. -/
def remaining (cursor : Cursor) : Nat :=
  cursor.ahead.length

/-- Whether no word is ahead. -/
def isEmpty (cursor : Cursor) : Bool :=
  cursor.ahead.isEmpty

/-- Move over the next `count` words, or over all of them if there are fewer. -/
def advance (cursor : Cursor) (count : Nat) : Cursor :=
  ⟨cursor.base, (cursor.ahead.take count).reverse ++ cursor.behind, cursor.ahead.drop count⟩

/-- Moving keeps the stream. -/
@[simp] theorem words_advance (cursor : Cursor) (count : Nat) :
    (cursor.advance count).words = cursor.words := by
  simp [advance, words]

/-- Moving over words that are there moves as far as they reach. -/
theorem offset_advance (cursor : Cursor) {count : Nat} (enough : count ≤ cursor.remaining) :
    (cursor.advance count).offset = cursor.offset + count := by
  have length_eq : (cursor.ahead.take count).length = count := List.length_take_of_le enough
  simp only [offset, advance, List.length_append, List.length_reverse, length_eq]
  omega

/-- Moving twice is moving as far at once. -/
theorem advance_advance (cursor : Cursor) (first second : Nat) :
    (cursor.advance first).advance second = cursor.advance (first + second) := by
  rw [advance, advance, advance, List.take_add, List.drop_drop, List.reverse_append,
    List.append_assoc]

/-- Move to an offset of the stream, its end included. -/
def seek (cursor : Cursor) (target : Nat) : Except BinaryError Cursor :=
  if cursor.base ≤ target ∧ target - cursor.base ≤ cursor.words.length then
    .ok ((ofWords cursor.words cursor.base).advance (target - cursor.base))
  else
    .error (.endOfStream target)

/-- Moving from the start as far as an offset of the stream leads to that offset. -/
theorem offset_ofWords_advance (cursor : Cursor) {target : Nat} (from_base : cursor.base ≤ target)
    (inside : target - cursor.base ≤ cursor.words.length) :
    ((ofWords cursor.words cursor.base).advance (target - cursor.base)).offset = target :=
  (offset_advance _ inside).trans (Nat.add_sub_cancel' from_base)

/-- Read the next word. -/
def word (cursor : Cursor) : Except BinaryError (Word × Cursor) :=
  match cursor.ahead with
  | [] => .error (.endOfStream cursor.offset)
  | next :: rest => .ok (next, ⟨cursor.base, next :: cursor.behind, rest⟩)

/-- Read the next word if there is one. -/
def optional (cursor : Cursor) : Option Word × Cursor :=
  match cursor.ahead with
  | [] => (none, cursor)
  | next :: rest => (some next, ⟨cursor.base, next :: cursor.behind, rest⟩)

/-- Read the next `count` words. -/
def take (cursor : Cursor) (count : Nat) : Except BinaryError (List Word × Cursor) :=
  if cursor.remaining < count then
    .error (.endOfStream (cursor.offset + cursor.remaining))
  else
    .ok (cursor.ahead.take count, cursor.advance count)

/-- Move over the next `count` words, which must be there. -/
def skip (cursor : Cursor) (count : Nat) : Except BinaryError Cursor :=
  (cursor.take count).map Prod.snd

/-- The position at the end of the stream. -/
def drained (cursor : Cursor) : Cursor :=
  ⟨cursor.base, cursor.ahead.reverse ++ cursor.behind, []⟩

/-- The end is reached by moving over all words ahead. -/
theorem drained_eq (cursor : Cursor) : cursor.drained = cursor.advance cursor.remaining := by
  rw [drained, advance, remaining, List.take_length, List.drop_length]

/-- Read every word ahead. -/
def rest (cursor : Cursor) : List Word × Cursor :=
  (cursor.ahead, cursor.drained)

/-- The next word as an instruction's header, without moving. -/
def peekHeader (cursor : Cursor) : Except BinaryError InstructionHeader :=
  match cursor.ahead with
  | [] => .error (.endOfStream cursor.offset)
  | next :: _ => .ok (InstructionHeader.ofWord next)

/-- Read the next instruction. -/
def nextInstruction (cursor : Cursor) : Except BinaryError (Instruction × Cursor) :=
  (cutInstruction cursor.offset cursor.ahead).map fun (instruction, _) =>
    (instruction, cursor.advance instruction.wordCount)

/-- Read a packed string and move past its padding.

If no NUL is ahead every word is used up; bytes that are no text are used up like a string. -/
def literalString (cursor : Cursor) : Except BinaryError String × Cursor :=
  match readTerminated [] cursor.ahead with
  | none => (.error (.unterminatedString cursor.offset), cursor.drained)
  | some (bytes, _) =>
      let past := cursor.advance (stringWordCount bytes.length)
      match textOfBytes? bytes with
      | none => (.error (.invalidString cursor.offset), past)
      | some text => (.ok text, past)

end Cursor

namespace Instruction

/-- The position at the first operand. -/
def cursor (instruction : Instruction) : Cursor :=
  .ofWords instruction.operands (instruction.offset + 1)

end Instruction

end ShaderMachine
