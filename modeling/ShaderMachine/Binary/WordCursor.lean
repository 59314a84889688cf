import ShaderMachine.Binary.CursorOperation
import ShaderMachine.Binary.Trap

/-! # Cursors over memory

In memory, a stream is a slice of words, and a position in it is an index. Index and base are
numbers of 64 bits, and every sum, every difference and every part of the slice that an operation
takes on its way may stop the program.

**`WordSlice`** is words in memory; **`WordCursor`** is a position among them, with its operations;
**`WordCursor.perform`** performs one of them. **`CursorStack`** is a cursor over operands on top of
the cursors that these operands were read from. -/

namespace ShaderMachine

/-- Words in memory, fewer than a number of 64 bits can count. -/
structure WordSlice where
  /-- The words. -/
  words : List Word
  /-- Their number is one of 64 bits. -/
  length_lt : words.length < UInt64.size
  deriving DecidableEq, Repr

namespace WordSlice

/-- The number of words. -/
def length (slice : WordSlice) : UInt64 :=
  .ofNatLT slice.words.length slice.length_lt

/-- The word at an index, if there is one. -/
def get? (slice : WordSlice) (index : UInt64) : Option Word :=
  slice.words[index.toNat]?

/-- The words from an index up to another one. -/
def part (slice : WordSlice) (first last : UInt64) : Except Trap WordSlice :=
  if first ≤ last ∧ last ≤ slice.length then
    .ok ⟨(slice.words.drop first.toNat).take (last.toNat - first.toNat), by
      have length_lt := slice.length_lt
      simp only [List.length_take, List.length_drop]
      omega⟩
  else
    .error .outOfSlice

end WordSlice

/-- A position among words in memory. -/
structure WordCursor where
  /-- The words. -/
  slice : WordSlice
  /-- The index of the next one. -/
  position : UInt64
  /-- The offset of the first one. -/
  base : UInt64
  deriving DecidableEq, Repr

namespace WordCursor

/-- The position at the first word. -/
def ofSlice (slice : WordSlice) (base : UInt64) : WordCursor :=
  ⟨slice, 0, base⟩

/-- The offset of the next word. -/
def offset (cursor : WordCursor) : Except Trap UInt64 :=
  checkedAdd cursor.base cursor.position

/-- The number of words ahead. -/
def remaining (cursor : WordCursor) : Except Trap UInt64 :=
  checkedSub cursor.slice.length cursor.position

/-- Whether no word is ahead. -/
def isEmpty (cursor : WordCursor) : Except Trap Bool :=
  cursor.remaining.map (· == 0)

/-- Move to an offset of the slice, its end included. -/
def seek (cursor : WordCursor) (target : UInt64) : Except BinaryError Unit × WordCursor :=
  if cursor.base ≤ target ∧ target - cursor.base ≤ cursor.slice.length then
    (.ok (), { cursor with position := target - cursor.base })
  else
    (.error (.endOfStream target.toNat), cursor)

/-- Read the next word. -/
def word (cursor : WordCursor) : Except Trap (Except BinaryError Word × WordCursor) := do
  let offset ← cursor.offset
  match cursor.slice.get? cursor.position with
  | none => return (.error (.endOfStream offset.toNat), cursor)
  | some word => return (.ok word, { cursor with position := ← checkedAdd cursor.position 1 })

/-- Read the next word if there is one. -/
def optional (cursor : WordCursor) : Except Trap (Option Word × WordCursor) := do
  let (read, next) ← cursor.word
  return (read.toOption, next)

/-- Read the next `count` words. -/
def take (cursor : WordCursor) (count : UInt64) :
    Except Trap (Except BinaryError WordSlice × WordCursor) := do
  if (← cursor.remaining) < count then
    let stop ← checkedAdd cursor.base cursor.slice.length
    return (.error (.endOfStream stop.toNat), cursor)
  else
    let last ← checkedAdd cursor.position count
    let part ← cursor.slice.part cursor.position last
    return (.ok part, { cursor with position := last })

/-- Move over the next `count` words, which must be there. -/
def skip (cursor : WordCursor) (count : UInt64) :
    Except Trap (Except BinaryError Unit × WordCursor) := do
  let (read, next) ← cursor.take count
  return (read.map fun _ => (), next)

/-- Read every word ahead. -/
def rest (cursor : WordCursor) : Except Trap (WordSlice × WordCursor) := do
  let part ← cursor.slice.part cursor.position cursor.slice.length
  return (part, { cursor with position := cursor.slice.length })

/-- The next word as an instruction's header, without moving. -/
def peekHeader (cursor : WordCursor) : Except Trap (Except BinaryError InstructionHeader) := do
  let offset ← cursor.offset
  match cursor.slice.get? cursor.position with
  | none => return .error (.endOfStream offset.toNat)
  | some word => return .ok (.ofWord word)

/-- Read the next instruction: its header, its offset, and a cursor over its operands. -/
def nextInstruction (cursor : WordCursor) :
    Except Trap (Except BinaryError (InstructionHeader × UInt64 × WordCursor) × WordCursor) := do
  let offset ← cursor.offset
  match ← cursor.peekHeader with
  | .error fault => return (.error fault, cursor)
  | .ok header =>
      let malformed (reason : Malformation) :=
        (Except.error (.malformed offset.toNat header.opcode reason), cursor)
      if header.wordCount = 0 then
        return malformed .emptyCount
      let left ← cursor.remaining
      if left < header.wordCount.toUInt64 then
        return malformed (.overrun header.wordCount.toNat left.toNat)
      let behind ← checkedAdd cursor.position 1
      match ← { cursor with position := behind }.take (.ofNat header.operandCount) with
      | (.error fault, next) => return (.error fault, next)
      | (.ok operands, next) =>
          return (.ok (header, offset, ofSlice operands (← checkedAdd offset 1)), next)

/-- A word that is read lies behind the position then. -/
theorem remaining_lt_of_word {cursor next : WordCursor} {word : Word}
    (read : cursor.word = .ok (.ok word, next)) :
    next.slice.words.length - next.position.toNat <
      cursor.slice.words.length - cursor.position.toNat := by
  simp only [WordCursor.word, bind, Except.bind] at read
  split at read
  · cases read
  · split at read
    · cases read
    · rename_i found
      split at read
      · cases read
      · rename_i sum sum_eq
        cases read
        -- The position is inside the slice, and its successor is a number of 64 bits.
        obtain ⟨inside, -⟩ := List.getElem?_eq_some_iff.mp found
        rw [checkedAdd] at sum_eq
        split at sum_eq
        · rename_i fits
          cases sum_eq
          have sum_toNat : (cursor.position + 1).toNat = cursor.position.toNat + 1 :=
            (UInt64.toNat_add ..).trans (Nat.mod_eq_of_lt fits)
          simp only [sum_toNat]
          omega
        · cases sum_eq

/-- The text with the bytes of a string that was read since `start`. -/
def stringOfBytes (start : UInt64) (bytes : Bytes) : Except BinaryError String :=
  match textOfBytes? bytes with
  | none => .error (.invalidString start.toNat)
  | some text => .ok text

/-- Read words as the bytes of a string, behind those that were found since `start`, up to the word
with a NUL. -/
def stringFrom (cursor : WordCursor) (start : UInt64) (found : Bytes) :
    Except Trap (Except BinaryError String × WordCursor) :=
  match _read : cursor.word with
  | .error trap => .error trap
  | .ok (.error _, next) => .ok (.error (.unterminatedString start.toNat), next)
  | .ok (.ok word, next) =>
      match (Word.bytes word).span (· != 0) with
      | (front, []) => stringFrom next start (found ++ front)
      | (front, _ :: _) => .ok (stringOfBytes start (found ++ front), next)
termination_by cursor.slice.words.length - cursor.position.toNat
decreasing_by exact remaining_lt_of_word ‹_›

/-- Read a packed string and move past its padding. -/
def literalString (cursor : WordCursor) : Except Trap (Except BinaryError String × WordCursor) := do
  cursor.stringFrom (← cursor.offset) []

/-- What a cursor over memory yields. -/
inductive Answer where
  /-- Nothing; it moved. -/
  | moved
  /-- A word. -/
  | word (word : Word)
  /-- A word, or none at the end. -/
  | optional (word : Option Word)
  /-- Some words. -/
  | words (slice : WordSlice)
  /-- A header. -/
  | header (header : InstructionHeader)
  /-- The header and the offset of an instruction, and a cursor over its operands. -/
  | instruction (header : InstructionHeader) (offset : UInt64) (operands : WordCursor)
  /-- A text. -/
  | text (text : String)
  deriving DecidableEq, Repr

/-- What an answer says of the words of the stream. -/
def Answer.content : Answer → Cursor.Answer
  | .moved => .moved
  | .word found => .word found
  | .optional found => .optional found
  | .words found => .words found.words
  | .header found => .header found
  | .instruction found offset operands =>
      .instruction ⟨offset.toNat, found.opcode, operands.slice.words⟩
  | .text found => .text found

variable {α : Type}

/-- Answer what is read. -/
def answer (make : α → Answer) (read : Except BinaryError α × WordCursor) :
    Except BinaryError Answer × WordCursor :=
  (read.1.map make, read.2)

/-- Perform an operation, and say where the cursor is then. -/
def perform (cursor : WordCursor) :
    Cursor.Operation → Except Trap (Except BinaryError Answer × WordCursor)
  | .word => cursor.word.map (answer .word)
  | .optional => cursor.optional.map fun (read, next) => (.ok (.optional read), next)
  | .take count => (cursor.take count).map (answer .words)
  | .skip count => (cursor.skip count).map (answer fun () => .moved)
  | .rest => cursor.rest.map fun (read, next) => (.ok (.words read), next)
  | .seek target => .ok (answer (fun () => .moved) (cursor.seek target))
  | .peekHeader => cursor.peekHeader.map fun read => (read.map .header, cursor)
  | .nextInstruction => cursor.nextInstruction.map
      (answer fun (header, offset, operands) => .instruction header offset operands)
  | .literalString => cursor.literalString.map (answer .text)

end WordCursor

/-- A cursor, and the ones that it was entered from, the latest first. -/
structure CursorStack where
  /-- The cursor that is read from. -/
  top : WordCursor
  /-- The cursors to go back to. -/
  below : List WordCursor
  deriving DecidableEq, Repr

namespace CursorStack

/-- A step of reading a stream. -/
inductive Step where
  /-- An operation is performed. -/
  | perform (operation : Cursor.Operation)
  /-- The next instruction is read, and its operands are gone to. -/
  | enter
  /-- The cursor that the operands were gone to from is gone back to. -/
  | leave
  deriving DecidableEq, Repr

/-- Perform an operation on the cursor that is read from. -/
def perform (stack : CursorStack) (operation : Cursor.Operation) :
    Except Trap (Except BinaryError WordCursor.Answer × CursorStack) :=
  (stack.top.perform operation).map fun (outcome, next) => (outcome, { stack with top := next })

/-- Read the next instruction and go to its operands, if it can be read. -/
def enter (stack : CursorStack) :
    Except Trap (Except BinaryError WordCursor.Answer × CursorStack) :=
  (stack.perform .nextInstruction).map fun (outcome, next) =>
    match outcome with
    | .ok (.instruction _ _ operands) => (outcome, ⟨operands, next.top :: next.below⟩)
    | _ => (outcome, next)

/-- Go back to the cursor below, if there is one. -/
def leave (stack : CursorStack) : CursorStack :=
  match stack.below with
  | [] => stack
  | next :: below => ⟨next, below⟩

/-- Make a step, whether its operation succeeds or not. -/
def after (stack : CursorStack) : Step → Except Trap CursorStack
  | .perform operation => (stack.perform operation).map Prod.snd
  | .enter => stack.enter.map Prod.snd
  | .leave => .ok stack.leave

/-- Make steps one after the other. -/
def follow (stack : CursorStack) (steps : List Step) : Except Trap CursorStack :=
  steps.foldlM after stack

end CursorStack

end ShaderMachine
