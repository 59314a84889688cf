import ShaderMachine.Binary.Cursor

/-! # Operations on a cursor in place

Whoever reads a stream holds one cursor and asks it for one thing after the other. Where an
operation fails, the cursor stays where the operation got to, and the next one goes on from there.

**`Cursor.Operation`** is what a cursor can be asked for, **`Cursor.Answer`** is what it yields, and
**`Cursor.perform`** performs an operation. -/

namespace ShaderMachine.Cursor

/-- What a cursor can be asked for. -/
inductive Operation where
  /-- The next word. -/
  | word
  /-- The next word, if there is one. -/
  | optional
  /-- The next words, as many as are counted. -/
  | take (count : UInt64)
  /-- To move over the next words, as many as are counted. -/
  | skip (count : UInt64)
  /-- All words ahead. -/
  | rest
  /-- To move to an offset. -/
  | seek (target : UInt64)
  /-- The next word as a header, without moving. -/
  | peekHeader
  /-- The next instruction. -/
  | nextInstruction
  /-- The next packed string. -/
  | literalString
  deriving DecidableEq, Repr

/-- What a cursor yields. -/
inductive Answer where
  /-- Nothing; it moved. -/
  | moved
  /-- A word. -/
  | word (word : Word)
  /-- A word, or none at the end. -/
  | optional (word : Option Word)
  /-- Some words. -/
  | words (words : List Word)
  /-- A header. -/
  | header (header : InstructionHeader)
  /-- An instruction. -/
  | instruction (instruction : Instruction)
  /-- A text. -/
  | text (text : String)
  deriving DecidableEq, Repr

variable {α : Type}

/-- Answer what is read, and stay if nothing is. -/
def answer (cursor : Cursor) (make : α → Answer) (read : Except BinaryError (α × Cursor)) :
    Except BinaryError Answer × Cursor :=
  match read with
  | .ok (value, next) => (.ok (make value), next)
  | .error fault => (.error fault, cursor)

/-- Perform an operation, and say where the cursor is then. -/
def perform (cursor : Cursor) : Operation → Except BinaryError Answer × Cursor
  | .word => cursor.answer .word cursor.word
  | .optional => cursor.answer .optional (.ok cursor.optional)
  | .take count => cursor.answer .words (cursor.take count.toNat)
  | .skip count => cursor.answer (fun () => .moved) ((cursor.skip count.toNat).map ((), ·))
  | .rest => cursor.answer .words (.ok cursor.rest)
  | .seek target => cursor.answer (fun () => .moved) ((cursor.seek target.toNat).map ((), ·))
  | .peekHeader => (cursor.peekHeader.map .header, cursor)
  | .nextInstruction => cursor.answer .instruction cursor.nextInstruction
  | .literalString => (cursor.literalString.1.map .text, cursor.literalString.2)

end ShaderMachine.Cursor
