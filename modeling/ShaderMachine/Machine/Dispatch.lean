import ShaderMachine.Grammar.Opcode

/-! # Dispatch tables

Which instructions a pass over a module handles, and how.

**`Dispatch`** is a table of handlers by instruction; **`Dispatch.opcodes`** lists the handled
instructions in numeric order. -/

namespace ShaderMachine

/-- A table of handlers by instruction. -/
structure Dispatch (α : Type) where
  /-- What the table is called. -/
  name : String
  /-- The handler of an instruction, if it has one. -/
  handler? : Opcode → Option α

namespace Dispatch

variable {α : Type}

/-- A table without handlers. -/
def empty (name : String) : Dispatch α :=
  ⟨name, fun _ => none⟩

/-- Give an instruction a handler, in place of the one it had. -/
def register (table : Dispatch α) (opcode : Opcode) (handler : α) : Dispatch α :=
  { table with handler? := fun other => if other = opcode then some handler
      else table.handler? other }

/-- The handler of the instruction with a number. -/
def get? (table : Dispatch α) (number : UInt16) : Option α :=
  (Opcode.ofNumber? number).bind table.handler?

/-- The handler of a known instruction is the one that is registered for it. -/
theorem get?_of_known (table : Dispatch α) {number : UInt16} {opcode : Opcode}
    (known : Opcode.ofNumber? number = some opcode) :
    table.get? number = table.handler? opcode := by
  rw [get?, known, Option.bind_some]

/-- An instruction with an unknown number has no handler. -/
theorem get?_of_unknown (table : Dispatch α) {number : UInt16}
    (unknown : Opcode.ofNumber? number = none) : table.get? number = none := by
  rw [get?, unknown, Option.bind_none]

/-- Whether the instruction with a number has a handler. -/
def contains (table : Dispatch α) (number : UInt16) : Bool :=
  (table.get? number).isSome

/-- An instruction for which a handler is found has one. -/
theorem contains_of_get? {table : Dispatch α} {number : UInt16} {handler : α}
    (registered : table.get? number = some handler) : table.contains number = true := by
  rw [contains, registered, Option.isSome_some]

/-- An instruction for which no handler is found has none. -/
theorem not_contains_of_get? {table : Dispatch α} {number : UInt16}
    (missing : table.get? number = none) : table.contains number = false := by
  rw [contains, missing, Option.isSome_none]

/-- The instructions with handlers, in numeric order. -/
def opcodes (table : Dispatch α) : List Opcode :=
  Opcode.all.filter fun opcode => (table.handler? opcode).isSome

end Dispatch

end ShaderMachine
