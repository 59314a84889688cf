import Std.Data.TreeMap
import ShaderMachine.Machine.Error

/-! # The result table

The records of all IDs below a bound. An ID that nothing has written to reads as an empty record;
the table keeps track of the IDs that have been written to, even if only in vain.

**`Table`** is the table; **`Table.get`** reads a record and **`Table.put`** writes one;
**`Table.define`** and **`Table.replace`** give an ID its definition, once or again; the other
readers look for one kind of definition and say what they found instead. -/

namespace ShaderMachine

/-- The records of all IDs below a bound. -/
structure Table where
  /-- All IDs are below this number. -/
  bound : Word
  /-- The records that have been written to. -/
  records : Std.TreeMap Id Record := ∅

namespace Table

/-- A table in which nothing is written. -/
def ofBound (bound : Word) : Table :=
  { bound }

/-- The number of records that have been written to. -/
def materialized (table : Table) : Nat :=
  table.records.size

/-- The record of an ID. -/
def get (table : Table) (id : Id) : Except MachineError Record :=
  if id < table.bound then .ok (table.records.getD id {})
  else .error (.idOutOfRange id table.bound)

/-- The table with another record for an ID. -/
def put (table : Table) (id : Id) (record : Record) : Table :=
  { table with records := table.records.insert id record }

/-- The table with the record of an ID changed. -/
def modify (table : Table) (id : Id) (change : Record → Record) : Except MachineError Table :=
  (table.get id).map fun record => table.put id (change record)

/-- Give an ID that stands for nothing its definition. -/
def define (table : Table) (id : Id) (definition : Definition) : Except MachineError Table := do
  let record ← table.get id
  if record.isUnset then
    return table.put id { record with definition }
  else
    .error (.idRedefined id record.definition.kind definition.kind)

/-- Give an ID that stands for nothing, or for something of the same kind, its definition. -/
def replace (table : Table) (id : Id) (definition : Definition) : Except MachineError Table := do
  let record ← table.get id
  if record.isUnset ∨ record.definition.kind = definition.kind then
    return table.put id { record with definition }
  else
    .error (.idRedefined id record.definition.kind definition.kind)

/-! ## Reading one kind of definition -/

/-- The definition of an ID that stands for something. -/
def defined (table : Table) (id : Id) : Except MachineError Definition := do
  let record ← table.get id
  if record.isUnset then .error (.undefinedId id) else return record.definition

/-- The type that an ID stands for. -/
def typeOf (table : Table) (id : Id) : Except MachineError DataType := do
  match ← table.defined id with
  | .type type => return type
  | other => .error (.typeMismatch id (.definition .type) (.definition other.kind))

/-- The value that an ID stands for. -/
def value (table : Table) (id : Id) : Except MachineError Value := do
  match ← table.defined id with
  | .constant value => return value
  | other => .error (.typeMismatch id (.definition .constant) (.definition other.kind))

/-- The variable that an ID stands for. -/
def variableAt (table : Table) (id : Id) : Except MachineError Variable := do
  match ← table.defined id with
  | .var contents => return contents
  | other => .error (.typeMismatch id (.definition .var) (.definition other.kind))

/-- The size in bytes of a type. -/
def sizeOf (table : Table) (type : Id) : Except MachineError Nat :=
  (table.typeOf type).map DataType.size

/-- The width of a float type or of the components of a float vector. -/
def floatWidth (table : Table) (type : Id) : Except MachineError Word := do
  match ← table.typeOf type with
  | .float width => return width
  | .vector [] => .error (.typeMismatch type .floatVector .emptyVector)
  | .vector (member :: _) =>
      match ← table.typeOf member.type with
      | .float width => return width
      | other => .error (.typeMismatch type .floatVector (.vectorOf other.kind))
  | other => .error (.typeMismatch type .floatScalarOrVector (.data other.kind))

/-- The natural number with the given bytes, least significant first. -/
def natOfBytes (bytes : Bytes) : Nat :=
  bytes.foldr (fun byte rest => byte.toNat + 256 * rest) 0

/-- The value of an integer constant, read as an unsigned number of at most 64 bits. -/
def integerConstant (table : Table) (id : Id) : Except MachineError Nat := do
  let value ← table.value id
  match ← table.typeOf value.type with
  | .int _ _ => return natOfBytes (value.bytes.take 8)
  | other => .error (.typeMismatch id .integerConstant (.constantOf other.kind))

/-- The type that an ID stands for, which must be of a kind. -/
def expectKind (table : Table) (id : Id) (kind : DataKind) : Except MachineError DataType := do
  let type ← table.typeOf id
  if type.kind = kind then return type
  else .error (.typeMismatch id (.data kind) (.data type.kind))

/-- The least ID that stands for an entry point of a given name. -/
def entryPoint? (table : Table) (name : String) : Option Id :=
  table.records.toList.findSome? fun (id, record) =>
    match record.definition with
    | .entryPoint entry => if entry.hasName name then some id else none
    | _ => none

/-- The records that say something, by increasing ID. -/
def entries (table : Table) : List (Id × Record) :=
  table.records.toList.filter fun (_, record) => record ≠ {}

/-! ## Writing to a variable -/

/-- A table after an attempt to change it. -/
abbrev Attempt := Table × Option MachineError

/-- Change what a variable holds. An ID that stands for nothing counts as written to, though the
attempt fails. -/
def changeData (table : Table) (id : Id)
    (change : Variable → Except MachineError Bytes) : Attempt :=
  match table.get id with
  | .error error => (table, some error)
  | .ok record =>
      match record.definition with
      | .var contents =>
          match change contents with
          | .error error => (table, some error)
          | .ok data =>
              (table.put id { record with definition := .var { contents with data } }, none)
      | .unset => (table.put id record, some (.undefinedId id))
      | other =>
          (table, some (.typeMismatch id (.definition .var) (.definition other.kind)))

end Table

end ShaderMachine
