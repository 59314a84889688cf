import ShaderMachine.Grammar.Enumerant

/-! # Types and their layout

The types a module declares, with the sizes of their parts, which are fixed when the type is
declared. Values are laid out without padding, the parts in order.

**`DataType`** is a declared type; **`DataType.size`** is the number of bytes of its values;
**`DataType.member?`** finds a part of an aggregate and where it lies. -/

namespace ShaderMachine

-- Sums start from the literal zero, whatever else defines zeros.
attribute [local instance (high)] Zero.ofOfNat0

/-- The largest size in bytes that a type may have. -/
def maxTypeSize : Nat := 1048576

/-- The kinds of types. -/
inductive DataKind where
  | void
  | bool
  | int
  | float
  | pointer
  | vector
  | matrix
  | array
  | struct
  | function
  deriving DecidableEq, Repr

namespace DataKind

/-- Every kind of type. -/
def all : List DataKind :=
  [.void, .bool, .int, .float, .pointer, .vector, .matrix, .array, .struct, .function]

/-- The name of a kind. -/
def name : DataKind → String
  | void => "Void"
  | bool => "Bool"
  | int => "Int"
  | float => "Float"
  | pointer => "Pointer"
  | vector => "Vector"
  | matrix => "Matrix"
  | array => "Array"
  | struct => "Struct"
  | function => "Function"

/-- The kind with a given name. -/
def ofName? (name : String) : Option DataKind :=
  all.find? fun kind => kind.name == name

end DataKind

/-- One part of an aggregate. -/
structure Member where
  /-- The ID of its type. -/
  type : Id
  /-- Its size in bytes. -/
  size : Nat
  deriving DecidableEq, Repr

/-- A declared type. -/
inductive DataType where
  /-- No value at all. -/
  | void
  /-- A truth value. -/
  | bool
  /-- An integer of a width in bits. -/
  | int (width : Word) (signed : Bool)
  /-- A float of a width in bits. -/
  | float (width : Word)
  /-- A vector of scalars. -/
  | vector (members : List Member)
  /-- A matrix, column by column. -/
  | matrix (members : List Member)
  /-- A number of equal elements. -/
  | array (element : Member) (length : Word)
  /-- A structure. -/
  | struct (members : List Member)
  /-- A pointer into a storage class. -/
  | pointer (storage : StorageClass) (pointee : Id)
  /-- A function signature. -/
  | function (returnType : Id) (parameters : List Id)
  deriving DecidableEq, Repr

/-- The number of bytes of a scalar of a width in bits. -/
def scalarSize (width : Word) : Nat :=
  (width.toNat + 7) / 8

/-- The size of members laid out one after the other. -/
def membersSize (members : List Member) : Nat :=
  (members.map Member.size).sum

namespace DataType

/-- The kind of a type. -/
def kind : DataType → DataKind
  | void => .void
  | bool => .bool
  | int _ _ => .int
  | float _ => .float
  | vector _ => .vector
  | matrix _ => .matrix
  | array _ _ => .array
  | struct _ => .struct
  | pointer _ _ => .pointer
  | function _ _ => .function

/-- The number of parts; what has no parts but has values counts as one. -/
def elementCount : DataType → Nat
  | void | function _ _ => 0
  | bool | int _ _ | float _ | pointer _ _ => 1
  | vector members | matrix members | struct members => members.length
  | array _ length => length.toNat

/-- The number of bytes of a value. -/
def size : DataType → Nat
  | void | function _ _ => 0
  | bool => 4
  | int width _ | float width => scalarSize width
  | pointer _ _ => 8
  | vector members | matrix members | struct members => membersSize members
  | array element length => element.size * length.toNat

/-- The part at an index, with the offset of its first byte. -/
def member? (type : DataType) (index : Word) : Option (Member × Nat) :=
  match type with
  | vector members | matrix members | struct members =>
      members[index.toNat]?.map fun member =>
        (member, membersSize (members.take index.toNat))
  | array element length =>
      if index < length then some (element, element.size * index.toNat) else none
  | _ => none

/-- Whether a type may be the component type of a vector. -/
def isScalar : DataType → Bool
  | bool | int _ _ | float _ => true
  | _ => false

end DataType

end ShaderMachine
