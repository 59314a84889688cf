import ShaderMachine.Machine.Lane
import ShaderMachine.Machine.Slots
import ShaderMachine.Machine.Table

/-! # What instructions compute

The values that instructions compute from the result table and the interface slots. Nothing here
changes a machine: an instruction that computes something yields an effect, which is committed
when all of its operands are read.

**`Effect`** is what an executed instruction changes; **`finishValue`** checks a computed value
against its type; **`foldComposite`**, **`extractComposite`**, **`loadBytes`** and
**`createVariable`** are the computations of the memory and composite instructions;
**`evaluateFloats`** is that of the float instructions, with **`FloatOperation`** for what they
do lane by lane. -/

namespace ShaderMachine

/-- What an executed instruction changes. -/
inductive Effect where
  /-- Nothing. -/
  | nothing
  /-- It gives an ID a definition, in place of one of the same kind. -/
  | assign (id : Id) (definition : Definition)
  /-- It writes the bytes of the value `object` through `pointer`. -/
  | store (pointer object : Id) (bytes : Bytes)
  deriving DecidableEq, Repr

/-- The effect of computing a value, which must have the size of its type. -/
def finishValue (table : Table) (result resultType : Id) (bytes : Option Bytes) :
    Except MachineError Effect :=
  match bytes with
  | none => .error (.typeMismatch result .likeResult .mismatchedOperands)
  | some bytes => do
      let size ← table.sizeOf resultType
      if bytes.length = size then
        return .assign result (.constant ⟨resultType, bytes⟩)
      else
        .error (.typeMismatch result (.resultOf size) (.bytes bytes.length))

/-! ## Composites -/

/-- The bytes of a composite of a type with the given constituents. -/
def foldComposite (table : Table) (result type : Id) (constituents : List Id) :
    Except MachineError Bytes := do
  let size ← table.sizeOf type
  let values ← constituents.mapM table.value
  let bytes := values.flatMap Value.bytes
  if bytes.length = size then
    return bytes
  else
    .error (.typeMismatch result (.constituentsOf size) (.bytes bytes.length))

/-- A part of a composite: its type, the offset of its first byte, and its size. -/
structure Part where
  /-- The ID of its type. -/
  type : Id
  /-- The offset of its first byte. -/
  offset : Nat
  /-- Its size in bytes. -/
  size : Nat
  deriving DecidableEq, Repr

/-- The member of a part at an index. -/
def memberPart (table : Table) (composite : Id) (part : Part) (index : Word) :
    Except MachineError Part := do
  let type ← table.typeOf part.type
  match type.member? index with
  | some (member, offset) => return ⟨member.type, part.offset + offset, member.size⟩
  | none => .error (.typeMismatch composite (.compositeWith index)
      (.members type.kind type.elementCount))

/-- The bytes of the part of a composite that a path of indices leads to. -/
def extractComposite (table : Table) (composite : Id) (indices : List Word) :
    Except MachineError Bytes := do
  let value ← table.value composite
  let part ← indices.foldlM (memberPart table composite) ⟨value.type, 0, value.bytes.length⟩
  if part.offset + part.size ≤ value.bytes.length then
    return (value.bytes.drop part.offset).take part.size
  else
    .error (.typeMismatch composite (.atLeast (part.offset + part.size))
      (.bytes value.bytes.length))

/-! ## Memory -/

/-- The bytes that a load of a type through a pointer yields. Input variables read what is bound
at their location, of which there may be more than is loaded. -/
def loadBytes (table : Table) (slots : Slots) (resultType pointer : Id) :
    Except MachineError Bytes := do
  let size ← table.sizeOf resultType
  let contents ← table.variableAt pointer
  if contents.storage = .input then
    let record ← table.get pointer
    match record.location? with
    | none => .error (.missingLocation pointer)
    | some location =>
        let data ← slots.input location
        if data.length < size then
          .error (.inputTooShort location size data.length)
        else
          return data.take size
  else if contents.data.length = size then
    return contents.data
  else
    .error (.typeMismatch pointer (.pointerTo size) (.pointerTo contents.data.length))

/-- The data a new variable holds: zeros, or the value of its initializer. -/
def initialData (table : Table) (size : Nat) (initializer : Option Id) :
    Except MachineError Bytes :=
  match initializer with
  | none => .ok (List.replicate size 0)
  | some id => do
      let value ← table.value id
      if value.bytes.length = size then
        return value.bytes
      else
        .error (.typeMismatch id (.initializerOf size) (.bytes value.bytes.length))

/-- A new variable of a pointer type in a storage class, which must be that of the pointer. -/
def createVariable (table : Table) (type id : Id) (storage : StorageClass)
    (initializer : Option Id) : Except MachineError Variable := do
  match ← table.typeOf type with
  | .pointer pointerStorage pointee =>
      if pointerStorage = storage then
        let size ← table.sizeOf pointee
        let data ← initialData table size initializer
        return ⟨type, storage, pointee, initializer, data⟩
      else
        .error (.typeMismatch id (.variableIn pointerStorage) (.variableIn storage))
  | other => .error (.typeMismatch type (.data .pointer) (.data other.kind))

/-! ## Floats -/

/-- A computation on the bytes of float operands; nothing if their shapes do not fit. -/
structure FloatOperation where
  /-- The computation for lanes of a width. -/
  run : (α : Type) → [Lane α] → List Bytes → Option Bytes

namespace FloatOperation

/-- A computation lane by lane on one operand. -/
def unary (f : (α : Type) → [Lane α] → α → α) : FloatOperation where
  run α _ operands := match operands with
    | [x] => map1 (f α) x
    | _ => none

/-- A computation lane by lane on two operands. -/
def binary (f : (α : Type) → [Lane α] → α → α → α) : FloatOperation where
  run α _ operands := match operands with
    | [x, y] => map2 (f α) x y
    | _ => none

/-- A computation lane by lane on three operands. -/
def ternary (f : (α : Type) → [Lane α] → α → α → α → α) : FloatOperation where
  run α _ operands := match operands with
    | [x, y, z] => map3 (f α) x y z
    | _ => none

/-- Every lane of the first operand times the second one, which is one lane. -/
def scale : FloatOperation where
  run α _ operands := match operands with
    | [vector, scalar] =>
        (scalarLane? (α := α) scalar).bind fun factor => map1 (Lane.mul · factor) vector
    | _ => none

/-- The dot product of two operands of the same length. -/
def dot : FloatOperation where
  run α _ operands := match operands with
    | [x, y] =>
        if x.length = y.length ∧ (laneCount? α x).isSome then
          some (Lane.write (dotLanes (α := α) (decodeLanes x) (decodeLanes y)))
        else
          none
    | _ => none

/-- The length of one operand. -/
def length : FloatOperation where
  run α _ operands := match operands with
    | [x] => (laneCount? α x).map fun _ => Lane.write (lengthLanes (α := α) (decodeLanes x))
    | _ => none

/-- The length of the difference of two operands. -/
def distance : FloatOperation where
  run α _ operands := match operands with
    | [x, y] => (map2 (α := α) Lane.sub x y).map fun difference =>
        Lane.write (lengthLanes (α := α) (decodeLanes difference))
    | _ => none

/-- Every lane of one operand divided by its length. -/
def normalize : FloatOperation where
  run α _ operands := match operands with
    | [x] => map1 (Lane.div · (lengthLanes (α := α) (decodeLanes x))) x
    | _ => none

/-- The cross product of two operands of three lanes. -/
def cross : FloatOperation where
  run α _ operands := match operands with
    | [x, y] =>
        match decodeLanes (α := α) x, decodeLanes (α := α) y with
        | [x₀, x₁, x₂], [y₀, y₁, y₂] =>
            if x.length = y.length then
              some (encodeLanes [
                Lane.sub (Lane.mul x₁ y₂) (Lane.mul y₁ x₂),
                Lane.sub (Lane.mul x₂ y₀) (Lane.mul y₂ x₀),
                Lane.sub (Lane.mul x₀ y₁) (Lane.mul y₀ x₁)])
            else
              none
        | _, _ => none
    | _ => none

end FloatOperation

namespace GlslInstruction

/-- What an extended instruction computes. -/
def operation : GlslInstruction → FloatOperation
  | fAbs => .unary fun _ => Lane.abs
  | floor => .unary fun _ => Lane.floor
  | ceil => .unary fun _ => Lane.ceil
  | fract => .unary fun _ => laneFract
  | sqrt => .unary fun _ => Lane.sqrt
  | inverseSqrt => .unary fun _ => laneInverseSqrt
  | pow => .binary fun _ => Lane.pow
  | fMin => .binary fun _ => laneMin
  | fMax => .binary fun _ => laneMax
  | fClamp => .ternary fun _ => laneClamp
  | fMix => .ternary fun _ => laneMix
  | length => .length
  | distance => .distance
  | cross => .cross
  | normalize => .normalize

end GlslInstruction

/-- Compute with floats of a width on some bytes. -/
def FloatOperation.runWidth (operation : FloatOperation) (id : Id) (width : Word)
    (operands : List Bytes) : Except MachineError (Option Bytes) :=
  if width = 32 then .ok (operation.run Single operands)
  else if width = 64 then .ok (operation.run Double operands)
  else .error (.unsupportedFloatWidth id width)

/-- The effect of a float instruction. -/
def evaluateFloats (table : Table) (operation : FloatOperation) (resultType result : Id)
    (operands : List Id) : Except MachineError Effect := do
  let width ← table.floatWidth resultType
  let values ← operands.mapM table.value
  let bytes ← operation.runWidth resultType width (values.map Value.bytes)
  finishValue table result resultType bytes

end ShaderMachine
