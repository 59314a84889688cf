import ShaderMachine.Machine.Error

/-! # Interface slots

The data at the input and output locations of a machine.

**`Slots`** holds both; **`Slots.bind`** and **`Slots.input`** are for inputs, **`Slots.write`**
and **`Slots.output`** for outputs; **`Slots.written`** lists the outputs. -/

namespace ShaderMachine

/-- The number of input locations. -/
def inputLocations : Nat := 64

/-- The number of output locations. -/
def outputLocations : Nat := 8

/-- The data at the output locations. -/
abbrev Outputs := Vector (Option Bytes) outputLocations

/-- The data at the interface locations. -/
structure Slots where
  /-- The data at the input locations. -/
  inputs : Vector (Option Bytes) inputLocations
  /-- The data at the output locations. -/
  outputs : Outputs

namespace Slots

/-- No data at any output location. -/
def noOutputs : Outputs :=
  Vector.replicate outputLocations none

/-- No data at any location. -/
def empty : Slots :=
  ⟨Vector.replicate inputLocations none, noOutputs⟩

/-- Bind data at an input location, in place of what was bound there. -/
def bind (slots : Slots) (location : Word) (data : Bytes) : Except MachineError Slots :=
  if h : location.toNat < inputLocations then
    .ok { slots with inputs := slots.inputs.set location.toNat (some data) h }
  else
    .error (.locationOutOfRange location inputLocations)

/-- The data bound at an input location. -/
def input (slots : Slots) (location : Word) : Except MachineError Bytes :=
  if h : location.toNat < inputLocations then
    match slots.inputs[location.toNat] with
    | some data => .ok data
    | none => .error (.missingInput location)
  else
    .error (.locationOutOfRange location inputLocations)

/-- Write data to an output location. -/
def write (slots : Slots) (location : Word) (data : Bytes) : Except MachineError Slots :=
  if h : location.toNat < outputLocations then
    .ok { slots with outputs := slots.outputs.set location.toNat (some data) h }
  else
    .error (.locationOutOfRange location outputLocations)

/-- The data written to an output location. -/
def output (slots : Slots) (location : Word) : Except MachineError Bytes :=
  if h : location.toNat < outputLocations then
    match slots.outputs[location.toNat] with
    | some data => .ok data
    | none => .error (.noOutputData location)
  else
    .error (.locationOutOfRange location outputLocations)

/-- The output locations that hold data, with the data. -/
def written (slots : Slots) : List (Nat × Bytes) :=
  slots.outputs.toList.zipIdx.filterMap fun (slot, location) =>
    slot.map fun data => (location, data)

end Slots

end ShaderMachine
