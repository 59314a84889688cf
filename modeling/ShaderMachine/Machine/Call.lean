import ShaderMachine.Machine.Setup

/-! # Machines and calls

A machine is a module with the records its declarations made and the data at its interface. A
call runs the body of one function; what it writes to output locations counts only if it
completes.

**`Machine`** is the machine, and **`Machine.ofModule`** sets one up; **`Machine.commit`** carries
out an effect, **`Machine.step`** executes an instruction, and **`Machine.run`** a sequence of
them; **`Machine.call`** calls a function and **`Machine.callEntryPoint`** an entry point by name;
**`runEntryPoint`** does everything once. -/

namespace ShaderMachine

/-- A module set up to be run. -/
structure Machine where
  /-- The module. -/
  loaded : Module
  /-- The records of its IDs. -/
  table : Table
  /-- The data at its interface locations. -/
  slots : Slots
  /-- The number of times an ID got a name that differs from the one it had. -/
  nameAllocations : Nat
  /-- The number of instructions that were skipped as unsupported when it was set up. -/
  setupUnsupported : Nat

/-- What a completed call reports. -/
structure Summary where
  /-- The function that was called. -/
  function : Id
  /-- The number of instructions executed. -/
  executed : Nat
  /-- The number of those that were skipped as unsupported. -/
  unsupported : Nat
  deriving DecidableEq, Repr

/-- A machine after an attempt, and what came of it. -/
structure Outcome (α : Type) where
  /-- The machine afterwards. -/
  machine : Machine
  /-- The result, or the fault that ended the attempt. -/
  result : Except MachineError α

namespace Machine

/-- Set a machine up. -/
def ofModule (configuration : Configuration) (loaded : Module) : Except MachineError Machine :=
  (Setup.run configuration loaded).map fun setup =>
    ⟨loaded, setup.table, .empty, setup.nameAllocations, setup.unsupported⟩

/-- Bind data at an input location. -/
def bind (machine : Machine) (location : Word) (data : Bytes) : Except MachineError Machine :=
  (machine.slots.bind location data).map fun slots => { machine with slots }

/-! ## Effects -/

/-- The data a variable holds after a store, which must be of the variable's size and go to
storage that may be written. -/
def storedData (pointer object : Id) (bytes : Bytes) (contents : Variable) :
    Except MachineError Bytes :=
  if !contents.storage.isWritable then
    .error (.readOnlyStorage pointer contents.storage)
  else if contents.data.length ≠ bytes.length then
    .error (.typeMismatch object (.valueOf contents.data.length) (.bytes bytes.length))
  else
    .ok bytes

/-- The output location that a store through a pointer also writes to. -/
def outputLocation? (table : Table) (pointer : Id) : Option Word :=
  match table.get pointer with
  | .error _ => none
  | .ok record =>
      match record.definition with
      | .var contents => if contents.storage = .output then record.location? else none
      | _ => none

/-- Store bytes through a pointer. The variable is written before the output location. -/
def storeBytes (machine : Machine) (pointer object : Id) (bytes : Bytes) : Outcome Unit :=
  match machine.table.changeData pointer (storedData pointer object bytes) with
  | (table, some error) => ⟨{ machine with table }, .error error⟩
  | (table, none) =>
      match outputLocation? machine.table pointer with
      | none => ⟨{ machine with table }, .ok ()⟩
      | some location =>
          match machine.slots.write location bytes with
          | .ok slots => ⟨{ machine with table, slots }, .ok ()⟩
          | .error error => ⟨{ machine with table }, .error error⟩

/-- Carry out an effect. -/
def commit (machine : Machine) : Effect → Outcome Unit
  | .nothing => ⟨machine, .ok ()⟩
  | .assign id definition =>
      match machine.table.replace id definition with
      | .ok table => ⟨{ machine with table }, .ok ()⟩
      | .error error => ⟨machine, .error error⟩
  | .store pointer object bytes => machine.storeBytes pointer object bytes

/-! ## Steps -/

/-- Run a handler and carry out its effect; then every operand must have been read. -/
def handle (machine : Machine) (instruction : Instruction) (handler : ExecutionHandler) :
    Outcome Unit :=
  match handler machine.table machine.slots instruction instruction.cursor with
  | .error error => ⟨machine, .error error⟩
  | .ok (effect, cursor) =>
      match machine.commit effect with
      | ⟨next, .error error⟩ => ⟨next, .error error⟩
      | ⟨next, .ok ()⟩ =>
          if cursor.isEmpty then ⟨next, .ok ()⟩
          else ⟨next, .error (.binary
            (instruction.malformed (.unreadOperands cursor.remaining)))⟩

/-- Execute one instruction; the result says whether it was skipped as unsupported. -/
def step (configuration : Configuration) (machine : Machine) (instruction : Instruction) :
    Outcome Bool :=
  match executionTable.get? instruction.opcode with
  | none =>
      if configuration.strict then
        ⟨machine, .error (.unsupportedOpcode instruction.opcode instruction.offset)⟩
      else
        ⟨machine, .ok true⟩
  | some handler =>
      match machine.handle instruction handler with
      | ⟨next, .ok ()⟩ => ⟨next, .ok false⟩
      | ⟨next, .error error⟩ =>
          if error.isFatal || configuration.strict then ⟨next, .error error⟩
          else ⟨next, .ok true⟩

/-- Execute instructions in order, after `executed` others of which `unsupported` were skipped.
The result counts all of them. -/
def run (configuration : Configuration) (executed unsupported : Nat) (machine : Machine) :
    List Instruction → Outcome (Nat × Nat)
  | [] => ⟨machine, .ok (executed, unsupported)⟩
  | instruction :: rest =>
      if configuration.maxInstructions ≤ executed then
        ⟨machine, .error (.executionLimitExceeded configuration.maxInstructions)⟩
      else
        match machine.step configuration instruction with
        | ⟨next, .error error⟩ => ⟨next, .error error⟩
        | ⟨next, .ok skipped⟩ =>
            run configuration (executed + 1) (unsupported + if skipped then 1 else 0) next rest

/-! ## Calls -/

/-- The instructions whose offsets lie from `start` up to below `stop`. -/
def body (machine : Machine) (start stop : Nat) : List Instruction :=
  (machine.loaded.instructions.dropWhile fun instruction => instruction.offset < start).takeWhile
    fun instruction => instruction.offset < stop

/-- The places where the body of a function starts and ends. -/
def bodyBounds (machine : Machine) (id : Id) : Except MachineError (Nat × Nat) := do
  let record ← machine.table.get id
  match record.definition.function? with
  | none => .error (.undefinedId id)
  | some function =>
      match function.stop with
      | none => .error (.unterminatedFunction id)
      | some stop => return (function.start, stop)

/-- The machine with other data at its output locations. -/
def withOutputs (machine : Machine) (outputs : Outputs) : Machine :=
  { machine with slots := { machine.slots with outputs } }

/-- Call a function. The outputs start empty; if the call fails, those of the last completed call
are put back. -/
def call (configuration : Configuration) (machine : Machine) (id : Id) : Outcome Summary :=
  match machine.bodyBounds id with
  | .error error => ⟨machine, .error error⟩
  | .ok (start, stop) =>
      match (machine.withOutputs Slots.noOutputs).run configuration 0 0
          (machine.body start stop) with
      | ⟨next, .ok (executed, unsupported)⟩ => ⟨next, .ok ⟨id, executed, unsupported⟩⟩
      | ⟨next, .error error⟩ => ⟨next.withOutputs machine.slots.outputs, .error error⟩

/-- Call the entry point of a name. -/
def callEntryPoint (configuration : Configuration) (machine : Machine) (name : String) :
    Outcome Summary :=
  match machine.table.entryPoint? name with
  | none => ⟨machine, .error (.entryPointNotFound name)⟩
  | some id => machine.call configuration id

end Machine

/-- Load a module, bind inputs by location, call one of its entry points and list the outputs. -/
def runEntryPoint (bytes : Bytes) (name : String) (inputs : List (Word × Bytes)) :
    Except MachineError (List (Nat × Bytes)) := do
  let loaded ← (Module.ofBytes bytes).mapError .binary
  let machine ← Machine.ofModule {} loaded
  let machine ← inputs.foldlM (fun machine input => machine.bind input.1 input.2) machine
  let outcome := machine.callEntryPoint {} name
  let _ ← outcome.result
  return outcome.machine.slots.written

end ShaderMachine
