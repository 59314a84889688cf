import ShaderMachine.Proofs.RepeatedCalls

/-! # What a call writes

A call writes to output locations only through stores to output variables, and what it writes
counts only if the call completes. Whatever comes of the call, it leaves the inputs, the names, the
decorations and the counts of the setup as they are.

* **`Table.outputWrite?`** — what a store writes to an output location.
* **`Machine.outputWrites`** — what instructions write one after the other.
* **`Slots.output_writes`** — a location holds what is written to it last.
* **`Machine.Transacts`** — a call writes all of its outputs or none.
* **`Machine.call_transacts`** — every call is like that. -/

namespace ShaderMachine

/-! ## Writing to output locations -/

/-- The location of a variable that is in output storage and has one. -/
def Record.outputLocation? (record : Record) : Option Word :=
  match record.definition with
  | .var contents => if contents.storage = .output then record.location? else none
  | _ => none

/-- What an instruction writes to an output location: a store through an output variable that is
at one writes the bytes of the stored value. -/
def Table.outputWrite? (table : Table) (instruction : Instruction) : Option (Word × Bytes) :=
  match Opcode.ofNumber? instruction.opcode, instruction.operands with
  | some .store, pointer :: object :: _ => do
      let record ← (table.get pointer).toOption
      let location ← record.outputLocation?
      let value ← (table.value object).toOption
      return (location, value.bytes)
  | _, _ => none

namespace Slots

variable {slots last : Slots} {location : Word} {data : Bytes}

/-- Write data to output locations one after the other. -/
def writes (slots : Slots) (written : List (Word × Bytes)) : Except MachineError Slots :=
  written.foldlM (fun slots write => slots.write write.1 write.2) slots

/-- What is written last to a location, if anything is. -/
def lastWrite? (location : Word) (written : List (Word × Bytes)) : Option Bytes :=
  (written.reverse.find? fun write => write.1 = location).map Prod.snd

/-- A location holds what is written to it, and the others what they held. -/
theorem output_write (stored : slots.write location data = .ok last) (other : Word) :
    last.output other = if other = location then .ok data else slots.output other := by
  unfold write at stored
  split at stored
  · rename_i inside
    cases stored
    unfold output
    by_cases same : other = location
    · subst same
      simp [inside]
    · have apart : location.toNat ≠ other.toNat := fun eq => same (UInt32.toNat_inj.mp eq).symm
      simp only [if_neg same, Vector.getElem_set_ne _ _ apart]
  · cases stored

/-- A location holds what is written to it last, or what it held. -/
theorem output_writes {written : List (Word × Bytes)} (stored : slots.writes written = .ok last)
    (location : Word) :
    last.output location =
      match lastWrite? location written with
      | some data => .ok data
      | none => slots.output location := by
  induction written generalizing slots with
  | nil =>
      cases stored
      rfl
  | cons write written hyp =>
      rw [writes, List.foldlM_cons] at stored
      obtain ⟨mid, first, others⟩ := exists_of_bind stored
      rw [hyp others, output_write first, lastWrite?, lastWrite?, List.reverse_cons,
        List.find?_append]
      -- What is written later counts; otherwise it is the first one or what was there.
      cases written.reverse.find? fun write => write.1 = location with
      | some later => rfl
      | none =>
          by_cases same : write.1 = location
          · simp [same]
          · simp [same, Ne.symm same]

/-- A location that may be written to holds nothing as long as nothing is written. -/
theorem output_noOutputs (slots : Slots) (inside : location.toNat < outputLocations) :
    ({ slots with outputs := noOutputs } : Slots).output location =
      .error (.noOutputData location) := by
  simp [output, inside, noOutputs]

end Slots

/-! ## What instructions write -/

/-- A store with its operands is planned, and no other instruction is planned as a store. -/
theorem Table.plan?_eq_store_iff {table : Table} {instruction : Instruction} {pointer object : Id} :
    table.plan? instruction = some (.store pointer object) ↔
      Opcode.ofNumber? instruction.opcode = some .store ∧
        ∃ rest, instruction.operands = pointer :: object :: rest := by
  constructor
  · intro planned
    rw [Table.plan?.eq_def] at planned
    split at planned
    case h_9 rest known operands_eq =>
      cases planned
      exact ⟨known, rest, operands_eq⟩
    case h_12 =>
      split at planned
      · simp at planned
      · cases planned
    all_goals simp at planned
  · rintro ⟨known, rest, operands_eq⟩
    rw [Table.plan?.eq_def, known, operands_eq]

/-- A store writes to the location of its variable, and no other instruction writes to one. -/
theorem Table.outputWrite?_eq (table : Table) (instruction : Instruction) :
    table.outputWrite? instruction =
      match table.plan? instruction with
      | some (.store pointer object) => do
          let record ← (table.get pointer).toOption
          let location ← record.outputLocation?
          let value ← (table.value object).toOption
          return (location, value.bytes)
      | _ => none := by
  unfold Table.outputWrite?
  split
  · rename_i pointer object rest known operands_eq
    rw [Table.plan?_eq_store_iff.mpr ⟨known, rest, operands_eq⟩]
  · rename_i no_store
    split
    · rename_i pointer object planned
      obtain ⟨known, rest, operands_eq⟩ := Table.plan?_eq_store_iff.mp planned
      exact absurd operands_eq (no_store _ _ _ known)
    · rfl

namespace Machine

variable {configuration : Configuration} {machine next : Machine} {instruction : Instruction}

/-- What instructions write to output locations when they are executed one after the other. -/
def outputWrites (configuration : Configuration) :
    Machine → List Instruction → List (Word × Bytes)
  | _, [] => []
  | machine, instruction :: rest =>
      (machine.table.outputWrite? instruction).toList ++
        outputWrites configuration (machine.step configuration instruction).machine rest

/-- An effect that is no store leaves the slots as they are. -/
theorem slots_of_commit {effect : Effect} (no_store : effect.pointer? = none)
    (committed : machine.commit effect = ⟨next, .ok ()⟩) : next.slots = machine.slots := by
  have ends := machine.commitEnds effect
  rw [committed] at ends
  cases ends with
  | nothing => rfl
  | assigned replaced => rfl
  | stored ends => cases no_store

/-- An instruction that is executed writes what it says to an output location, and no other
instruction writes to one. -/
theorem writes_of_step {skipped : Bool}
    (stepped : machine.step configuration instruction = ⟨next, .ok skipped⟩) :
    machine.slots.writes (machine.table.outputWrite? instruction).toList = .ok next.slots := by
  rw [Table.outputWrite?_eq]
  rcases step_inv stepped with ⟨unplanned, rfl⟩ | ⟨plan, effect, planned, computed, committed⟩
  · rw [unplanned]
    rfl
  · rw [planned]
    cases plan with
    -- Only a store writes outputs, and only through a variable with a location.
    | store pointer object =>
        obtain ⟨value, is_value, computed⟩ := exists_of_bind computed
        cases computed
        obtain ⟨record, contents, found, is_variable, -, written⟩ := storeBytes_inv committed
        have location_eq : record.outputLocation? = outputLocation? machine.table pointer := by
          rw [outputLocation?_of_variable found is_variable, Record.outputLocation?, is_variable]
        simp only [found, is_value, Except.toOption, Option.bind_eq_bind, Option.bind_some,
          location_eq]
        cases place : outputLocation? machine.table pointer with
        | none =>
            rw [place] at written
            exact written
        | some location =>
            have written : machine.slots.write location value.bytes = .ok next.slots := by
              rw [place] at written
              exact written
            refine (?_ : (machine.slots.write location value.bytes).bind pure = _)
            rw [written]
            rfl
    | _ =>
        rw [slots_of_commit (Plan.target?_of_compute computed).2 committed]
        rfl

/-- Instructions that are executed write what they say. -/
theorem Runs.writes {instructions : List Instruction}
    (runs : Runs configuration machine instructions next) :
    machine.slots.writes (outputWrites configuration machine instructions) = .ok next.slots := by
  induction runs with
  | nil machine => rfl
  | cons stepped runs hyp =>
      rw [outputWrites, stepped, Slots.writes, List.foldlM_append]
      have first := writes_of_step stepped
      rw [Slots.writes] at first
      rw [first]
      exact hyp

/-! ## Calls -/

/-- Tables that are alike have the same names and decorations. -/
theorem annotated_of_alike {table next : Table} (alike : table.Alike next) (id : Id) :
    (next.get id).map (fun record => (record.name, record.decorations)) =
      (table.get id).map fun record => (record.name, record.decorations) := by
  unfold Table.get
  rw [alike.bound]
  split
  · simp only [Except.map, (alike.records id).name, (alike.records id).decorations]
  · rfl

/-- Whether a call writes all of its outputs or none, and leaves the rest alone. -/
structure Transacts (configuration : Configuration) (machine : Machine)
    (outcome : Outcome Summary) : Prop where
  /-- The module, the inputs and the counts of the setup stay as they are. -/
  frame : machine.Frame outcome.machine
  /-- The names and the decorations stay as they are. -/
  annotated : ∀ id,
    (outcome.machine.table.get id).map (fun record => (record.name, record.decorations)) =
      (machine.table.get id).map fun record => (record.name, record.decorations)
  /-- A call that fails leaves the outputs as they were. -/
  failed : ∀ error, outcome.result = .error error →
    outcome.machine.slots.outputs = machine.slots.outputs
  /-- After a call that completes, a location holds what the body writes to it last, and nothing if
  the body writes nothing to it. -/
  completed : ∀ summary, outcome.result = .ok summary →
    ∃ start stop, machine.bodyBounds summary.function = .ok (start, stop) ∧
      ∀ location : Word, location.toNat < outputLocations →
        outcome.machine.slots.output location =
          match Slots.lastWrite? location (outputWrites configuration
            (machine.withOutputs Slots.noOutputs) (machine.body start stop)) with
          | some data => .ok data
          | none => .error (.noOutputData location)

/-- A call of a function writes all of its outputs or none. -/
theorem transacts_call (configuration : Configuration) (machine : Machine) (id : Id) :
    machine.Transacts configuration (machine.call configuration id) := by
  refine ⟨frame_call configuration machine id,
    annotated_of_alike (call_changes configuration machine id).alike, ?_, ?_⟩
  · intro error failed
    have ends := machine.callEnds configuration id
    generalize machine.call configuration id = outcome at ends failed ⊢
    cases ends with
    | unbound bounds => rfl
    | completed bounds ran => cases failed
    | failed bounds ran => rfl
  · intro summary completed
    have called := Outcome.eq_of_result completed
    obtain ⟨start, stop, bounds, runs⟩ := call_inv called
    have is_function : summary.function = id := by rw [summary_of_call bounds completed]
    refine ⟨start, stop, ?_, fun location inside => ?_⟩
    · rw [is_function]
      exact bounds
    -- The outputs are empty before the body is run.
    · have empty : (machine.withOutputs Slots.noOutputs).slots.output location =
          .error (.noOutputData location) := Slots.output_noOutputs machine.slots inside
      rw [Slots.output_writes runs.writes location, empty]

/-- Calls of functions and of entry points write all of their outputs or none. -/
theorem call_transacts (configuration : Configuration) (machine : Machine) :
    (∀ id, machine.Transacts configuration (machine.call configuration id)) ∧
      ∀ name, machine.Transacts configuration (machine.callEntryPoint configuration name) := by
  refine ⟨transacts_call configuration machine, fun name => ?_⟩
  rcases callEntryPoint_cases configuration machine name with missing | ⟨id, -, found⟩
  · rw [missing]
    exact ⟨.refl machine, fun _ => rfl, fun _ _ => rfl, fun _ called => by cases called⟩
  · rw [found]
    exact transacts_call configuration machine id

end Machine

end ShaderMachine
