import ShaderMachine.Proofs.ReachableLayout
import ShaderMachine.Proofs.SameSteps

/-! # Instructions that compute a value

A load, and an instruction that builds a composite or takes one apart, computes bytes of the size of
a type and gives them to its result. It either does just that, or fails and leaves the machine as it
is.

* **`Machine.Attained`** — the machines in the middle of a call, too.
* **`Machine.Gives`** — one machine is another one with a value given to an ID.
* **`Machine.ComputesValue`** — what the handler of an instruction computes for its result.
* **`Machine.step_of_computes`** — an instruction gives what it computes, or fails and does nothing.
  -/

namespace ShaderMachine

/-! ## Tables in which an ID is given a value -/

/-- Whether an ID may be given a value: it stands for nothing, or for a value already. -/
def Table.MayHold (table : Table) (id : Id) : Prop :=
  ∃ record, table.get id = .ok record ∧
    (record.definition = .unset ∨ record.definition.kind = .constant)

namespace Machine

variable {configuration : Configuration} {machine next : Machine} {instruction : Instruction}
  {id : Id} {value : Value}

/-- Whether a machine becomes another one by giving an ID a value and nothing else. -/
def Gives (machine : Machine) (id : Id) (value : Value) (next : Machine) : Prop :=
  ∃ record, machine.table.get id = .ok record ∧
    (record.definition = .unset ∨ record.definition.kind = .constant) ∧
    next = { machine with
      table := machine.table.put id { record with definition := .constant value } }

/-- An effect that assigns a value gives it, if the ID may be given one, and otherwise fails and
changes nothing. -/
theorem commit_assign_cases (machine : Machine) (id : Id) (value : Value) :
    (∃ next, machine.commit (.assign id (.constant value)) = ⟨next, .ok ()⟩ ∧
        machine.Gives id value next) ∨
      ∃ error, machine.commit (.assign id (.constant value)) = ⟨machine, .error error⟩ ∧
        ¬ machine.table.MayHold id := by
  rw [commit]
  cases replaced : machine.table.replace id (.constant value) with
  | ok table =>
      obtain ⟨record, found, before, rfl⟩ := Table.replace_inv replaced
      exact .inl ⟨_, rfl, record, found, before, rfl⟩
  | error error =>
      refine .inr ⟨error, rfl, ?_⟩
      rintro ⟨record, found, before⟩
      cases replaced.symm.trans (Table.replace_eq found before)

namespace Gives

variable (gives : machine.Gives id value next)

include gives

/-- The ID stands for the value. -/
theorem value_eq : next.table.value id = .ok value := by
  obtain ⟨record, found, -, rfl⟩ := gives
  exact Table.value_eq_ok_iff.mpr ⟨_, Table.get_put_self found, rfl⟩

/-- All other records stay. -/
theorem get_of_ne {other : Id} (different : other ≠ id) :
    next.table.get other = machine.table.get other := by
  obtain ⟨record, found, -, rfl⟩ := gives
  exact Table.get_put_of_ne different

/-- The values of all other IDs stay. -/
theorem value_of_ne {other : Id} (different : other ≠ id) :
    next.table.value other = machine.table.value other := by
  rw [Table.value, Table.value, Table.defined, Table.defined, gives.get_of_ne different]

/-- No type comes or goes. -/
theorem typeOf_iff {other : Id} {type : DataType} :
    next.table.typeOf other = .ok type ↔ machine.table.typeOf other = .ok type := by
  obtain ⟨record, found, before, rfl⟩ := gives
  rw [Table.typeOf_eq_ok_iff, Table.typeOf_eq_ok_iff]
  by_cases same : other = id
  · subst same
    -- Neither what the ID stood for nor the value is a type.
    constructor
    · rintro ⟨present, read, is_type⟩
      cases (Table.get_put_self found).symm.trans read
      cases is_type
    · rintro ⟨present, read, is_type⟩
      cases found.symm.trans read
      rw [is_type] at before
      rcases before with unset | constant
      · cases unset
      · cases constant
  · simp only [Table.get_put_of_ne same]

/-- No size changes. -/
theorem sizeOf_iff {other : Id} {size : Nat} :
    next.table.sizeOf other = .ok size ↔ machine.table.sizeOf other = .ok size := by
  rw [Table.sizeOf_eq_ok_iff, Table.sizeOf_eq_ok_iff]
  simp only [gives.typeOf_iff]

/-- The same IDs may be given values. -/
theorem mayHold_iff {other : Id} : next.table.MayHold other ↔ machine.table.MayHold other := by
  obtain ⟨record, found, before, rfl⟩ := gives
  by_cases same : other = id
  · subst same
    exact ⟨fun _ => ⟨record, found, before⟩,
      fun _ => ⟨_, Table.get_put_self found, .inr rfl⟩⟩
  · rw [Table.MayHold, Table.MayHold, Table.get_put_of_ne same]

end Gives

/-! ## Steps -/

/-- Whether the handler of an instruction gives a result the bytes that are computed, as a value of
a type, and stops reading at a cursor. -/
def ComputesValue (machine : Machine) (instruction : Instruction) (type result : Id)
    (computed : Except MachineError Bytes) (cursor : Cursor) : Prop :=
  ∃ handler, executionTable.get? instruction.opcode = some handler ∧
    handler machine.table machine.slots instruction instruction.cursor =
      OperandReader.compute (computed >>= fun bytes =>
        finishValue machine.table result type (some bytes)) cursor

/-- A handler that ends in a fatal fault ends the step and changes nothing. -/
theorem step_of_fatal {handler : ExecutionHandler} {error : MachineError}
    (registered : executionTable.get? instruction.opcode = some handler)
    (failed : handler machine.table machine.slots instruction instruction.cursor = .error error)
    (fatal : error.isFatal = true) :
    machine.step configuration instruction = ⟨machine, .error error⟩ := by
  rw [step, registered]
  simp only [handle, failed, fatal, Bool.true_or, if_true]

/-- An instruction for which nothing can be computed, or bytes of another size than that of the
type, fails and changes nothing. -/
theorem step_of_not_computed {type result : Id} {computed : Except MachineError Bytes}
    {cursor : Cursor} {error : MachineError}
    (computes : machine.ComputesValue instruction type result computed cursor)
    (sound : ∀ instruction, Sound machine.table instruction computed)
    (failed : (computed >>= fun bytes => finishValue machine.table result type (some bytes)) =
      .error error) :
    machine.step configuration instruction = ⟨machine, .error error⟩ := by
  obtain ⟨handler, registered, handled⟩ := computes
  have sound_value (other : Instruction) : Sound machine.table other (computed >>= fun bytes =>
      finishValue machine.table result type (some bytes)) :=
    (sound other).bind fun bytes _ => sound_finishValue result type (some bytes)
  rw [failed] at handled
  exact step_of_fatal registered handled (Sound.isFatal sound_value failed)

/-- A computed value is accepted if it has the size of its type. -/
theorem finishValue_of_sizeOf {table : Table} {result type : Id} {bytes : Bytes}
    (size : table.sizeOf type = .ok bytes.length) :
    finishValue table result type (some bytes) =
      .ok (.assign result (.constant ⟨type, bytes⟩)) := by
  rw [finishValue, size]
  exact if_pos rfl

/-- A computed value is accepted only if it has the size of its type, and is given to the result. -/
theorem sizeOf_of_finishValue {table : Table} {result type : Id} {bytes : Bytes} {effect : Effect}
    (finished : finishValue table result type (some bytes) = .ok effect) :
    table.sizeOf type = .ok bytes.length ∧ effect = .assign result (.constant ⟨type, bytes⟩) := by
  obtain ⟨size, has_size, finished⟩ := exists_of_bind finished
  split at finished
  · rename_i length_eq
    cases finished
    exact ⟨length_eq ▸ has_size, rfl⟩
  · cases finished

/-- An instruction gives its result what it computes, or fails and changes nothing; it fails if
nothing can be computed, if that is not of the size of the type, or if the result may not be given
a value. -/
theorem step_of_computes (configuration : Configuration) {type result : Id}
    {computed : Except MachineError Bytes} {cursor : Cursor}
    (computes : machine.ComputesValue instruction type result computed cursor)
    (at_end : cursor.ahead = [])
    (sound : ∀ instruction, Sound machine.table instruction computed) :
    (∃ next bytes, machine.step configuration instruction = ⟨next, .ok false⟩ ∧
        computed = .ok bytes ∧ machine.table.sizeOf type = .ok bytes.length ∧
        machine.Gives result ⟨type, bytes⟩ next) ∨
      ∃ error, machine.step configuration instruction = ⟨machine, .error error⟩ ∧
        ∀ bytes, computed = .ok bytes → machine.table.sizeOf type = .ok bytes.length →
          ¬ machine.table.MayHold result := by
  cases yielded : computed >>= fun bytes => finishValue machine.table result type (some bytes) with
  | error error =>
      refine .inr ⟨error, step_of_not_computed computes sound yielded, ?_⟩
      rintro bytes rfl size
      cases yielded.symm.trans (finishValue_of_sizeOf size)
  | ok effect =>
      obtain ⟨bytes, rfl, finished⟩ := exists_of_bind yielded
      obtain ⟨has_size, rfl⟩ := sizeOf_of_finishValue finished
      obtain ⟨handler, registered, handled⟩ := computes
      rw [yielded] at handled
      -- What is computed is right, so only the result may stand in the way.
      rcases machine.commit_assign_cases result ⟨type, bytes⟩ with
        ⟨next, committed, gives⟩ | ⟨error, refused, no_place⟩
      · exact .inl ⟨next, bytes, step_of_yields registered handled at_end committed, rfl, has_size,
          gives⟩
      · exact .inr ⟨error, step_of_yields registered handled at_end refused,
          fun _ _ _ => no_place⟩

/-- Whether an instruction succeeds and does nothing but give an ID a value. -/
def Yields (configuration : Configuration) (machine : Machine) (instruction : Instruction) (id : Id)
    (value : Value) : Prop :=
  ∃ next, machine.step configuration instruction = ⟨next, .ok false⟩ ∧ machine.Gives id value next

/-- Whether an instruction fails and changes nothing. -/
def Fails (configuration : Configuration) (machine : Machine) (instruction : Instruction) : Prop :=
  ∃ error, machine.step configuration instruction = ⟨machine, .error error⟩

section

variable {type result : Id} {computed : Except MachineError Bytes} {cursor : Cursor}
  (computes : machine.ComputesValue instruction type result computed cursor)
  (at_end : cursor.ahead = [])
  (sound : ∀ instruction, Sound machine.table instruction computed)

include computes at_end sound

/-- An instruction yields bytes that are computed for it, if they have the size of the type and its
result may be given a value. -/
theorem yields_iff {bytes : Bytes} :
    machine.Yields configuration instruction result ⟨type, bytes⟩ ↔
      computed = .ok bytes ∧ machine.table.sizeOf type = .ok bytes.length ∧
        machine.table.MayHold result := by
  rcases step_of_computes configuration computes at_end sound with
    ⟨next, given, stepped, rfl, size, gives⟩ | ⟨error, stepped, fails⟩
  · constructor
    · rintro ⟨next', stepped', gives'⟩
      cases stepped.symm.trans stepped'
      cases gives.value_eq.symm.trans gives'.value_eq
      obtain ⟨record, found, before, -⟩ := gives
      exact ⟨rfl, size, record, found, before⟩
    · rintro ⟨is, -, -⟩
      cases is
      exact ⟨next, stepped, gives⟩
  · constructor
    · rintro ⟨next', stepped', -⟩
      cases stepped.symm.trans stepped'
    · rintro ⟨is, size, holds⟩
      exact absurd holds (fails bytes is size)

/-- An instruction that yields nothing fails. -/
theorem fails_iff : machine.Fails configuration instruction ↔
    ∀ bytes, ¬ machine.Yields configuration instruction result ⟨type, bytes⟩ := by
  constructor
  · rintro ⟨error, failed⟩ bytes ⟨next, stepped, -⟩
    cases failed.symm.trans stepped
  · intro nothing
    rcases step_of_computes configuration computes at_end sound with
      ⟨next, bytes, stepped, -, -, gives⟩ | ⟨error, stepped, -⟩
    · exact absurd ⟨next, stepped, gives⟩ (nothing bytes)
    · exact ⟨error, stepped⟩

end

/-! ## Machines in the middle of calls -/

/-- The machines that a module leads to, with those in the middle of calls: outputs are set aside
and put back, and instructions are executed, whether that succeeds or not. -/
inductive Attained (loaded : Module) : Machine → Prop
  /-- A machine is reached between calls. -/
  | reachable {machine : Machine} (reachable : Reachable loaded machine) : Attained loaded machine
  /-- Other outputs are set. -/
  | outputs {machine : Machine} (attained : Attained loaded machine) (outputs : Outputs) :
      Attained loaded (machine.withOutputs outputs)
  /-- An instruction is executed. -/
  | step {machine : Machine} (attained : Attained loaded machine) (configuration : Configuration)
      (instruction : Instruction) :
      Attained loaded (machine.step configuration instruction).machine

/-- The tables of machines in the middle of calls are laid out. -/
theorem Attained.table_layout {loaded : Module} (attained : Attained loaded machine) :
    machine.table.Layout := by
  induction attained with
  | reachable reachable => exact reachable.table_layout
  | outputs _ _ hyp => exact hyp
  | @step machine _ configuration instruction hyp =>
      exact (step_change configuration machine instruction).1.layout hyp

end Machine

end ShaderMachine
