import ShaderMachine.Proofs.LaterTables
import ShaderMachine.Proofs.ReachableLayout

/-! # Handlers that fail

An executed instruction fails while its handler reads what it needs, or while the effect that it
yields is carried out. Either way all records and slots stay as they are, with one exception: a
store through an output variable at a location that does not exist has written the variable when it
fails.

* **`Machine.HandlerFails`** — the handler of an instruction ends in a fault.
* **`Machine.commit_failed`** — an effect that cannot be carried out changes no slots, and no record
  unless an output location is out of range.
* **`Machine.HandlerFails.unchanged`** — an instruction of which the handler fails changes nothing.
* **`Machine.stored_before_failure`** — the exception. -/

namespace ShaderMachine

/-! ## Attempts that fail -/

/-- Writing a record over itself changes no record. -/
theorem Table.get_put_same {table : Table} {id other : Id} {record : Record}
    (found : table.get id = .ok record) : (table.put id record).get other = table.get other := by
  by_cases same : other = id
  · subst same
    rw [get_put_self found, found]
  · exact get_put_of_ne same

/-- An attempt to write to a variable that fails changes no record, though the ID may count as
written to. -/
theorem Table.get_changeData_of_error {table next : Table} {id other : Id}
    {change : Variable → Except MachineError Bytes} {error : MachineError}
    (failed : table.changeData id change = (next, some error)) :
    next.get other = table.get other := by
  unfold changeData at failed
  split at failed
  · cases failed
    rfl
  · rename_i record found
    split at failed
    · split at failed
      · cases failed
        rfl
      · cases failed
    · cases failed
      exact get_put_same found
    · cases failed
      rfl

/-- Writing to an output location fails only if there is no such location. -/
theorem Slots.le_of_write_error {slots : Slots} {location : Word} {data : Bytes}
    {error : MachineError} (failed : slots.write location data = .error error) :
    outputLocations ≤ location.toNat := by
  unfold write at failed
  split at failed
  · cases failed
  · rename_i outside
    exact Nat.le_of_not_lt outside

/-- Whether the output location to which a store through an ID also writes exists, if there is one.
-/
def Table.LocatesOutput (table : Table) (pointer : Id) : Prop :=
  ∀ location, Machine.outputLocation? table pointer = some location →
    location.toNat < outputLocations

namespace Machine

variable {configuration : Configuration} {machine : Machine} {instruction : Instruction}
  {error : MachineError}

/-- A store that fails changes no slots, and no record if its output location, should it have one,
exists. -/
theorem storeBytes_failed {pointer object : Id} {bytes : Bytes}
    (failed : (machine.storeBytes pointer object bytes).result = .error error) :
    (machine.storeBytes pointer object bytes).machine.slots = machine.slots ∧
      (machine.table.LocatesOutput pointer → ∀ id,
        (machine.storeBytes pointer object bytes).machine.table.get id = machine.table.get id) := by
  have ends := machine.storeEnds pointer object bytes
  generalize machine.storeBytes pointer object bytes = outcome at ends failed ⊢
  cases ends with
  | refused attempt => exact ⟨rfl, fun _ id => Table.get_changeData_of_error attempt⟩
  | written attempt place => cases failed
  | output attempt place write => cases failed
  -- The variable is written; the only fault left is that of the location.
  | misplaced attempt place write =>
      refine ⟨rfl, fun exists_location => ?_⟩
      have outside := Slots.le_of_write_error write
      have inside := exists_location _ place
      omega

/-- An effect that cannot be carried out changes no slots, and no record if the output location that
it would be stored to, should there be one, exists. -/
theorem commit_failed {effect : Effect} (failed : (machine.commit effect).result = .error error) :
    (machine.commit effect).machine.slots = machine.slots ∧
      ((∀ pointer, effect.pointer? = some pointer → machine.table.LocatesOutput pointer) → ∀ id,
        (machine.commit effect).machine.table.get id = machine.table.get id) := by
  have ends := machine.commitEnds effect
  generalize committed : machine.commit effect = outcome at ends failed ⊢
  cases ends with
  | nothing => cases failed
  | assigned replaced => cases failed
  | unassigned replaced => exact ⟨rfl, fun _ _ => rfl⟩
  | @stored pointer object bytes _ ends =>
      rw [← committed] at failed ⊢
      obtain ⟨slots_eq, records_eq⟩ := storeBytes_failed failed
      exact ⟨slots_eq, fun located => records_eq (located pointer rfl)⟩

/-! ## Handlers that fail -/

/-- Whether the handler of an instruction ends in a fault, while it reads what it needs or while its
effect is carried out. -/
inductive HandlerFails (machine : Machine) (instruction : Instruction) (error : MachineError) : Prop
  /-- The handler yields no effect. -/
  | reads {handler : ExecutionHandler}
      (registered : executionTable.get? instruction.opcode = some handler)
      (failed : handler machine.table machine.slots instruction instruction.cursor = .error error) :
      HandlerFails machine instruction error
  /-- The effect that it yields cannot be carried out. -/
  | commits {handler : ExecutionHandler} {effect : Effect} {cursor : Cursor}
      (registered : executionTable.get? instruction.opcode = some handler)
      (yielded : handler machine.table machine.slots instruction instruction.cursor =
        .ok (effect, cursor))
      (failed : (machine.commit effect).result = .error error) :
      HandlerFails machine instruction error

/-- A step of an instruction with a handler that ends in a fault does so in the handler, unless
operands are left over. -/
theorem handlerFails_of_step {handler : ExecutionHandler}
    (registered : executionTable.get? instruction.opcode = some handler)
    (failed : (machine.step configuration instruction).result = .error error)
    (all_read : ∀ count, error ≠ .binary (instruction.malformed (.unreadOperands count))) :
    machine.HandlerFails instruction error := by
  have ends := machine.stepEnds configuration instruction
  generalize machine.step configuration instruction = outcome at ends failed
  cases ends with
  | unsupported missing strict => cases registered.symm.trans missing
  | passed missing lenient => cases failed
  | executed registered' handled => cases failed
  | skipped registered' handled harmless lenient => cases failed
  | failed registered' handled fatal =>
      cases failed
      cases registered.symm.trans registered'
      have ends := machine.handleEnds instruction handler
      rw [handled] at ends
      cases ends with
      | failed unreadable => exact .reads registered unreadable
      | refused yielded committed =>
          exact .commits registered yielded (congrArg Outcome.result committed)
      | leftOver yielded committed left_over => exact absurd rfl (all_read _)

/-- An instruction of which the handler fails changes neither slots nor counts. It changes no record
either, neither its name nor its decorations nor what the ID stands for, unless it is a store
through an output variable at a location that does not exist. -/
theorem HandlerFails.unchanged (configuration : Configuration)
    (fails : machine.HandlerFails instruction error) :
    machine.Frame (machine.step configuration instruction).machine ∧
      (machine.step configuration instruction).machine.slots = machine.slots ∧
      ((∀ pointer, instruction.storesTo? = some pointer → machine.table.LocatesOutput pointer) →
        ∀ id, (machine.step configuration instruction).machine.table.get id =
          machine.table.get id) := by
  refine ⟨frame_step configuration machine instruction, ?_⟩
  cases fails with
  | reads registered failed =>
      have same : (machine.step configuration instruction).machine = machine := by
        rw [step_machine configuration machine registered, handle, failed]
      rw [same]
      exact ⟨rfl, fun _ _ => rfl⟩
  | @commits handler effect cursor registered yielded failed =>
      obtain ⟨next, outcome⟩ : ∃ next, machine.commit effect = ⟨next, .error error⟩ :=
        ⟨_, Outcome.eq_of_result failed⟩
      have committed : (machine.step configuration instruction).machine =
          (machine.commit effect).machine := by
        rw [step_machine configuration machine registered, handle, yielded]
        simp only [outcome]
      rw [committed, ← (effect_of_handler registered yielded).2]
      exact commit_failed failed

/-- A store through an ID that stands for nothing fails, and the ID goes on to stand for nothing. -/
theorem unchanged_flagged : ∃ machine, Reachable flagged machine ∧
    machine.HandlerFails ⟨57, 62, [11, 8]⟩ (.undefinedId 11) ∧
    ∀ id, (machine.step {} ⟨57, 62, [11, 8]⟩).machine.table.get id = machine.table.get id := by
  have evaluated : ((ofModule {} flagged).toOption.any fun machine =>
      (machine.step {} ⟨57, 62, [11, 8]⟩).result = .error (.undefinedId 11) &&
        outputLocation? machine.table 11 = none) = true := by decide +kernel
  obtain ⟨machine, set_up, evaluated⟩ := exists_of_any evaluated
  rw [Bool.and_eq_true, decide_eq_true_eq, decide_eq_true_eq] at evaluated
  have registered : executionTable.get? 62 = some Execution.store := rfl
  have fails : machine.HandlerFails ⟨57, 62, [11, 8]⟩ (.undefinedId 11) :=
    handlerFails_of_step registered evaluated.1 (by simp)
  refine ⟨machine, .setUp set_up, fails, (fails.unchanged {}).2.2 fun pointer stores => ?_⟩
  cases stores
  intro location located
  cases evaluated.2.symm.trans located

/-- A module whose entry point stores one to an output variable at the location eight. -/
def misplaced : Module where
  header := .ofBound 9 0
  instructions := [⟨5, 15, [4, 1, 0x6E69616D, 0, 2]⟩, ⟨11, 71, [2, 30, 8]⟩, ⟨15, 19, [3]⟩,
    ⟨17, 33, [4, 3]⟩, ⟨20, 22, [5, 32]⟩, ⟨23, 32, [6, 3, 5]⟩, ⟨27, 43, [5, 7, 0x3F800000]⟩,
    ⟨31, 59, [6, 2, 3]⟩, ⟨35, 54, [3, 1, 0, 4]⟩, ⟨40, 248, [8]⟩, ⟨42, 62, [2, 7]⟩, ⟨45, 253, []⟩,
    ⟨46, 56, []⟩]
  metadata := {}
  instructionCount := 13

/-- The store fails, since there is no output location eight, but the variable holds the one. -/
theorem stored_before_failure : ∃ machine before after, Reachable misplaced machine ∧
    machine.HandlerFails ⟨42, 62, [2, 7]⟩ (.locationOutOfRange 8 outputLocations) ∧
    machine.table.variableAt 2 = .ok before ∧ before.data = [0, 0, 0, 0] ∧
    (machine.step {} ⟨42, 62, [2, 7]⟩).machine.table.variableAt 2 = .ok after ∧
    after.data = [0, 0, 128, 63] := by
  have evaluated : ((ofModule {} misplaced).toOption.any fun machine =>
      (machine.step {} ⟨42, 62, [2, 7]⟩).result =
        .error (.locationOutOfRange 8 outputLocations) &&
      (machine.table.variableAt 2).toOption.any (fun before => before.data = [0, 0, 0, 0]) &&
      ((machine.step {} ⟨42, 62, [2, 7]⟩).machine.table.variableAt 2).toOption.any
        fun after => after.data = [0, 0, 128, 63]) = true := by decide +kernel
  obtain ⟨machine, set_up, evaluated⟩ := exists_of_any evaluated
  simp only [Bool.and_eq_true, decide_eq_true_eq] at evaluated
  obtain ⟨⟨failed, held⟩, holds⟩ := evaluated
  obtain ⟨before, is_variable, empty⟩ := exists_of_any held
  obtain ⟨after, is_variable', stored⟩ := exists_of_any holds
  have registered : executionTable.get? 62 = some Execution.store := rfl
  exact ⟨machine, before, after, .setUp set_up, handlerFails_of_step registered failed (by simp),
    is_variable, of_decide_eq_true empty, is_variable', of_decide_eq_true stored⟩

end Machine

end ShaderMachine
