import ShaderMachine.Proofs.RepeatedCalls
import ShaderMachine.Proofs.SameReadings

/-! # Executing the same instruction on another machine

A machine whose table shows what that of another one shows skips what the other one skips, and
carries out the effect that the other one carries out. Only carrying it out may end differently.

* **`Machine.step_of_skips`** and **`Machine.step_of_yields`** — what decides how a step ends.
* **`Machine.step_again`** — a step that succeeds, on another machine. -/

namespace ShaderMachine

/-- An instruction that is skipped is skipped with a table that shows what the first one shows. -/
theorem Table.Shows.skips {table next : Table} {instruction instruction' : Instruction}
    (shows : table.Shows next) (opcode_eq : instruction'.opcode = instruction.opcode)
    (operands_eq : instruction'.operands = instruction.operands)
    (skips : table.skips instruction = true) : next.skips instruction' = true := by
  rw [Table.skips] at skips ⊢
  rw [opcode_eq, operands_eq]
  split at skips
  · rename_i first second setId number rest _ _
    split at skips
    · rename_i set is_set
      rw [(shows setId).follows_extendedSet set is_set]
      exact skips
    · cases skips
  · exact skips

/-- What is computed successfully is read without reading a word. -/
theorem OperandReader.compute_ok_bind {α β : Type} (value : α) (f : α → OperandReader β) :
    (compute (.ok value) >>= f) = f value :=
  rfl

namespace Machine

open OperandReader

variable {configuration other : Configuration} {machine next : Machine}
  {instruction instruction' : Instruction}

/-- The handler of an instruction that is skipped ends in a fault that is not fatal. -/
theorem exists_harmless_of_skips {table : Table} (slots : Slots) {handler : ExecutionHandler}
    (registered : executionTable.get? instruction.opcode = some handler)
    (skips : table.skips instruction = true) :
    ∃ error, handler table slots instruction instruction.cursor = .error error ∧
      error.isFatal = false := by
  by_cases extended : Opcode.ofNumber? instruction.opcode = some .extInst
  · have is_extInst := registered
    rw [Dispatch.get?_of_known _ extended] at is_extInst
    cases is_extInst
    rw [Table.skips] at skips
    split at skips
    · rename_i first second setId number rest _ operands_eq
      split at skips
      · rename_i set is_set
        have missing : set.instruction? number = none := Option.isNone_iff_eq_none.mp skips
        obtain ⟨cursor, -, extInst_eq⟩ := Execution.extInst_operands table slots operands_eq
        refine ⟨.unsupportedExtended set.name number instruction.offset, ?_, rfl⟩
        rw [extInst_eq, is_set, compute_ok_bind]
        simp only [missing]
        rfl
      · cases skips
    · rw [Dispatch.contains_of_get? registered] at skips
      cases skips
  · rw [table.skips_of_plain registered extended] at skips
    cases skips

/-- An instruction that is to be skipped is, unless the machine is strict. -/
theorem step_of_skips (skips : machine.table.skips instruction = true)
    (lenient : configuration.strict = false) :
    machine.step configuration instruction = ⟨machine, .ok true⟩ := by
  unfold step
  cases registered : executionTable.get? instruction.opcode with
  | none =>
      simp only [lenient]
      rfl
  | some handler =>
      obtain ⟨error, failed, harmless⟩ := exists_harmless_of_skips machine.slots registered skips
      have handled : machine.handle instruction handler = ⟨machine, .error error⟩ := by
        rw [handle, failed]
      simp only [handled, harmless, lenient]
      rfl

/-- A strict machine skips nothing. -/
theorem lenient_of_step (stepped : machine.step configuration instruction = ⟨next, .ok true⟩) :
    configuration.strict = false := by
  have ends := machine.stepEnds configuration instruction
  rw [stepped] at ends
  cases ends with
  | passed missing lenient => exact lenient
  | skipped registered handled harmless lenient => exact lenient

/-- A step whose handler yields an effect and reads every operand ends as the effect is carried
out. -/
theorem step_of_yields {handler : ExecutionHandler} {effect : Effect} {cursor : Cursor}
    {result : Except MachineError Unit}
    (registered : executionTable.get? instruction.opcode = some handler)
    (yielded : handler machine.table machine.slots instruction instruction.cursor =
      .ok (effect, cursor)) (at_end : cursor.ahead = [])
    (committed : machine.commit effect = ⟨next, result⟩) :
    machine.step configuration instruction = ⟨next, result.map fun _ => false⟩ := by
  have fits : effect.Fits machine.table :=
    (meets_handler machine.table machine.slots registered instruction.cursor).value yielded
  rw [step, registered]
  simp only [handle, yielded, committed]
  cases result with
  | ok done =>
      have empty : cursor.isEmpty = true := List.isEmpty_iff.mpr at_end
      simp only [empty, if_true]
      rfl
  | error error =>
      -- What an effect that fits may end in is fatal, so it is not skipped over.
      have fatal := isFatal_of_commit fits (congrArg Outcome.result committed)
      simp only [fatal, Bool.true_or, if_true]
      rfl

/-- An instruction that a machine executes is skipped by another one if the first one skips it, and
otherwise has the same effect to be carried out there. -/
theorem step_again {later : Machine} {skipped : Bool} (shows : machine.table.Shows later.table)
    (inputs : machine.slots.inputs = later.slots.inputs)
    (opcode_eq : instruction'.opcode = instruction.opcode)
    (operands_eq : instruction'.operands = instruction.operands)
    (lenient : other.strict = true → configuration.strict = true)
    (stepped : machine.step configuration instruction = ⟨next, .ok skipped⟩) :
    skipped = true ∧ next = machine ∧ later.step other instruction' = ⟨later, .ok true⟩ ∨
      skipped = false ∧ ∃ effect, effect.Fits machine.table ∧
        machine.commit effect = ⟨next, .ok ()⟩ ∧
        ∀ last result, later.commit effect = ⟨last, result⟩ →
          later.step other instruction' = ⟨last, result.map fun _ => false⟩ := by
  -- Whether an instruction is skipped is seen from its opcode and from the imported sets.
  have skips := skips_of_step stepped
  rcases yields_of_step stepped with ⟨is_skipped, same⟩ |
    ⟨not_skipped, handler, effect, cursor, registered, yielded, at_end, committed⟩
  · left
    rw [skips, is_skipped] at stepped
    refine ⟨skips.trans is_skipped, same, ?_⟩
    refine step_of_skips (shows.skips opcode_eq operands_eq is_skipped) ?_
    refine eq_false_of_ne_true fun strict => ?_
    exact Bool.false_ne_true ((lenient_of_step stepped).symm.trans (lenient strict))
  · right
    have fits : effect.Fits machine.table :=
      (meets_handler machine.table machine.slots registered instruction.cursor).value yielded
    refine ⟨skips.trans not_skipped, effect, fits, committed, fun last result committed' => ?_⟩
    -- The handler reads the same operands, although they may stand elsewhere.
    have ahead_eq : instruction.cursor.ahead = instruction'.cursor.ahead := operands_eq.symm
    obtain ⟨result', last', yielded', ahead_eq', rfl⟩ :=
      handler_repeats instruction' shows inputs registered _ _ effect cursor ahead_eq yielded
    rw [← opcode_eq] at registered
    refine step_of_yields registered yielded' ?_ committed'
    rw [ahead_eq']
    exact List.isEmpty_iff.mp at_end

end Machine

end ShaderMachine
