import ShaderMachine.Proofs.LaterTables

/-! # What a call may write to

A call, however it ends, writes to nothing but the records of IDs that are results of instructions
of the body that yield values or variables, and of IDs that such instructions store to. A store
changes the data of a variable alone, and only where a shader may write.

* **`Record.Written`** — what one instruction may do to the record of an ID.
* **`Record.WrittenIn`** — what instructions may do to it one after the other.
* **`Machine.step_written`** and **`Machine.call_written`** — a step and a call do no more.
* **`Machine.Reachable.call_frame`** — what a call leaves as it is. -/

namespace ShaderMachine

/-! ## Writing to a record -/

/-- What an executed instruction may do to the record of an ID. -/
inductive Record.Written (instruction : Instruction) (id : Id) (before : Record) : Record → Prop
  /-- It stays as it is. -/
  | kept : Written instruction id before before
  /-- The ID is the result of the instruction and gets the value or the variable that it yields. -/
  | given {definition : Definition} (is_data : definition.IsData)
      (executes : executionTable.contains instruction.opcode = true)
      (assigns : instruction.assigns? = some (id, definition.kind)) :
      Written instruction id before { before with definition }
  /-- The instruction stores to the ID, which is a variable that may be written to and gets other
  data. -/
  | stored {contents : Variable} {data : Bytes}
      (executes : executionTable.contains instruction.opcode = true)
      (stores : instruction.storesTo? = some id) (is_variable : before.definition = .var contents)
      (writable : contents.storage.isWritable = true) :
      Written instruction id before { before with definition := .var { contents with data } }

/-- What executed instructions may do to the record of an ID, one after the other. -/
abbrev Record.WrittenIn (instructions : List Instruction) (id : Id) : Record → Record → Prop :=
  Relation.ReflTransGen fun before after =>
    ∃ instruction ∈ instructions, before.Written instruction id after

/-- Whether an instruction has a handler and gives an ID, which is its result, a value or a
variable. -/
def Instruction.Yields (instruction : Instruction) (id : Id) : Prop :=
  executionTable.contains instruction.opcode = true ∧ instruction.result? = some id ∧
    ∃ kind, instruction.assigns? = some (id, kind)

namespace Record.WrittenIn

variable {instructions : List Instruction} {id : Id} {before after : Record}

/-- The name and the decorations stay as they are. -/
theorem described (written : WrittenIn instructions id before after) :
    after.name = before.name ∧ after.decorations = before.decorations := by
  induction written with
  | refl => exact ⟨rfl, rfl⟩
  | tail _ step hyp =>
      obtain ⟨instruction, -, once⟩ := step
      cases once <;> exact hyp

/-- A record of an ID that no instruction yields data for stays as it is, or is that of a variable
that may be written to and gets other data. -/
theorem of_stores (written : WrittenIn instructions id before after)
    (others : ∀ instruction ∈ instructions, ¬ instruction.Yields id) :
    after = before ∨ (∃ instruction ∈ instructions,
        executionTable.contains instruction.opcode = true ∧ instruction.storesTo? = some id) ∧
      ∃ contents data, before.definition = .var contents ∧ contents.storage.isWritable = true ∧
        after = { before with definition := .var { contents with data } } := by
  induction written with
  | refl => exact Or.inl rfl
  | tail _ step hyp =>
      obtain ⟨instruction, mem, once⟩ := step
      cases once with
      | kept => exact hyp
      | given is_data executes assigns =>
          exact absurd ⟨executes, Instruction.result?_of_assigns? assigns, _, assigns⟩
            (others instruction mem)
      | stored executes stores is_variable writable =>
          refine Or.inr ⟨⟨instruction, mem, executes, stores⟩, ?_⟩
          rcases hyp with rfl | ⟨-, contents, data, was_variable, was_writable, rfl⟩
          · exact ⟨_, _, is_variable, writable, rfl⟩
          · cases is_variable
            exact ⟨contents, _, was_variable, was_writable, rfl⟩

end Record.WrittenIn

/-! ## Steps and calls -/

namespace Machine

variable {machine : Machine} {instruction : Instruction} {id : Id} {record : Record}

/-- An effect that goes where an instruction says writes as the instruction may. -/
theorem commit_written {effect : Effect}
    (executes : executionTable.contains instruction.opcode = true)
    (fits : effect.Fits machine.table) (assigned : effect.assigned? = instruction.assigns?)
    (stored : effect.pointer? = instruction.storesTo?) (found : machine.table.get id = .ok record) :
    ∃ after, (machine.commit effect).machine.table.get id = .ok after ∧
      record.Written instruction id after := by
  cases effect with
  | nothing => exact ⟨record, found, .kept⟩
  -- Another ID keeps its record; the result of the instruction is given data.
  | assign changed_id definition =>
      have ends := machine.commitEnds (.assign changed_id definition)
      generalize machine.commit (.assign changed_id definition) = outcome at ends ⊢
      cases ends with
      | assigned replaced =>
          obtain ⟨before, found_before, -, rfl⟩ := Table.replace_inv replaced
          refine Table.exists_get_put (P := fun before after => before.Written instruction id after)
            found_before found .kept fun same => ?_
          rw [← same] at assigned
          exact .given fits.1 executes assigned.symm
      | unassigned replaced => exact ⟨record, found, .kept⟩
  -- Likewise, only the record behind the pointer changes, and only in its data.
  | store pointer object bytes =>
      rw [commit, table_storeBytes]
      rcases machine.table.changeData_cases pointer (storedData pointer object bytes) with
        table_eq | ⟨before, changed, found_before, table_eq, becomes⟩
      · rw [table_eq]
        exact ⟨record, found, .kept⟩
      · rw [table_eq]
        refine Table.exists_get_put (P := fun before after => before.Written instruction id after)
          found_before found .kept fun same => ?_
        rw [← same] at stored
        rcases becomes with rfl | ⟨contents, data, is_variable, is_data, rfl⟩
        · exact .kept
        · exact .stored executes stored.symm is_variable (storedData_eq_ok_iff.mp is_data).1

/-- An executed instruction writes to a record as it may, however it ends. -/
theorem step_written (configuration : Configuration) (machine : Machine)
    (instruction : Instruction) (found : machine.table.get id = .ok record) :
    ∃ after, (machine.step configuration instruction).machine.table.get id = .ok after ∧
      record.Written instruction id after := by
  rcases machine.step_machine_cases configuration instruction with
    same | ⟨handler, effect, cursor, registered, yielded, committed⟩
  · rw [same]
    exact ⟨record, found, .kept⟩
  · rw [committed]
    obtain ⟨assigned, stored⟩ := effect_of_handler registered yielded
    have fits : effect.Fits machine.table :=
      (meets_handler machine.table machine.slots registered instruction.cursor).value yielded
    exact commit_written (Dispatch.contains_of_get? registered) fits assigned stored found

/-- A call writes to a record as the instructions of the body may, however it ends. -/
theorem call_written (configuration : Configuration) {start stop : Nat} {called : Id}
    (bounds : machine.bodyBounds called = .ok (start, stop))
    (found : machine.table.get id = .ok record) :
    ∃ after, (machine.call configuration called).machine.table.get id = .ok after ∧
      record.WrittenIn (machine.body start stop) id after := by
  refine call_preserves (P := fun other => ∃ after, other.table.get id = .ok after ∧
      record.WrittenIn (machine.body start stop) id after)
    (fun _ _ written => written) (fun start' stop' bounds' other instruction mem written => ?_)
    ⟨record, found, .refl⟩
  cases bounds.symm.trans bounds'
  obtain ⟨mid, found_mid, written⟩ := written
  obtain ⟨after, found_after, once⟩ := step_written configuration other instruction found_mid
  exact ⟨after, found_after, written.tail ⟨instruction, mem, once⟩⟩

/-- A call leaves everything as it is that its body does not write to, however it ends. The module,
the inputs and the counts stay the same, and so do all names and decorations. The record of an ID is
written to by instructions of the body one after the other. If it is another one afterwards, then
the ID is the result of an instruction of the body that yields a value or a variable, or one is
stored to it. If nothing but stores could have changed it, it is that of a variable, which is
neither an input nor a constant, and its data alone has changed. -/
theorem Reachable.call_frame {words : List Word} {loaded : Module}
    (loads : Module.ofWords words = .ok loaded) (reachable : Reachable loaded machine)
    {configuration : Configuration} {called : Id} {start stop : Nat}
    (bounds : machine.bodyBounds called = .ok (start, stop)) {outcome : Outcome Summary}
    (calls : outcome = machine.call configuration called ∨
      ∃ name, machine.table.entryPoint? name = some called ∧
        outcome = machine.callEntryPoint configuration name) :
    machine.Frame outcome.machine ∧ outcome.machine.table.bound = machine.table.bound ∧
      ∀ id record, machine.table.get id = .ok record →
        ∃ after, outcome.machine.table.get id = .ok after ∧
          after.name = record.name ∧ after.decorations = record.decorations ∧
          record.WrittenIn (loaded.between start stop) id after ∧
          (after ≠ record → ∃ instruction ∈ loaded.between start stop,
            instruction.Yields id ∨ executionTable.contains instruction.opcode = true ∧
              instruction.storesTo? = some id) ∧
          (after ≠ record → (∀ instruction ∈ loaded.between start stop, ¬ instruction.Yields id) →
            ∃ contents data, record.definition = .var contents ∧ contents.storage ≠ .input ∧
              contents.storage ≠ .uniformConstant ∧
              after = { record with definition := .var { contents with data } }) := by
  obtain ⟨-, -, framed, -⟩ := Module.ofWords_inv loads
  have call_eq : outcome = machine.call configuration called := by
    rcases calls with call_eq | ⟨name, found, rfl⟩
    · exact call_eq
    · rw [Machine.callEntryPoint, found]
  rw [call_eq]
  refine ⟨frame_call configuration machine called,
    (call_changes configuration machine called).alike.bound.symm, fun id record found => ?_⟩
  obtain ⟨after, found_after, written⟩ := call_written configuration bounds found
  rw [body_eq_between framed reachable.exists_setUp.1] at written
  refine ⟨after, found_after, written.described.1, written.described.2, written,
    fun changed => ?_, fun changed others => ?_⟩
  · -- A change without a result that yields it comes from a store.
    by_cases yields : ∃ instruction ∈ loaded.between start stop, instruction.Yields id
    · obtain ⟨instruction, mem, yields⟩ := yields
      exact ⟨instruction, mem, Or.inl yields⟩
    · obtain ⟨⟨instruction, mem, stores⟩, -⟩ := (written.of_stores fun instruction mem yielded =>
        yields ⟨instruction, mem, yielded⟩).resolve_left changed
      exact ⟨instruction, mem, Or.inr stores⟩
  · obtain ⟨-, contents, data, is_variable, writable, after_eq⟩ :=
      (written.of_stores others).resolve_left changed
    refine ⟨contents, data, is_variable, ?_, ?_, after_eq⟩
    · intro storage
      rw [storage] at writable
      cases writable
    · intro storage
      rw [storage] at writable
      cases writable

/-- The body of the entry point of a module with private state stores to the variable and to the
output, so that a call leaves the constant that it stores as it is. -/
theorem call_frame_flagged : ∃ machine record, ofModule {} flagged = .ok machine ∧
    machine.table.get 8 = .ok record ∧ record.definition = .constant ⟨5, [0, 0, 128, 63]⟩ ∧
    (machine.callEntryPoint {} "main").machine.table.get 8 = .ok record := by
  have loads : Module.ofWords flagged.words = .ok flagged :=
    Module.ofWords_words (by decide) (by decide) (by decide) (by decide) rfl
  have evaluated : (ofModule {} flagged).toOption.any (fun machine =>
      decide (machine.bodyBounds 1 = .ok (48, 61)) &&
      decide (machine.table.entryPoint? "main" = some 1) &&
      (machine.table.get 8).toOption.any fun record =>
        decide (record.definition = .constant ⟨5, [0, 0, 128, 63]⟩)) = true := by
    decide +kernel
  obtain ⟨machine, set_up, evaluated⟩ := exists_of_any evaluated
  rw [Bool.and_eq_true, Bool.and_eq_true, decide_eq_true_eq, decide_eq_true_eq] at evaluated
  obtain ⟨⟨bounds, named⟩, has_record⟩ := evaluated
  obtain ⟨record, found, is_constant⟩ := exists_of_any has_record
  rw [decide_eq_true_eq] at is_constant
  obtain ⟨-, -, records⟩ :=
    (Reachable.setUp set_up).call_frame loads bounds (Or.inr ⟨"main", named, rfl⟩)
  obtain ⟨after, found_after, -, -, -, writes, -⟩ := records 8 record found
  -- No instruction of the body has the constant as its result or stores to it.
  have untouched : ∀ instruction ∈ flagged.between 48 61,
      instruction.result? ≠ some 8 ∧ instruction.storesTo? ≠ some 8 := by
    decide +kernel
  have same : after = record := by
    by_contra changed
    obtain ⟨instruction, mem, ⟨-, result, -⟩ | ⟨-, stores⟩⟩ := writes changed
    · exact (untouched instruction mem).1 result
    · exact (untouched instruction mem).2 stores
  rw [same] at found_after
  exact ⟨machine, record, set_up, found, is_constant, found_after⟩

end Machine

end ShaderMachine
