import ShaderMachine.Machine.Call
import ShaderMachine.Proofs.TableLaws

/-! # How attempts end

An instruction of a module, a store, an effect, a handler, an executed instruction, a run and a call
each end in one of a few ways, and each way says what has led to it. Facts about attempts go by
cases on these ways, those about runs by induction on them.

* **`Setup.handleEnds`** and **`Setup.stepEnds`** — how instructions of a module end.
* **`Machine.storeEnds`** and **`Machine.commitEnds`** — how stores and other effects end.
* **`Machine.handleEnds`** and **`Machine.stepEnds`** — how handlers and instructions end.
* **`Machine.runEnds`**, **`Machine.boundsEnds`** and **`Machine.callEnds`** — how runs, searches
  for bodies and calls end. -/

namespace ShaderMachine

/-- An outcome is its machine with its result. -/
theorem Outcome.eq_of_result {α : Type} {outcome : Outcome α} {result : Except MachineError α}
    (is : outcome.result = result) : outcome = ⟨outcome.machine, result⟩ := by
  subst is
  rfl

/-! ## Instructions of modules -/

namespace Setup

/-- How a handler of a declaration ends. -/
inductive HandleEnds (configuration : Configuration) (setup : Setup) (instruction : Instruction)
    (handler : SetupHandler) : Except MachineError Setup → Prop
  /-- The handler ends in a fault. -/
  | failed {error : MachineError}
      (failed : handler configuration setup instruction instruction.cursor = .error error) :
      HandleEnds configuration setup instruction handler (.error error)
  /-- The handler leaves operands over. -/
  | leftOver {next : Setup} {cursor : Cursor}
      (handled : handler configuration setup instruction instruction.cursor = .ok (next, cursor))
      (left_over : cursor.isEmpty = false) :
      HandleEnds configuration setup instruction handler
        (.error (.binary (instruction.malformed (.unreadOperands cursor.remaining))))
  /-- The handler reads every operand. -/
  | done {next : Setup} {cursor : Cursor}
      (handled : handler configuration setup instruction instruction.cursor = .ok (next, cursor))
      (at_end : cursor.isEmpty = true) :
      HandleEnds configuration setup instruction handler (.ok next)

/-- Every handler of a declaration ends in one of these ways. -/
theorem handleEnds (configuration : Configuration) (setup : Setup) (instruction : Instruction)
    (handler : SetupHandler) : HandleEnds configuration setup instruction handler
      (setup.handle configuration instruction handler) := by
  unfold handle
  cases handled : handler configuration setup instruction instruction.cursor with
  | error error => exact .failed handled
  | ok answer =>
      obtain ⟨next, cursor⟩ := answer
      simp only [bind, Except.bind]
      split
      · rename_i at_end
        exact .done handled at_end
      · rename_i left_over
        exact .leftOver handled (eq_false_of_ne_true left_over)

/-- Whether an instruction is one of the body of the open function, which is to be executed. -/
def passesOver (setup : Setup) (instruction : Instruction) : Bool :=
  setup.openFunction.isSome && executionTable.contains instruction.opcode

/-- How an instruction of a module ends. -/
inductive StepEnds (configuration : Configuration) (setup : Setup) (instruction : Instruction) :
    Except MachineError Setup → Prop
  /-- There is a handler, and the instruction ends as it does. -/
  | handled {handler : SetupHandler} {result : Except MachineError Setup}
      (registered : setupTable.get? instruction.opcode = some handler)
      (ends : HandleEnds configuration setup instruction handler result) :
      StepEnds configuration setup instruction result
  /-- The instruction is to be executed. -/
  | passed (missing : setupTable.get? instruction.opcode = none)
      (executes : setup.passesOver instruction = true) :
      StepEnds configuration setup instruction (.ok setup)
  /-- Nothing handles the instruction, and the machine is strict. -/
  | unsupported (missing : setupTable.get? instruction.opcode = none)
      (unknown : setup.passesOver instruction = false) (strict : configuration.strict = true) :
      StepEnds configuration setup instruction
        (.error (.unsupportedOpcode instruction.opcode instruction.offset))
  /-- Nothing handles the instruction, and it is counted. -/
  | counted (missing : setupTable.get? instruction.opcode = none)
      (unknown : setup.passesOver instruction = false) (lenient : configuration.strict = false) :
      StepEnds configuration setup instruction
        (.ok { setup with unsupported := setup.unsupported + 1 })

/-- Every instruction of a module ends in one of these ways. -/
theorem stepEnds (configuration : Configuration) (setup : Setup) (instruction : Instruction) :
    StepEnds configuration setup instruction (setup.step configuration instruction) := by
  unfold step
  split
  · rename_i handler registered
    exact .handled registered (handleEnds configuration setup instruction handler)
  · rename_i missing
    split
    · rename_i executes
      exact .passed missing executes
    · rename_i unknown
      split
      · rename_i strict
        exact .unsupported missing (eq_false_of_ne_true unknown) strict
      · rename_i lenient
        exact .counted missing (eq_false_of_ne_true unknown) (eq_false_of_ne_true lenient)

end Setup

namespace Machine

/-! ## Effects -/

/-- A variable takes bytes that are stored if it may be written and is of their size. -/
theorem storedData_eq_ok_iff {pointer object : Id} {bytes data : Bytes} {contents : Variable} :
    storedData pointer object bytes contents = .ok data ↔
      contents.storage.isWritable = true ∧ contents.data.length = bytes.length ∧ data = bytes := by
  unfold storedData
  split
  · rename_i read_only
    simp only [Bool.not_eq_true'] at read_only
    simp [read_only]
  · rename_i writable
    simp only [Bool.not_eq_true', Bool.not_eq_false] at writable
    split
    · rename_i different
      simp [different]
    · rename_i same
      simp only [ne_eq, Decidable.not_not] at same
      simp [writable, same, eq_comm]

/-- How a store ends. -/
inductive StoreEnds (machine : Machine) (pointer object : Id) (bytes : Bytes) :
    Outcome Unit → Prop
  /-- The variable cannot be written. -/
  | refused {table : Table} {error : MachineError}
      (attempt : machine.table.changeData pointer (storedData pointer object bytes) =
        (table, some error)) :
      StoreEnds machine pointer object bytes ⟨{ machine with table }, .error error⟩
  /-- The variable is written, and it is at no output location. -/
  | written {table : Table}
      (attempt : machine.table.changeData pointer (storedData pointer object bytes) = (table, none))
      (place : outputLocation? machine.table pointer = none) :
      StoreEnds machine pointer object bytes ⟨{ machine with table }, .ok ()⟩
  /-- The variable is written, and then its output location. -/
  | output {table : Table} {location : Word} {slots : Slots}
      (attempt : machine.table.changeData pointer (storedData pointer object bytes) = (table, none))
      (place : outputLocation? machine.table pointer = some location)
      (write : machine.slots.write location bytes = .ok slots) :
      StoreEnds machine pointer object bytes ⟨{ machine with table, slots }, .ok ()⟩
  /-- The variable is written, but its output location cannot be. -/
  | misplaced {table : Table} {location : Word} {error : MachineError}
      (attempt : machine.table.changeData pointer (storedData pointer object bytes) = (table, none))
      (place : outputLocation? machine.table pointer = some location)
      (write : machine.slots.write location bytes = .error error) :
      StoreEnds machine pointer object bytes ⟨{ machine with table }, .error error⟩

/-- Every store ends in one of these ways. -/
theorem storeEnds (machine : Machine) (pointer object : Id) (bytes : Bytes) :
    StoreEnds machine pointer object bytes (machine.storeBytes pointer object bytes) := by
  unfold storeBytes
  split
  · rename_i attempt
    exact .refused attempt
  · rename_i attempt
    split
    · rename_i place
      exact .written attempt place
    · rename_i place
      split
      · rename_i write
        exact .output attempt place write
      · rename_i write
        exact .misplaced attempt place write

/-- A store that succeeds writes a variable, and the output location if there is one. -/
theorem storeBytes_inv {machine : Machine} {pointer object : Id} {bytes : Bytes} {next : Machine}
    (stored : machine.storeBytes pointer object bytes = ⟨next, .ok ()⟩) :
    ∃ record contents, machine.table.get pointer = .ok record ∧
      record.definition = .var contents ∧
      next.table = machine.table.put pointer
        { record with definition := .var { contents with data := bytes } } ∧
      (match outputLocation? machine.table pointer with
        | none => Except.ok machine.slots
        | some location => machine.slots.write location bytes) = .ok next.slots := by
  -- The record is changed first, whatever becomes of the output.
  have written {table : Table}
      (attempt : machine.table.changeData pointer (storedData pointer object bytes) =
        (table, none)) :
      ∃ record contents, machine.table.get pointer = .ok record ∧
        record.definition = .var contents ∧ table = machine.table.put pointer
          { record with definition := .var { contents with data := bytes } } := by
    obtain ⟨record, contents, data, found, is_variable, is_data, rfl⟩ :=
      Table.changeData_inv attempt
    obtain ⟨-, -, rfl⟩ := storedData_eq_ok_iff.mp is_data
    exact ⟨record, contents, found, is_variable, rfl⟩
  have ends := machine.storeEnds pointer object bytes
  rw [stored] at ends
  cases ends with
  | written attempt place =>
      obtain ⟨record, contents, found, is_variable, table_eq⟩ := written attempt
      refine ⟨record, contents, found, is_variable, table_eq, ?_⟩
      rw [place]
  | output attempt place write =>
      obtain ⟨record, contents, found, is_variable, table_eq⟩ := written attempt
      refine ⟨record, contents, found, is_variable, table_eq, ?_⟩
      rw [place]
      exact write

/-- How an effect ends. -/
inductive CommitEnds (machine : Machine) : Effect → Outcome Unit → Prop
  /-- There is nothing to be carried out. -/
  | nothing : CommitEnds machine .nothing ⟨machine, .ok ()⟩
  /-- The ID gets the definition. -/
  | assigned {id : Id} {definition : Definition} {table : Table}
      (replaced : machine.table.replace id definition = .ok table) :
      CommitEnds machine (.assign id definition) ⟨{ machine with table }, .ok ()⟩
  /-- The ID cannot get the definition. -/
  | unassigned {id : Id} {definition : Definition} {error : MachineError}
      (replaced : machine.table.replace id definition = .error error) :
      CommitEnds machine (.assign id definition) ⟨machine, .error error⟩
  /-- The bytes are stored, or cannot be. -/
  | stored {pointer object : Id} {bytes : Bytes} {outcome : Outcome Unit}
      (ends : StoreEnds machine pointer object bytes outcome) :
      CommitEnds machine (.store pointer object bytes) outcome

/-- Every effect ends in one of these ways. -/
theorem commitEnds (machine : Machine) (effect : Effect) :
    CommitEnds machine effect (machine.commit effect) := by
  cases effect with
  | nothing => exact .nothing
  | assign id definition =>
      rw [commit]
      cases replaced : machine.table.replace id definition with
      | ok table => exact .assigned replaced
      | error error => exact .unassigned replaced
  | store pointer object bytes => exact .stored (machine.storeEnds pointer object bytes)

/-- An effect that gives an ID a definition changes the definition in its record. -/
theorem commit_assign_inv {machine next : Machine} {id : Id} {definition : Definition}
    (committed : machine.commit (.assign id definition) = ⟨next, .ok ()⟩) :
    ∃ record, machine.table.get id = .ok record ∧
      (record.definition = .unset ∨ record.definition.kind = definition.kind) ∧
      next = { machine with table := machine.table.put id { record with definition } } := by
  have ends := machine.commitEnds (.assign id definition)
  rw [committed] at ends
  cases ends with
  | assigned replaced =>
      obtain ⟨record, found, before, rfl⟩ := Table.replace_inv replaced
      exact ⟨record, found, before, rfl⟩

/-! ## Executed instructions -/

/-- How a handler and its effect end. -/
inductive HandleEnds (machine : Machine) (instruction : Instruction) (handler : ExecutionHandler) :
    Outcome Unit → Prop
  /-- The handler yields no effect. -/
  | failed {error : MachineError}
      (failed : handler machine.table machine.slots instruction instruction.cursor =
        .error error) :
      HandleEnds machine instruction handler ⟨machine, .error error⟩
  /-- The effect cannot be carried out. -/
  | refused {effect : Effect} {cursor : Cursor} {next : Machine} {error : MachineError}
      (yielded : handler machine.table machine.slots instruction instruction.cursor =
        .ok (effect, cursor))
      (committed : machine.commit effect = ⟨next, .error error⟩) :
      HandleEnds machine instruction handler ⟨next, .error error⟩
  /-- The effect is carried out, but operands are left over. -/
  | leftOver {effect : Effect} {cursor : Cursor} {next : Machine}
      (yielded : handler machine.table machine.slots instruction instruction.cursor =
        .ok (effect, cursor))
      (committed : machine.commit effect = ⟨next, .ok ()⟩) (left_over : cursor.isEmpty = false) :
      HandleEnds machine instruction handler
        ⟨next, .error (.binary (instruction.malformed (.unreadOperands cursor.remaining)))⟩
  /-- The effect is carried out, and every operand was read. -/
  | done {effect : Effect} {cursor : Cursor} {next : Machine}
      (yielded : handler machine.table machine.slots instruction instruction.cursor =
        .ok (effect, cursor))
      (committed : machine.commit effect = ⟨next, .ok ()⟩) (at_end : cursor.isEmpty = true) :
      HandleEnds machine instruction handler ⟨next, .ok ()⟩

/-- Every handler ends in one of these ways. -/
theorem handleEnds (machine : Machine) (instruction : Instruction) (handler : ExecutionHandler) :
    HandleEnds machine instruction handler (machine.handle instruction handler) := by
  unfold handle
  split
  · rename_i failed
    exact .failed failed
  · rename_i yielded
    split
    · rename_i committed
      exact .refused yielded committed
    · rename_i committed
      split
      · rename_i at_end
        exact .done yielded committed at_end
      · rename_i left_over
        exact .leftOver yielded committed (eq_false_of_ne_true left_over)

/-- Running a handler carries out the effect that it yields, or does nothing. -/
theorem handle_machine (machine : Machine) (instruction : Instruction)
    (handler : ExecutionHandler) :
    (machine.handle instruction handler).machine = machine ∨ ∃ effect cursor,
      handler machine.table machine.slots instruction instruction.cursor = .ok (effect, cursor) ∧
        (machine.handle instruction handler).machine = (machine.commit effect).machine := by
  have ends := machine.handleEnds instruction handler
  generalize machine.handle instruction handler = outcome at ends ⊢
  cases ends with
  | failed failed => exact .inl rfl
  | refused yielded committed
  | leftOver yielded committed left_over
  | done yielded committed at_end =>
      exact .inr ⟨_, _, yielded, (congrArg Outcome.machine committed).symm⟩

/-- How an instruction ends. -/
inductive StepEnds (configuration : Configuration) (machine : Machine) (instruction : Instruction) :
    Outcome Bool → Prop
  /-- There is no handler, and the machine is strict. -/
  | unsupported (missing : executionTable.get? instruction.opcode = none)
      (strict : configuration.strict = true) :
      StepEnds configuration machine instruction
        ⟨machine, .error (.unsupportedOpcode instruction.opcode instruction.offset)⟩
  /-- There is no handler, and the instruction is skipped. -/
  | passed (missing : executionTable.get? instruction.opcode = none)
      (lenient : configuration.strict = false) :
      StepEnds configuration machine instruction ⟨machine, .ok true⟩
  /-- The handler ends without a fault. -/
  | executed {handler : ExecutionHandler} {next : Machine}
      (registered : executionTable.get? instruction.opcode = some handler)
      (handled : machine.handle instruction handler = ⟨next, .ok ()⟩) :
      StepEnds configuration machine instruction ⟨next, .ok false⟩
  /-- The handler ends in a fault. -/
  | failed {handler : ExecutionHandler} {next : Machine} {error : MachineError}
      (registered : executionTable.get? instruction.opcode = some handler)
      (handled : machine.handle instruction handler = ⟨next, .error error⟩)
      (fatal : error.isFatal = true ∨ configuration.strict = true) :
      StepEnds configuration machine instruction ⟨next, .error error⟩
  /-- The handler ends in a fault that is passed over. -/
  | skipped {handler : ExecutionHandler} {next : Machine} {error : MachineError}
      (registered : executionTable.get? instruction.opcode = some handler)
      (handled : machine.handle instruction handler = ⟨next, .error error⟩)
      (harmless : error.isFatal = false) (lenient : configuration.strict = false) :
      StepEnds configuration machine instruction ⟨next, .ok true⟩

/-- Every instruction ends in one of these ways. -/
theorem stepEnds (configuration : Configuration) (machine : Machine) (instruction : Instruction) :
    StepEnds configuration machine instruction (machine.step configuration instruction) := by
  unfold step
  split
  · rename_i missing
    split
    · rename_i strict
      exact .unsupported missing strict
    · rename_i lenient
      exact .passed missing (eq_false_of_ne_true lenient)
  · rename_i registered
    split
    · rename_i handled
      exact .executed registered handled
    · rename_i handled
      split
      · rename_i fatal
        exact .failed registered handled (Bool.or_eq_true_iff.mp fatal)
      · rename_i harmless
        obtain ⟨harmless, lenient⟩ := Bool.or_eq_false_iff.mp (eq_false_of_ne_true harmless)
        exact .skipped registered handled harmless lenient

/-- An executed instruction does what its handler does, however that ends. -/
theorem step_machine {instruction : Instruction} {handler : ExecutionHandler}
    (configuration : Configuration) (machine : Machine)
    (registered : executionTable.get? instruction.opcode = some handler) :
    (machine.step configuration instruction).machine =
      (machine.handle instruction handler).machine := by
  have ends := machine.stepEnds configuration instruction
  generalize machine.step configuration instruction = outcome at ends ⊢
  cases ends with
  | unsupported missing strict | passed missing lenient => cases registered.symm.trans missing
  | executed registered' handled
  | failed registered' handled fatal
  | skipped registered' handled harmless lenient =>
      cases registered.symm.trans registered'
      exact (congrArg Outcome.machine handled).symm

/-- An executed instruction carries out the effect that its handler yields, or does nothing. -/
theorem step_machine_cases (configuration : Configuration) (machine : Machine)
    (instruction : Instruction) :
    (machine.step configuration instruction).machine = machine ∨ ∃ handler effect cursor,
      executionTable.get? instruction.opcode = some handler ∧
        handler machine.table machine.slots instruction instruction.cursor =
          .ok (effect, cursor) ∧
        (machine.step configuration instruction).machine = (machine.commit effect).machine := by
  cases registered : executionTable.get? instruction.opcode with
  | none =>
      have ends := machine.stepEnds configuration instruction
      generalize machine.step configuration instruction = outcome at ends ⊢
      cases ends with
      | unsupported missing strict | passed missing lenient => exact .inl rfl
      | executed registered' handled
      | failed registered' handled fatal
      | skipped registered' handled harmless lenient => cases registered.symm.trans registered'
  | some handler =>
      rw [step_machine configuration machine registered]
      rcases machine.handle_machine instruction handler with
        same | ⟨effect, cursor, yielded, committed⟩
      · exact .inl same
      · exact .inr ⟨handler, effect, cursor, rfl, yielded, committed⟩

/-! ## Runs and calls -/

/-- How a run over instructions ends. -/
inductive RunEnds (configuration : Configuration) :
    Nat → Nat → Machine → List Instruction → Outcome (Nat × Nat) → Prop
  /-- No instruction is left. -/
  | completed {executed unsupported : Nat} {machine : Machine} :
      RunEnds configuration executed unsupported machine []
        ⟨machine, .ok (executed, unsupported)⟩
  /-- Instructions are left, but no more may be executed. -/
  | limited {executed unsupported : Nat} {machine : Machine} {instruction : Instruction}
      {rest : List Instruction} (reached : configuration.maxInstructions ≤ executed) :
      RunEnds configuration executed unsupported machine (instruction :: rest)
        ⟨machine, .error (.executionLimitExceeded configuration.maxInstructions)⟩
  /-- The first instruction fails. -/
  | failed {executed unsupported : Nat} {machine next : Machine} {instruction : Instruction}
      {rest : List Instruction} {error : MachineError}
      (below : executed < configuration.maxInstructions)
      (stepped : machine.step configuration instruction = ⟨next, .error error⟩) :
      RunEnds configuration executed unsupported machine (instruction :: rest)
        ⟨next, .error error⟩
  /-- The first instruction is executed, and the run ends as it does over the others. -/
  | continued {executed unsupported : Nat} {machine next : Machine} {instruction : Instruction}
      {rest : List Instruction} {skipped : Bool} {outcome : Outcome (Nat × Nat)}
      (below : executed < configuration.maxInstructions)
      (stepped : machine.step configuration instruction = ⟨next, .ok skipped⟩)
      (ends : RunEnds configuration (executed + 1) (unsupported + if skipped then 1 else 0) next
        rest outcome) :
      RunEnds configuration executed unsupported machine (instruction :: rest) outcome

/-- Every run ends in one of these ways. -/
theorem runEnds (configuration : Configuration) (executed unsupported : Nat) (machine : Machine)
    (instructions : List Instruction) :
    RunEnds configuration executed unsupported machine instructions
      (machine.run configuration executed unsupported instructions) := by
  induction instructions generalizing executed unsupported machine with
  | nil => exact .completed
  | cons instruction instructions hyp =>
      unfold run
      split
      · rename_i reached
        exact .limited reached
      · rename_i below
        split
        · rename_i stepped
          exact .failed (Nat.lt_of_not_le below) stepped
        · rename_i stepped
          exact .continued (Nat.lt_of_not_le below) stepped (hyp _ _ _)

/-- A run goes on after an instruction that is executed. -/
theorem run_cons {configuration : Configuration} {executed unsupported : Nat}
    {machine next : Machine} {instruction : Instruction} {rest : List Instruction} {skipped : Bool}
    (below : executed < configuration.maxInstructions)
    (stepped : machine.step configuration instruction = ⟨next, .ok skipped⟩) :
    machine.run configuration executed unsupported (instruction :: rest) =
      next.run configuration (executed + 1) (unsupported + if skipped then 1 else 0) rest := by
  rw [run, if_neg (Nat.not_le_of_lt below), stepped]

/-- How the search for the body of a function ends. -/
inductive BoundsEnds (machine : Machine) (id : Id) : Except MachineError (Nat × Nat) → Prop
  /-- The ID is out of range. -/
  | outOfRange (above : ¬ id < machine.table.bound) :
      BoundsEnds machine id (.error (.idOutOfRange id machine.table.bound))
  /-- The ID stands for no function. -/
  | undefined {record : Record} (found : machine.table.get id = .ok record)
      (no_function : record.definition.function? = none) :
      BoundsEnds machine id (.error (.undefinedId id))
  /-- The function has no end. -/
  | unterminated {record : Record} {function : FunctionRecord}
      (found : machine.table.get id = .ok record)
      (is_function : record.definition.function? = some function)
      (no_stop : function.stop = none) : BoundsEnds machine id (.error (.unterminatedFunction id))
  /-- The function has a body. -/
  | bounded {record : Record} {function : FunctionRecord} {stop : Nat}
      (found : machine.table.get id = .ok record)
      (is_function : record.definition.function? = some function)
      (stop_eq : function.stop = some stop) : BoundsEnds machine id (.ok (function.start, stop))

/-- Every search for a body ends in one of these ways. -/
theorem boundsEnds (machine : Machine) (id : Id) :
    BoundsEnds machine id (machine.bodyBounds id) := by
  unfold bodyBounds
  cases found : machine.table.get id with
  | error error =>
      rw [Table.get] at found
      split at found
      · cases found
      · rename_i above
        cases found
        exact .outOfRange above
  | ok record =>
      dsimp only [Bind.bind, Except.bind]
      split
      · rename_i no_function
        exact .undefined found no_function
      · rename_i function is_function
        split
        · rename_i no_stop
          exact .unterminated found is_function no_stop
        · rename_i stop_eq
          exact .bounded found is_function stop_eq

/-- The body that is found is that of a function with an end. -/
theorem bodyBounds_eq_ok_iff {machine : Machine} {id : Id} {start stop : Nat} :
    machine.bodyBounds id = .ok (start, stop) ↔ ∃ record function,
      machine.table.get id = .ok record ∧ record.definition.function? = some function ∧
        function.start = start ∧ function.stop = some stop := by
  constructor
  · intro bounds
    have ends := machine.boundsEnds id
    rw [bounds] at ends
    cases ends with
    | bounded found is_function stop_eq => exact ⟨_, _, found, is_function, rfl, stop_eq⟩
  · rintro ⟨record, function, found, is_function, rfl, stop_eq⟩
    rw [bodyBounds, found]
    simp only [Bind.bind, Except.bind, is_function, stop_eq, pure, Except.pure]

/-- How a call of a function ends. -/
inductive CallEnds (configuration : Configuration) (machine : Machine) (id : Id) :
    Outcome Summary → Prop
  /-- The function has no body. -/
  | unbound {error : MachineError} (bounds : machine.bodyBounds id = .error error) :
      CallEnds configuration machine id ⟨machine, .error error⟩
  /-- The body is run to its end. -/
  | completed {start stop executed unsupported : Nat} {next : Machine}
      (bounds : machine.bodyBounds id = .ok (start, stop))
      (ran : (machine.withOutputs Slots.noOutputs).run configuration 0 0
        (machine.body start stop) = ⟨next, .ok (executed, unsupported)⟩) :
      CallEnds configuration machine id ⟨next, .ok ⟨id, executed, unsupported⟩⟩
  /-- The run of the body fails. -/
  | failed {start stop : Nat} {next : Machine} {error : MachineError}
      (bounds : machine.bodyBounds id = .ok (start, stop))
      (ran : (machine.withOutputs Slots.noOutputs).run configuration 0 0
        (machine.body start stop) = ⟨next, .error error⟩) :
      CallEnds configuration machine id ⟨next.withOutputs machine.slots.outputs, .error error⟩

/-- Every call ends in one of these ways. -/
theorem callEnds (configuration : Configuration) (machine : Machine) (id : Id) :
    CallEnds configuration machine id (machine.call configuration id) := by
  unfold call
  split
  · rename_i bounds
    exact .unbound bounds
  · rename_i bounds
    split
    · rename_i ran
      exact .completed bounds ran
    · rename_i ran
      exact .failed bounds ran

end Machine

end ShaderMachine
