import ShaderMachine.Proofs.BodyWalk
import ShaderMachine.Proofs.MachineFrame
import ShaderMachine.Proofs.ReachableLayout
import ShaderMachine.Proofs.TablesAlike

/-! # A call runs the body of its function

A call executes the instructions between the start and the end of its function, counts those that
are unsupported, and stops at the limit on instructions exactly if it gets that far.

* **`Table.skips`** — which instructions a machine skips as unsupported.
* **`Machine.Runs`** — instructions are executed one after the other without a fault.
* **`Machine.run_ok`** and **`Machine.run_limit_iff`** — what a run counts and when it is cut off.
* **`Machine.Reachable.call_body`** — what a call of a function executes. -/

namespace ShaderMachine

/-! ## Unsupported instructions -/

/-- Whether a machine skips an instruction as unsupported: it has no handler, or it asks for an
instruction that its imported set does not have. -/
def Table.skips (table : Table) (instruction : Instruction) : Bool :=
  match Opcode.ofNumber? instruction.opcode, instruction.operands with
  | some .extInst, _ :: _ :: setId :: number :: _ =>
      match Execution.extendedSet table setId with
      | .ok set => (set.instruction? number).isNone
      | .error _ => false
  | _, _ => !executionTable.contains instruction.opcode

/-- Tables that are alike skip the same instructions. -/
theorem Table.Alike.skips_eq {table next : Table} (alike : table.Alike next)
    (instruction : Instruction) : table.skips instruction = next.skips instruction := by
  rw [Table.skips, Table.skips]
  split
  · rename_i first second setId number rest known operands_eq
    rcases both_ok_or_error (fun _ => alike.extendedSet) (fun _ => alike.symm.extendedSet)
      with ⟨set, is_set, is_set'⟩ | ⟨error, error', is_set, is_set'⟩ <;> rw [is_set, is_set']
  · rfl

/-- An instruction without a handler is skipped. -/
theorem Table.skips_of_unregistered (table : Table) {instruction : Instruction}
    (missing : executionTable.get? instruction.opcode = none) :
    table.skips instruction = true := by
  unfold Table.skips
  split
  · rename_i known _
    rw [Dispatch.get?_of_known _ known] at missing
    cases missing
  · rw [Dispatch.not_contains_of_get? missing, Bool.not_false]

/-- An instruction with a handler that is no extended one is not skipped. -/
theorem Table.skips_of_plain (table : Table) {instruction : Instruction}
    {handler : ExecutionHandler}
    (registered : executionTable.get? instruction.opcode = some handler)
    (plain : Opcode.ofNumber? instruction.opcode ≠ some .extInst) :
    table.skips instruction = false := by
  unfold Table.skips
  split
  · rename_i known _
    exact absurd known plain
  · rw [Dispatch.contains_of_get? registered, Bool.not_true]

namespace Execution

variable {instruction : Instruction}

/-- An extended instruction with operands enough asks its set for what it is. -/
theorem extInst_operands (table : Table) (slots : Slots) {first second setId number : Word}
    {rest : List Word}
    (operands_eq : instruction.operands = first :: second :: setId :: number :: rest) :
    ∃ cursor, cursor.ahead = rest ∧ extInst table slots instruction instruction.cursor =
      (OperandReader.compute (extendedSet table setId) >>= fun set =>
        match set.instruction? number with
        | some known => do
            let operands ← readIds instruction known.arity
            OperandReader.compute
              (evaluateFloats table known.operation first second operands)
        | none => throw (.unsupportedExtended set.name number instruction.offset)) cursor := by
  obtain ⟨offset, opcode, operands⟩ := instruction
  subst operands_eq
  exact ⟨⟨offset + 1, [number, setId, second, first], rest⟩, rfl, rfl⟩

/-- An extended instruction with too few operands is malformed. -/
theorem extInst_short (table : Table) (slots : Slots)
    (few : ∀ first second setId number rest,
      instruction.operands ≠ first :: second :: setId :: number :: rest) :
    extInst table slots instruction instruction.cursor =
      .error (.binary (instruction.malformed .missingOperand)) := by
  obtain ⟨offset, opcode, operands⟩ := instruction
  match operands with
  | [] | [_] | [_, _] | [_, _, _] => rfl
  | first :: second :: setId :: number :: rest => exact absurd rfl (few _ _ _ _ _)

/-- An extended instruction is skipped exactly if it ends in a fault that is not fatal. -/
theorem extInst_skips (table : Table) (slots : Slots)
    (extended : Opcode.ofNumber? instruction.opcode = some .extInst) :
    Meets (extInst table slots instruction instruction.cursor)
      (fun _ => table.skips instruction = false)
      fun error => error.isFatal = false → table.skips instruction = true := by
  by_cases enough : ∃ first second setId number rest,
      instruction.operands = first :: second :: setId :: number :: rest
  · obtain ⟨first, second, setId, number, rest, operands_eq⟩ := enough
    have skips_eq (set : ExtendedSet) (is_set : extendedSet table setId = .ok set) :
        table.skips instruction = (set.instruction? number).isNone := by
      rw [Table.skips, extended, operands_eq]
      simp only [is_set]
    -- The only fault that is not fatal is that the set does not have the instruction.
    have fatal {α : Type} {result : Except MachineError α} {error : MachineError}
        (sound : ∀ other, Sound table other result) (failed : result = .error error)
        (harmless : error.isFatal = false) : table.skips instruction = true := by
      rw [Sound.isFatal sound failed] at harmless
      cases harmless
    obtain ⟨cursor, -, extInst_eq⟩ := extInst_operands table slots operands_eq
    rw [extInst_eq]
    suffices meets : OperandReader.Meets _ (fun _ : Effect => table.skips instruction = false)
        fun error => error.isFatal = false → table.skips instruction = true from meets cursor
    refine .computed ?_ fun set is_set => ?_
    · exact fun error => fatal fun _ => sound_extendedSet setId
    · rw [skips_eq set is_set]
      split
      · rename_i known found
        refine (meets_readIds (fun harmless => by cases harmless) known.arity).bind
          fun operands _ => ?_
        refine OperandReader.meets_compute (.of_cases (fun _ _ => ?_) fun error failed => ?_)
        · rw [found]
          rfl
        · rw [← skips_eq set is_set]
          exact fatal (fun _ => sound_evaluateFloats known.operation first second operands) failed
      · rename_i missing
        refine OperandReader.meets_throw fun _ => ?_
        rw [missing]
        rfl
  · rw [extInst_short table slots (by simpa using enough)]
    exact fun harmless => by cases harmless

end Execution

/-! ## Steps -/

/-- Whether a fault says that a body has no end or that what stands in it is no instruction. -/
def MachineError.BreaksBody : MachineError → Prop
  | .unterminatedFunction _ | .binary (.endOfStream _) | .binary (.malformed _ _ .emptyCount)
  | .binary (.malformed _ _ (.overrun _ _)) => True
  | _ => False

/-- The faults of executed instructions do not say so. -/
theorem MachineError.Arises.not_breaksBody {table : Table} {instruction : Instruction}
    {error : MachineError} (arises : error.Arises table instruction) : ¬ error.BreaksBody := by
  cases error with
  | binary error =>
      rcases arises with rfl | ⟨word, rfl⟩ | ⟨count, rfl⟩ <;> exact fun breaks => breaks
  | unterminatedFunction id => exact arises.elim
  | _ => exact fun breaks => breaks

namespace Machine

variable {configuration : Configuration} {machine : Machine} {instruction : Instruction}

/-- Carrying out an effect that fits ends in fatal faults only. -/
theorem isFatal_of_commit {effect : Effect} {error : MachineError}
    (fits : effect.Fits machine.table) (failed : (machine.commit effect).result = .error error) :
    error.isFatal = true := by
  have committed : (machine.commit effect).StepsFrom machine.table ⟨0, Opcode.nop.number, []⟩ :=
    commit_change fits
  exact (committed.2 error failed).isFatal (by decide) (by decide)

/-- What a handler yields or ends in says whether its instruction is skipped. -/
theorem handler_skips (table : Table) (slots : Slots) {handler : ExecutionHandler}
    (registered : executionTable.get? instruction.opcode = some handler) :
    Meets (handler table slots instruction instruction.cursor)
      (fun _ => table.skips instruction = false)
      fun error => error.isFatal = false → table.skips instruction = true := by
  -- An extended instruction may be skipped though it has a handler, others may not.
  by_cases extended : Opcode.ofNumber? instruction.opcode = some .extInst
  · have is_extInst := registered
    rw [Dispatch.get?_of_known _ extended] at is_extInst
    cases is_extInst
    exact Execution.extInst_skips table slots extended
  · have supported : executionTable.get? instruction.opcode ≠ none := by
      rw [registered]
      exact Option.some_ne_none handler
    refine (meets_handler table slots registered instruction.cursor).imp
      (fun _ _ => table.skips_of_plain registered extended) fun error arises harmless => ?_
    rw [arises.isFatal supported extended] at harmless
    cases harmless

/-- Running a handler says whether its instruction is skipped. -/
theorem handle_skips (machine : Machine) {handler : ExecutionHandler}
    (registered : executionTable.get? instruction.opcode = some handler) :
    Meets (machine.handle instruction handler).result
      (fun _ => machine.table.skips instruction = false)
      fun error => error.isFatal = false → machine.table.skips instruction = true := by
  have effects := meets_handler machine.table machine.slots registered instruction.cursor
  have skips := handler_skips machine.table machine.slots registered
  have ends := machine.handleEnds instruction handler
  generalize machine.handle instruction handler = outcome at ends ⊢
  cases ends with
  | failed failed => exact skips.error failed
  | refused yielded committed =>
      intro harmless
      have fatal := isFatal_of_commit (effects.value yielded) (congrArg Outcome.result committed)
      cases harmless.symm.trans fatal
  | leftOver yielded committed left_over => exact fun harmless => by cases harmless
  | done yielded committed at_end => exact skips.value yielded

/-- An instruction that is executed is skipped if the table says so. -/
theorem skips_of_step {next : Machine} {skipped : Bool}
    (stepped : machine.step configuration instruction = ⟨next, .ok skipped⟩) :
    skipped = machine.table.skips instruction := by
  have ends := machine.stepEnds configuration instruction
  rw [stepped] at ends
  cases ends with
  | passed missing lenient => exact (machine.table.skips_of_unregistered missing).symm
  | executed registered handled =>
      exact ((handle_skips machine registered).value (congrArg Outcome.result handled)).symm
  | skipped registered handled harmless lenient =>
      exact ((handle_skips machine registered).error (congrArg Outcome.result handled)
        harmless).symm

/-! ## Runs -/

/-- Whether a machine executes instructions one after the other, none of which fails, and becomes
another one. -/
inductive Runs (configuration : Configuration) : Machine → List Instruction → Machine → Prop
  /-- No instruction is left. -/
  | nil (machine : Machine) : Runs configuration machine [] machine
  /-- One instruction is executed, then the others. -/
  | cons {machine mid next : Machine} {instruction : Instruction} {rest : List Instruction}
      {skipped : Bool} (stepped : machine.step configuration instruction = ⟨mid, .ok skipped⟩)
      (runs : Runs configuration mid rest next) :
      Runs configuration machine (instruction :: rest) next

/-- A step that succeeds keeps the table alike. -/
theorem alike_of_step {next : Machine} {skipped : Bool}
    (stepped : machine.step configuration instruction = ⟨next, .ok skipped⟩) :
    machine.table.Alike next.table := by
  have change := (step_change configuration machine instruction).1
  rw [stepped] at change
  exact change.alike

/-- A run that completes counts every instruction and those that are skipped. -/
theorem run_ok {executed unsupported : Nat} {instructions : List Instruction}
    {answer : Nat × Nat}
    (ran : (machine.run configuration executed unsupported instructions).result = .ok answer) :
    answer = (executed + instructions.length,
      unsupported + instructions.countP machine.table.skips) := by
  have ends := machine.runEnds configuration executed unsupported instructions
  generalize machine.run configuration executed unsupported instructions = outcome at ends ran
  induction ends with
  | completed =>
      cases ran
      rfl
  | limited reached => cases ran
  | failed below stepped => cases ran
  | @continued _ _ machine next instruction rest _ _ below stepped ends hyp =>
      -- What is skipped does not change while instructions are executed.
      have same : next.table.skips = machine.table.skips := by
        funext other
        exact ((alike_of_step stepped).skips_eq other).symm
      rw [hyp ran, same, skips_of_step stepped, List.length_cons, List.countP_cons]
      simp only [Prod.mk.injEq]
      omega

/-- A run is cut off at the limit exactly if there are more instructions than may still be executed
and none of those that may be fails. -/
theorem run_limit_iff {executed unsupported : Nat} {instructions : List Instruction}
    (within : executed ≤ configuration.maxInstructions) :
    (∃ limit, (machine.run configuration executed unsupported instructions).result =
        .error (.executionLimitExceeded limit)) ↔
      configuration.maxInstructions < executed + instructions.length ∧
        ∃ next, Runs configuration machine
          (instructions.take (configuration.maxInstructions - executed)) next := by
  have ends := machine.runEnds configuration executed unsupported instructions
  generalize machine.run configuration executed unsupported instructions = outcome at ends ⊢
  -- While the limit is not reached, one instruction less may be executed after the first one.
  have less {executed : Nat} (below : executed < configuration.maxInstructions) :
      configuration.maxInstructions - executed =
        configuration.maxInstructions - (executed + 1) + 1 := by omega
  induction ends with
  | completed =>
      constructor
      · rintro ⟨limit, impossible⟩
        cases impossible
      · rintro ⟨beyond, -⟩
        rw [List.length_nil, Nat.add_zero] at beyond
        exact absurd within (Nat.not_le_of_lt beyond)
  | limited reached =>
      rw [Nat.sub_eq_zero_of_le reached, List.take_zero, List.length_cons]
      exact ⟨fun _ => ⟨by omega, _, .nil _⟩, fun _ => ⟨_, rfl⟩⟩
  | @failed _ _ machine _ instruction _ _ below stepped =>
      have arises := (step_change configuration machine instruction).2
      rw [stepped] at arises
      rw [less below, List.take_succ_cons]
      constructor
      · rintro ⟨limit, limited⟩
        cases limited
        exact (arises _ rfl).elim
      · rintro ⟨-, last, runs⟩
        cases runs with
        | cons stepped' _ => cases stepped.symm.trans stepped'
  | continued below stepped ends hyp =>
      refine (hyp below).trans ?_
      rw [less below, List.take_succ_cons, List.length_cons, Nat.add_assoc, Nat.add_comm 1]
      refine and_congr_right fun _ => ⟨?_, ?_⟩
      · rintro ⟨last, runs⟩
        exact ⟨last, .cons stepped runs⟩
      · rintro ⟨last, runs⟩
        cases runs with
        | cons stepped' runs =>
            cases stepped.symm.trans stepped'
            exact ⟨last, runs⟩

/-! ## Calls -/

/-- A call that finds its body ends as its run does. -/
theorem call_result {id : Id} {start stop : Nat}
    (bounds : machine.bodyBounds id = .ok (start, stop)) :
    (machine.call configuration id).result =
      ((machine.withOutputs Slots.noOutputs).run configuration 0 0
        (machine.body start stop)).result.map fun (executed, unsupported) =>
          ⟨id, executed, unsupported⟩ := by
  have ends := machine.callEnds configuration id
  generalize machine.call configuration id = outcome at ends ⊢
  cases ends with
  | unbound unbound => cases bounds.symm.trans unbound
  | completed bounds' ran | failed bounds' ran =>
      cases bounds.symm.trans bounds'
      rw [ran]
      rfl

section

variable {id : Id} {start stop : Nat} (bounds : machine.bodyBounds id = .ok (start, stop))

include bounds

/-- A call that finds its body does not fail for the lack of an end or of an instruction. -/
theorem not_breaksBody_of_call {error : MachineError}
    (failed : (machine.call configuration id).result = .error error) : ¬ error.BreaksBody := by
  have faults := (run_changes configuration 0 0 (machine.withOutputs Slots.noOutputs)
    (machine.body start stop)).2
  rw [call_result bounds] at failed
  cases ran : ((machine.withOutputs Slots.noOutputs).run configuration 0 0
      (machine.body start stop)).result with
  | error fault =>
      rw [ran] at failed
      cases failed
      rcases faults error ran with rfl | ⟨table, -, instruction, -, arises⟩
      · exact fun breaks => breaks
      · exact arises.not_breaksBody
  | ok answer =>
      rw [ran] at failed
      cases failed

/-- A call that completes reports its function and counts the instructions of its body. -/
theorem summary_of_call {summary : Summary}
    (completed : (machine.call configuration id).result = .ok summary) :
    summary = ⟨id, (machine.body start stop).length,
      (machine.body start stop).countP machine.table.skips⟩ := by
  rw [call_result bounds] at completed
  obtain ⟨answer, ran, rfl⟩ := exists_of_map completed
  rw [run_ok ran, Nat.zero_add, Nat.zero_add]
  rfl

/-- A call is cut off at the limit exactly if its body is longer than that and none of the
instructions that may be executed fails. -/
theorem call_limit_iff :
    (∃ limit, (machine.call configuration id).result = .error (.executionLimitExceeded limit)) ↔
      configuration.maxInstructions < (machine.body start stop).length ∧
        ∃ next, Runs configuration (machine.withOutputs Slots.noOutputs)
          ((machine.body start stop).take configuration.maxInstructions) next := by
  have limited : (∃ limit, ((machine.withOutputs Slots.noOutputs).run configuration 0 0
      (machine.body start stop)).result = .error (.executionLimitExceeded limit)) ↔ _ :=
    run_limit_iff (Nat.zero_le configuration.maxInstructions)
  rw [Nat.zero_add, Nat.sub_zero] at limited
  rw [← limited, call_result bounds]
  cases ((machine.withOutputs Slots.noOutputs).run configuration 0 0
    (machine.body start stop)).result with
  | error fault => exact exists_congr fun limit => by simp [Except.map]
  | ok answer => exact exists_congr fun limit => by simp [Except.map]

end

/-- The body of a function of a reachable machine lies between its head and its end. A call finds
it by walking over the words of the module, executes all of it and counts its instructions and
those that are unsupported, or stops at the limit on instructions if it gets that far. -/
theorem Reachable.call_body {words : List Word} {loaded : Module}
    (loads : Module.ofWords words = .ok loaded) (reachable : Reachable loaded machine) {id : Id}
    {record : Record} {function : FunctionRecord} (found : machine.table.get id = .ok record)
    (is_function : record.definition.function? = some function) :
    ∃ stop body, function.Bounded id loaded stop ∧ body = loaded.between function.start stop ∧
      (loaded.cursor.seek function.start >>= Cursor.walk stop) = .ok body ∧
      ∀ configuration,
        (∀ error, (machine.call configuration id).result = .error error → ¬ error.BreaksBody) ∧
        (∀ summary, (machine.call configuration id).result = .ok summary →
          summary = ⟨id, body.length, body.countP machine.table.skips⟩) ∧
        ((∃ limit, (machine.call configuration id).result =
            .error (.executionLimitExceeded limit)) ↔
          configuration.maxInstructions < body.length ∧
            ∃ next, Runs configuration (machine.withOutputs Slots.noOutputs)
              (body.take configuration.maxInstructions) next) := by
  obtain ⟨-, -, framed, -⟩ := Module.ofWords_inv loads
  obtain ⟨loaded_eq, first, setup, passed, changes⟩ := reachable.exists_setUp
  -- Calls change data alone, so the function is the one that the setup has declared.
  obtain ⟨declared, found_declared, declares_function⟩ :=
    changes.alike.symm.function? found is_function
  have spans := Setup.spans_of_run passed found_declared declares_function
  obtain ⟨stop, bounded, walk, body_eq⟩ := spans.exists_bounded framed
  refine ⟨stop, loaded.between function.start stop, bounded, rfl, walk, fun configuration => ?_⟩
  have bounds := bodyBounds_eq_ok_iff.mpr
    ⟨record, function, found, is_function, rfl, bounded.stop_eq⟩
  rw [← body_eq machine loaded_eq]
  exact ⟨fun _ => not_breaksBody_of_call bounds, fun _ => summary_of_call bounds,
    call_limit_iff bounds⟩

/-- The body of the entry point of a module with private state starts behind its head and ends at
its end. -/
theorem call_body_flagged : ∃ machine, ofModule {} flagged = .ok machine ∧
    ∃ function stop, FunctionRecord.Bounded function 1 flagged stop := by
  have loads : Module.ofWords flagged.words = .ok flagged :=
    Module.ofWords_words (by decide) (by decide) (by decide) (by decide) rfl
  have evaluated : (ofModule {} flagged).toOption.any (fun machine => decide
      ((machine.table.get 1).map (fun record => record.definition.function?) =
        .ok (some ⟨3, 4, 0, 48, some 61⟩))) = true := by decide +kernel
  obtain ⟨machine, set_up, has_function⟩ := exists_of_any evaluated
  have has_function := of_decide_eq_true has_function
  cases found : machine.table.get 1 with
  | error error =>
      rw [found] at has_function
      cases has_function
  | ok record =>
      rw [found] at has_function
      obtain ⟨stop, body, bounded, -⟩ :=
        (Reachable.setUp set_up).call_body loads found (Except.ok.inj has_function)
      exact ⟨machine, set_up, _, stop, bounded⟩

end Machine

end ShaderMachine
