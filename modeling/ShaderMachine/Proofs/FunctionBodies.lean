import ShaderMachine.Proofs.Framing
import ShaderMachine.Proofs.SetupSteps

/-! # Where function bodies start and end

The pass over a module notes for every function where its body starts, right behind the head of the
function, and where it ends. No other function starts or ends in between.

* **`FunctionRecord.Spans`** — a function's body is a stretch of instructions.
* **`Setup.Traces`** — after some instructions, the functions seen so far span their bodies, and the
  open one goes on.
* **`Setup.spans_of_run`** — after the pass over a module, every function spans its body. -/

namespace ShaderMachine

/-! ## Stretches of instructions -/

namespace Instruction

/-- Whether an instruction is the head of a function. -/
def OpensFunction (instruction : Instruction) : Prop :=
  Opcode.ofNumber? instruction.opcode = some .function

/-- Whether an instruction is the end of a function. -/
def ClosesFunction (instruction : Instruction) : Prop :=
  Opcode.ofNumber? instruction.opcode = some .functionEnd

/-- Whether an instruction stands within the body of a function or outside of all functions. -/
def IsInner (instruction : Instruction) : Prop :=
  ¬ instruction.OpensFunction ∧ ¬ instruction.ClosesFunction

end Instruction

namespace FunctionRecord

/-- Whether a function that has no end yet starts behind its head, which names it, with nothing but
its body after that. -/
def Trails (function : FunctionRecord) (id : Id) (instructions : List Instruction) : Prop :=
  function.stop = none ∧ ∃ before head body, instructions = before ++ head :: body ∧
    (head.OpensFunction ∧ head.operands[1]? = some id) ∧ function.start = head.stop ∧
    ∀ instruction ∈ body, instruction.IsInner

/-- Whether a function starts behind its head, which names it, and ends at the next end of a
function, with nothing but its body in between. -/
def Spans (function : FunctionRecord) (id : Id) (instructions : List Instruction) : Prop :=
  ∃ before head body closing after,
    instructions = before ++ head :: (body ++ closing :: after) ∧
      (head.OpensFunction ∧ head.operands[1]? = some id) ∧ function.start = head.stop ∧
      (∀ instruction ∈ body, instruction.IsInner) ∧
      closing.ClosesFunction ∧ function.stop = some closing.offset

variable {function : FunctionRecord} {id : Id} {instructions : List Instruction}
  {instruction : Instruction}

/-- A function that starts with the last instruction. -/
theorem trails_of_head {before : List Instruction} (opens : instruction.OpensFunction)
    (own : instruction.operands[1]? = some id) (start : function.start = instruction.stop)
    (stop : function.stop = none) : function.Trails id (before ++ [instruction]) :=
  ⟨stop, before, instruction, [], rfl, ⟨opens, own⟩, start, by simp⟩

/-- A function goes on over an instruction that neither starts nor ends one. -/
theorem Trails.append (trails : function.Trails id instructions) (inner : instruction.IsInner) :
    function.Trails id (instructions ++ [instruction]) := by
  obtain ⟨stop, before, head, body, rfl, opens, start, inners⟩ := trails
  refine ⟨stop, before, head, body ++ [instruction], ?_, opens, start, ?_⟩
  · rw [List.append_assoc, List.cons_append]
  · rw [List.forall_mem_append, List.forall_mem_singleton]
    exact ⟨inners, inner⟩

/-- A function ends with an instruction that ends one. -/
theorem Trails.close (trails : function.Trails id instructions)
    (closes : instruction.ClosesFunction) :
    { function with stop := some instruction.offset }.Spans id (instructions ++ [instruction]) := by
  obtain ⟨stop, before, head, body, rfl, opens, start, inners⟩ := trails
  refine ⟨before, head, body, instruction, [], ?_, opens, start, inners, closes, rfl⟩
  rw [List.append_assoc, List.cons_append]

/-- A function that has ended stays where it is. -/
theorem Spans.append (spans : function.Spans id instructions) (more : List Instruction) :
    function.Spans id (instructions ++ more) := by
  obtain ⟨before, head, body, closing, after, rfl, opens, start, inners, closes, stop⟩ := spans
  refine ⟨before, head, body, closing, after ++ more, ?_, opens, start, inners, closes, stop⟩
  rw [List.append_assoc, List.cons_append, List.append_assoc, List.cons_append]

end FunctionRecord

/-! ## The pass over a module -/

namespace Setup

variable {configuration : Configuration} {setup next : Setup} {instruction : Instruction}
  {done : List Instruction}

/-- Whether the functions that a setup has seen span their bodies, the open one apart, which goes
on. -/
def Traces (setup : Setup) (done : List Instruction) : Prop :=
  ∀ id record function, setup.table.get id = .ok record →
    record.definition.function? = some function →
      (setup.openFunction = some id ∧ function.Trails id done) ∨
        (setup.openFunction ≠ some id ∧ function.Spans id done)

/-- Before the first instruction no function is seen. -/
theorem traces_ofModule (loaded : Module) : (ofModule loaded).Traces [] := by
  intro id record function found is_function
  obtain ⟨-, rfl⟩ := Table.get_eq_ok_iff.mp found
  rw [ofModule, Table.ofBound, Std.TreeMap.getD_emptyc] at is_function
  cases is_function

/-- A declaration gives no ID another function. -/
theorem function?_of_declares {gives : Prop} {table next : Table}
    (declares : table.Declares gives next) {id : Id}
    {record : Record} {function : FunctionRecord} (found : next.get id = .ok record)
    (is_function : record.definition.function? = some function) :
    ∃ before, table.get id = .ok before ∧ before.definition.function? = some function := by
  cases declares with
  | keep => exact ⟨record, found, is_function⟩
  | @describe changed_id before changed found_before same =>
      rcases Table.get_put_inv found_before found with ⟨rfl, rfl⟩ | ⟨-, kept⟩
      · exact ⟨before, found_before, same ▸ is_function⟩
      · exact ⟨record, kept, is_function⟩
  | @define changed_id before definition found_before fresh fits plain =>
      rcases Table.get_put_inv found_before found with ⟨rfl, rfl⟩ | ⟨-, kept⟩
      · cases plain.symm.trans is_function
      · exact ⟨record, kept, is_function⟩
  | @enter changed_id before changed entry found_before enters _ same =>
      rcases Table.get_put_inv found_before found with ⟨rfl, rfl⟩ | ⟨-, kept⟩
      · exact ⟨before, found_before, same.symm.trans is_function⟩
      · exact ⟨record, kept, is_function⟩

/-- A declaration other than that of a function goes on with the open function. -/
theorem Declares.traces {gives : Prop} (declares : setup.Declares gives next)
    (inner : instruction.IsInner)
    (traces : setup.Traces done) : next.Traces (done ++ [instruction]) := by
  intro id record function found is_function
  obtain ⟨before, found_before, was_function⟩ :=
    function?_of_declares declares.2 found is_function
  rw [declares.1]
  rcases traces id before function found_before was_function with ⟨opened, trails⟩ | ⟨other, spans⟩
  · exact Or.inl ⟨opened, trails.append inner⟩
  · exact Or.inr ⟨other, spans.append _⟩

/-- The head of a function starts its body. -/
theorem Opens.traces (opens : setup.Opens instruction next) (head : instruction.OpensFunction)
    (names : ∀ id, next.openFunction = some id → instruction.operands[1]? = some id)
    (traces : setup.Traces done) : next.Traces (done ++ [instruction]) := by
  obtain ⟨closed, opened, before, changed, body, found_before, -, -, -, begun, start, stop,
    table_eq, open_eq⟩ := opens
  intro id record function found is_function
  have own := names opened open_eq
  rw [table_eq] at found
  rw [open_eq]
  -- The new function goes on; all others have ended, as none was open.
  rcases Table.get_put_inv found_before found with ⟨rfl, rfl⟩ | ⟨different, kept⟩
  · obtain rfl : body = function := Option.some.inj (begun.symm.trans is_function)
    exact Or.inl ⟨rfl, FunctionRecord.trails_of_head head own start stop⟩
  · rcases traces id record function kept is_function with ⟨impossible, -⟩ | ⟨-, spans⟩
    · rw [closed] at impossible
      cases impossible
    · refine Or.inr ⟨fun same => different (Option.some.inj same).symm, spans.append _⟩

/-- Noting its end changes nothing else about a function. -/
theorem function?_endFunction (definition : Definition) (stop : Nat) :
    (definition.endFunction stop).function? =
      definition.function?.map fun function => { function with stop := some stop } := by
  cases definition <;> rfl

/-- The end of a function ends its body. -/
theorem Closes.traces (closes : setup.Closes instruction next)
    (closing : instruction.ClosesFunction) (traces : setup.Traces done) :
    next.Traces (done ++ [instruction]) := by
  obtain ⟨closed, before, opened, found_before, table_eq, open_eq⟩ := closes
  intro id record function found is_function
  rw [table_eq] at found
  rw [open_eq]
  refine Or.inr ⟨by simp, ?_⟩
  -- The open function ends; all others have ended before.
  rcases Table.get_put_inv found_before found with ⟨rfl, rfl⟩ | ⟨different, kept⟩
  · rw [Record.ended, function?_endFunction] at is_function
    obtain ⟨begun, was_function, rfl⟩ := Option.map_eq_some_iff.mp is_function
    rcases traces id before begun found_before was_function with ⟨-, trails⟩ | ⟨other, -⟩
    · exact trails.close closing
    · exact absurd opened other
  · rcases traces id record function kept is_function with ⟨same, -⟩ | ⟨-, spans⟩
    · rw [opened] at same
      exact absurd (Option.some.inj same).symm different
    · exact spans.append _

/-- An instruction of a module goes on with the functions. -/
theorem traces_of_step (stepped : setup.step configuration instruction = .ok next)
    (traces : setup.Traces done) : next.Traces (done ++ [instruction]) := by
  have moves := step_inv stepped
  unfold Moves at moves
  split at moves
  · rename_i known
    exact Opens.traces moves known (fun _ => operand_of_step stepped known) traces
  · rename_i known
    exact Closes.traces moves known traces
  · rename_i no_function no_end
    exact Declares.traces moves ⟨no_function, no_end⟩ traces

/-- Instructions of a module go on with the functions. -/
theorem traces_of_foldlM {instructions : List Instruction} {last : Setup}
    (traces : setup.Traces done)
    (passed : instructions.foldlM (step configuration) setup = .ok last) :
    last.Traces (done ++ instructions) := by
  -- The invariant is about the instructions done so far, so it is kept step by step.
  induction instructions generalizing setup done with
  | nil =>
      cases passed
      rw [List.append_nil]
      exact traces
  | cons instruction instructions hyp =>
      rw [List.foldlM_cons] at passed
      obtain ⟨next, stepped, passed⟩ := exists_of_bind passed
      have more := hyp (traces_of_step stepped traces) passed
      rw [List.append_assoc, List.singleton_append] at more
      exact more

/-- After the pass over a module every function spans its body. -/
theorem spans_of_run {loaded : Module} (passed : run configuration loaded = .ok setup) {id : Id}
    {record : Record} {function : FunctionRecord} (found : setup.table.get id = .ok record)
    (is_function : record.definition.function? = some function) :
    function.Spans id loaded.instructions := by
  obtain ⟨folded, none_open⟩ := run_inv passed
  have traces := traces_of_foldlM (traces_ofModule loaded) folded
  rw [List.nil_append] at traces
  rcases traces id record function found is_function with ⟨opened, -⟩ | ⟨-, spans⟩
  · rw [none_open] at opened
    cases opened
  · exact spans

end Setup

end ShaderMachine
