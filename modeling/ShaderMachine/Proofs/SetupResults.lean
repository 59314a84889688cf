import ShaderMachine.Proofs.BodyWalk
import ShaderMachine.Proofs.References

/-! # Whose values and variables a setup holds

The pass over a module gives values and variables to the results of its instructions, and leaves
the results of what a function body executes alone. What it leads to depends on nothing but the
module: the limits only decide whether it succeeds.

* **`Table.HoldsData`** — an ID stands for a value or a variable.
* **`Setup.holdsData_of_foldlM`** — after a pass this was so before or the ID is a result.
* **`Setup.not_holdsData_of_run`** — results of executed instructions hold no data after the pass.
* **`Setup.run_eq`** — passes under different limits lead to the same setup. -/

namespace ShaderMachine

/-- Whether an ID stands for a value or a variable. -/
def Table.HoldsData (table : Table) (id : Id) : Prop :=
  ∃ record, table.get id = .ok record ∧ record.definition.IsData

/-- What holds data after a record was written held it before or was written to. -/
theorem Table.HoldsData.of_put {table : Table} {id written : Id} {record changed : Record}
    (holds : (table.put written changed).HoldsData id) (found : table.get written = .ok record) :
    id = written ∧ changed.definition.IsData ∨ table.HoldsData id := by
  obtain ⟨present, read, is_data⟩ := holds
  rcases Table.get_put_inv found read with ⟨same, rfl⟩ | ⟨-, kept⟩
  · exact Or.inl ⟨same, is_data⟩
  · exact Or.inr ⟨present, kept, is_data⟩

namespace Setup

open OperandReader

variable {configuration other : Configuration} {setup next last : Setup} {instruction : Instruction}
  {id : Id}

/-! ## Instructions that give data -/

/-- Whether a setup only adds the definition of an ID to another one, if anything. -/
def GivesTo (setup : Setup) (id : Id) (next : Setup) : Prop :=
  next.table = setup.table ∨ ∃ definition, setup.table.define id definition = .ok next.table

/-- Adding a definition does so. -/
theorem meets_withDefinition (definition : Definition) :
    (setup.withDefinition id definition).Meets (setup.GivesTo id) fun _ => True := by
  refine meets_compute (.of_cases ?_ fun _ _ => trivial)
  intro next is
  obtain ⟨table, defined, rfl⟩ := exists_of_map is
  exact Or.inr ⟨definition, defined⟩

/-- What is given to the ID that is read after a type is given to the result. -/
theorem gives_of_words {opcode : Opcode} {cursor : Cursor}
    {rest : Word → Word → OperandReader Setup}
    (known : Opcode.ofNumber? instruction.opcode = some opcode)
    (second : opcode.layout.fixed.idxOf? .result = some 1)
    (gives : ∀ type id, (rest type id).Meets (setup.GivesTo id) fun _ => True)
    (handled : (readWord instruction >>= fun type => readWord instruction >>= rest type)
      instruction.cursor = .ok (next, cursor)) :
    ∃ id, instruction.result? = some id ∧ setup.GivesTo id next := by
  obtain ⟨type, first, first_eq, handled⟩ := exists_word handled
  obtain ⟨id, last, last_eq, handled⟩ := exists_word handled
  have operands_eq : instruction.operands = type :: id :: last.ahead := by
    rw [← last_eq, ← first_eq]
    rfl
  refine ⟨id, ?_, (gives type id last).value handled⟩
  rw [Instruction.result?_eq_second known second, operands_eq]
  rfl

/-- An instruction that may give data gives it to its result, if to any ID. -/
theorem gives_of_handler {handler : SetupHandler} {cursor : Cursor}
    (registered : setupTable.get? instruction.opcode = some handler) (gives : instruction.GivesData)
    (handled : handler configuration setup instruction instruction.cursor = .ok (next, cursor)) :
    next.table = setup.table ∨ ∃ id, instruction.result? = some id ∧ setup.GivesTo id next := by
  obtain ⟨opcode, known, registered⟩ := Option.bind_eq_some_iff.mp registered
  rw [Instruction.GivesData, known] at gives
  -- Each of these handlers reads a type and an ID first, and gives the ID its definition last.
  cases opcode with
  | constantTrue | constantFalse =>
      cases registered
      refine Or.inr (gives_of_words known rfl (fun type id => ?_) handled)
      exact .computed (fun _ _ => trivial) fun _ _ => meets_withDefinition _
  | constant =>
      cases registered
      refine Or.inr (gives_of_words known rfl (fun type id => ?_) handled)
      refine .computed (fun _ _ => trivial) fun _ _ => ?_
      exact .counted trivial fun _ _ => meets_withDefinition _
  | constantComposite =>
      cases registered
      refine Or.inr (gives_of_words known rfl (fun type id => ?_) handled)
      refine .words fun constituents => ?_
      exact .computed (fun _ _ => trivial) fun _ _ => meets_withDefinition _
  | functionParameter =>
      cases registered
      refine Or.inr (gives_of_words known rfl (fun type id => ?_) handled)
      split
      · exact meets_malformed trivial
      · exact .computed (fun _ _ => trivial) fun _ _ => meets_withDefinition _
  | variableDecl =>
      cases registered
      unfold variableDecl at handled
      split at handled
      · cases handled
        exact Or.inl rfl
      · rw [Execution.readVariable] at handled
        simp only [bind_assoc] at handled
        refine Or.inr (gives_of_words known rfl (fun type id => ?_) handled)
        refine .word trivial fun storageWord => ?_
        refine .optional fun initializer => ?_
        refine (Execution.meets_storageOfWord trivial).bind fun storage _ => ?_
        refine .computed (fun _ _ => trivial) fun contents _ => ?_
        exact meets_withDefinition _
  | _ => simp at gives

/-! ## The pass over a module -/

/-- A declaration that may not give data gives none. -/
theorem holdsData_of_declares {table last : Table} (declares : table.Declares False last)
    (holds : last.HoldsData id) : table.HoldsData id := by
  cases declares with
  | keep => exact holds
  | @describe written record changed found same =>
      rcases holds.of_put found with ⟨rfl, is_data⟩ | before
      · exact ⟨record, found, same ▸ is_data⟩
      · exact before
  | define found fresh fits plain data =>
      exact (holds.of_put found).resolve_left fun written => data written.2
  | enter found enters before same =>
      refine (holds.of_put found).resolve_left fun written => ?_
      rw [enters] at written
      exact written.2

/-- Noting where a function ends makes no data. -/
theorem isData_of_endFunction {definition : Definition} {stop : Nat}
    (is_data : (definition.endFunction stop).IsData) : definition.IsData := by
  cases definition with
  | constant value => trivial
  | var contents => trivial
  | _ => cases is_data

/-- After an instruction an ID holds data if it did before or is the result. -/
theorem holdsData_of_step (stepped : setup.step configuration instruction = .ok next)
    (holds : next.table.HoldsData id) :
    setup.table.HoldsData id ∨ instruction.result? = some id := by
  by_cases gives : instruction.GivesData
  · -- An instruction that gives data gives it to its result.
    rcases step_cases stepped with ⟨handler, cursor, registered, handled⟩ | ⟨-, rfl⟩
    · rcases gives_of_handler registered gives handled with same | ⟨named, result, given⟩
      · exact Or.inl (same ▸ holds)
      · rcases given with same | ⟨definition, defined⟩
        · exact Or.inl (same ▸ holds)
        · obtain ⟨record, found, -, table_eq⟩ := Table.define_inv defined
          rw [table_eq] at holds
          rcases holds.of_put found with ⟨rfl, -⟩ | before
          · exact Or.inr result
          · exact Or.inl before
    · exact Or.inl holds
  · -- All other instructions leave data to those that may give it.
    left
    have moves := step_inv stepped
    unfold Moves at moves
    split at moves
    · obtain ⟨-, opened, record, changed, body, found, -, -, enters, -, -, -, table_eq, -⟩ := moves
      rw [table_eq] at holds
      refine (holds.of_put found).resolve_left fun ⟨_, is_data⟩ => ?_
      rcases enters with ⟨entry, is_entry⟩ | is_function
      · rw [is_entry] at is_data
        exact is_data
      · rw [is_function] at is_data
        exact is_data
    · obtain ⟨closed, record, -, found, table_eq, -⟩ := moves
      rw [table_eq] at holds
      rcases holds.of_put found with ⟨rfl, is_data⟩ | before
      · exact ⟨record, found, isData_of_endFunction is_data⟩
      · exact before
    · rw [eq_false gives] at moves
      exact holdsData_of_declares moves.2 holds

/-- After instructions an ID holds data if it did before or is the result of one of them. -/
theorem holdsData_of_foldlM {instructions : List Instruction}
    (passed : instructions.foldlM (step configuration) setup = .ok last)
    (holds : last.table.HoldsData id) :
    setup.table.HoldsData id ∨ ∃ instruction ∈ instructions, instruction.result? = some id := by
  refine foldlM_preserves (P := fun next => next.table.HoldsData id →
      setup.table.HoldsData id ∨ ∃ instruction ∈ instructions, instruction.result? = some id)
    (fun before next instruction mem stepped given holds => ?_) passed Or.inl holds
  rcases holdsData_of_step stepped holds with held | result
  · exact given held
  · exact Or.inr ⟨instruction, mem, result⟩

/-! ## Instructions of function bodies -/

/-- An executed instruction that gives data is passed over in a function. -/
theorem step_of_assigns? {kind : DefinitionKind}
    (assigns : instruction.assigns? = some (id, kind)) (opened : setup.openFunction.isSome = true)
    (stepped : setup.step configuration instruction = .ok next) : next.table = setup.table := by
  obtain ⟨opcode, known, assigns⟩ := Option.bind_eq_some_iff.mp assigns
  obtain ⟨kind, has_kind, -⟩ := Option.bind_eq_some_iff.mp assigns
  rcases step_cases stepped with ⟨handler, cursor, registered, handled⟩ | ⟨-, rfl⟩
  · rw [Dispatch.get?_of_known _ known] at registered
    -- The only one of them that is declared outside of functions, too, is a variable.
    cases opcode with
    | variableDecl =>
        cases registered
        rw [variableDecl, if_pos opened] at handled
        cases handled
        rfl
    | load | compositeConstruct | compositeExtract | fNegate | fAdd | fSub | fMul | fDiv
    | vectorTimesScalar | dot | extInst => cases registered
    | _ => cases has_kind
  · rfl

/-- A function stays open over the instructions of its body. -/
theorem isSome_openFunction {body : List Instruction} (opened : setup.openFunction.isSome = true)
    (inners : ∀ instruction ∈ body, instruction.IsInner)
    (passed : body.foldlM (step configuration) setup = .ok last) :
    last.openFunction.isSome = true := by
  induction body generalizing setup with
  | nil =>
      cases passed
      exact opened
  | cons instruction body hyp =>
      rw [List.foldlM_cons] at passed
      obtain ⟨next, stepped, passed⟩ := exists_of_bind passed
      refine hyp ?_ (fun other mem => inners other (List.mem_cons_of_mem instruction mem)) passed
      obtain ⟨no_function, no_end⟩ := inners instruction List.mem_cons_self
      have moves := step_inv stepped
      unfold Moves at moves
      split at moves
      · exact absurd ‹_› no_function
      · exact absurd ‹_› no_end
      · rw [moves.1]
        exact opened

/-- The head of a function opens it. -/
theorem isSome_of_head (head : instruction.OpensFunction)
    (stepped : setup.step configuration instruction = .ok next) :
    next.openFunction.isSome = true := by
  have moves := step_inv stepped
  rw [Moves, head] at moves
  obtain ⟨-, opened, -, -, -, -, -, -, -, -, -, -, -, open_eq⟩ := moves
  rw [open_eq]
  rfl

/-- After the pass over a module with distinct results, what an instruction of a function body gives
data when it is executed does not hold any yet. -/
theorem not_holdsData_of_run {loaded : Module} (distinct : loaded.DistinctResults)
    (passed : run configuration loaded = .ok setup)
    {before body after : List Instruction} {head : Instruction} {kind : DefinitionKind}
    (instructions_eq : loaded.instructions = before ++ head :: (body ++ after))
    (opens : head.OpensFunction) (inners : ∀ instruction ∈ body, instruction.IsInner)
    (mem : instruction ∈ body) (assigns : instruction.assigns? = some (id, kind)) :
    ¬ setup.table.HoldsData id := by
  intro holds
  obtain ⟨folded, -⟩ := run_inv passed
  obtain ⟨front, back, rfl⟩ := List.append_of_mem mem
  have result := Instruction.result?_of_assigns? assigns
  -- Data comes neither from the instructions before nor from the one itself or those after.
  have split_eq : loaded.instructions =
      (before ++ head :: front) ++ instruction :: (back ++ after) := by
    rw [instructions_eq]
    simp
  obtain ⟨not_before, not_after⟩ := distinct.not_mem_results split_eq result
  rw [split_eq, List.foldlM_append] at folded
  obtain ⟨first, passed_before, folded⟩ := exists_of_bind folded
  rw [List.foldlM_cons] at folded
  obtain ⟨second, stepped, passed_after⟩ := exists_of_bind folded
  have opened : first.openFunction.isSome = true := by
    rw [List.foldlM_append] at passed_before
    obtain ⟨outside, -, passed_before⟩ := exists_of_bind passed_before
    rw [List.foldlM_cons] at passed_before
    obtain ⟨inside, stepped_head, passed_front⟩ := exists_of_bind passed_before
    exact isSome_openFunction (isSome_of_head opens stepped_head)
      (fun other mem => inners other (List.mem_append_left _ mem)) passed_front
  rcases holdsData_of_foldlM passed_after holds with holds | ⟨later, mem_later, result'⟩
  · rw [step_of_assigns? assigns opened stepped] at holds
    rcases holdsData_of_foldlM passed_before holds with empty | ⟨earlier, mem_earlier, result'⟩
    · obtain ⟨record, found, is_data⟩ := empty
      obtain ⟨-, rfl⟩ := Table.get_eq_ok_iff.mp found
      rw [ofModule, Table.ofBound, Std.TreeMap.getD_emptyc] at is_data
      exact is_data
    · exact not_before earlier mem_earlier result'
  · exact not_after later mem_later result'

/-! ## Limits -/

/-- A decoration is noted the same under all limits that admit it. -/
theorem decorate_eq {cursor : Cursor} {answer answer' : Setup × Cursor}
    (noted : decorate configuration setup instruction cursor = .ok answer)
    (noted' : decorate other setup instruction cursor = .ok answer') : answer = answer' := by
  obtain ⟨⟨target, first⟩, read, noted⟩ := exists_of_bind noted
  obtain ⟨⟨target', first'⟩, read', noted'⟩ := exists_of_bind noted'
  cases read.symm.trans read'
  obtain ⟨⟨kind, second⟩, read, noted⟩ := exists_of_bind noted
  obtain ⟨⟨kind', second'⟩, read', noted'⟩ := exists_of_bind noted'
  cases read.symm.trans read'
  obtain ⟨⟨entry, third⟩, read, noted⟩ := exists_of_bind noted
  obtain ⟨⟨entry', third'⟩, read', noted'⟩ := exists_of_bind noted'
  cases read.symm.trans read'
  -- What is left differs in the check of the limit alone.
  unfold withTable at noted noted'
  cases found : setup.table.get target with
  | error error =>
      rw [found] at noted
      cases noted
  | ok record =>
      rw [found] at noted noted'
      simp only [bind, Except.bind] at noted noted'
      split at noted
      · cases noted
      · split at noted'
        · cases noted'
        · exact Except.ok.inj (noted.symm.trans noted')

/-- All other handlers do the same under all limits. -/
theorem handler_eq {handler : SetupHandler}
    (registered : setupTable.get? instruction.opcode = some handler)
    (plain : Opcode.ofNumber? instruction.opcode ≠ some .decorate) :
    handler configuration = handler other := by
  obtain ⟨opcode, known, registered⟩ := Option.bind_eq_some_iff.mp registered
  rw [known] at plain
  cases opcode <;> cases registered <;> first | rfl | exact absurd rfl plain

/-- An instruction of a module does the same under all limits that admit it. -/
theorem step_eq {next' : Setup} (stepped : setup.step configuration instruction = .ok next)
    (stepped' : setup.step other instruction = .ok next') : next = next' := by
  rcases step_cases stepped with ⟨handler, cursor, registered, handled⟩ | ⟨missing, kept⟩
  · rcases step_cases stepped' with ⟨handler', cursor', registered', handled'⟩ | ⟨missing, -⟩
    · cases registered.symm.trans registered'
      by_cases decorates : Opcode.ofNumber? instruction.opcode = some .decorate
      · rw [Dispatch.get?_of_known _ decorates] at registered
        cases registered
        exact congrArg Prod.fst (decorate_eq handled handled')
      · rw [handler_eq registered decorates, handled'] at handled
        cases handled
        rfl
    · cases registered.symm.trans missing
  · -- Without a handler the limits only decide whether the instruction is a fault.
    rcases step_cases stepped' with ⟨handler, cursor, registered, handled⟩ | ⟨-, kept'⟩
    · cases registered.symm.trans missing
    · exact kept.trans kept'.symm

/-- Instructions of a module do the same under all limits that admit them. -/
theorem foldlM_eq {instructions : List Instruction} {last' : Setup}
    (passed : instructions.foldlM (step configuration) setup = .ok last)
    (passed' : instructions.foldlM (step other) setup = .ok last') : last = last' := by
  induction instructions generalizing setup with
  | nil => exact Except.ok.inj (passed.symm.trans passed')
  | cons instruction instructions hyp =>
      rw [List.foldlM_cons] at passed passed'
      obtain ⟨next, stepped, passed⟩ := exists_of_bind passed
      obtain ⟨next', stepped', passed'⟩ := exists_of_bind passed'
      cases step_eq stepped stepped'
      exact hyp passed passed'

/-- A pass over a module leads to the same setup under all limits under which it succeeds. -/
theorem run_eq {loaded : Module} {setup' : Setup} (passed : run configuration loaded = .ok setup)
    (passed' : run other loaded = .ok setup') : setup = setup' := by
  obtain ⟨last, folded, closed⟩ := exists_of_bind passed
  obtain ⟨last', folded', closed'⟩ := exists_of_bind passed'
  cases foldlM_eq folded folded'
  exact Except.ok.inj (closed.symm.trans closed')

end Setup

end ShaderMachine
