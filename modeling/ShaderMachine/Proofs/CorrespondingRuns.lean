import Mathlib.Data.List.Forall2
import ShaderMachine.Proofs.Correspondence

/-! # Setups and machines that correspond

An instruction that is accepted or executed does the same to a setup or a machine that corresponds
to the first one, under limits that admit as much. An instruction that no table of handlers knows
is passed over, so it may stand in one of two lists of instructions alone.

* **`Configuration.Relaxes`** — one configuration admits whatever another one admits.
* **`Aligned`** — two lists of instructions differ in places and unknown instructions alone.
* **`Setup.Corresponds.foldlM`** — declarations keep setups in correspondence.
* **`Machine.Corresponds.runs`** and **`Machine.Corresponds.call`** — so do executed instructions,
  and calls. -/

namespace ShaderMachine

/-! ## Limits -/

/-- Whether a configuration admits whatever another one admits. -/
structure Configuration.Relaxes (configuration other : Configuration) : Prop where
  /-- A call may execute as many instructions. -/
  maxInstructions : configuration.maxInstructions ≤ other.maxInstructions
  /-- An ID may have as many decorations. -/
  maxDecorations : configuration.maxDecorations ≤ other.maxDecorations
  /-- It is not strict unless the first one is. -/
  lenient : other.strict = true → configuration.strict = true

/-- A configuration admits what it admits. -/
theorem Configuration.Relaxes.refl (configuration : Configuration) :
    configuration.Relaxes configuration :=
  ⟨Nat.le_refl _, Nat.le_refl _, id⟩

variable {places : Places} {configuration configuration' : Configuration}
  {instruction instruction' : Instruction}

/-! ## Instructions side by side -/

/-- Whether two lists have instructions that correspond, and besides them some unknown ones: the
numbers say how many in the first list and how many in the second. -/
inductive Aligned (places : Places) :
    List Instruction → List Instruction → Nat → Nat → Prop
  /-- No instruction is left. -/
  | nil : Aligned places [] [] 0 0
  /-- Two instructions correspond. -/
  | cons {instruction instruction' : Instruction} {rest rest' : List Instruction}
      {extra extra' : Nat} (corresponds : instruction.Corresponds places instruction')
      (aligned : Aligned places rest rest' extra extra') :
      Aligned places (instruction :: rest) (instruction' :: rest') extra extra'
  /-- An unknown instruction stands in the first list alone. -/
  | left {instruction : Instruction} {rest rest' : List Instruction} {extra extra' : Nat}
      (unknown : Opcode.ofNumber? instruction.opcode = none)
      (aligned : Aligned places rest rest' extra extra') :
      Aligned places (instruction :: rest) rest' (extra + 1) extra'
  /-- An unknown instruction stands in the second list alone. -/
  | right {instruction' : Instruction} {rest rest' : List Instruction} {extra extra' : Nat}
      (unknown : Opcode.ofNumber? instruction'.opcode = none)
      (aligned : Aligned places rest rest' extra extra') :
      Aligned places rest (instruction' :: rest') extra (extra' + 1)

namespace Aligned

variable {first second : List Instruction} {extra extra' : Nat}

/-- Lists of instructions that correspond one by one. -/
theorem of_forall₂ (corresponds : List.Forall₂ (Instruction.Corresponds places) first second) :
    Aligned places first second 0 0 := by
  induction corresponds with
  | nil => exact .nil
  | cons corresponds _ hyp => exact .cons corresponds hyp

/-- Unknown instructions alone. -/
theorem of_unknown (unknown : ∀ instruction ∈ second, Opcode.ofNumber? instruction.opcode = none) :
    Aligned places [] second 0 second.length := by
  induction second with
  | nil => exact .nil
  | cons instruction second hyp =>
      rw [List.forall_mem_cons] at unknown
      exact .right unknown.1 (hyp unknown.2)

/-- Lists one after the other. -/
theorem append {first' second' : List Instruction} {more more' : Nat}
    (aligned : Aligned places first second extra extra')
    (rest : Aligned places first' second' more more') :
    Aligned places (first ++ first') (second ++ second') (extra + more) (extra' + more') := by
  induction aligned with
  | nil =>
      rw [Nat.zero_add, Nat.zero_add]
      exact rest
  | cons corresponds _ hyp => exact .cons corresponds hyp
  | left unknown _ hyp =>
      rw [Nat.add_right_comm]
      exact .left unknown hyp
  | right unknown _ hyp =>
      rw [Nat.add_right_comm]
      exact .right unknown hyp

/-- Instructions correspond the other way around. -/
theorem flip (aligned : Aligned places first second extra extra') :
    Aligned places.flip second first extra' extra := by
  induction aligned with
  | nil => exact .nil
  | cons corresponds _ hyp =>
      exact .cons ⟨corresponds.opcode.symm, corresponds.operands.symm, corresponds.stands,
        corresponds.starts⟩ hyp
  | left unknown _ hyp => exact .right unknown hyp
  | right unknown _ hyp => exact .left unknown hyp

/-- The lists differ in length by the unknown instructions. -/
theorem length_eq (aligned : Aligned places first second extra extra') :
    second.length + extra = first.length + extra' := by
  induction aligned with
  | nil => rfl
  | cons | left | right =>
      simp only [List.length_cons]
      omega

end Aligned

/-! ## Setups -/

/-- Whether two setups have recorded the same but for places. -/
structure Setup.Corresponds (places : Places) (first second : Setup) : Prop where
  /-- The tables correspond. -/
  table : first.table.Corresponds places second.table
  /-- Both are in the body of the same function. -/
  openFunction : second.openFunction = first.openFunction
  /-- Names were counted alike. -/
  nameAllocations : second.nameAllocations = first.nameAllocations

/-- A record that is defined corresponds to one that is defined alike. -/
theorem Record.Corresponds.defined {record other changed : Record} {id : Id}
    {definition definition' : Definition} (corresponds : record.Corresponds places other)
    (definitions : definition.Corresponds places definition')
    (is_defined : record.defined id definition = .ok changed) :
    ∃ changed', other.defined id definition' = .ok changed' ∧
      changed.Corresponds places changed' := by
  unfold Record.defined at is_defined ⊢
  rw [corresponds.isUnset_eq]
  split at is_defined
  · rename_i unset
    cases is_defined
    rw [if_pos unset]
    exact ⟨_, rfl, corresponds.name, corresponds.decorations, definitions⟩
  · cases is_defined

/-- Entry points that are declared for definitions that correspond do. -/
theorem Definition.Corresponds.declareEntryPoint {definition definition' next : Definition}
    {id : Id} {model : ExecutionModel} {text : String} {interface : List Id}
    (corresponds : definition.Corresponds places definition')
    (declared : Setup.declareEntryPoint id definition model text interface = .ok next) :
    ∃ next', Setup.declareEntryPoint id definition' model text interface = .ok next' ∧
      next.Corresponds places next' := by
  cases Setup.entersPoint_of_declareEntryPoint declared with
  | first =>
      cases corresponds with
      | unset => exact ⟨_, rfl, .entryPoint ⟨rfl, rfl, rfl, rfl, .none⟩⟩
      | readable readable => cases readable
  | again entry =>
      cases corresponds with
      | readable readable => cases readable
      | entryPoint entries =>
          refine ⟨_, rfl, .entryPoint ⟨?_, ?_, entries.modes, ?_, entries.function⟩⟩
          · simp only [EntryPointRecord.augment, entries.models]
          · simp only [EntryPointRecord.augment, entries.names]
          · simp only [EntryPointRecord.augment, entries.interface]
  | promoted body =>
      cases corresponds with
      | readable readable => cases readable
      | function bodies => exact ⟨_, rfl, .entryPoint ⟨rfl, rfl, rfl, rfl, .some bodies⟩⟩

/-- Functions that are declared for definitions that correspond do. -/
theorem Definition.Corresponds.declareFunction {definition definition' next : Definition}
    {id : Id} {body body' : FunctionRecord}
    (corresponds : definition.Corresponds places definition')
    (bodies : body.Corresponds places body')
    (declared : Setup.declareFunction id definition body = .ok next) :
    ∃ next', Setup.declareFunction id definition' body' = .ok next' ∧
      next.Corresponds places next' := by
  cases Setup.beginsFunction_of_declareFunction declared with
  | first =>
      cases corresponds with
      | unset => exact ⟨_, rfl, .function bodies⟩
      | readable readable => cases readable
  | entered entry bodiless =>
      cases corresponds with
      | readable readable => cases readable
      | @entryPoint _ second entries =>
          obtain ⟨models', names', modes', interface', function'⟩ := second
          obtain ⟨models_eq, names_eq, modes_eq, interface_eq, functions⟩ := entries
          rw [bodiless] at functions
          cases functions
          exact ⟨_, rfl, .entryPoint ⟨models_eq, names_eq, modes_eq, interface_eq, .some bodies⟩⟩

/-- Functions of definitions that correspond may be ended alike. -/
theorem Definition.Corresponds.endFunction {definition definition' : Definition} {stop stop' : Nat}
    (corresponds : definition.Corresponds places definition') (stands : places.stands stop stop') :
    (definition.endFunction stop).Corresponds places (definition'.endFunction stop') := by
  have ended {first second : FunctionRecord} (bodies : first.Corresponds places second) :
      FunctionRecord.Corresponds places { first with stop := some stop }
        { second with stop := some stop' } :=
    ⟨bodies.returnType, bodies.functionType, bodies.control, bodies.start, .some stands⟩
  cases corresponds with
  | unset => exact .unset
  | readable readable =>
      cases definition with
      | type | constant | var | extendedSet => exact .readable readable
      | _ => cases readable
  | @entryPoint first second entries =>
      obtain ⟨models, names, modes, interface, function⟩ := first
      obtain ⟨models', names', modes', interface', function'⟩ := second
      obtain ⟨models_eq, names_eq, modes_eq, interface_eq, functions⟩ := entries
      refine .entryPoint ⟨models_eq, names_eq, modes_eq, interface_eq, ?_⟩
      cases functions with
      | some bodies => exact .some (ended bodies)
      | none => exact .none
  | function bodies => exact .function (ended bodies)
  | label stands => exact .label stands

/-- A declaration about records that correspond makes records that correspond. -/
theorem Record.Corresponds.apply {record other changed : Record} {id : Id}
    {declaration : Declaration} (relaxes : configuration.Relaxes configuration')
    (instructions : instruction.Corresponds places instruction')
    (corresponds : record.Corresponds places other)
    (applied : declaration.apply configuration instruction id record = .ok changed) :
    ∃ changed', declaration.apply configuration' instruction' id other = .ok changed' ∧
      changed.Corresponds places changed' := by
  -- A declaration that reads no definition keeps what corresponds; the others do on both sides what
  -- the definitions that correspond admit.
  cases declaration with
  | name text =>
      cases applied
      exact ⟨_, rfl, rfl, corresponds.decorations, corresponds.definition⟩
  | decoration entry =>
      cases Declaration.applies_of_apply applied with
      | decoration room =>
          have room' : ¬ configuration'.maxDecorations ≤ other.decorations.length := by
            have more := relaxes.maxDecorations
            rw [corresponds.decorations]
            omega
          rw [Declaration.apply, if_neg room']
          refine ⟨_, rfl, corresponds.name, ?_, corresponds.definition⟩
          simp only [Record.decorated, corresponds.decorations]
  | definition given readable => exact corresponds.defined (.readable readable) applied
  | label => exact corresponds.defined (.label instructions.stands) applied
  | entryPoint model text interface =>
      rw [Declaration.apply] at applied ⊢
      obtain ⟨next, declared, rfl⟩ := exists_of_map applied
      obtain ⟨next', declared', definitions⟩ := corresponds.definition.declareEntryPoint declared
      rw [declared']
      exact ⟨_, rfl, rfl, corresponds.decorations, definitions⟩
  | executionMode mode literals =>
      cases Declaration.applies_of_apply applied with
      | executionMode is_entry =>
          have definitions := corresponds.definition
          rw [is_entry] at definitions
          generalize is_entry' : other.definition = definition' at definitions
          cases definitions with
          | readable readable => cases readable
          | entryPoint entries =>
              rw [Declaration.apply, is_entry']
              refine ⟨_, rfl, corresponds.name, corresponds.decorations, .entryPoint
                ⟨entries.models, entries.names, ?_, entries.interface, entries.function⟩⟩
              simp only [entries.modes]
  | function returnType functionType control =>
      rw [Declaration.apply] at applied ⊢
      have bodies : FunctionRecord.Corresponds places
          ⟨returnType, functionType, control, instruction.stop, none⟩
          ⟨returnType, functionType, control, instruction'.stop, none⟩ :=
        ⟨rfl, rfl, rfl, instructions.starts, .none⟩
      obtain ⟨next, declared, rfl⟩ := exists_of_map applied
      obtain ⟨next', declared', definitions⟩ :=
        corresponds.definition.declareFunction bodies declared
      rw [declared']
      exact ⟨_, rfl, corresponds.name, corresponds.decorations, definitions⟩
  | functionEnd =>
      cases applied
      exact ⟨_, rfl, corresponds.name, corresponds.decorations,
        corresponds.definition.endFunction instructions.stands⟩

/-- Records that correspond are renamed by the same declarations. -/
theorem Record.Corresponds.renames_eq {record other : Record}
    (corresponds : record.Corresponds places other) (declaration : Declaration) :
    declaration.renames other = declaration.renames record := by
  have renamed (text : String) : other.isRenamedBy text = record.isRenamedBy text := by
    rw [isRenamedBy, isRenamedBy, corresponds.name]
  cases declaration with
  | name | entryPoint => simp only [Declaration.renames, renamed]
  | _ => rfl

namespace Setup

variable {first second next : Setup}

/-- An unknown instruction is counted, and ends a strict pass. -/
theorem step_of_unknown (setup : Setup) (unknown : Opcode.ofNumber? instruction.opcode = none) :
    setup.step configuration instruction =
      if configuration.strict then
        .error (.unsupportedOpcode instruction.opcode instruction.offset)
      else .ok { setup with unsupported := setup.unsupported + 1 } := by
  have not_executed : executionTable.contains instruction.opcode = false :=
    Dispatch.not_contains_of_get? (executionTable.get?_of_unknown unknown)
  rw [step, setupTable.get?_of_unknown unknown]
  simp only [not_executed, Bool.and_false, Bool.false_eq_true, if_false]

namespace Corresponds

/-- An instruction that is accepted is accepted by a setup that corresponds, and keeps the
correspondence. -/
theorem step (corresponds : first.Corresponds places second)
    (relaxes : configuration.Relaxes configuration')
    (instructions : instruction.Corresponds places instruction')
    (stepped : first.step configuration instruction = .ok next) :
    ∃ next', second.step configuration' instruction' = .ok next' ∧
      next.Corresponds places next' ∧
      next'.unsupported + first.unsupported = next.unsupported + second.unsupported := by
  have parallel := step_parallel corresponds.table.shows corresponds.openFunction
    instructions.opcode instructions.operands relaxes.lenient stepped
  generalize second.step configuration' instruction' = result at parallel ⊢
  cases parallel with
  | kept => exact ⟨second, rfl, corresponds, Nat.add_comm _ _⟩
  | skipped =>
      refine ⟨_, rfl, ⟨corresponds.table, corresponds.openFunction, corresponds.nameAllocations⟩,
        ?_⟩
      simp only
      omega
  | declared id declaration made =>
      obtain ⟨record, changed, found, applied, rfl⟩ := declare_inv made
      obtain ⟨other, found', records⟩ := corresponds.table.get found
      obtain ⟨changed', applied', changes⟩ := records.apply relaxes instructions applied
      rw [declare, found']
      simp only [bind, Except.bind, applied']
      refine ⟨_, rfl, ⟨corresponds.table.put found changes, ?_, ?_⟩, Nat.add_comm _ _⟩
      · rw [corresponds.openFunction]
      · rw [corresponds.nameAllocations, records.renames_eq]

/-- Instructions that are accepted are accepted by a setup that corresponds, and keep the
correspondence; unknown ones besides them are counted. -/
theorem foldlM {instructions instructions' : List Instruction} {extra extra' : Nat}
    (corresponds : first.Corresponds places second)
    (relaxes : configuration.Relaxes configuration')
    (aligned : Aligned places instructions instructions' extra extra')
    (lenient : extra' ≠ 0 → configuration'.strict = false)
    (passed : instructions.foldlM (Setup.step configuration) first = .ok next) :
    ∃ next', instructions'.foldlM (Setup.step configuration') second = .ok next' ∧
      next.Corresponds places next' ∧
      next'.unsupported + first.unsupported + extra =
        next.unsupported + second.unsupported + extra' := by
  -- Induction on the alignment: an instruction on one side alone is unknown, so it is counted there
  -- and the setups go on corresponding.
  induction aligned generalizing first second with
  | nil =>
      cases passed
      exact ⟨second, rfl, corresponds, by omega⟩
  | cons instructions _ hyp =>
      rw [List.foldlM_cons] at passed ⊢
      obtain ⟨mid, stepped, passed⟩ := exists_of_bind passed
      obtain ⟨mid', stepped', mids, counted⟩ := corresponds.step relaxes instructions stepped
      obtain ⟨next', passed', nexts, counted'⟩ := hyp mids lenient passed
      rw [stepped']
      exact ⟨next', passed', nexts, by omega⟩
  | left unknown _ hyp =>
      rw [List.foldlM_cons, first.step_of_unknown unknown] at passed
      split at passed
      · cases passed
      · have counts : Setup.Corresponds places
            { first with unsupported := first.unsupported + 1 } second :=
          ⟨corresponds.table, corresponds.openFunction, corresponds.nameAllocations⟩
        obtain ⟨next', passed', nexts, counted⟩ := hyp counts lenient passed
        exact ⟨next', passed', nexts, by simp only at counted; omega⟩
  | right unknown _ hyp =>
      have not_strict := lenient (Nat.succ_ne_zero _)
      rw [List.foldlM_cons, second.step_of_unknown unknown, not_strict]
      have counts : first.Corresponds places
          { second with unsupported := second.unsupported + 1 } :=
        ⟨corresponds.table, corresponds.openFunction, corresponds.nameAllocations⟩
      obtain ⟨next', passed', nexts, counted⟩ := hyp counts (fun _ => not_strict) passed
      exact ⟨next', passed', nexts, by simp only at counted; omega⟩

end Corresponds

/-- A module that is accepted is accepted with a larger bound, less strict limits, and unknown
instructions besides the others, which are counted. -/
theorem corresponds_of_run {loaded loaded' : Module} {extra extra' : Nat}
    (bound_le : loaded.bound ≤ loaded'.bound)
    (relaxes : configuration.Relaxes configuration')
    (aligned : Aligned places loaded.instructions loaded'.instructions extra extra')
    (lenient : extra' ≠ 0 → configuration'.strict = false)
    (passed : Setup.run configuration loaded = .ok next) :
    ∃ next', Setup.run configuration' loaded' = .ok next' ∧ next.Corresponds places next' ∧
      next'.unsupported + extra = next.unsupported + extra' := by
  obtain ⟨folded, closed⟩ := run_inv passed
  have fresh : (Setup.ofModule loaded).Corresponds places (Setup.ofModule loaded') :=
    ⟨.ofBound bound_le, rfl, rfl⟩
  obtain ⟨next', folded', nexts, counted⟩ := fresh.foldlM relaxes aligned lenient folded
  refine ⟨next', ?_, nexts, counted⟩
  rw [Setup.run, folded']
  simp only [bind, Except.bind, nexts.openFunction, closed]
  rfl

end Setup

/-! ## Machines -/

/-- Whether two machines have records that are the same but for places, the same interface, and
names that were counted alike. -/
structure Machine.Corresponds (places : Places) (first second : Machine) : Prop where
  /-- The tables correspond. -/
  table : first.table.Corresponds places second.table
  /-- The interfaces hold the same. -/
  slots : second.slots = first.slots
  /-- Names were counted alike. -/
  nameAllocations : second.nameAllocations = first.nameAllocations

/-- Data is readable. -/
theorem Definition.IsData.readable {definition : Definition} (is_data : definition.IsData) :
    definition.IsReadable := by
  cases definition with
  | constant | var => trivial
  | _ => cases is_data

/-- Tables that correspond have the same imported sets. -/
theorem Table.Corresponds.extendedSet {first second : Table} {id : Id} {set : ExtendedSet}
    (corresponds : first.Corresponds places second)
    (is_set : Execution.extendedSet second id = .ok set) :
    Execution.extendedSet first id = .ok set := by
  obtain ⟨record, found, is_set⟩ := exists_of_bind is_set
  obtain ⟨-, rfl⟩ := get_eq_ok_iff.mp found
  have records := corresponds.records id
  split at is_set
  · rename_i imported definition_eq
    cases is_set
    have definitions := records.definition
    rw [definition_eq] at definitions
    generalize definition_eq' : (first.records.getD id {}).definition = definition at definitions
    cases definitions
    -- Nothing is imported beyond the first bound.
    have below : id < first.bound := by
      refine UInt32.not_le.mp fun above => ?_
      rw [corresponds.beyond id above] at definition_eq'
      cases definition_eq'
    rw [Execution.extendedSet, get_eq_ok_iff.mpr ⟨below, rfl⟩]
    simp only [bind, Except.bind, definition_eq', pure, Except.pure]
  · cases is_set
  · cases is_set

/-- Tables that correspond have the same instructions skipped. -/
theorem Table.Corresponds.skips_eq {first second : Table}
    (corresponds : first.Corresponds places second)
    (instructions : instruction.Corresponds places instruction') :
    second.skips instruction' = first.skips instruction := by
  rw [skips, skips, instructions.opcode, instructions.operands]
  split
  · rename_i setId number rest _ _
    rcases both_ok_or_error (fun set => (corresponds.shows setId).follows_extendedSet set)
      (fun _ => corresponds.extendedSet)
      with ⟨set, is_set, is_set'⟩ | ⟨error, error', is_set, is_set'⟩ <;> rw [is_set, is_set']
  · rfl

namespace Machine

variable {first second next : Machine}

/-- What a store through a variable comes to. -/
theorem storeBytes_of_variable {pointer object : Id} {bytes : Bytes} {record : Record}
    {contents : Variable} (found : first.table.get pointer = .ok record)
    (is_variable : record.definition = .var contents) :
    first.storeBytes pointer object bytes =
      match storedData pointer object bytes contents with
      | .error error => ⟨first, .error error⟩
      | .ok data =>
          let table := first.table.put pointer
            { record with definition := .var { contents with data } }
          match if contents.storage = .output then record.location? else none with
          | none => ⟨{ first with table }, .ok ()⟩
          | some location =>
              match first.slots.write location bytes with
              | .ok slots => ⟨{ first with table, slots }, .ok ()⟩
              | .error error => ⟨{ first with table }, .error error⟩ := by
  rw [storeBytes, Table.changeData, found, outputLocation?_of_variable found is_variable]
  simp only [is_variable]
  cases storedData pointer object bytes contents <;> rfl

namespace Corresponds

/-- An effect that is carried out on a machine is carried out on one that corresponds. -/
theorem commit {effect : Effect} (corresponds : first.Corresponds places second)
    (fits : effect.Fits first.table) (committed : first.commit effect = ⟨next, .ok ()⟩) :
    ∃ next', second.commit effect = ⟨next', .ok ()⟩ ∧ next.Corresponds places next' := by
  cases effect with
  | nothing =>
      cases committed
      exact ⟨second, rfl, corresponds⟩
  | assign id definition =>
      obtain ⟨record, found, before, rfl⟩ := commit_assign_inv committed
      obtain ⟨other, found', records⟩ := corresponds.table.get found
      rw [Machine.commit, Table.replace_eq found' (before.imp records.definition.isUnset_iff.mpr
        records.definition.kind_eq.trans)]
      refine ⟨_, rfl, corresponds.table.put found ⟨records.name, records.decorations,
        .readable fits.1.readable⟩, corresponds.slots, corresponds.nameAllocations⟩
  -- Both variables hold the same, so the store ends the same on both sides.
  | store pointer object bytes =>
      rw [Machine.commit] at committed ⊢
      obtain ⟨record, contents, found, is_variable, -⟩ := storeBytes_inv committed
      obtain ⟨other, found', records⟩ := corresponds.table.get found
      have is_variable' : other.definition = .var contents := by
        rw [← is_variable]
        refine records.definition.eq_of_readable ?_
        rw [is_variable]
        trivial
      rw [storeBytes_of_variable found is_variable] at committed
      rw [storeBytes_of_variable found' is_variable', records.location?_eq, corresponds.slots]
      cases stored : storedData pointer object bytes contents with
      | error error =>
          rw [stored] at committed
          cases committed
      | ok data =>
          rw [stored] at committed
          have tables : (first.table.put pointer
              { record with definition := .var { contents with data } }).Corresponds places
              (second.table.put pointer
                { other with definition := .var { contents with data } }) :=
            corresponds.table.put found ⟨records.name, records.decorations, .readable trivial⟩
          simp only at committed ⊢
          split at committed
          · cases committed
            exact ⟨_, rfl, tables, rfl, corresponds.nameAllocations⟩
          · split at committed
            · cases committed
              exact ⟨_, rfl, tables, rfl, corresponds.nameAllocations⟩
            · cases committed

/-- An instruction that is executed is executed by a machine that corresponds, and keeps the
correspondence. -/
theorem step {skipped : Bool} (corresponds : first.Corresponds places second)
    (relaxes : configuration.Relaxes configuration')
    (instructions : instruction.Corresponds places instruction')
    (stepped : first.step configuration instruction = ⟨next, .ok skipped⟩) :
    ∃ next', second.step configuration' instruction' = ⟨next', .ok skipped⟩ ∧
      next.Corresponds places next' := by
  rcases step_again corresponds.table.shows (congrArg Slots.inputs corresponds.slots.symm)
      instructions.opcode instructions.operands relaxes.lenient stepped with
    ⟨rfl, rfl, stepped'⟩ | ⟨rfl, effect, fits, committed, ends⟩
  · exact ⟨second, stepped', corresponds⟩
  · obtain ⟨next', committed', nexts⟩ := corresponds.commit fits committed
    exact ⟨next', ends next' _ committed', nexts⟩

/-- Instructions that are executed are executed by a machine that corresponds, which skips unknown
ones besides them. -/
theorem runs {instructions instructions' : List Instruction} {extra extra' : Nat}
    (corresponds : first.Corresponds places second)
    (relaxes : configuration.Relaxes configuration')
    (aligned : Aligned places instructions instructions' extra extra')
    (lenient : extra' ≠ 0 → configuration'.strict = false)
    (runs : Runs configuration first instructions next) :
    ∃ next', Runs configuration' second instructions' next' ∧ next.Corresponds places next' := by
  -- As for setups, except that unknown instructions are counted by the run.
  induction aligned generalizing first second with
  | nil =>
      cases runs
      exact ⟨second, .nil second, corresponds⟩
  | cons instructions _ hyp =>
      cases runs with
      | cons stepped runs =>
          obtain ⟨mid', stepped', mids⟩ := corresponds.step relaxes instructions stepped
          obtain ⟨next', runs', nexts⟩ := hyp mids lenient runs
          exact ⟨next', .cons stepped' runs', nexts⟩
  | left unknown _ hyp =>
      cases runs with
      | cons stepped runs =>
          have skips := first.table.skips_of_unregistered
            (executionTable.get?_of_unknown unknown)
          rcases yields_of_step stepped with ⟨-, rfl⟩ | ⟨executes, -⟩
          · exact hyp corresponds lenient runs
          · cases skips.symm.trans executes
  | right unknown _ hyp =>
      have not_strict := lenient (Nat.succ_ne_zero _)
      have stepped' := step_of_skips (second.table.skips_of_unregistered
        (executionTable.get?_of_unknown unknown)) not_strict
      obtain ⟨next', runs', nexts⟩ := hyp corresponds (fun _ => not_strict) runs
      exact ⟨next', .cons stepped' runs', nexts⟩

end Corresponds

/-- Instructions that are executed one after the other complete a run if they are no more than may
be. -/
theorem Runs.run_eq {instructions : List Instruction} {executed unsupported : Nat}
    (runs : Runs configuration first instructions next)
    (enough : executed + instructions.length ≤ configuration.maxInstructions) :
    first.run configuration executed unsupported instructions = ⟨next,
      .ok (executed + instructions.length,
        unsupported + instructions.countP first.table.skips)⟩ := by
  have completes : ∃ answer,
      first.run configuration executed unsupported instructions = ⟨next, .ok answer⟩ := by
    induction runs generalizing executed unsupported with
    | nil machine => exact ⟨_, rfl⟩
    | cons stepped _ hyp =>
        rw [List.length_cons] at enough
        rw [run_cons (by omega) stepped]
        exact hyp (by omega)
  obtain ⟨answer, ran⟩ := completes
  rw [ran, run_ok (congrArg Outcome.result ran)]

end Machine

/-- Tables that correspond skip as many instructions, but for the unknown ones. -/
theorem Aligned.countP_skips {first second : Table} {instructions instructions' : List Instruction}
    {extra extra' : Nat} (aligned : Aligned places instructions instructions' extra extra')
    (corresponds : first.Corresponds places second) :
    instructions'.countP second.skips + extra = instructions.countP first.skips + extra' := by
  induction aligned with
  | nil => rfl
  | cons instructions _ hyp =>
      rw [List.countP_cons, List.countP_cons, corresponds.skips_eq instructions]
      omega
  | left unknown _ hyp =>
      rw [List.countP_cons_of_pos
        (first.skips_of_unregistered (executionTable.get?_of_unknown unknown))]
      omega
  | right unknown _ hyp =>
      rw [List.countP_cons_of_pos
        (second.skips_of_unregistered (executionTable.get?_of_unknown unknown))]
      omega

/-! ## Calls -/

/-- Whether the bodies of two modules whose places go together differ in unknown instructions alone,
of which the second one has as many more as the places of the first one say. -/
def Module.BodiesAlign (places : Places) (extra : Nat → Nat → Nat) (loaded loaded' : Module) :
    Prop :=
  ∀ (first second : Machine) (start start' stop stop' : Nat),
    first.loaded = loaded → second.loaded = loaded' → places.starts start start' →
    places.stands stop stop' →
      Aligned places (first.body start stop) (second.body start' stop') 0 (extra start stop)

/-- How many more instructions a call of a function executes. -/
def Machine.extraAt (extra : Nat → Nat → Nat) (machine : Machine) (id : Id) : Nat :=
  match machine.bodyBounds id with
  | .ok (start, stop) => extra start stop
  | .error _ => 0

/-- A summary of a call that executes some more instructions, all of which are skipped. -/
def Summary.lengthened (summary : Summary) (more : Nat) : Summary :=
  { summary with executed := summary.executed + more, unsupported := summary.unsupported + more }

namespace Machine.Corresponds

variable {first second next : Machine} {id : Id}

/-- Bodies of functions that correspond start and end at places that go together. -/
theorem bodyBounds {start stop : Nat} (corresponds : first.Corresponds places second)
    (bounds : first.bodyBounds id = .ok (start, stop)) :
    ∃ start' stop', second.bodyBounds id = .ok (start', stop') ∧
      places.starts start start' ∧ places.stands stop stop' := by
  obtain ⟨record, function, found, is_function, rfl, stop_eq⟩ := bodyBounds_eq_ok_iff.mp bounds
  obtain ⟨other, found', records⟩ := corresponds.table.get found
  have functions := records.definition.function?
  rw [is_function] at functions
  generalize is_function' : other.definition.function? = function' at functions
  cases functions with
  | @some _ function' bodies =>
      have stops := bodies.stop
      rw [stop_eq] at stops
      generalize stop_eq' : function'.stop = stop' at stops
      cases stops with
      | some stands =>
          exact ⟨_, _, bodyBounds_eq_ok_iff.mpr ⟨other, function', found', is_function', rfl,
            stop_eq'⟩, bodies.start, stands⟩

/-- A call that completes does so on a machine that corresponds, and executes besides the unknown
instructions that its body has there. -/
theorem call {loaded loaded' : Module} {extra : Nat → Nat → Nat} {summary : Summary}
    (corresponds : first.Corresponds places second)
    (relaxes : configuration.Relaxes configuration') (loaded_eq : first.loaded = loaded)
    (loaded_eq' : second.loaded = loaded') (aligned : loaded.BodiesAlign places extra loaded')
    (lenient : ∀ start stop, extra start stop ≠ 0 → configuration'.strict = false)
    (called : first.call configuration id = ⟨next, .ok summary⟩)
    (enough : summary.executed + first.extraAt extra id ≤ configuration'.maxInstructions) :
    ∃ next', second.call configuration' id =
        ⟨next', .ok (summary.lengthened (first.extraAt extra id))⟩ ∧
      next.Corresponds places next' := by
  obtain ⟨start, stop, bounds, runs⟩ := call_inv called
  obtain ⟨start', stop', bounds', starts, stands⟩ := corresponds.bodyBounds bounds
  have extra_eq : first.extraAt extra id = extra start stop := by rw [extraAt, bounds]
  have bodies := aligned first second start start' stop stop' loaded_eq loaded_eq' starts stands
  -- Both calls start without outputs.
  have fresh : (first.withOutputs Slots.noOutputs).Corresponds places
      (second.withOutputs Slots.noOutputs) :=
    ⟨corresponds.table, by rw [withOutputs, withOutputs, corresponds.slots],
      corresponds.nameAllocations⟩
  obtain ⟨next', runs', nexts⟩ := fresh.runs relaxes bodies (lenient start stop) runs
  have summary_eq := summary_of_call bounds (congrArg Outcome.result called)
  have lengths := bodies.length_eq
  have counts := bodies.countP_skips corresponds.table
  -- The longer body still fits under the limit.
  have within : 0 + (second.body start' stop').length ≤ configuration'.maxInstructions := by
    rw [summary_eq, extra_eq] at enough
    simp only at enough
    omega
  have ran : (second.withOutputs Slots.noOutputs).run configuration' 0 0
      (second.body start' stop') = _ := runs'.run_eq within
  refine ⟨next', ?_, nexts⟩
  rw [Machine.call, bounds']
  simp only
  rw [ran, summary_eq, extra_eq, Summary.lengthened]
  simp only [Nat.zero_add, Outcome.mk.injEq, true_and, Except.ok.injEq, Summary.mk.injEq]
  exact ⟨lengths, counts⟩

end Machine.Corresponds

end ShaderMachine
