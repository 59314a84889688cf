import ShaderMachine.Proofs.LaterTables
import ShaderMachine.Proofs.SharedReads

/-! # Effects on machines that came from the same one

Two machines that came from the same fresh one by executing function bodies share what stood for
something at first, whatever was executed on each of them. An effect ends the same on both if they
share the variable that it stores to, or if it gives data that no other instruction gives.

* **`Machine.Evolves.shares`** — what a machine shares with those that came from it.
* **`Machine.DistinctBodies`** — bodies whose instructions are told apart by their results.
* **`Machine.result_assign_eq`** — giving data ends the same on both machines.
* **`Machine.result_store_eq`** — so does storing to a shared variable. -/

namespace ShaderMachine.Machine

/-! ## What later machines share -/

section

variable {start machine : Machine} {id : Id}

/-- Definitions that evolve from something differ in data alone. -/
theorem blank_of_evolves {stored : Prop} {assigned : DefinitionKind → Prop} {first later : Record}
    (alike : first.Alike later)
    (evolves : first.definition.Evolves stored assigned later.definition)
    (settled : first.definition ≠ .unset ∨ ∀ kind, ¬ assigned kind) :
    first.blank = later.blank := by
  obtain ⟨name, decorations, definition⟩ := first
  obtain ⟨name', decorations', definition'⟩ := later
  obtain ⟨rfl, rfl, -⟩ := alike
  cases evolves with
  | same => rfl
  | stored before =>
      cases before
      rfl
  | assigned before is_assigned =>
      rcases settled with set | never
      · exact absurd before set
      · exact absurd is_assigned (never _)

/-- What stands for something, or is never given data, is shared with every later machine. -/
theorem Evolves.shares (evolves : start.Evolves machine)
    (settled : (start.table.defined id).isOk = true ∨ ∀ kind, ¬ start.Assigns id kind) :
    start.table.Shares machine.table id := by
  rw [Table.Shares]
  cases found : start.table.get id with
  | error error => rw [evolves.alike.get_error found]
  | ok record =>
      obtain ⟨later, found', alike⟩ := evolves.alike.get found
      rw [found']
      refine congrArg Except.ok ?_
      refine blank_of_evolves alike (evolves.definition id record later found found') ?_
      refine settled.imp_left fun is_defined => ?_
      obtain ⟨definition, stands⟩ := exists_of_isOk is_defined
      obtain ⟨set, present, found'', rfl⟩ := Table.defined_eq_ok_iff.mp stands
      cases found.symm.trans found''
      exact set

/-- A variable that no function body stores to holds the same on every later machine. -/
theorem Evolves.get_eq {contents : Variable} (evolves : start.Evolves machine)
    (is_variable : start.table.variableAt id = .ok contents) (kept : ¬ start.Stores id) :
    machine.table.get id = start.table.get id := by
  obtain ⟨record, found, definition_eq⟩ := Table.variableAt_eq_ok_iff.mp is_variable
  obtain ⟨later, found', alike⟩ := evolves.alike.get found
  have becomes := evolves.definition id record later found found'
  rw [found, found']
  obtain ⟨name, decorations, definition⟩ := record
  obtain ⟨name', decorations', definition'⟩ := later
  obtain ⟨rfl, rfl, -⟩ := alike
  cases becomes with
  | same => rfl
  | stored _ is_stored => exact absurd is_stored kept
  | assigned before => cases before.symm.trans definition_eq

/-- An input variable is one on every later machine. -/
theorem Evolves.exists_input {contents : Variable} (evolves : start.Evolves machine)
    (is_variable : start.table.variableAt id = .ok contents)
    (is_input : contents.storage = .input) :
    ∃ contents', machine.table.variableAt id = .ok contents' ∧ contents'.storage = .input := by
  have is_defined : (start.table.defined id).isOk = true := by
    obtain ⟨record, found, definition_eq⟩ := Table.variableAt_eq_ok_iff.mp is_variable
    rw [Table.defined_eq_ok_iff.mpr ⟨by rw [definition_eq]; simp, record, found, rfl⟩]
    rfl
  obtain ⟨-, -, contents', -, -, is_variable', storage_eq, -⟩ :=
    (evolves.shares (Or.inl is_defined)).exists_variable is_variable
  exact ⟨contents', is_variable', storage_eq.trans is_input⟩

end

/-! ## Effects side by side -/

/-- What becomes of a definition without data is the same, or of the one kind that nothing is given
data of. -/
theorem same_or_kind_of_evolves {stored : Prop} {assigned : DefinitionKind → Prop}
    {first later : Definition} {kind : DefinitionKind}
    (evolves : first.Evolves stored assigned later) (no_data : ¬ first.IsData)
    (only : ∀ other, assigned other → other = kind) :
    later = first ∨ first = .unset ∧ later.kind = kind := by
  cases evolves with
  | same => exact Or.inl rfl
  | stored before =>
      rw [before] at no_data
      exact absurd trivial no_data
  | assigned before is_assigned => exact Or.inr ⟨before, only _ is_assigned⟩

/-- Whether the instructions of function bodies are told apart by their results, and what they give
data holds none at first. -/
structure DistinctBodies (start : Machine) : Prop where
  /-- Instructions with the same result are the same. -/
  unique : ∀ {first second id}, start.InBody first → start.InBody second →
    first.result? = some id → second.result? = some id → first = second
  /-- What an instruction gives data holds none at first. -/
  no_data : ∀ id kind, start.Assigns id kind → ¬ start.table.HoldsData id

/-- The bodies of a module with distinct results are like that. -/
theorem Prepared.distinctBodies {words : List Word} {loaded : Module} {start : Machine}
    (loads : Module.ofWords words = .ok loaded) (distinct : loaded.DistinctResults)
    (prepared : Prepared loaded start) : start.DistinctBodies := by
  have mem_of_within {instruction : Instruction} (within : start.InBody instruction) :
      instruction ∈ loaded.instructions := by
    obtain ⟨before, head, body, after, instructions_eq, -, -, mem⟩ :=
      prepared.exists_body loads within
    rw [instructions_eq]
    simp [mem]
  refine ⟨fun within within' result result' => ?_, fun id kind => ?_⟩
  · exact distinct.eq_of_result? (mem_of_within within) (mem_of_within within') result result'
  · exact prepared.not_holdsData loads distinct

section

variable {configuration : Configuration} {start first second : Machine} {id : Id}

/-- An ID is given data of one kind only. -/
theorem DistinctBodies.kind_eq (bodies : start.DistinctBodies) {kind kind' : DefinitionKind}
    (assigns : start.Assigns id kind) (assigns' : start.Assigns id kind') : kind = kind' := by
  obtain ⟨instruction, within, -, given⟩ := assigns
  obtain ⟨instruction', within', -, given'⟩ := assigns'
  cases bodies.unique within within' (Instruction.result?_of_assigns? given)
    (Instruction.result?_of_assigns? given')
  cases given.symm.trans given'
  rfl

/-- Machines that came from the same one give an ID data with the same result. -/
theorem result_assign_eq (bodies : start.DistinctBodies) (evolves : start.Evolves first)
    (evolves' : start.Evolves second) {definition : Definition}
    (assigns : start.Assigns id definition.kind) :
    (first.commit (.assign id definition)).result =
      (second.commit (.assign id definition)).result := by
  -- Whether data may be given depends on the kind that the ID stands for.
  have result_eq (machine : Machine) : (machine.commit (.assign id definition)).result =
      (machine.table.replace id definition).map fun _ => () := by
    rw [commit]
    cases machine.table.replace id definition <;> rfl
  rw [result_eq, result_eq]
  cases found : start.table.get id with
  | error error =>
      rw [Table.replace, Table.replace, evolves.alike.get_error found,
        evolves'.alike.get_error found]
      rfl
  | ok record =>
      obtain ⟨later, found_first, -⟩ := evolves.alike.get found
      obtain ⟨later', found_second, -⟩ := evolves'.alike.get found
      have no_data : ¬ record.definition.IsData :=
        fun is_data => bodies.no_data id _ assigns ⟨record, found, is_data⟩
      have only (kind : DefinitionKind) (assigned : start.Assigns id kind) :
          kind = definition.kind := bodies.kind_eq assigned assigns
      have becomes := same_or_kind_of_evolves
        (evolves.definition id record later found found_first) no_data only
      have becomes' := same_or_kind_of_evolves
        (evolves'.definition id record later' found found_second) no_data only
      by_cases unset : record.definition = .unset
      · -- Nothing stood for the ID at first, so both machines may give it the definition.
        rw [unset] at becomes becomes'
        rw [Table.replace_eq found_first (becomes.imp_right And.right),
          Table.replace_eq found_second (becomes'.imp_right And.right)]
        rfl
      · -- Otherwise it stands for the same on both.
        have same := becomes.resolve_right fun given => unset given.1
        have same' := becomes'.resolve_right fun given => unset given.1
        rw [Table.replace, Table.replace, found_first, found_second]
        simp only [Bind.bind, Except.bind, Record.isUnset, same, same']
        split <;> rfl

/-- Shared variables are at the same output location, if at any. -/
theorem outputLocation?_eq {table other : Table} (shares : table.Shares other id) :
    outputLocation? table id = outputLocation? other id := by
  rcases shares.eq_or_variables with same |
    ⟨record, record', contents, contents', found, found', is_variable, is_variable', blank_eq⟩
  · rw [outputLocation?, outputLocation?, same]
  · obtain ⟨storage_eq, location_eq, -⟩ := Record.blank_inv blank_eq is_variable is_variable'
    rw [outputLocation?_of_variable found is_variable,
      outputLocation?_of_variable found' is_variable', storage_eq, location_eq]

/-- Shared variables of tables that are laid out hold as much data. -/
theorem length_data_eq {table other : Table} {record record' : Record}
    {contents contents' : Variable} (alike : table.Alike other) (layout : table.Layout)
    (layout' : other.Layout) (found : table.get id = .ok record)
    (found' : other.get id = .ok record') (is_variable : record.definition = .var contents)
    (is_variable' : record'.definition = .var contents') (blank_eq : record.blank = record'.blank) :
    contents.data.length = contents'.data.length := by
  obtain ⟨-, -, record_eq⟩ := Record.blank_inv blank_eq is_variable is_variable'
  have same := congrArg Record.definition (record_eq [])
  simp only [Definition.var.injEq, Variable.mk.injEq] at same
  obtain ⟨-, -, pointee_eq, -⟩ := same
  have fits := layout.contents found is_variable
  have fits' := layout'.contents found' is_variable'
  -- Both hold as much as the type has that they point to.
  have size := alike.typesFollow.follows_sizeOf _ _ fits.data
  rw [pointee_eq, fits'.data] at size
  exact (Except.ok.inj size).symm

/-- A store ends as the write to its variable does, and then as that to the output. -/
theorem result_storeBytes (machine : Machine) (pointer object : Id) (bytes : Bytes) :
    (machine.storeBytes pointer object bytes).result =
      match (machine.table.changeData pointer (storedData pointer object bytes)).2 with
      | some error => .error error
      | none =>
          match outputLocation? machine.table pointer with
          | none => .ok ()
          | some location => (machine.slots.write location bytes).map fun _ => () := by
  have ends := machine.storeEnds pointer object bytes
  generalize machine.storeBytes pointer object bytes = outcome at ends ⊢
  cases ends with
  | refused attempt => rw [attempt]
  | written attempt place => rw [attempt, place]
  | output attempt place write | misplaced attempt place write =>
      rw [attempt, place]
      simp only [write]
      rfl

/-- Writing to shared variables ends the same. -/
theorem changeData_eq {table other : Table} (alike : table.Alike other) (layout : table.Layout)
    (layout' : other.Layout) (shares : table.Shares other id) (object : Id) (bytes : Bytes) :
    (table.changeData id (storedData id object bytes)).2 =
      (other.changeData id (storedData id object bytes)).2 := by
  rw [Table.changeData, Table.changeData]
  rcases shares.eq_or_variables with same |
    ⟨record, record', contents, contents', found, found', is_variable, is_variable', blank_eq⟩
  · rw [same]
    cases found : other.get id with
    | error error => rfl
    | ok record =>
        simp only
        split
        · split <;> rfl
        · rfl
        · rfl
  · obtain ⟨storage_eq, -⟩ := Record.blank_inv blank_eq is_variable is_variable'
    have length_eq := length_data_eq alike layout layout' found found' is_variable is_variable'
      blank_eq
    have stored_eq : storedData id object bytes contents =
        storedData id object bytes contents' := by
      rw [storedData, storedData, storage_eq, length_eq]
    rw [found, found']
    simp only [is_variable, is_variable', stored_eq]
    split <;> rfl

/-- Machines with shared variables store through them with the same result. -/
theorem result_store_eq (alike : first.table.Alike second.table) (layout : first.table.Layout)
    (layout' : second.table.Layout) (slots_eq : first.slots = second.slots)
    (shares : first.table.Shares second.table id) (object : Id) (bytes : Bytes) :
    (first.commit (.store id object bytes)).result =
      (second.commit (.store id object bytes)).result := by
  rw [commit, commit, result_storeBytes, result_storeBytes,
    changeData_eq alike layout layout' shares, outputLocation?_eq shares, slots_eq]

end

end ShaderMachine.Machine
