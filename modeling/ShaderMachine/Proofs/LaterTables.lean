import ShaderMachine.Proofs.RepeatedCalls
import ShaderMachine.Proofs.SetupResults

/-! # What calls make of a freshly set-up machine

A machine that was set up and has its inputs bound is fresh. Whatever is called on it, an ID stands
for what it stood for at first, or it is a variable that some function body stores to, or nothing
stood for it and some function body gives it data.

* **`Machine.Prepared`** — machines that are set up and have inputs bound.
* **`Machine.bodyOf`** — the instructions that a call of a function executes.
* **`Machine.Evolves`** — what a machine may become by calls.
* **`Machine.Reachable.evolves`** — every reachable machine came from a fresh one this way. -/

namespace ShaderMachine

namespace Machine

variable {configuration : Configuration} {loaded : Module} {fresh machine next : Machine}
  {instruction : Instruction} {id : Id} {kind : DefinitionKind}

/-! ## Fresh machines -/

/-- The machines that a module leads to without a call: it is set up, then inputs are bound. -/
inductive Prepared (loaded : Module) : Machine → Prop
  /-- The machine is set up. -/
  | setUp {configuration : Configuration} {machine : Machine}
      (set_up : ofModule configuration loaded = .ok machine) : Prepared loaded machine
  /-- An input is bound. -/
  | bind {machine next : Machine} {location : Word} {data : Bytes}
      (prepared : Prepared loaded machine) (bound : machine.bind location data = .ok next) :
      Prepared loaded next

/-- A fresh machine has its module and the table that the pass over it led to. -/
theorem Prepared.exists_setUp (prepared : Prepared loaded machine) :
    machine.loaded = loaded ∧ ∃ configuration setup, Setup.run configuration loaded = .ok setup ∧
      machine.table = setup.table := by
  induction prepared with
  | @setUp configuration machine set_up =>
      obtain ⟨setup, passed, rfl⟩ := ofModule_inv set_up
      exact ⟨rfl, configuration, setup, passed, rfl⟩
  | bind _ bound hyp =>
      obtain ⟨slots, -, rfl⟩ := bind_inv bound
      exact hyp

/-- A fresh machine is reachable. -/
theorem Prepared.reachable (prepared : Prepared loaded machine) : Reachable loaded machine := by
  induction prepared with
  | setUp set_up => exact .setUp set_up
  | bind _ bound hyp => exact .bind hyp bound

/-- Fresh machines of a module have the same table, whatever limits they were set up under. -/
theorem Prepared.table_eq (prepared : Prepared loaded fresh) (other : Prepared loaded machine) :
    fresh.table = machine.table := by
  obtain ⟨-, configuration, setup, passed, table_eq⟩ := prepared.exists_setUp
  obtain ⟨-, configuration', setup', passed', table_eq'⟩ := other.exists_setUp
  rw [table_eq, table_eq', Setup.run_eq passed passed']

/-- Binding depends on nothing but the inputs, and they are bound the same. -/
theorem exists_bind {location : Word} {data : Bytes}
    (same : fresh.slots.inputs = machine.slots.inputs)
    (bound : machine.bind location data = .ok next) :
    ∃ last, fresh.bind location data = .ok last ∧ last.slots.inputs = next.slots.inputs := by
  unfold Machine.bind Slots.bind at bound ⊢
  split at bound
  · rename_i below
    cases bound
    refine ⟨_, by rw [dif_pos below]; rfl, ?_⟩
    simp only [same]
  · cases bound

/-- There is a fresh machine with the inputs of a reachable one. -/
theorem Reachable.exists_prepared (reachable : Reachable loaded machine) :
    ∃ fresh, Prepared loaded fresh ∧ fresh.slots.inputs = machine.slots.inputs := by
  -- The same inputs are bound to it, and the calls are left out.
  induction reachable with
  | setUp set_up => exact ⟨_, .setUp set_up, rfl⟩
  | bind _ bound hyp =>
      obtain ⟨fresh, prepared, same⟩ := hyp
      obtain ⟨last, bound', same'⟩ := exists_bind same bound
      exact ⟨last, .bind prepared bound', same'⟩
  | @call machine _ configuration id hyp =>
      obtain ⟨fresh, prepared, same⟩ := hyp
      exact ⟨fresh, prepared, same.trans (frame_call configuration machine id).inputs.symm⟩
  | @callEntryPoint machine _ configuration name hyp =>
      obtain ⟨fresh, prepared, same⟩ := hyp
      refine ⟨fresh, prepared, same.trans (Frame.inputs ?_).symm⟩
      exact callEntryPoint_preserves (.refl machine) (frame_call configuration machine)

/-! ## Function bodies -/

/-- The instructions of the body of a function; none if it has no body. -/
def bodyOf (machine : Machine) (id : Id) : List Instruction :=
  match machine.bodyBounds id with
  | .ok (start, stop) => machine.body start stop
  | .error _ => []

/-- Whether an instruction is one of a function body. -/
def InBody (machine : Machine) (instruction : Instruction) : Prop :=
  ∃ id, instruction ∈ machine.bodyOf id

/-- Whether some function body stores to an ID. -/
def Stores (machine : Machine) (id : Id) : Prop :=
  ∃ instruction, machine.InBody instruction ∧ instruction.storesTo? = some id

/-- Whether some function body gives an ID data of a kind. -/
def Assigns (machine : Machine) (id : Id) (kind : DefinitionKind) : Prop :=
  ∃ instruction, machine.InBody instruction ∧ machine.table.skips instruction = false ∧
    instruction.assigns? = some (id, kind)

/-- Whether an ID is the result of an instruction of some function body. -/
def Computes (machine : Machine) (id : Id) : Prop :=
  ∃ instruction, machine.InBody instruction ∧ instruction.result? = some id

/-- What some function body gives data is a result of it. -/
theorem Assigns.computes (assigns : machine.Assigns id kind) : machine.Computes id := by
  obtain ⟨instruction, within, -, assigns⟩ := assigns
  exact ⟨instruction, within, Instruction.result?_of_assigns? assigns⟩

/-- An instruction of a function body of a fresh machine stands behind the head of the function. -/
theorem Prepared.exists_body {words : List Word} (loads : Module.ofWords words = .ok loaded)
    (prepared : Prepared loaded fresh) (within : fresh.InBody instruction) :
    ∃ before head body after, loaded.instructions = before ++ head :: (body ++ after) ∧
      head.OpensFunction ∧ (∀ other ∈ body, other.IsInner) ∧ instruction ∈ body := by
  obtain ⟨-, -, framed, -⟩ := Module.ofWords_inv loads
  obtain ⟨loaded_eq, configuration, setup, passed, table_eq⟩ := prepared.exists_setUp
  obtain ⟨id, mem⟩ := within
  unfold bodyOf at mem
  split at mem
  · rename_i start stop bounds
    obtain ⟨record, function, found, is_function, rfl, stop_eq⟩ := bodyBounds_eq_ok_iff.mp bounds
    rw [table_eq] at found
    obtain ⟨before, head, body, closing, after, instructions_eq, ⟨opens, -⟩, start_eq, inners, -,
      stop_eq'⟩ := Setup.spans_of_run passed found is_function
    cases stop_eq.symm.trans stop_eq'
    rw [start_eq, body_eq framed instructions_eq loaded_eq] at mem
    exact ⟨before, head, body, closing :: after, instructions_eq, opens, inners, mem⟩
  · cases mem

/-- What some function body gives data holds none on a fresh machine of a module with distinct
results. -/
theorem Prepared.not_holdsData {words : List Word} (loads : Module.ofWords words = .ok loaded)
    (distinct : loaded.DistinctResults) (prepared : Prepared loaded fresh)
    (assigns : fresh.Assigns id kind) : ¬ fresh.table.HoldsData id := by
  obtain ⟨instruction, within, -, assigns⟩ := assigns
  obtain ⟨before, head, body, after, instructions_eq, opens, inners, mem⟩ :=
    prepared.exists_body loads within
  obtain ⟨-, configuration, setup, passed, table_eq⟩ := prepared.exists_setUp
  rw [table_eq]
  exact Setup.not_holdsData_of_run distinct passed instructions_eq opens inners mem assigns

end Machine

/-- Tables that are alike have the same bodies of one module. -/
theorem Table.Alike.bodyOf_eq {machine last : Machine} (alike : machine.table.Alike last.table)
    (loaded_eq : last.loaded = machine.loaded) (id : Id) : machine.bodyOf id = last.bodyOf id := by
  rw [Machine.bodyOf, Machine.bodyOf, alike.bodyBounds_eq]
  split
  · rw [Machine.body, Machine.body, loaded_eq]
  · rfl

/-! ## What becomes of a definition -/

/-- What is of the kind of data is data. -/
theorem Definition.IsData.of_kind {first second : Definition} (is_data : second.IsData)
    (same : first.kind = second.kind) : first.IsData := by
  cases second with
  | constant value | var contents =>
      cases first with
      | constant value => trivial
      | var contents => trivial
      | _ => cases same
  | _ => cases is_data

/-- What may become of a definition, if its variable may be stored to, and if it may be given data
of some kinds. -/
inductive Definition.Evolves (stored : Prop) (assigned : DefinitionKind → Prop)
    (first : Definition) : Definition → Prop
  /-- It stays as it is. -/
  | same : Evolves stored assigned first first
  /-- Its variable holds other data. -/
  | stored {contents : Variable} {data : Bytes} (before : first = .var contents)
      (is_stored : stored) : Evolves stored assigned first (.var { contents with data })
  /-- Something stands for what stood for nothing. -/
  | assigned {definition : Definition} (before : first = .unset)
      (is_assigned : assigned definition.kind) : Evolves stored assigned first definition

namespace Definition.Evolves

variable {stored : Prop} {assigned : DefinitionKind → Prop} {first second : Definition}

/-- A variable that is stored to goes on to be what its definition may become. -/
theorem store {contents : Variable} (evolves : first.Evolves stored assigned (.var contents))
    (is_stored : stored) (data : Bytes) :
    first.Evolves stored assigned (.var { contents with data }) := by
  cases evolves with
  | same => exact .stored rfl is_stored
  | @stored kept _ before =>
      show first.Evolves stored assigned (.var { kept with data })
      exact .stored before is_stored
  | assigned before is_assigned => exact .assigned before is_assigned

/-- What is given data of a kind stood for nothing, unless it held data before. -/
theorem assign {given : Definition} (evolves : first.Evolves stored assigned second)
    (no_data : ¬ first.IsData) (is_data : given.IsData)
    (fits : second = .unset ∨ second.kind = given.kind) (is_assigned : assigned given.kind) :
    first.Evolves stored assigned given := by
  cases evolves with
  | same =>
      rcases fits with unset | same_kind
      · exact .assigned unset is_assigned
      · exact absurd (is_data.of_kind same_kind) no_data
  | stored before =>
      rw [before] at no_data
      exact absurd trivial no_data
  | assigned before => exact .assigned before is_assigned

end Definition.Evolves

/-! ## What becomes of a machine -/

/-- Writing to a variable changes its data, or at most counts a record as written to. -/
theorem Table.changeData_cases (table : Table) (id : Id)
    (change : Variable → Except MachineError Bytes) :
    (table.changeData id change).1 = table ∨ ∃ record changed, table.get id = .ok record ∧
      (table.changeData id change).1 = table.put id changed ∧ (changed = record ∨
        ∃ contents data, record.definition = .var contents ∧ change contents = .ok data ∧
          changed = { record with definition := .var { contents with data } }) := by
  unfold changeData
  cases found : table.get id with
  | error error => exact Or.inl rfl
  | ok record =>
      simp only
      split
      · rename_i contents is_variable
        split
        · exact Or.inl rfl
        · rename_i data is_data
          exact Or.inr ⟨record, _, rfl, rfl, Or.inr ⟨contents, data, is_variable, is_data, rfl⟩⟩
      · exact Or.inr ⟨record, record, rfl, rfl, Or.inl rfl⟩
      · exact Or.inl rfl

namespace Machine

variable {configuration : Configuration} {loaded : Module} {fresh machine next : Machine}
  {instruction : Instruction} {id : Id} {effect : Effect}

/-- What a machine may become by executing function bodies. -/
structure Evolves (fresh machine : Machine) : Prop where
  /-- The module is the same. -/
  loaded : machine.loaded = fresh.loaded
  /-- The tables differ at most in data. -/
  alike : fresh.table.Alike machine.table
  /-- What an ID stands for is the same, or was stored to or given data by a function body. -/
  definition : ∀ id record later, fresh.table.get id = .ok record →
    machine.table.get id = .ok later →
    record.definition.Evolves (fresh.Stores id) (fresh.Assigns id) later.definition

/-- A store does to the table what it does to its variable, whether it reaches an output or not. -/
theorem table_storeBytes (machine : Machine) (pointer object : Id) (bytes : Bytes) :
    (machine.storeBytes pointer object bytes).machine.table =
      (machine.table.changeData pointer (storedData pointer object bytes)).1 := by
  have ends := machine.storeEnds pointer object bytes
  generalize machine.storeBytes pointer object bytes = outcome at ends ⊢
  cases ends with
  | refused attempt
  | written attempt place
  | output attempt place write
  | misplaced attempt place write => rw [attempt]

namespace Evolves

/-- A machine may stay as it is. -/
theorem refl (machine : Machine) : machine.Evolves machine := by
  refine ⟨rfl, .refl _, fun id record later found found' => ?_⟩
  cases found.symm.trans found'
  exact .same

/-- A machine may write a record if the definition before may become what is written. -/
theorem put {record changed : Record} (evolves : fresh.Evolves machine)
    (found : machine.table.get id = .ok record) (loaded_eq : next.loaded = machine.loaded)
    (alike : machine.table.Alike next.table) (table_eq : next.table = machine.table.put id changed)
    (becomes : ∀ first, fresh.table.get id = .ok first →
      first.definition.Evolves (fresh.Stores id) (fresh.Assigns id) changed.definition) :
    fresh.Evolves next := by
  refine ⟨loaded_eq.trans evolves.loaded, evolves.alike.trans alike, ?_⟩
  intro other first later found_first found_later
  rw [table_eq] at found_later
  rcases Table.get_put_inv found found_later with ⟨rfl, rfl⟩ | ⟨-, kept⟩
  · exact becomes first found_first
  · exact evolves.definition other first later found_first kept

/-- What two machines of the same table and module may become is the same. -/
theorem of_eq (evolves : fresh.Evolves machine) (loaded_eq : next.loaded = machine.loaded)
    (table_eq : next.table = machine.table) : fresh.Evolves next := by
  refine ⟨loaded_eq.trans evolves.loaded, ?_, ?_⟩
  · rw [table_eq]
    exact evolves.alike
  · rw [table_eq]
    exact evolves.definition

/-- A machine goes on with the effects of function bodies. -/
theorem commit (evolves : fresh.Evolves machine) (fits : effect.Fits machine.table)
    (stored : ∀ id, effect.pointer? = some id → fresh.Stores id)
    (assigned : ∀ id kind, effect.assigned? = some (id, kind) →
      fresh.Assigns id kind ∧ ¬ fresh.table.HoldsData id) :
    fresh.Evolves (machine.commit effect).machine := by
  have committed : (machine.commit effect).StepsFrom machine.table ⟨0, Opcode.nop.number, []⟩ :=
    commit_change fits
  have alike := committed.1.alike
  have loaded_eq := (machine.frame_commit effect).loaded
  cases effect with
  | nothing => exact evolves
  | assign id definition =>
      cases replaced : machine.table.replace id definition with
      | error error =>
          rw [Machine.commit, replaced]
          exact evolves
      | ok table =>
          rw [Machine.commit, replaced] at alike ⊢
          obtain ⟨record, found, fitting, table_eq⟩ := Table.replace_inv replaced
          obtain ⟨assigns, no_data⟩ := assigned id definition.kind rfl
          refine evolves.put found rfl alike table_eq fun first found_first => ?_
          have becomes := evolves.definition id first record found_first found
          refine becomes.assign (fun is_data => ?_) fits.1 fitting assigns
          exact no_data ⟨first, found_first, is_data⟩
  | store pointer object bytes =>
      have table_eq := machine.table_storeBytes pointer object bytes
      -- Whether or not the store succeeds, it writes to its variable or leaves the table as it is.
      rcases machine.table.changeData_cases pointer (storedData pointer object bytes) with
        same | ⟨record, changed, found, changed_eq, rfl | ⟨contents, data, is_variable, -, rfl⟩⟩
      · exact evolves.of_eq loaded_eq (table_eq.trans same)
      · refine evolves.put found loaded_eq alike (table_eq.trans changed_eq) ?_
        exact fun first found_first => evolves.definition pointer first changed found_first found
      · refine evolves.put found loaded_eq alike (table_eq.trans changed_eq) ?_
        intro first found_first
        have becomes := evolves.definition pointer first record found_first found
        rw [is_variable] at becomes
        exact becomes.store (stored pointer rfl) data

/-- A machine goes on with the instructions of function bodies, whether they succeed or not. -/
theorem step (no_data : ∀ id kind, fresh.Assigns id kind → ¬ fresh.table.HoldsData id)
    (evolves : fresh.Evolves machine) (within : fresh.InBody instruction) :
    fresh.Evolves (machine.step configuration instruction).machine := by
  rcases machine.step_machine_cases configuration instruction with
    same | ⟨handler, effect, cursor, registered, yielded, committed⟩
  · rw [same]
    exact evolves
  · rw [committed]
    obtain ⟨assigned_eq, pointer_eq⟩ := effect_of_handler registered yielded
    have skips := (handler_skips machine.table machine.slots registered).value yielded
    rw [← evolves.alike.skips_eq] at skips
    have fits : effect.Fits machine.table :=
      (meets_handler machine.table machine.slots registered instruction.cursor).value yielded
    refine evolves.commit fits (fun id stores => ?_) fun id kind assigns => ?_
    · exact ⟨instruction, within, pointer_eq.symm.trans stores⟩
    · have given : fresh.Assigns id kind :=
        ⟨instruction, within, skips, assigned_eq.symm.trans assigns⟩
      exact ⟨given, no_data id kind given⟩

/-- A machine goes on with a call of a function, whether it succeeds or not. -/
theorem call (no_data : ∀ id kind, fresh.Assigns id kind → ¬ fresh.table.HoldsData id)
    (evolves : fresh.Evolves machine) (configuration : Configuration) (id : Id) :
    fresh.Evolves (machine.call configuration id).machine := by
  have body_eq := evolves.alike.bodyOf_eq evolves.loaded id
  refine call_preserves (P := fresh.Evolves) (fun _ _ evolves => evolves.of_eq rfl rfl)
    (fun start stop bounds other instruction mem evolves => ?_) evolves
  refine evolves.step no_data ⟨id, ?_⟩
  rw [body_eq, bodyOf, bounds]
  exact mem

end Evolves

/-- A reachable machine of a module with distinct results came from every fresh one by executing
function bodies, but for its slots. -/
theorem Reachable.evolves {words : List Word} (loads : Module.ofWords words = .ok loaded)
    (distinct : loaded.DistinctResults) (prepared : Prepared loaded fresh)
    (reachable : Reachable loaded machine) : fresh.Evolves machine := by
  have no_data (id : Id) (kind : DefinitionKind) (assigns : fresh.Assigns id kind) :
      ¬ fresh.table.HoldsData id := prepared.not_holdsData loads distinct assigns
  induction reachable with
  | setUp set_up =>
      have first : Prepared loaded _ := .setUp set_up
      refine (Evolves.refl fresh).of_eq ?_ (first.table_eq prepared)
      rw [first.exists_setUp.1, prepared.exists_setUp.1]
  | bind _ bound hyp =>
      obtain ⟨slots, -, rfl⟩ := bind_inv bound
      exact hyp.of_eq rfl rfl
  | call _ configuration id hyp => exact hyp.call no_data configuration id
  | callEntryPoint _ configuration name hyp =>
      exact callEntryPoint_preserves hyp (hyp.call no_data configuration)

end Machine

end ShaderMachine
