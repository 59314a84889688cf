import ShaderMachine.Proofs.Plans

/-! # Calling a function again

Values and variables outlive the call that wrote them. A call that is made again writes the same
outputs if the first one left everything as it was that the body uses before writing it.

* **`Table.exposed`** — what instructions use before they write it.
* **`Table.Settled`** — two tables agree on what instructions use before they write it.
* **`Machine.Agree.slots_eq`** — machines that agree this way write the same outputs.
* **`Machine.Settles`** — a call leaves what its body uses as it was.
* **`Machine.Settles.call_again`** — then the same call again writes the same outputs. -/

namespace ShaderMachine

/-! ## Entry points -/

section

variable {table next : Table} {id : Id} {name : String}

/-- Whether an ID stands for an entry point of a given name. -/
def Table.Enters (table : Table) (name : String) (id : Id) : Prop :=
  ∃ entry, (table.records.getD id {}).definition = .entryPoint entry ∧ entry.hasName name = true

/-- Tables that are alike have the same entry points. -/
theorem Table.Alike.enters (alike : table.Alike next) (enters : table.Enters name id) :
    next.Enters name id := by
  obtain ⟨entry, is_entry, has_name⟩ := enters
  refine ⟨entry, ?_, has_name⟩
  rw [← is_entry]
  refine (alike.records id).definition.eq_of_not_varies ?_
  rw [is_entry]
  exact fun varies => varies

/-- An entry point is listed among the records. -/
theorem Table.enters_iff :
    table.Enters name id ↔ ∃ record entry, (id, record) ∈ table.records.toList ∧
      record.definition = .entryPoint entry ∧ entry.hasName name = true := by
  simp only [Enters, Std.TreeMap.getD_eq_getD_getElem?, Std.TreeMap.mem_toList_iff_getElem?_eq_some]
  cases table.records[id]? with
  | none => simp
  | some record => simp

/-- The entry point that is found is the least one of its name. -/
theorem Table.entryPoint?_inv (found : table.entryPoint? name = some id) :
    table.Enters name id ∧ ∀ other, table.Enters name other → id ≤ other := by
  obtain ⟨before, ⟨id', record⟩, after, list_eq, is_found, not_before⟩ :=
    List.findSome?_eq_some_iff.mp found
  simp only at is_found
  split at is_found
  · rename_i entry definition_eq
    split at is_found
    · rename_i has_name
      cases is_found
      refine ⟨Table.enters_iff.mpr ⟨record, entry, ?_, definition_eq, has_name⟩, ?_⟩
      · rw [list_eq]
        exact List.mem_append_right before List.mem_cons_self
      -- The records are listed by increasing ID, and none before this one is found.
      · intro other enters
        obtain ⟨record', entry', listed, definition_eq', has_name'⟩ := Table.enters_iff.mp enters
        have sorted : table.records.toList.Pairwise fun a b => compare a.1 b.1 = .lt :=
          Std.TreeMap.ordered_keys_toList
        rw [list_eq] at listed sorted
        rcases List.mem_append.mp listed with early | late
        · have impossible := not_before _ early
          simp only [definition_eq', has_name', if_true] at impossible
          cases impossible
        · rcases List.mem_cons.mp late with same | late
          · cases same
            exact UInt32.le_refl id
          · have later := (List.pairwise_cons.mp (List.pairwise_append.mp sorted).2.1).1 _ late
            exact UInt32.le_of_lt (Std.compare_eq_lt.mp later)
    · cases is_found
  · cases is_found

/-- If there is an entry point of a name, one is found. -/
theorem Table.Enters.exists_entryPoint? (enters : table.Enters name id) :
    ∃ least, table.entryPoint? name = some least := by
  obtain ⟨record, entry, listed, definition_eq, has_name⟩ := Table.enters_iff.mp enters
  rw [← Option.isSome_iff_exists, Table.entryPoint?, List.findSome?_isSome_iff]
  refine ⟨_, listed, ?_⟩
  simp only [definition_eq, has_name, if_true, Option.isSome_some]

/-- An entry point is found exactly if it is the least one of its name. -/
theorem Table.entryPoint?_eq_some_iff : table.entryPoint? name = some id ↔
    table.Enters name id ∧ ∀ other, table.Enters name other → id ≤ other := by
  refine ⟨entryPoint?_inv, fun ⟨enters, least⟩ => ?_⟩
  obtain ⟨found, found_eq⟩ := enters.exists_entryPoint?
  obtain ⟨enters', least'⟩ := entryPoint?_inv found_eq
  rw [found_eq, UInt32.le_antisymm (least' id enters) (least found enters')]

/-- No entry point is found exactly if there is none of the name. -/
theorem Table.entryPoint?_eq_none_iff :
    table.entryPoint? name = none ↔ ∀ id, ¬ table.Enters name id := by
  refine ⟨fun missing id enters => ?_, fun none_enters => ?_⟩
  · obtain ⟨found, found_eq⟩ := enters.exists_entryPoint?
    cases missing.symm.trans found_eq
  · cases found_eq : table.entryPoint? name with
    | none => rfl
    | some found => exact absurd (entryPoint?_inv found_eq).1 (none_enters found)

/-- Tables with the same entry points of a name find the same one. -/
theorem Table.entryPoint?_of_enters (same : ∀ id, table.Enters name id ↔ next.Enters name id)
    (found : table.entryPoint? name = some id) : next.entryPoint? name = some id := by
  rw [entryPoint?_eq_some_iff] at found ⊢
  simp only [← same]
  exact found

/-- Tables that are alike find the same entry points. -/
theorem Table.Alike.entryPoint? (alike : table.Alike next)
    (found : table.entryPoint? name = some id) : next.entryPoint? name = some id :=
  entryPoint?_of_enters (fun _ => ⟨alike.enters, alike.symm.enters⟩) found

end

/-! ## Carrying out effects -/

/-- A record without the data of its variable. -/
def Record.blank (record : Record) : Record :=
  match record.definition with
  | .var contents => { record with definition := .var { contents with data := [] } }
  | _ => record

/-- Variables that differ in data alone are in the same place, and are the same once data is
written. -/
theorem Record.blank_inv {first second : Record} {contents other : Variable}
    (same : first.blank = second.blank) (is_variable : first.definition = .var contents)
    (is_other : second.definition = .var other) :
    contents.storage = other.storage ∧ first.location? = second.location? ∧
      ∀ data : Bytes, { first with definition := .var { contents with data } } =
        { second with definition := .var { other with data } } := by
  rw [blank, blank, is_variable, is_other] at same
  simp only [Record.mk.injEq, Definition.var.injEq, Variable.mk.injEq] at same
  obtain ⟨name_eq, decorations_eq, type_eq, storage_eq, pointee_eq, initializer_eq, -⟩ := same
  refine ⟨storage_eq, ?_, fun data => ?_⟩
  · rw [location?, location?, decoration?, decoration?, decorations_eq]
  · rw [name_eq, decorations_eq, type_eq, storage_eq, pointee_eq, initializer_eq]

namespace Machine

variable {machine first second : Machine} {effect : Effect} {id : Id}

/-- An effect leaves all other records as they are. -/
theorem get_commit_of_ne (machine : Machine) (other : effect.target? ≠ some id) :
    (machine.commit effect).machine.table.get id = machine.table.get id := by
  have ends := machine.commitEnds effect
  generalize machine.commit effect = outcome at ends ⊢
  cases ends with
  | nothing => rfl
  | unassigned replaced => rfl
  | assigned replaced =>
      have different : id ≠ _ := fun same => other (congrArg some same.symm)
      obtain ⟨record, found, -, rfl⟩ := Table.replace_inv replaced
      exact Table.get_put_of_ne different
  | @stored pointer object bytes _ ends =>
      have different : id ≠ pointer := fun same => other (congrArg some same.symm)
      have changed := machine.table.get_changeData_of_ne
        (storedData pointer object bytes) different
      -- Even a store that fails half-way touches no record but its own.
      cases ends with
      | refused attempt
      | written attempt place
      | output attempt place write
      | misplaced attempt place write =>
          rw [attempt] at changed
          exact changed

/-- Where a store through a variable also writes to. -/
theorem outputLocation?_of_variable {table : Table} {pointer : Id} {record : Record}
    {contents : Variable} (found : table.get pointer = .ok record)
    (is_variable : record.definition = .var contents) :
    outputLocation? table pointer =
      if contents.storage = .output then record.location? else none := by
  rw [outputLocation?, found]
  simp only [is_variable]

/-- An effect writes the same on machines that are alike, if it stores through variables that differ
in data alone. -/
theorem commit_agree {next last : Machine} (alike : first.table.Alike second.table)
    (slots_eq : first.slots = second.slots)
    (same : ∀ id ∈ effect.pointer?,
      (first.table.get id).map Record.blank = (second.table.get id).map Record.blank)
    (committed : first.commit effect = ⟨next, .ok ()⟩)
    (committed' : second.commit effect = ⟨last, .ok ()⟩) :
    next.slots = last.slots ∧
      ∀ id, effect.target? = some id → next.table.get id = last.table.get id := by
  cases effect with
  | nothing =>
      cases committed
      cases committed'
      exact ⟨slots_eq, fun id is_target => by cases is_target⟩
  | assign target definition =>
      obtain ⟨record, found, -, rfl⟩ := commit_assign_inv committed
      obtain ⟨record', found', -, rfl⟩ := commit_assign_inv committed'
      refine ⟨slots_eq, fun id is_target => ?_⟩
      cases is_target
      obtain ⟨present, found'', same_record⟩ := alike.get found
      cases found'.symm.trans found''
      rw [Table.get_put_self found, Table.get_put_self found', same_record.name,
        same_record.decorations]
  | store pointer object bytes =>
      obtain ⟨record, contents, found, is_variable, table_eq, written⟩ := storeBytes_inv committed
      obtain ⟨record', contents', found', is_variable', table_eq', written'⟩ :=
        storeBytes_inv committed'
      have blank_eq : record.blank = record'.blank := by
        have mapped := same pointer rfl
        rw [found, found'] at mapped
        exact Except.ok.inj mapped
      -- The storage class and the location are kept, so both write to the same output.
      obtain ⟨storage_eq, location_eq, record_eq⟩ :=
        Record.blank_inv blank_eq is_variable is_variable'
      rw [outputLocation?_of_variable found is_variable, storage_eq, location_eq, slots_eq,
        ← outputLocation?_of_variable found' is_variable', written'] at written
      refine ⟨(Except.ok.inj written).symm, fun id is_target => ?_⟩
      cases is_target
      rw [table_eq, table_eq', Table.get_put_self found, Table.get_put_self found', record_eq]

end Machine

/-! ## What instructions use before they write it -/

namespace Table

/-- The IDs that instructions use before one of them gives the ID a definition or stores through
it. -/
def exposed (uses : Plan → List Id) (table : Table) : List Instruction → List Id
  | [] => []
  | instruction :: rest =>
      match table.plan? instruction with
      | none => exposed uses table rest
      | some plan =>
          uses plan ++ (exposed uses table rest).filter fun id => plan.target? ≠ some id

/-- Tables that are alike expose the same IDs. -/
theorem Alike.exposed_eq {table next : Table} (alike : table.Alike next)
    (uses : Plan → List Id) (instructions : List Instruction) :
    table.exposed uses instructions = next.exposed uses instructions := by
  induction instructions with
  | nil => rfl
  | cons instruction instructions hyp =>
      rw [exposed, exposed, alike.plan?_eq instruction, hyp]

/-- What the rest of the instructions exposes is exposed unless the first one writes it. -/
theorem mem_exposed {uses : Plan → List Id} {table : Table} {instruction : Instruction}
    {rest : List Instruction} {plan : Plan} {id : Id}
    (planned : table.plan? instruction = some plan) (mem : id ∈ table.exposed uses rest) :
    plan.target? = some id ∨ id ∈ table.exposed uses (instruction :: rest) := by
  by_cases target : plan.target? = some id
  · exact Or.inl target
  · right
    rw [exposed, planned]
    refine List.mem_append_right _ (List.mem_filter.mpr ⟨mem, ?_⟩)
    exact decide_eq_true target

/-- Whether two tables agree on the values that instructions read before writing them, and but for
data on the variables through which they store. -/
structure Settled (instructions : List Instruction) (table next : Table) : Prop where
  /-- What is read is the same. -/
  read : ∀ id ∈ table.exposed Plan.reads instructions, next.get id = table.get id
  /-- What is stored through is the same but for data. -/
  stored : ∀ id ∈ table.exposed (fun plan => plan.pointer?.toList) instructions,
    (next.get id).map Record.blank = (table.get id).map Record.blank

/-- Whether two tables agree in that way can be computed. -/
instance decidableSettled (instructions : List Instruction) (table next : Table) :
    Decidable (Settled instructions table next) :=
  -- The lists are checked element by element; there are too many IDs to check all of them.
  decidable_of_iff
    ((table.exposed Plan.reads instructions).all (fun id => next.get id = table.get id) ∧
      (table.exposed (fun plan => plan.pointer?.toList) instructions).all fun id =>
        (next.get id).map Record.blank = (table.get id).map Record.blank)
    ⟨fun ⟨read, stored⟩ => ⟨by simpa using read, by simpa using stored⟩,
      fun ⟨read, stored⟩ => ⟨by simpa using read, by simpa using stored⟩⟩

/-- The IDs that instructions touch in some way. -/
def touched (targets : Plan → Option Id) (table : Table) (instructions : List Instruction) :
    List Id :=
  instructions.filterMap fun instruction => (table.plan? instruction).bind targets

/-- Whether instructions write nothing that they read before, and redefine no variable through which
they store before. -/
structure Apart (instructions : List Instruction) (table : Table) : Prop where
  /-- What is read first is never written. -/
  read : ∀ id ∈ table.exposed Plan.reads instructions,
    id ∉ table.touched Plan.target? instructions
  /-- What is stored through first is never redefined. -/
  stored : ∀ id ∈ table.exposed (fun plan => plan.pointer?.toList) instructions,
    id ∉ table.touched Plan.assigned? instructions

end Table

/-! ## Two machines side by side -/

namespace Machine

variable {configuration other : Configuration} {machine next : Machine} {instruction : Instruction}

/-- A handler that runs without a fault reads every operand, and its effect is carried out. -/
theorem handle_inv {handler : ExecutionHandler}
    (handled : machine.handle instruction handler = ⟨next, .ok ()⟩) :
    ∃ effect cursor, handler machine.table machine.slots instruction instruction.cursor =
        .ok (effect, cursor) ∧ cursor.isEmpty = true ∧ machine.commit effect = ⟨next, .ok ()⟩ := by
  have ends := machine.handleEnds instruction handler
  rw [handled] at ends
  cases ends with
  | done yielded committed at_end => exact ⟨_, _, yielded, at_end, committed⟩

/-- A handler that ends in a fault that is not fatal changes nothing. -/
theorem handle_harmless {handler : ExecutionHandler} {error : MachineError}
    (registered : executionTable.get? instruction.opcode = some handler)
    (handled : machine.handle instruction handler = ⟨next, .error error⟩)
    (harmless : error.isFatal = false) : next = machine := by
  have effects := meets_handler machine.table machine.slots registered instruction.cursor
  have ends := machine.handleEnds instruction handler
  rw [handled] at ends
  cases ends with
  | failed failed => rfl
  | refused yielded committed =>
      have fatal := isFatal_of_commit (effects.value yielded) (congrArg Outcome.result committed)
      cases harmless.symm.trans fatal
  | leftOver yielded committed left_over => cases harmless

/-- An instruction that is executed carries out what its handler yields; one that is skipped does
nothing. -/
theorem yields_of_step {skipped : Bool}
    (stepped : machine.step configuration instruction = ⟨next, .ok skipped⟩) :
    machine.table.skips instruction = true ∧ next = machine ∨
      machine.table.skips instruction = false ∧ ∃ handler effect cursor,
        executionTable.get? instruction.opcode = some handler ∧
        handler machine.table machine.slots instruction instruction.cursor = .ok (effect, cursor) ∧
        cursor.isEmpty = true ∧ machine.commit effect = ⟨next, .ok ()⟩ := by
  have skips := skips_of_step stepped
  have ends := machine.stepEnds configuration instruction
  rw [stepped] at ends
  cases ends with
  | passed missing lenient => exact Or.inl ⟨skips.symm, rfl⟩
  | executed registered handled =>
      obtain ⟨effect, cursor, yielded, at_end, committed⟩ := handle_inv handled
      exact Or.inr ⟨skips.symm, _, effect, cursor, registered, yielded, at_end, committed⟩
  | skipped registered handled harmless lenient =>
      exact Or.inl ⟨skips.symm, handle_harmless registered handled harmless⟩

/-- An instruction that is executed carries out its plan; one that is skipped has none. -/
theorem step_inv {skipped : Bool}
    (stepped : machine.step configuration instruction = ⟨next, .ok skipped⟩) :
    machine.table.plan? instruction = none ∧ next = machine ∨
      ∃ plan effect, machine.table.plan? instruction = some plan ∧
        plan.compute machine.table machine.slots = .ok effect ∧
        machine.commit effect = ⟨next, .ok ()⟩ := by
  rcases yields_of_step stepped with ⟨skips, same⟩ |
    ⟨-, handler, effect, cursor, registered, yielded, at_end, committed⟩
  · exact Or.inl ⟨Table.plan?_of_skips skips, same⟩
  · obtain ⟨plan, planned, computed⟩ := plan_of_handler registered yielded at_end
    exact Or.inr ⟨plan, effect, planned, computed, committed⟩

/-- Two machines agree on what instructions use before they write it. -/
structure Agree (instructions : List Instruction) (first second : Machine) : Prop where
  /-- Their tables differ in data alone. -/
  alike : first.table.Alike second.table
  /-- Their interfaces hold the same. -/
  slots : second.slots = first.slots
  /-- Their tables agree on what is used. -/
  settled : first.table.Settled instructions second.table

namespace Agree

variable {first second mid mid' : Machine} {rest : List Instruction} {skipped skipped' : Bool}

/-- Machines that agree on some instructions agree on the others once the first one is executed. -/
theorem step (agree : Agree (instruction :: rest) first second)
    (stepped : first.step configuration instruction = ⟨mid, .ok skipped⟩)
    (stepped' : second.step other instruction = ⟨mid', .ok skipped'⟩) : Agree rest mid mid' := by
  have before := alike_of_step stepped
  have alike : mid.table.Alike mid'.table :=
    (before.symm.trans agree.alike).trans (alike_of_step stepped')
  have exposed_eq (uses : Plan → List Id) :
      mid.table.exposed uses rest = first.table.exposed uses rest :=
    (before.exposed_eq uses rest).symm
  rcases step_inv stepped with ⟨unplanned, rfl⟩ | ⟨plan, effect, planned, computed, committed⟩
  · rcases step_inv stepped' with ⟨-, rfl⟩ | ⟨plan, effect, planned, -, -⟩
    · refine ⟨alike, agree.slots, fun id mem => agree.settled.read id ?_,
        fun id mem => agree.settled.stored id ?_⟩
      · rw [Table.exposed, unplanned]
        exact mem
      · rw [Table.exposed, unplanned]
        exact mem
    · rw [agree.alike.plan?_eq instruction, planned] at unplanned
      cases unplanned
  · rcases step_inv stepped' with ⟨unplanned, -⟩ | ⟨plan', effect', planned', computed', committed'⟩
    · rw [← agree.alike.plan?_eq instruction, planned] at unplanned
      cases unplanned
    · cases planned.symm.trans ((agree.alike.plan?_eq instruction).trans planned')
      -- What the instruction uses itself is exposed, so its effect is the same.
      have uses_exposed {uses : Plan → List Id} {id : Id} (mem : id ∈ uses plan) :
          id ∈ first.table.exposed uses (instruction :: rest) := by
        rw [Table.exposed, planned]
        exact List.mem_append_left _ mem
      have same := plan.follows_compute agree.alike.typesFollow
        (congrArg Slots.inputs agree.slots.symm)
        (fun id mem => .of_eq (agree.settled.read id (uses_exposed mem)).symm) effect computed
      cases same.symm.trans computed'
      obtain ⟨target_eq, pointer_eq⟩ := Plan.target?_of_compute computed
      obtain ⟨slots_eq, written⟩ := commit_agree agree.alike agree.slots.symm
        (fun id mem => (agree.settled.stored id (uses_exposed (by
          rw [← pointer_eq]
          exact Option.mem_toList.mpr mem))).symm) committed committed'
      -- What the others use is written by the instruction or was exposed before it.
      have kept {id : Id} (untouched : effect.target? ≠ some id) :
          mid.table.get id = first.table.get id ∧ mid'.table.get id = second.table.get id := by
        have kept := first.get_commit_of_ne untouched
        have kept' := second.get_commit_of_ne untouched
        rw [committed] at kept
        rw [committed'] at kept'
        exact ⟨kept, kept'⟩
      refine ⟨alike, slots_eq.symm, fun id mem => ?_, fun id mem => ?_⟩
      · rw [exposed_eq] at mem
        by_cases target : effect.target? = some id
        · exact (written id target).symm
        · rw [(kept target).1, (kept target).2]
          refine agree.settled.read id ((Table.mem_exposed planned mem).resolve_left ?_)
          rw [← target_eq]
          exact target
      · rw [exposed_eq] at mem
        by_cases target : effect.target? = some id
        · rw [written id target]
        · rw [(kept target).1, (kept target).2]
          refine agree.settled.stored id ((Table.mem_exposed planned mem).resolve_left ?_)
          rw [← target_eq]
          exact target

/-- Machines that agree on instructions hold the same at their interfaces once these are
executed. -/
theorem slots_eq {instructions : List Instruction} {last last' : Machine}
    (agree : Agree instructions first second) (runs : Runs configuration first instructions last)
    (runs' : Runs other second instructions last') : last'.slots = last.slots := by
  induction runs generalizing second with
  | nil machine =>
      cases runs'
      exact agree.slots
  | cons stepped runs hyp =>
      cases runs' with
      | cons stepped' runs' => exact hyp (agree.step stepped stepped') runs'

end Agree

/-- A view of a record is kept by instructions that do not touch the record in a way that changes
the view. -/
theorem Runs.view_eq {β : Type} (view : Except MachineError Record → β)
    (targets : Plan → Option Id) {id : Id} {instructions : List Instruction}
    (kept : ∀ {machine next : Machine} {plan : Plan} {effect : Effect},
      plan.compute machine.table machine.slots = .ok effect →
      machine.commit effect = ⟨next, .ok ()⟩ → targets plan ≠ some id →
      view (next.table.get id) = view (machine.table.get id))
    (runs : Runs configuration machine instructions next)
    (untouched : id ∉ machine.table.touched targets instructions) :
    view (next.table.get id) = view (machine.table.get id) := by
  induction runs with
  | nil machine => rfl
  | @cons machine mid next instruction rest skipped stepped runs hyp =>
      have same (instruction : Instruction) := (alike_of_step stepped).plan?_eq instruction
      rw [Table.touched, List.filterMap_cons] at untouched
      -- Plans depend on what calls do not change, so they are the same later on.
      have later : id ∉ mid.table.touched targets rest := by
        unfold Table.touched
        simp only [← same]
        intro mem
        refine untouched ?_
        split
        · exact mem
        · exact List.mem_cons_of_mem _ mem
      rw [hyp later]
      rcases step_inv stepped with ⟨-, rfl⟩ | ⟨plan, effect, planned, computed, committed⟩
      · rfl
      · refine kept computed committed fun touches => untouched ?_
        rw [planned, Option.bind_some, touches]
        exact List.mem_cons_self

/-- Instructions that write nothing they read before, and redefine no variable they store through
before, leave what they use as it was. -/
theorem Runs.settled {instructions : List Instruction}
    (runs : Runs configuration machine instructions next)
    (apart : machine.table.Apart instructions) :
    machine.table.Settled instructions next.table := by
  have kept {machine next : Machine} {plan : Plan} {effect : Effect} {id : Id}
      (computed : plan.compute machine.table machine.slots = .ok effect)
      (committed : machine.commit effect = ⟨next, .ok ()⟩) (untouched : plan.target? ≠ some id) :
      next.table.get id = machine.table.get id := by
    rw [← (Plan.target?_of_compute computed).1] at untouched
    have kept := machine.get_commit_of_ne untouched
    rw [committed] at kept
    exact kept
  refine ⟨fun id mem => ?_, fun id mem => ?_⟩
  · exact runs.view_eq (fun found => found) Plan.target? kept (apart.read id mem)
  · refine runs.view_eq (Except.map Record.blank) Plan.assigned? ?_ (apart.stored id mem)
    intro machine next plan effect computed committed unassigned
    -- A store changes nothing but the data of its variable.
    by_cases target : plan.target? = some id
    · cases plan with
      | store pointer object =>
          obtain ⟨value, -, computed⟩ := exists_of_bind computed
          cases computed
          cases target
          obtain ⟨record, contents, found, is_variable, table_eq, -⟩ := storeBytes_inv committed
          rw [table_eq, Table.get_put_self found, found]
          simp only [Except.map, Record.blank, is_variable]
      | _ => exact absurd target unassigned
    · rw [kept computed committed target]

/-! ## Calls -/

/-- A run that completes executes its instructions without a fault. -/
theorem runs_of_run {executed unsupported : Nat} {instructions : List Instruction}
    {answer : Nat × Nat}
    (ran : machine.run configuration executed unsupported instructions = ⟨next, .ok answer⟩) :
    Runs configuration machine instructions next := by
  have ends := machine.runEnds configuration executed unsupported instructions
  generalize machine.run configuration executed unsupported instructions = outcome at ends ran
  induction ends with
  | completed =>
      cases ran
      exact .nil _
  | limited reached => cases ran
  | failed below stepped => cases ran
  | continued below stepped ends hyp => exact .cons stepped (hyp ran)

/-- A call that completes runs a body. -/
theorem call_inv {id : Id} {summary : Summary}
    (called : machine.call configuration id = ⟨next, .ok summary⟩) :
    ∃ start stop, machine.bodyBounds id = .ok (start, stop) ∧
      Runs configuration (machine.withOutputs Slots.noOutputs) (machine.body start stop) next := by
  have ends := machine.callEnds configuration id
  rw [called] at ends
  cases ends with
  | completed bounds ran => exact ⟨_, _, bounds, runs_of_run ran⟩

/-- Whether a call of an entry point leaves everything that its body uses before writing it as it
was, and but for data the variables through which it stores. -/
def Settles (configuration : Configuration) (machine : Machine) (name : String) : Prop :=
  ∀ id start stop, machine.table.entryPoint? name = some id →
    machine.bodyBounds id = .ok (start, stop) →
    machine.table.Settled (machine.body start stop)
      (machine.callEntryPoint configuration name).machine.table

/-- A call that completes and leaves what its body uses as it was writes the same outputs and
reports the same when it is made again. -/
theorem Settles.call_again {name : String} {summary summary' : Summary} {last : Machine}
    (settles : machine.Settles configuration name)
    (called : machine.callEntryPoint configuration name = ⟨next, .ok summary⟩)
    (again : next.callEntryPoint other name = ⟨last, .ok summary'⟩) :
    last.slots = next.slots ∧ summary' = summary := by
  have outcome := called
  unfold callEntryPoint at called
  split at called
  · cases called
  · rename_i id entry
    have alike : machine.table.Alike next.table := by
      have changes := call_changes configuration machine id
      rw [called] at changes
      exact changes.alike
    have frame := frame_call configuration machine id
    rw [called] at frame
    rw [callEntryPoint, alike.entryPoint? entry] at again
    -- Both calls find the same body.
    obtain ⟨start, stop, bounds, runs⟩ := call_inv called
    obtain ⟨start', stop', bounds', runs'⟩ := call_inv again
    cases bounds.symm.trans ((alike.bodyBounds_eq id).trans bounds')
    have body_eq : next.body start stop = machine.body start stop := by
      rw [body, body, frame.loaded]
    constructor
    · -- Both calls start without outputs, and their tables agree on what the body uses.
      rw [body_eq] at runs'
      have settled := settles id start stop entry bounds
      rw [outcome] at settled
      have agree : Agree (machine.body start stop) (machine.withOutputs Slots.noOutputs)
          (next.withOutputs Slots.noOutputs) := by
        refine ⟨alike, ?_, settled⟩
        exact congrArg (fun inputs => Slots.mk inputs Slots.noOutputs) frame.inputs
      exact agree.slots_eq runs runs'
    · rw [summary_of_call bounds (congrArg Outcome.result called),
        summary_of_call bounds' (congrArg Outcome.result again), body_eq,
        funext fun instruction => alike.skips_eq instruction]

/-- A call that completes settles if its body writes nothing that it reads before, and redefines no
variable through which it stores before. -/
theorem settles_of_apart {name : String} {summary : Summary}
    (called : machine.callEntryPoint configuration name = ⟨next, .ok summary⟩)
    (apart : ∀ id start stop, machine.table.entryPoint? name = some id →
      machine.bodyBounds id = .ok (start, stop) →
      machine.table.Apart (machine.body start stop)) : machine.Settles configuration name := by
  intro id start stop entry bounds
  rw [called]
  rw [callEntryPoint, entry] at called
  obtain ⟨start', stop', bounds', runs⟩ := call_inv called
  cases bounds.symm.trans bounds'
  exact runs.settled (apart id start stop entry bounds)

/-- The second call of a module with private state settles, as the first one has left the flag
behind; the third one writes the same outputs as the second. -/
theorem call_again_flagged : ∃ machine, ofModule {} flagged = .ok machine ∧
    let first := (machine.callEntryPoint {} "main").machine
    let second := (first.callEntryPoint {} "main").machine
    first.Settles {} "main" ∧ (second.callEntryPoint {} "main").machine.slots = second.slots := by
  have evaluated : (ofModule {} flagged).toOption.any (fun machine =>
      let first := (machine.callEntryPoint {} "main").machine
      let second := first.callEntryPoint {} "main"
      decide (first.table.entryPoint? "main" = some 1 ∧ first.bodyBounds 1 = .ok (48, 61) ∧
        first.table.Settled (first.body 48 61) second.machine.table ∧
        second.result = .ok ⟨1, 5, 0⟩ ∧
        (second.machine.callEntryPoint {} "main").result = .ok ⟨1, 5, 0⟩)) = true := by
    decide +kernel
  obtain ⟨machine, set_up, outcome⟩ := exists_of_any evaluated
  obtain ⟨entry, bounds, settled, called, again⟩ := of_decide_eq_true outcome
  have settles : (machine.callEntryPoint {} "main").machine.Settles {} "main" := by
    intro id start stop entry' bounds'
    cases entry.symm.trans entry'
    cases bounds.symm.trans bounds'
    exact settled
  exact ⟨machine, set_up, settles,
    (settles.call_again (Outcome.eq_of_result called) (Outcome.eq_of_result again)).1⟩

/-- The entry point of a module with private state does not write the same outputs when it is called
again: its first call leaves a flag behind that the second one writes to the output. -/
theorem outputs_differ_flagged : ¬ ∀ (words : List Word) (loaded : Module) (machine : Machine),
    Module.ofWords words = .ok loaded → Reachable loaded machine →
    ∀ (configuration : Configuration) (name : String) (next last : Machine)
      (summary summary' : Summary),
      machine.callEntryPoint configuration name = ⟨next, .ok summary⟩ →
      next.callEntryPoint configuration name = ⟨last, .ok summary'⟩ →
      last.slots.written = next.slots.written := by
  intro deterministic
  have loads : Module.ofWords flagged.words = .ok flagged :=
    Module.ofWords_words (by decide) (by decide) (by decide) (by decide) rfl
  have evaluated : (ofModule {} flagged).toOption.any (fun machine =>
      let first := machine.callEntryPoint {} "main"
      let second := first.machine.callEntryPoint {} "main"
      decide (first.result = .ok ⟨1, 5, 0⟩ ∧ second.result = .ok ⟨1, 5, 0⟩ ∧
        first.machine.slots.written = [(0, [0, 0, 0, 0])] ∧
        second.machine.slots.written = [(0, [0, 0, 0x80, 0x3F])])) = true := by decide +kernel
  obtain ⟨machine, set_up, outcome⟩ := exists_of_any evaluated
  obtain ⟨called, again, first_written, second_written⟩ := of_decide_eq_true outcome
  have same := deterministic _ _ machine loads (.setUp set_up) {} "main" _ _ _ _
    (Outcome.eq_of_result called) (Outcome.eq_of_result again)
  rw [first_written, second_written] at same
  cases same

end Machine

end ShaderMachine
