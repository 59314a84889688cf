import ShaderMachine.Proofs.ComputedValues

/-! # What loads yield

A load yields all that a variable holds, or the first bytes of the input at the location of an input
variable. A variable that is no input is loaded as a type of the size of what it holds, or not at
all; of an input any number of bytes may be loaded that is there.

* **`Loads`** — what a load of a number of bytes yields.
* **`loads_of_loadBytes`** and **`loadBytes_of_loads`** — it is what is computed for a load.
* **`Machine.load_keeps_size`** — what a load does that succeeds, when it does, and how one of a
  wrong size fails.
* **`Machine.load_of_half`** — an input of two floats that is loaded as one. -/

namespace ShaderMachine

/-- What a load of a number of bytes through a pointer yields. -/
inductive Loads (table : Table) (slots : Slots) (pointer : Id) (size : Nat) : Bytes → Prop
  /-- A variable that is no input yields all that it holds, if it holds that much. -/
  | held {record : Record} {contents : Variable} (found : table.get pointer = .ok record)
      (is_variable : record.definition = .var contents) (no_input : contents.storage ≠ .input)
      (pointee : table.sizeOf contents.pointee = .ok size) :
      Loads table slots pointer size contents.data
  /-- An input variable yields the first bytes of the input at its location, if there are enough. -/
  | input {record : Record} {contents : Variable} {location : Word} {data : Bytes}
      (found : table.get pointer = .ok record) (is_variable : record.definition = .var contents)
      (is_input : contents.storage = .input) (located : record.location? = some location)
      (bound : slots.input location = .ok data) (enough : size ≤ data.length) :
      Loads table slots pointer size (data.take size)

/-- What is loaded has the size asked for. -/
theorem Loads.length_eq {table : Table} {slots : Slots} {pointer : Id} {size : Nat} {bytes : Bytes}
    (layout : table.Layout) (loads : Loads table slots pointer size bytes) :
    bytes.length = size := by
  cases loads with
  | held found is_variable no_input pointee =>
      have fits := layout.contents found is_variable
      exact Except.ok.inj (fits.data.symm.trans pointee)
  | input found is_variable is_input located bound enough => exact List.length_take_of_le enough

section

variable {table : Table} {slots : Slots} {type pointer : Id} {bytes : Bytes}

/-- What is computed for a load is what a load of the size of the type yields. -/
theorem loads_of_loadBytes (layout : table.Layout)
    (loaded : loadBytes table slots type pointer = .ok bytes) :
    ∃ size, table.sizeOf type = .ok size ∧ Loads table slots pointer size bytes := by
  obtain ⟨size, has_size, loaded⟩ := exists_of_bind loaded
  obtain ⟨contents, is_variable, loaded⟩ := exists_of_bind loaded
  obtain ⟨record, found, is_variable⟩ := Table.variableAt_eq_ok_iff.mp is_variable
  refine ⟨size, has_size, ?_⟩
  split at loaded
  · rename_i is_input
    obtain ⟨record', found', loaded⟩ := exists_of_bind loaded
    cases found.symm.trans found'
    split at loaded
    · cases loaded
    · rename_i location located
      obtain ⟨data, bound, loaded⟩ := exists_of_bind loaded
      split at loaded
      · cases loaded
      · rename_i enough
        cases loaded
        exact .input found is_variable is_input located bound (Nat.le_of_not_lt enough)
  · rename_i no_input
    split at loaded
    · rename_i same
      cases loaded
      have fits := layout.contents found is_variable
      exact .held found is_variable no_input (same ▸ fits.data)
    · cases loaded

/-- What a load of the size of the type yields is computed for it. -/
theorem loadBytes_of_loads {size : Nat} (layout : table.Layout)
    (has_size : table.sizeOf type = .ok size) (loads : Loads table slots pointer size bytes) :
    loadBytes table slots type pointer = .ok bytes := by
  have length_eq := loads.length_eq layout
  cases loads with
  | @held record contents found is_variable no_input pointee =>
      have is_variable : table.variableAt pointer = .ok contents :=
        Table.variableAt_eq_ok_iff.mpr ⟨record, found, is_variable⟩
      rw [loadBytes, has_size, is_variable]
      simp only [bind, Except.bind, if_neg no_input, length_eq, if_pos]
      rfl
  | @input record contents location data found is_variable is_input located bound enough =>
      have is_variable : table.variableAt pointer = .ok contents :=
        Table.variableAt_eq_ok_iff.mpr ⟨record, found, is_variable⟩
      rw [loadBytes, has_size, is_variable]
      simp only [bind, Except.bind, is_input, if_pos, found, located, bound,
        if_neg (Nat.not_lt.mpr enough)]
      rfl

/-- A variable that is no input is not loaded as a type of another size. -/
theorem loadBytes_mismatch {contents : Variable} {size : Nat}
    (has_size : table.sizeOf type = .ok size)
    (is_variable : table.variableAt pointer = .ok contents) (no_input : contents.storage ≠ .input)
    (other : contents.data.length ≠ size) :
    loadBytes table slots type pointer =
      .error (.typeMismatch pointer (.pointerTo size) (.pointerTo contents.data.length)) := by
  rw [loadBytes, has_size, is_variable]
  simp only [bind, Except.bind, if_neg no_input, if_neg other]

end

namespace Machine

variable {configuration : Configuration} {machine next : Machine} {instruction : Instruction}

/-- A load computes what is loaded for its result. -/
theorem computes_load {type result pointer : Id} {rest : List Word} (machine : Machine)
    (is_load : Opcode.ofNumber? instruction.opcode = some .load)
    (operands_eq : instruction.operands = type :: result :: pointer :: rest) :
    ∃ cursor, cursor.ahead = rest.tail ∧ machine.ComputesValue instruction type result
      (loadBytes machine.table machine.slots type pointer) cursor := by
  have registered : executionTable.get? instruction.opcode = some Execution.load :=
    Dispatch.get?_of_known _ is_load
  obtain ⟨offset, opcode, operands⟩ := instruction
  subst operands_eq
  -- A memory operand may follow the pointer.
  cases rest with
  | nil =>
      refine ⟨_, ?_, Execution.load, registered, rfl⟩
      rfl
  | cons memory rest =>
      refine ⟨_, ?_, Execution.load, registered, rfl⟩
      rfl

/-- The operands of a load that succeeds. -/
theorem operands_of_load {skipped : Bool}
    (is_load : Opcode.ofNumber? instruction.opcode = some .load)
    (stepped : machine.step configuration instruction = ⟨next, .ok skipped⟩) :
    ∃ type result pointer rest, instruction.operands = type :: result :: pointer :: rest ∧
      rest.tail = [] := by
  have registered : executionTable.get? instruction.opcode = some Execution.load :=
    Dispatch.get?_of_known _ is_load
  rcases yields_of_step stepped with ⟨skips, -⟩ |
    ⟨-, handler, effect, cursor, registered', yielded, at_end, -⟩
  · rw [Table.skips_of_plain machine.table registered (by rw [is_load]; decide)] at skips
    cases skips
  · cases registered.symm.trans registered'
    obtain ⟨type, result, pointer, rest, operands_eq, -⟩ := Execution.exists_load yielded
    refine ⟨type, result, pointer, rest, operands_eq, ?_⟩
    have operands_eq : instruction.operands = _ := operands_eq
    obtain ⟨cursor', ahead_eq, handler, registered', handled⟩ :=
      machine.computes_load is_load operands_eq
    cases registered.symm.trans registered'
    rw [← ahead_eq, ← (OperandReader.of_computed (handled.symm.trans yielded)).2]
    exact List.isEmpty_iff.mp at_end

/-- A load that succeeds gives its result what a load of the size of the result type yields, as a
value of that type, and does nothing else; it succeeds whenever there is something to yield and the
result may be given a value. Of a variable that is no input this is all that it holds, so the type
has the size of what the pointer points to; if it has not, then the load fails and does nothing. -/
theorem load_keeps_size {loaded : Module} (attained : Attained loaded machine)
    (is_load : Opcode.ofNumber? instruction.opcode = some .load) :
    (∀ next skipped, machine.step configuration instruction = ⟨next, .ok skipped⟩ →
      skipped = false ∧ ∃ type result pointer rest size bytes,
        instruction.operands = type :: result :: pointer :: rest ∧
        machine.table.sizeOf type = .ok size ∧
        Loads machine.table machine.slots pointer size bytes ∧
        machine.Gives result ⟨type, bytes⟩ next) ∧
    (∀ type result pointer rest size bytes,
      instruction.operands = type :: result :: pointer :: rest → rest.tail = [] →
      machine.table.sizeOf type = .ok size →
      Loads machine.table machine.slots pointer size bytes → machine.table.MayHold result →
      machine.Yields configuration instruction result ⟨type, bytes⟩) ∧
    ∀ type result pointer rest size contents,
      instruction.operands = type :: result :: pointer :: rest →
      machine.table.sizeOf type = .ok size → machine.table.variableAt pointer = .ok contents →
      contents.storage ≠ .input → machine.table.sizeOf contents.pointee ≠ .ok size →
      machine.step configuration instruction = ⟨machine, .error
        (.typeMismatch pointer (.pointerTo size) (.pointerTo contents.data.length))⟩ := by
  have layout := attained.table_layout
  -- The three parts: what a load that succeeds has done, when one succeeds, and the fault of a size
  -- that differs.
  refine ⟨fun next skipped stepped => ?_, ?_, ?_⟩
  · obtain ⟨type, result, pointer, rest, operands_eq, at_end⟩ := operands_of_load is_load stepped
    obtain ⟨cursor, ahead_eq, computes⟩ := machine.computes_load is_load operands_eq
    rcases step_of_computes configuration computes (ahead_eq.trans at_end)
      (fun _ => sound_loadBytes type pointer) with
      ⟨next', bytes, stepped', loads, -, gives⟩ | ⟨error, stepped', -⟩
    · cases stepped.symm.trans stepped'
      obtain ⟨size, has_size, loads⟩ := loads_of_loadBytes layout loads
      exact ⟨rfl, type, result, pointer, rest, size, bytes, operands_eq, has_size, loads, gives⟩
    · cases stepped.symm.trans stepped'
  · intro type result pointer rest size bytes operands_eq at_end has_size loads holds
    obtain ⟨cursor, ahead_eq, computes⟩ := machine.computes_load is_load operands_eq
    have length_eq := loads.length_eq layout
    exact (yields_iff computes (ahead_eq.trans at_end) fun _ => sound_loadBytes type pointer).mpr
      ⟨loadBytes_of_loads layout has_size loads, length_eq.symm ▸ has_size, holds⟩
  · intro type result pointer rest size contents operands_eq has_size is_variable no_input other
    obtain ⟨cursor, -, computes⟩ := machine.computes_load is_load operands_eq
    have mismatch : contents.data.length ≠ size := by
      rintro rfl
      obtain ⟨record, found, definition_eq⟩ := Table.variableAt_eq_ok_iff.mp is_variable
      exact other (layout.contents found definition_eq).data
    refine step_of_not_computed computes (fun _ => sound_loadBytes type pointer) ?_
    rw [loadBytes_mismatch has_size is_variable no_input mismatch]
    rfl

/-- A module whose entry point loads an input of two floats, once whole and once as one float. -/
def pairs : Module where
  header := .ofBound 11 0
  instructions := [⟨5, 15, [4, 1, 0x6E69616D, 0, 2]⟩, ⟨11, 71, [2, 30, 0]⟩, ⟨15, 19, [3]⟩,
    ⟨17, 33, [4, 3]⟩, ⟨20, 22, [5, 32]⟩, ⟨23, 23, [6, 5, 2]⟩, ⟨27, 32, [7, 1, 6]⟩,
    ⟨31, 59, [7, 2, 1]⟩, ⟨35, 54, [3, 1, 0, 4]⟩, ⟨40, 248, [8]⟩, ⟨42, 61, [6, 10, 2]⟩,
    ⟨46, 61, [5, 9, 2]⟩, ⟨50, 253, []⟩, ⟨51, 56, []⟩]
  metadata := {}
  instructionCount := 14

/-- Loading the input whole yields its eight bytes. -/
theorem load_of_whole : ∃ machine next size bytes, Attained pairs machine ∧
    machine.step {} ⟨42, 61, [6, 10, 2]⟩ = ⟨next, .ok false⟩ ∧
    machine.table.sizeOf 6 = .ok size ∧ size = 8 ∧
    Loads machine.table machine.slots 2 size bytes ∧ machine.Gives 10 ⟨6, bytes⟩ next := by
  have evaluated : ((ofModule {} pairs).toOption.any fun machine =>
      (machine.bind 0 [0, 0, 128, 63, 0, 0, 0, 64]).toOption.any fun bound =>
        (bound.step {} ⟨42, 61, [6, 10, 2]⟩).result.toOption.any (· = false) &&
          (bound.table.sizeOf 6).toOption.any (· = 8)) = true := by decide +kernel
  obtain ⟨machine, set_up, evaluated⟩ := exists_of_any evaluated
  obtain ⟨bound, is_bound, evaluated⟩ := exists_of_any evaluated
  rw [Bool.and_eq_true] at evaluated
  obtain ⟨skipped, result_eq, no_skip⟩ := exists_of_any evaluated.1
  obtain ⟨size, has_size, eight⟩ := exists_of_any evaluated.2
  have attained : Attained pairs bound := .reachable (.bind (.setUp set_up) is_bound)
  have stepped := Outcome.eq_of_result result_eq
  obtain ⟨rfl, type, result, pointer, rest, size', bytes, operands_eq, has_size', loads, gives⟩ :=
    (load_keeps_size attained (by decide)).1 _ skipped stepped
  cases operands_eq
  cases has_size.symm.trans has_size'
  exact ⟨bound, _, size, bytes, attained, stepped, has_size, of_decide_eq_true eight, loads, gives⟩

/-- The input variable points to two floats, but it is loaded as one of them: the type of the result
is smaller than what the pointer points to, and the load succeeds. -/
theorem load_of_half : ∃ machine next contents, Attained pairs machine ∧
    machine.step {} ⟨46, 61, [5, 9, 2]⟩ = ⟨next, .ok false⟩ ∧
    machine.table.variableAt 2 = .ok contents ∧ machine.table.sizeOf contents.pointee = .ok 8 ∧
    machine.table.sizeOf 5 = .ok 4 ∧ next.table.value 9 = .ok ⟨5, [0, 0, 128, 63]⟩ := by
  have evaluated : ((ofModule {} pairs).toOption.any fun machine =>
      (machine.bind 0 [0, 0, 128, 63, 0, 0, 0, 64]).toOption.any fun bound =>
        (bound.step {} ⟨46, 61, [5, 9, 2]⟩).result.toOption.any (· = false) &&
        ((bound.table.variableAt 2).toOption.any fun contents =>
          (bound.table.sizeOf contents.pointee).toOption.any (· = 8)) &&
        (bound.table.sizeOf 5).toOption.any (· = 4) &&
        ((bound.step {} ⟨46, 61, [5, 9, 2]⟩).machine.table.value 9).toOption.any
          (· = ⟨5, [0, 0, 128, 63]⟩)) = true := by decide +kernel
  obtain ⟨machine, set_up, evaluated⟩ := exists_of_any evaluated
  obtain ⟨bound, is_bound, evaluated⟩ := exists_of_any evaluated
  simp only [Bool.and_eq_true] at evaluated
  obtain ⟨⟨⟨stepped, variable_two⟩, four⟩, loaded⟩ := evaluated
  obtain ⟨skipped, result_eq, no_skip⟩ := exists_of_any stepped
  obtain ⟨contents, is_variable, eight⟩ := exists_of_any variable_two
  obtain ⟨pointee, has_pointee, is_eight⟩ := exists_of_any eight
  obtain ⟨size, has_size, is_four⟩ := exists_of_any four
  obtain ⟨value, is_value, value_eq⟩ := exists_of_any loaded
  rw [decide_eq_true_eq] at no_skip is_eight is_four value_eq
  subst no_skip is_eight is_four value_eq
  exact ⟨bound, _, contents, .reachable (.bind (.setUp set_up) is_bound),
    Outcome.eq_of_result result_eq, is_variable, has_pointee, has_size, is_value⟩

end Machine

end ShaderMachine
