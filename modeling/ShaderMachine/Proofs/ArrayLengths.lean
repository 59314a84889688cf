import ShaderMachine.Proofs.Aggregates
import ShaderMachine.Proofs.OperandCounts
import ShaderMachine.Proofs.ReachableLayout

/-! # Lengths of arrays

An array type is declared with the value of an integer constant for its length, an unsigned number
of up to 64 bits, and keeps 32 bits of it. The length is not zero, and that many elements are no
larger than a type may be; so it is below `2 ^ 32` and kept whole unless the elements are empty.

* **`DataType.HasLength`** — what the length of an array says about its type.
* **`Setup.length_int`** — integer values have at most eight bytes, so they are read whole.
* **`Setup.array_length`** — what is known of an array type that is accepted.
* **`Setup.array_length_lost`** — empty elements, of which `2 ^ 32` are declared and none are kept.
  -/

namespace ShaderMachine

/-! ## Lengths -/

/-- Whether a type is that of arrays of a number of elements: it counts that many, is as large as
they are together but not too large, and has a member at the indices below the number. -/
structure DataType.HasLength (type : DataType) (elementSize length : Nat) : Prop where
  /-- It counts that many. -/
  count : type.elementCount = length
  /-- It is as large as they are together. -/
  size : type.size = length * elementSize
  /-- It is not too large. -/
  small : type.size ≤ maxTypeSize
  /-- It has a member at the indices below. -/
  member : ∀ index, (type.member? index).isSome ↔ index.toNat < length

/-- An array whose length fits a word has that length. -/
theorem DataType.hasLength_array (element : Member) {length : Nat} (fits : length < 2 ^ 32)
    (small : length * element.size ≤ maxTypeSize) :
    (array element (UInt32.ofNat length)).HasLength element.size length := by
  have kept : (UInt32.ofNat length).toNat = length := UInt32.toNat_ofNat_of_lt' fits
  have size_eq : (array element (UInt32.ofNat length)).size = length * element.size := by
    rw [size, kept, Nat.mul_comm]
  have aggregate : (array element (UInt32.ofNat length)).IsAggregate := trivial
  refine ⟨kept, size_eq, size_eq ▸ small, fun index => ?_⟩
  rw [isSome_member?_iff aggregate, elementCount, kept]

/-- Elements that are not empty cannot be so many that the length does not fit a word. -/
theorem length_lt_of_small {length size : Nat} (small : length * size ≤ maxTypeSize)
    (room : size ≠ 0) : length < 2 ^ 32 := by
  have bounded : length ≤ length * size := Nat.le_mul_of_pos_right length (Nat.pos_of_ne_zero room)
  have limit : maxTypeSize < 2 ^ 32 := by decide
  omega

/-! ## Integer constants -/

/-- What is read from an integer constant are its first eight bytes. -/
theorem Table.integerConstant_inv {table : Table} {id : Id} {number : Nat}
    (is : table.integerConstant id = .ok number) :
    ∃ value width signed, table.value id = .ok value ∧
      table.typeOf value.type = .ok (.int width signed) ∧
      number = natOfBytes (value.bytes.take 8) := by
  obtain ⟨value, is_value, is⟩ := exists_of_bind is
  obtain ⟨type, is_type, is⟩ := exists_of_bind is
  cases type with
  | int width signed =>
      cases is
      exact ⟨value, width, signed, is_value, is_type, rfl⟩
  | _ => cases is

namespace Setup

variable {configuration : Configuration} {setup next : Setup} {instruction : Instruction}

/-- Integer types have a width that scalar types may have, and their values are of that width; so
none of them has more than eight bytes. -/
theorem length_int {done : List Instruction} {value : Value} {id : Id} {width : Word}
    {signed : Bool} (noted : setup.Noted done) (layout : setup.table.Layout)
    (is_value : setup.table.value id = .ok value)
    (is_type : setup.table.typeOf value.type = .ok (.int width signed)) :
    value.bytes.length ≤ 8 := by
  have length_eq : scalarSize width = value.bytes.length :=
    Except.ok.inj ((Table.sizeOf_of_typeOf is_type).symm.trans (layout.value is_value))
  have standard : IsScalarWidth width := by
    obtain ⟨record, found, definition_eq⟩ := Table.typeOf_eq_ok_iff.mp is_type
    obtain ⟨-, rfl⟩ := Table.get_eq_ok_iff.mp found
    refine (noted value.type width ?_).2
    rw [definition_eq]
    rfl
  rw [← length_eq]
  rcases standard with rfl | rfl | rfl | rfl <;> decide

/-! ## Array types -/

/-- An array type that is added has the length of its constant, as far as a word holds it. -/
theorem exists_typeArray {cursor last : Cursor}
    (handled : typeArray configuration setup instruction cursor = .ok (next, last)) :
    ∃ id element lengthId rest length size, cursor.ahead = id :: element :: lengthId :: rest ∧
      setup.table.integerConstant lengthId = .ok length ∧ length ≠ 0 ∧
      setup.table.sizeOf element = .ok size ∧ length * size ≤ maxTypeSize ∧
      setup.table.define id (.type (.array ⟨element, size⟩ (UInt32.ofNat length))) =
        .ok next.table := by
  obtain ⟨id, first, first_eq, handled⟩ := OperandReader.exists_word handled
  obtain ⟨element, second, second_eq, handled⟩ := OperandReader.exists_word handled
  obtain ⟨lengthId, third, third_eq, handled⟩ := OperandReader.exists_word handled
  obtain ⟨length, is_length, handled⟩ := OperandReader.exists_computed handled
  split at handled
  · cases handled
  · rename_i some_elements
    obtain ⟨size, has_size, handled⟩ := OperandReader.exists_computed handled
    split at handled
    · cases handled
    · rename_i small
      obtain ⟨table, defined, rfl⟩ := exists_of_withType handled
      refine ⟨id, element, lengthId, third.ahead, length, size, ?_, is_length, some_elements,
        has_size, Nat.le_of_not_lt small, defined⟩
      rw [first_eq, second_eq, third_eq]

/-- An array type that is accepted is declared with an integer constant, of which the value, read as
an unsigned number, is not zero, and with an element type. It is as large as that many elements, and
not too large. It keeps the number modulo `2 ^ 32`; if the elements are not empty or the number fits
a word, then it has that length. -/
theorem array_length {loaded : Module} {instructions : List Instruction}
    (passed : instructions.foldlM (step configuration) (ofModule loaded) = .ok setup)
    (declares : Opcode.ofNumber? instruction.opcode = some .typeArray)
    (accepted : setup.step configuration instruction = .ok next) :
    ∃ id element lengthId rest value width signed size type,
      instruction.operands = id :: element :: lengthId :: rest ∧
      setup.table.value lengthId = .ok value ∧
      setup.table.typeOf value.type = .ok (.int width signed) ∧
      setup.table.sizeOf element = .ok size ∧
      next.table.typeOf id = .ok type ∧ (∃ count, type = .array ⟨element, size⟩ count) ∧
      Table.natOfBytes value.bytes ≠ 0 ∧ type.size = Table.natOfBytes value.bytes * size ∧
      type.size ≤ maxTypeSize ∧ type.elementCount = Table.natOfBytes value.bytes % 2 ^ 32 ∧
      (size ≠ 0 ∨ Table.natOfBytes value.bytes < 2 ^ 32 →
        type.HasLength size (Table.natOfBytes value.bytes)) := by
  have layout : setup.table.Layout := layout_of_foldlM (Table.layout_ofBound loaded.bound) passed
  have registered : setupTable.get? instruction.opcode = some typeArray :=
    Dispatch.get?_of_known _ declares
  rcases step_cases accepted with ⟨handler, cursor, registered', handled⟩ | ⟨missing, -⟩
  · cases registered.symm.trans registered'
    obtain ⟨id, element, lengthId, rest, length, size, operands_eq, is_length, some_elements,
      has_size, small, defined⟩ := exists_typeArray handled
    obtain ⟨value, width, signed, is_value, is_type, rfl⟩ := Table.integerConstant_inv is_length
    -- The constant has no more bytes than are read.
    have whole : value.bytes.take 8 = value.bytes :=
      List.take_of_length_le (length_int (noted_of_foldlM passed) layout is_value is_type)
    rw [whole] at some_elements small defined
    have has_length (kept : size ≠ 0 ∨ Table.natOfBytes value.bytes < 2 ^ 32) :=
      DataType.hasLength_array ⟨element, size⟩
        (kept.elim (length_lt_of_small small) fun fits => fits) small
    have size_eq : (DataType.array ⟨element, size⟩ (UInt32.ofNat
        (Table.natOfBytes value.bytes))).size = Table.natOfBytes value.bytes * size := by
      by_cases room : size = 0
      · rw [DataType.size, room, Nat.zero_mul, Nat.mul_zero]
      · exact (has_length (.inl room)).size
    exact ⟨id, element, lengthId, rest, value, width, signed, size, _, operands_eq, is_value,
      is_type, has_size, Table.typeOf_of_define defined, ⟨_, rfl⟩, some_elements, size_eq,
      size_eq ▸ small, UInt32.toNat_ofNat', has_length⟩
  · cases registered.symm.trans missing

/-- A module with two array types, one of three floats and one of `2 ^ 32` empty structures. -/
def arrays : Module where
  header := .ofBound 8 0
  instructions := [⟨5, 21, [1, 64, 1]⟩, ⟨9, 43, [1, 2, 3, 0]⟩, ⟨14, 43, [1, 3, 0, 1]⟩,
    ⟨19, 22, [4, 32]⟩, ⟨22, 30, [5]⟩, ⟨24, 28, [6, 4, 2]⟩, ⟨28, 28, [7, 5, 3]⟩]
  metadata := {}
  instructionCount := 7

/-- Arrays of three floats have the length three. -/
theorem array_length_floats : ∃ setup next type,
    (arrays.instructions.take 5).foldlM (step {}) (ofModule arrays) = .ok setup ∧
    setup.step {} ⟨24, 28, [6, 4, 2]⟩ = .ok next ∧ next.table.typeOf 6 = .ok type ∧
    type.HasLength 4 3 := by
  have evaluated : ((arrays.instructions.take 5).foldlM (step {}) (ofModule arrays)).toOption.any
      (fun setup => (setup.step {} ⟨24, 28, [6, 4, 2]⟩).toOption.any fun _ =>
        (setup.table.value 2).toOption.any (fun value => Table.natOfBytes value.bytes = 3) &&
          (setup.table.sizeOf 4).toOption.any (· = 4)) = true := by decide +kernel
  obtain ⟨setup, passed, evaluated⟩ := exists_of_any evaluated
  obtain ⟨next, accepted, evaluated⟩ := exists_of_any evaluated
  rw [Bool.and_eq_true] at evaluated
  obtain ⟨value, is_value, three⟩ := exists_of_any evaluated.1
  obtain ⟨size, has_size, four⟩ := exists_of_any evaluated.2
  obtain ⟨id, element, lengthId, rest, value', -, -, size', type, operands_eq, is_value', -,
    has_size', is_array, -, -, -, -, -, has_length⟩ := array_length passed (by decide) accepted
  cases operands_eq
  cases is_value.symm.trans is_value'
  cases has_size.symm.trans has_size'
  have three : Table.natOfBytes value.bytes = 3 := of_decide_eq_true three
  have four : size = 4 := of_decide_eq_true four
  subst four
  rw [three] at has_length
  exact ⟨setup, next, type, passed, accepted, is_array, has_length (.inl (by decide))⟩

/-- The type of `2 ^ 32` empty structures counts none of them: it does not have the length it is
declared with, and no member. -/
theorem array_length_lost : ∃ setup next value type,
    (arrays.instructions.take 6).foldlM (step {}) (ofModule arrays) = .ok setup ∧
    setup.step {} ⟨28, 28, [7, 5, 3]⟩ = .ok next ∧ setup.table.value 3 = .ok value ∧
    Table.natOfBytes value.bytes = 2 ^ 32 ∧ next.table.typeOf 7 = .ok type ∧
    type.elementCount = 0 ∧ type.member? 0 = none ∧
    ¬ type.HasLength 0 (Table.natOfBytes value.bytes) := by
  have evaluated : ((arrays.instructions.take 6).foldlM (step {}) (ofModule arrays)).toOption.any
      (fun setup => (setup.step {} ⟨28, 28, [7, 5, 3]⟩).toOption.any fun next =>
        (setup.table.value 3).toOption.any (fun value => Table.natOfBytes value.bytes = 2 ^ 32) &&
          (next.table.typeOf 7).toOption.any fun type =>
            type.elementCount = 0 && type.member? 0 = none) = true := by decide +kernel
  obtain ⟨setup, passed, evaluated⟩ := exists_of_any evaluated
  obtain ⟨next, accepted, evaluated⟩ := exists_of_any evaluated
  rw [Bool.and_eq_true] at evaluated
  obtain ⟨value, is_value, many⟩ := exists_of_any evaluated.1
  obtain ⟨type, is_array, lost⟩ := exists_of_any evaluated.2
  rw [Bool.and_eq_true, decide_eq_true_eq, decide_eq_true_eq] at lost
  have many : Table.natOfBytes value.bytes = 2 ^ 32 := of_decide_eq_true many
  refine ⟨setup, next, value, type, passed, accepted, is_value, many, is_array, lost.1, lost.2, ?_⟩
  intro has_length
  have counted := has_length.count
  rw [lost.1, many] at counted
  exact absurd counted (by decide)

end Setup

end ShaderMachine
