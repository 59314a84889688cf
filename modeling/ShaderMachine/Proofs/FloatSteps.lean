import ShaderMachine.Proofs.ComputedValues
import ShaderMachine.Proofs.LaneShapes

/-! # What float instructions accept

A float instruction takes operands that fit its form, for the lanes of its result type, and yields a
value of the size of that type. Operands are any bytes that values have, so they may well end within
a lane; then every instruction fails and does nothing, but for the cross product.

* **`floatBytes`** — what a float instruction computes.
* **`Table.IsFloat`** — the float instructions, and **`Table.HasLanes`**, the lanes of a type.
* **`Machine.floats_fit`** — a float instruction takes operands that fit, and fails on all others.
* **`Machine.cross_of_partial_lanes`** — a cross product of operands of thirteen bytes. -/

namespace ShaderMachine

/-! ## What is computed -/

/-- Whether the lanes of a type have a number of bytes. -/
def Table.HasLanes (table : Table) (type : Id) (laneBytes : Nat) : Prop :=
  table.floatWidth type = .ok 32 ∧ laneBytes = 4 ∨ table.floatWidth type = .ok 64 ∧ laneBytes = 8

/-- The lengths of the bytes of values. -/
def lengthsOf (values : List Value) : List Nat :=
  values.map fun value => value.bytes.length

/-- Whether operands have values that fit a form, for the lanes of a type, and as many bytes come of
them as are asked for. -/
def Table.Accepts (table : Table) (form : FloatForm) (type : Id) (operands : List Id) (size : Nat) :
    Prop :=
  ∃ laneBytes values, table.HasLanes type laneBytes ∧ operands.mapM table.value = .ok values ∧
    form.Fits laneBytes (lengthsOf values) ∧ form.resultLength laneBytes (lengthsOf values) = size

/-- The bytes of a result, if something was computed for it. -/
def bytesOr (result : Id) (made : Option Bytes) : Except MachineError Bytes :=
  match made with
  | some bytes => .ok bytes
  | none => .error (.typeMismatch result .likeResult .mismatchedOperands)

/-- The bytes that a float instruction computes. -/
def floatBytes (table : Table) (operation : FloatOperation) (type result : Id)
    (operands : List Id) :
    Except MachineError Bytes := do
  let width ← table.floatWidth type
  let values ← operands.mapM table.value
  let made ← operation.runWidth type width (values.map Value.bytes)
  bytesOr result made

section

variable {table : Table} {operation : FloatOperation} {form : FloatForm} {type result : Id}
  {operands : List Id} {laneBytes size : Nat} {values : List Value} {bytes : Bytes}

/-- The effect of a float instruction is to give its result what it computes. -/
theorem evaluateFloats_eq_bind : evaluateFloats table operation type result operands =
    floatBytes table operation type result operands >>= fun bytes =>
      finishValue table result type (some bytes) := by
  rw [evaluateFloats, floatBytes]
  cases table.floatWidth type with
  | error error => rfl
  | ok width =>
      simp only [bind, Except.bind]
      cases operands.mapM table.value with
      | error error => rfl
      | ok values =>
          simp only
          cases operation.runWidth type width (values.map Value.bytes) with
          | error error => rfl
          | ok bytes => cases bytes <;> rfl

/-- The bytes are found, or there is a fault. -/
theorem sound_floatBytes (operation : FloatOperation) (type result : Id) (operands : List Id)
    (instruction : Instruction) :
    Sound table instruction (floatBytes table operation type result operands) := by
  refine .bind (sound_floatWidth type) fun width _ => ?_
  refine .bind (.mapM sound_value operands) fun values _ => ?_
  refine .bind (sound_runWidth operation type width _) fun bytes _ => ?_
  cases bytes with
  | none => exact .mismatch (by simp)
  | some bytes => exact .pure

/-- What is computed is computed from the values of the operands, with lanes of a number of bytes.
-/
theorem exists_values (computed : floatBytes table operation type result operands = .ok bytes) :
    ∃ laneBytes values, table.HasLanes type laneBytes ∧ operands.mapM table.value = .ok values := by
  obtain ⟨width, is_width, computed⟩ := exists_of_bind computed
  obtain ⟨values, read, computed⟩ := exists_of_bind computed
  obtain ⟨made, ran, -⟩ := exists_of_bind computed
  unfold FloatOperation.runWidth at ran
  split at ran
  · rename_i single
    exact ⟨4, values, .inl ⟨single ▸ is_width, rfl⟩, read⟩
  · split at ran
    · rename_i double
      exact ⟨8, values, .inr ⟨double ▸ is_width, rfl⟩, read⟩
    · cases ran

/-- What is computed of operands that have values depends on whether these fit the form. -/
theorem floatBytes_of_values (has_form : operation.HasForm form)
    (lanes : table.HasLanes type laneBytes) (read : operands.mapM table.value = .ok values) :
    (∃ bytes, floatBytes table operation type result operands = .ok bytes ∧ bytes.length = size) ↔
      form.Fits laneBytes (lengthsOf values) ∧
        form.resultLength laneBytes (lengthsOf values) = size := by
  have lengths_eq : (values.map Value.bytes).map List.length = lengthsOf values := List.map_map
  have computed_iff {width : Word} {made : Option Bytes}
      (is_width : table.floatWidth type = .ok width)
      (ran : operation.runWidth type width (values.map Value.bytes) = .ok made) :
      (∃ bytes, floatBytes table operation type result operands = .ok bytes ∧ bytes.length = size) ↔
        made.map List.length = some size := by
    rw [floatBytes, is_width, read]
    simp only [bind, Except.bind, ran]
    cases made <;> simp [bytesOr]
  rw [← lengths_eq]
  rcases lanes with ⟨is_width, rfl⟩ | ⟨is_width, rfl⟩
  · rw [computed_iff is_width rfl]
    exact has_form Single Single.isSized _ size
  · rw [computed_iff is_width rfl]
    exact has_form Double Double.isSized _ size

/-- Something is computed exactly of the operands that are accepted. -/
theorem floatBytes_iff (has_form : operation.HasForm form) :
    (∃ bytes, floatBytes table operation type result operands = .ok bytes ∧ bytes.length = size) ↔
      table.Accepts form type operands size := by
  constructor
  · rintro ⟨bytes, computed, length_eq⟩
    obtain ⟨laneBytes, values, lanes, read⟩ := exists_values computed
    obtain ⟨fits, size_eq⟩ :=
      (floatBytes_of_values has_form lanes read).mp ⟨bytes, computed, length_eq⟩
    exact ⟨laneBytes, values, lanes, read, fits, size_eq⟩
  · rintro ⟨laneBytes, values, lanes, read, fits, size_eq⟩
    exact (floatBytes_of_values has_form lanes read).mpr ⟨fits, size_eq⟩

end

/-! ## Float instructions -/

/-- Whether an instruction is a float instruction of a form, with the words of its type, its result
and its operands; those of an extended instruction stand around its set and its number. -/
inductive Table.IsFloat (table : Table) (instruction : Instruction) : FloatForm → List Word → Prop
  /-- A float instruction that is no extended one. -/
  | core {opcode : Opcode} {form : FloatForm}
      (known : Opcode.ofNumber? instruction.opcode = some opcode)
      (is_form : opcode.floatForm? = some form) :
      IsFloat table instruction form instruction.operands
  /-- An extended instruction of the imported set. -/
  | extended {type result set : Id} {known : GlslInstruction} {operands : List Word}
      (is_extended : Opcode.ofNumber? instruction.opcode = some .extInst)
      (operands_eq : instruction.operands = type :: result :: set :: known.number :: operands)
      (is_set : Execution.extendedSet table set = .ok .glsl) :
      IsFloat table instruction known.form (type :: result :: operands)

namespace Execution

/-- IDs that stand ahead are read. -/
theorem readIds_append {β : Type} (instruction : Instruction) {ids : List Id} {rest : List Word}
    (cursor : Cursor) (ahead_eq : cursor.ahead = ids ++ rest) (f : List Id → OperandReader β) :
    ∃ next, next.ahead = rest ∧
      (readIds instruction ids.length >>= f) cursor = f ids next := by
  induction ids generalizing cursor f with
  | nil => exact ⟨cursor, ahead_eq, rfl⟩
  | cons id ids hyp =>
      obtain ⟨base, behind, ahead⟩ := cursor
      subst ahead_eq
      obtain ⟨next, next_eq, read⟩ := hyp ⟨base, id :: behind, ids ++ rest⟩ rfl
        fun ids => f (id :: ids)
      refine ⟨next, next_eq, ?_⟩
      rw [List.length_cons, readIds, bind_assoc, ← read]
      simp only [bind_assoc, pure_bind]
      rfl

end Execution

namespace Machine

variable {configuration : Configuration} {machine next : Machine} {instruction : Instruction}
  {form : FloatForm} {words : List Word}

/-- A float instruction that is no extended one has the handler of a computation of its form. -/
theorem exists_registered {opcode : Opcode}
    (known : Opcode.ofNumber? instruction.opcode = some opcode)
    (is_form : opcode.floatForm? = some form) : ∃ operation,
      opcode.floatOperation? = some operation ∧ operation.HasForm form ∧
        executionTable.get? instruction.opcode = some (Execution.floats operation form.arity) := by
  rw [Dispatch.get?_of_known _ known]
  exact Opcode.exists_hasForm is_form

section

variable {operation : FloatOperation} {type result : Id} {operands : List Id} {rest : List Word}

/-- A float instruction that is no extended one computes what its handler does. -/
theorem computes_core (registered : executionTable.get? instruction.opcode =
      some (Execution.floats operation operands.length))
    (operands_eq : instruction.operands = type :: result :: (operands ++ rest)) :
    ∃ cursor, cursor.ahead = rest ∧ machine.ComputesValue instruction type result
      (floatBytes machine.table operation type result operands) cursor := by
  obtain ⟨offset, opcode, words⟩ := instruction
  subst operands_eq
  -- The type and the result are read before the operands, and count as words behind.
  obtain ⟨cursor, ahead_eq, read⟩ := Execution.readIds_append ⟨offset, opcode, _⟩
    ⟨offset + 1, [result, type], operands ++ rest⟩ rfl fun operands =>
      OperandReader.compute (evaluateFloats machine.table operation type result operands)
  refine ⟨cursor, ahead_eq, _, registered, ?_⟩
  rw [← evaluateFloats_eq_bind, ← read]
  rfl

/-- An extended instruction of the imported set computes what its number stands for. -/
theorem computes_extended {set : Id} {known : GlslInstruction}
    (is_extended : Opcode.ofNumber? instruction.opcode = some .extInst)
    (operands_eq : instruction.operands =
      type :: result :: set :: known.number :: (operands ++ rest))
    (is_set : Execution.extendedSet machine.table set = .ok .glsl)
    (count : operands.length = known.arity) :
    ∃ cursor, cursor.ahead = rest ∧ machine.ComputesValue instruction type result
      (floatBytes machine.table known.operation type result operands) cursor := by
  have registered : executionTable.get? instruction.opcode = some Execution.extInst :=
    Dispatch.get?_of_known _ is_extended
  obtain ⟨first, first_eq, extInst_eq⟩ :=
    Execution.extInst_operands machine.table machine.slots operands_eq
  obtain ⟨cursor, ahead_eq, read⟩ := Execution.readIds_append instruction first first_eq
    fun operands => OperandReader.compute
      (evaluateFloats machine.table known.operation type result operands)
  refine ⟨cursor, ahead_eq, _, registered, ?_⟩
  rw [← evaluateFloats_eq_bind, extInst_eq, is_set, OperandReader.compute_ok_bind, ← read, count]
  have found : ExtendedSet.glsl.instruction? known.number = some known :=
    GlslInstruction.ofNumber?_number known
  simp only [found]

/-- A float instruction computes something of its form for its result. -/
theorem computes_floats (is_float : machine.table.IsFloat instruction form words)
    (words_eq : words = type :: result :: (operands ++ rest))
    (count : operands.length = form.arity) :
    ∃ operation cursor, operation.HasForm form ∧ cursor.ahead = rest ∧
      machine.ComputesValue instruction type result
        (floatBytes machine.table operation type result operands) cursor := by
  cases is_float with
  | core known is_form =>
      obtain ⟨operation, -, has_form, registered⟩ := exists_registered known is_form
      obtain ⟨cursor, ahead_eq, computes⟩ := computes_core (count ▸ registered) words_eq
      exact ⟨operation, cursor, has_form, ahead_eq, computes⟩
  | @extended _ _ set known _ is_extended operands_eq is_set =>
      cases words_eq
      obtain ⟨cursor, ahead_eq, computes⟩ :=
        computes_extended is_extended operands_eq is_set (count.trans known.arity_eq.symm)
      exact ⟨known.operation, cursor, known.hasForm, ahead_eq, computes⟩

end

/-- No float instruction is skipped. -/
theorem not_skips_of_isFloat {table : Table} (is_float : table.IsFloat instruction form words) :
    table.skips instruction = false := by
  cases is_float with
  | core known is_form =>
      obtain ⟨operation, -, -, registered⟩ := exists_registered known is_form
      refine Table.skips_of_plain table registered ?_
      rw [known]
      rintro ⟨⟩
      cases is_form
  | @extended _ _ _ known _ is_extended operands_eq is_set =>
      rw [Table.skips, is_extended, operands_eq]
      simp only [is_set, ExtendedSet.instruction?, GlslInstruction.ofNumber?_number,
        Option.isNone_some]

/-- A float instruction that succeeds was computed from its operands, of which none is left over. -/
theorem exists_evaluateFloats {skipped : Bool}
    (is_float : machine.table.IsFloat instruction form words)
    (stepped : machine.step configuration instruction = ⟨next, .ok skipped⟩) :
    skipped = false ∧ ∃ operation type result operands effect, operation.HasForm form ∧
      words = type :: result :: operands ∧
      evaluateFloats machine.table operation type result operands = .ok effect ∧
      machine.commit effect = ⟨next, .ok ()⟩ := by
  have executed := not_skips_of_isFloat is_float
  refine ⟨(skips_of_step stepped).trans executed, ?_⟩
  rcases yields_of_step stepped with ⟨skips, -⟩ |
    ⟨-, handler, effect, cursor, registered, yielded, at_end, committed⟩
  · cases skips.symm.trans executed
  · have nothing_ahead : cursor.ahead = [] := List.isEmpty_iff.mp at_end
    cases is_float with
    | core known is_form =>
        obtain ⟨operation, -, has_form, registered'⟩ := exists_registered known is_form
        cases registered'.symm.trans registered
        obtain ⟨type, result, operands, operands_eq, computed⟩ := Execution.exists_floats yielded
        rw [nothing_ahead, List.append_nil] at operands_eq
        exact ⟨operation, type, result, operands, effect, has_form, operands_eq, computed,
          committed⟩
    | @extended type result set known operands is_extended operands_eq is_set =>
        rw [Dispatch.get?_of_known _ is_extended] at registered
        cases registered
        obtain ⟨type', result', set', number, imported, found, operands', operands_eq', is_set',
          is_found, computed⟩ := Execution.exists_extInst yielded
        rw [nothing_ahead, List.append_nil] at operands_eq'
        -- What was read is what the instruction says, as nothing is left over.
        cases operands_eq.symm.trans operands_eq'
        cases is_set.symm.trans is_set'
        cases (GlslInstruction.ofNumber?_number known).symm.trans is_found
        exact ⟨known.operation, type, result, operands, effect, known.hasForm, rfl, computed,
          committed⟩

/-- A value that is computed and committed is given to the result. -/
theorem gives_of_evaluateFloats {operation : FloatOperation} {type result : Id} {operands : List Id}
    {effect : Effect} (has_form : operation.HasForm form)
    (computed : evaluateFloats machine.table operation type result operands = .ok effect)
    (committed : machine.commit effect = ⟨next, .ok ()⟩) :
    ∃ bytes, machine.table.Accepts form type operands bytes.length ∧
      machine.table.sizeOf type = .ok bytes.length ∧ machine.Gives result ⟨type, bytes⟩ next := by
  rw [evaluateFloats_eq_bind] at computed
  obtain ⟨bytes, made, finished⟩ := exists_of_bind computed
  obtain ⟨has_size, rfl⟩ := sizeOf_of_finishValue finished
  refine ⟨bytes, (floatBytes_iff has_form).mp ⟨bytes, made, rfl⟩, has_size, ?_⟩
  rcases machine.commit_assign_cases result ⟨type, bytes⟩ with
    ⟨next', committed', gives⟩ | ⟨error, refused, -⟩
  · cases committed.symm.trans committed'
    exact gives
  · cases committed.symm.trans refused

/-- A float instruction that succeeds accepted its operands: they fit its form for the lanes of the
result type, and a value of the size of that type comes of them and is given to the result; nothing
else is done. If the operands do not fit, or if what comes of them has another size than the result
type, then the instruction fails and does nothing. If all of this is right and the result may be
given a value, then the instruction succeeds. -/
theorem floats_fit (configuration : Configuration)
    (is_float : machine.table.IsFloat instruction form words) :
    (∀ next skipped, machine.step configuration instruction = ⟨next, .ok skipped⟩ →
      skipped = false ∧ ∃ type result operands bytes, words = type :: result :: operands ∧
        machine.table.Accepts form type operands bytes.length ∧
        machine.table.sizeOf type = .ok bytes.length ∧
        machine.Gives result ⟨type, bytes⟩ next) ∧
    ∀ type result operands rest, words = type :: result :: (operands ++ rest) →
      operands.length = form.arity →
      ((∀ size, machine.table.Accepts form type operands size →
          machine.table.sizeOf type ≠ .ok size) → machine.Fails configuration instruction) ∧
      ∀ size, machine.table.Accepts form type operands size → machine.table.sizeOf type = .ok size →
        rest = [] → machine.table.MayHold result →
        ∃ bytes, machine.Yields configuration instruction result ⟨type, bytes⟩ := by
  constructor
  · intro next skipped stepped
    obtain ⟨executed, operation, type, result, operands, effect, has_form, words_eq, computed,
      committed⟩ := exists_evaluateFloats is_float stepped
    obtain ⟨bytes, accepts, has_size, gives⟩ := gives_of_evaluateFloats has_form computed committed
    exact ⟨executed, type, result, operands, bytes, words_eq, accepts, has_size, gives⟩
  · intro type result operands rest words_eq count
    obtain ⟨operation, cursor, has_form, ahead_eq, computes⟩ :=
      computes_floats is_float words_eq count
    have sound : ∀ instruction, Sound machine.table instruction
        (floatBytes machine.table operation type result operands) :=
      sound_floatBytes operation type result operands
    constructor
    · intro unfit
      cases yielded : floatBytes machine.table operation type result operands >>= fun bytes =>
          finishValue machine.table result type (some bytes) with
      | error error => exact ⟨error, step_of_not_computed computes sound yielded⟩
      | ok effect =>
          -- What is computed after all would be accepted and have the size of the type.
          obtain ⟨bytes, made, finished⟩ := exists_of_bind yielded
          exact absurd (sizeOf_of_finishValue finished).1
            (unfit bytes.length ((floatBytes_iff has_form).mp ⟨bytes, made, rfl⟩))
    · intro size accepts has_size at_end holds
      have computed : ∃ bytes, floatBytes machine.table operation type result operands = .ok bytes ∧
          bytes.length = size := (floatBytes_iff has_form).mpr accepts
      obtain ⟨bytes, made, length_eq⟩ := computed
      exact ⟨bytes, (yields_iff computes (ahead_eq.trans at_end) sound).mpr
        ⟨made, length_eq ▸ has_size, holds⟩⟩

/-- A module whose entry point adds vectors of three floats, takes the cross product of structures
of such a vector and a byte, and adds these structures. -/
def trailing : Module where
  header := .ofBound 17 0
  instructions := [⟨5, 15, [4, 1, 0x6E69616D, 0]⟩,
    ⟨10, 11, [2, 0x4C534C47, 0x6474732E, 0x3035342E, 0]⟩, ⟨16, 19, [3]⟩, ⟨18, 33, [4, 3]⟩,
    ⟨21, 22, [5, 32]⟩, ⟨24, 21, [6, 8, 0]⟩, ⟨28, 23, [7, 5, 3]⟩, ⟨32, 30, [8, 7, 6]⟩,
    ⟨36, 43, [5, 9, 0x3F800000]⟩, ⟨40, 43, [6, 10, 7]⟩, ⟨44, 44, [7, 11, 9, 9, 9]⟩,
    ⟨50, 44, [8, 12, 11, 10]⟩, ⟨55, 54, [3, 1, 0, 4]⟩, ⟨60, 248, [13]⟩, ⟨62, 129, [7, 14, 11, 11]⟩,
    ⟨67, 12, [7, 15, 2, 68, 12, 12]⟩, ⟨74, 129, [7, 16, 12, 12]⟩, ⟨79, 253, []⟩, ⟨80, 56, []⟩]
  metadata := {}
  instructionCount := 19

/-- Two vectors of three floats are added, and their sum has twelve bytes; the structures are not
added. -/
theorem floats_fit_trailing : ∃ machine next bytes, Attained trailing machine ∧
    machine.step {} ⟨62, 129, [7, 14, 11, 11]⟩ = ⟨next, .ok false⟩ ∧
    machine.table.Accepts (.lanewise 2) 7 [11, 11] bytes.length ∧
    machine.table.sizeOf 7 = .ok 12 ∧ machine.Gives 14 ⟨7, bytes⟩ next ∧ bytes.length = 12 ∧
    machine.Fails {} ⟨74, 129, [7, 16, 12, 12]⟩ := by
  have evaluated : ((ofModule {} trailing).toOption.any fun machine =>
      (machine.step {} ⟨62, 129, [7, 14, 11, 11]⟩).result.toOption.any (· = false) &&
        (machine.table.sizeOf 7).toOption.any (· = 12) &&
        (machine.table.floatWidth 7).toOption.any (· = 32) &&
        ((machine.table.value 12).toOption.any fun value => value.bytes.length = 13)) = true := by
    decide +kernel
  obtain ⟨machine, set_up, evaluated⟩ := exists_of_any evaluated
  simp only [Bool.and_eq_true] at evaluated
  obtain ⟨⟨⟨stepped, twelve⟩, single⟩, thirteen⟩ := evaluated
  obtain ⟨skipped, result_eq, no_skip⟩ := exists_of_any stepped
  obtain ⟨size, has_size, is_twelve⟩ := exists_of_any twelve
  obtain ⟨width, is_width, is_single⟩ := exists_of_any single
  obtain ⟨value, is_value, is_thirteen⟩ := exists_of_any thirteen
  rw [decide_eq_true_eq] at no_skip is_twelve is_single is_thirteen
  subst no_skip is_twelve is_single
  have added : Opcode.ofNumber? 129 = some .fAdd := by decide
  have is_float (offset : Nat) (operands : List Word) :
      machine.table.IsFloat ⟨offset, 129, operands⟩ (.lanewise 2) operands := .core added rfl
  have stepped := Outcome.eq_of_result result_eq
  obtain ⟨-, type, result, operands, bytes, words_eq, accepts, size_eq, gives⟩ :=
    (floats_fit {} (is_float 62 _)).1 _ false stepped
  cases words_eq
  have twelve : 12 = bytes.length := Except.ok.inj (has_size.symm.trans size_eq)
  refine ⟨machine, _, bytes, .reachable (.setUp set_up), stepped, accepts, has_size, gives,
    twelve.symm, ?_⟩
  refine ((floats_fit {} (is_float 74 _)).2 7 16 [12, 12] [] rfl rfl).1 ?_
  -- Thirteen bytes are no whole number of lanes of four or of eight bytes.
  rintro size ⟨laneBytes, values, lanes, read, fits, -⟩
  rw [List.mapM_cons, List.mapM_cons, List.mapM_nil, is_value] at read
  cases read
  have whole : laneBytes ∣ value.bytes.length := fits.whole (by decide) _ List.mem_cons_self
  rw [is_thirteen] at whole
  rcases lanes with ⟨-, rfl⟩ | ⟨-, rfl⟩
  · exact absurd whole (by decide)
  · exact absurd whole (by decide)

/-- The structures have thirteen bytes, which are three lanes of four bytes and a byte; but their
cross product is taken, and what is left of them is dropped. -/
theorem cross_of_partial_lanes : ∃ machine next value stored, Attained trailing machine ∧
    machine.table.IsFloat ⟨67, 12, [7, 15, 2, 68, 12, 12]⟩ .crossed [7, 15, 12, 12] ∧
    machine.table.HasLanes 7 4 ∧ machine.table.value 12 = .ok value ∧ ¬ 4 ∣ value.bytes.length ∧
    machine.step {} ⟨67, 12, [7, 15, 2, 68, 12, 12]⟩ = ⟨next, .ok false⟩ ∧
    next.table.value 15 = .ok stored ∧ stored.bytes.length = 12 := by
  have evaluated : ((ofModule {} trailing).toOption.any fun machine =>
      (machine.step {} ⟨67, 12, [7, 15, 2, 68, 12, 12]⟩).result.toOption.any (· = false) &&
        (machine.table.floatWidth 7).toOption.any (· = 32) &&
        ((machine.table.value 12).toOption.any fun value => value.bytes.length = 13) &&
        (Execution.extendedSet machine.table 2).toOption.any (· = .glsl) &&
        ((machine.step {} ⟨67, 12, [7, 15, 2, 68, 12, 12]⟩).machine.table.value 15).toOption.any
          fun stored => stored.bytes.length = 12) = true := by decide +kernel
  obtain ⟨machine, set_up, evaluated⟩ := exists_of_any evaluated
  simp only [Bool.and_eq_true] at evaluated
  obtain ⟨⟨⟨⟨stepped, single⟩, thirteen⟩, imported⟩, twelve⟩ := evaluated
  obtain ⟨skipped, result_eq, no_skip⟩ := exists_of_any stepped
  obtain ⟨width, is_width, is_single⟩ := exists_of_any single
  obtain ⟨value, is_value, is_thirteen⟩ := exists_of_any thirteen
  obtain ⟨set, is_set, is_glsl⟩ := exists_of_any imported
  obtain ⟨stored, is_stored, is_twelve⟩ := exists_of_any twelve
  rw [decide_eq_true_eq] at no_skip is_single is_thirteen is_glsl is_twelve
  subst no_skip is_single is_glsl
  refine ⟨machine, _, value, stored, .reachable (.setUp set_up), ?_, .inl ⟨is_width, rfl⟩, is_value,
    ?_, Outcome.eq_of_result result_eq, is_stored, is_twelve⟩
  · have extended : Opcode.ofNumber? 12 = some .extInst := by decide
    exact @Table.IsFloat.extended _ _ 7 15 2 .cross [12, 12] extended rfl is_set
  · rw [is_thirteen]
    decide

end Machine

end ShaderMachine
