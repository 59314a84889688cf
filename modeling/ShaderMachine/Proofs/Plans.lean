import ShaderMachine.Proofs.CallBody
import ShaderMachine.Proofs.FollowedReads

/-! # What an instruction is about to do

The operands of an executed instruction make up a plan: what it computes, which values and variables
it reads for that, and to which ID it writes the result. A handler that succeeds carries its plan
out, and the plan computes the same effect from tables that agree on what it reads.

* **`Plan`** — what an executed instruction computes.
* **`Plan.reads`** and **`Plan.target?`** — what a plan reads and where it writes.
* **`Table.plan?`** — the plan of an instruction.
* **`plan_of_handler`** — a handler that succeeds carries out its plan.
* **`Plan.follows_compute`** — a plan depends on nothing but what it reads. -/

namespace ShaderMachine

/-! ## Plans -/

/-- What an executed instruction computes. -/
inductive Plan where
  /-- Nothing. -/
  | nothing
  /-- A new variable. -/
  | declare (type id : Id) (storage : StorageClass) (initializer : Option Id)
  /-- What a pointer points to. -/
  | load (resultType result pointer : Id)
  /-- A value to be stored through a pointer. -/
  | store (pointer object : Id)
  /-- A composite of constituents. -/
  | construct (resultType result : Id) (constituents : List Id)
  /-- A part of a composite. -/
  | extract (resultType result composite : Id) (indices : List Word)
  /-- A float computation. -/
  | floats (operation : FloatOperation) (resultType result : Id) (operands : List Id)

namespace Plan

/-- The IDs whose values or variables a plan reads. -/
def reads : Plan → List Id
  | nothing => []
  | declare _ _ _ initializer => initializer.toList
  | load _ _ pointer => [pointer]
  | store _ object => [object]
  | construct _ _ constituents => constituents
  | extract _ _ composite _ => [composite]
  | floats _ _ _ operands => operands

/-- The ID that a plan gives a value or a variable, or through which it stores. -/
def target? : Plan → Option Id
  | nothing => none
  | declare _ id _ _ => some id
  | load _ result _ | construct _ result _ | extract _ result _ _ | floats _ _ result _ =>
      some result
  | store pointer _ => some pointer

/-- The ID through which a plan stores. -/
def pointer? : Plan → Option Id
  | store pointer _ => some pointer
  | _ => none

/-- The ID that a plan gives a value or a variable. -/
def assigned? : Plan → Option Id
  | store _ _ => none
  | plan => plan.target?

/-- The effect of a plan. -/
def compute (table : Table) (slots : Slots) : Plan → Except MachineError Effect
  | nothing => .ok .nothing
  | declare type id storage initializer => do
      let contents ← createVariable table type id storage initializer
      return .assign id (.var contents)
  | load resultType result pointer => do
      let bytes ← loadBytes table slots resultType pointer
      finishValue table result resultType (some bytes)
  | store pointer object => do
      let value ← table.value object
      return .store pointer object value.bytes
  | construct resultType result constituents => do
      let bytes ← foldComposite table result resultType constituents
      finishValue table result resultType (some bytes)
  | extract resultType result composite indices => do
      let bytes ← extractComposite table composite indices
      finishValue table result resultType (some bytes)
  | floats operation resultType result operands =>
      evaluateFloats table operation resultType result operands

end Plan

/-- What a float instruction computes. -/
def floatOperation? : Opcode → Option FloatOperation
  | .fNegate => some (.unary fun _ => Lane.neg)
  | .fAdd => some (.binary fun _ => Lane.add)
  | .fSub => some (.binary fun _ => Lane.sub)
  | .fMul => some (.binary fun _ => Lane.mul)
  | .fDiv => some (.binary fun _ => Lane.div)
  | .vectorTimesScalar => some .scale
  | .dot => some .dot
  | _ => none

/-- The plan of an instruction with a handler and operands enough; that of an extended one depends
on the imported set. -/
def Table.plan? (table : Table) (instruction : Instruction) : Option Plan :=
  match Opcode.ofNumber? instruction.opcode, instruction.operands with
  | some .nop, _ | some .line, _ | some .noLine, _ | some .functionParameter, _ | some .label, _
  | some .returnVoid, _ => some .nothing
  | some .variableDecl, type :: id :: storage :: rest =>
      (StorageClass.ofValue? storage).map fun storage => .declare type id storage rest.head?
  | some .load, resultType :: result :: pointer :: _ => some (.load resultType result pointer)
  | some .store, pointer :: object :: _ => some (.store pointer object)
  | some .compositeConstruct, resultType :: result :: constituents =>
      some (.construct resultType result constituents)
  | some .compositeExtract, resultType :: result :: composite :: indices =>
      some (.extract resultType result composite indices)
  | some .extInst, resultType :: result :: setId :: number :: operands =>
      match Execution.extendedSet table setId with
      | .ok set => (set.instruction? number).map fun known =>
          .floats known.operation resultType result operands
      | .error _ => none
  | some opcode, resultType :: result :: operands =>
      (floatOperation? opcode).map fun operation => .floats operation resultType result operands
  | _, _ => none

/-- Tables that are alike plan the same for every instruction. -/
theorem Table.Alike.plan?_eq {table next : Table} (alike : table.Alike next)
    (instruction : Instruction) : table.plan? instruction = next.plan? instruction := by
  rw [Table.plan?.eq_def, Table.plan?.eq_def]
  split <;> try rfl
  rename_i resultType result setId number operands known operands_eq
  rcases both_ok_or_error (fun _ => alike.extendedSet) (fun _ => alike.symm.extendedSet)
    with ⟨set, is_set, is_set'⟩ | ⟨error, error', is_set, is_set'⟩ <;> rw [is_set, is_set']

/-- An instruction without a handler has no plan. -/
theorem Table.plan?_of_unregistered (table : Table) {instruction : Instruction}
    (missing : executionTable.get? instruction.opcode = none) :
    table.plan? instruction = none := by
  rw [Table.plan?.eq_def]
  cases known : Opcode.ofNumber? instruction.opcode with
  | none => rfl
  | some opcode =>
      rw [Dispatch.get?_of_known _ known] at missing
      cases opcode with
      | nop | line | noLine | functionParameter | label | returnVoid | variableDecl | load | store
      | compositeConstruct | compositeExtract | fNegate | fAdd | fSub | fMul | fDiv
      | vectorTimesScalar | dot | extInst => cases missing
      | _ => rcases instruction.operands with - | ⟨first, - | ⟨second, rest⟩⟩ <;> rfl

/-- An instruction that is skipped has no plan. -/
theorem Table.plan?_of_skips {table : Table} {instruction : Instruction}
    (skips : table.skips instruction = true) : table.plan? instruction = none := by
  unfold Table.skips at skips
  split at skips
  · rename_i first second setId number rest known operands_eq
    -- The set is there but lacks the instruction, so there is nothing to be planned.
    rw [Table.plan?.eq_def, known, operands_eq]
    simp only
    cases is_set : Execution.extendedSet table setId with
    | error error => rfl
    | ok set =>
        rw [is_set] at skips
        have missing : set.instruction? number = none := Option.isNone_iff_eq_none.mp skips
        simp only [missing, Option.map_none]
  · rw [Dispatch.contains, Bool.not_eq_true', Option.isSome_eq_false_iff,
      Option.isNone_iff_eq_none] at skips
    exact table.plan?_of_unregistered skips

/-! ## Handlers carry out their plans -/

namespace Execution

open OperandReader

variable {table : Table} {slots : Slots} {instruction : Instruction} {cursor next : Cursor}
  {effect : Effect}

/-- A variable that is made was planned. -/
theorem exists_variableDecl
    (handled : variableDecl table slots instruction cursor = .ok (effect, next)) :
    ∃ type id word storage rest, cursor.ahead = type :: id :: word :: rest ∧
      StorageClass.ofValue? word = some storage ∧
      (Plan.declare type id storage rest.head?).compute table slots = .ok effect := by
  rw [variableDecl, readVariable, bind_assoc] at handled
  obtain ⟨type, first, first_eq, handled⟩ := exists_word handled
  rw [bind_assoc] at handled
  obtain ⟨id, second, second_eq, handled⟩ := exists_word handled
  rw [bind_assoc] at handled
  obtain ⟨word, third, third_eq, handled⟩ := exists_word handled
  rw [bind_assoc] at handled
  obtain ⟨fourth, handled⟩ := exists_optional handled
  rw [bind_assoc, storageOfWord] at handled
  split at handled
  · rename_i storage is_storage
    rw [pure_bind, bind_assoc] at handled
    obtain ⟨contents, created, handled⟩ := exists_computed handled
    cases handled
    rw [first_eq, second_eq, third_eq]
    refine ⟨type, id, word, storage, third.ahead, rfl, is_storage, ?_⟩
    rw [Plan.compute, created]
    rfl
  · cases handled

/-- A load was planned. -/
theorem exists_load (handled : load table slots instruction cursor = .ok (effect, next)) :
    ∃ resultType result pointer rest, cursor.ahead = resultType :: result :: pointer :: rest ∧
      (Plan.load resultType result pointer).compute table slots = .ok effect := by
  obtain ⟨resultType, first, first_eq, handled⟩ := exists_word handled
  obtain ⟨result, second, second_eq, handled⟩ := exists_word handled
  obtain ⟨pointer, third, third_eq, handled⟩ := exists_word handled
  obtain ⟨last, handled⟩ := exists_optional handled
  rw [first_eq, second_eq, third_eq]
  exact ⟨resultType, result, pointer, third.ahead, rfl, (of_computed handled).1⟩

/-- A store was planned. -/
theorem exists_store (handled : store table slots instruction cursor = .ok (effect, next)) :
    ∃ pointer object rest, cursor.ahead = pointer :: object :: rest ∧
      (Plan.store pointer object).compute table slots = .ok effect := by
  obtain ⟨pointer, first, first_eq, handled⟩ := exists_word handled
  obtain ⟨object, second, second_eq, handled⟩ := exists_word handled
  obtain ⟨last, handled⟩ := exists_optional handled
  obtain ⟨value, is_value, handled⟩ := exists_computed handled
  cases handled
  rw [first_eq, second_eq]
  refine ⟨pointer, object, second.ahead, rfl, ?_⟩
  rw [Plan.compute, is_value]
  rfl

/-- A composite that is built was planned. -/
theorem exists_compositeConstruct
    (handled : compositeConstruct table slots instruction cursor = .ok (effect, next)) :
    ∃ resultType result constituents, cursor.ahead = resultType :: result :: constituents ∧
      (Plan.construct resultType result constituents).compute table slots = .ok effect := by
  obtain ⟨resultType, first, first_eq, handled⟩ := exists_word handled
  obtain ⟨result, second, second_eq, handled⟩ := exists_word handled
  obtain ⟨last, handled⟩ := exists_words handled
  rw [first_eq, second_eq]
  exact ⟨resultType, result, second.ahead, rfl, (of_computed handled).1⟩

/-- A part that is taken from a composite was planned. -/
theorem exists_compositeExtract
    (handled : compositeExtract table slots instruction cursor = .ok (effect, next)) :
    ∃ resultType result composite indices,
      cursor.ahead = resultType :: result :: composite :: indices ∧
      (Plan.extract resultType result composite indices).compute table slots = .ok effect := by
  obtain ⟨resultType, first, first_eq, handled⟩ := exists_word handled
  obtain ⟨result, second, second_eq, handled⟩ := exists_word handled
  obtain ⟨composite, third, third_eq, handled⟩ := exists_word handled
  obtain ⟨last, handled⟩ := exists_words handled
  rw [first_eq, second_eq, third_eq]
  exact ⟨resultType, result, composite, third.ahead, rfl, (of_computed handled).1⟩

/-- IDs that were read stood ahead. -/
theorem exists_ids {β : Type} {arity : Nat} {rest : List Id → OperandReader β}
    {answer : β × Cursor} (read : (readIds instruction arity >>= rest) cursor = .ok answer) :
    ∃ ids next, cursor.ahead = ids ++ next.ahead ∧ rest ids next = .ok answer := by
  induction arity generalizing cursor rest with
  | zero => exact ⟨[], cursor, rfl, read⟩
  | succ arity hyp =>
      rw [readIds, bind_assoc] at read
      obtain ⟨id, first, first_eq, read⟩ := exists_word read
      rw [bind_assoc] at read
      obtain ⟨ids, second, second_eq, read⟩ := hyp read
      rw [pure_bind] at read
      exact ⟨id :: ids, second, by rw [first_eq, second_eq, List.cons_append], read⟩

/-- A float computation was planned. -/
theorem exists_floats {operation : FloatOperation} {arity : Nat}
    (handled : floats operation arity table slots instruction cursor = .ok (effect, next)) :
    ∃ resultType result operands,
      cursor.ahead = resultType :: result :: (operands ++ next.ahead) ∧
      (Plan.floats operation resultType result operands).compute table slots = .ok effect := by
  obtain ⟨resultType, first, first_eq, handled⟩ := exists_word handled
  obtain ⟨result, second, second_eq, handled⟩ := exists_word handled
  obtain ⟨operands, third, third_eq, handled⟩ := exists_ids handled
  obtain ⟨computed, rfl⟩ := of_computed handled
  rw [first_eq, second_eq, third_eq]
  exact ⟨resultType, result, operands, rfl, computed⟩

/-- An extended instruction was planned. -/
theorem exists_extInst (handled : extInst table slots instruction cursor = .ok (effect, next)) :
    ∃ resultType result setId number set known operands,
      cursor.ahead = resultType :: result :: setId :: number :: (operands ++ next.ahead) ∧
      extendedSet table setId = .ok set ∧ set.instruction? number = some known ∧
      (Plan.floats known.operation resultType result operands).compute table slots =
        .ok effect := by
  obtain ⟨resultType, first, first_eq, handled⟩ := exists_word handled
  obtain ⟨result, second, second_eq, handled⟩ := exists_word handled
  obtain ⟨setId, third, third_eq, handled⟩ := exists_word handled
  obtain ⟨number, fourth, fourth_eq, handled⟩ := exists_word handled
  obtain ⟨set, is_set, handled⟩ := exists_computed handled
  cases found : set.instruction? number with
  | none =>
      rw [found] at handled
      cases handled
  | some known =>
      rw [found] at handled
      obtain ⟨operands, fifth, fifth_eq, handled⟩ := exists_ids handled
      obtain ⟨computed, rfl⟩ := of_computed handled
      rw [first_eq, second_eq, third_eq, fourth_eq, fifth_eq]
      exact ⟨resultType, result, setId, number, set, known, operands, rfl, is_set, found,
        computed⟩

end Execution

open Execution OperandReader in
/-- A handler that succeeds and reads every operand carries out its plan. -/
theorem plan_of_handler {table : Table} {slots : Slots} {instruction : Instruction}
    {handler : ExecutionHandler} {effect : Effect} {cursor : Cursor}
    (registered : executionTable.get? instruction.opcode = some handler)
    (handled : handler table slots instruction instruction.cursor = .ok (effect, cursor))
    (at_end : cursor.isEmpty = true) :
    ∃ plan, table.plan? instruction = some plan ∧ plan.compute table slots = .ok effect := by
  obtain ⟨opcode, known, registered⟩ := Option.bind_eq_some_iff.mp registered
  have nothing_ahead : cursor.ahead = [] := List.isEmpty_iff.mp at_end
  -- There is one case for each handler; float operands end where the instruction does.
  cases opcode with
  | nop | line | noLine | functionParameter | returnVoid =>
      cases registered
      cases handled
      exact ⟨.nothing, by rw [Table.plan?.eq_def, known], rfl⟩
  | label =>
      cases registered
      obtain ⟨word, next, -, handled⟩ := exists_word handled
      cases handled
      exact ⟨.nothing, by rw [Table.plan?.eq_def, known], rfl⟩
  | variableDecl =>
      cases registered
      obtain ⟨type, id, word, storage, rest, operands_eq, is_storage, computed⟩ :=
        exists_variableDecl handled
      have operands_eq : instruction.operands = _ := operands_eq
      refine ⟨_, ?_, computed⟩
      rw [Table.plan?.eq_def, known, operands_eq]
      simp only [is_storage, Option.map_some]
  | load =>
      cases registered
      obtain ⟨resultType, result, pointer, rest, operands_eq, computed⟩ := exists_load handled
      have operands_eq : instruction.operands = _ := operands_eq
      exact ⟨_, by rw [Table.plan?.eq_def, known, operands_eq], computed⟩
  | store =>
      cases registered
      obtain ⟨pointer, object, rest, operands_eq, computed⟩ := exists_store handled
      have operands_eq : instruction.operands = _ := operands_eq
      exact ⟨_, by rw [Table.plan?.eq_def, known, operands_eq], computed⟩
  | compositeConstruct =>
      cases registered
      obtain ⟨resultType, result, constituents, operands_eq, computed⟩ :=
        exists_compositeConstruct handled
      have operands_eq : instruction.operands = _ := operands_eq
      exact ⟨_, by rw [Table.plan?.eq_def, known, operands_eq], computed⟩
  | compositeExtract =>
      cases registered
      obtain ⟨resultType, result, composite, indices, operands_eq, computed⟩ :=
        exists_compositeExtract handled
      have operands_eq : instruction.operands = _ := operands_eq
      exact ⟨_, by rw [Table.plan?.eq_def, known, operands_eq], computed⟩
  | fNegate | fAdd | fSub | fMul | fDiv | vectorTimesScalar | dot =>
      cases registered
      obtain ⟨resultType, result, operands, operands_eq, computed⟩ := exists_floats handled
      rw [nothing_ahead, List.append_nil] at operands_eq
      have operands_eq : instruction.operands = _ := operands_eq
      refine ⟨_, ?_, computed⟩
      rw [Table.plan?.eq_def, known, operands_eq]
      rfl
  | extInst =>
      cases registered
      obtain ⟨resultType, result, setId, number, set, found, operands, operands_eq, is_set,
        is_found, computed⟩ := exists_extInst handled
      rw [nothing_ahead, List.append_nil] at operands_eq
      have operands_eq : instruction.operands = _ := operands_eq
      refine ⟨_, ?_, computed⟩
      rw [Table.plan?.eq_def, known, operands_eq]
      simp only [is_set, is_found, Option.map_some]
  | _ => cases registered

/-! ## Plans depend on nothing but what they read -/

section

variable {table next : Table} {slots others : Slots}

/-- A plan yields the same effect from tables with the same types that show the same at what it
reads. -/
theorem Plan.follows_compute (plan : Plan) (types : table.TypesFollow next)
    (inputs : slots.inputs = others.inputs) (shows : ∀ id ∈ plan.reads, table.ShowsAt next id) :
    Follows (plan.compute table slots) (plan.compute next others) := by
  cases plan with
  | nothing => exact .refl _
  | declare type id storage initializer =>
      refine (follows_createVariable types type storage fun id mem => ?_).bind fun _ => .refl _
      exact shows id (Option.mem_toList.mpr mem)
  | load resultType result pointer =>
      refine (follows_loadBytes types inputs resultType ?_).bind fun bytes => ?_
      · exact shows pointer (List.mem_singleton_self pointer)
      · exact types.follows_finishValue result resultType (some bytes)
  | store pointer object =>
      refine (Table.ShowsAt.follows_value ?_).bind fun _ => .refl _
      exact shows object (List.mem_singleton_self object)
  | construct resultType result constituents =>
      refine (follows_foldComposite types resultType shows).bind fun bytes => ?_
      exact types.follows_finishValue result resultType (some bytes)
  | extract resultType result composite indices =>
      refine (follows_extractComposite types ?_ indices).bind fun bytes => ?_
      · exact shows composite (List.mem_singleton_self composite)
      · exact types.follows_finishValue result resultType (some bytes)
  | floats operation resultType result operands =>
      exact follows_evaluateFloats types operation resultType result shows

end

/-! ## Effects go where they were planned to -/

namespace Effect

/-- The ID that an effect gives a definition, or through which it stores. -/
def target? : Effect → Option Id
  | nothing => none
  | assign id _ => some id
  | store pointer _ _ => some pointer

/-- The ID through which an effect stores. -/
def pointer? : Effect → Option Id
  | store pointer _ _ => some pointer
  | _ => none

end Effect

section

variable {table : Table} {slots : Slots} {effect : Effect}

/-- A computed value is given to its result. -/
theorem finishValue_inv {result resultType : Id} {bytes : Option Bytes}
    (finished : finishValue table result resultType bytes = .ok effect) :
    ∃ value, effect = .assign result (.constant value) := by
  cases bytes with
  | none => cases finished
  | some bytes =>
      obtain ⟨size, -, finished⟩ := exists_of_bind finished
      split at finished
      · cases finished
        exact ⟨_, rfl⟩
      · cases finished

/-- A float computation gives its result a value. -/
theorem evaluateFloats_inv {operation : FloatOperation} {result resultType : Id}
    {operands : List Id}
    (evaluated : evaluateFloats table operation resultType result operands = .ok effect) :
    ∃ value, effect = .assign result (.constant value) := by
  obtain ⟨width, -, evaluated⟩ := exists_of_bind evaluated
  obtain ⟨values, -, evaluated⟩ := exists_of_bind evaluated
  obtain ⟨bytes, -, evaluated⟩ := exists_of_bind evaluated
  exact finishValue_inv evaluated

/-- The effect of a plan has its target and stores through its pointer. -/
theorem Plan.target?_of_compute {plan : Plan} (computed : plan.compute table slots = .ok effect) :
    effect.target? = plan.target? ∧ effect.pointer? = plan.pointer? := by
  -- All plans but those of variables and stores end in a computed value.
  cases plan with
  | nothing =>
      cases computed
      exact ⟨rfl, rfl⟩
  | declare type id storage initializer =>
      obtain ⟨contents, -, computed⟩ := exists_of_bind computed
      cases computed
      exact ⟨rfl, rfl⟩
  | store pointer object =>
      obtain ⟨value, -, computed⟩ := exists_of_bind computed
      cases computed
      exact ⟨rfl, rfl⟩
  | load | construct | extract =>
      obtain ⟨bytes, -, computed⟩ := exists_of_bind computed
      obtain ⟨value, rfl⟩ := finishValue_inv computed
      exact ⟨rfl, rfl⟩
  | floats =>
      obtain ⟨value, rfl⟩ := evaluateFloats_inv computed
      exact ⟨rfl, rfl⟩

end

end ShaderMachine
