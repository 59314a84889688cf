import Mathlib.Data.List.Pairwise
import ShaderMachine.Grammar.Operand
import ShaderMachine.Proofs.Plans

/-! # What instructions refer to

Which IDs an instruction defines, names, loads from, stores to and gives data, as its operands say,
whether or not it can be executed. What the handler of an executed instruction yields goes to the
IDs that the operands say.

* **`Instruction.result?`** and **`Instruction.idOperands`** — the ID that an instruction defines
  and those that it refers to.
* **`Instruction.loadsFrom?`**, **`Instruction.storesTo?`** and **`Instruction.assigns?`** — what it
  does when it is executed.
* **`Module.DistinctResults`** — no ID is the result of two instructions.
* **`effect_of_handler`** — effects go to the IDs that the operands say. -/

namespace ShaderMachine

/-! ## Results and operands -/

/-- The IDs among words that are operands of some kinds; a constant takes all words that are
left. -/
def OperandKind.idsOf : List OperandKind → List Word → List Id
  | [], _ => []
  | kind :: kinds, words =>
      match kind, words with
      | .resultType, word :: rest | .id, word :: rest => word :: idsOf kinds rest
      | .string, words => idsOf kinds ((readTerminated [] words).elim [] Prod.snd)
      | .constant, _ => []
      | _, _ :: rest => idsOf kinds rest
      | _, [] => []

/-- Words that are all IDs are among the IDs, if there are not too many. -/
theorem OperandKind.idsOf_replicate (count : Nat) (words : List Word) :
    idsOf (List.replicate count .id) words = words.take count := by
  induction count generalizing words with
  | zero => rfl
  | succ count hyp =>
      cases words with
      | nil => rfl
      | cons word words => rw [List.replicate_succ, idsOf, hyp, List.take_succ_cons]

/-- The kind of the data that an instruction gives its result when it is executed. -/
def Opcode.dataKind? : Opcode → Option DefinitionKind
  | variableDecl => some .var
  | load | compositeConstruct | compositeExtract | fNegate | fAdd | fSub | fMul | fDiv
  | vectorTimesScalar | dot | extInst => some .constant
  | _ => none

namespace Instruction

/-- The ID that an instruction defines. Nothing but the type of the result stands before it, which
takes one word. -/
def result? (instruction : Instruction) : Option Id := do
  let opcode ← Opcode.ofNumber? instruction.opcode
  let position ← opcode.layout.fixed.idxOf? .result
  instruction.operands[position]?

/-- The position of that ID among the operands. -/
def resultPlace? (instruction : Instruction) : Option Nat :=
  (Opcode.ofNumber? instruction.opcode).bind fun opcode => opcode.layout.fixed.idxOf? .result

/-- The instruction with another ID in its place. -/
def withResult (instruction : Instruction) (id : Id) : Instruction :=
  match instruction.resultPlace? with
  | some place => { instruction with operands := instruction.operands.modify place fun _ => id }
  | none => instruction

/-- An instruction that defines an ID has a position for it. -/
theorem exists_resultPlace {instruction : Instruction} {id : Id}
    (is_result : instruction.result? = some id) :
    ∃ place, instruction.resultPlace? = some place := by
  obtain ⟨opcode, known, is_result⟩ := Option.bind_eq_some_iff.mp is_result
  obtain ⟨place, placed, -⟩ := Option.bind_eq_some_iff.mp is_result
  exact ⟨place, by rw [resultPlace?, known]; exact placed⟩

/-- The IDs that an instruction refers to, that of the type of its result included. -/
def idOperands (instruction : Instruction) : List Id :=
  match Opcode.ofNumber? instruction.opcode with
  | none => []
  | some opcode =>
      let layout := opcode.layout
      OperandKind.idsOf (layout.fixed ++ layout.optional ++
        layout.variadic.elim [] (List.replicate instruction.operands.length)) instruction.operands

/-- The operand at a position of the instructions of one sort. -/
def operandOf? (opcode : Opcode) (position : Nat) (instruction : Instruction) : Option Id :=
  if Opcode.ofNumber? instruction.opcode = some opcode then instruction.operands[position]?
  else none

/-- The ID that an instruction loads from. -/
def loadsFrom? : Instruction → Option Id :=
  operandOf? .load 2

/-- The ID that an instruction stores to. -/
def storesTo? : Instruction → Option Id :=
  operandOf? .store 0

/-- The ID that an instruction gives data when it is executed, with the kind of the data. -/
def assigns? (instruction : Instruction) : Option (Id × DefinitionKind) := do
  let opcode ← Opcode.ofNumber? instruction.opcode
  let kind ← opcode.dataKind?
  let id ← instruction.operands[1]?
  return (id, kind)

variable {instruction : Instruction} {id : Id} {kind : DefinitionKind}

/-- The result of an instruction is its second operand if its sort says so. -/
theorem result?_eq_second {opcode : Opcode}
    (known : Opcode.ofNumber? instruction.opcode = some opcode)
    (second : opcode.layout.fixed.idxOf? .result = some 1) :
    instruction.result? = instruction.operands[1]? := by
  rw [result?, known, Option.bind_eq_bind, Option.bind_some, second]
  rfl

/-- What an instruction gives data is its result. -/
theorem result?_of_assigns? (assigns : instruction.assigns? = some (id, kind)) :
    instruction.result? = some id := by
  obtain ⟨opcode, known, assigns⟩ := Option.bind_eq_some_iff.mp assigns
  obtain ⟨kind, has_kind, assigns⟩ := Option.bind_eq_some_iff.mp assigns
  obtain ⟨id, at_one, assigns⟩ := Option.bind_eq_some_iff.mp assigns
  cases assigns
  have second : opcode.layout.fixed.idxOf? .result = some 1 := by
    cases opcode <;> first | rfl | cases has_kind
  rw [result?_eq_second known second]
  exact at_one

/-- What an instruction gives data, as its sort and its operands say. -/
theorem assigns?_of_operands {opcode : Opcode} {first : Word} {rest : List Word}
    (known : Opcode.ofNumber? instruction.opcode = some opcode)
    (operands_eq : instruction.operands = first :: id :: rest) :
    instruction.assigns? = opcode.dataKind?.map fun kind => (id, kind) := by
  rw [assigns?, known, operands_eq, Option.bind_eq_bind, Option.bind_some]
  cases opcode.dataKind? <;> rfl

/-- An instruction of a sort that yields no data gives no ID data. -/
theorem assigns?_of_dataKind? {opcode : Opcode}
    (known : Opcode.ofNumber? instruction.opcode = some opcode)
    (none_eq : opcode.dataKind? = none) :
    instruction.assigns? = none := by
  rw [assigns?, known, Option.bind_eq_bind, Option.bind_some, none_eq]
  rfl

/-- An instruction of another sort has no such operand. -/
theorem operandOf?_of_ne {opcode other : Opcode} {position : Nat}
    (known : Opcode.ofNumber? instruction.opcode = some opcode) (different : opcode ≠ other) :
    instruction.operandOf? other position = none := by
  rw [operandOf?, known, if_neg]
  exact fun same => different (Option.some.inj same)

/-- An instruction refers to what it stores to. -/
theorem mem_idOperands_of_storesTo? (stores : instruction.storesTo? = some id) :
    id ∈ instruction.idOperands := by
  rw [storesTo?, operandOf?] at stores
  split at stores
  · rename_i known
    obtain ⟨below, first_eq⟩ := List.getElem?_eq_some_iff.mp stores
    obtain ⟨first, rest, operands_eq⟩ := List.exists_cons_of_length_pos below
    simp only [operands_eq, List.getElem_cons_zero] at first_eq
    rw [idOperands, known, operands_eq, first_eq]
    exact List.mem_cons_self
  · cases stores

end Instruction

/-! ## Distinct results -/

/-- Whether no ID is the result of two instructions of a module. -/
def Module.DistinctResults (loaded : Module) : Prop :=
  (loaded.instructions.filterMap Instruction.result?).Nodup

/-- Whether the results are distinct can be computed. -/
instance Module.decidableDistinctResults (loaded : Module) : Decidable loaded.DistinctResults :=
  inferInstanceAs (Decidable (List.Nodup _))

namespace Module.DistinctResults

variable {loaded : Module} {first second : Instruction} {id : Id}

/-- Instructions with the same result are the same. -/
theorem eq_of_result? (distinct : loaded.DistinctResults) (mem : first ∈ loaded.instructions)
    (mem' : second ∈ loaded.instructions) (result : first.result? = some id)
    (result' : second.result? = some id) : first = second := by
  have apart := List.pairwise_filterMap.mp distinct
  refine List.Pairwise.forall_of_forall_of_flip (R := fun first second =>
      first.result? = some id → second.result? = some id → first = second)
    (fun _ _ _ _ => rfl) (apart.imp fun apart result result' => ?_)
    (apart.imp fun apart result result' => ?_) mem mem' result result'
  · exact absurd rfl (apart id result id result')
  · exact absurd rfl (apart id result' id result)

/-- No other instruction before or after one has its result. -/
theorem not_mem_results (distinct : loaded.DistinctResults) {before after : List Instruction}
    (instructions_eq : loaded.instructions = before ++ first :: after)
    (result : first.result? = some id) :
    (∀ other ∈ before, other.result? ≠ some id) ∧ ∀ other ∈ after, other.result? ≠ some id := by
  have pairs := List.pairwise_filterMap.mp distinct
  rw [instructions_eq, List.pairwise_append, List.pairwise_cons] at pairs
  obtain ⟨-, ⟨late, -⟩, early⟩ := pairs
  constructor
  · intro other mem result'
    exact early other mem first List.mem_cons_self id result' id result rfl
  · intro other mem result'
    exact late other mem id result id result' rfl

end Module.DistinctResults

/-! ## Where effects go -/

/-- The ID that an effect gives data, with the kind of the data. -/
def Effect.assigned? : Effect → Option (Id × DefinitionKind)
  | assign id definition => some (id, definition.kind)
  | _ => none

/-- An effect goes to the ID that it gives data. -/
theorem Effect.target?_of_assigned? {effect : Effect} {id : Id} {kind : DefinitionKind}
    (assigned : effect.assigned? = some (id, kind)) : effect.target? = some id := by
  cases effect with
  | assign given definition =>
      cases assigned
      rfl
  | _ => cases assigned

/-- The ID that a plan gives data, with the kind of the data. -/
def Plan.given? : Plan → Option (Id × DefinitionKind)
  | nothing | store _ _ => none
  | declare _ id _ _ => some (id, .var)
  | load _ result _ | construct _ result _ | extract _ result _ _ | floats _ _ result _ =>
      some (result, .constant)

section

variable {table : Table} {slots : Slots} {instruction : Instruction} {effect : Effect}

/-- The effect of a plan gives data to the ID of the plan. -/
theorem Plan.given?_of_compute {plan : Plan} (computed : plan.compute table slots = .ok effect) :
    effect.assigned? = plan.given? := by
  cases plan with
  | nothing =>
      cases computed
      rfl
  | declare type id storage initializer =>
      obtain ⟨contents, -, computed⟩ := exists_of_bind computed
      cases computed
      rfl
  | store pointer object =>
      obtain ⟨value, -, computed⟩ := exists_of_bind computed
      cases computed
      rfl
  | load | construct | extract =>
      obtain ⟨bytes, -, computed⟩ := exists_of_bind computed
      obtain ⟨value, rfl⟩ := finishValue_inv computed
      rfl
  | floats =>
      obtain ⟨value, rfl⟩ := evaluateFloats_inv computed
      rfl

/-- An effect goes where its plan says, which gives data to the second operand of an
instruction. -/
theorem effect_of_plan {opcode : Opcode} {plan : Plan} {first id : Word} {rest : List Word}
    (known : Opcode.ofNumber? instruction.opcode = some opcode) (no_store : opcode ≠ .store)
    (operands_eq : instruction.operands = first :: id :: rest)
    (given : plan.given? = opcode.dataKind?.map fun kind => (id, kind))
    (no_pointer : plan.pointer? = none)
    (computed : plan.compute table slots = .ok effect) :
    effect.assigned? = instruction.assigns? ∧ effect.pointer? = instruction.storesTo? := by
  refine ⟨?_, ?_⟩
  · rw [Plan.given?_of_compute computed, Instruction.assigns?_of_operands known operands_eq, given]
  · rw [(Plan.target?_of_compute computed).2, no_pointer, Instruction.storesTo?,
      Instruction.operandOf?_of_ne known no_store]

open Execution OperandReader in
/-- The effect of a handler that succeeds goes to the IDs that the operands say. -/
theorem effect_of_handler {handler : ExecutionHandler} {cursor : Cursor}
    (registered : executionTable.get? instruction.opcode = some handler)
    (handled : handler table slots instruction instruction.cursor = .ok (effect, cursor)) :
    effect.assigned? = instruction.assigns? ∧ effect.pointer? = instruction.storesTo? := by
  obtain ⟨opcode, known, registered⟩ := Option.bind_eq_some_iff.mp registered
  -- The plans of instructions say what they assign and store; these handlers follow them.
  cases opcode with
  | nop | line | noLine | functionParameter | returnVoid =>
      cases registered
      cases handled
      exact ⟨(Instruction.assigns?_of_dataKind? known rfl).symm,
        (Instruction.operandOf?_of_ne known (by decide)).symm⟩
  | label =>
      cases registered
      obtain ⟨word, next, -, handled⟩ := exists_word handled
      cases handled
      exact ⟨(Instruction.assigns?_of_dataKind? known rfl).symm,
        (Instruction.operandOf?_of_ne known (by decide)).symm⟩
  | variableDecl =>
      cases registered
      obtain ⟨type, id, word, storage, rest, operands_eq, -, computed⟩ :=
        exists_variableDecl handled
      exact effect_of_plan known (by decide) operands_eq rfl rfl computed
  | load =>
      cases registered
      obtain ⟨resultType, result, pointer, rest, operands_eq, computed⟩ := exists_load handled
      exact effect_of_plan known (by decide) operands_eq rfl rfl computed
  | store =>
      cases registered
      obtain ⟨pointer, object, rest, operands_eq, computed⟩ := exists_store handled
      have operands_eq : instruction.operands = _ := operands_eq
      refine ⟨?_, ?_⟩
      · rw [Plan.given?_of_compute computed, Instruction.assigns?_of_dataKind? known rfl]
        rfl
      · rw [(Plan.target?_of_compute computed).2, Instruction.storesTo?, Instruction.operandOf?,
          if_pos known, operands_eq]
        rfl
  | compositeConstruct =>
      cases registered
      obtain ⟨resultType, result, constituents, operands_eq, computed⟩ :=
        exists_compositeConstruct handled
      exact effect_of_plan known (by decide) operands_eq rfl rfl computed
  | compositeExtract =>
      cases registered
      obtain ⟨resultType, result, composite, indices, operands_eq, computed⟩ :=
        exists_compositeExtract handled
      exact effect_of_plan known (by decide) operands_eq rfl rfl computed
  | fNegate | fAdd | fSub | fMul | fDiv | vectorTimesScalar | dot =>
      cases registered
      obtain ⟨resultType, result, operands, operands_eq, computed⟩ := exists_floats handled
      exact effect_of_plan known (by decide) operands_eq rfl rfl computed
  | extInst =>
      cases registered
      obtain ⟨resultType, result, setId, number, set, found, operands, operands_eq, -, -,
        computed⟩ := exists_extInst handled
      exact effect_of_plan known (by decide) operands_eq rfl rfl computed
  | _ => cases registered

end

end ShaderMachine
