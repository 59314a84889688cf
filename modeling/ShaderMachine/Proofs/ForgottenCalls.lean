import ShaderMachine.Proofs.SharedEffects

/-! # Calls that do not observe earlier ones

A call leaves values and variables behind. It makes no difference to a function that refers to
nothing but what the module declares and what its own body has computed before, and that loads from
nothing but inputs, its own variables and variables that are never stored to: calling it has the
same result and the same outputs as on a fresh machine.

* **`Machine.SelfContained`** — what a function refers to is declared or computed before.
* **`Machine.PointsToSettled`** — what the pointer types of its variables point to is not computed
  elsewhere.
* **`Machine.Together`** — two machines that execute the same body side by side.
* **`Machine.Reachable.call_forgets`** — a call of such a function observes no earlier ones. -/

namespace ShaderMachine

/-! ## Self-contained functions -/

/-- Whether an ID stands for something or is the result of one of the given instructions. -/
def Table.Knows (table : Table) (before : List Instruction) (id : Id) : Prop :=
  (table.defined id).isOk = true ∨ ∃ instruction ∈ before, instruction.result? = some id

namespace Machine

/-- Whether the variable behind a pointer is created by one of the given instructions, or lies
outside of all functions and either is an input or is stored to by none of them. -/
def Steady (machine : Machine) (before : List Instruction) (pointer : Id) : Prop :=
  (∃ instruction ∈ before, instruction.assigns? = some (pointer, .var)) ∨
    ∃ contents, machine.table.variableAt pointer = .ok contents ∧
      (contents.storage = .input ∨ ¬ machine.Stores pointer)

/-- Whether every instruction of the body of a function refers to IDs alone that stand for something
from the start or are results of the instructions before it, and loads from steady variables. -/
structure SelfContained (machine : Machine) (id : Id) : Prop where
  /-- What an instruction refers to is known before it. -/
  operands : ∀ before instruction after, machine.bodyOf id = before ++ instruction :: after →
    ∀ operand ∈ instruction.idOperands, machine.table.Knows before operand
  /-- What an instruction loads from is steady. -/
  loads : ∀ before instruction after, machine.bodyOf id = before ++ instruction :: after →
    ∀ pointer ∈ instruction.loadsFrom?, machine.Steady before pointer

/-- Whether what the pointer types of a function's variables point to stands for something from the
start, is the result of an instruction before, or is the result of no function body at all. -/
def PointsToSettled (machine : Machine) (id : Id) : Prop :=
  ∀ before instruction after, machine.bodyOf id = before ++ instruction :: after →
    ∀ pointee ∈ machine.table.pointee? instruction,
      machine.table.Knows before pointee ∨ ¬ machine.Computes pointee

/-! ## Checks -/

section

variable {machine : Machine} {id : Id} {check : List Instruction → Instruction → Bool}

/-- Whether each instruction passes a check that is told the instructions before it. -/
def passes (check : List Instruction → Instruction → Bool) (before : List Instruction) :
    List Instruction → Bool
  | [] => true
  | instruction :: rest =>
      check before instruction && passes check (before ++ [instruction]) rest

/-- Where all instructions pass a check, each of them does. -/
theorem check_of_passes {before instructions middle after : List Instruction}
    {instruction : Instruction} (passed : passes check before instructions = true)
    (instructions_eq : instructions = middle ++ instruction :: after) :
    check (before ++ middle) instruction = true := by
  induction middle generalizing before instructions with
  | nil =>
      rw [instructions_eq, List.nil_append, passes, Bool.and_eq_true] at passed
      rw [List.append_nil]
      exact passed.1
  | cons head middle hyp =>
      rw [instructions_eq, List.cons_append, passes, Bool.and_eq_true] at passed
      have checked := hyp passed.2 rfl
      rwa [List.append_assoc, List.singleton_append] at checked

/-- Whether an ID is known can be computed. -/
instance decidableKnows (table : Table) (before : List Instruction) (id : Id) :
    Decidable (table.Knows before id) :=
  inferInstanceAs (Decidable (_ ∨ _))

/-- Whether a variable is seen to be steady: it is created before, or it is an input, or no
instruction of the whole module stores to it. -/
def seemsSteady (machine : Machine) (before : List Instruction) (pointer : Id) : Bool :=
  before.any (fun instruction => instruction.assigns? = some (pointer, .var)) ||
    (machine.table.variableAt pointer).toOption.any fun contents =>
      contents.storage = .input ||
        machine.loaded.instructions.all fun instruction => instruction.storesTo? ≠ some pointer

/-- Whether a function is seen to be self-contained. -/
def seemsContained (machine : Machine) (id : Id) : Bool :=
  passes (fun before instruction =>
    instruction.idOperands.all (fun operand => machine.table.Knows before operand) &&
      instruction.loadsFrom?.all (machine.seemsSteady before)) [] (machine.bodyOf id)

/-- Whether the pointer types of a function's variables are seen to point to what is known. -/
def seemsPointed (machine : Machine) (id : Id) : Bool :=
  passes (fun before instruction => (machine.table.pointee? instruction).all fun pointee =>
    machine.table.Knows before pointee) [] (machine.bodyOf id)

/-- The instructions of function bodies are ones of the module. -/
theorem InBody.mem_instructions {instruction : Instruction} (within : machine.InBody instruction) :
    instruction ∈ machine.loaded.instructions := by
  obtain ⟨id, mem⟩ := within
  unfold bodyOf at mem
  split at mem
  · exact mem_instructions_of_mem_body mem
  · cases mem

/-- What is seen to be steady is. -/
theorem steady_of_seemsSteady {before : List Instruction} {pointer : Id}
    (seems : machine.seemsSteady before pointer = true) : machine.Steady before pointer := by
  rw [seemsSteady, Bool.or_eq_true] at seems
  rcases seems with created | evaluated
  · obtain ⟨instruction, mem, creates⟩ := List.any_eq_true.mp created
    exact Or.inl ⟨instruction, mem, of_decide_eq_true creates⟩
  · obtain ⟨contents, is_variable, kept⟩ := exists_of_any evaluated
    refine Or.inr ⟨contents, is_variable, ?_⟩
    rw [Bool.or_eq_true] at kept
    refine kept.imp of_decide_eq_true fun never => ?_
    rintro ⟨instruction, within, stores⟩
    exact of_decide_eq_true (List.all_eq_true.mp never instruction within.mem_instructions) stores

/-- A function that is seen to be self-contained is. -/
theorem selfContained_of_seemsContained (seems : machine.seemsContained id = true) :
    machine.SelfContained id := by
  constructor
  · intro before instruction after body_eq operand mem
    have checked := check_of_passes seems body_eq
    rw [Bool.and_eq_true] at checked
    exact of_decide_eq_true (List.all_eq_true.mp checked.1 operand mem)
  · intro before instruction after body_eq pointer mem
    have checked := check_of_passes seems body_eq
    rw [Bool.and_eq_true] at checked
    exact steady_of_seemsSteady ((Option.all_eq_true _ _).mp checked.2 pointer mem)

/-- What is seen to be known is settled. -/
theorem pointsToSettled_of_seemsPointed (seems : machine.seemsPointed id = true) :
    machine.PointsToSettled id := by
  intro before instruction after body_eq pointee mem
  have checked := check_of_passes seems body_eq
  exact Or.inl (of_decide_eq_true ((Option.all_eq_true _ _).mp checked pointee mem))

end

/-! ## Steps and runs side by side -/

/-- Whether two machines that came from the same one agree on all results of the instructions that
they have both executed. -/
structure Together (start : Machine) (before : List Instruction) (first second : Machine) :
    Prop where
  /-- The first machine came from the common one. -/
  evolves : start.Evolves first
  /-- So did the second one. -/
  evolves' : start.Evolves second
  /-- The first table is laid out. -/
  layout : first.table.Layout
  /-- So is the second one. -/
  layout' : second.table.Layout
  /-- The interfaces hold the same. -/
  slots : first.slots = second.slots
  /-- The instructions are from function bodies. -/
  within : ∀ instruction ∈ before, start.InBody instruction
  /-- What they have given data is the same on both machines. -/
  settled : ∀ instruction ∈ before, start.table.skips instruction = false → ∀ id kind,
    instruction.assigns? = some (id, kind) → first.table.get id = second.table.get id

/-- An instruction with a handler ends as its handler does, unless a fault is passed over. -/
theorem result_step {configuration : Configuration} {machine : Machine} {instruction : Instruction}
    {handler : ExecutionHandler}
    (registered : executionTable.get? instruction.opcode = some handler) :
    (machine.step configuration instruction).result =
      match (machine.handle instruction handler).result with
      | .ok () => .ok false
      | .error error =>
          if error.isFatal || configuration.strict then .error error else .ok true := by
  have ends := machine.stepEnds configuration instruction
  generalize machine.step configuration instruction = outcome at ends ⊢
  cases ends with
  | unsupported missing strict | passed missing lenient => cases registered.symm.trans missing
  | executed registered' handled =>
      cases registered.symm.trans registered'
      rw [handled]
  | failed registered' handled fatal =>
      cases registered.symm.trans registered'
      rw [handled]
      simp only [Bool.or_eq_true_iff.mpr fatal, if_true]
  | skipped registered' handled harmless lenient =>
      cases registered.symm.trans registered'
      rw [handled]
      simp only [harmless, lenient, Bool.or_self, Bool.false_eq_true, if_false]

/-- A handler ends in a fault, or as its effect does, and then in a fault if operands are left. -/
theorem result_handle {machine : Machine} {instruction : Instruction} {handler : ExecutionHandler} :
    (machine.handle instruction handler).result =
      match handler machine.table machine.slots instruction instruction.cursor with
      | .error error => .error error
      | .ok (effect, cursor) =>
          match (machine.commit effect).result with
          | .error error => .error error
          | .ok () =>
              if cursor.isEmpty then .ok ()
              else .error (.binary (instruction.malformed (.unreadOperands cursor.remaining))) := by
  have ends := machine.handleEnds instruction handler
  generalize machine.handle instruction handler = outcome at ends ⊢
  cases ends with
  | failed failed => rw [failed]
  | refused yielded committed => simp only [yielded, committed]
  | leftOver yielded committed left_over =>
      simp only [yielded, committed, left_over, Bool.false_eq_true, if_false]
  | done yielded committed at_end => simp only [yielded, committed, at_end, if_true]

namespace Together

variable {configuration : Configuration} {start first second mid mid' : Machine}
  {before : List Instruction} {instruction : Instruction} {id : Id} {skipped skipped' : Bool}

/-- Machines that came from the same one are alike. -/
theorem alike (together : Together start before first second) : first.table.Alike second.table :=
  together.evolves.alike.symm.trans together.evolves'.alike

/-- Both machines share what stands for something from the start or is never given data. -/
theorem shares_of_settled (together : Together start before first second)
    (settled : (start.table.defined id).isOk = true ∨ ∀ kind, ¬ start.Assigns id kind) :
    first.table.Shares second.table id :=
  (together.evolves.shares settled).symm.trans (together.evolves'.shares settled)

/-- Both machines share what is known. -/
theorem shares (together : Together start before first second) (bodies : start.DistinctBodies)
    (knows : start.table.Knows before id) : first.table.Shares second.table id := by
  rcases knows with is_defined | ⟨instruction, mem, result⟩
  · exact together.shares_of_settled (Or.inl is_defined)
  · by_cases given : ∃ kind, start.Assigns id kind
    · obtain ⟨kind, other, within, skips, assigns⟩ := given
      obtain rfl : instruction = other := bodies.unique (together.within instruction mem) within
        result (Instruction.result?_of_assigns? assigns)
      exact .of_eq (together.settled instruction mem skips id kind assigns)
    · exact together.shares_of_settled (Or.inr fun kind assigns => given ⟨kind, assigns⟩)

/-- An instruction that creates a variable is never skipped. -/
theorem skips_of_assigns_var {table : Table} (assigns : instruction.assigns? = some (id, .var)) :
    table.skips instruction = false := by
  obtain ⟨opcode, known, assigns⟩ := Option.bind_eq_some_iff.mp assigns
  obtain ⟨kind, has_kind, assigns⟩ := Option.bind_eq_some_iff.mp assigns
  obtain ⟨id, -, assigns⟩ := Option.bind_eq_some_iff.mp assigns
  cases assigns
  obtain rfl : opcode = .variableDecl := by cases opcode <;> first | rfl | cases has_kind
  have registered : executionTable.get? instruction.opcode = some Execution.variableDecl :=
    Dispatch.get?_of_known _ known
  refine table.skips_of_plain registered ?_
  rw [known]
  simp

/-- Both machines show the same to an instruction of a self-contained body. -/
theorem showsSame (together : Together start before first second) (bodies : start.DistinctBodies)
    (operands : ∀ operand ∈ instruction.idOperands, start.table.Knows before operand)
    (loads : ∀ pointer ∈ instruction.loadsFrom?, start.Steady before pointer)
    (pointees : ∀ pointee ∈ start.table.pointee? instruction,
      start.table.Knows before pointee ∨ ¬ start.Computes pointee) :
    first.table.ShowsSame second.table instruction := by
  refine ⟨fun id mem => together.shares bodies (operands id mem), fun pointer mem => ?_,
    fun pointee mem => ?_⟩
  · rcases loads pointer mem with
      ⟨creating, mem, creates⟩ | ⟨contents, is_variable, is_input | kept⟩
    · exact Or.inl (together.settled creating mem (skips_of_assigns_var creates) pointer _ creates)
    · exact Or.inr (together.evolves.exists_input is_variable is_input)
    · left
      rw [together.evolves.get_eq is_variable kept, together.evolves'.get_eq is_variable kept]
  · rcases pointees pointee (together.evolves.alike.symm.pointee? mem) with knows | never
    · exact together.shares bodies knows
    · exact together.shares_of_settled (Or.inr fun kind assigns => never assigns.computes)

/-- Both machines carry out the effect of an instruction with the same result. -/
theorem result_commit_eq (together : Together start before first second)
    (bodies : start.DistinctBodies) (within : start.InBody instruction)
    (operands : ∀ operand ∈ instruction.idOperands, start.table.Knows before operand)
    (skips : start.table.skips instruction = false) {effect : Effect}
    (assigned : effect.assigned? = instruction.assigns?)
    (stored : effect.pointer? = instruction.storesTo?) :
    (first.commit effect).result = (second.commit effect).result := by
  cases effect with
  | nothing => rfl
  | assign id definition =>
      exact result_assign_eq bodies together.evolves together.evolves'
        ⟨instruction, within, skips, assigned.symm⟩
  | store pointer object bytes =>
      have refers := Instruction.mem_idOperands_of_storesTo? stored.symm
      exact result_store_eq together.alike together.layout together.layout' together.slots
        (together.shares bodies (operands pointer refers)) object bytes

/-- Both machines execute an instruction with the same result. -/
theorem result_step_eq (together : Together start before first second)
    (bodies : start.DistinctBodies) (within : start.InBody instruction)
    (operands : ∀ operand ∈ instruction.idOperands, start.table.Knows before operand)
    (same : first.table.ShowsSame second.table instruction) :
    (first.step configuration instruction).result =
      (second.step configuration instruction).result := by
  cases registered : executionTable.get? instruction.opcode with
  | none =>
      rw [step, step, registered]
      simp only
      split <;> rfl
  | some handler =>
      have handler_eq := same.handler_eq together.alike together.layout
        (congrArg Slots.inputs together.slots) registered
      rw [result_step registered, result_step registered, result_handle, result_handle,
        ← handler_eq]
      cases yielded : handler first.table first.slots instruction instruction.cursor with
      | error error => rfl
      | ok answer =>
          obtain ⟨effect, cursor⟩ := answer
          obtain ⟨assigned, stored⟩ := effect_of_handler registered yielded
          have skips := (handler_skips first.table first.slots registered).value yielded
          rw [← together.evolves.alike.skips_eq] at skips
          simp only [together.result_commit_eq bodies within operands skips assigned stored]

/-- Both machines pass over an instruction, or they carry out the same effect. -/
theorem exists_effect (together : Together start before first second)
    (same : first.table.ShowsSame second.table instruction)
    (stepped : first.step configuration instruction = ⟨mid, .ok skipped⟩)
    (stepped' : second.step configuration instruction = ⟨mid', .ok skipped'⟩) :
    start.table.skips instruction = true ∧ mid = first ∧ mid' = second ∨
      ∃ effect, effect.assigned? = instruction.assigns? ∧
        effect.pointer? = instruction.storesTo? ∧ first.commit effect = ⟨mid, .ok ()⟩ ∧
        second.commit effect = ⟨mid', .ok ()⟩ := by
  have skips_eq := together.evolves.alike.skips_eq instruction
  have skips_eq' := together.evolves'.alike.skips_eq instruction
  rcases yields_of_step stepped with ⟨skips, rfl⟩ |
    ⟨skips, handler, effect, cursor, registered, yielded, -, committed⟩
  · rcases yields_of_step stepped' with ⟨-, rfl⟩ | ⟨skips', -⟩
    · exact Or.inl ⟨skips_eq.trans skips, rfl, rfl⟩
    · rw [← skips_eq', skips_eq, skips] at skips'
      cases skips'
  · rcases yields_of_step stepped' with ⟨skips', -⟩ |
      ⟨-, handler', effect', cursor', registered', yielded', -, committed'⟩
    · rw [← skips_eq', skips_eq, skips] at skips'
      cases skips'
    · -- The handler yields the same on both machines.
      cases registered.symm.trans registered'
      rw [← same.handler_eq together.alike together.layout (congrArg Slots.inputs together.slots)
        registered, yielded] at yielded'
      cases yielded'
      obtain ⟨assigned, stored⟩ := effect_of_handler registered yielded
      exact Or.inr ⟨effect, assigned, stored, committed, committed'⟩

/-- What both machines agree on before they carry out an effect they agree on afterwards. -/
theorem get_eq_of_commit {effect : Effect} (committed : first.commit effect = ⟨mid, .ok ()⟩)
    (committed' : second.commit effect = ⟨mid', .ok ()⟩)
    (written : ∀ id, effect.target? = some id → mid.table.get id = mid'.table.get id)
    (same : first.table.get id = second.table.get id) : mid.table.get id = mid'.table.get id := by
  by_cases target : effect.target? = some id
  · exact written id target
  · have kept := first.get_commit_of_ne target
    have kept' := second.get_commit_of_ne target
    rw [committed] at kept
    rw [committed'] at kept'
    exact kept.trans (same.trans kept'.symm)

/-- Both machines agree on the results of one more instruction once they have executed it. -/
theorem step (together : Together start before first second) (bodies : start.DistinctBodies)
    (within : start.InBody instruction)
    (operands : ∀ operand ∈ instruction.idOperands, start.table.Knows before operand)
    (same : first.table.ShowsSame second.table instruction)
    (stepped : first.step configuration instruction = ⟨mid, .ok skipped⟩)
    (stepped' : second.step configuration instruction = ⟨mid', .ok skipped'⟩) :
    Together start (before ++ [instruction]) mid mid' := by
  -- Both machines go on evolving from the first one.
  have evolves : start.Evolves (first.step configuration instruction).machine :=
    together.evolves.step bodies.no_data within
  have evolves' : start.Evolves (second.step configuration instruction).machine :=
    together.evolves'.step bodies.no_data within
  have layout := (step_change configuration first instruction).1.layout together.layout
  have layout' := (step_change configuration second instruction).1.layout together.layout'
  rw [stepped] at evolves layout
  rw [stepped'] at evolves' layout'
  have within' : ∀ other ∈ before ++ [instruction], start.InBody other := by
    rw [List.forall_mem_append, List.forall_mem_singleton]
    exact ⟨together.within, within⟩
  rcases together.exists_effect same stepped stepped' with
    ⟨skips, rfl, rfl⟩ | ⟨effect, assigned, stored, committed, committed'⟩
  · -- A skipped instruction changes nothing, and there is nothing to agree on.
    refine ⟨evolves, evolves', layout, layout', together.slots, within', ?_⟩
    rw [List.forall_mem_append, List.forall_mem_singleton]
    refine ⟨together.settled, fun executed => ?_⟩
    rw [skips] at executed
    cases executed
  · -- An executed instruction has the same effect on both.
    have stored_shared : ∀ id ∈ effect.pointer?, first.table.Shares second.table id :=
      fun id mem => together.shares bodies
        (operands id (Instruction.mem_idOperands_of_storesTo? (stored.symm.trans mem)))
    obtain ⟨slots_eq, written⟩ :=
      commit_agree together.alike together.slots stored_shared committed committed'
    refine ⟨evolves, evolves', layout, layout', slots_eq, within', ?_⟩
    rw [List.forall_mem_append, List.forall_mem_singleton]
    refine ⟨fun other mem executed id kind assigns => ?_, fun _ id kind assigns => ?_⟩
    · exact get_eq_of_commit committed committed' written
        (together.settled other mem executed id kind assigns)
    · exact written id (Effect.target?_of_assigned? (assigned.trans assigns))

/-- Both machines run over a body with the same result and, if they complete it, the same data at
the interface. -/
theorem run (together : Together start before first second) (bodies : start.DistinctBodies)
    {instructions : List Instruction} {id : Id} (body_eq : start.bodyOf id = before ++ instructions)
    (contained : start.SelfContained id) (pointees : start.PointsToSettled id)
    (executed unsupported : Nat) :
    (first.run configuration executed unsupported instructions).result =
        (second.run configuration executed unsupported instructions).result ∧
      ∀ answer, (first.run configuration executed unsupported instructions).result = .ok answer →
        (first.run configuration executed unsupported instructions).machine.slots =
          (second.run configuration executed unsupported instructions).machine.slots := by
  -- The instructions executed so far move to those before, of which both machines agree.
  induction instructions generalizing before first second executed unsupported with
  | nil => exact ⟨rfl, fun _ _ => together.slots⟩
  | cons instruction instructions hyp =>
      have within : start.InBody instruction := by
        refine ⟨id, ?_⟩
        rw [body_eq]
        simp
      have operands := contained.operands before instruction instructions body_eq
      have same := together.showsSame bodies operands
        (contained.loads before instruction instructions body_eq)
        (pointees before instruction instructions body_eq)
      have result_eq : (first.step configuration instruction).result =
          (second.step configuration instruction).result :=
        together.result_step_eq bodies within operands same
      unfold Machine.run
      split
      · exact ⟨rfl, fun _ _ => together.slots⟩
      · cases stepped : (first.step configuration instruction).result with
        | error error =>
            rw [Outcome.eq_of_result stepped, Outcome.eq_of_result (result_eq.symm.trans stepped)]
            exact ⟨rfl, fun answer impossible => by cases impossible⟩
        | ok skipped =>
            have stepped' := result_eq.symm.trans stepped
            rw [Outcome.eq_of_result stepped, Outcome.eq_of_result stepped']
            refine hyp (together.step bodies within operands same (Outcome.eq_of_result stepped)
              (Outcome.eq_of_result stepped')) ?_ _ _
            rw [body_eq, List.append_assoc, List.singleton_append]

end Together

/-- A call that completes leaves the interface as running the body does. -/
theorem slots_of_call {machine : Machine} {configuration : Configuration} {id : Id}
    {start stop : Nat} {summary : Summary} (bounds : machine.bodyBounds id = .ok (start, stop))
    (completed : (machine.call configuration id).result = .ok summary) :
    (machine.call configuration id).machine.slots =
      ((machine.withOutputs Slots.noOutputs).run configuration 0 0
        (machine.body start stop)).machine.slots := by
  have ends := machine.callEnds configuration id
  generalize machine.call configuration id = outcome at ends completed ⊢
  cases ends with
  | unbound unbound => cases completed
  | completed bounds' ran =>
      cases bounds.symm.trans bounds'
      rw [ran]
  | failed bounds' ran => cases completed

/-- A call of a self-contained function does not observe earlier calls: whatever was called before,
it has the result that it has on a fresh machine with the same inputs and, if it completes, writes
the same outputs. There is always such a fresh machine. -/
theorem Reachable.call_forgets {words : List Word} {loaded : Module} {configuration : Configuration}
    {start machine : Machine} {id : Id} (loads : Module.ofWords words = .ok loaded)
    (distinct : loaded.DistinctResults) (set_up : ofModule configuration loaded = .ok start)
    (contained : start.SelfContained id) (pointees : start.PointsToSettled id)
    (reachable : Reachable loaded machine) :
    (∃ fresh, Prepared loaded fresh ∧ fresh.slots.inputs = machine.slots.inputs) ∧
      ∀ fresh, Prepared loaded fresh → fresh.slots.inputs = machine.slots.inputs →
        ∀ limits, (machine.call limits id).result = (fresh.call limits id).result ∧
          ∀ summary, (machine.call limits id).result = .ok summary →
            (machine.call limits id).machine.slots = (fresh.call limits id).machine.slots := by
  refine ⟨reachable.exists_prepared, fun fresh prepared inputs limits => ?_⟩
  have first : Prepared loaded start := .setUp set_up
  have bodies := first.distinctBodies loads distinct
  have evolves := reachable.evolves loads distinct first
  have evolves' := prepared.reachable.evolves loads distinct first
  -- All three machines find the same body, or fail to find it the same.
  have bounds_eq := evolves.alike.bodyBounds_eq id
  have bounds_eq' := evolves'.alike.bodyBounds_eq id
  cases bounds : start.bodyBounds id with
  | error error =>
      rw [Machine.call, Machine.call, ← bounds_eq, ← bounds_eq', bounds]
      exact ⟨rfl, fun summary impossible => by cases impossible⟩
  | ok span =>
      obtain ⟨first_index, stop⟩ := span
      rw [bounds] at bounds_eq bounds_eq'
      have body_eq : start.bodyOf id = [] ++ machine.body first_index stop := by
        simp only [bodyOf, bounds, Machine.body, evolves.loaded, List.nil_append]
      have body_eq' : fresh.body first_index stop = machine.body first_index stop := by
        rw [Machine.body, Machine.body, evolves.loaded, evolves'.loaded]
      have together : Together start [] (machine.withOutputs Slots.noOutputs)
          (fresh.withOutputs Slots.noOutputs) := by
        refine ⟨evolves.of_eq rfl rfl, evolves'.of_eq rfl rfl, reachable.table_layout,
          prepared.reachable.table_layout, ?_, List.forall_mem_nil _, List.forall_mem_nil _⟩
        simp only [withOutputs, inputs]
      obtain ⟨result_eq, slots_eq⟩ := together.run bodies body_eq
        contained pointees 0 0
      have same : (machine.call limits id).result = (fresh.call limits id).result := by
        rw [call_result bounds_eq.symm, call_result bounds_eq'.symm, body_eq', result_eq]
      refine ⟨same, fun summary completed => ?_⟩
      rw [slots_of_call bounds_eq.symm completed,
        slots_of_call bounds_eq'.symm (same.symm.trans completed), body_eq']
      rw [call_result bounds_eq.symm] at completed
      obtain ⟨answer, ran, -⟩ := exists_of_map completed
      exact slots_eq answer ran

/-- A module whose function `1` adds a bias to its input, by way of a variable of its own, and whose
function `20` sets a flag. Nothing stores to the bias. -/
def biased : Module where
  header := .ofBound 22 0
  instructions := [⟨5, 15, [4, 1, 102, 2, 3]⟩, ⟨11, 71, [2, 30, 0]⟩, ⟨15, 71, [3, 30, 0]⟩,
    ⟨19, 19, [4]⟩, ⟨21, 33, [5, 4]⟩, ⟨24, 22, [6, 32]⟩, ⟨27, 32, [7, 1, 6]⟩, ⟨31, 32, [8, 3, 6]⟩,
    ⟨35, 32, [9, 7, 6]⟩, ⟨39, 32, [10, 6, 6]⟩, ⟨43, 43, [6, 11, 0x3F800000]⟩, ⟨47, 59, [7, 2, 1]⟩,
    ⟨51, 59, [8, 3, 3]⟩, ⟨55, 59, [10, 12, 6, 11]⟩, ⟨60, 59, [10, 13, 6]⟩,
    ⟨64, 54, [4, 1, 0, 5]⟩, ⟨69, 248, [14]⟩, ⟨71, 59, [9, 15, 7]⟩, ⟨75, 61, [6, 16, 2]⟩,
    ⟨79, 61, [6, 17, 12]⟩, ⟨83, 129, [6, 18, 16, 17]⟩, ⟨88, 62, [15, 18]⟩, ⟨91, 61, [6, 19, 15]⟩,
    ⟨95, 62, [3, 19]⟩, ⟨98, 253, []⟩, ⟨99, 56, []⟩, ⟨100, 54, [4, 20, 0, 5]⟩, ⟨105, 248, [21]⟩,
    ⟨107, 62, [13, 11]⟩, ⟨110, 253, []⟩, ⟨111, 56, []⟩]
  metadata := {}
  instructionCount := 31

/-- The function of a module with a bias and a flag writes the same outputs whether the flag has
been set or not. -/
theorem call_forgets_biased : ∃ start bound, ofModule {} biased = .ok start ∧
    start.bind 0 [0, 0, 0x80, 0x3F] = .ok bound ∧ start.SelfContained 1 ∧
    start.PointsToSettled 1 ∧
    let later := (bound.call {} 20).machine.call {} 1
    later.result = .ok ⟨1, 9, 0⟩ ∧ later.machine.slots = (bound.call {} 1).machine.slots := by
  have loads : Module.ofWords biased.words = .ok biased :=
    Module.ofWords_words (by decide) (by decide) (by decide) (by decide) rfl
  have evaluated : (ofModule {} biased).toOption.any (fun start =>
      start.seemsContained 1 && start.seemsPointed 1 &&
        (start.bind 0 [0, 0, 0x80, 0x3F]).toOption.any fun bound =>
          ((bound.call {} 20).machine.call {} 1).result = .ok ⟨1, 9, 0⟩) = true := by
    decide +kernel
  obtain ⟨start, set_up, outcome⟩ := exists_of_any evaluated
  simp only [Bool.and_eq_true] at outcome
  obtain ⟨⟨seems, pointed⟩, bound_outcome⟩ := outcome
  obtain ⟨bound, is_bound, completed⟩ := exists_of_any bound_outcome
  have contained : start.SelfContained 1 := selfContained_of_seemsContained seems
  have settled : start.PointsToSettled 1 := pointsToSettled_of_seemsPointed pointed
  have prepared : Prepared biased bound := .bind (.setUp set_up) is_bound
  have reachable : Reachable biased (bound.call {} 20).machine := prepared.reachable.call {} 20
  have inputs : bound.slots.inputs = (bound.call {} 20).machine.slots.inputs :=
    (frame_call {} bound 20).inputs.symm
  have distinct : biased.DistinctResults := by decide +kernel
  have forgets := (reachable.call_forgets loads distinct set_up contained settled).2
  have completed := of_decide_eq_true completed
  exact ⟨start, bound, set_up, is_bound, contained, settled, completed,
    (forgets bound prepared inputs {}).2 _ completed⟩

/-- A module whose function `1` has a variable of a pointer type to the ID `7`, which stands for
nothing until its function `2` computes a sum. -/
def forwarded : Module where
  header := .ofBound 12 0
  instructions := [⟨5, 15, [4, 1, 102]⟩, ⟨9, 15, [4, 2, 103]⟩, ⟨13, 19, [3]⟩, ⟨15, 33, [4, 3]⟩,
    ⟨18, 22, [5, 32]⟩, ⟨21, 32, [6, 7, 7]⟩, ⟨25, 43, [5, 8, 0x3F800000]⟩, ⟨29, 54, [3, 1, 0, 4]⟩,
    ⟨34, 248, [9]⟩, ⟨36, 59, [6, 10, 7]⟩, ⟨40, 253, []⟩, ⟨41, 56, []⟩, ⟨42, 54, [3, 2, 0, 4]⟩,
    ⟨47, 248, [11]⟩, ⟨49, 129, [5, 7, 8, 8]⟩, ⟨54, 253, []⟩, ⟨55, 56, []⟩]
  metadata := {}
  instructionCount := 17

/-- That a function is self-contained is not enough for it not to observe earlier calls: a pointer
type may be declared before what it points to, and what the variables of the function hold is then
up to the functions called before. -/
theorem call_observes_forwarded : ¬ ∀ (words : List Word) (loaded : Module)
    (configuration : Configuration) (start machine : Machine) (id : Id),
    Module.ofWords words = .ok loaded → loaded.DistinctResults →
    ofModule configuration loaded = .ok start → start.SelfContained id →
    Reachable loaded machine →
    ∀ fresh, Prepared loaded fresh → fresh.slots.inputs = machine.slots.inputs →
      ∀ limits, (machine.call limits id).result = (fresh.call limits id).result := by
  intro forgets
  have loads : Module.ofWords forwarded.words = .ok forwarded :=
    Module.ofWords_words (by decide) (by decide) (by decide) (by decide) rfl
  have evaluated : (ofModule {} forwarded).toOption.any (fun start => decide
      (start.seemsContained 1 = true ∧ (start.call {} 1).result = .error (.undefinedId 7) ∧
        ((start.call {} 2).machine.call {} 1).result =
          .error (.typeMismatch 7 (.definition .type) (.definition .constant)))) = true := by
    decide +kernel
  obtain ⟨start, set_up, outcome⟩ := exists_of_any evaluated
  obtain ⟨seems, undefined, mistyped⟩ := of_decide_eq_true outcome
  have distinct : forwarded.DistinctResults := by decide +kernel
  have same := forgets _ _ _ start _ 1 loads distinct set_up
    (selfContained_of_seemsContained seems) (.call (.setUp set_up) {} 2) start (.setUp set_up)
    (frame_call {} start 2).inputs.symm {}
  rw [undefined, mistyped] at same
  cases same

end Machine

end ShaderMachine
