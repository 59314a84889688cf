import Mathlib.Logic.Function.Basic
import ShaderMachine.Proofs.CompositeSteps
import ShaderMachine.Proofs.FloatSteps
import ShaderMachine.Proofs.LaneRoundTrip

/-! # Straight code on floats

Float instructions, and those that build composites of floats, read values and give one, and they
change nothing else. So what straight code of them gives in the end is found from the values that
its IDs stand for at first.

* **`FloatLine`** — a line of such code, and **`Table.Writes`**, the instructions for it.
* **`FloatLine.value?`** and **`finalValue?`** — what a line gives, and what the last one does.
* **`Machine.YieldsAtLast`** — instructions are executed that do nothing but give values.
* **`Machine.yieldsAtLast_iff`** — the last one yields what is found. -/

namespace ShaderMachine

/-! ## Lanes of a width -/

/-- The widths of floats, in bits, and their lanes. -/
inductive LanesOf : Word → (α : Type) → [Lane α] → Prop
  /-- Singles have 32 bits. -/
  | single : LanesOf 32 Single
  /-- Doubles have 64 bits. -/
  | double : LanesOf 64 Double

section

variable {width : Word} {α : Type} [Lane α] (lanes : LanesOf width α)

include lanes

/-- Nothing is lost of lanes of either width. -/
theorem LanesOf.isLossless : Lane.IsLossless α := by
  cases lanes with
  | single => exact Single.isLossless
  | double => exact Double.isLossless

/-- What is computed with floats of a width is computed with its lanes. -/
theorem LanesOf.runWidth_eq (operation : FloatOperation) (id : Id) (operands : List Bytes) :
    operation.runWidth id width operands = .ok (operation.run α operands) := by
  cases lanes <;> rfl

end

/-! ## Lines -/

/-- The name of an instruction in code on floats. -/
inductive FloatName where
  /-- A composite is built. -/
  | construct
  /-- A float instruction that is no extended one. -/
  | core (opcode : Opcode)
  /-- An instruction of the imported set. -/
  | extended (known : GlslInstruction)

/-- A line of code on floats. -/
structure FloatLine where
  /-- The name of its instruction. -/
  name : FloatName
  /-- The ID of the type of the result. -/
  type : Id
  /-- The ID of the result. -/
  result : Id
  /-- The IDs of the operands. -/
  operands : List Id

/-- Whether an instruction is written for a line, with as many operands as it takes. -/
inductive Table.Writes (table : Table) (instruction : Instruction) : FloatLine → Prop
  /-- A composite is built of the operands. -/
  | construct {type result : Id} {operands : List Id}
      (constructs : instruction.Constructs type result operands) :
      Writes table instruction ⟨.construct, type, result, operands⟩
  /-- A float instruction that is no extended one. -/
  | core {opcode : Opcode} {form : FloatForm} {type result : Id} {operands : List Id}
      (known : Opcode.ofNumber? instruction.opcode = some opcode)
      (is_form : opcode.floatForm? = some form) (count : operands.length = form.arity)
      (operands_eq : instruction.operands = type :: result :: operands) :
      Writes table instruction ⟨.core opcode, type, result, operands⟩
  /-- An extended instruction of the imported set. -/
  | extended {type result set : Id} {known : GlslInstruction} {operands : List Id}
      (is_extended : Opcode.ofNumber? instruction.opcode = some .extInst)
      (is_set : Execution.extendedSet table set = .ok .glsl) (count : operands.length = known.arity)
      (operands_eq : instruction.operands = type :: result :: set :: known.number :: operands) :
      Writes table instruction ⟨.extended known, type, result, operands⟩

/-- What comes of the bytes of operands; a composite is what they are one after the other. -/
def FloatName.run (α : Type) [Lane α] : FloatName → List Bytes → Option Bytes
  | construct, operands => some operands.flatten
  | core opcode, operands => match opcode.floatOperation? with
      | some operation => operation.run α operands
      | none => none
  | extended known, operands => known.operation.run α operands

namespace FloatLine

/-- The bytes that come of the values that the operands stand for. -/
def bytes? (α : Type) [Lane α] (values : Id → Option Value) (line : FloatLine) : Option Bytes := do
  let operands ← line.operands.mapM values
  line.name.run α (operands.map Value.bytes)

/-- The value that a line gives: bytes of the size of its type. -/
def value? (α : Type) [Lane α] (sizes : Id → Option Nat) (values : Id → Option Value)
    (line : FloatLine) : Option Value :=
  (line.bytes? α values).bind fun bytes =>
    if sizes line.type = some bytes.length then some ⟨line.type, bytes⟩ else none

variable {α : Type} [Lane α] {sizes : Id → Option Nat} {values : Id → Option Value}
  {line : FloatLine} {value : Value}

/-- A line gives what comes of its operands, if that has the size of its type. -/
theorem value?_eq_some_iff : line.value? α sizes values = some value ↔
    value.type = line.type ∧ line.bytes? α values = some value.bytes ∧
      sizes line.type = some value.bytes.length := by
  obtain ⟨type, bytes⟩ := value
  rw [value?, Option.bind_eq_some_iff]
  constructor
  · rintro ⟨made, is_made, given⟩
    split at given
    · rename_i size
      cases given
      exact ⟨rfl, is_made, size⟩
    · cases given
  · rintro ⟨rfl, is_made, size⟩
    exact ⟨bytes, is_made, if_pos size⟩

end FloatLine

/-- The value that the last one of some lines gives; every line reads what the ones above gave. -/
def finalValue? (α : Type) [Lane α] (sizes : Id → Option Nat) :
    (Id → Option Value) → List FloatLine → Option Value
  | _, [] => none
  | values, [line] => line.value? α sizes values
  | values, line :: next :: lines => (line.value? α sizes values).bind fun value =>
      finalValue? α sizes (Function.update values line.result (some value)) (next :: lines)

namespace Table

/-- The size in bytes of a type, if it is one. -/
def size? (table : Table) (type : Id) : Option Nat :=
  (table.sizeOf type).toOption

/-- The value that an ID stands for, if it does. -/
def value? (table : Table) (id : Id) : Option Value :=
  (table.value id).toOption

end Table

/-! ## Steps -/

namespace Machine

variable {configuration : Configuration} {machine next : Machine} {instruction : Instruction}
  {line : FloatLine} {width : Word} {α : Type} [Lane α]

namespace Gives

variable {id : Id} {value : Value} (gives : machine.Gives id value next)

include gives

/-- The ID stands for the value, and all others stand for what they did. -/
theorem value?_eq : next.table.value? = Function.update machine.table.value? id (some value) := by
  funext other
  by_cases same : other = id
  · subst same
    rw [Function.update_self, Table.value?, gives.value_eq]
    rfl
  · rw [Function.update_of_ne same, Table.value?, Table.value?, gives.value_of_ne same]

/-- No size changes. -/
theorem size?_eq : next.table.size? = machine.table.size? := by
  funext type
  refine Option.ext fun size => ?_
  rw [Table.size?, Table.size?, toOption_eq_some_iff, toOption_eq_some_iff, gives.sizeOf_iff]

/-- Types of floats stay such. -/
theorem floatWidth {type : Id} (is_width : machine.table.floatWidth type = .ok width) :
    next.table.floatWidth type = .ok width :=
  Table.TypesFollow.follows_floatWidth (fun _ _ => gives.typeOf_iff.mpr) type width is_width

/-- Sets stay imported. -/
theorem extendedSet {set : Id} {imported : ExtendedSet}
    (is_set : Execution.extendedSet machine.table set = .ok imported) :
    Execution.extendedSet next.table set = .ok imported := by
  have different : set ≠ id := by
    rintro rfl
    obtain ⟨record, found, before, -⟩ := gives
    obtain ⟨present, read, is_set⟩ := exists_of_bind is_set
    cases found.symm.trans read
    -- Neither what the ID stood for nor a value is a set.
    split at is_set
    · rename_i definition_eq
      rw [definition_eq] at before
      rcases before with unset | constant
      · cases unset
      · cases constant
    · cases is_set
    · cases is_set
  rw [Execution.extendedSet, gives.get_of_ne different]
  exact is_set

/-- An instruction stays written for its line. -/
theorem writes (written : machine.table.Writes instruction line) :
    next.table.Writes instruction line := by
  cases written with
  | construct constructs => exact .construct constructs
  | core known is_form count operands_eq => exact .core known is_form count operands_eq
  | extended is_extended is_set count operands_eq =>
      exact .extended is_extended (gives.extendedSet is_set) count operands_eq

end Gives

section

variable (lanes : LanesOf width α) (written : machine.table.Writes instruction line)
  (is_width : machine.table.floatWidth line.type = .ok width)

include lanes is_width in
/-- Float instructions compute the bytes that come of their operands. -/
theorem floatBytes_eq_ok_iff {operation : FloatOperation} {bytes : Bytes}
    (run_eq : line.name.run α = operation.run α) :
    floatBytes machine.table operation line.type line.result line.operands = .ok bytes ↔
      line.bytes? α machine.table.value? = some bytes := by
  have read : line.operands.mapM machine.table.value? =
      (line.operands.mapM machine.table.value).toOption := mapM_toOption _ _
  rw [FloatLine.bytes?, read, run_eq, floatBytes, is_width]
  cases line.operands.mapM machine.table.value with
  | error error => exact iff_of_false (by rintro ⟨⟩) (by rintro ⟨⟩)
  | ok values =>
      simp only [Bind.bind, Except.bind, lanes.runWidth_eq, Except.toOption, Option.bind_some]
      cases operation.run α (values.map Value.bytes) <;> simp [bytesOr]

include lanes written is_width

/-- An instruction computes the bytes of its line, if they have the size of the type. -/
theorem computes_line : ∃ computed cursor, cursor.ahead = [] ∧
    machine.ComputesValue instruction line.type line.result computed cursor ∧
    (∀ instruction, Sound machine.table instruction computed) ∧
    ∀ bytes, machine.table.sizeOf line.type = .ok bytes.length →
      (computed = .ok bytes ↔ line.bytes? α machine.table.value? = some bytes) := by
  -- The three forms of lines are computed by three handlers.
  cases written with
  | @construct type result operands constructs =>
      obtain ⟨cursor, at_end, computes⟩ := machine.computes_construct constructs
      refine ⟨_, cursor, at_end, computes, fun _ => sound_foldComposite _ _ _, fun bytes size => ?_⟩
      have read : operands.mapM machine.table.value? =
          (operands.mapM machine.table.value).toOption := mapM_toOption _ _
      rw [FloatLine.bytes?, read, foldComposite, size]
      cases operands.mapM machine.table.value with
      | error error => exact iff_of_false (by rintro ⟨⟩) (by rintro ⟨⟩)
      | ok values =>
          change (if _ then Except.ok (values.flatMap Value.bytes) else _) = _ ↔
            some (values.map Value.bytes).flatten = some bytes
          rw [List.flatMap_def, Option.some.injEq]
          constructor
          · intro computed
            split at computed
            · exact Except.ok.inj computed
            · cases computed
          · rintro rfl
            exact if_pos rfl
  | core known is_form count operands_eq =>
      obtain ⟨operation, is_operation, -, registered⟩ := exists_registered known is_form
      obtain ⟨cursor, ahead_eq, computes⟩ :=
        computes_core (count ▸ registered) (operands_eq.trans (by rw [List.append_nil]))
      refine ⟨_, cursor, ahead_eq, computes, sound_floatBytes _ _ _ _, fun bytes _ => ?_⟩
      refine floatBytes_eq_ok_iff lanes is_width (funext fun operands => ?_)
      simp only [FloatName.run, is_operation]
  | extended is_extended is_set count operands_eq =>
      obtain ⟨cursor, ahead_eq, computes⟩ := computes_extended is_extended
        (operands_eq.trans (by rw [List.append_nil])) is_set count
      exact ⟨_, cursor, ahead_eq, computes, sound_floatBytes _ _ _ _,
        fun bytes _ => floatBytes_eq_ok_iff lanes is_width rfl⟩

/-- An instruction gives its result the value of its line, or fails and changes nothing. -/
theorem step_line (configuration : Configuration) :
    (∃ value next, line.value? α machine.table.size? machine.table.value? = some value ∧
        machine.step configuration instruction = ⟨next, .ok false⟩ ∧
        machine.Gives line.result value next) ∨
      ∃ error, machine.step configuration instruction = ⟨machine, .error error⟩ ∧
        (machine.table.MayHold line.result →
          line.value? α machine.table.size? machine.table.value? = none) := by
  obtain ⟨computed, cursor, at_end, computes, sound, computed_iff⟩ :=
    computes_line lanes written is_width
  rcases step_of_computes configuration computes at_end sound with
    ⟨next, bytes, stepped, is_computed, size, gives⟩ | ⟨error, stepped, fails⟩
  · refine .inl ⟨_, next, FloatLine.value?_eq_some_iff.mpr ⟨rfl, ?_, ?_⟩, stepped, gives⟩
    · exact (computed_iff bytes size).mp is_computed
    · exact toOption_eq_some_iff.mpr size
  · refine .inr ⟨error, stepped, fun holds => Option.eq_none_iff_forall_ne_some.mpr ?_⟩
    intro value given
    obtain ⟨-, made, size⟩ := FloatLine.value?_eq_some_iff.mp given
    have size := toOption_eq_some_iff.mp size
    exact fails value.bytes ((computed_iff _ size).mpr made) size holds

end

/-! ## Runs -/

/-- Whether instructions are executed one after the other that do nothing but give values to IDs,
and the last one gives a value to an ID. -/
inductive YieldsAtLast (configuration : Configuration) (id : Id) (value : Value) :
    Machine → List Instruction → Prop
  /-- The last one gives the value. -/
  | last {machine : Machine} {instruction : Instruction}
      (yields : machine.Yields configuration instruction id value) :
      YieldsAtLast configuration id value machine [instruction]
  /-- One gives a value to an ID, and the others are executed after it. -/
  | next {machine mid : Machine} {instruction : Instruction} {instructions : List Instruction}
      {other : Id} {stored : Value}
      (stepped : machine.step configuration instruction = ⟨mid, .ok false⟩)
      (gives : machine.Gives other stored mid)
      (rest : YieldsAtLast configuration id value mid instructions) :
      YieldsAtLast configuration id value machine (instruction :: instructions)

section

variable {id : Id} {value stored : Value} {instructions : List Instruction}

/-- One instruction is the last one. -/
theorem yieldsAtLast_singleton : machine.YieldsAtLast configuration id value [instruction] ↔
    machine.Yields configuration instruction id value := by
  refine ⟨fun yields => ?_, .last⟩
  cases yields with
  | last yields => exact yields
  | next _ _ rest => cases rest

/-- An instruction that gives a value yields no other one. -/
theorem yields_iff_of_gives
    (stepped : machine.step configuration instruction = ⟨next, .ok false⟩)
    (gives : machine.Gives id stored next) :
    machine.Yields configuration instruction id value ↔ stored = value := by
  constructor
  · rintro ⟨next', stepped', gives'⟩
    cases stepped.symm.trans stepped'
    exact Except.ok.inj (gives.value_eq.symm.trans gives'.value_eq)
  · rintro rfl
    exact ⟨next, stepped, gives⟩

/-- After an instruction that gives a value, the others are executed. -/
theorem yieldsAtLast_cons {other : Id} {second : Instruction}
    (stepped : machine.step configuration instruction = ⟨next, .ok false⟩)
    (gives : machine.Gives other stored next) :
    machine.YieldsAtLast configuration id value (instruction :: second :: instructions) ↔
      next.YieldsAtLast configuration id value (second :: instructions) := by
  refine ⟨fun yields => ?_, .next stepped gives⟩
  cases yields with
  | next stepped' _ rest =>
      cases stepped.symm.trans stepped'
      exact rest

/-- Nothing is yielded if the first instruction fails. -/
theorem not_yieldsAtLast_of_failed {error : MachineError}
    (failed : machine.step configuration instruction = ⟨machine, .error error⟩) :
    ¬ machine.YieldsAtLast configuration id value (instruction :: instructions) := by
  intro yields
  cases yields with
  | last yields =>
      obtain ⟨next, stepped, -⟩ := yields
      cases failed.symm.trans stepped
  | next stepped _ _ => cases failed.symm.trans stepped

end

/-- Instructions that are written for lines give what is found from the values before. -/
theorem yieldsAtLast_iff (lanes : LanesOf width α) {lines : List FloatLine} {last : FloatLine}
    {instructions : List Instruction} {value : Value}
    (code : List.Forall₂ machine.table.Writes instructions lines)
    (widths : ∀ line ∈ lines, machine.table.floatWidth line.type = .ok width)
    (places : ∀ line ∈ lines, machine.table.MayHold line.result)
    (is_last : lines.getLast? = some last) :
    machine.YieldsAtLast configuration last.result value instructions ↔
      finalValue? α machine.table.size? machine.table.value? lines = some value := by
  induction lines generalizing machine instructions with
  | nil => cases is_last
  | cons line lines hyp =>
      obtain _ | ⟨written, code⟩ := code
      rw [List.forall_mem_cons] at widths places
      rcases step_line lanes written widths.1 configuration with
        ⟨stored, next, given, stepped, gives⟩ | ⟨error, failed, nothing⟩
      · cases lines with
        | nil =>
            cases code
            obtain rfl : line = last := Option.some.inj is_last
            rw [yieldsAtLast_singleton, yields_iff_of_gives stepped gives, finalValue?, given,
              Option.some.injEq]
        | cons second lines =>
            -- Nothing but the one value differs after the first step.
            obtain _ | ⟨written', code⟩ := code
            rw [yieldsAtLast_cons stepped gives,
              hyp (.cons (gives.writes written') (code.imp fun _ _ => gives.writes))
                (fun line mem => gives.floatWidth (widths.2 line mem))
                (fun line mem => gives.mayHold_iff.mpr (places.2 line mem)) is_last,
              finalValue?, given, Option.bind_some, gives.size?_eq, gives.value?_eq]
      · refine iff_of_false (not_yieldsAtLast_of_failed failed) ?_
        have nothing := nothing places.1
        cases lines <;> simp [finalValue?, nothing]

end Machine

end ShaderMachine
