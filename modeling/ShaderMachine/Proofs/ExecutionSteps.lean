import Mathlib.Logic.Relation
import ShaderMachine.Proofs.Layout
import ShaderMachine.Proofs.Meets
import ShaderMachine.Proofs.Outcomes

/-! # What executed instructions do

An executed instruction either gives an ID a value or a variable that fits the table, or writes to
a variable as much as it held, or changes nothing; when it fails, its fault is one of a few. All
that a call does to a table is a sequence of such changes.

* **`MachineError.Arises`** — the faults of executed instructions.
* **`meets_handler`** — what the handlers of executed instructions yield.
* **`Table.Change`** — what one executed instruction does to a table.
* **`Table.Changes`** — what a call does to a table, with **`Machine.call_changes`**. -/

namespace ShaderMachine

/-! ## Faults -/

/-- Whether a fault is none of the two that cannot arise in a table that is laid out. -/
def MachineError.FitsLayout : MachineError → Prop
  | .typeMismatch _ expected found => (∀ count, expected ≠ .atLeast count) ∧ found ≠ .emptyVector
  | _ => True

/-- Whether an executed instruction may end in a fault: what is unsupported has no handler or is an
extended instruction. -/
def MachineError.Arises (table : Table) (instruction : Instruction) : MachineError → Prop
  | .binary error => error = instruction.malformed .missingOperand ∨
      (∃ word, error = instruction.malformed (.unknownStorageClass word)) ∨
      ∃ count, error = instruction.malformed (.unreadOperands count)
  | .typeMismatch id expected found =>
      table.Layout → (MachineError.typeMismatch id expected found).FitsLayout
  | .unsupportedExtended _ _ _ => Opcode.ofNumber? instruction.opcode = some .extInst
  | .unsupportedOpcode _ _ => executionTable.get? instruction.opcode = none
  | .idOutOfRange _ _ | .undefinedId _ | .idRedefined _ _ _ | .unsupportedFloatWidth _ _
  | .missingLocation _ | .missingInput _ | .inputTooShort _ _ _ | .locationOutOfRange _ _
  | .readOnlyStorage _ _ => True
  | _ => False

/-- In a table that is laid out, faults that arise fit the layout. -/
theorem MachineError.Arises.fitsLayout {table : Table} {instruction : Instruction}
    {error : MachineError} (arises : error.Arises table instruction) (layout : table.Layout) :
    error.FitsLayout := by
  cases error with
  | typeMismatch id expected found => exact arises layout
  | _ => trivial

/-- A fault that arises is fatal unless the instruction is unsupported or an extended one. -/
theorem MachineError.Arises.isFatal {table : Table} {instruction : Instruction}
    {error : MachineError} (arises : error.Arises table instruction)
    (supported : executionTable.get? instruction.opcode ≠ none)
    (plain : Opcode.ofNumber? instruction.opcode ≠ some .extInst) : error.isFatal = true := by
  cases error with
  | unsupportedOpcode opcode offset => exact absurd arises supported
  | unsupportedExtended set number offset => exact absurd arises plain
  | _ => rfl

/-- Whether a result is right or one of the faults of executed instructions. -/
def Sound {α : Type} (table : Table) (instruction : Instruction) (result : Except MachineError α) :
    Prop :=
  ∀ error, result = .error error → error.Arises table instruction

namespace Sound

variable {α β : Type} {table : Table} {instruction : Instruction}

/-- A value is no fault. -/
theorem ok {value : α} : Sound table instruction (.ok value) :=
  fun _ impossible => by cases impossible

/-- A value is no fault. -/
theorem pure {value : α} : Sound table instruction (pure value) :=
  ok

/-- A fault that arises. -/
theorem error {error : MachineError} (arises : error.Arises table instruction) :
    Sound table instruction (.error error : Except MachineError α) := by
  rintro other ⟨⟩
  exact arises

/-- A mismatch of which a layout says nothing arises. -/
theorem mismatch {id : Id} {expected found : Shape}
    (plain : (∀ count, expected ≠ .atLeast count) ∧ found ≠ .emptyVector) :
    Sound table instruction (.error (.typeMismatch id expected found) : Except MachineError α) :=
  error fun _ => plain

/-- One computation after the other. -/
theorem bind {result : Except MachineError α} {rest : α → Except MachineError β}
    (first : Sound table instruction result)
    (after : ∀ value, result = .ok value → Sound table instruction (rest value)) :
    Sound table instruction (result >>= rest) := by
  cases result with
  | ok value => exact after value rfl
  | error fault => exact error (first fault rfl)

/-- A value computed from the result. -/
theorem map {f : α → β} {result : Except MachineError α} (sound : Sound table instruction result) :
    Sound table instruction (result.map f) := by
  cases result with
  | ok value => exact ok
  | error fault => exact error (sound fault rfl)

/-- One computation for every element of a list. -/
theorem mapM {f : α → Except MachineError β} (each : ∀ element, Sound table instruction (f element))
    (elements : List α) : Sound table instruction (elements.mapM f) := by
  induction elements with
  | nil => exact pure
  | cons element elements hyp =>
      rw [List.mapM_cons]
      exact (each element).bind fun _ _ => hyp.bind fun _ _ => pure

/-- One computation after the other along a list. -/
theorem foldlM {f : β → α → Except MachineError β}
    (each : ∀ state element, Sound table instruction (f state element)) (elements : List α)
    (start : β) : Sound table instruction (elements.foldlM f start) := by
  induction elements generalizing start with
  | nil => exact pure
  | cons element elements hyp =>
      rw [List.foldlM_cons]
      exact (each start element).bind fun next _ => hyp next

/-- A computation that is sound for every instruction ends in fatal faults only. -/
theorem isFatal {result : Except MachineError α}
    (sound : ∀ instruction, Sound table instruction result) {error : MachineError}
    (failed : result = .error error) : error.isFatal = true := by
  have arises : error.Arises table ⟨0, Opcode.nop.number, []⟩ := sound _ error failed
  exact arises.isFatal (by decide) (by decide)

/-- A sound computation meets what holds of its value. -/
theorem meets {good : α → Prop} {result : Except MachineError α}
    (sound : Sound table instruction result) (wanted : ∀ value, result = .ok value → good value) :
    Meets result good (MachineError.Arises table instruction) :=
  .of_cases wanted sound

end Sound

section Readers

variable {table : Table} {instruction : Instruction}

/-- A record is found, or its ID is out of range. -/
theorem sound_get (id : Id) : Sound table instruction (table.get id) := by
  unfold Table.get
  split
  · exact .ok
  · exact .error trivial

/-- A definition is found, or its ID stands for nothing. -/
theorem sound_defined (id : Id) : Sound table instruction (table.defined id) := by
  refine .bind (sound_get id) fun record _ => ?_
  split
  · exact .error trivial
  · exact .pure

/-- A type is found, or its ID stands for something else. -/
theorem sound_typeOf (id : Id) : Sound table instruction (table.typeOf id) := by
  refine .bind (sound_defined id) fun definition _ => ?_
  split
  · exact .pure
  · exact .mismatch (by simp)

/-- A value is found, or its ID stands for something else. -/
theorem sound_value (id : Id) : Sound table instruction (table.value id) := by
  refine .bind (sound_defined id) fun definition _ => ?_
  split
  · exact .pure
  · exact .mismatch (by simp)

/-- A variable is found, or its ID stands for something else. -/
theorem sound_variableAt (id : Id) : Sound table instruction (table.variableAt id) := by
  refine .bind (sound_defined id) fun definition _ => ?_
  split
  · exact .pure
  · exact .mismatch (by simp)

/-- The size of a type is found, or its ID stands for something else. -/
theorem sound_sizeOf (id : Id) : Sound table instruction (table.sizeOf id) :=
  (sound_typeOf id).map

/-- The width of the floats of a type is found. A vector of a table that is laid out has a
component to look at. -/
theorem sound_floatWidth (type : Id) : Sound table instruction (table.floatWidth type) := by
  refine .bind (sound_typeOf type) fun data is_type => ?_
  cases data with
  | float width => exact .pure
  | vector members =>
      cases members with
      | nil =>
          -- A vector without components does not fit a layout.
          refine .error fun layout => ?_
          obtain ⟨count, component, scalar, least, -, repeated, -⟩ :=
            (layout.typeOf is_type).vector [] rfl
          have count_eq : 0 = count := by
            have lengths := congrArg List.length repeated
            rw [List.length_replicate] at lengths
            exact lengths
          omega
      | cons member members =>
          refine .bind (sound_typeOf _) fun component _ => ?_
          cases component with
          | float width => exact .pure
          | _ => exact .mismatch (by simp)
  | _ => exact .mismatch (by simp)

end Readers

section Computations

variable {table : Table} {slots : Slots} {instruction : Instruction}

/-- A computed value is checked. -/
theorem sound_finishValue (result resultType : Id) (bytes : Option Bytes) :
    Sound table instruction (finishValue table result resultType bytes) := by
  cases bytes with
  | none => exact .mismatch (by simp)
  | some bytes =>
      refine .bind (sound_sizeOf resultType) fun size _ => ?_
      split
      · exact .pure
      · exact .mismatch (by simp)

/-- Constituents are put together. -/
theorem sound_foldComposite (result type : Id) (constituents : List Id) :
    Sound table instruction (foldComposite table result type constituents) := by
  refine .bind (sound_sizeOf type) fun size _ => ?_
  refine .bind (.mapM sound_value constituents) fun values _ => ?_
  simp only
  split
  · exact .pure
  · exact .mismatch (by simp)

/-- A member of a part is found. -/
theorem sound_memberPart (composite : Id) (part : Part) (index : Word) :
    Sound table instruction (memberPart table composite part index) := by
  refine .bind (sound_typeOf part.type) fun type _ => ?_
  split
  · exact .pure
  · exact .mismatch (by simp)

/-- A part of a composite is taken out. In a table that is laid out it lies within the value. -/
theorem sound_extractComposite (composite : Id) (indices : List Word) :
    Sound table instruction (extractComposite table composite indices) := by
  refine .bind (sound_value composite) fun value is_value => ?_
  refine .bind (.foldlM (sound_memberPart composite) indices _) fun part path => ?_
  split
  · exact .pure
  · rename_i outside
    refine .error fun layout => absurd ?_ outside
    have whole : Part.Within table value.bytes.length ⟨value.type, 0, value.bytes.length⟩ :=
      ⟨layout.value is_value, Nat.le_of_eq (Nat.zero_add _)⟩
    exact (whole.foldlM layout path).2

/-- The input at a location is found. -/
theorem sound_input (location : Word) : Sound table instruction (slots.input location) := by
  unfold Slots.input
  split
  · split
    · exact .ok
    · exact .error trivial
  · exact .error trivial

/-- Data is written to an output location. -/
theorem sound_write (location : Word) (data : Bytes) :
    Sound table instruction (slots.write location data) := by
  unfold Slots.write
  split
  · exact .ok
  · exact .error trivial

/-- An ID is given another definition. -/
theorem sound_replace (id : Id) (definition : Definition) :
    Sound table instruction (table.replace id definition) := by
  refine .bind (sound_get id) fun record _ => ?_
  split
  · exact .pure
  · exact .error trivial

/-- What a pointer points to is loaded. -/
theorem sound_loadBytes (resultType pointer : Id) :
    Sound table instruction (loadBytes table slots resultType pointer) := by
  refine .bind (sound_sizeOf resultType) fun size _ => ?_
  refine .bind (sound_variableAt pointer) fun contents _ => ?_
  split
  · refine .bind (sound_get pointer) fun record _ => ?_
    split
    · exact .error trivial
    · refine .bind (sound_input _) fun data _ => ?_
      split
      · exact .error trivial
      · exact .pure
  · split
    · exact .pure
    · exact .mismatch (by simp)

/-- The data of a new variable is found. -/
theorem sound_initialData (size : Nat) (initializer : Option Id) :
    Sound table instruction (initialData table size initializer) := by
  cases initializer with
  | none => exact .ok
  | some id =>
      refine .bind (sound_value id) fun value _ => ?_
      split
      · exact .pure
      · exact .mismatch (by simp)

/-- A variable is made. -/
theorem sound_createVariable (type id : Id) (storage : StorageClass) (initializer : Option Id) :
    Sound table instruction (createVariable table type id storage initializer) := by
  refine .bind (sound_typeOf type) fun data _ => ?_
  split
  · split
    · refine .bind (sound_sizeOf _) fun size _ => ?_
      exact .bind (sound_initialData size initializer) fun _ _ => .pure
    · exact .mismatch (by simp)
  · exact .mismatch (by simp)

/-- Floats of a width are computed with. -/
theorem sound_runWidth (operation : FloatOperation) (id : Id) (width : Word)
    (operands : List Bytes) :
    Sound table instruction (operation.runWidth id width operands) := by
  unfold FloatOperation.runWidth
  split
  · exact .ok
  · split
    · exact .ok
    · exact .error trivial

/-- A float instruction is evaluated. -/
theorem sound_evaluateFloats (operation : FloatOperation) (resultType result : Id)
    (operands : List Id) :
    Sound table instruction (evaluateFloats table operation resultType result operands) := by
  refine .bind (sound_floatWidth resultType) fun width _ => ?_
  refine .bind (.mapM sound_value operands) fun values _ => ?_
  exact .bind (sound_runWidth operation resultType width _) fun bytes _ =>
    sound_finishValue result resultType bytes

/-- An imported set is found. -/
theorem sound_extendedSet (id : Id) : Sound table instruction (Execution.extendedSet table id) := by
  refine .bind (sound_get id) fun record _ => ?_
  split
  · exact .pure
  · exact .error trivial
  · exact .mismatch (by simp)

end Computations

/-! ## Handlers -/

/-- Whether a definition is one that executed instructions give: a value or a variable. -/
def Definition.IsData : Definition → Prop
  | .constant _ | .var _ => True
  | _ => False

/-- Whether an effect agrees with a table: what is assigned is a value or a variable that fits. -/
def Effect.Fits (table : Table) : Effect → Prop
  | .assign _ definition => definition.IsData ∧ definition.Fits table
  | _ => True

section Values

variable {table : Table} {instruction : Instruction}

/-- A computed value that is accepted fits. -/
theorem fits_finishValue {result resultType : Id} {bytes : Option Bytes} {effect : Effect}
    (finished : finishValue table result resultType bytes = .ok effect) : effect.Fits table := by
  cases bytes with
  | none => cases finished
  | some bytes =>
      obtain ⟨size, has_size, finished⟩ := exists_of_bind finished
      split at finished
      · rename_i length_eq
        cases finished
        subst length_eq
        exact ⟨trivial, has_size⟩
      · cases finished

/-- The data that a new variable holds is of the size asked for. -/
theorem length_initialData {size : Nat} {initializer : Option Id} {data : Bytes}
    (initial : initialData table size initializer = .ok data) : data.length = size := by
  cases initializer with
  | none =>
      cases initial
      exact List.length_replicate
  | some id =>
      obtain ⟨value, -, initial⟩ := exists_of_bind initial
      split at initial
      · rename_i length_eq
        cases initial
        exact length_eq
      · cases initial

/-- A new variable fits. -/
theorem fits_createVariable {type id : Id} {storage : StorageClass} {initializer : Option Id}
    {contents : Variable}
    (created : createVariable table type id storage initializer = .ok contents) :
    contents.Fits table := by
  obtain ⟨data, is_type, created⟩ := exists_of_bind created
  split at created
  · rename_i pointer_storage pointee
    split at created
    · rename_i same
      subst same
      obtain ⟨size, has_size, created⟩ := exists_of_bind created
      obtain ⟨data, initial, created⟩ := exists_of_bind created
      cases created
      refine ⟨is_type, ?_⟩
      rw [length_initialData initial]
      exact has_size
    · cases created
  · cases created

/-- What a float instruction yields fits. -/
theorem fits_evaluateFloats {operation : FloatOperation} {resultType result : Id}
    {operands : List Id} {effect : Effect}
    (evaluated : evaluateFloats table operation resultType result operands = .ok effect) :
    effect.Fits table := by
  obtain ⟨width, -, evaluated⟩ := exists_of_bind evaluated
  obtain ⟨values, -, evaluated⟩ := exists_of_bind evaluated
  obtain ⟨bytes, -, evaluated⟩ := exists_of_bind evaluated
  exact fits_finishValue evaluated

end Values

namespace Execution

open OperandReader

variable {table : Table} {slots : Slots} {instruction : Instruction}

/-- A missing operand arises. -/
theorem arises_missing :
    (MachineError.binary (instruction.malformed .missingOperand)).Arises table instruction :=
  Or.inl rfl

/-- IDs are read. -/
theorem meets_readIds {fault : MachineError → Prop}
    (missing : fault (.binary (instruction.malformed .missingOperand))) (count : Nat) :
    (readIds instruction count).Meets (fun _ => True) fault := by
  induction count with
  | zero => exact meets_pure trivial
  | succ count hyp =>
      refine .word missing fun id => ?_
      exact hyp.bind fun rest _ => meets_pure trivial

/-- A storage class is read. -/
theorem meets_storageOfWord {word : Word} {fault : MachineError → Prop}
    (unknown : fault (.binary (instruction.malformed (.unknownStorageClass word)))) :
    (storageOfWord instruction word).Meets (fun _ => True) fault := by
  unfold storageOfWord
  split
  · exact meets_pure trivial
  · exact meets_malformed unknown

/-- The operands of a variable are read, and it fits. -/
theorem meets_readVariable :
    (readVariable table instruction).Meets (fun answer => answer.2.Fits table)
      (MachineError.Arises table instruction) := by
  refine .word arises_missing fun type => ?_
  refine .word arises_missing fun id => ?_
  refine .word arises_missing fun storageWord => ?_
  refine .optional fun initializer => ?_
  refine (meets_storageOfWord (Or.inr (Or.inl ⟨storageWord, rfl⟩))).bind fun storage _ => ?_
  refine .computed (sound_createVariable type id storage initializer) fun contents created => ?_
  exact meets_pure (fits_createVariable created)

/-- An instruction without effect. -/
theorem meets_ignore :
    (ignore table slots instruction).Meets (Effect.Fits table)
      (MachineError.Arises table instruction) :=
  .drained (meets_pure trivial)

/-- A block label. -/
theorem meets_label :
    (label table slots instruction).Meets (Effect.Fits table)
      (MachineError.Arises table instruction) :=
  .word arises_missing fun _ => meets_pure trivial

/-- The end of a call. -/
theorem meets_returnVoid :
    (returnVoid table slots instruction).Meets (Effect.Fits table)
      (MachineError.Arises table instruction) :=
  meets_pure trivial

/-- A variable. -/
theorem meets_variableDecl :
    (variableDecl table slots instruction).Meets (Effect.Fits table)
      (MachineError.Arises table instruction) :=
  meets_readVariable.bind fun _ fits => meets_pure ⟨trivial, fits⟩

/-- A load. -/
theorem meets_load :
    (load table slots instruction).Meets (Effect.Fits table)
      (MachineError.Arises table instruction) := by
  refine .word arises_missing fun resultType => ?_
  refine .word arises_missing fun result => ?_
  refine .word arises_missing fun pointer => ?_
  refine .optional fun _ => meets_compute (Sound.meets ?_ fun effect is => ?_)
  · exact .bind (sound_loadBytes resultType pointer) fun bytes _ =>
      sound_finishValue result resultType (some bytes)
  · obtain ⟨bytes, -, finished⟩ := exists_of_bind is
    exact fits_finishValue finished

/-- A store. -/
theorem meets_store :
    (store table slots instruction).Meets (Effect.Fits table)
      (MachineError.Arises table instruction) := by
  refine .word arises_missing fun pointer => ?_
  refine .word arises_missing fun object => ?_
  refine .optional fun _ => ?_
  exact .computed (sound_value object) fun value _ => meets_pure trivial

/-- A composite built from its constituents. -/
theorem meets_compositeConstruct :
    (compositeConstruct table slots instruction).Meets (Effect.Fits table)
      (MachineError.Arises table instruction) := by
  refine .word arises_missing fun resultType => ?_
  refine .word arises_missing fun result => ?_
  refine .words fun constituents => meets_compute (Sound.meets ?_ fun effect is => ?_)
  · exact .bind (sound_foldComposite result resultType constituents) fun bytes _ =>
      sound_finishValue result resultType (some bytes)
  · obtain ⟨bytes, -, finished⟩ := exists_of_bind is
    exact fits_finishValue finished

/-- A part of a composite. -/
theorem meets_compositeExtract :
    (compositeExtract table slots instruction).Meets (Effect.Fits table)
      (MachineError.Arises table instruction) := by
  refine .word arises_missing fun resultType => ?_
  refine .word arises_missing fun result => ?_
  refine .word arises_missing fun composite => ?_
  refine .words fun indices => meets_compute (Sound.meets ?_ fun effect is => ?_)
  · exact .bind (sound_extractComposite composite indices) fun bytes _ =>
      sound_finishValue result resultType (some bytes)
  · obtain ⟨bytes, -, finished⟩ := exists_of_bind is
    exact fits_finishValue finished

/-- A float instruction. -/
theorem meets_floats (operation : FloatOperation) (arity : Nat) :
    (floats operation arity table slots instruction).Meets (Effect.Fits table)
      (MachineError.Arises table instruction) := by
  refine .word arises_missing fun resultType => ?_
  refine .word arises_missing fun result => ?_
  refine (meets_readIds arises_missing arity).bind fun operands _ => ?_
  exact meets_compute ((sound_evaluateFloats operation resultType result operands).meets
    fun _ => fits_evaluateFloats)

/-- An extended instruction. -/
theorem meets_extInst (extended : Opcode.ofNumber? instruction.opcode = some .extInst) :
    (extInst table slots instruction).Meets (Effect.Fits table)
      (MachineError.Arises table instruction) := by
  refine .word arises_missing fun resultType => ?_
  refine .word arises_missing fun result => ?_
  refine .word arises_missing fun setId => ?_
  refine .word arises_missing fun number => ?_
  refine .computed (sound_extendedSet setId) fun set _ => ?_
  split
  · rename_i known _
    refine (meets_readIds arises_missing known.arity).bind fun operands _ => ?_
    exact meets_compute ((sound_evaluateFloats known.operation resultType result operands).meets
      fun _ => fits_evaluateFloats)
  · exact meets_throw extended

end Execution

open Execution in
/-- The handlers of executed instructions yield effects that fit, or faults that arise. -/
theorem meets_handler (table : Table) (slots : Slots) {instruction : Instruction}
    {handler : ExecutionHandler} (found : executionTable.get? instruction.opcode = some handler) :
    (handler table slots instruction).Meets (Effect.Fits table)
      (MachineError.Arises table instruction) := by
  obtain ⟨opcode, known, registered⟩ := Option.bind_eq_some_iff.mp found
  -- There is one case for each handler; what has none is not registered.
  cases opcode with
  | nop | line | noLine | functionParameter =>
      cases registered
      exact meets_ignore
  | label =>
      cases registered
      exact meets_label
  | returnVoid =>
      cases registered
      exact meets_returnVoid
  | variableDecl =>
      cases registered
      exact meets_variableDecl
  | load =>
      cases registered
      exact meets_load
  | store =>
      cases registered
      exact meets_store
  | compositeConstruct =>
      cases registered
      exact meets_compositeConstruct
  | compositeExtract =>
      cases registered
      exact meets_compositeExtract
  | fNegate | fAdd | fSub | fMul | fDiv | vectorTimesScalar | dot =>
      cases registered
      exact meets_floats _ _
  | extInst =>
      cases registered
      exact meets_extInst known
  | _ => cases registered

/-! ## Steps -/

/-- What one executed instruction may do to a table. -/
inductive Table.Change (table : Table) : Table → Prop
  /-- Nothing changes. -/
  | keep : Change table table
  /-- A record counts as written to. -/
  | touch {id : Id} {record : Record} (found : table.get id = .ok record) :
      Change table (table.put id record)
  /-- An ID stands for a value or a variable, for the first time or in place of another one. -/
  | assign {id : Id} {record : Record} {definition : Definition}
      (found : table.get id = .ok record) (is_data : definition.IsData)
      (fits : definition.Fits table)
      (before : record.definition = .unset ∨ record.definition.kind = definition.kind) :
      Change table (table.put id { record with definition })
  /-- A variable holds other data of the same size. -/
  | store {id : Id} {record : Record} {contents : Variable} {data : Bytes}
      (found : table.get id = .ok record) (is_variable : record.definition = .var contents)
      (length_eq : data.length = contents.data.length) :
      Change table (table.put id { record with definition := .var { contents with data } })

/-- Whether what came of executing an instruction is a change to a table that an instruction may
make and, if it failed, a fault that one may end in. -/
def Outcome.StepsFrom {α : Type} (table : Table) (instruction : Instruction) (outcome : Outcome α) :
    Prop :=
  table.Change outcome.machine.table ∧
    ∀ error, outcome.result = .error error → error.Arises table instruction

namespace Outcome.StepsFrom

variable {α : Type} {table : Table} {instruction : Instruction} {next : Machine}

/-- An instruction that succeeds only has to change the table as it may. -/
theorem ok {value : α} (change : table.Change next.table) :
    StepsFrom table instruction ⟨next, .ok value⟩ := by
  refine ⟨change, ?_⟩
  intro error impossible
  cases impossible

/-- One that fails may have changed the table before. -/
theorem error {error : MachineError} (change : table.Change next.table)
    (arises : error.Arises table instruction) :
    StepsFrom table instruction (⟨next, .error error⟩ : Outcome α) := by
  refine ⟨change, ?_⟩
  intro other is
  cases is
  exact arises

end Outcome.StepsFrom

/-- What executed instructions may do to a table. -/
abbrev Table.Changes : Table → Table → Prop :=
  Relation.ReflTransGen Table.Change

namespace Machine

variable {configuration : Configuration} {machine : Machine} {instruction : Instruction}

/-- What is stored is as much as the variable held. -/
theorem length_storedData {pointer object : Id} {bytes data : Bytes} {contents : Variable}
    (stored : storedData pointer object bytes contents = .ok data) :
    data.length = contents.data.length := by
  obtain ⟨-, length_eq, rfl⟩ := storedData_eq_ok_iff.mp stored
  exact length_eq.symm

/-- A store that is refused ends in a fault that arises. -/
theorem sound_storedData {table : Table} (pointer object : Id) (bytes : Bytes)
    (contents : Variable) :
    Sound table instruction (storedData pointer object bytes contents) := by
  unfold storedData
  split
  · exact .error trivial
  · split
    · exact .mismatch (by simp)
    · exact .ok

/-- What writing to a variable does to a table. -/
theorem changeData_change (table : Table) (instruction : Instruction) (pointer object : Id)
    (bytes : Bytes) :
    table.Change (table.changeData pointer (storedData pointer object bytes)).1 ∧
      ∀ error, (table.changeData pointer (storedData pointer object bytes)).2 = some error →
        error.Arises table instruction := by
  unfold Table.changeData
  -- The table changes only if the ID stands for a variable, or for nothing at all.
  cases found : table.get pointer with
  | error error =>
      refine ⟨.keep, fun other is => ?_⟩
      cases is
      exact sound_get pointer _ found
  | ok record =>
      simp only
      split
      · rename_i contents is_variable
        cases stored : storedData pointer object bytes contents with
        | error error =>
            refine ⟨.keep, fun other is => ?_⟩
            cases is
            exact sound_storedData pointer object bytes contents _ stored
        | ok data =>
            exact ⟨.store found is_variable (length_storedData stored), fun _ impossible => by
              cases impossible⟩
      · refine ⟨.touch found, fun other is => ?_⟩
        cases is
        trivial
      · refine ⟨.keep, fun other is => ?_⟩
        cases is
        exact fun _ => by simp [MachineError.FitsLayout]

/-- Carrying out an effect that fits changes a table as an instruction may. -/
theorem commit_change {effect : Effect} (fits : effect.Fits machine.table) :
    (machine.commit effect).StepsFrom machine.table instruction := by
  have ends := machine.commitEnds effect
  generalize machine.commit effect = outcome at ends ⊢
  cases ends with
  | nothing => exact .ok .keep
  | assigned replaced =>
      obtain ⟨record, found, before, rfl⟩ := Table.replace_inv replaced
      exact .ok (.assign found fits.1 fits.2 before)
  | unassigned replaced => exact .error .keep (sound_replace _ _ _ replaced)
  | @stored pointer object bytes outcome ends =>
      have changed := changeData_change machine.table instruction pointer object bytes
      cases ends with
      | refused attempt =>
          rw [attempt] at changed
          exact .error changed.1 (changed.2 _ rfl)
      | written attempt place | output attempt place write =>
          rw [attempt] at changed
          exact .ok changed.1
      | misplaced attempt place write =>
          rw [attempt] at changed
          exact .error changed.1 (sound_write _ bytes _ write)

/-- Running a handler changes a table as an instruction may. -/
theorem handle_change {handler : ExecutionHandler}
    (registered : executionTable.get? instruction.opcode = some handler) :
    (machine.handle instruction handler).StepsFrom machine.table instruction := by
  have meets := meets_handler machine.table machine.slots registered instruction.cursor
  have changes {effect : Effect} {cursor : Cursor} {next : Machine}
      {result : Except MachineError Unit}
      (yielded : handler machine.table machine.slots instruction instruction.cursor =
        .ok (effect, cursor)) (committed : machine.commit effect = ⟨next, result⟩) :
      (⟨next, result⟩ : Outcome Unit).StepsFrom machine.table instruction :=
    committed ▸ commit_change (meets.value yielded)
  have ends := machine.handleEnds instruction handler
  generalize machine.handle instruction handler = outcome at ends ⊢
  cases ends with
  | failed failed => exact .error .keep (meets.error failed)
  | refused yielded committed => exact changes yielded committed
  | leftOver yielded committed left_over =>
      exact .error (changes yielded committed).1 (Or.inr (Or.inr ⟨_, rfl⟩))
  | done yielded committed at_end => exact changes yielded committed

/-- Executing an instruction changes a table as an instruction may. -/
theorem step_change (configuration : Configuration) (machine : Machine)
    (instruction : Instruction) :
    (machine.step configuration instruction).StepsFrom machine.table instruction := by
  have changes {handler : ExecutionHandler} {next : Machine} {result : Except MachineError Unit}
      (registered : executionTable.get? instruction.opcode = some handler)
      (handled : machine.handle instruction handler = ⟨next, result⟩) :
      (⟨next, result⟩ : Outcome Unit).StepsFrom machine.table instruction :=
    handled ▸ handle_change registered
  have ends := machine.stepEnds configuration instruction
  generalize machine.step configuration instruction = outcome at ends ⊢
  cases ends with
  | unsupported missing strict => exact .error .keep missing
  | passed missing lenient => exact .ok .keep
  | executed registered handled => exact .ok (changes registered handled).1
  | failed registered handled fatal =>
      obtain ⟨change, arises⟩ := changes registered handled
      exact .error change (arises _ rfl)
  -- A fault that is passed over leaves what was changed before.
  | skipped registered handled harmless lenient => exact .ok (changes registered handled).1

/-- Executing instructions changes a table as instructions may. -/
theorem run_changes (configuration : Configuration) (executed unsupported : Nat)
    (machine : Machine) (instructions : List Instruction) :
    machine.table.Changes
        (machine.run configuration executed unsupported instructions).machine.table ∧
      ∀ error, (machine.run configuration executed unsupported instructions).result =
          .error error →
        error = .executionLimitExceeded configuration.maxInstructions ∨
          ∃ table, machine.table.Changes table ∧
            ∃ instruction ∈ instructions, error.Arises table instruction := by
  have ends := machine.runEnds configuration executed unsupported instructions
  generalize machine.run configuration executed unsupported instructions = outcome at ends ⊢
  -- A fault arises in the table that the instructions before it have led to.
  induction ends with
  | completed => exact ⟨.refl, fun _ impossible => by cases impossible⟩
  | limited reached =>
      refine ⟨.refl, fun other is => ?_⟩
      cases is
      exact Or.inl rfl
  | @failed _ _ machine _ instruction _ error below stepped =>
      have changed := step_change configuration machine instruction
      rw [stepped] at changed
      refine ⟨.single changed.1, fun other is => Or.inr ?_⟩
      cases is
      exact ⟨machine.table, .refl, instruction, List.mem_cons_self, changed.2 error rfl⟩
  | @continued _ _ machine _ instruction _ _ _ below stepped ends hyp =>
      have changed := step_change configuration machine instruction
      rw [stepped] at changed
      obtain ⟨changes, faults⟩ := hyp
      refine ⟨.head changed.1 changes, fun error is => ?_⟩
      rcases faults error is with limit | ⟨table, later, other, mem, arises⟩
      · exact Or.inl limit
      · exact Or.inr ⟨table, .head changed.1 later, other, List.mem_cons_of_mem _ mem, arises⟩

end Machine

end ShaderMachine
