import ShaderMachine.Proofs.ReachableLayout
import ShaderMachine.Proofs.References
import ShaderMachine.Proofs.RepeatedCalls

/-! # What an instruction sees of a table

The handler of an executed instruction sees the records of the IDs that the instruction refers to,
what its type operands lead to, and the data of the variable that it loads from. Tables that share
these make it do the same, and end in the same fault if it fails.

* **`Table.Shares`** — two tables hold the same about an ID, but for the data of a variable.
* **`Table.ShowsSame`** — two tables show an instruction the same.
* **`Table.ShowsSame.handler_eq`** — then its handler does the same on both. -/

namespace ShaderMachine

/-! ## Shared records -/

/-- Whether two tables hold the same about an ID, but for the data of a variable. -/
def Table.Shares (first second : Table) (id : Id) : Prop :=
  (first.get id).map Record.blank = (second.get id).map Record.blank

namespace Table.Shares

variable {first second : Table} {id : Id}

/-- The same record is shared. -/
theorem of_eq (same : first.get id = second.get id) : first.Shares second id := by
  rw [Shares, same]

/-- A record of a shared ID is the same in the other table, but for the data of a variable. -/
theorem get {record : Record} (shares : first.Shares second id)
    (found : first.get id = .ok record) :
    ∃ other, second.get id = .ok other ∧ record.blank = other.blank := by
  rw [Shares, found] at shares
  cases found' : second.get id with
  | error error =>
      rw [found'] at shares
      cases shares
  | ok other =>
      rw [found'] at shares
      exact ⟨other, rfl, Except.ok.inj shares⟩

/-- What does not look at the data of a variable comes to the same. -/
theorem bind_eq {β : Type} {f : Record → Except MachineError β}
    (blind : ∀ record, f record = f record.blank) (shares : first.Shares second id) :
    (first.get id >>= f) = (second.get id >>= f) := by
  have through (table : Table) :
      (table.get id >>= f) = ((table.get id).map Record.blank >>= f) := by
    cases table.get id with
    | error error => rfl
    | ok record => exact blind record
  rw [through first, through second, shares]

/-- A shared ID stands for the same type. -/
theorem typeOf_eq (shares : first.Shares second id) : first.typeOf id = second.typeOf id := by
  simp only [typeOf, defined, bind_assoc]
  refine shares.bind_eq fun record => ?_
  obtain ⟨name, decorations, definition⟩ := record
  cases definition <;> rfl

/-- A shared ID stands for the same value. -/
theorem value_eq (shares : first.Shares second id) : first.value id = second.value id := by
  simp only [Table.value, defined, bind_assoc]
  refine shares.bind_eq fun record => ?_
  obtain ⟨name, decorations, definition⟩ := record
  cases definition <;> rfl

/-- A shared ID stands for the same imported set. -/
theorem extendedSet_eq (shares : first.Shares second id) :
    Execution.extendedSet first id = Execution.extendedSet second id := by
  refine shares.bind_eq fun record => ?_
  obtain ⟨name, decorations, definition⟩ := record
  cases definition <;> rfl

/-- A shared ID stands for a type of the same size. -/
theorem sizeOf_eq (shares : first.Shares second id) : first.sizeOf id = second.sizeOf id := by
  rw [sizeOf, sizeOf, shares.typeOf_eq]

/-- Shared IDs stand for the same values. -/
theorem mapM_value_eq {ids : List Id} (shares : ∀ id ∈ ids, first.Shares second id) :
    ids.mapM first.value = ids.mapM second.value := by
  induction ids with
  | nil => rfl
  | cons id ids hyp =>
      rw [List.mapM_cons, List.mapM_cons, (shares id List.mem_cons_self).value_eq,
        hyp fun other mem => shares other (List.mem_cons_of_mem id mem)]

end Table.Shares

/-- A record is that of a variable, which is left without its data, or there is nothing to leave
out. -/
theorem Record.blank_cases (record : Record) :
    (∃ contents, record.definition = .var contents ∧
      record.blank.definition = .var { contents with data := [] }) ∨
    record.blank = record ∧ ∀ contents, record.definition ≠ .var contents := by
  rw [blank]
  split
  · rename_i contents is_variable
    exact Or.inl ⟨contents, is_variable, rfl⟩
  · rename_i no_variable
    exact Or.inr ⟨rfl, no_variable⟩

/-- What is shared is the same, or it is a variable in both tables. -/
theorem Table.Shares.eq_or_variables {first second : Table} {id : Id}
    (shares : first.Shares second id) : first.get id = second.get id ∨
      ∃ record record' contents contents', first.get id = .ok record ∧
        second.get id = .ok record' ∧ record.definition = .var contents ∧
        record'.definition = .var contents' ∧ record.blank = record'.blank := by
  cases found : first.get id with
  | error error =>
      rw [Shares, found] at shares
      cases found' : second.get id with
      | error error' =>
          rw [found'] at shares
          cases shares
          exact Or.inl rfl
      | ok record' =>
          rw [found'] at shares
          cases shares
  | ok record =>
      obtain ⟨record', found', blank_eq⟩ := shares.get found
      rw [found']
      -- Only variables have something to blank out, so either both are variables or both are whole.
      rcases record.blank_cases with ⟨contents, is_variable, blank_variable⟩ | ⟨whole, no_variable⟩
      · rcases record'.blank_cases with ⟨contents', is_variable', -⟩ | ⟨whole', no_variable'⟩
        · exact Or.inr ⟨record, record', contents, contents', rfl, rfl, is_variable, is_variable',
            blank_eq⟩
        · rw [blank_eq, whole'] at blank_variable
          exact absurd blank_variable (no_variable' _)
      · rcases record'.blank_cases with ⟨contents', -, blank_variable'⟩ | ⟨whole', -⟩
        · rw [← blank_eq, whole] at blank_variable'
          exact absurd blank_variable' (no_variable _)
        · rw [← whole, blank_eq, whole']
          exact Or.inl rfl

/-- A shared ID that stands for a variable stands for one in the same place in the other table. -/
theorem Table.Shares.exists_variable {first second : Table} {id : Id} {contents : Variable}
    (shares : first.Shares second id) (is_variable : first.variableAt id = .ok contents) :
    ∃ record record' contents', first.get id = .ok record ∧ second.get id = .ok record' ∧
      second.variableAt id = .ok contents' ∧ contents'.storage = contents.storage ∧
      record'.location? = record.location? := by
  obtain ⟨record, found, definition_eq⟩ := variableAt_eq_ok_iff.mp is_variable
  rcases shares.eq_or_variables with same |
    ⟨other, record', contents, contents', found_other, found', is_other, definition_eq', blank_eq⟩
  · rw [found] at same
    exact ⟨record, record, contents, found, same.symm,
      variableAt_eq_ok_iff.mpr ⟨record, same.symm, definition_eq⟩, rfl, rfl⟩
  · cases found.symm.trans found_other
    cases definition_eq.symm.trans is_other
    obtain ⟨storage_eq, location_eq, -⟩ := Record.blank_inv blank_eq definition_eq definition_eq'
    exact ⟨record, record', contents', found, found',
      variableAt_eq_ok_iff.mpr ⟨record', found', definition_eq'⟩, storage_eq.symm,
      location_eq.symm⟩

/-! ## Computations -/

section

variable {first second : Table} {slots others : Slots}

/-- A computed value is checked the same. -/
theorem finishValue_eq {resultType : Id} (type : first.Shares second resultType) (result : Id)
    (bytes : Option Bytes) :
    finishValue first result resultType bytes = finishValue second result resultType bytes := by
  cases bytes with
  | none => rfl
  | some bytes => simp only [finishValue, type.sizeOf_eq]

/-- Constituents are put together the same. -/
theorem foldComposite_eq {type : Id} {constituents : List Id} (shares : first.Shares second type)
    (values : ∀ id ∈ constituents, first.Shares second id) (result : Id) :
    foldComposite first result type constituents =
      foldComposite second result type constituents := by
  rw [foldComposite, foldComposite, shares.sizeOf_eq, Table.Shares.mapM_value_eq values]

/-- The data of a new variable is the same. -/
theorem initialData_eq (size : Nat) {initializer : Option Id}
    (shares : ∀ id ∈ initializer, first.Shares second id) :
    initialData first size initializer = initialData second size initializer := by
  cases initializer with
  | none => rfl
  | some id => simp only [initialData, (shares id rfl).value_eq]

/-- A new variable is the same. -/
theorem createVariable_eq {type : Id} {initializer : Option Id} (shares : first.Shares second type)
    (pointee : ∀ storage pointee, first.typeOf type = .ok (.pointer storage pointee) →
      first.Shares second pointee)
    (initial : ∀ id ∈ initializer, first.Shares second id) (id : Id) (storage : StorageClass) :
    createVariable first type id storage initializer =
      createVariable second type id storage initializer := by
  rw [createVariable, createVariable, ← shares.typeOf_eq]
  cases is_type : first.typeOf type with
  | error error => rfl
  | ok data =>
      cases data with
      | pointer pointerStorage pointee' =>
          simp only [bind, Except.bind, (pointee pointerStorage pointee' is_type).sizeOf_eq,
            initialData_eq _ initial]
      | _ => rfl

/-- What has a size in one of two tables that are alike stands for the same type in both. -/
theorem Table.Alike.typeOf_eq (alike : first.Alike second) {id : Id} {size : Nat}
    (has_size : first.sizeOf id = .ok size) : first.typeOf id = second.typeOf id := by
  obtain ⟨type, is_type, -⟩ := Table.sizeOf_eq_ok_iff.mp has_size
  rw [is_type, alike.typeOf is_type]

/-- A type has floats of the same width. -/
theorem floatWidth_eq (alike : first.Alike second) (layout : first.Layout) {type : Id}
    (shares : first.Shares second type) : first.floatWidth type = second.floatWidth type := by
  rw [Table.floatWidth, Table.floatWidth, ← shares.typeOf_eq]
  cases is_type : first.typeOf type with
  | error error => rfl
  | ok data =>
      cases data with
      | vector members =>
          cases members with
          | nil => rfl
          | cons member members =>
              -- In a table that is laid out the components of a vector have a size.
              have has_size := (layout.typeOf is_type).members member List.mem_cons_self
              simp only [bind, Except.bind, alike.typeOf_eq has_size]
      | _ => rfl

/-- A path of indices through a part with a size leads to the same part. -/
theorem foldlM_memberPart_eq (alike : first.Alike second) (layout : first.Layout) (composite : Id)
    (indices : List Word) {total : Nat} {part : Part} (within : part.Within first total) :
    indices.foldlM (memberPart first composite) part =
      indices.foldlM (memberPart second composite) part := by
  induction indices generalizing part with
  | nil => rfl
  | cons index indices hyp =>
      have same : memberPart first composite part index =
          memberPart second composite part index := by
        rw [memberPart, memberPart, alike.typeOf_eq within.1]
      rw [List.foldlM_cons, List.foldlM_cons, ← same]
      cases member : memberPart first composite part index with
      | error error => rfl
      | ok next => exact hyp (within.memberPart layout member)

/-- The same part is taken out of a composite. -/
theorem extractComposite_eq (alike : first.Alike second) (layout : first.Layout) {composite : Id}
    (shares : first.Shares second composite) (indices : List Word) :
    extractComposite first composite indices = extractComposite second composite indices := by
  rw [extractComposite, extractComposite, ← shares.value_eq]
  cases is_value : first.value composite with
  | error error => rfl
  | ok value =>
      have whole : Part.Within first value.bytes.length ⟨value.type, 0, value.bytes.length⟩ :=
        ⟨layout.value is_value, Nat.le_of_eq (Nat.zero_add _)⟩
      simp only [bind, Except.bind, foldlM_memberPart_eq alike layout composite indices whole]

/-- A float instruction computes the same. -/
theorem evaluateFloats_eq (alike : first.Alike second) (layout : first.Layout) {resultType : Id}
    {operands : List Id} (type : first.Shares second resultType)
    (values : ∀ id ∈ operands, first.Shares second id) (operation : FloatOperation) (result : Id) :
    evaluateFloats first operation resultType result operands =
      evaluateFloats second operation resultType result operands := by
  simp only [evaluateFloats, floatWidth_eq alike layout type, Table.Shares.mapM_value_eq values,
    finishValue_eq type]

/-- An input is loaded the same, whatever data its variable holds. -/
theorem loadBytes_eq_of_input (inputs : slots.inputs = others.inputs) {resultType pointer : Id}
    {contents : Variable} (type : first.Shares second resultType)
    (shares : first.Shares second pointer) (is_variable : first.variableAt pointer = .ok contents)
    (is_input : contents.storage = .input) :
    loadBytes first slots resultType pointer = loadBytes second others resultType pointer := by
  obtain ⟨record, record', contents', found, found', is_variable', storage_eq, location_eq⟩ :=
    shares.exists_variable is_variable
  simp only [loadBytes, type.sizeOf_eq, is_variable, is_variable', found, found', storage_eq,
    is_input, location_eq, input_eq inputs, bind, Except.bind, if_true]

/-- The same is loaded from the same variable. -/
theorem loadBytes_eq_of_get (inputs : slots.inputs = others.inputs) {resultType pointer : Id}
    (type : first.Shares second resultType) (same : first.get pointer = second.get pointer) :
    loadBytes first slots resultType pointer = loadBytes second others resultType pointer := by
  simp only [loadBytes, Table.variableAt, Table.defined, type.sizeOf_eq, same, input_eq inputs]

end

/-! ## Reading the same operands -/

namespace OperandReader

open Execution

variable {β : Type} {instruction : Instruction} {cursor : Cursor}

/-- What comes after a word is the same if it is the same for the word ahead. -/
theorem word_eq {rest other : Word → OperandReader β}
    (same : ∀ word next, cursor.ahead = word :: next.ahead → rest word next = other word next) :
    (readWord instruction >>= rest) cursor = (readWord instruction >>= other) cursor := by
  obtain ⟨base, behind, ahead⟩ := cursor
  cases ahead with
  | nil => rfl
  | cons word ahead => exact same word ⟨base, word :: behind, ahead⟩ rfl

/-- What comes after a word that may be there is the same if it is the same for the word ahead. -/
theorem optional_eq {rest other : Option Word → OperandReader β}
    (same : ∀ next, rest cursor.ahead.head? next = other cursor.ahead.head? next) :
    (readOptional >>= rest) cursor = (readOptional >>= other) cursor := by
  obtain ⟨base, behind, ahead⟩ := cursor
  cases ahead with
  | nil => exact same _
  | cons word ahead => exact same _

/-- What comes after all words is the same if it is the same for the words ahead. -/
theorem words_eq {rest other : List Word → OperandReader β}
    (same : ∀ next, rest cursor.ahead next = other cursor.ahead next) :
    (readRest >>= rest) cursor = (readRest >>= other) cursor :=
  same _

/-- What comes after some IDs is the same if it is the same for the IDs ahead. -/
theorem ids_eq {arity : Nat} {rest other : List Id → OperandReader β}
    (same : ∀ ids next, ids.length = arity → cursor.ahead = ids ++ next.ahead →
      rest ids next = other ids next) :
    (readIds instruction arity >>= rest) cursor = (readIds instruction arity >>= other) cursor := by
  induction arity generalizing cursor rest other with
  | zero => exact same [] cursor rfl rfl
  | succ arity hyp =>
      rw [readIds, bind_assoc, bind_assoc]
      refine word_eq fun id first first_eq => ?_
      rw [bind_assoc, bind_assoc]
      refine hyp fun ids second length_eq second_eq => ?_
      rw [pure_bind, pure_bind]
      refine same (id :: ids) second (congrArg (· + 1) length_eq) ?_
      rw [first_eq, second_eq, List.cons_append]

end OperandReader

/-! ## Handlers -/

/-- The type that the pointer type of a variable declaration points to. -/
def Table.pointee? (table : Table) (instruction : Instruction) : Option Id :=
  match instruction.operandOf? .variableDecl 0 with
  | none => none
  | some type =>
      match table.typeOf type with
      | .ok (.pointer _ pointee) => some pointee
      | _ => none

/-- Tables that are alike have pointer types to the same types. -/
theorem Table.Alike.pointee? {table next : Table} {instruction : Instruction} {pointee : Id}
    (alike : table.Alike next) (points : table.pointee? instruction = some pointee) :
    next.pointee? instruction = some pointee := by
  unfold Table.pointee? at points ⊢
  cases has_type : instruction.operandOf? .variableDecl 0 with
  | none =>
      rw [has_type] at points
      cases points
  | some type =>
      rw [has_type] at points
      simp only at points ⊢
      split at points
      · rename_i is_type
        rw [alike.typeOf is_type]
        exact points
      · cases points

/-- Whether two tables show an instruction the same: what it refers to is shared, what it loads from
is the same or an input, and what a variable that it declares holds is of a shared type. -/
structure Table.ShowsSame (first second : Table) (instruction : Instruction) : Prop where
  /-- The IDs that the instruction refers to are shared. -/
  operands : ∀ id ∈ instruction.idOperands, first.Shares second id
  /-- The variable that it loads from holds the same or is an input. -/
  loaded : ∀ pointer ∈ instruction.loadsFrom?, first.get pointer = second.get pointer ∨
    ∃ contents, first.variableAt pointer = .ok contents ∧ contents.storage = .input
  /-- The type that a declared variable points to is shared. -/
  pointee : ∀ pointee ∈ first.pointee? instruction, first.Shares second pointee

namespace Execution

open OperandReader

variable {first second : Table} {slots others : Slots} {instruction : Instruction}

/-- The IDs that an instruction of a sort refers to. -/
theorem idOperands_eq {opcode : Opcode}
    (known : Opcode.ofNumber? instruction.opcode = some opcode) :
    instruction.idOperands = OperandKind.idsOf (opcode.layout.fixed ++ opcode.layout.optional ++
      opcode.layout.variadic.elim [] (List.replicate instruction.operands.length))
        instruction.operands := by
  rw [Instruction.idOperands, known]

section

variable (same : first.ShowsSame second instruction)

include same

/-- A variable is made the same. -/
theorem variableDecl_eq (known : Opcode.ofNumber? instruction.opcode = some .variableDecl) :
    variableDecl first slots instruction instruction.cursor =
      variableDecl second others instruction instruction.cursor := by
  rw [variableDecl, variableDecl, readVariable, readVariable, bind_assoc, bind_assoc]
  refine word_eq fun type next next_eq => ?_
  rw [bind_assoc, bind_assoc]
  refine word_eq fun id next' next_eq' => ?_
  rw [bind_assoc, bind_assoc]
  refine word_eq fun word last last_eq => ?_
  rw [bind_assoc, bind_assoc]
  refine optional_eq fun leftover => ?_
  have operands_eq : instruction.operands = type :: id :: word :: last.ahead := by
    rw [← last_eq, ← next_eq', ← next_eq]
    rfl
  have refers_eq : instruction.idOperands = type :: last.ahead.take 1 := by
    rw [idOperands_eq known, operands_eq]
    cases last.ahead <;> rfl
  -- The type, its pointee and the initializer are all that the new variable is made of.
  have created (storage : StorageClass) :
      createVariable first type id storage last.ahead.head? =
        createVariable second type id storage last.ahead.head? := by
    refine createVariable_eq (same.operands type ?_) (fun storage pointee is_type => ?_)
      (fun initializer mem => same.operands initializer ?_) id storage
    · rw [refers_eq]
      exact List.mem_cons_self
    · refine same.pointee pointee ?_
      rw [Table.pointee?, Instruction.operandOf?, if_pos known, operands_eq]
      simp only [List.getElem?_cons_zero, is_type, Option.mem_def]
    · rw [refers_eq, List.take_one]
      exact List.mem_cons_of_mem type (Option.mem_toList.mpr mem)
  simp only [created]

/-- The same is loaded. -/
theorem load_eq (inputs : slots.inputs = others.inputs)
    (known : Opcode.ofNumber? instruction.opcode = some .load) :
    load first slots instruction instruction.cursor =
      load second others instruction instruction.cursor := by
  refine word_eq fun resultType next next_eq => ?_
  refine word_eq fun result next' next_eq' => ?_
  refine word_eq fun pointer last last_eq => ?_
  refine optional_eq fun leftover => ?_
  have operands_eq : instruction.operands = resultType :: result :: pointer :: last.ahead := by
    rw [← last_eq, ← next_eq', ← next_eq]
    rfl
  have refers_eq : instruction.idOperands = [resultType, pointer] := by
    rw [idOperands_eq known, operands_eq]
    cases last.ahead <;> rfl
  have type : first.Shares second resultType := same.operands resultType (by simp [refers_eq])
  have loaded : loadBytes first slots resultType pointer =
      loadBytes second others resultType pointer := by
    have is_loaded : pointer ∈ instruction.loadsFrom? := by
      rw [Instruction.loadsFrom?, Instruction.operandOf?, if_pos known, operands_eq]
      rfl
    rcases same.loaded pointer is_loaded with kept | ⟨contents, is_variable, is_input⟩
    · exact loadBytes_eq_of_get inputs type kept
    · exact loadBytes_eq_of_input inputs type (same.operands pointer (by simp [refers_eq]))
        is_variable is_input
  simp only [loaded, finishValue_eq type]

/-- The same is stored. -/
theorem store_eq (known : Opcode.ofNumber? instruction.opcode = some .store) :
    store first slots instruction instruction.cursor =
      store second others instruction instruction.cursor := by
  refine word_eq fun pointer next next_eq => ?_
  refine word_eq fun object last last_eq => ?_
  refine optional_eq fun leftover => ?_
  have operands_eq : instruction.operands = pointer :: object :: last.ahead := by
    rw [← last_eq, ← next_eq]
    rfl
  have refers_eq : instruction.idOperands = [pointer, object] := by
    rw [idOperands_eq known, operands_eq]
    cases last.ahead <;> rfl
  have value : first.Shares second object := same.operands object (by simp [refers_eq])
  simp only [value.value_eq]

/-- The same composite is built. -/
theorem compositeConstruct_eq
    (known : Opcode.ofNumber? instruction.opcode = some .compositeConstruct) :
    compositeConstruct first slots instruction instruction.cursor =
      compositeConstruct second others instruction instruction.cursor := by
  refine word_eq fun resultType next next_eq => ?_
  refine word_eq fun result last last_eq => ?_
  refine words_eq fun leftover => ?_
  have operands_eq : instruction.operands = resultType :: result :: last.ahead := by
    rw [← last_eq, ← next_eq]
    rfl
  have refers_eq : instruction.idOperands = resultType :: last.ahead := by
    rw [idOperands_eq known, operands_eq]
    refine congrArg (resultType :: ·) ((OperandKind.idsOf_replicate _ _).trans ?_)
    exact List.take_of_length_le (by simp only [List.length_cons]; omega)
  have type : first.Shares second resultType := same.operands resultType (by simp [refers_eq])
  have values : ∀ id ∈ last.ahead, first.Shares second id :=
    fun id mem => same.operands id (by simp [refers_eq, mem])
  simp only [foldComposite_eq type values, finishValue_eq type]

/-- The same part is taken out of a composite. -/
theorem compositeExtract_eq (alike : first.Alike second) (layout : first.Layout)
    (known : Opcode.ofNumber? instruction.opcode = some .compositeExtract) :
    compositeExtract first slots instruction instruction.cursor =
      compositeExtract second others instruction instruction.cursor := by
  refine word_eq fun resultType next next_eq => ?_
  refine word_eq fun result next' next_eq' => ?_
  refine word_eq fun composite last last_eq => ?_
  refine words_eq fun leftover => ?_
  have operands_eq : instruction.operands = resultType :: result :: composite :: last.ahead := by
    rw [← last_eq, ← next_eq', ← next_eq]
    rfl
  have refers {id : Id} (mem : id ∈ [resultType, composite]) : id ∈ instruction.idOperands := by
    rw [idOperands_eq known, operands_eq]
    exact List.mem_append_left (OperandKind.idsOf (List.replicate _ .integer) last.ahead) mem
  have type : first.Shares second resultType := same.operands resultType (refers (by simp))
  have part := extractComposite_eq alike layout (same.operands composite (refers (by simp)))
  simp only [part, finishValue_eq type]

/-- A float instruction does the same. -/
theorem floats_eq (alike : first.Alike second) (layout : first.Layout) {opcode : Opcode}
    {arity : Nat} (operation : FloatOperation)
    (known : Opcode.ofNumber? instruction.opcode = some opcode)
    (layout_eq : opcode.layout = ⟨.resultType :: .result :: List.replicate arity .id, [], none⟩) :
    floats operation arity first slots instruction instruction.cursor =
      floats operation arity second others instruction instruction.cursor := by
  refine word_eq fun resultType next next_eq => ?_
  refine word_eq fun result next' next_eq' => ?_
  refine ids_eq fun operands last length_eq last_eq => ?_
  have operands_eq : instruction.operands = resultType :: result :: (operands ++ last.ahead) := by
    rw [← last_eq, ← next_eq', ← next_eq]
    rfl
  have refers_eq : instruction.idOperands = resultType :: operands := by
    rw [idOperands_eq known, operands_eq, layout_eq, Option.elim_none, List.append_nil,
      List.append_nil]
    refine congrArg (resultType :: ·) ((OperandKind.idsOf_replicate _ _).trans ?_)
    exact List.take_left' length_eq
  have type : first.Shares second resultType := same.operands resultType (by simp [refers_eq])
  have values : ∀ id ∈ operands, first.Shares second id :=
    fun id mem => same.operands id (by simp [refers_eq, mem])
  rw [evaluateFloats_eq alike layout type values]

/-- An extended instruction does the same. -/
theorem extInst_eq (alike : first.Alike second) (layout : first.Layout)
    (known : Opcode.ofNumber? instruction.opcode = some .extInst) :
    extInst first slots instruction instruction.cursor =
      extInst second others instruction instruction.cursor := by
  refine word_eq fun resultType next next_eq => ?_
  refine word_eq fun result next' next_eq' => ?_
  refine word_eq fun setId third third_eq => ?_
  refine word_eq fun number fourth fourth_eq => ?_
  have operands_eq :
      instruction.operands = resultType :: result :: setId :: number :: fourth.ahead := by
    rw [← fourth_eq, ← third_eq, ← next_eq', ← next_eq]
    rfl
  have refers_eq : instruction.idOperands = resultType :: setId :: fourth.ahead := by
    rw [idOperands_eq known, operands_eq]
    refine congrArg (resultType :: setId :: ·) ((OperandKind.idsOf_replicate _ _).trans ?_)
    exact List.take_of_length_le (by simp only [List.length_cons]; omega)
  have type : first.Shares second resultType := same.operands resultType (by simp [refers_eq])
  -- The same set is imported, so the same instruction of it is looked up.
  have set_eq := (same.operands setId (by simp [refers_eq])).extendedSet_eq
  rw [set_eq]
  cases extendedSet second setId with
  | error error => rfl
  | ok set =>
      simp only [compute, Except.map, bind, StateT.bind, Except.bind]
      cases set.instruction? number with
      | none => rfl
      | some found =>
          refine ids_eq fun operands last length_eq last_eq => ?_
          have values : ∀ id ∈ operands, first.Shares second id :=
            fun id mem => same.operands id (by simp [refers_eq, last_eq, mem])
          rw [evaluateFloats_eq alike layout type values]

end

end Execution

open Execution in
/-- A handler does the same on tables that show its instruction the same, and ends in the same fault
if it fails. -/
theorem Table.ShowsSame.handler_eq {first second : Table} {slots others : Slots}
    {instruction : Instruction} {handler : ExecutionHandler}
    (same : first.ShowsSame second instruction) (alike : first.Alike second)
    (layout : first.Layout) (inputs : slots.inputs = others.inputs)
    (registered : executionTable.get? instruction.opcode = some handler) :
    handler first slots instruction instruction.cursor =
      handler second others instruction instruction.cursor := by
  obtain ⟨opcode, known, registered⟩ := Option.bind_eq_some_iff.mp registered
  -- Instructions that do not look at the table do the same on any.
  cases opcode with
  | nop | line | noLine | functionParameter | label | returnVoid =>
      cases registered
      rfl
  | variableDecl =>
      cases registered
      exact variableDecl_eq same known
  | load =>
      cases registered
      exact load_eq same inputs known
  | store =>
      cases registered
      exact store_eq same known
  | compositeConstruct =>
      cases registered
      exact compositeConstruct_eq same known
  | compositeExtract =>
      cases registered
      exact compositeExtract_eq same alike layout known
  | fNegate | fAdd | fSub | fMul | fDiv | vectorTimesScalar | dot =>
      cases registered
      exact floats_eq same alike layout _ known rfl
  | extInst =>
      cases registered
      exact extInst_eq same alike layout known
  | _ => cases registered

end ShaderMachine
