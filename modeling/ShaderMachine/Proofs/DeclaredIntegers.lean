import ShaderMachine.Proofs.IntegerLiterals
import ShaderMachine.Proofs.SetupSteps
import ShaderMachine.Proofs.StatementFraming

/-! # Declared integer types

The encoder knows an integer type behind the statement that declares it, as long as no other
statement has the same result. When the module is set up, the instruction of that statement declares
the same type.

* **`DeclaresInteger`** — statements declare an ID as an integer type of a width.
* **`Encoder.IsEncoded.scalars_note`** — a statement with another result leaves a type as it is.
* **`Encoder.Encodes.append_inv`** — statements are encoded behind those above them.
* **`Encoder.Encodes.exists_typeInt`** — where the type is declared, and that the encoder knows it.
* **`Setup.typeOf_of_typeInt`** — the type that is declared when the module is set up. -/

namespace ShaderMachine

/-- Whether one of some statements declares the ID of a number as an integer type of a width, and
none below it has a result of that number. -/
def DeclaresInteger (numbers : IdNumbers) (statements : List Statement) (type : Id) (width : ℕ) :
    Prop :=
  ∃ above declaration below, statements = above ++ declaration :: below ∧
    declaration.opcode = .typeInt ∧ declaration.result.bind numbers.get? = some type ∧
    declaration.operands.head?.bind Operand.integerValue? = some (width : ℤ) ∧
    ∀ other ∈ below, other.result.bind numbers.get? ≠ some type

/-! ## Encoding a type -/

/-- What declares a scalar type has it as its result, which stands in front. -/
theorem Scalar.ofDeclaration?_inv {opcode : Opcode} {operands : List Word} {id : Id}
    {scalar : Scalar} (declares : ofDeclaration? opcode operands = some (id, scalar)) :
    ∃ kinds rest, opcode.layout.fixed = .result :: kinds ∧ operands = id :: rest := by
  unfold ofDeclaration? at declares
  split at declares
  · cases declares
    exact ⟨_, _, rfl, rfl⟩
  · cases declares
    exact ⟨_, _, rfl, rfl⟩
  · cases declares

namespace Encoder

variable {encoder : Encoder} {statement : Statement} {instruction : Instruction} {type : Id}

/-- An encoded statement that starts with its result starts with the number of its result. -/
theorem IsEncoded.exists_head (encoded : encoder.IsEncoded statement instruction)
    {kinds : List OperandKind} (layout : statement.opcode.layout.fixed = .result :: kinds) :
    ∃ id rest, instruction.operands = id :: rest ∧
      statement.result.bind encoder.ids.get? = some id := by
  obtain ⟨parts, by_operand, words_eq, -⟩ := encoded.exists_parts
  obtain ⟨name, result⟩ := Option.isSome_iff_exists.mp
    (encoded.kept (by rw [layout]; exact List.mem_cons_self))
  rw [Statement.items, layout, placeResult, if_pos rfl, result] at by_operand
  obtain ⟨_, others, ⟨id, rfl, number⟩, -, rfl⟩ := List.forall₂_cons_left_iff.mp by_operand
  exact ⟨id, others.flatten, words_eq, by rw [result]; exact number⟩

/-- The type that an encoded statement declares is its result. -/
theorem IsEncoded.result_of_ofDeclaration? (encoded : encoder.IsEncoded statement instruction)
    {id : Id} {scalar : Scalar}
    (declares : Scalar.ofDeclaration? statement.opcode instruction.operands = some (id, scalar)) :
    statement.result.bind encoder.ids.get? = some id := by
  obtain ⟨kinds, rest, layout, operands_eq⟩ := Scalar.ofDeclaration?_inv declares
  obtain ⟨head, others, head_eq, result⟩ := encoded.exists_head layout
  rw [result, (List.cons.inj (head_eq.symm.trans operands_eq)).1]

/-- A statement with another result leaves what the encoder knows of a type as it is. -/
theorem IsEncoded.scalars_note (encoded : encoder.IsEncoded statement instruction)
    (other : statement.result.bind encoder.ids.get? ≠ some type) :
    (encoder.note statement instruction.words).scalars[type]? = encoder.scalars[type]? := by
  change (encoder.scalars.note statement.opcode instruction.operands)[type]? = _
  unfold ScalarTable.note
  cases declares : Scalar.ofDeclaration? statement.opcode instruction.operands with
  | none => rfl
  | some pair =>
      have different : pair.1 ≠ type := by
        rintro rfl
        exact other (encoded.result_of_ofDeclaration? declares)
      simp [Std.HashMap.getElem?_insert, different]

/-- A run over the operands of an integer type writes its ID, its width and its signedness. -/
theorem Run.exists_typeInt {operands : List Operand} {next : Progress}
    (run : Run encoder statement ⟨[], operands, none⟩ Opcode.typeInt.layout.fixed next) :
    ∃ id widthOperand rest width signedness, operands = widthOperand :: rest ∧
      encoder.operandWords statement.line none .integer widthOperand = .ok [width] ∧
      next.words = [id, width, signedness] := by
  have kinds_eq : Opcode.typeInt.layout.fixed = [.result, .integer, .integer] := rfl
  rw [kinds_eq] at run
  cases run with
  | operand no_result => exact absurd rfl no_result
  | @result _ _ _ name id named number run =>
      cases run with
      | @operand _ width widthOperand _ _ _ _ _ _ first_written run =>
          cases run with
          | @operand _ signedness _ _ _ _ _ _ _ second_written run =>
              cases run
              obtain ⟨width, rfl⟩ := length_of_integerWord? first_written
              obtain ⟨signedness, rfl⟩ := length_of_integerWord? second_written
              exact ⟨id, widthOperand, _, width, signedness, rfl, first_written, rfl⟩

/-- What a declaration of an integer type is encoded as. -/
theorem IsEncoded.exists_typeInt (encoded : encoder.IsEncoded statement instruction)
    (opcode : statement.opcode = .typeInt) {width : ℕ}
    (is_width : statement.operands.head?.bind Operand.integerValue? = some (width : ℤ)) :
    ∃ id signedness, instruction.operands = [id, UInt32.ofNat width, signedness] ∧
      statement.result.bind encoder.ids.get? = some id := by
  have layout : statement.opcode.layout.fixed = [.result, .integer, .integer] := by
    rw [opcode]
    rfl
  obtain ⟨id, rest, head_eq, result⟩ := encoded.exists_head layout
  obtain ⟨kinds, next, admits, run, -, words_eq⟩ :=
    Run.of_bodyWords encoded.kept encoded.operands
  rw [opcode] at admits
  obtain rfl := OperandLayout.eq_of_admits rfl rfl admits
  obtain ⟨first, widthOperand, others, word, signedness, operands_eq, written, run_words⟩ :=
    run.exists_typeInt
  rw [operands_eq] at is_width
  have word_eq : word = UInt32.ofNat width := by
    simp only [operandWords, integerWord?_eq is_width] at written
    split at written
    · cases written
      exact ofInt_natCast width
    · cases written
  rw [run_words] at words_eq
  rw [← words_eq] at head_eq ⊢
  obtain ⟨rfl, -⟩ := List.cons.inj head_eq
  exact ⟨first, signedness, by rw [word_eq], result⟩

/-! ## Statements one after the other -/

/-- Behind statements IDs are numbered as before. -/
@[simp] theorem ids_behind (encoded : List (Statement × List Word)) :
    (encoder.behind encoded).ids = encoder.ids := by
  induction encoded generalizing encoder with
  | nil => rfl
  | cons pair encoded hyp => exact hyp

/-- Statements that are encoded are those above a place and those below it. -/
theorem Encodes.append_inv {above below : List Statement} {instructions : List Instruction}
    (encodes : encoder.Encodes (above ++ below) instructions) :
    ∃ upper lower, instructions = upper ++ lower ∧ encoder.Encodes above upper ∧
      (encoder.behind (above.zip (upper.map Instruction.words))).Encodes below lower := by
  induction above generalizing encoder instructions with
  | nil => exact ⟨[], instructions, rfl, .nil encoder, encodes⟩
  | cons statement above hyp =>
      cases encodes with
      | cons encoded encodes =>
          obtain ⟨upper, lower, rfl, front, back⟩ := hyp encodes
          exact ⟨_ :: upper, lower, rfl, .cons encoded front, back⟩

/-- Statements with other results leave what the encoder knows of a type as it is. -/
theorem Encodes.scalars_behind {statements : List Statement} {instructions : List Instruction}
    (encodes : encoder.Encodes statements instructions)
    (others : ∀ other ∈ statements, other.result.bind encoder.ids.get? ≠ some type) :
    (encoder.behind (statements.zip (instructions.map Instruction.words))).scalars[type]? =
      encoder.scalars[type]? := by
  induction encodes with
  | nil => rfl
  | cons encoded _ hyp =>
      rw [List.forall_mem_cons] at others
      exact (hyp others.2).trans (encoded.scalars_note others.1)

/-- An integer type that is declared is one of the instructions, and from then on the encoder knows
it. -/
theorem Encodes.exists_typeInt {statements : List Statement} {instructions : List Instruction}
    {width : ℕ} (encodes : encoder.Encodes statements instructions)
    (declares : DeclaresInteger encoder.ids statements type width) :
    ∃ first declaration between signedness, instructions = first ++ declaration :: between ∧
      Opcode.ofNumber? declaration.opcode = some .typeInt ∧
      declaration.operands = [type, UInt32.ofNat width, signedness] ∧
      (encoder.behind (statements.zip (instructions.map Instruction.words))).scalars[type]? =
        some (.int (UInt32.ofNat width) (signedness != 0)) := by
  obtain ⟨above, statement, below, rfl, opcode, result, is_width, others⟩ := declares
  obtain ⟨first, rest, rfl, front, back⟩ := encodes.append_inv
  cases back with
  | @cons _ _ declaration _ between encoded back =>
      obtain ⟨id, signedness, operands_eq, is_result⟩ := encoded.exists_typeInt opcode is_width
      rw [ids_behind, result] at is_result
      cases is_result
      refine ⟨first, declaration, between, signedness, rfl, ?_, operands_eq, ?_⟩
      · rw [encoded.known, opcode]
      · have length_eq := front.isWritten.length_eq
        rw [← ids_behind (above.zip (first.map Instruction.words))] at others
        have unchanged := back.scalars_behind others
        rw [List.map_append, List.zip_append (by simpa using length_eq), behind,
          List.foldl_append]
        refine unchanged.trans ?_
        change (ScalarTable.note _ statement.opcode declaration.operands)[type]? = _
        rw [opcode, operands_eq]
        exact Std.HashMap.getElem?_insert_self

end Encoder

/-! ## Setting a type up -/

/-- An integer type is declared with its width and its signedness. -/
theorem Setup.typeOf_of_typeInt {configuration : Configuration} {setup next : Setup}
    {instruction : Instruction} {id : Id} {width signedness : Word} {last : Cursor}
    (operands_eq : instruction.operands = [id, width, signedness])
    (handled : typeInt configuration setup instruction instruction.cursor = .ok (next, last)) :
    next.table.typeOf id = .ok (.int width (signedness != 0)) := by
  obtain ⟨id', first, first_eq, handled⟩ := OperandReader.exists_word handled
  obtain ⟨width', second, second_eq, handled⟩ := OperandReader.exists_word handled
  obtain ⟨signedness', third, third_eq, handled⟩ := OperandReader.exists_word handled
  have read := operands_eq.symm.trans first_eq
  rw [second_eq, third_eq] at read
  simp only [List.cons.injEq] at read
  obtain ⟨rfl, rfl, rfl, -⟩ := read
  split at handled
  · obtain ⟨table, defined, rfl⟩ := exists_of_withType handled
    exact Table.typeOf_of_define defined
  · cases handled

end ShaderMachine
