import ShaderMachine.Proofs.NumericIds
import ShaderMachine.Proofs.OperandLoops
import ShaderMachine.Proofs.PackedText
import ShaderMachine.Proofs.SpelledOperand

/-! # Instructions come back from their spelling

The words of an instruction that fill its layout are decoded without anything left over, what is
spelt for each operand is one token, and the statement with these operands is encoded as the words.

* **`OperandLayout.Fills`** — the words are what an instruction of a layout takes.
* **`exists_operand`** — one operand is decoded, spelt and encoded again.
* **`exists_run`** — so are all operands of an instruction.
* **`Encoder.bodyWords_constant`** — how a constant is encoded, which depends on its type.
* **`exists_statement`** — an instruction is encoded again from the statement that it is spelt as.
  -/

namespace ShaderMachine

/-! ## Words that fill a layout -/

/-- Whether words are what an operand of a kind takes. A constant takes as many words as the width
of its type says; a string may not hold the end of a line, which no token of assembly text spans. -/
def OperandKind.Accepts (width : Option Word) : OperandKind → List Word → Prop
  | .resultType, words | .result, words | .id, words => ∃ id, words = [id] ∧ IsNumericId id
  | .integer, words | .extended, words | .enumerant _, words => ∃ word, words = [word]
  | .string, words =>
      ∃ text : String, '\x00' ∉ text.toList ∧ '\n' ∉ text.toList ∧ words = packString text
  | .constant, words => words.length = constantLength width

/-- Whether words are the operands of an instruction of a layout, with none left over. -/
def OperandLayout.Fills (layout : OperandLayout) (width : Option Word) (words : List Word) : Prop :=
  ∃ kinds parts, layout.Admits kinds ∧ List.Forall₂ (OperandKind.Accepts width) kinds parts ∧
    words = parts.flatten

/-- An operand takes at least one word. -/
theorem OperandKind.Accepts.ne_nil {width : Option Word} {kind : OperandKind} {part : List Word}
    (accepts : kind.Accepts width part) : part ≠ [] := by
  cases kind with
  | resultType | result | id =>
      obtain ⟨id, rfl, -⟩ := accepts
      simp
  | integer | extended | enumerant =>
      obtain ⟨word, rfl⟩ := accepts
      simp
  | string =>
      obtain ⟨text, -, -, rfl⟩ := accepts
      exact Cursor.packString_ne_nil text
  | constant =>
      rintro rfl
      rw [Accepts, constantLength] at accepts
      split_ifs at accepts

/-! ## One operand -/

/-- Every character of a numeric name may stand in the name of an ID. -/
theorem isIdChar_of_mem_toString {id : Id} {c : Char} (mem : c ∈ (toString id).toList) :
    isIdChar c = true := by
  rw [toList_toString_id] at mem
  simp [isIdChar, Char.isAlphanum, isDigit_of_mem_digits mem]

/-- A numeric name after a percent sign is a token. -/
theorem lexesTo_reference (id : Id) :
    LexesTo (DecodedOperand.id id).spell.toList (.id (toString id)) := by
  have nonempty : (toString id).toList ≠ [] := by
    rw [toList_toString_id]
    exact Nat.toDigits_ne_nil
  have lexes := lexesTo_id nonempty fun _ => isIdChar_of_mem_toString
  rw [String.ofList_toList] at lexes
  rw [DecodedOperand.spell, String.toList_append]
  exact lexes

/-- An ID is read as an operand. -/
theorem readsAs_id (id : Id) : ReadsAs (DecodedOperand.id id).spell (.id (toString id)) := by
  refine ⟨?_, .id (toString id), lexesTo_reference id, rfl⟩
  rw [DecodedOperand.spell, String.toList_append, List.mem_append, not_or]
  exact ⟨by simp, newline_not_mem (fun _ => isIdChar_of_mem_toString) rfl⟩

/-- What one operand comes to: it is `decoded` from its words, its spelling is read as `operand`,
and encoding that gives its words. -/
structure Carries (decoder : Decoder) (decoding : Decoding) (kind : OperandKind) (part : List Word)
    (after : Cursor) (decoded : DecodedOperand) (operand : Operand) : Prop where
  /-- The words are read as the decoded operand. -/
  read : decoder.readOperand decoding kind = .ok (decoded, after)
  /-- The spelling is read as the operand. -/
  reads : ReadsAs decoded.spell operand
  /-- The operand has no name but those of numeric IDs. -/
  named : ∀ name ∈ operand.idName?, IsIdName name
  /-- A result type is an ID. -/
  typed : kind = .resultType → ∃ id, part = [id] ∧ decoded = .id id
  /-- The operand is encoded as the words. -/
  written : ∀ encoder : Encoder, encoder.scalars = decoder.scalars →
    encoder.ids.Keeps operand.idName?.toList → ∀ line,
      encoder.operandWords line decoding.resultType kind operand = .ok part

/-- A word that is no ID is carried over if its spelling is encoded as the word. -/
theorem carries_word {decoder : Decoder} {decoding : Decoding} {kind : OperandKind}
    {word : Word} {rest behind : List Word} {base : ℕ} {make : Word → DecodedOperand}
    (position : decoding.cursor = ⟨base, behind, word :: rest⟩)
    (read : decoder.readOperand decoding kind = Decoder.wordOperand decoding.cursor make)
    (untyped : kind ≠ .resultType) {operand : Operand} (reads : ReadsAs (make word).spell operand)
    (no_id : operand.idName? = none)
    (written : ∀ (encoder : Encoder) line,
      encoder.operandWords line decoding.resultType kind operand = .ok [word]) :
    Carries decoder decoding kind [word] ⟨base, word :: behind, rest⟩ (make word) operand where
  read := by
    rw [read, position]
    rfl
  reads := reads
  named := by
    rw [no_id]
    simp
  typed equal := absurd equal untyped
  written encoder _ _ line := written encoder line

/-- A reference to an ID is carried over. -/
theorem carries_id {decoder : Decoder} {decoding : Decoding} {kind : OperandKind} {id : Id}
    {rest behind : List Word} {base : ℕ}
    (position : decoding.cursor = ⟨base, behind, id :: rest⟩) (numeric : IsNumericId id)
    (reference : kind = .id ∨ kind = .resultType) :
    Carries decoder decoding kind [id] ⟨base, id :: behind, rest⟩ (.id id) (.id (toString id)) where
  read := by
    rcases reference with rfl | rfl <;> rw [Decoder.readOperand, position] <;> rfl
  reads := readsAs_id id
  named := by
    rintro name ⟨⟩
    exact ⟨id, rfl, numeric⟩
  typed _ := ⟨id, rfl, rfl⟩
  written encoder _ keeps line := by
    have number : encoder.ids.get? (toString id) = some id := keeps id (by simp [Operand.idName?])
    rcases reference with rfl | rfl
    · rw [Encoder.operandWords, Encoder.idWord, number]
      rfl
    · rw [Encoder.operandWords, Encoder.idWord, number]
      rfl

/-- An operand is decoded from its words, and what is spelt for it is encoded as these words. -/
theorem exists_operand (decoder : Decoder) {decoding : Decoding} {kind : OperandKind}
    {part rest behind : List Word} {base : ℕ} (not_result : kind ≠ .result)
    (position : decoding.cursor = ⟨base, behind, part ++ rest⟩)
    (accepts : kind.Accepts
      ((decoding.resultType.bind fun id => decoder.scalars[id]?).map Scalar.width) part)
    (last : kind = .constant → rest = []) :
    ∃ decoded operand,
      Carries decoder decoding kind part ⟨base, part.reverse ++ behind, rest⟩ decoded operand := by
  -- Every kind is spelt in its own way; IDs, strings and constants take words of their own.
  cases kind with
  | result => exact absurd rfl not_result
  | resultType =>
      obtain ⟨id, rfl, numeric⟩ := accepts
      exact ⟨_, _, carries_id position numeric (Or.inr rfl)⟩
  | id =>
      obtain ⟨id, rfl, numeric⟩ := accepts
      exact ⟨_, _, carries_id position numeric (Or.inl rfl)⟩
  | integer =>
      obtain ⟨word, rfl⟩ := accepts
      obtain ⟨operand, reads, no_id, encoded, -⟩ := exists_integer word
      have read : decoder.readOperand decoding .integer =
          Decoder.wordOperand decoding.cursor .literal := rfl
      have carried : Carries decoder decoding .integer [word] ⟨base, word :: behind, rest⟩
          (.literal word) operand := by
        refine carries_word position read nofun reads no_id ?_
        intro encoder line
        simp only [Encoder.operandWords, encoded]
        rfl
      exact ⟨_, operand, carried⟩
  | extended =>
      obtain ⟨word, rfl⟩ := accepts
      obtain ⟨isGlsl, read⟩ : ∃ isGlsl, decoder.readOperand decoding .extended =
          Decoder.wordOperand decoding.cursor (.extended isGlsl) := ⟨_, rfl⟩
      obtain ⟨operand, reads, no_id, encoded⟩ := exists_extended isGlsl word
      have carried : Carries decoder decoding .extended [word] ⟨base, word :: behind, rest⟩
          (.extended isGlsl word) operand := by
        refine carries_word position read nofun reads no_id ?_
        intro encoder line
        simp only [Encoder.operandWords, encoded]
      exact ⟨_, operand, carried⟩
  | enumerant family =>
      obtain ⟨word, rfl⟩ := accepts
      obtain ⟨operand, reads, no_id, encoded⟩ := exists_enumerant family word
      have read : decoder.readOperand decoding (.enumerant family) =
          Decoder.wordOperand decoding.cursor (.enumerant family) := rfl
      have carried : Carries decoder decoding (.enumerant family) [word]
          ⟨base, word :: behind, rest⟩ (.enumerant family word) operand := by
        refine carries_word position read nofun reads no_id ?_
        intro encoder line
        simp only [Encoder.operandWords, encoded]
      exact ⟨_, operand, carried⟩
  | string =>
      obtain ⟨text, no_nul, no_newline, rfl⟩ := accepts
      have found := Cursor.literalString_packString no_nul base behind rest
      refine ⟨.str text, .str text, ?_, ?_, nofun, nofun, fun _ _ _ _ => rfl⟩
      · rw [Decoder.readOperand, position]
        simp only [found]
      · exact ⟨newline_not_mem_quoteBare no_newline, _, lexesTo_str text, rfl⟩
  | constant =>
      -- The width of a constant comes from the scalars that decoder and encoder share.
      obtain ⟨operand, reads, no_id, encoded⟩ := exists_constant accepts
      refine ⟨_, operand, ?_, reads, ?_, nofun, fun encoder same _ line => ?_⟩
      · rw [Decoder.readOperand, position, last rfl]
        simp [Cursor.rest, Cursor.drained]
      · rw [no_id]
        simp
      · rw [Encoder.operandWords, same]
        exact encoded line

/-- Taking an operand that is no result puts it after the others. -/
theorem takeOperand_of_carries {decoder : Decoder} {decoding : Decoding} {kind : OperandKind}
    {part : List Word} {after : Cursor} {decoded : DecodedOperand} {operand : Operand}
    (not_result : kind ≠ .result)
    (carries : Carries decoder decoding kind part after decoded operand) :
    decoder.takeOperand decoding kind =
      .ok ⟨after, decoding.result,
        if kind = .resultType then part.getLast? else decoding.resultType,
        decoded :: decoding.operands⟩ := by
  rw [Decoder.takeOperand, carries.read]
  by_cases typed : kind = .resultType
  · obtain ⟨id, rfl, rfl⟩ := carries.typed typed
    subst typed
    rfl
  · rw [if_neg typed]
    simp only [Except.mapError, bind, Except.bind]
    split
    · exact absurd rfl not_result
    · exact absurd rfl typed
    · rfl

/-! ## All operands -/

/-- Whether operands of the given kinds can follow each other: there is at most one result, and a
constant stands last, after a result type whose width is the given one. -/
def WellPlaced (scalars : ScalarTable) (width : Option Word) :
    Option Id → List OperandKind → List (List Word) → Prop
  | _, .resultType :: kinds, part :: parts => WellPlaced scalars width part.getLast? kinds parts
  | type, .result :: kinds, _ :: parts =>
      .result ∉ kinds ∧ WellPlaced scalars width type kinds parts
  | type, .constant :: kinds, _ :: _ =>
      kinds = [] ∧ (type.bind fun id => scalars[id]?).map Scalar.width = width
  | type, _ :: kinds, _ :: parts => WellPlaced scalars width type kinds parts
  | _, _, _ => True

/-- Operands after the first one are still well placed. -/
theorem WellPlaced.tail {scalars : ScalarTable} {width : Option Word} {type : Option Id}
    {kind : OperandKind} {kinds : List OperandKind} {part : List Word} {parts : List (List Word)}
    (placed : WellPlaced scalars width type (kind :: kinds) (part :: parts)) :
    WellPlaced scalars width (if kind = .resultType then part.getLast? else type) kinds parts := by
  cases kind with
  | resultType => exact placed
  | result => exact placed.2
  | constant =>
      obtain ⟨rfl, -⟩ := placed
      simp [WellPlaced]
  | _ => exact placed

/-- What the operands of an instruction come to: they are decoded with no word left over, their
spellings are read as operands, and encoding these gives the words. -/
structure CarriesAll (decoder : Decoder) (decoding : Decoding) (kinds : List OperandKind)
    (parts : List (List Word)) (next : Decoding) (decoded : List DecodedOperand)
    (operands : List Operand) : Prop where
  /-- The operands are decoded. -/
  run : decoder.Run decoding kinds next
  /-- No word is left over. -/
  at_end : next.cursor.isEmpty = true
  /-- The decoded operands come after those before them. -/
  operands_eq : next.operands = decoded.reverse ++ decoding.operands
  /-- Each spelling is read as an operand. -/
  reads : List.Forall₂ (fun decoded operand => ReadsAs decoded.spell operand) decoded operands
  /-- The operands have no names but those of numeric IDs. -/
  named : ∀ operand ∈ operands, ∀ name ∈ operand.idName?, IsIdName name
  /-- Without a result among the operands none is found. -/
  no_result : .result ∉ kinds → next.result = decoding.result
  /-- A result among the operands is found. -/
  result : .result ∈ kinds → ∃ id, next.result = some id ∧ IsNumericId id
  /-- The operands are encoded as the words. -/
  written : ∀ (encoder : Encoder) (statement : Statement) (words : List Word),
    encoder.scalars = decoder.scalars → statement.result = next.result.map toString →
    encoder.ids.Keeps (statement.result.toList ++ operands.filterMap Operand.idName?) →
    ∃ type, encoder.Run statement ⟨words, operands, decoding.resultType⟩ kinds
      ⟨words ++ parts.flatten, [], type⟩

/-- The width matters to constants alone. -/
theorem OperandKind.Accepts.congr_width {width width' : Option Word} {kind : OperandKind}
    {part : List Word} (accepts : kind.Accepts width part)
    (equal : kind = .constant → width' = width) : kind.Accepts width' part := by
  cases kind with
  | constant =>
      rw [equal rfl]
      exact accepts
  | _ => exact accepts

/-- The result of an instruction is carried over before its other operands. -/
theorem CarriesAll.cons_result {decoder : Decoder} {decoding : Decoding}
    {kinds : List OperandKind} {parts : List (List Word)} {base : ℕ} {behind : List Word} {id : Id}
    {next : Decoding} {decoded : List DecodedOperand} {operands : List Operand}
    (position : decoding.cursor = ⟨base, behind, id :: parts.flatten⟩) (numeric : IsNumericId id)
    (once : .result ∉ kinds)
    (rest : CarriesAll decoder
      { decoding with cursor := ⟨base, id :: behind, parts.flatten⟩, result := some id }
      kinds parts next decoded operands) :
    CarriesAll decoder decoding (.result :: kinds) ([id] :: parts) next decoded operands where
  run := by
    refine .cons ?_ ?_ rest.run
    · rw [Decoder.takeOperand, Decoder.readOperand, position]
      rfl
    · rw [position]
      simp [Cursor.remaining]
  at_end := rest.at_end
  operands_eq := rest.operands_eq
  reads := rest.reads
  named := rest.named
  no_result out := absurd List.mem_cons_self out
  result _ := ⟨id, rest.no_result once, numeric⟩
  written := by
    intro encoder statement words same result_eq keeps
    -- The statement is named after the number of the result, which the encoder keeps.
    have named : statement.result = some (toString id) := by
      rw [result_eq, rest.no_result once]
      rfl
    have number : encoder.idWord statement.line (toString id) = .ok id := by
      rw [Encoder.idWord, keeps id (by simp [named])]
    obtain ⟨type, run⟩ := rest.written encoder statement (words ++ [id]) same result_eq keeps
    refine ⟨type, ?_⟩
    rw [List.append_assoc] at run
    exact .result named number run

/-- An operand that is no result is carried over before the others. -/
theorem CarriesAll.cons_operand {decoder : Decoder} {decoding : Decoding} {kind : OperandKind}
    {kinds : List OperandKind} {part : List Word} {parts : List (List Word)} {base : ℕ}
    {behind : List Word} {first : DecodedOperand} {operand : Operand} {next : Decoding}
    {decoded : List DecodedOperand} {operands : List Operand} (not_result : kind ≠ .result)
    (position : decoding.cursor = ⟨base, behind, part ++ parts.flatten⟩) (nonempty : part ≠ [])
    (carries : Carries decoder decoding kind part ⟨base, part.reverse ++ behind, parts.flatten⟩
      first operand)
    (rest : CarriesAll decoder
      ⟨⟨base, part.reverse ++ behind, parts.flatten⟩, decoding.result,
        if kind = .resultType then part.getLast? else decoding.resultType,
        first :: decoding.operands⟩
      kinds parts next decoded operands) :
    CarriesAll decoder decoding (kind :: kinds) (part :: parts) next (first :: decoded)
      (operand :: operands) where
  run := by
    refine .cons (takeOperand_of_carries not_result carries) ?_ rest.run
    rw [position]
    have := List.length_pos_iff.mpr nonempty
    simp [Cursor.remaining]
    omega
  at_end := rest.at_end
  operands_eq := by
    rw [rest.operands_eq]
    simp
  reads := .cons carries.reads rest.reads
  named := by
    rw [List.forall_mem_cons]
    exact ⟨carries.named, rest.named⟩
  no_result out := rest.no_result fun mem => out (List.mem_cons_of_mem _ mem)
  result mem := rest.result (List.mem_of_ne_of_mem not_result.symm mem)
  written := by
    intro encoder statement words same result_eq keeps
    -- The names of all operands are kept, so those of each are.
    have first_keeps : encoder.ids.Keeps operand.idName?.toList := by
      refine keeps.mono fun name mem => ?_
      have : operand.idName? = some name := by simpa using mem
      simp [this]
    have rest_keeps : encoder.ids.Keeps
        (statement.result.toList ++ operands.filterMap Operand.idName?) := by
      refine keeps.mono (List.append_subset.mpr ⟨by simp, fun name mem => ?_⟩)
      obtain ⟨other, other_mem, named⟩ := List.mem_filterMap.mp mem
      exact List.mem_append_right _
        (List.mem_filterMap.mpr ⟨other, List.mem_cons_of_mem _ other_mem, named⟩)
    obtain ⟨type, run⟩ := rest.written encoder statement (words ++ part) same result_eq rest_keeps
    refine ⟨type, ?_⟩
    rw [List.append_assoc] at run
    exact .operand not_result (carries.written encoder same first_keeps statement.line) run

/-- Well-placed operands are decoded from their words, and what is spelt for them is encoded as
these words. -/
theorem exists_run (decoder : Decoder) {width : Option Word} {kinds : List OperandKind}
    {parts : List (List Word)} (accepts : List.Forall₂ (OperandKind.Accepts width) kinds parts)
    (decoding : Decoding) (base : ℕ) (behind : List Word)
    (position : decoding.cursor = ⟨base, behind, parts.flatten⟩)
    (placed : WellPlaced decoder.scalars width decoding.resultType kinds parts) :
    ∃ next decoded operands, CarriesAll decoder decoding kinds parts next decoded operands := by
  -- The induction is on the kinds and their words; decoder and encoder move on together.
  induction accepts generalizing decoding behind with
  | nil =>
      refine ⟨decoding, [], [], .nil decoding, ?_, rfl, .nil, by simp, fun _ => rfl, by simp, ?_⟩
      · rw [position]
        rfl
      · intro encoder statement words _ _ _
        refine ⟨decoding.resultType, ?_⟩
        rw [List.flatten_nil, List.append_nil]
        exact .nil _
  | @cons kind part kinds parts first others hyp =>
      by_cases is_result : kind = .result
      · subst is_result
        obtain ⟨id, rfl, numeric⟩ := first
        obtain ⟨once, placed⟩ := placed
        obtain ⟨next, decoded, operands, rest⟩ := hyp
          { decoding with cursor := ⟨base, id :: behind, parts.flatten⟩, result := some id }
          (id :: behind) rfl placed
        exact ⟨next, decoded, operands, .cons_result position numeric once rest⟩
      · -- A constant takes all words that are left, so none may come after it.
        have last (constant : kind = .constant) : parts.flatten = [] := by
          subst constant
          obtain ⟨rfl, -⟩ := placed
          cases others
          rfl
        have accepted := first.congr_width fun constant => by
          subst constant
          exact placed.2
        obtain ⟨decoded, operand, carries⟩ :=
          exists_operand decoder is_result position accepted last
        obtain ⟨next, others_decoded, operands, rest⟩ := hyp ⟨_, _, _, _⟩ _ rfl placed.tail
        exact ⟨next, decoded :: others_decoded, operand :: operands,
          .cons_operand is_result position first.ne_nil carries rest⟩

/-! ## Instructions -/

/-- Operands with no constant among them are well placed if there is at most one result. -/
theorem wellPlaced_of_count {scalars : ScalarTable} {width : Option Word} {type : Option Id}
    {kinds : List OperandKind} (no_constant : .constant ∉ kinds) (once : kinds.count .result ≤ 1)
    (parts : List (List Word)) : WellPlaced scalars width type kinds parts := by
  induction kinds generalizing type parts with
  | nil => simp [WellPlaced]
  | cons kind kinds hyp =>
      cases parts with
      | nil => simp [WellPlaced]
      | cons part parts =>
          rw [List.mem_cons, not_or] at no_constant
          have rest (type : Option Id) (fewer : kinds.count .result ≤ 1) :
              WellPlaced scalars width type kinds parts := hyp no_constant.2 fewer parts
          rw [List.count_cons] at once
          cases kind with
          | constant => exact absurd rfl no_constant.1
          | result =>
              have none_left : kinds.count .result = 0 := by simpa using once
              exact ⟨List.count_eq_zero.mp none_left, rest type (by omega)⟩
          | _ => exact rest _ (by simpa using once)

namespace OperandLayout

variable {layout : OperandLayout} {kinds : List OperandKind}

/-- Where nothing repeats, only operands that may be there follow those that are always there. -/
theorem prefix_of_admits (none_repeats : layout.variadic = none) (admits : layout.Admits kinds) :
    ∃ others, others <+: layout.optional ∧ kinds = layout.fixed ++ others := by
  obtain ⟨present, count, front, -, rfl⟩ := admits
  refine ⟨present, front, ?_⟩
  rw [none_repeats, Option.elim_none, List.append_nil]

/-- Where no further operands may be there, those that are always there are all. -/
theorem eq_of_admits (none_repeats : layout.variadic = none) (none_more : layout.optional = [])
    (admits : layout.Admits kinds) : kinds = layout.fixed := by
  obtain ⟨others, front, rfl⟩ := prefix_of_admits none_repeats admits
  rw [none_more] at front
  rw [List.prefix_nil.mp front, List.append_nil]

end OperandLayout

/-- The operands that an instruction may have besides those always there. -/
theorem mem_of_admits {opcode : Opcode} {kinds : List OperandKind}
    (admits : opcode.layout.Admits kinds) :
    ∃ others, kinds = opcode.layout.fixed ++ others ∧
      ∀ kind ∈ others, kind ∈ opcode.layout.optional ++ opcode.layout.variadic.toList := by
  obtain ⟨present, count, front, -, rfl⟩ := admits
  refine ⟨present ++ opcode.layout.variadic.elim [] (List.replicate count),
    List.append_assoc _ _ _, fun kind mem => ?_⟩
  rw [List.mem_append] at mem ⊢
  rcases mem with mem | mem
  · exact Or.inl (front.subset mem)
  · cases variadic : opcode.layout.variadic with
    | none => simp [variadic] at mem
    | some other =>
        rw [variadic] at mem
        simp [(List.mem_replicate.mp mem).2]

/-- No layout has a result among the operands that may be there or repeat. -/
theorem result_not_mem_others (opcode : Opcode) :
    .result ∉ opcode.layout.optional ++ opcode.layout.variadic.toList := by
  cases opcode <;> decide

/-- No layout has a constant among the operands that may be there or repeat. -/
theorem constant_not_mem_others (opcode : Opcode) :
    .constant ∉ opcode.layout.optional ++ opcode.layout.variadic.toList := by
  cases opcode <;> decide

/-- No layout but that of constants has a constant among the operands that are always there. -/
theorem constant_not_mem_fixed {opcode : Opcode} (other : opcode ≠ .constant) :
    .constant ∉ opcode.layout.fixed := by
  cases opcode <;> first | exact absurd rfl other | decide

/-- No layout but that of constants admits a constant. -/
theorem constant_not_mem_of_admits {opcode : Opcode} {kinds : List OperandKind}
    (other : opcode ≠ .constant) (admits : opcode.layout.Admits kinds) : .constant ∉ kinds := by
  obtain ⟨others, rfl, within⟩ := mem_of_admits admits
  rw [List.mem_append, not_or]
  exact ⟨constant_not_mem_fixed other, fun mem => constant_not_mem_others opcode (within _ mem)⟩

/-- The operands that a layout admits are well placed, if the width of a constant is that of its
result type. -/
theorem wellPlaced_of_admits {scalars : ScalarTable} {width : Option Word} {opcode : Opcode}
    {kinds : List OperandKind} {parts : List (List Word)} (admits : opcode.layout.Admits kinds)
    (accepts : List.Forall₂ (OperandKind.Accepts width) kinds parts)
    (width_eq : opcode = .constant →
      (parts.flatten.head?.bind fun id => scalars[id]?).map Scalar.width = width) :
    WellPlaced scalars width none kinds parts := by
  by_cases constant : opcode = .constant
  · subst constant
    obtain rfl := OperandLayout.eq_of_admits rfl rfl admits
    -- The layout of a constant is its type, its result and its words.
    rcases accepts with _ | ⟨⟨type, rfl, -⟩, _ | ⟨⟨id, rfl, -⟩, _ | ⟨-, ⟨⟩⟩⟩⟩
    exact ⟨by simp, rfl, width_eq rfl⟩
  · have no_constant := constant_not_mem_of_admits constant admits
    obtain ⟨others, rfl, within⟩ := mem_of_admits admits
    have fixed_once : opcode.layout.fixed.count .result ≤ 1 := by
      cases opcode <;> decide
    have others_none : others.count .result = 0 := by
      rw [List.count_eq_zero]
      exact fun mem => result_not_mem_others opcode (within _ mem)
    refine wellPlaced_of_count no_constant ?_ parts
    rw [List.count_append, others_none]
    exact fixed_once

/-- An instruction of a layout has a result exactly if the layout does. -/
theorem result_mem_iff {opcode : Opcode} {kinds : List OperandKind}
    (admits : opcode.layout.Admits kinds) :
    .result ∈ kinds ↔ opcode.layout.hasResult = true := by
  obtain ⟨others, rfl, within⟩ := mem_of_admits admits
  have no_other : .result ∉ others := fun mem => result_not_mem_others opcode (within _ mem)
  rw [List.mem_append, or_iff_left no_other, OperandLayout.hasResult, List.contains_iff_mem]

/-- What an instruction comes to: it is decoded, the spellings of its operands are read as operands,
and the statement with these operands is encoded as its words. -/
structure Returns (decoder : Decoder) (instruction : Instruction) (opcode : Opcode)
    (decoded : DecodedInstruction) (operands : List Operand) : Prop where
  /-- The instruction is decoded. -/
  decoded_eq : decoder.decode instruction = .ok decoded
  /-- It is the instruction of its number. -/
  known : Opcode.ofNumber? decoded.opcode = some opcode
  /-- Its result is a numeric ID. -/
  numeric : ∀ id ∈ decoded.result, IsNumericId id
  /-- Each spelling is read as an operand. -/
  reads : List.Forall₂ (fun decoded operand => ReadsAs decoded.spell operand) decoded.operands
    operands
  /-- The operands have no names but those of numeric IDs. -/
  named : ∀ operand ∈ operands, ∀ name ∈ operand.idName?, IsIdName name
  /-- The statement is encoded as the words. -/
  encoded : ∀ (encoder : Encoder) (line : ℕ), encoder.scalars = decoder.scalars →
    encoder.ids.Keeps (Statement.idNames ⟨line, decoded.result.map toString, opcode, operands⟩) →
    encoder.encode ⟨line, decoded.result.map toString, opcode, operands⟩ = .ok instruction.words

/-- A number names one instruction. -/
theorem number_of_ofNumber? {number : UInt16} {opcode : Opcode}
    (known : Opcode.ofNumber? number = some opcode) : opcode.number = number := by
  rw [Opcode.ofNumber?] at known
  have found := List.find?_some known
  exact eq_of_beq found

/-- A statement with a result exactly if its layout has one is encoded if its operand words are and
a header can count them. -/
theorem encode_of_present {encoder : Encoder} {statement : Statement}
    (present : statement.result.isSome = statement.opcode.layout.hasResult) :
    encoder.encode statement = encoder.bodyWords statement >>= fun words =>
      if words.length + 1 < 65536 then
        .ok (InstructionHeader.toWord
          ⟨statement.opcode.number, UInt16.ofNat (words.length + 1)⟩ :: words)
      else
        .error (.instructionTooLong statement.line statement.opcode (words.length + 1)) := by
  rw [Encoder.encode.eq_def]
  split
  · rename_i absent has
    rw [absent, has] at present
    cases present
  · rename_i found has
    rw [found, has] at present
    cases present
  · rfl

/-- Such a statement is encoded as a header word and its operand words. -/
theorem encode_of_bodyWords {encoder : Encoder} {statement : Statement} {words : List Word}
    (body : encoder.bodyWords statement = .ok words)
    (present : statement.result.isSome = statement.opcode.layout.hasResult)
    (short : words.length + 1 < 65536) :
    encoder.encode statement = .ok (InstructionHeader.toWord
      ⟨statement.opcode.number, UInt16.ofNat (words.length + 1)⟩ :: words) := by
  rw [encode_of_present present, body]
  exact if_pos short

/-- The operand words of a constant are those of its value behind its type and its ID. -/
theorem Encoder.bodyWords_constant {encoder : Encoder} {typeName name : String} {type id : Id}
    (is_type : encoder.ids.get? typeName = some type) (is_id : encoder.ids.get? name = some id)
    (operand : Operand) (line : ℕ) :
    encoder.bodyWords ⟨line, some name, .constant, [.id typeName, operand]⟩ =
      (constantWords line encoder.scalars[type]? operand).map fun words =>
        type :: id :: words := by
  have type_words : encoder.operandWords line none .resultType (.id typeName) = .ok [type] := by
    rw [Encoder.operandWords, Encoder.idWord, is_type]
    rfl
  have value_words : encoder.operandWords line (some type) .constant operand =
      constantWords line encoder.scalars[type]? operand := rfl
  simp only [Encoder.bodyWords, Opcode.layout, List.foldlM_cons, List.foldlM_nil, Encoder.fixedStep,
    Encoder.idWord, is_id, type_words, bind, Except.bind, pure, Except.pure, ↓reduceIte,
    List.getLast?_singleton, value_words]
  cases constantWords line encoder.scalars[type]? operand <;> rfl

/-- A statement that is encoded is written, and its type is noted for those behind it. -/
theorem Encoder.encodeFrom_cons {encoder : Encoder} {statement : Statement} {words : List Word}
    (encoded : encoder.encode statement = .ok words) (written : List (List Word))
    (rest : List Statement) : encodeFrom written encoder (statement :: rest) =
      encodeFrom (words :: written) (encoder.note statement words) rest := by
  rw [encodeFrom, encoded]

/-- An instruction that fills its layout is encoded again from the statement that it is spelt as. -/
theorem exists_statement (decoder : Decoder) {instruction : Instruction} {opcode : Opcode}
    {width : Option Word} (known : Opcode.ofNumber? instruction.opcode = some opcode)
    (fills : opcode.layout.Fills width instruction.operands)
    (width_eq : opcode = .constant →
      (instruction.operands.head?.bind fun id => decoder.scalars[id]?).map Scalar.width = width)
    (short : instruction.wordCount < 65536) :
    ∃ decoded operands, Returns decoder instruction opcode decoded operands := by
  obtain ⟨kinds, parts, admits, accepts, words_eq⟩ := fills
  rw [words_eq] at width_eq
  obtain ⟨next, decoded, operands, all⟩ := exists_run decoder accepts
    ⟨instruction.cursor, none, none, []⟩ (instruction.offset + 1) []
    (by rw [Instruction.cursor, Cursor.ofWords, words_eq])
    (wellPlaced_of_admits admits accepts width_eq)
  have operands_eq : next.operands.reverse = decoded := by
    rw [all.operands_eq]
    simp
  refine ⟨⟨instruction.offset, instruction.opcode, next.result, decoded⟩, operands, ?_, known, ?_,
    all.reads, all.named, ?_⟩
  · rw [Decoder.decode, known]
    simp only
    rw [Decoder.decodeOperands_of_run admits all.run all.at_end, operands_eq]
  · intro id mem
    by_cases has : .result ∈ kinds
    · obtain ⟨id', found, numeric⟩ := all.result has
      have : id = id' := Option.some.inj (mem.symm.trans found)
      exact this ▸ numeric
    · rw [Option.mem_def, all.no_result has] at mem
      cases mem
  · intro encoder line same keeps
    obtain ⟨type, run⟩ := all.written encoder
      ⟨line, next.result.map toString, opcode, operands⟩ [] same rfl keeps
    have body : encoder.bodyWords ⟨line, next.result.map toString, opcode, operands⟩ =
        .ok instruction.operands := by
      rw [Encoder.bodyWords_of_run admits run rfl, words_eq, List.nil_append]
    -- The layout decides whether there is a result, both for the words and for the statement.
    have present : next.result.isSome = opcode.layout.hasResult := by
      rw [Bool.eq_iff_iff, ← result_mem_iff admits]
      by_cases has : .result ∈ kinds
      · obtain ⟨id, found, -⟩ := all.result has
        simp [found, has]
      · simp [all.no_result has, has]
    rw [encode_of_bodyWords body (by rw [Option.isSome_map, present]) short,
      number_of_ofNumber? known]
    rfl

end ShaderMachine
