import ShaderMachine.Proofs.DecodedWords
import ShaderMachine.Proofs.ListingRoundTrip
import ShaderMachine.Proofs.ScannedTexts

/-! # Lines of listed instructions

A listing puts each instruction on a line of its own. That line is one line of assembly text, which
is parsed as the instruction, exactly if no string of the instruction has a line end.

* **`IsListedAs`** — whether a text is one line of assembly text, with a given opcode.
* **`IsMadeOf`** — the pieces of what is written for an operand.
* **`isListedAs_iff`** — the line of a decoded instruction.
* **`lines_exact`** — the strings and the lines of the instructions of a module.
* **`quoteBare_line_end`** — a string with a line end. -/

namespace ShaderMachine

/-! ## Pieces of operands -/

/-- The value of a constant is written as one operand or word by word. -/
theorem readsAs_spellConstant_or (scalar : Option Scalar) (words : List Word) :
    (∃ operand, ReadsAs (spellConstant scalar words) operand) ∨
      spellConstant scalar words =
        " ".intercalate (words.map fun word => Text.hex word.toNat) := by
  -- Floats are read back exactly, integers are in the range of those that tokens have.
  rw [spellConstant.eq_def]
  split
  · rename_i bits
    obtain ⟨operand, reads, -⟩ := exists_float .single bits.toNat (by decide) bits.toNat_lt
      (Nat.lt_trans bits.toNat_lt (by decide))
    exact .inl ⟨operand, reads⟩
  · rename_i low high
    obtain ⟨operand, reads, -⟩ := exists_float .double (joinDouble low high) (by decide)
      (joinDouble_lt low high) (joinDouble_lt low high)
    exact .inl ⟨operand, reads⟩
  · rename_i word
    have lower := word.toInt32.le_toInt
    have upper := word.toInt32.toInt_lt
    exact .inl ⟨_, readsAs_integer _ (by omega) (by omega)⟩
  · rename_i low high
    have lower := (UInt64.ofNat (joinDouble low high)).toInt64.le_toInt
    have upper := (UInt64.ofNat (joinDouble low high)).toInt64.toInt_lt
    exact .inl ⟨_, readsAs_integer _ (by omega) (by omega)⟩
  · rename_i low high
    simp only
    split_ifs with small
    · exact .inl ⟨_, readsAs_integer (joinDouble low high) (by omega) (by omega)⟩
    · exact .inl ⟨_, readsAs_bits (joinDouble_lt low high)⟩
  · rename_i word
    have small := word.toNat_lt
    exact .inl ⟨_, readsAs_integer word.toNat (by omega) (by omega)⟩
  · exact .inr rfl

/-- Whether what is written for an operand is what is written for others, with blanks between these,
each of which is read as an operand. -/
structure IsMadeOf (operand : DecodedOperand) (pieces : List DecodedOperand) : Prop where
  /-- What is written for the operand is what is written for its pieces. -/
  spell_eq : ' ' :: operand.spell.toList = pieces.flatMap fun piece => ' ' :: piece.spell.toList
  /-- Each piece is read as an operand. -/
  exists_reads :
    ∃ reads, List.Forall₂ (fun piece : DecodedOperand => ReadsAs piece.spell) pieces reads

/-- An operand that is read as one is its own piece. -/
theorem isMadeOf_self {operand : DecodedOperand} {read : Operand}
    (reads : ReadsAs operand.spell read) : IsMadeOf operand [operand] :=
  ⟨by simp, [read], .cons reads .nil⟩

/-- A constant that is written word by word is made of its words, each of which on its own is a
constant of a type that is not known. -/
theorem isMadeOf_words {scalar : Option Scalar} {words : List Word} (nonempty : words ≠ [])
    (spell_eq : spellConstant scalar words =
      " ".intercalate (words.map fun word => Text.hex word.toNat)) :
    IsMadeOf (.constant scalar words) (words.map fun word => .constant none [word]) := by
  have alone (word : Word) : (DecodedOperand.constant none [word]).spell = Text.hex word.toNat := by
    simp [DecodedOperand.spell, spellConstant]
  refine ⟨?_, words.map fun word => .bits (UInt64.ofNat word.toNat), ?_⟩
  · obtain ⟨first, others, rfl⟩ := List.exists_cons_of_ne_nil nonempty
    have joined : (" ".intercalate (Text.hex first.toNat ::
        others.map fun word => Text.hex word.toNat)).toList =
        (Text.hex first.toNat).toList ++
          ((others.map fun word => Text.hex word.toNat).map String.toList).flatMap (' ' :: ·) :=
      toList_intercalate_cons rfl _ _
    rw [DecodedOperand.spell, spell_eq, List.map_cons, joined]
    simp [alone, List.flatMap_map]
  · rw [List.forall₂_map_left_iff, List.forall₂_map_right_iff, List.forall₂_same]
    intro word _
    rw [alone]
    exact readsAs_bits (Nat.lt_trans word.toNat_lt (by decide))

/-- What is written for an operand with words is made of pieces, unless it is a string with a line
end. -/
theorem exists_pieces {operand : DecodedOperand} (nonempty : operand.words ≠ [])
    (free : ∀ text, operand = .str text → '\n' ∉ text.toList) :
    ∃ pieces, IsMadeOf operand pieces := by
  cases operand with
  | id number => exact ⟨_, isMadeOf_self (readsAs_id number)⟩
  | literal value =>
      obtain ⟨read, reads, -⟩ := exists_integer value
      have reads : ReadsAs (DecodedOperand.literal value).spell read := reads
      exact ⟨_, isMadeOf_self reads⟩
  | str text =>
      have reads : ReadsAs (DecodedOperand.str text).spell (.str text) :=
        ⟨newline_not_mem_quoteBare (free text rfl), _, lexesTo_str text, rfl⟩
      exact ⟨_, isMadeOf_self reads⟩
  | enumerant family value =>
      obtain ⟨read, reads, -⟩ := exists_enumerant family value
      exact ⟨_, isMadeOf_self reads⟩
  | extended isGlsl value =>
      obtain ⟨read, reads, -⟩ := exists_extended isGlsl value
      exact ⟨_, isMadeOf_self reads⟩
  | constant scalar words =>
      obtain ⟨read, reads⟩ | spell_eq := readsAs_spellConstant_or scalar words
      · have reads : ReadsAs (DecodedOperand.constant scalar words).spell read := reads
        exact ⟨_, isMadeOf_self reads⟩
      · exact ⟨_, isMadeOf_words nonempty spell_eq⟩

/-- What is written for operands, each after a blank, is what is written for their pieces, which are
read as operands. -/
theorem exists_pieces_all {operands : List DecodedOperand}
    (nonempty : ∀ operand ∈ operands, operand.words ≠ [])
    (free : ∀ text, .str text ∈ operands → '\n' ∉ text.toList) :
    ∃ (pieces : List DecodedOperand) (reads : List Operand),
      (operands.map fun operand => operand.spell.toList).flatMap (' ' :: ·) =
        (pieces.map fun piece => piece.spell.toList).flatMap (' ' :: ·) ∧
      List.Forall₂ (fun piece : DecodedOperand => ReadsAs piece.spell) pieces reads := by
  induction operands with
  | nil => exact ⟨[], [], rfl, .nil⟩
  | cons operand operands hyp =>
      rw [List.forall_mem_cons] at nonempty
      obtain ⟨pieces, reads, spell_eq, read⟩ := hyp nonempty.2 fun text mem =>
        free text (List.mem_cons_of_mem _ mem)
      obtain ⟨front, made⟩ := exists_pieces nonempty.1 fun text is_text =>
        free text (is_text ▸ List.mem_cons_self)
      obtain ⟨front_reads, front_read⟩ := made.exists_reads
      refine ⟨front ++ pieces, front_reads ++ reads, ?_, List.rel_append front_read read⟩
      rw [List.map_cons, List.flatMap_cons, spell_eq, made.spell_eq]
      simp [List.flatMap_map]

/-! ## Lines -/

/-- Whether a text is one line of assembly text that is parsed: as a statement with the given opcode
or, if there is none, as no statement. -/
def IsListedAs (opcode : Option Opcode) (text : String) : Prop :=
  ∃ line, text.toList = line ++ ['\n'] ∧ '\n' ∉ line ∧ ∀ number, ∃ statement,
    parseLine number line = .ok statement ∧ statement.map Statement.opcode = opcode

/-- Blanks are no line end. -/
theorem newline_not_mem_blanks (count : ℕ) : '\n' ∉ List.replicate count ' ' := by
  intro mem
  exact absurd (List.mem_replicate.mp mem).2 (by decide)

/-- The line of a supported instruction is parsed as a statement with its opcode, if no string of it
has a line end. -/
theorem isListedAs_of_known {decoded : DecodedInstruction} {opcode : Opcode}
    (known : decoded.opcode? = some opcode)
    (nonempty : ∀ operand ∈ decoded.operands, operand.words ≠ [])
    (free : ∀ text, .str text ∈ decoded.operands → '\n' ∉ text.toList) (width : ℕ) :
    IsListedAs (some opcode) (decoded.line width) := by
  obtain ⟨pieces, reads, spell_eq, read⟩ := exists_pieces_all nonempty free
  -- With its operands in pieces the instruction is written the same way.
  let apart : DecodedInstruction := { decoded with operands := pieces }
  have drafts : Drafts apart ⟨0, decoded.result.map toString, opcode, reads⟩ := ⟨known, rfl, read⟩
  have same_spell : apart.spell = decoded.spell := by
    rw [← String.toList_inj, toList_spell known, spell_eq]
    have known : apart.opcode? = some opcode := known
    exact toList_spell known
  have same_body : apart.body = decoded.body := by
    rw [DecodedInstruction.body, DecodedInstruction.body, same_spell]
  obtain ⟨count, line_eq⟩ := toList_line width decoded
  rw [← same_body] at line_eq
  refine ⟨_, line_eq, ?_, fun number => ⟨_, parseLine_body drafts count number, rfl⟩⟩
  rw [List.mem_append, not_or]
  exact ⟨newline_not_mem_blanks count, newline_not_mem_body drafts⟩

/-- A comment after blanks holds no statement. -/
theorem parseLine_blanks_comment (count number : ℕ) (rest : List Char) :
    parseLine number (List.replicate count ' ' ++ ';' :: rest) = .ok none := by
  have not_separator : isSeparator ';' = false := rfl
  have stops : Stops isSeparator (';' :: rest) := by
    rw [stops_cons, not_separator]
  have no_items : scanLine (List.replicate count ' ' ++ ';' :: rest) = [] := by
    rw [scanLine, scanFrom_blanks count stops, scanFrom, lexeme, not_separator]
    simp [scanFrom]
  rw [parseLine, lineTokens, no_items]
  rfl

/-- Words that are written with a blank before each have no line end. -/
theorem newline_not_mem_literals (words : List Word) :
    '\n' ∉ (((words.map DecodedOperand.literal).map DecodedOperand.spell).map
      String.toList).flatMap (' ' :: ·) := by
  rw [List.mem_flatMap, List.map_map, List.map_map]
  rintro ⟨text, mem, mem'⟩
  obtain ⟨word, -, rfl⟩ := List.mem_map.mp mem
  obtain ⟨operand, reads, -⟩ := exists_integer word
  rcases List.mem_cons.mp mem' with is_blank | mem'
  · exact absurd is_blank (by decide)
  · exact reads.1 mem'

/-- An instruction that is not supported is written as a comment of one line. -/
theorem exists_comment {decoded : DecodedInstruction} (unknown : decoded.opcode? = none)
    {words : List Word} (operands_eq : decoded.operands = words.map .literal)
    (no_result : decoded.result = none) :
    ∃ rest, decoded.body.toList = ';' :: rest ∧ '\n' ∉ rest := by
  have number_free : '\n' ∉ (toString decoded.opcode).toList :=
    newline_not_mem_natural decoded.opcode.toNat
  have joined : (" ".intercalate (s!"; unsupported opcode {decoded.opcode}:" ::
      decoded.operands.map DecodedOperand.spell)).toList =
      (s!"; unsupported opcode {decoded.opcode}:").toList ++
        ((decoded.operands.map DecodedOperand.spell).map String.toList).flatMap (' ' :: ·) :=
    toList_intercalate_cons rfl _ _
  have comment_eq : (s!"; unsupported opcode {decoded.opcode}:").toList =
      ';' :: (" unsupported opcode ".toList ++ (toString decoded.opcode).toList ++ [':']) := by
    simp only [String.toList_append, toString_text]
    rfl
  rw [DecodedInstruction.body, no_result, DecodedInstruction.spell, unknown]
  simp only
  rw [joined, comment_eq, operands_eq, List.cons_append]
  refine ⟨_, rfl, ?_⟩
  simp only [List.mem_append, not_or]
  exact ⟨⟨⟨by decide, number_free⟩, by decide⟩, newline_not_mem_literals words⟩

/-- The line of an instruction that is not supported is a comment. -/
theorem isListedAs_of_unknown {decoded : DecodedInstruction} (unknown : decoded.opcode? = none)
    {words : List Word} (operands_eq : decoded.operands = words.map .literal)
    (no_result : decoded.result = none) (width : ℕ) : IsListedAs none (decoded.line width) := by
  obtain ⟨count, line_eq⟩ := toList_line width decoded
  obtain ⟨rest, body_eq, free⟩ := exists_comment unknown operands_eq no_result
  rw [body_eq] at line_eq
  refine ⟨_, line_eq, ?_, fun number => ⟨none, ?_, rfl⟩⟩
  · rw [List.mem_append, List.mem_cons, not_or, not_or]
    exact ⟨newline_not_mem_blanks count, by decide, free⟩
  · exact parseLine_blanks_comment count number rest

/-- What is written for an operand is written in the line of its instruction. -/
theorem mem_body_of_mem_spell {decoded : DecodedInstruction} {opcode : Opcode}
    (known : decoded.opcode? = some opcode) {operand : DecodedOperand}
    (mem : operand ∈ decoded.operands) {c : Char} (written : c ∈ operand.spell.toList) :
    c ∈ decoded.body.toList := by
  have in_spell : c ∈ decoded.spell.toList := by
    rw [toList_spell known, List.mem_append, List.mem_flatMap]
    exact .inr ⟨_, List.mem_map_of_mem mem, List.mem_cons_of_mem _ written⟩
  rw [DecodedInstruction.body]
  cases decoded.result with
  | some id => simp [in_spell]
  | none => exact in_spell

/-- The line of a decoded instruction is one line that is parsed exactly if no string of the
instruction has a line end. -/
theorem isListedAs_iff {decoder : Decoder} {instruction : Instruction}
    {decoded : DecodedInstruction} (read : decoder.decode instruction = .ok decoded) (width : ℕ) :
    IsListedAs decoded.opcode? (decoded.line width) ↔
      ∀ text, .str text ∈ decoded.operands → '\n' ∉ text.toList := by
  have number_eq := (Decoder.mirrors_of_decode read).opcode_eq
  have nonempty := Decoder.words_ne_nil_of_decode read
  cases known : decoded.opcode? with
  | none =>
      -- An instruction that is not supported has no strings.
      have unknown : Opcode.ofNumber? instruction.opcode = none := number_eq ▸ known
      rw [Decoder.decode, unknown] at read
      cases read
      refine ⟨fun _ text mem => ?_, fun _ => isListedAs_of_unknown known rfl rfl width⟩
      simp at mem
  | some opcode =>
      refine ⟨?_, fun free => isListedAs_of_known known nonempty free width⟩
      rintro ⟨line, line_eq, line_free, -⟩ text mem newline
      obtain ⟨count, line_eq'⟩ := toList_line width decoded
      rw [line_eq', List.append_left_inj] at line_eq
      refine line_free (line_eq ▸ List.mem_append_right _ ?_)
      exact mem_body_of_mem_spell known mem (newline_mem_quoteBare newline)

/-- An instruction of a decoded module was decoded on its own. -/
theorem exists_decode_of_mem {loaded : Module} {decoded : List DecodedInstruction}
    (decodes : loaded.decode = .ok decoded) {instruction : DecodedInstruction}
    (mem : instruction ∈ decoded) :
    ∃ (decoder : Decoder) (source : Instruction), decoder.decode source = .ok instruction := by
  obtain ⟨later, rfl, each⟩ := Decoder.exists_of_decodeFrom decodes
  clear decodes
  generalize loaded.instructions = sources at each
  induction each with
  | nil => cases mem
  | @cons first source decoded sources first_read each hyp =>
      rcases List.mem_cons.mp mem with rfl | mem
      · obtain ⟨decoder, read⟩ := first_read
        exact ⟨decoder, source, read⟩
      · exact hyp mem

/-- What is written for a string is scanned as that string exactly if it has no line end, and the
line of each instruction of a module is one line that is parsed as that instruction exactly if none
of its strings has one. -/
theorem lines_exact (text : String) :
    (scanSource (DecodedOperand.str text).spell =
        [⟨.token (.str text), 0, byteLength (DecodedOperand.str text).spell.toList⟩] ↔
          '\n' ∉ text.toList) ∧
      ∀ (loaded : Module) decoded, loaded.decode = .ok decoded → ∀ instruction ∈ decoded,
        ∀ width, IsListedAs instruction.opcode? (instruction.line width) ↔
          ∀ text, .str text ∈ instruction.operands → '\n' ∉ text.toList := by
  refine ⟨scanSource_quoteBare text, fun loaded decoded decodes instruction mem width => ?_⟩
  obtain ⟨decoder, source, read⟩ := exists_decode_of_mem decodes mem
  exact isListedAs_iff read width

/-- A module with a string of a letter, a quote and a backslash. -/
def quoted : Module where
  header := .ofBound 2 0
  instructions := [⟨5, 7, [1, 0x5C2261]⟩]
  metadata := {}
  instructionCount := 1

/-- The string with a quote and a backslash is scanned as itself, and the line of its instruction is
one line. -/
theorem lines_exact_quoted : ∃ decoded : DecodedInstruction,
    quoted.decode = .ok [decoded] ∧ decoded.operands = [.str "a\"\\"] ∧
      (scanSource (DecodedOperand.str "a\"\\").spell).map Placed.item = [.token (.str "a\"\\")] ∧
      IsListedAs decoded.opcode? (decoded.line 2) := by
  have decodes : quoted.decode = .ok [⟨5, 7, some 1, [.str "a\"\\"]⟩] := by
    rfl
  obtain ⟨scanned_iff, listed_iff⟩ := lines_exact "a\"\\"
  refine ⟨_, decodes, rfl, ?_, (listed_iff quoted _ decodes _ List.mem_cons_self 2).mpr ?_⟩
  · rw [scanned_iff.mpr (by decide)]
    rfl
  · intro text mem
    obtain rfl : text = "a\"\\" := by simpa using mem
    decide

/-- A string with a line end is scanned as two pieces of two lines, neither of which is a string. -/
theorem quoteBare_line_end :
    (scanSource (DecodedOperand.str "a\nb").spell).map Placed.item =
      [.bad "\"a", .newline, .token (.word "b"), .bad "\""] := by
  decide +kernel

end ShaderMachine
