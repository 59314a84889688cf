import ShaderMachine.Listing.Page
import ShaderMachine.Proofs.InstructionRoundTrip

/-! # Lines of a listing are parsed as statements

The line of an instruction is cut into the tokens of its result, its mnemonic and its operands, and
parsed as the statement made of these. The lines about the header are comments.

* **`parseLine_line`** — the line of an instruction is its statement.
* **`parseLine_comment`** — a comment holds no statement.
* **`parseSource_of_lines`** — a text of comments and instructions is parsed line by line. -/

namespace ShaderMachine

/-! ## Tokens of lines -/

/-- A line whose items are all tokens is cut into these. -/
theorem lineTokens_of_items {line : List Char} {tokens : List Token}
    (items : (scanLine line).map Placed.item = tokens.map Except.ok) (number : ℕ) :
    lineTokens number line = .ok tokens := by
  rw [lineTokens]
  generalize scanLine line = placed at items
  induction placed generalizing tokens with
  | nil =>
      rw [List.map_nil, eq_comm, List.map_eq_nil_iff] at items
      rw [items]
      rfl
  | cons first placed hyp =>
      cases tokens with
      | nil => cases items
      | cons token tokens =>
          rw [List.map_cons, List.map_cons, List.cons.injEq] at items
          rw [List.mapM_cons, hyp items.2]
          simp only [items.1]
          rfl

/-- Texts that are read as operands are tokens, which are read as the operands. -/
theorem exists_tokens {texts : List String} {operands : List Operand}
    (reads : List.Forall₂ ReadsAs texts operands) :
    ∃ tokens, List.Forall₂ LexesTo (texts.map String.toList) tokens ∧
      ∀ line mnemonic, operandsOfTokens line mnemonic tokens = .ok operands := by
  induction reads with
  | nil => exact ⟨[], .nil, fun _ _ => rfl⟩
  | @cons text operand texts operands first_reads reads hyp =>
      obtain ⟨-, token, lexes, stands⟩ := first_reads
      obtain ⟨tokens, lex, read⟩ := hyp
      refine ⟨token :: tokens, .cons lexes lex, fun line mnemonic => ?_⟩
      have rest := read line mnemonic
      rw [operandsOfTokens] at rest ⊢
      rw [List.mapM_cons, rest]
      simp only [stands]
      rfl

/-- An instruction is found by its mnemonic. -/
theorem ofMnemonic?_mnemonic (opcode : Opcode) :
    Opcode.ofMnemonic? opcode.mnemonic = some opcode := by
  cases opcode <;> rfl

/-- A mnemonic is a name. -/
theorem isName_mnemonic (opcode : Opcode) : isName opcode.mnemonic.toList = true := by
  cases opcode <;> rfl

/-! ## The line of an instruction -/

/-- What stands in the line of an instruction, without the blanks before it. -/
def DecodedInstruction.body (instruction : DecodedInstruction) : String :=
  match instruction.result with
  | some id => resultText id ++ " = " ++ instruction.spell
  | none => instruction.spell

/-- The line of an instruction is its body after some blanks. -/
theorem toList_line (width : ℕ) (instruction : DecodedInstruction) :
    ∃ count, (instruction.line width).toList =
      List.replicate count ' ' ++ instruction.body.toList ++ ['\n'] := by
  rw [DecodedInstruction.line, DecodedInstruction.body]
  cases instruction.result with
  | some id =>
      refine ⟨width - (resultText id).length, ?_⟩
      simp [Text.alignRight]
  | none =>
      simp only
      split_ifs with no_width
      · exact ⟨0, by simp⟩
      · refine ⟨width + 3, ?_⟩
        simp [Text.alignRight]

/-- A statement with another line number. -/
def Statement.onLine (statement : Statement) (line : ℕ) : Statement :=
  { statement with line }

/-- Whether a statement is made of what the spelling of an instruction is read as. -/
def Drafts (decoded : DecodedInstruction) (draft : Statement) : Prop :=
  decoded.opcode? = some draft.opcode ∧ draft.result = decoded.result.map toString ∧
    List.Forall₂ (fun decoded operand => ReadsAs decoded.spell operand) decoded.operands
      draft.operands

/-- The spelling of an instruction is its mnemonic and its operands, each after a blank. -/
theorem toList_spell {decoded : DecodedInstruction} {opcode : Opcode}
    (known : decoded.opcode? = some opcode) :
    decoded.spell.toList = opcode.mnemonic.toList ++
      (decoded.operands.map fun operand => operand.spell.toList).flatMap (' ' :: ·) := by
  have joined :
      (" ".intercalate (opcode.mnemonic :: decoded.operands.map DecodedOperand.spell)).toList =
      opcode.mnemonic.toList ++
        ((decoded.operands.map DecodedOperand.spell).map String.toList).flatMap (' ' :: ·) :=
    toList_intercalate_cons rfl _ _
  rw [List.map_map] at joined
  rw [DecodedInstruction.spell, known]
  exact joined

/-- What stands in front of a mnemonic: the result and an equals sign, or nothing. -/
def resultFront : Option String → List Char
  | some name => '%' :: name.toList ++ " = ".toList
  | none => []

/-- A result, a mnemonic and operands, with blanks between them, are parsed as their statement. -/
theorem parseLine_spelt {result : Option String} {opcode : Opcode} {texts : List String}
    {operands : List Operand}
    (is_result : ∀ name ∈ result, LexesTo ('%' :: name.toList) (.id name))
    (reads : List.Forall₂ ReadsAs texts operands) (count number : ℕ) :
    parseLine number (List.replicate count ' ' ++ (resultFront result ++
        (opcode.mnemonic.toList ++ (texts.map String.toList).flatMap (' ' :: ·)))) =
      .ok (some ⟨number, result, opcode, operands⟩) := by
  obtain ⟨tokens, lex, read⟩ := exists_tokens reads
  have mnemonic_lexes := lexesTo_word (isName_mnemonic opcode)
  rw [String.ofList_toList] at mnemonic_lexes
  -- With or without a result, the tokens after the opcode are its operands.
  have built : Statement.build number result opcode.mnemonic tokens =
      .ok ⟨number, result, opcode, operands⟩ := by
    rw [Statement.build, ofMnemonic?_mnemonic]
    simp only [read]
    rfl
  cases result with
  | some name =>
      have equals : LexesTo "=".toList .equals := lexesTo_equals
      have items := tokens_scanLine count (is_result name rfl)
        (.cons equals (.cons mnemonic_lexes lex))
      have separated : resultFront (some name) ++
          (opcode.mnemonic.toList ++ (texts.map String.toList).flatMap (' ' :: ·)) =
            '%' :: name.toList ++
              ("=".toList :: opcode.mnemonic.toList :: texts.map String.toList).flatMap
                (' ' :: ·) := by
        simp [resultFront]
      rw [separated, parseLine, lineTokens_of_items items]
      change Statement.ofTokens? number (.id name :: .equals :: .word opcode.mnemonic :: tokens) = _
      rw [Statement.ofTokens?, built]
      rfl
  | none =>
      have items := tokens_scanLine count mnemonic_lexes lex
      rw [resultFront, List.nil_append, parseLine, lineTokens_of_items items]
      change Statement.ofTokens? number (.word opcode.mnemonic :: tokens) = _
      rw [Statement.ofTokens?, built]
      rfl

/-- A result, a mnemonic and operands without line ends make up one line. -/
theorem newline_not_mem_spelt {result : Option String} {opcode : Opcode} {texts : List String}
    {operands : List Operand} (result_free : ∀ name ∈ result, '\n' ∉ name.toList)
    (reads : List.Forall₂ ReadsAs texts operands) :
    '\n' ∉ resultFront result ++
      (opcode.mnemonic.toList ++ (texts.map String.toList).flatMap (' ' :: ·)) := by
  have front_free : '\n' ∉ resultFront result := by
    cases result with
    | some name => simp [resultFront, result_free name rfl]
    | none => simp [resultFront]
  have operands_free : '\n' ∉ (texts.map String.toList).flatMap (' ' :: ·) := by
    induction reads with
    | nil => simp
    | cons first _ hyp =>
        rw [List.map_cons, List.flatMap_cons, List.mem_append, not_or]
        exact ⟨by simp [first.1], hyp⟩
  rw [List.mem_append, List.mem_append, not_or, not_or]
  exact ⟨front_free, newline_not_mem_name (isName_mnemonic opcode), operands_free⟩

section

variable {decoded : DecodedInstruction} {draft : Statement}

/-- The line of an instruction is the result, the mnemonic and the operands of its statement. -/
theorem Drafts.toList_body (drafts : Drafts decoded draft) :
    decoded.body.toList = resultFront draft.result ++ (draft.opcode.mnemonic.toList ++
      ((decoded.operands.map DecodedOperand.spell).map String.toList).flatMap (' ' :: ·)) := by
  have spell_eq := toList_spell drafts.1
  rw [← Function.comp_def String.toList, ← List.map_map] at spell_eq
  rw [DecodedInstruction.body, drafts.2.1, ← spell_eq]
  cases decoded.result with
  | some id => simp [resultFront, resultText]
  | none => rfl

/-- The result of the statement of an instruction is the number of an ID. -/
theorem Drafts.exists_result (drafts : Drafts decoded draft) :
    ∀ name ∈ draft.result, ∃ id : Id, name = toString id := by
  rw [drafts.2.1]
  intro name mem
  obtain ⟨id, -, rfl⟩ := Option.map_eq_some_iff.mp mem
  exact ⟨id, rfl⟩

/-- The line of an instruction is parsed as its statement. -/
theorem parseLine_body (drafts : Drafts decoded draft) (count number : ℕ) :
    parseLine number (List.replicate count ' ' ++ decoded.body.toList) =
      .ok (some (draft.onLine number)) := by
  rw [drafts.toList_body]
  refine parseLine_spelt (fun name mem => ?_) (List.forall₂_map_left_iff.mpr drafts.2.2) count
    number
  obtain ⟨id, rfl⟩ := drafts.exists_result name mem
  have lexes := lexesTo_reference id
  rwa [DecodedOperand.spell, String.toList_append] at lexes

/-- The line of an instruction has no line end but its own. -/
theorem newline_not_mem_body (drafts : Drafts decoded draft) : '\n' ∉ decoded.body.toList := by
  rw [drafts.toList_body]
  refine newline_not_mem_spelt (fun name mem => ?_) (List.forall₂_map_left_iff.mpr drafts.2.2)
  obtain ⟨id, rfl⟩ := drafts.exists_result name mem
  exact newline_not_mem (fun _ => isIdChar_of_mem_toString) rfl

end

/-! ## Comments -/

/-- Whether a line is a comment or empty. -/
def IsComment (line : List Char) : Prop :=
  ∀ c ∈ line.head?, c = ';'

/-- A comment holds no statement. -/
theorem parseLine_comment {line : List Char} (comment : IsComment line) (number : ℕ) :
    parseLine number line = .ok none := by
  have no_items : scanLine line = [] := by
    cases line with
    | nil => rw [scanLine, scanFrom]; rfl
    | cons c rest =>
        obtain rfl : c = ';' := comment c rfl
        exact scanLine_comment rest
  rw [parseLine, lineTokens, no_items]
  rfl

/-! ## Texts -/

/-- Statements on consecutive lines. -/
def consecutive (line : ℕ) : List Statement → List Statement
  | [] => []
  | draft :: drafts => draft.onLine line :: consecutive (line + 1) drafts

/-- Comments hold no statements. -/
theorem mapM_parseLine_comments {lines : List (List Char)}
    (comments : ∀ line ∈ lines, IsComment line) (start : ℕ) :
    ((lines.zipIdx start).mapM fun (line, number) => parseLine number line) =
      .ok (List.replicate lines.length none) := by
  induction lines generalizing start with
  | nil => rfl
  | cons line lines hyp =>
      rw [List.forall_mem_cons] at comments
      rw [List.zipIdx_cons, List.mapM_cons, hyp comments.2]
      simp only [parseLine_comment comments.1]
      rfl

/-- The lines of instructions hold their statements. -/
theorem mapM_parseLine_statements {lines : List (List Char)} {drafts : List Statement}
    (parse : List.Forall₂
      (fun line draft => ∀ number, parseLine number line = .ok (some (draft.onLine number)))
      lines drafts) (start : ℕ) :
    ((lines.zipIdx start).mapM fun (line, number) => parseLine number line) =
      .ok ((consecutive start drafts).map some) := by
  induction parse generalizing start with
  | nil => rfl
  | cons first _ hyp =>
      rw [List.zipIdx_cons, List.mapM_cons, hyp]
      simp only [first]
      rfl

/-- Lines with an end each, and nothing after the last one, are split at their ends. -/
theorem splitOn_lines {lines : List (List Char)} (free : ∀ line ∈ lines, '\n' ∉ line) :
    (lines.flatMap (· ++ ['\n'])).splitOn '\n' = lines ++ [[]] := by
  -- What is behind the last line end is an empty line of its own.
  have joined : lines.flatMap (· ++ ['\n']) = ['\n'].intercalate (lines ++ [[]]) := by
    induction lines with
    | nil => rfl
    | cons line lines hyp =>
        rw [List.forall_mem_cons] at free
        rw [List.cons_append, List.intercalate_cons_of_ne_nil (by simp), List.flatMap_cons,
          hyp free.2]
  rw [joined]
  apply List.splitOn_intercalate
  · intro line mem
    rw [List.mem_append, List.mem_singleton] at mem
    rcases mem with mem | rfl
    · exact free line mem
    · simp
  · simp

/-- A text of comments and, after these, lines of instructions is parsed as their statements. -/
theorem parseSource_of_lines {source : String} {comments lines : List (List Char)}
    {drafts : List Statement}
    (source_eq : source.toList = (comments ++ lines).flatMap (· ++ ['\n']))
    (free : ∀ line ∈ comments ++ lines, '\n' ∉ line) (all : ∀ line ∈ comments, IsComment line)
    (parse : List.Forall₂
      (fun line draft => ∀ number, parseLine number line = .ok (some (draft.onLine number)))
      lines drafts) :
    parseSource source = .ok (consecutive (comments.length + 1) drafts) := by
  -- The empty line at the end holds no statement either.
  have last : ∀ line ∈ [([] : List Char)], IsComment line := by
    simp [IsComment]
  rw [parseSource, sourceLines, source_eq, splitOn_lines free]
  simp only [List.zipIdx_append, List.mapM_append, mapM_parseLine_comments all,
    mapM_parseLine_statements parse, mapM_parseLine_comments last, bind, Except.bind, pure,
    Except.pure]
  simp [List.filterMap_append, List.filterMap_map, Nat.add_comm]

end ShaderMachine
