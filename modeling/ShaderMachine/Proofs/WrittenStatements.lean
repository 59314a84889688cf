import ShaderMachine.Proofs.AssembledModules
import ShaderMachine.Proofs.JoinedTexts

/-! # Written statements are parsed again

Statements are written one on a line. Those that a text may hold, and no others, are parsed again
from what is written, on consecutive lines.

* **`Statement.write`** — the line of a statement, and **`writeSource`** — the text of several.
* **`Statement.IsWritable`** — the names, words, floats and strings of a statement match their
  patterns.
* **`isWritable_of_parseSource`** — whatever is parsed may be written.
* **`parseSource_writeSource`** — what is written is parsed again. -/

namespace ShaderMachine

/-! ## Writing -/

/-- The text of an operand. -/
def Operand.write : Operand → String
  | id name => "%" ++ name
  | integer value => toString value.toInt
  | bits value => Text.hex value.toNat
  | float text => text
  | str text => Text.quoteBare text
  | word text => text

/-- The line of a statement. -/
def Statement.write (statement : Statement) : String :=
  (match statement.result with
    | some name => "%" ++ name ++ " = "
    | none => "") ++
    " ".intercalate (statement.opcode.mnemonic :: statement.operands.map Operand.write)

/-- The text of statements, one on a line. -/
def writeSource (statements : List Statement) : String :=
  "\n".intercalate (statements.map Statement.write)

/-- Whether a text may be the name of an ID. -/
def IsReferenceName (name : String) : Prop :=
  name.toList ≠ [] ∧ ∀ c ∈ name.toList, isIdChar c = true

/-- Whether an operand has a name or a text that its pattern is matched by. -/
def Operand.IsWritable : Operand → Prop
  | id name => IsReferenceName name
  | integer _ => True
  | bits _ => True
  | float text => IsFloatText text.toList
  | str text => '\n' ∉ text.toList
  | word text => IsWordText text.toList

/-- Whether the result and the operands of a statement match their patterns. -/
structure Statement.IsWritable (statement : Statement) : Prop where
  /-- The result is the name of an ID. -/
  result : ∀ name ∈ statement.result, IsReferenceName name
  /-- Each operand matches its pattern. -/
  operands : ∀ operand ∈ statement.operands, operand.IsWritable

/-! ## What is parsed may be written -/

/-- A token stands for an operand that may be written. -/
theorem StandsFor.isWritable {text : List Char} {token : Token}
    (stands : StandsFor text (.token token)) {operand : Operand}
    (is_operand : Operand.ofToken? token = some operand) : operand.IsWritable := by
  generalize is : Reading.token token = reading at stands
  -- Separators and comments are no tokens, and the other tokens have the characters that their
  -- patterns admit.
  cases stands with
  | separators => cases is
  | comment => cases is
  | equals =>
      cases is
      cases is_operand
  | id nonempty all =>
      cases is
      cases is_operand
      exact ⟨by rwa [String.toList_ofList], by rwa [String.toList_ofList]⟩
  | word is_word =>
      cases is
      cases is_operand
      rwa [Operand.IsWritable, String.toList_ofList]
  | integer =>
      unfold readInteger at is
      extract_lets magnitude value at is
      split at is
      · cases is
        cases is_operand
        trivial
      · cases is
  | hex =>
      rw [readHex] at is
      split at is
      · cases is
        cases is_operand
        trivial
      · cases is
  | float is_float =>
      cases is
      cases is_operand
      rwa [Operand.IsWritable, String.toList_ofList]
  | str quotes =>
      cases is
      cases is_operand
      rw [Operand.IsWritable, String.toList_ofList]
      exact quotes.newline_not_mem.2

/-- Each token of a text stands somewhere in it. -/
theorem Tokenizes.exists_standsFor {text : List Char} {lines : List (List Token)}
    (cut : Tokenizes text lines) :
    ∀ tokens ∈ lines, ∀ token ∈ tokens, ∃ part, StandsFor part (.token token) := by
  induction cut with
  | nil => simp
  | newline _ hyp => simpa using hyp
  | blank _ _ _ hyp => exact hyp
  | @token text rest token tokens lines stands _ _ hyp =>
      rw [List.forall_mem_cons, List.forall_mem_cons]
      rw [List.forall_mem_cons] at hyp
      exact ⟨⟨⟨text, stands⟩, hyp.1⟩, hyp.2⟩

/-- The result of a statement is a token of its line. -/
theorem Statement.result_mem {line : ℕ} {tokens : List Token} {statement : Statement}
    (parsed : ofTokens? line tokens = .ok (some statement)) :
    ∀ name ∈ statement.result, .id name ∈ tokens := by
  have built {result : Option String} {mnemonic : String} {others : List Token}
      (builds : (build line result mnemonic others).map some = .ok (some statement)) :
      statement.result = result := by
    obtain ⟨found, found_ok, is⟩ := exists_of_map builds
    cases is
    unfold build at found_ok
    split at found_ok
    · cases found_ok
    · obtain ⟨operands, -, rfl⟩ := exists_of_map found_ok
      rfl
  unfold ofTokens? at parsed
  split at parsed
  · cases parsed
  · intro name mem
    rw [built parsed, Option.mem_some_iff] at mem
    rw [mem]
    exact List.mem_cons_self
  · cases parsed
  · cases parsed
  · intro name mem
    rw [built parsed] at mem
    cases mem
  · cases parsed

/-- The statements of a text may be written. -/
theorem isWritable_of_parseSource {source : String} {statements : List Statement}
    (parsed : parseSource source = .ok statements) :
    ∀ statement ∈ statements, statement.IsWritable := by
  intro statement mem
  obtain ⟨line, ⟨_, _, _, on_line, _, _, _⟩, line_ok⟩ := (mem_iff_of_parseSource parsed _).mp mem
  obtain ⟨tokens, cut, read⟩ := exists_of_bind line_ok
  have tokenized := (tokenizes_line_iff on_line).mpr ⟨tokens, rfl, lineTokens_eq_ok_iff.mp cut⟩
  have stands := tokenized.exists_standsFor tokens List.mem_cons_self
  constructor
  · intro name result
    obtain ⟨_, stands⟩ := stands _ (Statement.result_mem read name result)
    have writable : Operand.IsWritable (.id name) := stands.isWritable rfl
    exact writable
  · intro operand operand_mem
    obtain ⟨token, token_mem, is_operand⟩ := Statement.exists_token read operand operand_mem
    obtain ⟨_, stands⟩ := stands token token_mem
    exact stands.isWritable is_operand

/-! ## What is written is parsed again -/

/-- The name of an ID is read after a percent sign. -/
theorem IsReferenceName.standsFor {name : String} (is_name : IsReferenceName name) :
    StandsFor ('%' :: name.toList) (.token (.id name)) := by
  have stands := StandsFor.id is_name.1 is_name.2
  rwa [String.ofList_toList] at stands

/-- An operand that may be written is read from what is written. -/
theorem Operand.IsWritable.readsAs {operand : Operand} (writable : operand.IsWritable) :
    ReadsAs operand.write operand := by
  have read {text : String} {token : Token} (stands : StandsFor text.toList (.token token))
      (is_operand : Operand.ofToken? token = some operand) : ReadsAs text operand :=
    ⟨stands.newline_not_mem, token, stands.lexesTo, is_operand⟩
  cases operand with
  | id name =>
      have stands := IsReferenceName.standsFor writable
      have text_eq : ("%" ++ name).toList = '%' :: name.toList := by simp
      rw [← text_eq] at stands
      exact read stands rfl
  | integer value =>
      have reads := readsAs_integer value.toInt value.le_toInt (by have := value.toInt_lt; omega)
      rwa [Int64.ofInt_toInt] at reads
  | bits value =>
      have reads := readsAs_bits value.toNat_lt
      rwa [UInt64.ofNat_toNat] at reads
  | float text =>
      have stands := StandsFor.float writable
      rw [String.ofList_toList] at stands
      exact read stands rfl
  | str text => exact ⟨newline_not_mem_quoteBare writable, _, lexesTo_str text, rfl⟩
  | word text =>
      have stands := StandsFor.word writable
      rw [String.ofList_toList] at stands
      exact read stands rfl

namespace Statement

variable {statement : Statement}

/-- The line of a statement is its result, its mnemonic and its operands. -/
theorem toList_write (statement : Statement) :
    statement.write.toList = resultFront statement.result ++ (statement.opcode.mnemonic.toList ++
      ((statement.operands.map Operand.write).map String.toList).flatMap (' ' :: ·)) := by
  rw [write, String.toList_append, toList_intercalate_cons (c := ' ') rfl]
  cases statement.result with
  | some name => simp [resultFront]
  | none => simp [resultFront]

/-- The operands of a statement that may be written are read from what is written for them. -/
theorem IsWritable.reads (writable : statement.IsWritable) :
    List.Forall₂ ReadsAs (statement.operands.map Operand.write) statement.operands := by
  rw [List.forall₂_map_left_iff, List.forall₂_same]
  exact fun operand mem => (writable.operands operand mem).readsAs

/-- The line of a statement that may be written is parsed as the statement. -/
theorem IsWritable.parseLine_write (writable : statement.IsWritable) (number : ℕ) :
    parseLine number statement.write.toList = .ok (some (statement.onLine number)) := by
  rw [toList_write]
  exact parseLine_spelt (fun name mem => (writable.result name mem).standsFor.lexesTo)
    writable.reads 0 number

/-- What is written for a statement that may be written is one line. -/
theorem IsWritable.newline_not_mem (writable : statement.IsWritable) :
    '\n' ∉ statement.write.toList := by
  rw [toList_write]
  exact newline_not_mem_spelt
    (fun name mem => ShaderMachine.newline_not_mem (writable.result name mem).2 rfl) writable.reads

/-- A statement may be written wherever it stands. -/
theorem isWritable_onLine {number : ℕ} :
    (statement.onLine number).IsWritable ↔ statement.IsWritable :=
  ⟨fun writable => ⟨writable.result, writable.operands⟩,
    fun writable => ⟨writable.result, writable.operands⟩⟩

end Statement

/-- The lines of a text of statements are those of the statements. -/
theorem sourceLines_writeSource {statements : List Statement} (nonempty : statements ≠ [])
    (writable : ∀ statement ∈ statements, statement.IsWritable) :
    sourceLines (writeSource statements) =
      statements.map fun statement => statement.write.toList := by
  have joined : (writeSource statements).toList =
      ['\n'].intercalate (statements.map fun statement => statement.write.toList) := by
    rw [writeSource, String.toList_intercalate, List.map_map]
    rfl
  rw [sourceLines, joined]
  have free : ∀ line ∈ statements.map fun statement => statement.write.toList, '\n' ∉ line :=
    List.forall_mem_map.mpr fun statement mem => (writable statement mem).newline_not_mem
  exact List.splitOn_intercalate '\n' free (by simpa using nonempty)

/-- A statement may be written exactly if it may be wherever it stands. -/
theorem forall_consecutive {start : ℕ} {statements : List Statement} :
    (∀ statement ∈ consecutive start statements, statement.IsWritable) ↔
      ∀ statement ∈ statements, statement.IsWritable := by
  induction statements generalizing start with
  | nil => simp [consecutive]
  | cons first statements hyp =>
      rw [consecutive, List.forall_mem_cons, List.forall_mem_cons, hyp,
        Statement.isWritable_onLine]

/-- Statements are parsed again from what is written for them, on lines one, two and so on, exactly
if their names, words and floats match their patterns and their strings have no line ends, and
whatever is parsed is so. -/
theorem parseSource_writeSource :
    (∀ statements : List Statement,
      parseSource (writeSource statements) = .ok (consecutive 1 statements) ↔
        ∀ statement ∈ statements, statement.IsWritable) ∧
    ∀ (source : String) (statements : List Statement), parseSource source = .ok statements →
      ∀ statement ∈ statements, statement.IsWritable := by
  refine ⟨fun statements => ?_, fun _ _ => isWritable_of_parseSource⟩
  constructor
  · intro parsed
    exact forall_consecutive.mp (isWritable_of_parseSource parsed)
  · intro writable
    by_cases empty : statements = []
    · rw [empty]
      decide +kernel
    · have parse : List.Forall₂
          (fun line draft => ∀ number, parseLine number line = .ok (some (draft.onLine number)))
          (statements.map fun statement => statement.write.toList) statements := by
        rw [List.forall₂_map_left_iff, List.forall₂_same]
        exact fun statement mem => (writable statement mem).parseLine_write
      rw [exists_of_parseSource, sourceLines_writeSource empty writable]
      refine ⟨_, mapM_parseLine_statements parse 1, ?_⟩
      simp [List.filterMap_map]

/-- A float without digits behind its point, and a string with a quote, a backslash and a
semicolon before a word with bars. -/
theorem parseSource_writeSource_mixed :
    let constant : Statement := ⟨7, some "x.1", .constant, [.id "_", .float "-1.e+5"]⟩
    let nop : Statement := ⟨7, none, .nop, [.str "\"\\;", .word "A|_1", .integer (-1), .bits 255]⟩
    writeSource [constant, nop] = "%x.1 = OpConstant %_ -1.e+5\nOpNop \"\\\"\\\\;\" A|_1 -1 0xff" ∧
      parseSource (writeSource [constant, nop]) =
        .ok [{ constant with line := 1 }, { nop with line := 2 }] ∧
      Statement.IsWritable { nop with line := 2 } := by
  intro constant nop
  have is_power : IsPower ('e' :: ['+'] ++ ['5']) :=
    .intro (.inl rfl) (.inr (.inl rfl)) ⟨by decide, by simp⟩
  have is_float : IsFloatText (['-'] ++ ['1'] ++ '.' :: [] ++ ('e' :: ['+'] ++ ['5'])) :=
    .point (.inr rfl) ⟨by decide, by simp⟩ (by simp) (.inr is_power)
  have is_word : IsWordText "A|_1".toList := ⟨['A'], [['_', '1']], by decide, by decide, by decide⟩
  have free : '\n' ∉ "\"\\;".toList := by decide
  have name (text : String) (nonempty : text.toList ≠ [])
      (all : text.toList.all isIdChar = true) : IsReferenceName text :=
    ⟨nonempty, List.all_eq_true.mp all⟩
  have writable : ∀ statement ∈ [constant, nop], statement.IsWritable := by
    rw [List.forall_mem_cons, List.forall_mem_singleton]
    refine ⟨⟨?_, ?_⟩, ⟨nofun, ?_⟩⟩
    · rintro _ ⟨⟩
      exact name "x.1" (by decide) (by decide)
    · exact List.forall_mem_cons.mpr ⟨name "_" (by decide) (by decide),
        List.forall_mem_singleton.mpr is_float⟩
    · simp only [nop, List.forall_mem_cons]
      exact ⟨free, is_word, trivial, trivial, nofun⟩
  have parsed := (parseSource_writeSource.1 _).mpr writable
  exact ⟨by decide +kernel, parsed, parseSource_writeSource.2 _ _ parsed _
    (List.mem_cons_of_mem _ List.mem_cons_self)⟩

end ShaderMachine
