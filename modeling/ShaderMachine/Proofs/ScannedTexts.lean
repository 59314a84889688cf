import ShaderMachine.Proofs.SpelledOperand

/-! # Texts that are one token

Scanning a text of one line that is a whole token yields that token. A text with a line end is never
one token: the line end is an item of its own.

* **`scanSource_of_lexesTo`** — a text that is a token is scanned as that token.
* **`newline_mem_scanSource`** — a line end is found.
* **`IsOperandText`** — whether a text is one token, which stands for an operand. -/

namespace ShaderMachine

/-- The line ends and tokens of lines in order, after those already `read` (latest first), with the
place behind the lines. -/
def scanLines (read : List (Placed SourceItem)) (start : ℕ) (lines : List (List Char)) :
    List (Placed SourceItem) × ℕ :=
  lines.foldl (fun (read, start) line =>
    ((lineItems start line).reverse ++ read, start + byteLength line + 1)) (read, start)

/-- A text is scanned line by line; the end of its last line is none of its items. -/
theorem scanSource_eq (source : String) :
    scanSource source = ((scanLines [] 0 (sourceLines source)).1.drop 1).reverse :=
  rfl

/-- Lines are read after what was already read. -/
theorem exists_scanLines {lines : List (List Char)} (nonempty : lines ≠ [])
    (read : List (Placed SourceItem)) (start : ℕ) :
    ∃ added, added ≠ [] ∧ (scanLines read start lines).1 = added ++ read := by
  induction lines generalizing read start with
  | nil => exact absurd rfl nonempty
  | cons line lines hyp =>
      have own : (lineItems start line).reverse ≠ [] := by simp [lineItems]
      by_cases last : lines = []
      · subst last
        exact ⟨_, own, rfl⟩
      · obtain ⟨added, -, added_eq⟩ := hyp last ((lineItems start line).reverse ++ read)
          (start + byteLength line + 1)
        refine ⟨added ++ (lineItems start line).reverse, by simp [own], ?_⟩
        rw [List.append_assoc, ← added_eq]
        rfl

/-- A line end within a text is found. -/
theorem newline_mem_scanSource {source : String} (mem : '\n' ∈ source.toList) :
    .newline ∈ (scanSource source).map Placed.item := by
  obtain ⟨front, back, source_eq, free⟩ := List.eq_append_cons_of_mem mem
  have lines_eq : sourceLines source = front :: back.splitOn '\n' := by
    rw [sourceLines, source_eq, List.splitOn_append_cons_self_of_not_mem free]
  obtain ⟨added, nonempty, added_eq⟩ := exists_scanLines (List.splitOn_ne_nil '\n' back)
    ((lineItems 0 front).reverse ++ []) (0 + byteLength front + 1)
  have items_eq : (scanLines [] 0 (front :: back.splitOn '\n')).1 =
      added ++ ((lineItems 0 front).reverse ++ []) := added_eq
  -- The item that is left out is the latest one, so it comes after those of the first line.
  obtain ⟨last, others, rfl⟩ := List.exists_cons_of_ne_nil nonempty
  rw [scanSource_eq, lines_eq, items_eq]
  simp [lineItems]

/-- A text of one line is scanned as its tokens. -/
theorem scanSource_of_line {source : String} (free : '\n' ∉ source.toList) :
    scanSource source = (lineItems 0 source.toList).dropLast := by
  rw [scanSource_eq, sourceLines, List.splitOn_eq_singleton free]
  simp [scanLines]

/-- A text that is a whole token is scanned as that token. -/
theorem scanSource_of_lexesTo {source : String} {token : Token} (free : '\n' ∉ source.toList)
    (lexes : LexesTo source.toList token) :
    scanSource source = [⟨.token token, 0, byteLength source.toList⟩] := by
  have scanned := scanFrom_token lexes (stops_nil _) [] 0
  rw [List.append_nil] at scanned
  rw [scanSource_of_line free, lineItems, scanLine, scanned, scanFrom]
  simp

/-- A line end of a text is kept between quotes. -/
theorem newline_mem_quoteBare {text : String} (mem : '\n' ∈ text.toList) :
    '\n' ∈ (Text.quoteBare text).toList := by
  have marked : '\n' ∈ Text.markQuotes text.toList := by
    rw [Text.markQuotes, List.mem_flatMap]
    exact ⟨'\n', mem, by simp⟩
  simp [Text.quoteBare, marked]

/-- A text between quotes is scanned as that text exactly if it has no line end. -/
theorem scanSource_quoteBare (text : String) :
    scanSource (Text.quoteBare text) =
        [⟨.token (.str text), 0, byteLength (Text.quoteBare text).toList⟩] ↔
      '\n' ∉ text.toList := by
  constructor
  · intro scanned mem
    have found := newline_mem_scanSource (newline_mem_quoteBare mem)
    rw [scanned] at found
    simp at found
  · intro free
    exact scanSource_of_lexesTo (newline_not_mem_quoteBare free) (lexesTo_str text)

/-! ## Operands -/

/-- Whether a text is scanned as one token, which stands for an operand. -/
def IsOperandText (text : String) (operand : Operand) : Prop :=
  ∃ token, (scanSource text).map Placed.item = [.token token] ∧
    Operand.ofToken? token = some operand

/-- A text stands for one operand. -/
theorem IsOperandText.unique {text : String} {first second : Operand}
    (is_first : IsOperandText text first) (is_second : IsOperandText text second) :
    first = second := by
  obtain ⟨token, scanned, first_eq⟩ := is_first
  obtain ⟨token', scanned', second_eq⟩ := is_second
  rw [scanned] at scanned'
  cases scanned'
  exact Option.some.inj (first_eq.symm.trans second_eq)

/-- What is read as an operand is scanned as such. -/
theorem ReadsAs.isOperandText {text : String} {operand : Operand} (reads : ReadsAs text operand) :
    IsOperandText text operand := by
  obtain ⟨free, token, lexes, stands⟩ := reads
  refine ⟨token, ?_, stands⟩
  rw [scanSource_of_lexesTo free lexes]
  rfl

end ShaderMachine
