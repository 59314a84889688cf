import ShaderMachine.Proofs.RespacedLines
import ShaderMachine.Proofs.TokenPatterns

/-! # Texts joined by a line end

A text is cut into tokens from its front to its end, each the longest match of a pattern there, and
line ends are tokens of their own. No pattern has a line end in it, so the same tokens are found
line by line, and a text after another one is parsed as if it stood alone, but for its line numbers.

* **`Tokenizes`** — the tokens of a text, on their lines.
* **`tokenizes_append`** — texts joined by a line end are cut into tokens one after the other.
* **`parseSource_eq_ok_iff`** — a text is parsed from its tokens.
* **`IsLine`** — the lines of a text and their numbers.
* **`parseSource_compositional`** — texts joined by a line end are parsed one after the other. -/

namespace ShaderMachine

/-! ## The longest match -/

/-- Whether a text is as long as any at the front of it, and of what follows, that matches a
pattern. -/
def IsLongest (text rest : List Char) : Prop :=
  ∀ other reading, StandsFor other reading → other <+: text ++ rest → other.length ≤ text.length

/-- Whether a text is cut into tokens, which are listed line by line. -/
inductive Tokenizes : List Char → List (List Token) → Prop
  /-- An empty text is one line without tokens. -/
  | nil : Tokenizes [] [[]]
  /-- A line end starts a line. -/
  | newline {rest : List Char} {lines : List (List Token)} (cut : Tokenizes rest lines) :
      Tokenizes ('\n' :: rest) ([] :: lines)
  /-- Blanks and comments are no tokens. -/
  | blank {text rest : List Char} {lines : List (List Token)} (stands : StandsFor text .blank)
      (longest : IsLongest text rest) (cut : Tokenizes rest lines) : Tokenizes (text ++ rest) lines
  /-- A token is on the line that it starts. -/
  | token {text rest : List Char} {token : Token} {tokens : List Token} {lines : List (List Token)}
      (stands : StandsFor text (.token token)) (longest : IsLongest text rest)
      (cut : Tokenizes rest (tokens :: lines)) :
      Tokenizes (text ++ rest) ((token :: tokens) :: lines)

/-- What has no line end and stands in front of a text stands in front of its first line. -/
theorem prefix_append_newline {text : List Char} (free : '\n' ∉ text) (line rest : List Char) :
    text <+: line ++ '\n' :: rest ↔ text <+: line := by
  refine ⟨fun front => ?_, fun front => front.trans (List.prefix_append _ _)⟩
  rcases List.prefix_or_prefix_of_prefix front (List.prefix_append line _) with within | beyond
  · exact within
  · obtain ⟨more, rfl⟩ := beyond
    rw [List.prefix_append_right_inj] at front
    cases more with
    | nil => simp
    | cons c more =>
        obtain ⟨rfl, -⟩ := List.cons_prefix_cons.mp front
        simp at free

/-- Whether a match is the longest one does not depend on the lines below. -/
theorem isLongest_newline (text line rest : List Char) :
    IsLongest text (line ++ '\n' :: rest) ↔ IsLongest text line := by
  refine forall₃_congr fun other reading stands => ?_
  rw [← List.append_assoc, prefix_append_newline stands.newline_not_mem]

/-- The longest match at the front of a line is what is cut off it. -/
theorem StandsFor.frontLexeme_append {text rest : List Char} {reading : Reading}
    (stands : StandsFor text reading) (longest : IsLongest text rest) (on_line : '\n' ∉ rest) :
    frontLexeme (text ++ rest) = ⟨text, reading⟩ := by
  have found := stands.standsFor_append on_line
  have short := longest _ _ found (frontLexeme_front _)
  have whole := (stands.prefix_frontLexeme rest).eq_of_length_le short
  rw [← whole] at found
  calc frontLexeme (text ++ rest)
      = ⟨(frontLexeme (text ++ rest)).text, (frontLexeme (text ++ rest)).reading⟩ := rfl
    _ = ⟨text, reading⟩ := by rw [← whole, stands.unique found]

/-- What is cut off a line is the longest match there. -/
theorem isLongest_frontLexeme {line rest : List Char}
    (line_eq : (frontLexeme line).text ++ rest = line) :
    IsLongest (frontLexeme line).text rest := by
  intro other reading stands front
  rw [line_eq] at front
  obtain ⟨more, rfl⟩ := front
  exact (stands.prefix_frontLexeme more).length_le

/-! ## Lines -/

/-- A text has at least one line. -/
theorem Tokenizes.ne_nil {text : List Char} {lines : List (List Token)}
    (cut : Tokenizes text lines) : lines ≠ [] := by
  induction cut with
  | nil => exact List.cons_ne_nil _ _
  | newline _ _ => exact List.cons_ne_nil _ _
  | blank _ _ _ hyp => exact hyp
  | token _ _ _ _ => exact List.cons_ne_nil _ _

/-- A text has one line more than it has line ends. -/
theorem Tokenizes.length_eq {text : List Char} {lines : List (List Token)}
    (cut : Tokenizes text lines) : lines.length = text.count '\n' + 1 := by
  induction cut with
  | nil => rfl
  | newline _ hyp => rw [List.length_cons, hyp, List.count_cons_self]
  | blank stands _ _ hyp =>
      rw [hyp, List.count_append, List.count_eq_zero_of_not_mem stands.newline_not_mem,
        Nat.zero_add]
  | token stands _ _ hyp =>
      rw [List.length_cons] at hyp ⊢
      rw [hyp, List.count_append, List.count_eq_zero_of_not_mem stands.newline_not_mem,
        Nat.zero_add]

/-- A match at the front of texts joined by a line end is one at the front of the first text. -/
theorem exists_front {text rest first second : List Char} (free : '\n' ∉ text)
    (joined : text ++ rest = first ++ '\n' :: second) :
    ∃ more, first = text ++ more ∧ rest = more ++ '\n' :: second := by
  have front : text <+: first ++ '\n' :: second := ⟨rest, joined⟩
  obtain ⟨more, rfl⟩ := (prefix_append_newline free _ _).mp front
  rw [List.append_assoc] at joined
  exact ⟨more, rfl, List.append_cancel_left joined⟩

/-- Texts joined by a line end are cut into the tokens of the first one and then those of the
second. -/
theorem tokenizes_append {first second : List Char} {lines : List (List Token)} :
    Tokenizes (first ++ '\n' :: second) lines ↔
      ∃ above below, Tokenizes first above ∧ Tokenizes second below ∧ lines = above ++ below := by
  constructor
  · intro cut
    -- Induction on the cut: the newline between the texts ends a token, and no token contains it.
    generalize joined : first ++ '\n' :: second = text at cut
    induction cut generalizing first with
    | nil => simp at joined
    | @newline rest lines cut hyp =>
        cases first with
        | nil =>
            obtain ⟨-, rfl⟩ := List.cons.inj joined
            exact ⟨[[]], lines, .nil, cut, rfl⟩
        | cons c first =>
            obtain ⟨rfl, tail_eq⟩ := List.cons.inj joined
            obtain ⟨above, below, cut_first, cut_second, rfl⟩ := hyp tail_eq
            exact ⟨[] :: above, below, .newline cut_first, cut_second, rfl⟩
    | @blank text rest lines stands longest cut hyp =>
        obtain ⟨more, rfl, rfl⟩ := exists_front stands.newline_not_mem joined.symm
        obtain ⟨above, below, cut_first, cut_second, rfl⟩ := hyp rfl
        rw [isLongest_newline] at longest
        exact ⟨above, below, .blank stands longest cut_first, cut_second, rfl⟩
    | @token text rest token tokens lines stands longest cut hyp =>
        obtain ⟨more, rfl, rfl⟩ := exists_front stands.newline_not_mem joined.symm
        obtain ⟨above, below, cut_first, cut_second, lines_eq⟩ := hyp rfl
        rw [isLongest_newline] at longest
        obtain ⟨line, above, rfl⟩ := List.exists_cons_of_ne_nil cut_first.ne_nil
        obtain ⟨rfl, rfl⟩ := List.cons.inj lines_eq
        exact ⟨(token :: tokens) :: above, below, .token stands longest cut_first, cut_second, rfl⟩
  · rintro ⟨above, below, cut_first, cut_second, rfl⟩
    induction cut_first with
    | nil => exact .newline cut_second
    | newline _ hyp => exact .newline hyp
    | blank stands longest _ hyp =>
        rw [List.append_assoc]
        exact .blank stands ((isLongest_newline _ _ _).mpr longest) hyp
    | token stands longest _ hyp =>
        rw [List.append_assoc]
        exact .token stands ((isLongest_newline _ _ _).mpr longest) hyp

/-- What a stretch of a line holds; blanks and comments hold nothing. -/
def Lexeme.item? (found : Lexeme) : Option ScannedToken :=
  match found.reading with
  | .blank => none
  | .token token => some (.ok token)
  | .bad => some (.error (String.ofList found.text))

/-- What is cut off the front of a line is the first thing that the line holds. -/
theorem scannedItems_append {text rest : List Char} {reading : Reading} (nonempty : text ≠ [])
    (front : frontLexeme (text ++ rest) = ⟨text, reading⟩) :
    scannedItems (text ++ rest) = (Lexeme.item? ⟨text, reading⟩).toList ++ scannedItems rest := by
  obtain ⟨c, text, rfl⟩ := List.exists_cons_of_ne_nil nonempty
  change lexeme c (text ++ rest) = _ at front
  rw [List.cons_append, scannedItems, scanLine, scanFrom, front]
  simp only [List.length_cons, Nat.add_sub_cancel, List.drop_left]
  cases reading <;>
    simp only [scanFrom_eq, scannedItems, List.map_append, List.map_map] <;> rfl

/-- A line that is cut into tokens holds these tokens and nothing that is bad. -/
theorem scannedItems_of_tokenizes {line : List Char} {lines : List (List Token)}
    (cut : Tokenizes line lines) (on_line : '\n' ∉ line) :
    ∃ tokens, lines = [tokens] ∧ scannedItems line = tokens.map Except.ok := by
  induction cut with
  | nil => exact ⟨[], rfl, scannedItems_nil⟩
  | newline _ _ => simp at on_line
  | blank stands longest _ hyp =>
      rw [List.mem_append, not_or] at on_line
      obtain ⟨tokens, rfl, items⟩ := hyp on_line.2
      have front := stands.frontLexeme_append longest on_line.2
      exact ⟨tokens, rfl, (scannedItems_append stands.ne_nil front).trans items⟩
  | @token text rest token tokens lines stands longest _ hyp =>
      rw [List.mem_append, not_or] at on_line
      obtain ⟨tokens, lines_eq, items⟩ := hyp on_line.2
      obtain ⟨rfl, rfl⟩ := List.cons.inj lines_eq
      have front := stands.frontLexeme_append longest on_line.2
      exact ⟨token :: _, rfl, by rw [scannedItems_append stands.ne_nil front, items]; rfl⟩

/-- A line that holds only tokens starts with a longest match of a pattern that is not bad. -/
theorem exists_front_of_scannedItems {line : List Char} (nonempty : line ≠ [])
    (on_line : '\n' ∉ line) {tokens : List Token}
    (items : scannedItems line = tokens.map Except.ok) :
    ∃ text rest reading, line = text ++ rest ∧ reading ≠ .bad ∧ StandsFor text reading ∧
      IsLongest text rest ∧ frontLexeme (text ++ rest) = ⟨text, reading⟩ := by
  obtain ⟨c, tail, rfl⟩ := List.exists_cons_of_ne_nil nonempty
  obtain ⟨rest, line_eq⟩ := frontLexeme_front (c :: tail)
  have good : (frontLexeme (c :: tail)).reading ≠ .bad := by
    intro bad
    have mem := scanLine_bad bad
    rw [items] at mem
    simp at mem
  exact ⟨_, rest, _, line_eq.symm, good, standsFor_frontLexeme on_line good,
    isLongest_frontLexeme line_eq, congrArg frontLexeme line_eq⟩

/-- A line that holds only tokens is cut into these tokens. -/
theorem tokenizes_of_scannedItems {line : List Char} (on_line : '\n' ∉ line) {tokens : List Token}
    (items : scannedItems line = tokens.map Except.ok) : Tokenizes line [tokens] := by
  induction length_eq : line.length using Nat.strong_induction_on generalizing line tokens with
  | _ length hyp =>
      subst length_eq
      rcases eq_or_ne line [] with rfl | nonempty
      · rw [scannedItems_nil, eq_comm, List.map_eq_nil_iff] at items
        rw [items]
        exact .nil
      · obtain ⟨text, rest, reading, rfl, good, stands, longest, front⟩ :=
          exists_front_of_scannedItems nonempty on_line items
        have shorter : rest.length < (text ++ rest).length := by
          have positive := List.length_pos_of_ne_nil stands.ne_nil
          rw [List.length_append]
          omega
        rw [List.mem_append, not_or] at on_line
        rw [scannedItems_append stands.ne_nil front] at items
        cases reading with
        | bad => exact absurd rfl good
        | blank => exact .blank stands longest (hyp _ shorter on_line.2 items rfl)
        | token token =>
            obtain ⟨_, others, rfl, is_token, other_items⟩ := List.map_eq_cons_iff.mp items.symm
            cases is_token
            exact .token stands longest (hyp _ shorter on_line.2 other_items.symm rfl)

/-- A line is cut into tokens exactly if these are what it holds. -/
theorem tokenizes_line_iff {line : List Char} (on_line : '\n' ∉ line) {lines : List (List Token)} :
    Tokenizes line lines ↔
      ∃ tokens, lines = [tokens] ∧ scannedItems line = tokens.map Except.ok := by
  constructor
  · intro cut
    exact scannedItems_of_tokenizes cut on_line
  · rintro ⟨tokens, rfl, items⟩
    exact tokenizes_of_scannedItems on_line items

/-- A text is cut into the tokens of its lines. -/
theorem tokenizes_iff {text : List Char} {lines : List (List Token)} :
    Tokenizes text lines ↔
      List.Forall₂ (fun line tokens => scannedItems line = tokens.map Except.ok)
        (text.splitOn '\n') lines := by
  induction length_eq : text.length using Nat.strong_induction_on generalizing text lines with
  | _ length hyp =>
      subst length_eq
      by_cases mem : '\n' ∈ text
      · obtain ⟨first, second, rfl, free⟩ := List.eq_append_cons_of_mem mem
        rw [List.splitOn_append_cons_self_of_not_mem free, tokenizes_append,
          List.forall₂_cons_left_iff]
        have below_iff (below : List (List Token)) : Tokenizes second below ↔
            List.Forall₂ (fun line tokens => scannedItems line = tokens.map Except.ok)
              (second.splitOn '\n') below :=
          hyp second.length (by simp; omega) rfl
        constructor
        · rintro ⟨above, below, cut_first, cut_second, rfl⟩
          obtain ⟨tokens, rfl, items⟩ := (tokenizes_line_iff free).mp cut_first
          exact ⟨tokens, below, items, (below_iff below).mp cut_second, rfl⟩
        · rintro ⟨tokens, below, items, cut_second, rfl⟩
          exact ⟨[tokens], below, (tokenizes_line_iff free).mpr ⟨tokens, rfl, items⟩,
            (below_iff below).mpr cut_second, rfl⟩
      · rw [List.splitOn_eq_singleton mem, tokenizes_line_iff mem, List.forall₂_cons_left_iff]
        simp only [List.forall₂_nil_left_iff]
        constructor
        · rintro ⟨tokens, rfl, items⟩
          exact ⟨tokens, [], items, rfl, rfl⟩
        · rintro ⟨tokens, _, items, rfl, rfl⟩
          exact ⟨tokens, rfl, items⟩

/-! ## Statements -/

/-- The statements of lines of tokens, the first of which has the number `start`. -/
def statementsOfTokens (start : ℕ) : List (List Token) → Except AssemblyError (List Statement)
  | [] => .ok []
  | tokens :: lines => do
      let statement ← Statement.ofTokens? start tokens
      let statements ← statementsOfTokens (start + 1) lines
      return statement.toList ++ statements

/-- A statement on a line further below. -/
def Statement.movedBy (distance : ℕ) (statement : Statement) : Statement :=
  statement.onLine (statement.line + distance)

/-- Lines have statements exactly if the first one and those below do. -/
theorem statementsOfTokens_cons {start : ℕ} {tokens : List Token} {lines : List (List Token)}
    {statements : List Statement} :
    statementsOfTokens start (tokens :: lines) = .ok statements ↔
      ∃ first others, Statement.ofTokens? start tokens = .ok first ∧
        statementsOfTokens (start + 1) lines = .ok others ∧
        statements = first.toList ++ others := by
  rw [statementsOfTokens]
  constructor
  · intro read
    obtain ⟨first, first_ok, read⟩ := exists_of_bind read
    obtain ⟨others, others_ok, is⟩ := exists_of_bind read
    cases is
    exact ⟨first, others, first_ok, others_ok, rfl⟩
  · rintro ⟨first, others, first_ok, others_ok, rfl⟩
    rw [first_ok]
    change (statementsOfTokens (start + 1) lines >>= _) = _
    rw [others_ok]
    rfl

/-- Lines have statements exactly if those above a place and those below it do. -/
theorem statementsOfTokens_append {start : ℕ} {above below : List (List Token)}
    {statements : List Statement} :
    statementsOfTokens start (above ++ below) = .ok statements ↔
      ∃ before after, statementsOfTokens start above = .ok before ∧
        statementsOfTokens (start + above.length) below = .ok after ∧
        statements = before ++ after := by
  induction above generalizing start statements with
  | nil =>
      constructor
      · exact fun read => ⟨[], statements, rfl, read, rfl⟩
      · rintro ⟨_, after, is, read, rfl⟩
        cases is
        exact read
  | cons tokens above hyp =>
      have place : start + (tokens :: above).length = start + 1 + above.length := by
        rw [List.length_cons]
        omega
      rw [List.cons_append, statementsOfTokens_cons, place]
      constructor
      · rintro ⟨first, others, first_ok, others_ok, rfl⟩
        obtain ⟨before, after, above_ok, below_ok, rfl⟩ := hyp.mp others_ok
        exact ⟨first.toList ++ before, after,
          statementsOfTokens_cons.mpr ⟨first, before, first_ok, above_ok, rfl⟩, below_ok,
          (List.append_assoc _ _ _).symm⟩
      · rintro ⟨_, after, before_ok, below_ok, rfl⟩
        obtain ⟨first, before, first_ok, above_ok, rfl⟩ := statementsOfTokens_cons.mp before_ok
        exact ⟨first, before ++ after, first_ok, hyp.mpr ⟨before, after, above_ok, below_ok, rfl⟩,
          List.append_assoc _ _ _⟩

/-- The statement of a line has the number of the line. -/
theorem line_of_ofTokens? {number : ℕ} {tokens : List Token} {statement : Statement}
    (read : Statement.ofTokens? number tokens = .ok (some statement)) :
    statement.line = number := by
  have built {result : Option String} {mnemonic : String} {tokens : List Token}
      (is : (Statement.build number result mnemonic tokens).map some = .ok (some statement)) :
      statement.line = number := by
    obtain ⟨built, built_ok, is⟩ := exists_of_map is
    cases is
    unfold Statement.build at built_ok
    split at built_ok
    · cases built_ok
    · obtain ⟨operands, -, rfl⟩ := exists_of_map built_ok
      rfl
  unfold Statement.ofTokens? at read
  split at read
  · cases read
  · exact built read
  · cases read
  · cases read
  · exact built read
  · cases read

/-- Statements are in the order of their lines. -/
theorem lines_of_statementsOfTokens {start : ℕ} {lines : List (List Token)}
    {statements : List Statement} (read : statementsOfTokens start lines = .ok statements) :
    (∀ statement ∈ statements, start ≤ statement.line) ∧
      statements.Pairwise (fun upper lower => upper.line < lower.line) := by
  induction lines generalizing start statements with
  | nil =>
      cases read
      simp
  | cons tokens lines hyp =>
      obtain ⟨first, others, first_ok, others_ok, rfl⟩ := statementsOfTokens_cons.mp read
      obtain ⟨below, sorted⟩ := hyp others_ok
      cases first with
      | none => exact ⟨fun statement mem => Nat.le_of_succ_le (below statement mem), sorted⟩
      | some first =>
          have first_line := line_of_ofTokens? first_ok
          simp only [Option.toList_some, List.singleton_append, List.forall_mem_cons,
            List.pairwise_cons]
          exact ⟨⟨first_line.ge, fun statement mem => Nat.le_of_succ_le (below statement mem)⟩,
            fun statement mem => first_line ▸ below statement mem, sorted⟩

/-- Tokens on a line further below are the same statement there. -/
theorem ofTokens?_add {number distance : ℕ} {tokens : List Token} {statement : Option Statement} :
    Statement.ofTokens? (number + distance) tokens = .ok statement ↔
      ∃ original, Statement.ofTokens? number tokens = .ok original ∧
        statement = original.map (Statement.movedBy distance) := by
  -- The two readings hold the same draft, and each has the number of its line.
  have moved {original statement : Option Statement}
      (original_ok : Statement.ofTokens? number tokens = .ok original)
      (statement_ok : Statement.ofTokens? (number + distance) tokens = .ok statement)
      (same : SameDraft original statement) :
      statement = original.map (Statement.movedBy distance) := by
    cases original with
    | none =>
        cases statement with
        | none => rfl
        | some _ => cases same
    | some original =>
        cases statement with
        | none => cases same
        | some statement =>
            have original_line := line_of_ofTokens? original_ok
            have statement_line := line_of_ofTokens? statement_ok
            obtain ⟨line, result, opcode, operands⟩ := original
            obtain ⟨line', result', opcode', operands'⟩ := statement
            simp only [SameDraft, Option.map_some, Statement.onLine, Option.some.injEq,
              Statement.mk.injEq, true_and] at same
            obtain ⟨rfl, rfl, rfl⟩ := same
            dsimp only at original_line statement_line
            rw [Option.map_some, Statement.movedBy, Statement.onLine, statement_line, original_line]
  have agree := agree_ofTokens? number (number + distance) tokens
  constructor
  · intro statement_ok
    obtain ⟨original, original_ok, same⟩ := agree.exists_first statement_ok
    exact ⟨original, original_ok, moved original_ok statement_ok same⟩
  · rintro ⟨original, original_ok, rfl⟩
    obtain ⟨statement, statement_ok, same⟩ := agree.exists_second original_ok
    rw [statement_ok, moved original_ok statement_ok same]

/-- Lines further below have the same statements there. -/
theorem statementsOfTokens_add {start distance : ℕ} {lines : List (List Token)}
    {statements : List Statement} :
    statementsOfTokens (start + distance) lines = .ok statements ↔
      ∃ originals, statementsOfTokens start lines = .ok originals ∧
        statements = originals.map (Statement.movedBy distance) := by
  induction lines generalizing start statements with
  | nil =>
      constructor
      · intro is
        cases is
        exact ⟨[], rfl, rfl⟩
      · rintro ⟨_, is, rfl⟩
        cases is
        rfl
  | cons tokens lines hyp =>
      -- Moving statements goes into the lines.
      have joined (first : Option Statement) (others : List Statement) :
          (first.toList ++ others).map (Statement.movedBy distance) =
            (first.map (Statement.movedBy distance)).toList ++
              others.map (Statement.movedBy distance) := by
        cases first <;> rfl
      rw [statementsOfTokens_cons, Nat.add_right_comm]
      constructor
      · rintro ⟨first, others, first_ok, others_ok, rfl⟩
        obtain ⟨original, original_ok, rfl⟩ := ofTokens?_add.mp first_ok
        obtain ⟨originals, originals_ok, rfl⟩ := hyp.mp others_ok
        exact ⟨_, statementsOfTokens_cons.mpr ⟨_, _, original_ok, originals_ok, rfl⟩,
          (joined _ _).symm⟩
      · rintro ⟨_, read, rfl⟩
        obtain ⟨original, originals, original_ok, originals_ok, rfl⟩ :=
          statementsOfTokens_cons.mp read
        exact ⟨_, _, ofTokens?_add.mpr ⟨_, original_ok, rfl⟩, hyp.mpr ⟨_, originals_ok, rfl⟩,
          joined _ _⟩

/-- A text is parsed from its lines. -/
theorem exists_of_parseSource {source : String} {statements : List Statement} :
    parseSource source = .ok statements ↔
      ∃ found, (((sourceLines source).zipIdx 1).mapM fun (line, number) =>
          parseLine number line) = .ok found ∧ statements = found.filterMap id := by
  rw [parseSource]
  constructor
  · intro parsed
    obtain ⟨found, found_ok, is⟩ := exists_of_bind parsed
    cases is
    exact ⟨found, found_ok, rfl⟩
  · rintro ⟨found, found_ok, rfl⟩
    dsimp only
    rw [found_ok]
    rfl

/-- Lines are parsed from their tokens. -/
theorem exists_parsed_iff {lines : List (List Char)} {start : ℕ} {statements : List Statement} :
    (∃ found, ((lines.zipIdx start).mapM fun (line, number) => parseLine number line) = .ok found ∧
        statements = found.filterMap id) ↔
      ∃ tokens, List.Forall₂ (fun line tokens => scannedItems line = tokens.map Except.ok) lines
          tokens ∧ statementsOfTokens start tokens = .ok statements := by
  have filtered (first : Option Statement) (found : List (Option Statement)) :
      (first :: found).filterMap id = first.toList ++ found.filterMap id := by
    cases first <;> rfl
  -- Induction on the lines, of which each has its own tokens.
  induction lines generalizing start statements with
  | nil =>
      constructor
      · rintro ⟨_, is, rfl⟩
        cases is
        exact ⟨[], .nil, rfl⟩
      · rintro ⟨_, is_nil, is⟩
        cases is_nil
        cases is
        exact ⟨[], rfl, rfl⟩
  | cons line lines hyp =>
      rw [List.zipIdx_cons, List.mapM_cons]
      constructor
      · rintro ⟨_, parsed, rfl⟩
        obtain ⟨first, first_ok, parsed⟩ := exists_of_bind parsed
        obtain ⟨found, found_ok, is⟩ := exists_of_bind parsed
        cases is
        obtain ⟨tokens, cut, read⟩ := exists_of_bind first_ok
        obtain ⟨others, items, others_read⟩ := hyp.mp ⟨found, found_ok, rfl⟩
        exact ⟨tokens :: others, .cons (lineTokens_eq_ok_iff.mp cut) items,
          statementsOfTokens_cons.mpr ⟨first, _, read, others_read, filtered _ _⟩⟩
      · rintro ⟨_, items, read⟩
        obtain ⟨tokens, others, first_items, other_items, rfl⟩ :=
          List.forall₂_cons_left_iff.mp items
        obtain ⟨first, rest, first_read, others_read, rfl⟩ := statementsOfTokens_cons.mp read
        obtain ⟨found, found_ok, rfl⟩ := hyp.mpr ⟨others, other_items, others_read⟩
        have first_ok : parseLine start line = .ok first := by
          rw [parseLine, lineTokens_eq_ok_iff.mpr first_items]
          exact first_read
        refine ⟨first :: found, ?_, (filtered _ _).symm⟩
        rw [found_ok]
        dsimp only
        rw [first_ok]
        rfl

/-- A text is parsed from its tokens. -/
theorem parseSource_eq_ok_iff {source : String} {statements : List Statement} :
    parseSource source = .ok statements ↔
      ∃ lines, Tokenizes source.toList lines ∧ statementsOfTokens 1 lines = .ok statements := by
  rw [exists_of_parseSource, exists_parsed_iff]
  simp only [tokenizes_iff, sourceLines]

/-- Texts joined by a line end have the statements of the first one and then those of the second,
on lines further below. -/
theorem parseSource_append {first second : String} {statements : List Statement} :
    parseSource (first ++ "\n" ++ second) = .ok statements ↔
      ∃ before after, parseSource first = .ok before ∧ parseSource second = .ok after ∧
        statements =
          before ++ after.map (Statement.movedBy (first.toList.count '\n' + 1)) := by
  have joined : (first ++ "\n" ++ second).toList = first.toList ++ '\n' :: second.toList := by simp
  simp only [parseSource_eq_ok_iff, joined, tokenizes_append]
  constructor
  · rintro ⟨_, ⟨above, below, cut_first, cut_second, rfl⟩, read⟩
    obtain ⟨before, after, above_ok, below_ok, rfl⟩ := statementsOfTokens_append.mp read
    rw [cut_first.length_eq] at below_ok
    obtain ⟨originals, originals_ok, rfl⟩ := statementsOfTokens_add.mp below_ok
    exact ⟨before, originals, ⟨above, cut_first, above_ok⟩, ⟨below, cut_second, originals_ok⟩, rfl⟩
  · rintro ⟨before, originals, ⟨above, cut_first, above_ok⟩, ⟨below, cut_second, originals_ok⟩, rfl⟩
    refine ⟨above ++ below, ⟨above, below, cut_first, cut_second, rfl⟩,
      statementsOfTokens_append.mpr ⟨before, _, above_ok, ?_, rfl⟩⟩
    rw [cut_first.length_eq]
    exact statementsOfTokens_add.mpr ⟨originals, originals_ok, rfl⟩

/-! ## Lines of a text -/

/-- Whether a text has a line with a number, which is one for the first line. -/
def IsLine (text : List Char) (number : ℕ) (line : List Char) : Prop :=
  ∃ above below, text = above ++ line ++ below ∧ '\n' ∉ line ∧ number = above.count '\n' + 1 ∧
    (∀ c ∈ above.getLast?, c = '\n') ∧ ∀ c ∈ below.head?, c = '\n'

/-- The first line of a text is told from those below. -/
theorem append_newline_inj {first first' second second' : List Char} (free : '\n' ∉ first)
    (free' : '\n' ∉ first') (same : first ++ '\n' :: second = first' ++ '\n' :: second') :
    first = first' ∧ second = second' := by
  obtain ⟨more, rfl, tail_eq⟩ := exists_front free same
  cases more with
  | nil => exact ⟨(List.append_nil _).symm, (List.cons.inj tail_eq).2⟩
  | cons c more =>
      obtain ⟨rfl, -⟩ := List.cons.inj tail_eq
      simp at free'

/-- A text without line ends is its only line. -/
theorem isLine_of_free {text line : List Char} {number : ℕ} (free : '\n' ∉ text) :
    IsLine text number line ↔ number = 1 ∧ line = text := by
  constructor
  · rintro ⟨above, below, rfl, -, rfl, after_end, before_end⟩
    simp only [List.mem_append, not_or] at free
    obtain ⟨⟨above_free, -⟩, below_free⟩ := free
    have none_above : above = [] := by
      by_contra some_above
      have mem := List.getLast_mem some_above
      rw [after_end _ (List.getLast?_eq_some_getLast some_above)] at mem
      exact above_free mem
    have none_below : below = [] := by
      cases below with
      | nil => rfl
      | cons c below =>
          rw [before_end c rfl] at below_free
          simp at below_free
    simp [none_above, none_below]
  · rintro ⟨rfl, rfl⟩
    exact ⟨[], [], by simp, free, rfl, by simp, by simp⟩

/-- The lines of texts joined by a line end, the first of which is one line. -/
theorem isLine_append {first second line : List Char} {number : ℕ} (free : '\n' ∉ first) :
    IsLine (first ++ '\n' :: second) number line ↔
      (number = 1 ∧ line = first) ∨ ∃ below, number = below + 1 ∧ IsLine second below line := by
  constructor
  · rintro ⟨above, below, text_eq, line_free, rfl, after_end, before_end⟩
    -- A line behind a newline is one of the second text.
    by_cases mem : '\n' ∈ above
    · obtain ⟨front, above, rfl, front_free⟩ := List.eq_append_cons_of_mem mem
      rw [List.append_assoc, List.append_assoc, List.cons_append] at text_eq
      obtain ⟨rfl, rfl⟩ := append_newline_inj free front_free text_eq
      refine .inr ⟨above.count '\n' + 1, ?_, above, below, (List.append_assoc _ _ _).symm,
        line_free, rfl, fun c last => after_end c ?_, before_end⟩
      · rw [List.count_append, List.count_eq_zero_of_not_mem free, List.count_cons_self]
        omega
      · cases above with
        | nil => simp at last
        | cons d above => simpa using last
    · obtain rfl : above = [] := by
        by_contra some_above
        have last_mem := List.getLast_mem some_above
        rw [after_end _ (List.getLast?_eq_some_getLast some_above)] at last_mem
        exact mem last_mem
      rw [List.nil_append] at text_eq
      cases below with
      | nil =>
          rw [List.append_nil] at text_eq
          simp [← text_eq] at line_free
      | cons c below =>
          rw [before_end c rfl] at text_eq
          exact .inl ⟨rfl, (append_newline_inj free line_free text_eq).1.symm⟩
  · rintro (⟨rfl, rfl⟩ | ⟨_, rfl, above, below, rfl, line_free, rfl, after_end, before_end⟩)
    · exact ⟨[], '\n' :: second, rfl, free, rfl, by simp, by simp⟩
    · refine ⟨first ++ '\n' :: above, below, by simp, line_free, ?_, fun c last => ?_, before_end⟩
      · rw [List.count_append, List.count_eq_zero_of_not_mem free, List.count_cons_self]
        omega
      · cases above with
        | nil => simpa [eq_comm] using last
        | cons d above => exact after_end c (by simpa using last)

/-- The lines of a text are those between its line ends, in order. -/
theorem isLine_iff {text line : List Char} {number : ℕ} :
    IsLine text number line ↔ (line, number) ∈ (text.splitOn '\n').zipIdx 1 := by
  induction length_eq : text.length using Nat.strong_induction_on generalizing text number with
  | _ length hyp =>
      subst length_eq
      by_cases mem : '\n' ∈ text
      · obtain ⟨first, second, rfl, free⟩ := List.eq_append_cons_of_mem mem
        have below_iff (below : ℕ) :
            IsLine second below line ↔ (line, below) ∈ (second.splitOn '\n').zipIdx 1 :=
          hyp second.length (by simp; omega) rfl
        rw [isLine_append free, List.splitOn_append_cons_self_of_not_mem free, List.zipIdx_cons,
          List.mem_cons, Prod.mk.injEq, and_comm]
        simp only [below_iff, List.mk_mem_zipIdx_iff_le_and_getElem?_sub]
        refine or_congr_right ⟨?_, fun ⟨le, is⟩ => ⟨number - 1, by omega, by omega, ?_⟩⟩
        · rintro ⟨below, rfl, le, is⟩
          exact ⟨by omega, by rwa [Nat.add_sub_add_right]⟩
        · rwa [Nat.sub_sub]
      · rw [isLine_of_free mem, List.splitOn_eq_singleton mem]
        simp [and_comm]

/-- Each line of a text that is parsed is parsed. -/
theorem exists_parseLine {source : String} {statements : List Statement}
    (parsed : parseSource source = .ok statements) {number : ℕ} {line : List Char}
    (is_line : IsLine source.toList number line) : ∃ found, parseLine number line = .ok found := by
  obtain ⟨found, found_ok, -⟩ := exists_of_parseSource.mp parsed
  obtain ⟨value, -, value_ok⟩ := exists_of_mem_mapM found_ok _ (isLine_iff.mp is_line)
  exact ⟨value, value_ok⟩

/-- The statements of a text are those of its lines, each with the number of its line. -/
theorem mem_iff_of_parseSource {source : String} {statements : List Statement}
    (parsed : parseSource source = .ok statements) (statement : Statement) :
    statement ∈ statements ↔ ∃ line, IsLine source.toList statement.line line ∧
      parseLine statement.line line = .ok (some statement) := by
  obtain ⟨found, found_ok, rfl⟩ := exists_of_parseSource.mp parsed
  rw [List.mem_filterMap]
  constructor
  · rintro ⟨_, mem, rfl⟩
    obtain ⟨⟨line, number⟩, placed, line_ok⟩ := exists_of_mapM found_ok _ mem
    obtain ⟨tokens, -, read⟩ := exists_of_bind line_ok
    obtain rfl := line_of_ofTokens? read
    exact ⟨line, isLine_iff.mpr placed, line_ok⟩
  · rintro ⟨line, is_line, line_ok⟩
    obtain ⟨value, mem, value_ok⟩ := exists_of_mem_mapM found_ok _ (isLine_iff.mp is_line)
    cases value_ok.symm.trans line_ok
    exact ⟨_, mem, rfl⟩

/-- Texts joined by a line end parse exactly if each of them does, and then to the statements of
the first one and those of the second, whose lines have larger numbers by one and the line ends of
the first. A text is parsed from its tokens, each the longest match of a pattern wherever it ends,
but no pattern has a line end in it. The statements are in the order of their lines, and each has
the number of the line that it is on. -/
theorem parseSource_compositional :
    (∀ (first second : String) (statements : List Statement),
      parseSource (first ++ "\n" ++ second) = .ok statements ↔
        ∃ before after, parseSource first = .ok before ∧ parseSource second = .ok after ∧
          statements = before ++ after.map fun statement =>
            { statement with line := statement.line + (first.toList.count '\n' + 1) }) ∧
    (∀ (source : String) (statements : List Statement),
      parseSource source = .ok statements ↔
        ∃ lines, Tokenizes source.toList lines ∧ statementsOfTokens 1 lines = .ok statements) ∧
    (∀ (text : List Char) (reading : Reading), StandsFor text reading → '\n' ∉ text) ∧
    ∀ (source : String) (statements : List Statement), parseSource source = .ok statements →
      statements.Pairwise (fun upper lower => upper.line < lower.line) ∧
        ∀ statement, statement ∈ statements ↔
          ∃ line, IsLine source.toList statement.line line ∧
            parseLine statement.line line = .ok (some statement) := by
  refine ⟨fun _ _ _ => parseSource_append, fun _ _ => parseSource_eq_ok_iff,
    fun _ _ => StandsFor.newline_not_mem, fun source statements parsed => ?_⟩
  obtain ⟨lines, -, read⟩ := parseSource_eq_ok_iff.mp parsed
  exact ⟨(lines_of_statementsOfTokens read).2, mem_iff_of_parseSource parsed⟩

/-- A string with a semicolon, a comment with a quote and a line below them. -/
theorem parseSource_compositional_comment :
    parseSource ("%1 = OpString \"; \\\"\" ; \"\n" ++ "\n" ++ " OpNop") =
        .ok [⟨1, some "1", .string, [.str "; \""]⟩, ⟨3, none, .nop, []⟩] ∧
      (∃ line, IsLine "%1 = OpString \"; \\\"\" ; \"\n\n OpNop".toList 3 line ∧
        parseLine 3 line = .ok (some ⟨3, none, .nop, []⟩)) ∧
      '\n' ∉ "; \"".toList := by
  have upper : parseSource "%1 = OpString \"; \\\"\" ; \"\n" =
      .ok [⟨1, some "1", .string, [.str "; \""]⟩] := by decide +kernel
  have lower : parseSource " OpNop" = .ok [⟨1, none, .nop, []⟩] := by decide +kernel
  have joined := (parseSource_compositional.1 _ _ _).mpr ⟨_, _, upper, lower, rfl⟩
  exact ⟨joined, ((parseSource_compositional.2.2.2 _ _ joined).2 ⟨3, none, .nop, []⟩).mp
    (List.mem_cons_of_mem _ List.mem_cons_self),
    parseSource_compositional.2.2.1 _ _ (.comment (by decide))⟩

end ShaderMachine
