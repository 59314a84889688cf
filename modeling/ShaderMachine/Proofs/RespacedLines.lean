import Mathlib.Logic.Relation
import ShaderMachine.Proofs.LexemeContext
import ShaderMachine.Proofs.LineRoundTrip
import ShaderMachine.Proofs.RenamedStatements

/-! # Texts in another layout

What a text assembles to does not depend on how it is laid out: between its tokens there may be any
blanks, at the ends of its lines any comments, and between its lines any blank lines.

* **`scannedItems`** — what a line holds.
* **`scannedItems_replace`** — the rest of a line may be replaced by one that holds the same.
* **`Respaces`** — one change to the layout of lines.
* **`Respaces.drafts_eq`** — such a change leaves what lines hold as it is.
* **`assembleWords_of_respaced`** — a text in another layout assembles to the same words. -/

namespace ShaderMachine

/-! ## Bytes -/

/-- A text is as long as its parts together. -/
theorem byteLength_append (first second : List Char) :
    byteLength (first ++ second) = byteLength first + byteLength second := by
  have folded (text : List Char) (start : ℕ) :
      text.foldl (fun length c => length + c.utf8Size) start = start + byteLength text := by
    unfold byteLength
    induction text generalizing start with
    | nil => rfl
    | cons c text hyp => rw [List.foldl_cons, List.foldl_cons, hyp, hyp (0 + _)]; omega
  rw [byteLength, List.foldl_append, folded]
  rfl

/-- A character more is some bytes more. -/
theorem byteLength_cons (c : Char) (text : List Char) :
    byteLength (c :: text) = c.utf8Size + byteLength text := by
  rw [← List.singleton_append, byteLength_append]
  simp [byteLength]

/-- A text of no bytes is empty. -/
theorem byteLength_eq_zero {text : List Char} (zero : byteLength text = 0) : text = [] := by
  cases text with
  | nil => rfl
  | cons c text =>
      have positive := c.utf8Size_pos
      rw [byteLength_cons] at zero
      omega

/-- Of two texts at the front of one text, the one of no more bytes stands in front of the other. -/
theorem prefix_of_byteLength_le {first second text : List Char} (first_front : first <+: text)
    (second_front : second <+: text) (le : byteLength first ≤ byteLength second) :
    first <+: second := by
  rcases List.prefix_or_prefix_of_prefix first_front second_front with front | front
  · exact front
  · obtain ⟨more, rfl⟩ := front
    rw [byteLength_append] at le
    have none_more : more = [] := byteLength_eq_zero (by omega)
    rw [none_more, List.append_nil]

/-! ## What lines hold -/

/-- The tokens of a line in order, and the texts in it that are none. -/
def scannedItems (line : List Char) : List ScannedToken :=
  (scanLine line).map Placed.item

/-- What stands at a place, moved on by some bytes. -/
def Placed.shift {α : Type} (distance : ℕ) (placed : Placed α) : Placed α :=
  ⟨placed.item, distance + placed.start, distance + placed.stop⟩

/-- What is found in a line follows what was found before, and moves with the line. -/
theorem scanFrom_eq (read : List (Placed ScannedToken)) (start : ℕ) (line : List Char) :
    scanFrom read start line = read.reverse ++ (scanLine line).map (Placed.shift start) := by
  induction h : line.length using Nat.strong_induction_on generalizing line read start with
  | _ length hyp =>
      subst h
      cases line with
      | nil => simp [scanLine, scanFrom]
      | cons c rest =>
          have shorter : (rest.drop ((lexeme c rest).text.length - 1)).length <
              (c :: rest).length := by
            rw [List.length_drop, List.length_cons]
            omega
          have later (read : List (Placed ScannedToken)) (start : ℕ) :=
            hyp _ shorter read start _ rfl
          rw [scanLine, scanFrom, scanFrom]
          cases (lexeme c rest).reading <;> simp [later, Placed.shift, Nat.add_assoc]

/-- What is moved twice is moved by both distances. -/
theorem Placed.shift_shift {α : Type} (first second : ℕ) (placed : Placed α) :
    (placed.shift second).shift first = placed.shift (first + second) := by
  simp [shift, Nat.add_assoc]

/-- Separators hold nothing. -/
theorem scanLine_separators {c : Char} (separator : isSeparator c = true) (rest : List Char) :
    scanLine (c :: rest) = (scanLine (rest.dropWhile isSeparator)).map
      (Placed.shift (byteLength (c :: rest.takeWhile isSeparator))) := by
  have drop_eq : rest.drop (rest.takeWhile isSeparator).length = rest.dropWhile isSeparator := by
    have dropped : (rest.takeWhile isSeparator ++ rest.dropWhile isSeparator).drop
        (rest.takeWhile isSeparator).length = rest.dropWhile isSeparator := List.drop_left
    rwa [List.takeWhile_append_dropWhile] at dropped
  rw [scanLine, scanFrom, lexeme, if_pos separator]
  simp only [List.length_cons, Nat.add_sub_cancel, Nat.zero_add, drop_eq]
  rw [scanFrom_eq]
  rfl

/-- A separator holds nothing. -/
theorem scanLine_separator {c : Char} (separator : isSeparator c = true) (rest : List Char) :
    scanLine (c :: rest) = (scanLine rest).map (Placed.shift c.utf8Size) := by
  rw [scanLine_separators separator]
  cases rest with
  | nil => simp [byteLength]
  | cons d rest =>
      by_cases again : isSeparator d = true
      · rw [scanLine_separators again, List.takeWhile_cons_of_pos again,
          List.dropWhile_cons_of_pos again, List.map_map, byteLength_cons c]
        refine List.map_congr_left fun placed _ => ?_
        rw [Function.comp_apply, Placed.shift_shift]
      · rw [List.takeWhile_cons_of_neg again, List.dropWhile_cons_of_neg again]
        simp [byteLength]

/-- A token at the front is found first. -/
theorem scanLine_token {c : Char} {rest : List Char} {token : Token}
    (reads : (lexeme c rest).reading = .token token) :
    scanLine (c :: rest) = ⟨.ok token, 0, byteLength (lexeme c rest).text⟩ ::
      (scanLine (rest.drop ((lexeme c rest).text.length - 1))).map
        (Placed.shift (byteLength (lexeme c rest).text)) := by
  rw [scanLine, scanFrom]
  simp only [reads, Nat.zero_add]
  rw [scanFrom_eq]
  rfl

/-- A token at the front is the first thing that a line holds. -/
theorem scannedItems_token {c : Char} {rest : List Char} {token : Token}
    (reads : (lexeme c rest).reading = .token token) :
    scannedItems (c :: rest) =
      .ok token :: scannedItems (rest.drop ((lexeme c rest).text.length - 1)) := by
  rw [scannedItems, scanLine_token reads, List.map_cons, List.map_map]
  rfl

/-- Where neither a token nor a blank nor a comment is at the front, something bad is found. -/
theorem scanLine_bad {c : Char} {rest : List Char} (reads : (lexeme c rest).reading = .bad) :
    .error (String.ofList (lexeme c rest).text) ∈ scannedItems (c :: rest) := by
  rw [scannedItems, scanLine, scanFrom]
  simp only [reads]
  rw [scanFrom_eq]
  simp

/-- A separator at the front holds nothing. -/
theorem scannedItems_separator {c : Char} (separator : isSeparator c = true) (rest : List Char) :
    scannedItems (c :: rest) = scannedItems rest := by
  rw [scannedItems, scanLine_separator separator, List.map_map]
  rfl

/-- Blanks at the front hold nothing. -/
theorem scannedItems_blanks {blanks : List Char} (all : ∀ c ∈ blanks, isSeparator c = true)
    (rest : List Char) : scannedItems (blanks ++ rest) = scannedItems rest := by
  induction blanks with
  | nil => rfl
  | cons c blanks hyp =>
      rw [List.forall_mem_cons] at all
      rw [List.cons_append, scannedItems_separator all.1, hyp all.2]

/-- An empty line holds nothing. -/
theorem scannedItems_nil : scannedItems [] = [] := by
  rw [scannedItems, scanLine, scanFrom]
  rfl

/-- A comment holds nothing. -/
theorem scannedItems_comment (comment : List Char) : scannedItems (';' :: comment) = [] := by
  rw [scannedItems, scanLine_comment]
  rfl

/-- Whether a place is between the tokens of a line: none of them stands across it. -/
def IsBetween (place : ℕ) (line : List Char) : Prop :=
  ∀ placed ∈ scanLine line, placed.stop ≤ place ∨ place ≤ placed.start

instance (place : ℕ) (line : List Char) : Decidable (IsBetween place line) :=
  inferInstanceAs (Decidable (∀ placed ∈ scanLine line, _))

/-- A token that starts in front of a place between tokens stands in front of it altogether. -/
theorem lexeme_front_of_isBetween {c : Char} {front back : List Char} {token : Token}
    (reads : (lexeme c (front ++ back)).reading = .token token)
    (between : back ≠ [] → IsBetween (byteLength (c :: front)) (c :: (front ++ back))) :
    (lexeme c (front ++ back)).text <+: c :: front := by
  by_cases at_end : back = []
  · have stands := lexeme_front c (front ++ back)
    rwa [at_end, List.append_nil] at stands ⊢
  · have positive := c.utf8Size_pos
    have apart := between at_end _ (scanLine_token reads ▸ List.mem_cons_self)
    rw [byteLength_cons] at apart
    refine prefix_of_byteLength_le (lexeme_front _ _) (List.prefix_append (c :: front) back) ?_
    rw [byteLength_cons]
    simpa [Nat.ne_of_gt positive] using apart

/-- Where a line holds tokens only, what is behind a place between them, or at its end, may be
replaced by what holds the same, as long as tokens end there. -/
theorem scannedItems_replace {front back back' : List Char} (ends : EndsTokens back')
    (same : scannedItems back' = scannedItems back)
    (tokens : ∀ item ∈ scannedItems (front ++ back), ∃ token, item = .ok token)
    (between : back ≠ [] → IsBetween (byteLength front) (front ++ back)) :
    scannedItems (front ++ back') = scannedItems (front ++ back) := by
  induction h : front.length using Nat.strong_induction_on generalizing front with
  | _ length hyp =>
      subst h
      cases front with
      | nil => exact same
      | cons c front =>
          rw [List.cons_append] at tokens between
          rw [List.cons_append, List.cons_append]
          by_cases separator : isSeparator c = true
          · rw [scannedItems_separator separator] at tokens
            rw [scannedItems_separator separator, scannedItems_separator separator]
            refine hyp front.length (Nat.lt_succ_self _) tokens (fun more placed mem => ?_) rfl
            have apart := between more (placed.shift c.utf8Size) (by
              rw [scanLine_separator separator]
              exact List.mem_map_of_mem mem)
            rw [byteLength_cons] at apart
            simp only [Placed.shift] at apart
            omega
          by_cases comment : c = ';'
          · rw [comment, scannedItems_comment, scannedItems_comment]
          cases reads : (lexeme c (front ++ back)).reading with
          | blank => exact absurd reads (lexeme_ne_blank _ (by simpa using separator) comment)
          | bad =>
              obtain ⟨token, is⟩ := tokens _ (scanLine_bad reads)
              cases is
          | token token =>
              have whole := scanLine_token reads
              -- The token stands within the part that is kept, and so the rest goes on alike.
              have kept := lexeme_front_of_isBetween reads between
              have replaced := lexeme_replace reads kept.length_le ends
              obtain ⟨more, front_eq⟩ := kept
              obtain ⟨first, tail, text_eq⟩ := List.exists_cons_of_ne_nil (lexeme_ne_nil reads)
              rw [text_eq, List.cons_append] at front_eq
              obtain ⟨rfl, rfl⟩ := List.cons.inj front_eq
              have dropped (behind : List Char) :
                  (tail ++ more ++ behind).drop
                    ((lexeme first (tail ++ more ++ back)).text.length - 1) = more ++ behind := by
                rw [text_eq, List.length_cons, Nat.add_sub_cancel, List.append_assoc,
                  List.drop_left]
              rw [scannedItems_token (replaced ▸ reads), scannedItems_token reads, replaced,
                dropped, dropped]
              rw [scannedItems_token reads, dropped, List.forall_mem_cons] at tokens
              rw [dropped] at whole
              congr 1
              refine hyp more.length ?_ tokens.2 (fun some_back placed mem => ?_) rfl
              · rw [List.length_cons, List.length_append]
                omega
              · have apart := between some_back (placed.shift _) (by
                  rw [whole]
                  exact List.mem_cons_of_mem _ (List.mem_map_of_mem mem))
                rw [text_eq, byteLength_cons, byteLength_cons, byteLength_append] at apart
                simp only [Placed.shift] at apart
                omega

/-! ## What lines mean -/

/-- A line is cut into tokens if it holds nothing else. -/
theorem lineTokens_eq_ok_iff {number : ℕ} {line : List Char} {tokens : List Token} :
    lineTokens number line = .ok tokens ↔ scannedItems line = tokens.map Except.ok := by
  refine ⟨fun cut => ?_, fun items => lineTokens_of_items items number⟩
  rw [lineTokens] at cut
  rw [scannedItems]
  generalize scanLine line = placed at cut ⊢
  induction placed generalizing tokens with
  | nil =>
      cases cut
      rfl
  | cons first placed hyp =>
      rw [List.mapM_cons] at cut
      obtain ⟨token, is_token, cut⟩ := exists_of_bind cut
      obtain ⟨others, cut_others, cut⟩ := exists_of_bind cut
      cases cut
      rw [List.map_cons, hyp cut_others]
      split at is_token
      · rename_i token item_eq
        cases is_token
        rw [item_eq]
        rfl
      · cases is_token

/-- A line that holds the same as one that is parsed is parsed alike. -/
theorem parseLine_of_items {number : ℕ} {line line' : List Char} {statement : Option Statement}
    (parsed : parseLine number line = .ok statement)
    (same : (∀ item ∈ scannedItems line, ∃ token, item = .ok token) →
      scannedItems line' = scannedItems line) : parseLine number line' = .ok statement := by
  obtain ⟨tokens, cut, is⟩ := exists_of_bind parsed
  have items := lineTokens_eq_ok_iff.mp cut
  have items' : scannedItems line' = tokens.map Except.ok := by
    rw [same ?_, items]
    rw [items]
    exact List.forall_mem_map.mpr fun token _ => ⟨token, rfl⟩
  rw [parseLine, lineTokens_eq_ok_iff.mpr items']
  exact is

/-- Whether two lines hold no statement or the same one, wherever they stand. -/
def SameDraft (first second : Option Statement) : Prop :=
  first.map (Statement.onLine · 0) = second.map (Statement.onLine · 0)

/-- Tokens are the same statement on every line, or none on any. -/
theorem agree_ofTokens? (number number' : ℕ) (tokens : List Token) :
    Agree SameDraft
      (Statement.ofTokens? number tokens) (Statement.ofTokens? number' tokens) := by
  -- The number of a line is used in errors and in the statement alone.
  have operands (mnemonic : String) (tokens : List Token) :
      Agree Eq (operandsOfTokens number mnemonic tokens)
        (operandsOfTokens number' mnemonic tokens) := by
    have same : List.Forall₂ Eq tokens tokens := List.forall₂_eq_eq_eq.symm ▸ rfl
    refine Agree.mapM_eq ?_ same
    rintro token _ rfl
    split
    · exact rfl
    · trivial
  have built (result : Option String) (mnemonic : String) (tokens : List Token) :
      Agree SameDraft
        ((Statement.build number result mnemonic tokens).map some)
        ((Statement.build number' result mnemonic tokens).map some) := by
    unfold Statement.build
    cases Opcode.ofMnemonic? mnemonic with
    | none => trivial
    | some opcode =>
        have statements : Agree (fun first second : Statement => first.onLine 0 = second.onLine 0)
            ((operandsOfTokens number mnemonic tokens).map fun operands =>
              ⟨number, result, opcode, operands⟩)
            ((operandsOfTokens number' mnemonic tokens).map fun operands =>
              ⟨number', result, opcode, operands⟩) := by
          refine (operands mnemonic tokens).map ?_
          rintro operands _ rfl
          rfl
        exact statements.map fun _ _ same => congrArg some same
  unfold Statement.ofTokens?
  split
  · exact rfl
  · exact built _ _ _
  · trivial
  · trivial
  · exact built _ _ _
  · trivial

/-- A line is the same statement wherever it stands, or none anywhere. -/
theorem agree_parseLine (number number' : ℕ) (line : List Char) :
    Agree SameDraft
      (parseLine number line) (parseLine number' line) := by
  have cut : Agree Eq (lineTokens number line) (lineTokens number' line) :=
    .of_eq_ok_iff fun _ => lineTokens_eq_ok_iff.trans lineTokens_eq_ok_iff.symm
  refine cut.bind ?_
  rintro tokens _ rfl
  exact agree_ofTokens? number number' tokens

/-! ## Layouts -/

/-- The statements of lines, all as if they stood on line zero. -/
def drafts (lines : List (List Char)) : Except AssemblyError (List (Option Statement)) :=
  lines.mapM (parseLine 0)

/-- One change to the layout of lines. -/
inductive Respaces : List (List Char) → List (List Char) → Prop
  /-- Blanks are put between the tokens of a line. -/
  | blanks {above below : List (List Char)} {front blanks back : List Char}
      (all : ∀ c ∈ blanks, isSeparator c = true)
      (between : IsBetween (byteLength front) (front ++ back)) :
      Respaces (above ++ (front ++ back) :: below) (above ++ (front ++ blanks ++ back) :: below)
  /-- A comment is put at the end of a line. -/
  | comment {above below : List (List Char)} {line comment : List Char} :
      Respaces (above ++ line :: below) (above ++ (line ++ ';' :: comment) :: below)
  /-- A blank line is put between lines. -/
  | blankLine {above below : List (List Char)} {blanks : List Char}
      (all : ∀ c ∈ blanks, isSeparator c = true) :
      Respaces (above ++ below) (above ++ blanks :: below)

/-- Lines are parsed part by part. -/
theorem drafts_append {above below : List (List Char)} {found : List (Option Statement)} :
    drafts (above ++ below) = .ok found ↔
      ∃ before after, drafts above = .ok before ∧ drafts below = .ok after ∧
        found = before ++ after := by
  rw [drafts, List.mapM_append]
  constructor
  · intro parsed
    obtain ⟨before, above_ok, parsed⟩ := exists_of_bind parsed
    obtain ⟨after, below_ok, is⟩ := exists_of_bind parsed
    cases is
    exact ⟨before, after, above_ok, below_ok, rfl⟩
  · rintro ⟨before, after, above_ok, below_ok, rfl⟩
    rw [drafts] at above_ok below_ok
    rw [above_ok, below_ok]
    rfl

/-- Lines are parsed one after the other. -/
theorem drafts_cons {line : List Char} {below : List (List Char)}
    {found : List (Option Statement)} :
    drafts (line :: below) = .ok found ↔
      ∃ statement after, parseLine 0 line = .ok statement ∧ drafts below = .ok after ∧
        found = statement :: after := by
  rw [drafts, List.mapM_cons]
  constructor
  · intro parsed
    obtain ⟨statement, line_ok, parsed⟩ := exists_of_bind parsed
    obtain ⟨after, below_ok, is⟩ := exists_of_bind parsed
    cases is
    exact ⟨statement, after, line_ok, below_ok, rfl⟩
  · rintro ⟨statement, after, line_ok, below_ok, rfl⟩
    rw [drafts] at below_ok
    rw [line_ok, below_ok]
    rfl

/-- A change to the layout of lines leaves the statements that they hold as they are. -/
theorem Respaces.exists_drafts {lines lines' : List (List Char)} (respaces : Respaces lines lines')
    {found : List (Option Statement)} (parsed : drafts lines = .ok found) :
    ∃ found', drafts lines' = .ok found' ∧ found'.filterMap id = found.filterMap id := by
  -- A line whose items stay as they are, if they are tokens, gives the same draft.
  have of_line {above below : List (List Char)} {line line' : List Char}
      (parsed : drafts (above ++ line :: below) = .ok found)
      (same : (∀ item ∈ scannedItems line, ∃ token, item = .ok token) →
        scannedItems line' = scannedItems line) :
      drafts (above ++ line' :: below) = .ok found := by
    obtain ⟨before, others, above_ok, others_ok, rfl⟩ := drafts_append.mp parsed
    obtain ⟨statement, after, line_ok, below_ok, rfl⟩ := drafts_cons.mp others_ok
    exact drafts_append.mpr ⟨before, _, above_ok,
      drafts_cons.mpr ⟨statement, after, parseLine_of_items line_ok same, below_ok, rfl⟩, rfl⟩
  cases respaces with
  | @blanks above below front blanks back all between =>
      refine ⟨found, of_line parsed fun tokens => ?_, rfl⟩
      cases blanks with
      | nil => rw [List.append_nil]
      | cons c blanks =>
          rw [List.append_assoc]
          refine scannedItems_replace ?_ (scannedItems_blanks all back) tokens fun _ => between
          simp [EndsTokens, all c List.mem_cons_self]
  | @comment above below line comment =>
      refine ⟨found, of_line parsed fun tokens => ?_, rfl⟩
      rw [← List.append_nil line] at tokens
      have replaced : scannedItems (line ++ ';' :: comment) = scannedItems (line ++ []) :=
        scannedItems_replace (by simp [EndsTokens])
          (by rw [scannedItems_comment, scannedItems_nil]) tokens (absurd rfl)
      rwa [List.append_nil] at replaced
  | @blankLine above below blanks all =>
      have blank := scannedItems_blanks all []
      rw [List.append_nil, scannedItems_nil] at blank
      have cut : lineTokens 0 blanks = .ok [] := lineTokens_eq_ok_iff.mpr blank
      have no_statement : parseLine 0 blanks = .ok none := by
        rw [parseLine, cut]
        rfl
      obtain ⟨before, after, above_ok, below_ok, rfl⟩ := drafts_append.mp parsed
      refine ⟨before ++ none :: after, drafts_append.mpr ⟨before, _, above_ok,
        drafts_cons.mpr ⟨none, after, no_statement, below_ok, rfl⟩, rfl⟩, ?_⟩
      rw [List.filterMap_append, List.filterMap_append]
      rfl

/-- So do any number of changes. -/
theorem exists_drafts_of_respaced {lines lines' : List (List Char)}
    (respaced : Relation.ReflTransGen Respaces lines lines') {found : List (Option Statement)}
    (parsed : drafts lines = .ok found) :
    ∃ found', drafts lines' = .ok found' ∧ found'.filterMap id = found.filterMap id := by
  induction respaced with
  | refl => exact ⟨found, parsed, rfl⟩
  | tail _ respaces hyp =>
      obtain ⟨mid, mid_parsed, mid_eq⟩ := hyp
      obtain ⟨found', parsed', found_eq⟩ := respaces.exists_drafts mid_parsed
      exact ⟨found', parsed', found_eq.trans mid_eq⟩

/-! ## Texts -/

/-- The statements of a text are those that its lines hold. -/
theorem agree_parseSource (source : String) :
    Agree (fun statements found =>
        statements.map (Statement.onLine · 0) = (found.filterMap id).map (Statement.onLine · 0))
      (parseSource source) (drafts (sourceLines source)) := by
  have numbered (lines : List (List Char)) (start : ℕ) :
      List.Forall₂ (fun (placed : List Char × ℕ) line => line = placed.1) (lines.zipIdx start)
        lines := by
    induction lines generalizing start with
    | nil => exact .nil
    | cons line lines hyp => exact .cons rfl (hyp _)
  -- Line by line the drafts are the same, up to their numbers.
  have parsed : Agree (List.Forall₂ SameDraft)
      (((sourceLines source).zipIdx 1).mapM fun placed => parseLine placed.2 placed.1)
      (drafts (sourceLines source)) := by
    refine Agree.mapM ?_ (numbered _ 1)
    rintro ⟨_, number⟩ line rfl
    exact agree_parseLine number 0 line
  rw [parseSource, ← bind_pure (drafts (sourceLines source))]
  refine parsed.bind fun results found same => ?_
  change (results.filterMap id).map (Statement.onLine · 0) = _
  induction same with
  | nil => rfl
  | @cons result draft results found head _ hyp =>
      cases result with
      | none =>
          cases draft with
          | none => exact hyp
          | some => cases head
      | some =>
          cases draft with
          | none => cases head
          | some => exact congrArg₂ List.cons (Option.some.inj head) hyp

/-- A statement matches itself on any line. -/
theorem matches_of_onLine {first second : Statement} {names : List String}
    (same : first.onLine 0 = second.onLine 0) (among : first.idNames ⊆ names) :
    first.Matches id names second := by
  have own_name (operand : Operand) : operand.renamed id = operand := by cases operand <;> rfl
  have renamed_eq : first.renamed id = first := by
    rw [Statement.renamed, Option.map_id_fun, id, List.map_congr_left fun operand _ =>
      own_name operand, List.map_id']
  have matching : first.Matches id names (first.renamed id) := Statement.matches_renamed among
  rw [renamed_eq] at matching
  have result_eq : second.result = first.result := (congrArg Statement.result same).symm
  have opcode_eq : second.opcode = first.opcode := (congrArg Statement.opcode same).symm
  have operands_eq : second.operands = first.operands := (congrArg Statement.operands same).symm
  exact ⟨result_eq ▸ matching.result, opcode_eq, operands_eq ▸ matching.operands⟩

/-- Statements match those that are the same but for their lines. -/
theorem forall₂_matches_of_onLine {statements statements' : List Statement} {names : List String}
    (same : List.Forall₂ (fun first second => first.onLine 0 = second.onLine 0) statements
      statements')
    (among : mentionedNames statements ⊆ names) :
    List.Forall₂ (Statement.Matches id names) statements statements' := by
  induction same with
  | nil => exact .nil
  | cons head _ hyp =>
      rw [mentionedNames, List.flatMap_cons, List.append_subset] at among
      exact .cons (matches_of_onLine head among.1) (hyp among.2)

/-- A text in another layout assembles to the same words. -/
theorem assembleWords_of_respaced {source source' : String}
    (respaced : Relation.ReflTransGen Respaces (sourceLines source) (sourceLines source'))
    {words : List Word} (assembled : assembleWords source = .ok words) :
    assembleWords source' = .ok words := by
  obtain ⟨statements, parsed, rest⟩ := exists_of_bind assembled
  obtain ⟨⟨bound, parts⟩, encoded, is⟩ := exists_of_bind rest
  cases is
  obtain ⟨found, found_ok, same⟩ := (agree_parseSource source).exists_second parsed
  obtain ⟨found', found_ok', found_eq⟩ := exists_drafts_of_respaced respaced found_ok
  obtain ⟨statements', parsed', same'⟩ := (agree_parseSource source').exists_first found_ok'
  have alike : List.Forall₂ (fun first second : Statement => first.onLine 0 = second.onLine 0)
      statements statements' := by
    have maps_eq := same.trans ((congrArg _ found_eq.symm).trans same'.symm)
    rwa [← List.forall₂_eq_eq_eq, List.forall₂_map_left_iff, List.forall₂_map_right_iff] at maps_eq
  have encoded' := (agree_encodeStatements (.refl _)
    (forall₂_matches_of_onLine alike (List.Subset.refl _))).eq_ok_iff.mpr encoded
  rw [assembleWords, parsed']
  change (encodeStatements statements' >>= _) = _
  rw [encoded']
  rfl

/-- What statements are encoded as does not depend on the names of their IDs: under other names that
keep numbers and tell all else apart, statements have encoders with the same bound, which write the
same words for as many of them as are encoded. Nor do the words of a text depend on its layout. -/
theorem assembly_invariant :
    (∀ (statements : List Statement) (rename : String → String),
      IsRenaming rename (mentionedNames statements) →
        (∀ bound words,
          encodeStatements (statements.map (Statement.renamed rename)) = .ok (bound, words) ↔
            encodeStatements statements = .ok (bound, words)) ∧
        ∀ encoder, Encoder.ofStatements statements = .ok encoder →
          ∃ encoder', Encoder.ofStatements (statements.map (Statement.renamed rename)) =
              .ok encoder' ∧
            encoder'.ids.bound = encoder.ids.bound ∧
            ∀ count words,
              encoder'.encodeFrom [] ((statements.take count).map (Statement.renamed rename)) =
                  .ok words ↔
                encoder.encodeFrom [] (statements.take count) = .ok words) ∧
    (∀ source source' : String,
      Relation.ReflTransGen Respaces (sourceLines source) (sourceLines source') →
        ∀ words, assembleWords source = .ok words → assembleWords source' = .ok words) := by
  refine ⟨fun statements rename renames => ?_,
    fun _ _ respaced _ => assembleWords_of_respaced respaced⟩
  -- Renamed statements match, and every step of the encoder keeps it up.
  have matching : List.Forall₂ (Statement.Matches rename (mentionedNames statements)) statements
      (statements.map (Statement.renamed rename)) :=
    forall₂_matches_renamed (List.Subset.refl _)
  refine ⟨fun bound words => (agree_encodeStatements renames matching).eq_ok_iff, ?_⟩
  intro encoder started
  obtain ⟨encoder', started', encoders, bound_eq⟩ :=
    (agree_ofStatements renames matching).exists_second started
  refine ⟨encoder', started', bound_eq, fun count words => ?_⟩
  have part := List.forall₂_take count matching
  rw [← List.map_take] at part
  exact (Encoder.agree_encodeFrom part encoders []).eq_ok_iff

/-- A float type, a pointer to it, and the name of something that has a number. -/
def pointerStatements : List Statement :=
  [⟨1, some "a", .typeFloat, [.integer 32]⟩,
    ⟨2, some "b", .typePointer, [.word "Private", .id "a"]⟩,
    ⟨3, none, .name, [.id "7", .str "x"]⟩]

/-- The types are numbered after the number, which is mentioned last. -/
theorem encodeStatements_pointer : encodeStatements pointerStatements =
    .ok (10, [[0x30016, 8, 32], [0x40020, 9, 6, 8], [0x30005, 7, 0x78]]) := by
  have counts : IdNumbers.counted pointerStatements = .ok (.ofNames ["a", "b", "7"]) :=
    IdNumbers.counted_iff.mpr ⟨by decide +kernel, congrArg _ (by decide +kernel)⟩
  have bound_eq : (IdNumbers.ofNames ["a", "b", "7"]).bound = 10 := by
    rw [IdNumbers.bound_ofNames]
    decide +kernel
  have idWord (name : String) (number : ℕ)
      (mem : (name, number) ∈ IdNumbers.assigned ["a", "b", "7"])
      (scalars : ScalarTable) (line : ℕ) :
      Encoder.idWord ⟨.ofNames ["a", "b", "7"], scalars⟩ line name = .ok (UInt32.ofNat number) := by
    rw [Encoder.idWord, IdNumbers.get?_ofNames (by decide) mem]
  have pointee := idWord "a" 8 (by decide +kernel)
  have pointer := idWord "b" 9 (by decide +kernel)
  have numeric := idWord "7" 7 (by decide +kernel)
  have storage : EnumFamily.valueOf .storageClass "Private" = some 6 := by decide +kernel
  have string : packString "x" = [0x78] := by decide +kernel
  have plain : List.Forall₂ (fun statement words => ∀ scalars,
      Encoder.encode ⟨.ofNames ["a", "b", "7"], scalars⟩ statement = .ok words) pointerStatements
      [[0x30016, 8, 32], [0x40020, 9, 6, 8], [0x30005, 7, 0x78]] := by
    simp only [pointerStatements, List.forall₂_cons, List.forall₂_nil_right_iff, and_true]
    refine ⟨?_, ?_, ?_⟩
    all_goals
      intro scalars
      simp (disch := decide) only [encode_of_present, Encoder.bodyWords, Opcode.layout,
        List.foldlM_cons, List.foldlM_nil, Encoder.fixedStep, Encoder.variadicStep,
        Encoder.operandWords, Encoder.nameOrInteger, integerWord?, pointee, pointer, numeric,
        storage, string, Except.map, bind, Except.bind, pure, Except.pure]
      rfl
  obtain ⟨_, encoded⟩ := Encoder.encodeFrom_plain plain ∅ [] []
  rw [List.append_nil] at encoded
  rw [encodeStatements, Encoder.ofStatements, counts]
  change (Encoder.encodeFrom [] ⟨.ofNames ["a", "b", "7"], ∅⟩ _ >>= _) = _
  rw [encoded, ← bound_eq]
  rfl

/-- Two names that are changed for each other leave the words of their types as they are, beside a
number that is kept, and so do three changes to the layout of the text. -/
theorem assembly_invariant_renamed_respaced :
    encodeStatements [⟨1, some "b", .typeFloat, [.integer 32]⟩,
        ⟨2, some "a", .typePointer, [.word "Private", .id "b"]⟩,
        ⟨3, none, .name, [.id "7", .str "x"]⟩] =
      .ok (10, [[0x30016, 8, 32], [0x40020, 9, 6, 8], [0x30005, 7, 0x78]]) ∧
    assembleWords
        "%a = OpTypeFloat 32\n%b\t = OpTypePointer Private %a;text\nOpName %7 \"x\"\n\r" =
      .ok ((ModuleHeader.ofBound 10 0).words ++
        [0x30016, 8, 32, 0x40020, 9, 6, 8, 0x30005, 7, 0x78]) := by
  constructor
  · exact ((assembly_invariant.1 pointerStatements
      (fun name => if name = "a" then "b" else if name = "b" then "a" else name)
      ⟨by decide, by decide, by decide⟩).1 _ _).mpr encodeStatements_pointer
  · have parsed :
        parseSource "%a = OpTypeFloat 32\n%b = OpTypePointer Private %a\nOpName %7 \"x\"" =
          .ok pointerStatements := by decide +kernel
    refine assembly_invariant.2
      "%a = OpTypeFloat 32\n%b = OpTypePointer Private %a\nOpName %7 \"x\"" _ ?_ _ ?_
    · have lines :
          sourceLines "%a = OpTypeFloat 32\n%b = OpTypePointer Private %a\nOpName %7 \"x\"" =
            ["%a = OpTypeFloat 32".toList, ['%', 'b'] ++ " = OpTypePointer Private %a".toList,
              "OpName %7 \"x\"".toList] := by decide +kernel
      have lines' : sourceLines
            "%a = OpTypeFloat 32\n%b\t = OpTypePointer Private %a;text\nOpName %7 \"x\"\n\r" =
          ["%a = OpTypeFloat 32".toList,
            ['%', 'b'] ++ ['\t'] ++ " = OpTypePointer Private %a".toList ++ ';' :: "text".toList,
            "OpName %7 \"x\"".toList, ['\r']] := by decide +kernel
      -- Three edits one after the other: a blank line, blanks between lexemes, and a comment.
      have respaced (first back last : List Char)
          (between : IsBetween (byteLength ['%', 'b']) (['%', 'b'] ++ back)) :
          Relation.ReflTransGen Respaces [first, ['%', 'b'] ++ back, last]
            [first, ['%', 'b'] ++ ['\t'] ++ back ++ ';' :: "text".toList, last, ['\r']] := by
        have longer : Respaces ([first, ['%', 'b'] ++ back, last] ++ [])
            ([first, ['%', 'b'] ++ back, last] ++ ['\r'] :: []) :=
          .blankLine (by simp [isSeparator])
        have spaced : Respaces ([first] ++ (['%', 'b'] ++ back) :: [last, ['\r']])
            ([first] ++ (['%', 'b'] ++ ['\t'] ++ back) :: [last, ['\r']]) :=
          .blanks (by simp [isSeparator]) between
        have commented : Respaces ([first] ++ (['%', 'b'] ++ ['\t'] ++ back) :: [last, ['\r']])
            ([first] ++ (['%', 'b'] ++ ['\t'] ++ back ++ ';' :: "text".toList) ::
              [last, ['\r']]) :=
          .comment
        exact .tail (.tail (.single longer) spaced) commented
      rw [lines, lines']
      exact respaced _ _ _ (by decide +kernel)
    · rw [assembleWords, parsed]
      change (encodeStatements pointerStatements >>= _) = _
      rw [encodeStatements_pointer]
      rfl

end ShaderMachine
