import ShaderMachine.Proofs.EncodedInstructions
import ShaderMachine.Proofs.LexemeContext
import ShaderMachine.Proofs.ListingRoundTrip

/-! # What assembles survives a listing

A module that was assembled from a text has a listing, and the listing assembles to the words of the
module, as long as no string of the text holds a NUL. With a NUL inside, the words of a string say
less than the string does: whoever reads them stops at the first NUL.

* **`sourceStrings_free`** — no string of a text holds the end of a line.
* **`IdNumbers.isBounded_of_counted`** — IDs that can be counted are below the bound.
* **`Encoder.Encodes.isRegular`** — encoded statements are instructions that fill their layouts.
* **`assemble_encodes`** — the instructions of an assembled module are its encoded statements.
* **`assemble_again`** — a text without such strings survives a listing.
* **`assemble_absolute`** — what the text of a whole shader is assembled to. -/

namespace ShaderMachine

/-! ## The strings of a text -/

/-- The characters meant by a string stand between its quotes. -/
theorem mem_stringBody (written meant text : List Char) :
    ∀ c ∈ (stringBody written meant text).2.1, c ∈ meant ∨ c ∈ text := by
  fun_induction stringBody written meant text with
  | case1 written meant rest => exact fun _ => Or.inl
  | case2 written meant => exact fun _ => Or.inl
  | case3 written meant escaped rest hyp =>
      intro c mem
      rcases hyp c mem with mem | mem
      · rcases List.mem_cons.mp mem with rfl | mem
        · exact .inr (by simp)
        · exact .inl mem
      · exact .inr (List.mem_cons_of_mem _ (List.mem_cons_of_mem _ mem))
  | case4 written meant plain rest _ _ _ hyp =>
      intro c mem
      rcases hyp c mem with mem | mem
      · rcases List.mem_cons.mp mem with rfl | mem
        · exact .inr List.mem_cons_self
        · exact .inl mem
      · exact .inr (List.mem_cons_of_mem _ mem)
  | case5 written meant => exact fun _ => Or.inl

/-- The characters of a string stand in its line. -/
theorem mem_of_lexeme {c : Char} {rest : List Char} {string : String}
    (is : (lexeme c rest).reading = .token (.str string)) : ∀ x ∈ string.toList, x ∈ rest := by
  have cuts := cuts_lexeme c rest
  generalize lexeme c rest = found at cuts is
  cases cuts with
  | @str _ written meant body =>
      cases is
      intro x mem
      rw [String.toList_ofList, List.mem_reverse] at mem
      have inside := mem_stringBody [] [] rest x
      rw [body] at inside
      exact (inside mem).resolve_left List.not_mem_nil
  | negative | number digit => exact absurd is (isNumeral_numberLexeme _ _).ne_str
  | _ => cases is

/-- The characters of a string stand in its line. -/
theorem mem_of_scanFrom (read : List (Placed ScannedToken)) (start : ℕ) (line : List Char)
    {placed : Placed ScannedToken} (mem : placed ∈ scanFrom read start line) {string : String}
    (is : placed.item = .ok (.str string)) :
    placed ∈ read ∨ ∀ x ∈ string.toList, x ∈ line := by
  fun_induction scanFrom read start line with
  | case1 read start => exact .inl (List.mem_reverse.mp mem)
  | case2 read start c rest found stop next _ hyp =>
      refine (hyp mem).imp_right fun later x inside => ?_
      exact List.mem_cons_of_mem _ (List.mem_of_mem_drop (later x inside))
  | case3 read start c rest found stop next token reading hyp =>
      rcases hyp mem with mem | later
      · rcases List.mem_cons.mp mem with rfl | mem
        · cases is
          exact .inr fun x inside => List.mem_cons_of_mem _ (mem_of_lexeme reading x inside)
        · exact .inl mem
      · exact .inr fun x inside =>
          List.mem_cons_of_mem _ (List.mem_of_mem_drop (later x inside))
  | case4 read start c rest found stop next _ hyp =>
      rcases hyp mem with mem | later
      · rcases List.mem_cons.mp mem with rfl | mem
        · cases is
        · exact .inl mem
      · exact .inr fun x inside =>
          List.mem_cons_of_mem _ (List.mem_of_mem_drop (later x inside))

/-- No line holds the end of a line. -/
theorem newline_not_mem_of_sourceLines {source : String} {line : List Char}
    (mem : line ∈ sourceLines source) : '\n' ∉ line := by
  unfold sourceLines at mem
  generalize source.toList = text at mem
  induction text generalizing line with
  | nil =>
      obtain rfl : line = [] := by simpa using mem
      exact List.not_mem_nil
  | cons c text hyp =>
      rw [List.splitOn_cons_eq_if_modifyHead] at mem
      split at mem
      · rcases List.mem_cons.mp mem with rfl | mem
        · exact List.not_mem_nil
        · exact hyp mem
      · rename_i other
        -- A character that ends no line goes on the first one.
        cases lines : text.splitOn '\n' with
        | nil =>
            rw [lines] at mem
            cases mem
        | cons first others =>
            rw [lines, List.modifyHead_cons] at mem
            rcases List.mem_cons.mp mem with rfl | mem
            · rw [List.mem_cons, not_or]
              refine ⟨fun same => other (beq_of_eq same.symm), hyp ?_⟩
              rw [lines]
              exact List.mem_cons_self
            · refine hyp ?_
              rw [lines]
              exact List.mem_cons_of_mem _ mem

/-- The operands of a statement are tokens of its line. -/
theorem Statement.exists_token {line : ℕ} {tokens : List Token} {statement : Statement}
    (parsed : ofTokens? line tokens = .ok (some statement)) :
    ∀ operand ∈ statement.operands, ∃ token ∈ tokens, Operand.ofToken? token = some operand := by
  -- Both kinds of lines read their operands in the same way.
  have built {result : Option String} {mnemonic : String} {others : List Token}
      (builds : (build line result mnemonic others).map some = .ok (some statement)) :
      ∀ operand ∈ statement.operands, ∃ token ∈ others, Operand.ofToken? token = some operand := by
    obtain ⟨built, builds, is⟩ := exists_of_map builds
    cases is
    unfold build at builds
    split at builds
    · cases builds
    · obtain ⟨operands, read, rfl⟩ := exists_of_map builds
      intro operand mem
      obtain ⟨token, token_mem, is⟩ := exists_of_mapM read operand mem
      refine ⟨token, token_mem, ?_⟩
      split at is
      · rename_i found
        cases is
        exact found
      · cases is
  unfold ofTokens? at parsed
  split at parsed
  · cases parsed
  · intro operand mem
    obtain ⟨token, token_mem, is⟩ := built parsed operand mem
    exact ⟨token, by simp [token_mem], is⟩
  · cases parsed
  · cases parsed
  · intro operand mem
    obtain ⟨token, token_mem, is⟩ := built parsed operand mem
    exact ⟨token, by simp [token_mem], is⟩
  · cases parsed

/-- No string of a text holds the end of a line. -/
theorem sourceStrings_free {source : String} {statements : List Statement}
    (parsed : parseSource source = .ok statements) :
    ∀ statement ∈ statements, ∀ string, .str string ∈ statement.operands →
      '\n' ∉ string.toList := by
  intro statement mem string operand_mem newline
  obtain ⟨found, read, parsed⟩ := exists_of_bind parsed
  cases parsed
  obtain ⟨_, found_mem, rfl⟩ := List.mem_filterMap.mp mem
  obtain ⟨⟨line, number⟩, line_mem, parsed⟩ := exists_of_mapM read _ found_mem
  obtain ⟨tokens, tokenized, parsed⟩ := exists_of_bind parsed
  obtain ⟨token, token_mem, is_operand⟩ := Statement.exists_token parsed _ operand_mem
  -- The only token that is read as a string is one.
  obtain rfl : token = .str string := by
    cases token <;> cases is_operand
    rfl
  obtain ⟨placed, placed_mem, is_token⟩ := exists_of_mapM tokenized _ token_mem
  have is_string : placed.item = .ok (.str string) := by
    split at is_token
    · rename_i token item_eq
      cases is_token
      exact item_eq
    · cases is_token
  have free := newline_not_mem_of_sourceLines (List.fst_mem_of_mem_zipIdx line_mem)
  exact free ((mem_of_scanFrom [] 0 line placed_mem is_string).resolve_left List.not_mem_nil _
    newline)

/-! ## The numbers of the IDs of a text -/

namespace IdNumbers

/-- What is found in a table of pairs is the number of a pair of that name. -/
theorem exists_of_foldl_insert {pairs : List (String × ℕ)} {table : Std.HashMap String Id}
    {name : String} {id : Id}
    (found : (pairs.foldl (fun table pair => table.insert pair.1 (UInt32.ofNat pair.2))
      table)[name]? = some id) :
    (∃ number, (name, number) ∈ pairs ∧ id = UInt32.ofNat number) ∨ table[name]? = some id := by
  induction pairs generalizing table with
  | nil => exact .inr found
  | cons pair pairs hyp =>
      rcases hyp found with ⟨number, mem, is⟩ | found
      · exact .inl ⟨number, List.mem_cons_of_mem _ mem, is⟩
      · rw [Std.HashMap.getElem?_insert] at found
        split at found
        · rename_i same
          cases found
          obtain rfl := eq_of_beq same
          exact .inl ⟨pair.2, List.mem_cons_self, rfl⟩
        · exact .inr found

/-- No number is above the largest one. -/
theorem le_foldl_max {pairs : List (String × ℕ)} {pair : String × ℕ} (mem : pair ∈ pairs) :
    pair.2 ≤ pairs.foldl (fun largest pair => max largest pair.2) 0 :=
  (foldl_max_le_iff.mp (Nat.le_refl _)).2 pair mem

/-- Whether the numbers of all names are positive and below the bound. -/
def IsBounded (numbers : IdNumbers) : Prop :=
  numbers.bound ≠ 0 ∧
    ∀ name id, numbers.get? name = some id → 0 < id ∧ id < numbers.bound

/-- A word can hold the bound that names need, unless they are very many. -/
theorem needed_lt {names : List String} (few : names.length < 2 ^ 31) :
    needed names < UInt32.size := by
  have maxBound_eq : maxBound.toNat = 4194304 := rfl
  have largest_lt : (numbered names).foldl (fun largest pair => max largest pair.2) 0 <
      maxBound.toNat :=
    foldl_max_lt (by decide) fun _ mem => (range_of_mem_numbered mem).2
  have named_few : (names.filter (not ∘ isNumericName)).length < 2 ^ 31 :=
    Nat.lt_of_le_of_lt (List.length_filter_le _ _) few
  rw [needed, UInt32.size]
  omega

/-- The numbers of names are positive and below the bound, if a word can hold the bound. -/
theorem isBounded_ofNames {names : List String} (fits : needed names < UInt32.size) :
    (ofNames names).IsBounded := by
  -- All numbers fit a word, so nothing is lost when they are made words.
  have toNat_eq {number : ℕ} (small : number ≤ needed names) :
      (UInt32.ofNat number).toNat = number :=
    UInt32.toNat_ofNat_of_lt' (Nat.lt_of_le_of_lt small fits)
  rw [IsBounded, bound_ofNames]
  constructor
  · intro zero
    have toNat_zero := congrArg UInt32.toNat zero
    rw [toNat_eq (Nat.le_refl _), UInt32.toNat_zero, needed] at toNat_zero
    omega
  · intro name id found
    rw [get?, ofNames, List.partition_eq_filter_filter] at found
    obtain ⟨number, mem, rfl⟩ := (exists_of_foldl_insert found).resolve_right (by simp)
    have in_range : 0 < number ∧ number < needed names := by
      change (name, number) ∈ numbered names ++ List.zipIdx _ _ at mem
      rw [needed]
      rcases List.mem_append.mp mem with mem | mem
      · have least := le_foldl_max mem
        exact ⟨(range_of_mem_numbered mem).1, by omega⟩
      · have above := List.le_snd_of_mem_zipIdx mem
        have below := List.snd_lt_of_mem_zipIdx mem
        exact ⟨by omega, by rw [numbered]; omega⟩
    rw [UInt32.lt_iff_toNat_lt, UInt32.lt_iff_toNat_lt, toNat_eq (Nat.le_refl _),
      toNat_eq (Nat.le_of_lt in_range.2)]
    exact in_range

/-- The numbering of a text is that of its names without repetition. -/
theorem eq_ofNames_of_ofStatements {statements : List Statement} {numbers : IdNumbers}
    (started : ofStatements statements = .ok numbers) :
    numbers = ofNames (distinct (statements.flatMap Statement.idNames)) := by
  unfold ofStatements at started
  split at started
  · cases started
  · cases started
    rfl

end IdNumbers

/-- The encoder of a text has the numbers of its IDs, which can be counted, and knows no scalar
types yet. -/
theorem Encoder.ofStatements_inv {statements : List Statement} {encoder : Encoder}
    (started : ofStatements statements = .ok encoder) :
    IdNumbers.counted statements = .ok encoder.ids ∧ encoder.scalars = ∅ := by
  obtain ⟨numbers, counted, rfl⟩ := exists_of_map started
  exact ⟨counted, rfl⟩

/-- The numbers of IDs that can be counted are positive and below the bound. -/
theorem IdNumbers.isBounded_of_counted {statements : List Statement} {numbers : IdNumbers}
    (counts : counted statements = .ok numbers) : numbers.IsBounded := by
  obtain ⟨numbered, fits⟩ := counted_eq_ok_iff.mp counts
  rw [eq_ofNames_of_ofStatements numbered]
  exact isBounded_ofNames fits

/-- The encoder of a text whose bound is one that modules may have is sound. -/
theorem Encoder.isSound_ofStatements {statements : List Statement} {encoder : Encoder}
    (started : ofStatements statements = .ok encoder) (small : encoder.ids.bound ≤ maxBound) :
    encoder.IsSound ∧ encoder.scalars = ∅ := by
  obtain ⟨counts, no_scalars⟩ := ofStatements_inv started
  refine ⟨fun name id found => ?_, no_scalars⟩
  obtain ⟨positive, below⟩ := (IdNumbers.isBounded_of_counted counts).2 name id found
  exact ⟨positive, UInt32.lt_of_lt_of_le below small⟩

/-! ## The words of a text -/

/-- An instruction that was encoded declares the width of the scalar type that the encoder notes. -/
theorem Encoder.IsEncoded.declaredWidth? {encoder : Encoder} {statement : Statement}
    {instruction : Instruction} (encoded : encoder.IsEncoded statement instruction) :
    instruction.declaredWidth? =
      (Scalar.ofDeclaration? statement.opcode instruction.operands).map
        fun (id, scalar) => (id, scalar.width) := by
  refine declaredWidth?_of_filled (P := fun kind part => kind = .result ∨ kind = .integer →
    ∃ word, part = [word]) (fun _ _ among single => single among) encoded.known
    (exists_filled (fun _ id _ _ => ⟨id, rfl⟩) ?_ (by simp) (fun mem => encoded.kept mem)
      encoded.operands)
  rintro kind - operand - type part written (rfl | rfl)
  · exact encoder.operandWords_idWord (.inl rfl) written
  · exact length_of_integerWord? written

/-- One of the instructions that statements are encoded as is what an encoder with the same numbers
writes for one of them. The scalar types that this encoder knows are those declared before, if that
holds at first. -/
theorem Encoder.Encodes.exists_split {encoder : Encoder} {statements : List Statement}
    {instructions before after : List Instruction} {instruction : Instruction}
    (encodes : encoder.Encodes statements instructions)
    (split : instructions = before ++ instruction :: after) (earlier : List Instruction)
    (widths : ∀ id, (encoder.scalars[id]?).map Scalar.width = latestWidth? earlier id) :
    ∃ statement, ∃ later : Encoder, (statement, instruction) ∈ statements.zip instructions ∧
      later.IsEncoded statement instruction ∧ later.ids = encoder.ids ∧
      ∀ id, (later.scalars[id]?).map Scalar.width = latestWidth? (earlier ++ before) id := by
  induction encodes generalizing before earlier with
  | nil => simp at split
  | @cons encoder statement first statements instructions encoded encodes hyp =>
      cases before with
      | nil =>
          obtain ⟨rfl, -⟩ := List.cons.inj split
          rw [List.append_nil]
          exact ⟨statement, encoder, List.mem_cons_self, encoded, rfl, widths⟩
      | cons head before =>
          obtain ⟨rfl, rest⟩ := List.cons.inj split
          obtain ⟨other, later, mem, is_encoded, ids_eq, widths'⟩ :=
            hyp rest (earlier ++ [first]) (width_note widths encoded.declaredWidth?)
          rw [List.append_assoc, List.singleton_append] at widths'
          exact ⟨other, later, List.mem_cons_of_mem _ mem, is_encoded, ids_eq, widths'⟩

/-- Encoded statements are instructions that fill their layouts, if the scalar types known before
are those declared before. -/
theorem Encoder.Encodes.isRegular {statements : List Statement} {encoder : Encoder}
    {instructions : List Instruction} (encodes : encoder.Encodes statements instructions)
    (sound : encoder.IsSound)
    (clean : ∀ statement ∈ statements, ∀ operand ∈ statement.operands, operand.IsClean)
    (earlier : List Instruction)
    (widths : ∀ id, (encoder.scalars[id]?).map Scalar.width = latestWidth? earlier id)
    {before after : List Instruction} {instruction : Instruction}
    (split : instructions = before ++ instruction :: after) :
    instruction.IsRegular (earlier ++ before) := by
  obtain ⟨statement, later, mem, is_encoded, ids_eq, widths'⟩ :=
    encodes.exists_split split earlier widths
  have sound' : later.IsSound := by
    unfold IsSound
    rw [ids_eq]
    exact sound
  have fills := fills_of_bodyWords sound' (clean statement (List.of_mem_zip mem).1)
    (fun mem => is_encoded.kept mem) is_encoded.operands
  -- The width of a constant is that of the latest type declared under its type ID.
  have width_eq : (instruction.operands.head?.bind fun id => later.scalars[id]?).map
      Scalar.width = instruction.operands.head?.bind (latestWidth? (earlier ++ before)) := by
    cases instruction.operands.head? with
    | none => rfl
    | some id => exact widths' id
  rw [width_eq] at fills
  exact ⟨statement.opcode, is_encoded.known, fills⟩

/-! ## The round trip -/

/-- A module that was assembled has the header and the words that its text comes to. -/
theorem assemble_words_inv {source : String} {header : ModuleHeader} {stream : List Word}
    {loaded : Module} (is_words : assembleWords source = .ok (header.words ++ stream))
    (assembled : assemble source = .ok loaded) :
    Module.ofWords (header.words ++ stream) = .ok loaded ∧ loaded.header = header ∧
      loaded.stream = stream := by
  obtain ⟨_, is_words', loads⟩ := exists_of_bind assembled
  cases is_words.symm.trans is_words'
  replace loads := ok_of_mapError loads
  obtain ⟨words_eq, -⟩ := Module.ofWords_inv loads
  obtain ⟨version, generator, bound, schema⟩ := header
  simp only [Module.words, ModuleHeader.words, List.cons_append, List.nil_append,
    List.cons.injEq, true_and] at words_eq
  obtain ⟨rfl, rfl, rfl, rfl, stream_eq⟩ := words_eq
  exact ⟨loads, rfl, stream_eq.symm⟩

/-- The words of a text are a header and the words of its statements. -/
theorem assembleWords_inv {source : String} {statements : List Statement} {words : List Word}
    (parsed : parseSource source = .ok statements) (assembled : assembleWords source = .ok words) :
    ∃ encoder parts, Encoder.ofStatements statements = .ok encoder ∧
      encoder.encodeFrom [] statements = .ok parts ∧
      words = (ModuleHeader.ofBound encoder.ids.bound 0).words ++ parts.flatten := by
  obtain ⟨statements', parsed', assembled⟩ := exists_of_bind assembled
  cases parsed.symm.trans parsed'
  obtain ⟨⟨bound, parts⟩, encoded, assembled⟩ := exists_of_bind assembled
  obtain ⟨encoder, started, encoded⟩ := exists_of_bind encoded
  obtain ⟨parts', encoded, pair_eq⟩ := exists_of_bind encoded
  cases pair_eq
  cases assembled
  exact ⟨encoder, parts, started, encoded, rfl⟩

/-- Statements that are encoded are the words of their text. -/
theorem assembleWords_of_encodeFrom {source : String} {statements : List Statement}
    {encoder : Encoder} {parts : List (List Word)} (parsed : parseSource source = .ok statements)
    (started : Encoder.ofStatements statements = .ok encoder)
    (encoded : encoder.encodeFrom [] statements = .ok parts) : assembleWords source =
      .ok ((ModuleHeader.ofBound encoder.ids.bound 0).words ++ parts.flatten) := by
  rw [assembleWords, parsed]
  simp only [bind, Except.bind, encodeStatements, started, encoded, pure, Except.pure]

/-- A module that was assembled has the bound of its IDs and the words of its statements. -/
theorem assemble_inv {source : String} {statements : List Statement} {loaded : Module}
    (parsed : parseSource source = .ok statements) (assembled : assemble source = .ok loaded) :
    ∃ words encoder parts, Module.ofWords words = .ok loaded ∧
      Encoder.ofStatements statements = .ok encoder ∧
      encoder.encodeFrom [] statements = .ok parts ∧
      loaded.bound = encoder.ids.bound ∧ loaded.stream = parts.flatten := by
  obtain ⟨words, is_words, -⟩ := exists_of_bind assembled
  obtain ⟨encoder, parts, started, encoded, rfl⟩ := assembleWords_inv parsed is_words
  obtain ⟨loads, header_eq, stream_eq⟩ := assemble_words_inv is_words assembled
  exact ⟨_, encoder, parts, loads, started, encoded, congrArg ModuleHeader.bound header_eq,
    stream_eq⟩

/-- The instructions of an assembled module are what its statements are encoded as. -/
theorem assemble_encodes {source : String} {statements : List Statement} {loaded : Module}
    (parsed : parseSource source = .ok statements) (assembled : assemble source = .ok loaded) :
    ∃ words encoder, Module.ofWords words = .ok loaded ∧
      Encoder.ofStatements statements = .ok encoder ∧ loaded.bound = encoder.ids.bound ∧
      encoder.Encodes statements loaded.instructions := by
  obtain ⟨words, encoder, parts, loads, started, encoded, bound_eq, stream_eq⟩ :=
    assemble_inv parsed assembled
  obtain ⟨-, -, framed, -⟩ := Module.ofWords_inv loads
  obtain ⟨instructions, parts_eq, framed', encodes⟩ := Encoder.exists_encodes encoded headerLength
  -- There is only one way to cut the words into instructions, so they are those of the module.
  obtain rfl : loaded.instructions = instructions := by
    refine Framing.unique framed framed' ?_
    rw [parts_eq, List.reverse_nil, List.nil_append] at stream_eq
    exact stream_eq
  exact ⟨words, encoder, loads, started, bound_eq, encodes⟩

/-- An encoder that knows no scalar types knows those of no instructions. -/
theorem Encoder.widths_nil {encoder : Encoder} (no_scalars : encoder.scalars = ∅) (id : Id) :
    (encoder.scalars[id]?).map Scalar.width = latestWidth? [] id := by
  rw [no_scalars]
  simp [latestWidth?]

/-- The listing of an assembled module assembles to the words of the module, if no string of its
text holds a NUL. -/
theorem assemble_again {source : String} {statements : List Statement} {loaded : Module}
    (parsed : parseSource source = .ok statements) (assembled : assemble source = .ok loaded)
    (clean : ∀ statement ∈ statements, ∀ string, .str string ∈ statement.operands →
      '\x00' ∉ string.toList) :
    ∃ text again, listing loaded = .ok text ∧ assemble text = .ok again ∧
      again.stream = loaded.stream := by
  obtain ⟨words, encoder, loads, started, bound_eq, encodes⟩ := assemble_encodes parsed assembled
  obtain ⟨-, ⟨-, small⟩, framed, -⟩ := Module.ofWords_inv loads
  rw [bound_eq] at small
  obtain ⟨sound, no_scalars⟩ := Encoder.isSound_ofStatements started small
  have all_clean : ∀ statement ∈ statements, ∀ operand ∈ statement.operands, operand.IsClean := by
    intro statement mem operand operand_mem
    cases operand with
    | str string =>
        exact ⟨clean statement mem string operand_mem,
          sourceStrings_free parsed statement mem string operand_mem⟩
    | _ => trivial
  have regular : loaded.IsRegular := fun before instruction after split =>
    encodes.isRegular sound all_clean [] (Encoder.widths_nil no_scalars) split
  obtain ⟨text, bound, listed, positive, small, again_words⟩ :=
    exists_listing regular framed.short
  obtain ⟨again, assembles, again_eq⟩ := assemble_of_words loads positive small again_words
  exact ⟨text, again, listed, assembles, again_eq⟩

/-- A text that defines a string assembles to the words of the string. -/
theorem assemble_string {source string : String}
    (parsed : parseSource source = .ok [⟨1, some "1", .string, [.str string]⟩])
    (short : (1 :: packString string).length + 1 < 65536) :
    ∃ header, assemble source =
      .ok ⟨header, [⟨headerLength, Opcode.string.number, 1 :: packString string⟩], {}, 1⟩ := by
  -- The text has one ID, which has a number of its own name, so the words of its one statement are
  -- known.
  set statement : Statement := ⟨1, some "1", .string, [.str string]⟩ with statement_eq
  have names_eq : [statement].flatMap Statement.idNames = [toString (1 : Id)] := rfl
  have named : ∀ other ∈ [statement], ∀ name ∈ other.idNames, IsIdName name := by
    intro other mem name name_mem
    have name_mem' : name ∈ [toString (1 : Id)] :=
      names_eq ▸ List.mem_flatMap.mpr ⟨other, mem, name_mem⟩
    exact ⟨1, List.mem_singleton.mp name_mem', by decide⟩
  obtain ⟨numbers, counts, keeps, positive, small⟩ := IdNumbers.counted_of_idNames named
  have number : numbers.get? "1" = some 1 := keeps 1 (by rw [names_eq]; exact List.mem_cons_self)
  have body : Encoder.bodyWords ⟨numbers, ∅⟩ statement = .ok (1 :: packString string) := by
    refine Encoder.bodyWords_of_run (?_ : statement.opcode.layout.Admits [.result, .string])
      (.result rfl (?_ : Encoder.idWord ⟨numbers, ∅⟩ 1 "1" = .ok 1)
        (.operand nofun rfl (.nil _))) rfl
    · exact ⟨[], 0, List.nil_prefix, .inr rfl, rfl⟩
    · rw [Encoder.idWord, number]
  have encoded := encode_of_bodyWords body rfl short
  let loaded : Module := ⟨.ofBound numbers.bound 0,
    [⟨headerLength, Opcode.string.number, 1 :: packString string⟩], {}, 1⟩
  have loads : Module.ofWords loaded.words = .ok loaded :=
    Module.ofWords_words positive small ⟨rfl, short, trivial⟩ rfl rfl
  refine ⟨.ofBound numbers.bound 0, ?_⟩
  have words_eq : assembleWords source = .ok loaded.words := by
    have started : Encoder.ofStatements [statement] = .ok ⟨numbers, ∅⟩ := by
      rw [Encoder.ofStatements, counts]
      rfl
    have all : Encoder.encodeFrom [] ⟨numbers, ∅⟩ [statement] =
        .ok (loaded.instructions.map Instruction.words) := by
      rw [Encoder.encodeFrom_cons encoded]
      rfl
    rw [assembleWords_of_encodeFrom parsed started all]
    rfl
  rw [assemble, words_eq]
  exact congrArg (Except.mapError AssemblyError.invalidModule) loads

/-- A text whose string holds no NUL survives a listing. -/
theorem assemble_again_string : ∃ loaded, assemble "%1 = OpString \"a\"\n" = .ok loaded ∧
    ∃ text again, listing loaded = .ok text ∧ assemble text = .ok again ∧
      again.stream = loaded.stream := by
  have parsed : parseSource "%1 = OpString \"a\"\n" =
      .ok [⟨1, some "1", .string, [.str "a"]⟩] := by decide +kernel
  obtain ⟨header, assembled⟩ := assemble_string parsed (by decide +kernel)
  exact ⟨_, assembled, assemble_again parsed assembled (by simp)⟩

/-- A text whose string holds a NUL does not survive a listing: the words of the string are read up
to the NUL only, so what comes behind it is not listed. -/
theorem string_with_nul_lost : ¬ ∀ (source : String) (loaded : Module),
    assemble source = .ok loaded → ∃ text again, listing loaded = .ok text ∧
      assemble text = .ok again ∧ again.stream = loaded.stream := by
  intro survives
  have parsed : parseSource "%1 = OpString \"a\x00b\"\n" =
      .ok [⟨1, some "1", .string, [.str "a\x00b"]⟩] := by decide +kernel
  have whole : packString "a\x00b" = [0x620061] := by decide +kernel
  have front : packString "a" = [0x61] := by decide +kernel
  obtain ⟨header, assembled⟩ := assemble_string parsed (by rw [whole]; decide)
  obtain ⟨text, again, listed, assembles, stream_eq⟩ := survives _ _ assembled
  -- The listing is that of the module whose string ends at the NUL.
  let instruction : Instruction := ⟨headerLength, Opcode.string.number, [1, 0x61]⟩
  have same : listing ⟨header, [instruction], {}, 1⟩ = .ok text := by
    rw [← listed, whole]
    rfl
  have regular : Module.IsRegular ⟨header, [instruction], {}, 1⟩ := by
    intro earlier found later split
    match earlier, split with
    | [], split =>
        cases split
        exact ⟨.string, rfl, [.result, .string], [[1], [0x61]],
          ⟨[], 0, List.nil_prefix, .inr rfl, rfl⟩,
          .cons ⟨1, rfl, by decide⟩ (.cons ⟨"a", by decide, by decide, front.symm⟩ .nil), rfl⟩
    | _ :: _, split => simp at split
  have short : ∀ found ∈ [instruction], found.wordCount < 65536 := by decide
  obtain ⟨text', bound, listed', -, -, is_words⟩ := exists_listing regular short
  cases same.symm.trans listed'
  obtain ⟨-, -, again_eq⟩ := assemble_words_inv is_words assembles
  rw [again_eq, whole] at stream_eq
  have differ : [instruction].flatMap Instruction.words ≠
      [Instruction.mk headerLength Opcode.string.number [1, 0x620061]].flatMap
        Instruction.words := by
    decide
  exact differ stream_eq

/-! ## A text with a function -/

/-- Statements that are encoded whatever scalar types are known are written one after the other. -/
theorem Encoder.encodeFrom_plain {ids : IdNumbers} {statements : List Statement}
    {parts : List (List Word)}
    (plain : List.Forall₂ (fun statement words => ∀ scalars,
      encode ⟨ids, scalars⟩ statement = .ok words) statements parts)
    (scalars : ScalarTable) (written : List (List Word)) (rest : List Statement) :
    ∃ scalars', encodeFrom written ⟨ids, scalars⟩ (statements ++ rest) =
      encodeFrom (parts.reverse ++ written) ⟨ids, scalars'⟩ rest := by
  induction plain generalizing scalars written with
  | nil => exact ⟨scalars, rfl⟩
  | @cons statement words statements parts encoded _ hyp =>
      obtain ⟨scalars', goes_on⟩ :=
        hyp (scalars.note statement.opcode (words.drop 1)) (words :: written)
      refine ⟨scalars', (encodeFrom_cons (encoded scalars) written _).trans ?_⟩
      rw [List.reverse_cons, List.append_assoc]
      exact goes_on

/-- The lines of a text that ends every one of them are these. -/
theorem sourceLines_join {lines : List String} (free : ∀ line ∈ lines, '\n' ∉ line.toList) :
    sourceLines (String.join (lines.map (· ++ "\n"))) = lines.map String.toList ++ [[]] := by
  have joined : (String.join (lines.map (· ++ "\n"))).toList =
      (lines.map String.toList).flatMap (· ++ ['\n']) := by
    induction lines with
    | nil => rfl
    | cons line lines hyp =>
        rw [List.map_cons, String.join_cons, String.toList_append, String.toList_append,
          hyp fun line mem => free line (List.mem_cons_of_mem _ mem)]
        rfl
  rw [sourceLines, joined, splitOn_lines (List.forall_mem_map.mpr free)]

/-- The lines of a text whose `main` takes the absolute value of a variable of 64 bits, once with an
operand too many. -/
def absoluteLines : List String :=
  ["%9 = OpExtInstImport \"GLSL.std.450\"",
    "OpEntryPoint Vertex %7 \"main\" %6",
    "%1 = OpTypeVoid",
    "%2 = OpTypeFunction %1",
    "%3 = OpTypeFloat 64",
    "%5 = OpConstant %3 -1.5",
    "%4 = OpTypePointer Private %3",
    "%6 = OpVariable %4 Private %5",
    "%7 = OpFunction %1 None %2",
    "%8 = OpLabel",
    "%10 = OpLoad %3 %6",
    "%11 = OpExtInst %3 %9 FAbs %10 %10",
    "OpReturn",
    "OpFunctionEnd"]

/-- The text with these lines. -/
def absoluteText : String :=
  String.join (absoluteLines.map (· ++ "\n"))

/-- The statements of this text. -/
def absoluteStatements : List Statement :=
  [⟨1, some "9", .extInstImport, [.str "GLSL.std.450"]⟩,
    ⟨2, none, .entryPoint, [.word "Vertex", .id "7", .str "main", .id "6"]⟩,
    ⟨3, some "1", .typeVoid, []⟩, ⟨4, some "2", .typeFunction, [.id "1"]⟩,
    ⟨5, some "3", .typeFloat, [.integer 64]⟩,
    ⟨6, some "5", .constant, [.id "3", .float "-1.5"]⟩,
    ⟨7, some "4", .typePointer, [.word "Private", .id "3"]⟩,
    ⟨8, some "6", .variableDecl, [.id "4", .word "Private", .id "5"]⟩,
    ⟨9, some "7", .function, [.id "1", .word "None", .id "2"]⟩, ⟨10, some "8", .label, []⟩,
    ⟨11, some "10", .load, [.id "3", .id "6"]⟩,
    ⟨12, some "11", .extInst, [.id "3", .id "9", .word "FAbs", .id "10", .id "10"]⟩,
    ⟨13, none, .returnVoid, []⟩, ⟨14, none, .functionEnd, []⟩]

/-- The module that it is assembled to. -/
def absoluteModule : Module where
  header := .ofBound 12 0
  instructions := [⟨5, 11, [9, 0x4c534c47, 0x6474732e, 0x3035342e, 0]⟩,
    ⟨11, 15, [0, 7, 0x6e69616d, 0, 6]⟩, ⟨17, 19, [1]⟩, ⟨19, 33, [2, 1]⟩, ⟨22, 22, [3, 64]⟩,
    ⟨25, 43, [3, 5, 0, 0xbff80000]⟩, ⟨30, 32, [4, 6, 3]⟩, ⟨34, 59, [4, 6, 6, 5]⟩,
    ⟨39, 54, [1, 7, 0, 2]⟩, ⟨44, 248, [8]⟩, ⟨46, 61, [3, 10, 6]⟩,
    ⟨50, 12, [3, 11, 9, 4, 10, 10]⟩, ⟨57, 253, []⟩, ⟨58, 56, []⟩]
  metadata := {}
  instructionCount := 14

/-- The lines of the text are these statements. -/
theorem parseSource_absolute : parseSource absoluteText = .ok absoluteStatements := by
  have free : ∀ line ∈ absoluteLines, '\n' ∉ line.toList := by decide +kernel
  rw [parseSource, absoluteText, sourceLines_join free]
  decide +kernel

/-- Its IDs keep their numbers. -/
theorem counted_absolute : ∃ numbers, IdNumbers.counted absoluteStatements = .ok numbers ∧
    numbers.bound = 12 ∧ ∀ name ∈ absoluteStatements.flatMap Statement.idNames,
      numbers.get? name = some (UInt32.ofNat (digitsValue name.toList)) := by
  have numeric : ∀ name ∈ absoluteStatements.flatMap Statement.idNames,
      name = toString (UInt32.ofNat (digitsValue name.toList)) ∧
        IsNumericId (UInt32.ofNat (digitsValue name.toList)) := by decide +kernel
  obtain ⟨numbers, counts, keeps, -, -⟩ := IdNumbers.counted_of_idNames
    fun statement mem name name_mem =>
      ⟨_, numeric name (List.mem_flatMap.mpr ⟨statement, mem, name_mem⟩)⟩
  refine ⟨numbers, counts, ?_, fun name mem => ?_⟩
  · have numbered := (IdNumbers.counted_eq_ok_iff.mp counts).1
    rw [IdNumbers.eq_ofNames_of_ofStatements numbered, IdNumbers.bound_ofNames,
      distinct_eq_eraseDups]
    decide +kernel
  · have kept := keeps (UInt32.ofNat (digitsValue name.toList)) ((numeric name mem).1 ▸ mem)
    rwa [← (numeric name mem).1] at kept

/-- All of its statements but the constant are encoded whatever scalar types are known. -/
theorem encode_absolute {numbers : IdNumbers}
    (number : ∀ name ∈ absoluteStatements.flatMap Statement.idNames,
      numbers.get? name = some (UInt32.ofNat (digitsValue name.toList))) :
    List.Forall₂ (fun statement words => ∀ scalars,
        Encoder.encode ⟨numbers, scalars⟩ statement = .ok words) (absoluteStatements.eraseIdx 5)
      ((absoluteModule.instructions.eraseIdx 5).map Instruction.words) := by
  have idWord (scalars : ScalarTable) (line : ℕ) (name : String)
      (mem : name ∈ absoluteStatements.flatMap Statement.idNames) :
      Encoder.idWord ⟨numbers, scalars⟩ line name =
        .ok (UInt32.ofNat (digitsValue name.toList)) := by
    rw [Encoder.idWord, number name mem]
  -- What the words among the operands stand for, and how the strings are packed.
  have vertex : EnumFamily.valueOf .executionModel "Vertex" = some 0 := by decide +kernel
  have storage : EnumFamily.valueOf .storageClass "Private" = some 6 := by decide +kernel
  have control : EnumFamily.valueOf .functionControl "None" = some 0 := by decide +kernel
  have absolute : GlslInstruction.ofName? "FAbs" = some .fAbs := by decide +kernel
  have main : packString "main" = [0x6e69616d, 0] := by decide +kernel
  have glsl : packString "GLSL.std.450" = [0x4c534c47, 0x6474732e, 0x3035342e, 0] := by
    decide +kernel
  simp only [absoluteStatements, absoluteModule, List.eraseIdx, List.map, List.forall₂_cons,
    List.forall₂_nil_right_iff, and_true]
  refine ⟨?_, ?_, ?_, ?_, ?_, ?_, ?_, ?_, ?_, ?_, ?_, ?_, ?_⟩
  all_goals
    intro scalars
    simp (disch := decide) only [encode_of_present, Encoder.bodyWords, Opcode.layout,
      List.foldlM_cons, List.foldlM_nil, Encoder.fixedStep, Encoder.optionalStep,
      Encoder.variadicStep, Encoder.operandWords, Encoder.nameOrInteger, integerWord?, idWord,
      vertex, storage, control, absolute, main, glsl, List.mapM_cons, List.mapM_nil,
      Option.map_some, Except.map, bind, Except.bind, pure, Except.pure]
    rfl

/-- Its statements are encoded as the instructions of the module. -/
theorem encodeFrom_absolute : ∃ encoder, Encoder.ofStatements absoluteStatements = .ok encoder ∧
    encoder.ids.bound = 12 ∧ encoder.encodeFrom [] absoluteStatements =
      .ok (absoluteModule.instructions.map Instruction.words) := by
  obtain ⟨numbers, counts, bound_eq, number⟩ := counted_absolute
  refine ⟨⟨numbers, ∅⟩, by rw [Encoder.ofStatements, counts]; rfl, bound_eq, ?_⟩
  have plain := encode_absolute number
  obtain ⟨type_encoded, behind⟩ := List.forall₂_cons.mp (List.forall₂_drop 4 plain)
  obtain ⟨scalars, front⟩ := Encoder.encodeFrom_plain (List.forall₂_take 4 plain) ∅ []
    (absoluteStatements.drop 4)
  -- The type of the constant is noted right before the constant is encoded.
  have declared : (scalars.note .typeFloat [3, 64])[(3 : Id)]? = some (.float 64) :=
    Std.HashMap.getElem?_insert_self
  have constant_encoded : Encoder.encode ⟨numbers, scalars.note .typeFloat [3, 64]⟩
      ⟨6, some "5", .constant, [.id "3", .float "-1.5"]⟩ =
        .ok [0x5002b, 3, 5, 0, 0xbff80000] := by
    rw [encode_of_present rfl, Encoder.bodyWords_constant (number "3" (by decide))
      (number "5" (by decide))]
    change ((constantWords 6 (scalars.note .typeFloat [3, 64])[(3 : Id)]? _).map _ >>= _) = _
    rw [declared]
    decide +kernel
  obtain ⟨_, back⟩ := Encoder.encodeFrom_plain behind (scalars.note .typeFloat [3, 64])
    ([0x5002b, 3, 5, 0, 0xbff80000] :: [0x30016, 3, 64] ::
      ((absoluteModule.instructions.take 4).map Instruction.words).reverse) []
  refine front.trans ((Encoder.encodeFrom_cons (type_encoded scalars) _ _).trans ?_)
  exact (Encoder.encodeFrom_cons constant_encoded _ _).trans back

/-- The text is assembled to the words of the module. -/
theorem assemble_absolute : assembleWords absoluteText = .ok absoluteModule.words ∧
    assemble absoluteText = .ok absoluteModule := by
  obtain ⟨encoder, started, bound_eq, encoded⟩ := encodeFrom_absolute
  have is_words := assembleWords_of_encodeFrom parseSource_absolute started encoded
  rw [bound_eq, ← List.flatMap_def] at is_words
  have loads : Module.ofWords absoluteModule.words = .ok absoluteModule :=
    Module.ofWords_words (by decide) (by decide) (by decide) rfl rfl
  refine ⟨is_words, ?_⟩
  rw [assemble, is_words]
  exact congrArg (Except.mapError AssemblyError.invalidModule) loads

end ShaderMachine
