import ShaderMachine.Proofs.Framing
import ShaderMachine.Proofs.LineRoundTrip

/-! # Listings assemble to the words they list

A module whose instructions fill their layouts has a listing, the listing assembles, and the
assembled module has the words of the first one after its header.

* **`latestWidth?`** — the width that the latest declaration of a scalar type gives it.
* **`Module.IsRegular`** — every instruction fills its layout.
* **`exists_drafts`** — instructions that fill their layouts are encoded again from their lines.
* **`exists_listing`** — a regular module has a listing, which is encoded as its words.
* **`assemble_listing`** — the listing of a regular module assembles to its words. -/

namespace ShaderMachine

/-! ## Regular modules -/

/-- The ID and the width of the scalar type that an instruction declares. -/
def Instruction.declaredWidth? (instruction : Instruction) : Option (Id × Word) :=
  match Opcode.ofNumber? instruction.opcode, instruction.operands with
  | some .typeInt, id :: width :: _ | some .typeFloat, id :: width :: _ => some (id, width)
  | _, _ => none

/-- The width that the latest of some instructions to declare an ID as a scalar type gives it. -/
def latestWidth? (earlier : List Instruction) (id : Id) : Option Word :=
  (earlier.reverse.filterMap Instruction.declaredWidth?).lookup id

/-- What is found last for a key in a list that goes on with an element is what the element gives
the key, or else what was found before. -/
theorem lookup_concat {α κ β : Type} [BEq κ] [LawfulBEq κ] [DecidableEq κ] (f : α → Option (κ × β))
    (elements : List α) (last : α) (key : κ) :
    ((elements ++ [last]).reverse.filterMap f).lookup key =
      match f last with
      | some (target, value) =>
          if key = target then some value else (elements.reverse.filterMap f).lookup key
      | none => (elements.reverse.filterMap f).lookup key := by
  rw [List.reverse_append, List.reverse_singleton, List.singleton_append]
  cases given : f last with
  | none => rw [List.filterMap_cons_none given]
  | some pair =>
      obtain ⟨target, value⟩ := pair
      rw [List.filterMap_cons_some given, List.lookup_cons]
      by_cases same : key = target
      · simp [same]
      · rw [beq_eq_false_iff_ne.mpr same]
        simp only [if_neg same]

/-- Whether an instruction is a known one that fills its layout. The instructions before it decide
the width of its result type. -/
def Instruction.IsRegular (earlier : List Instruction) (instruction : Instruction) : Prop :=
  ∃ opcode, Opcode.ofNumber? instruction.opcode = some opcode ∧
    opcode.layout.Fills (instruction.operands.head?.bind (latestWidth? earlier))
      instruction.operands

/-- Whether every instruction of a module is a known one that fills its layout. -/
def Module.IsRegular (loaded : Module) : Prop :=
  ∀ earlier instruction later, loaded.instructions = earlier ++ instruction :: later →
    instruction.IsRegular earlier

/-- An instruction with the operands of its layout declares the width that its scalar type has, if
results and integers take one word each. -/
theorem declaredWidth?_of_filled {P : OperandKind → List Word → Prop}
    (single : ∀ kind part, kind = .result ∨ kind = .integer → P kind part → ∃ word, part = [word])
    {instruction : Instruction} {opcode : Opcode}
    (known : Opcode.ofNumber? instruction.opcode = some opcode)
    (filled : ∃ kinds parts, opcode.layout.Admits kinds ∧ List.Forall₂ P kinds parts ∧
      instruction.operands = parts.flatten) :
    instruction.declaredWidth? = (Scalar.ofDeclaration? opcode instruction.operands).map
      fun (id, scalar) => (id, scalar.width) := by
  obtain ⟨kinds, parts, admits, each, words_eq⟩ := filled
  obtain ⟨others, rfl, within⟩ := mem_of_admits admits
  rw [Instruction.declaredWidth?, known, words_eq]
  have none_of_nil (no_others : ∀ kind, kind ∉ others) : others = [] :=
    List.eq_nil_iff_forall_not_mem.mpr no_others
  cases opcode with
  | typeInt =>
      obtain rfl := none_of_nil fun kind mem => List.not_mem_nil (within kind mem)
      rcases each with _ | ⟨first, _ | ⟨second, _ | ⟨third, ⟨⟩⟩⟩⟩
      obtain ⟨id, rfl⟩ := single _ _ (.inl rfl) first
      obtain ⟨width, rfl⟩ := single _ _ (.inr rfl) second
      obtain ⟨signedness, rfl⟩ := single _ _ (.inr rfl) third
      rfl
  | typeFloat =>
      obtain rfl := none_of_nil fun kind mem => List.not_mem_nil (within kind mem)
      rcases each with _ | ⟨first, _ | ⟨second, ⟨⟩⟩⟩
      obtain ⟨id, rfl⟩ := single _ _ (.inl rfl) first
      obtain ⟨width, rfl⟩ := single _ _ (.inr rfl) second
      rfl
  | _ => rfl

/-- An instruction that fills its layout declares the width that its scalar type has. -/
theorem declaredWidth?_of_fills {instruction : Instruction} {opcode : Opcode} {width : Option Word}
    (known : Opcode.ofNumber? instruction.opcode = some opcode)
    (fills : opcode.layout.Fills width instruction.operands) :
    instruction.declaredWidth? = (Scalar.ofDeclaration? opcode instruction.operands).map
      fun (id, scalar) => (id, scalar.width) := by
  refine declaredWidth?_of_filled (P := OperandKind.Accepts width) ?_ known fills
  rintro kind part (rfl | rfl) accepts
  · obtain ⟨id, part_eq, -⟩ := accepts
    exact ⟨id, part_eq⟩
  · exact accepts

/-- Noting a declaration keeps the widths of a table those of the latest declarations. -/
theorem width_note {scalars : ScalarTable} {earlier : List Instruction}
    (widths : ∀ id, (scalars[id]?).map Scalar.width = latestWidth? earlier id)
    {instruction : Instruction} {opcode : Opcode}
    (declared : instruction.declaredWidth? = (Scalar.ofDeclaration? opcode instruction.operands).map
      fun (id, scalar) => (id, scalar.width)) (id : Id) :
    ((scalars.note opcode instruction.operands)[id]?).map Scalar.width =
      latestWidth? (earlier ++ [instruction]) id := by
  rw [latestWidth?, lookup_concat, declared, ScalarTable.note]
  cases Scalar.ofDeclaration? opcode instruction.operands with
  | none => exact widths id
  | some declaration =>
      obtain ⟨declared_id, scalar⟩ := declaration
      simp only [Option.map_some]
      rw [Std.HashMap.getElem?_insert]
      by_cases same : id = declared_id
      · simp [same]
      · rw [if_neg same, if_neg fun equal => same (eq_of_beq equal).symm]
        exact widths id

/-! ## The header -/

/-- A text is written as itself. -/
theorem toString_text (text : String) : toString text = text :=
  rfl

/-- A natural number has no line end. -/
theorem newline_not_mem_natural (n : ℕ) : '\n' ∉ (toString n).toList := by
  have digits : (toString n).toList = Nat.toDigits 10 n := Nat.toList_repr
  rw [digits]
  exact newline_not_mem (fun _ => isDigit_of_mem_digits) rfl

/-- How a listing names the tool that wrote a module has no line end. -/
theorem newline_not_mem_generatorText (header : ModuleHeader) :
    '\n' ∉ header.generatorText.toList := by
  have version := newline_not_mem_natural header.toolVersion
  have tool := newline_not_mem_natural header.tool
  have registered : ∀ name ∈ ModuleHeader.toolNames, '\n' ∉ name.toList := by decide
  rw [ModuleHeader.generatorText]
  rw [String.toList_append, List.mem_append, not_or]
  constructor
  · cases found : header.toolName? with
    | none =>
        simp only [Option.getD_none, toString_text, String.toList_append, List.mem_append, not_or]
        exact ⟨⟨by simp, tool⟩, by simp⟩
    | some name => exact registered name (List.mem_of_getElem? found)
  · simp only [toString_text, String.toList_append, List.mem_append, not_or]
    exact ⟨by simp, version⟩

/-- The lines about a header are comments. -/
theorem exists_comments (header : ModuleHeader) :
    ∃ comments : List (List Char), header.listing.toList = comments.flatMap (· ++ ['\n']) ∧
      ∀ line ∈ comments, '\n' ∉ line ∧ IsComment line := by
  have generator := newline_not_mem_generatorText header
  have major := newline_not_mem_natural header.majorVersion
  have minor := newline_not_mem_natural header.minorVersion
  have bound : '\n' ∉ (toString header.bound).toList := newline_not_mem_natural header.bound.toNat
  have schema : '\n' ∉ (toString header.schema).toList :=
    newline_not_mem_natural header.schema.toNat
  refine ⟨["; SPIR-V".toList,
    "; Version: ".toList ++ (toString header.majorVersion).toList ++ ".".toList ++
      (toString header.minorVersion).toList,
    "; Generator: ".toList ++ header.generatorText.toList,
    "; Bound: ".toList ++ (toString header.bound).toList,
    "; Schema: ".toList ++ (toString header.schema).toList], ?_, ?_⟩
  · rw [ModuleHeader.listing]
    simp [toString_text, -Nat.toString_eq_repr]
  · simp [IsComment, major, minor, generator, bound, schema, -Nat.toString_eq_repr]

/-! ## The instructions -/

/-- The draft of an instruction: its statement on no line yet. -/
theorem drafts_of_returns {decoder : Decoder} {instruction : Instruction} {opcode : Opcode}
    {decoded : DecodedInstruction} {operands : List Operand}
    (returns : Returns decoder instruction opcode decoded operands) :
    Drafts decoded ⟨0, decoded.result.map toString, opcode, operands⟩ :=
  ⟨returns.known, rfl, returns.reads⟩

/-- The draft of an instruction has no names but those of numeric IDs. -/
theorem isIdName_of_returns {decoder : Decoder} {instruction : Instruction} {opcode : Opcode}
    {decoded : DecodedInstruction} {operands : List Operand}
    (returns : Returns decoder instruction opcode decoded operands) :
    ∀ name ∈ Statement.idNames ⟨0, decoded.result.map toString, opcode, operands⟩,
      IsIdName name := by
  intro name mem
  rw [Statement.idNames, List.mem_append, List.mem_filterMap] at mem
  rcases mem with mem | ⟨operand, operand_mem, named⟩
  · obtain ⟨id, result, rfl⟩ := Option.map_eq_some_iff.mp (Option.mem_toList.mp mem)
    exact ⟨id, rfl, returns.numeric id result⟩
  · exact returns.named operand operand_mem name named

/-- Noting a decoded instruction notes the scalar type that it declares. -/
theorem scalars_note {decoder : Decoder} {instruction : Instruction} {opcode : Opcode}
    {decoded : DecodedInstruction} {operands : List Operand}
    (returns : Returns decoder instruction opcode decoded operands) :
    (decoder.note instruction decoded).scalars =
      decoder.scalars.note opcode instruction.operands := by
  have known : decoded.opcode? = some opcode := returns.known
  rw [Decoder.note, known]
  split
  · rename_i imported _ _
    obtain rfl := Option.some.inj imported
    split_ifs <;> rfl
  · rename_i found _
    rw [Option.some.inj found]
  · rename_i missing
    cases missing

/-- Instructions that fill their layouts are decoded, and their drafts are encoded as their words
wherever they stand. -/
theorem exists_drafts (instructions earlier : List Instruction) (decoder : Decoder)
    (widths : ∀ id, (decoder.scalars[id]?).map Scalar.width = latestWidth? earlier id)
    (regular : ∀ before instruction after, instructions = before ++ instruction :: after →
      instruction.IsRegular (earlier ++ before))
    (short : ∀ instruction ∈ instructions, instruction.wordCount < 65536)
    (read : List DecodedInstruction) :
    ∃ decoded drafts,
      Decoder.decodeFrom read decoder instructions = .ok (read.reverse ++ decoded) ∧
      List.Forall₂ Drafts decoded drafts ∧
      (∀ draft ∈ drafts, ∀ name ∈ draft.idNames, IsIdName name) ∧
      ∀ (encoder : Encoder) line written, encoder.scalars = decoder.scalars →
        encoder.ids.Keeps (drafts.flatMap Statement.idNames) →
        encoder.encodeFrom written (consecutive line drafts) =
          .ok (written.reverse ++ instructions.map Instruction.words) := by
  -- Decoder and encoder note the same scalar types, so their widths agree all along.
  induction instructions generalizing earlier decoder read with
  | nil =>
      refine ⟨[], [], ?_, .nil, by simp, fun encoder line written _ _ => ?_⟩
      · rw [List.append_nil]
        rfl
      · rw [List.map_nil, List.append_nil]
        rfl
  | cons instruction instructions hyp =>
      rw [List.forall_mem_cons] at short
      obtain ⟨opcode, known, fills⟩ := regular [] instruction instructions rfl
      rw [List.append_nil] at fills
      -- The width of a constant is that of the latest type declared under its type ID.
      have width_eq : (instruction.operands.head?.bind fun id => decoder.scalars[id]?).map
          Scalar.width = instruction.operands.head?.bind (latestWidth? earlier) := by
        cases instruction.operands.head? with
        | none => rfl
        | some id => exact widths id
      obtain ⟨decoded, operands, returns⟩ :=
        exists_statement decoder known fills (fun _ => width_eq) short.1
      have widths' := width_note widths (declaredWidth?_of_fills known fills)
      rw [← scalars_note returns] at widths'
      -- What is earlier for the others is what was earlier and this instruction.
      have regular' (before : List Instruction) (next : Instruction) (after : List Instruction)
          (split : instructions = before ++ next :: after) :
          next.IsRegular (earlier ++ [instruction] ++ before) := by
        rw [List.append_assoc, List.singleton_append]
        exact regular (instruction :: before) next after (by rw [split, List.cons_append])
      obtain ⟨others, drafts, decode_others, reads, named, encode_others⟩ :=
        hyp _ _ widths' regular' short.2 (decoded :: read)
      refine ⟨decoded :: others, _ :: drafts, ?_, .cons (drafts_of_returns returns) reads, ?_, ?_⟩
      · rw [Decoder.decodeFrom, returns.decoded_eq]
        simp only [decode_others]
        rw [List.reverse_cons, List.append_assoc, List.singleton_append]
      · rw [List.forall_mem_cons]
        exact ⟨isIdName_of_returns returns, named⟩
      · intro encoder line written same keeps
        rw [List.flatMap_cons] at keeps
        have encoded := returns.encoded encoder line same
          (keeps.mono (List.subset_append_left _ _))
        rw [consecutive, Statement.onLine, Encoder.encodeFrom_cons encoded, encode_others]
        · simp
        · rw [scalars_note returns, Encoder.note, same]
          rfl
        · exact keeps.mono (List.subset_append_right _ _)

/-- The lines of drafted instructions are parsed as their drafts. -/
theorem exists_lines {decoded : List DecodedInstruction} {drafts : List Statement}
    (reads : List.Forall₂ Drafts decoded drafts) (width : ℕ) :
    ∃ lines : List (List Char),
      (String.join (decoded.map (DecodedInstruction.line width))).toList =
        lines.flatMap (· ++ ['\n']) ∧
      (∀ line ∈ lines, '\n' ∉ line) ∧
      List.Forall₂
        (fun line draft => ∀ number, parseLine number line = .ok (some (draft.onLine number)))
        lines drafts := by
  induction reads with
  | nil => exact ⟨[], by simp, by simp, .nil⟩
  | @cons first draft decoded drafts first_drafts reads hyp =>
      obtain ⟨lines, text_eq, free, parse⟩ := hyp
      obtain ⟨count, line_eq⟩ := toList_line width first
      refine ⟨(List.replicate count ' ' ++ first.body.toList) :: lines, ?_, ?_,
        .cons (parseLine_body first_drafts count) parse⟩
      · rw [List.map_cons, String.join_cons, String.toList_append, text_eq, line_eq,
          List.flatMap_cons]
      · rw [List.forall_mem_cons, List.mem_append, not_or]
        refine ⟨⟨?_, newline_not_mem_body first_drafts⟩, free⟩
        simp [List.mem_replicate]

/-! ## The round trip -/

/-- Statements on consecutive lines have the names of their drafts. -/
theorem idNames_consecutive (line : ℕ) (drafts : List Statement) :
    (consecutive line drafts).flatMap Statement.idNames = drafts.flatMap Statement.idNames := by
  induction drafts generalizing line with
  | nil => rfl
  | cons draft drafts hyp =>
      rw [consecutive, List.flatMap_cons, List.flatMap_cons, hyp]
      rfl

/-- A module whose instructions fill their layouts has a listing, and the words that it assembles to
are those of the module behind a header of their own. -/
theorem exists_listing {loaded : Module} (regular : loaded.IsRegular)
    (short : ∀ instruction ∈ loaded.instructions, instruction.wordCount < 65536) :
    ∃ text bound, listing loaded = .ok text ∧ bound ≠ 0 ∧ bound ≤ maxBound ∧
      assembleWords text = .ok ((ModuleHeader.ofBound bound 0).words ++ loaded.stream) := by
  obtain ⟨decoded, drafts, decode, reads, named, encode⟩ :=
    exists_drafts loaded.instructions [] {} (by intro id; simp [latestWidth?]) regular short []
  obtain ⟨comments, header_eq, comments_all⟩ := exists_comments loaded.header
  obtain ⟨lines, lines_eq, lines_free, parse⟩ := exists_lines reads (resultWidth decoded)
  set text := loaded.header.listing ++
    String.join (decoded.map (DecodedInstruction.line (resultWidth decoded))) with text_eq
  -- The module decodes, so there is a listing.
  have listed : listing loaded = .ok text := by
    rw [listing, Module.decode, decode]
    rfl
  -- Its lines are parsed as the drafts, numbered by the lines they stand on.
  have parsed : parseSource text = .ok (consecutive (comments.length + 1) drafts) := by
    apply parseSource_of_lines
    · rw [text_eq, String.toList_append, header_eq, lines_eq, List.flatMap_append]
    · intro line mem
      rcases List.mem_append.mp mem with mem | mem
      · exact (comments_all line mem).1
      · exact lines_free line mem
    · exact fun line mem => (comments_all line mem).2
    · exact parse
  set statements := consecutive (comments.length + 1) drafts with statements_eq
  -- All names are those of numeric IDs, so these keep their numbers.
  have statements_named : ∀ statement ∈ statements, ∀ name ∈ statement.idNames, IsIdName name := by
    intro statement mem name name_mem
    have name_mem_drafts : name ∈ drafts.flatMap Statement.idNames := by
      rw [← idNames_consecutive (comments.length + 1)]
      exact List.mem_flatMap.mpr ⟨statement, mem, name_mem⟩
    obtain ⟨draft, draft_mem, name_mem⟩ := List.mem_flatMap.mp name_mem_drafts
    exact named draft draft_mem name name_mem
  obtain ⟨numbers, counts, keeps, positive, small⟩ :=
    IdNumbers.counted_of_idNames statements_named
  rw [statements_eq, idNames_consecutive] at keeps
  have encoded := encode ⟨numbers, ∅⟩ (comments.length + 1) [] rfl keeps
  rw [← statements_eq, List.reverse_nil, List.nil_append] at encoded
  have encoder : Encoder.ofStatements statements = .ok ⟨numbers, ∅⟩ := by
    rw [Encoder.ofStatements, counts]
    rfl
  -- The encoded words come after a header of their own.
  refine ⟨text, numbers.bound, listed, positive, small, ?_⟩
  rw [assembleWords, parsed]
  simp only [bind, Except.bind, encodeStatements, encoder, encoded, pure, Except.pure]
  rw [Module.stream, List.flatMap_def]

/-- A text whose words are those of a module behind another header assembles to that module. -/
theorem assemble_of_words {words : List Word} {loaded : Module}
    (loads : Module.ofWords words = .ok loaded) {text : String} {bound : Id} (positive : bound ≠ 0)
    (small : bound ≤ maxBound)
    (assembled : assembleWords text = .ok ((ModuleHeader.ofBound bound 0).words ++ loaded.stream)) :
    ∃ again, assemble text = .ok again ∧ again.stream = loaded.stream := by
  obtain ⟨-, -, framed, noted, counted⟩ := Module.ofWords_inv loads
  let again : Module :=
    ⟨.ofBound bound 0, loaded.instructions, loaded.metadata, loaded.instructionCount⟩
  have loads_again : Module.ofWords again.words = .ok again :=
    Module.ofWords_words positive small framed noted counted
  refine ⟨again, ?_, rfl⟩
  rw [assemble, assembled]
  exact congrArg (Except.mapError AssemblyError.invalidModule) loads_again

/-- The listing of a module whose instructions fill their layouts assembles, and the words of the
assembled module are those of the first one. -/
theorem assemble_listing {words : List Word} {loaded : Module}
    (loads : Module.ofWords words = .ok loaded) (regular : loaded.IsRegular) :
    ∃ text again, listing loaded = .ok text ∧ assemble text = .ok again ∧
      again.stream = loaded.stream := by
  obtain ⟨-, -, framed, -⟩ := Module.ofWords_inv loads
  obtain ⟨text, bound, listed, positive, small, assembled⟩ := exists_listing regular framed.short
  -- Both modules have the same instructions, so the new words load as well.
  obtain ⟨again, assembles, stream_eq⟩ := assemble_of_words loads positive small assembled
  exact ⟨text, again, listed, assembles, stream_eq⟩

/-- A module that names a constant of 64 bits. -/
def namedDouble : Module where
  header := .ofBound 3 0
  instructions :=
    [⟨5, 5, [2, 0x6970]⟩, ⟨8, 22, [1, 64]⟩, ⟨11, 43, [1, 2, 0x54442D18, 0x400921FB]⟩]
  metadata := {}
  instructionCount := 3

/-- The listing of a module that names a constant of 64 bits assembles to its words. -/
theorem assemble_listing_namedDouble :
    ∃ text again, listing namedDouble = .ok text ∧ assemble text = .ok again ∧
      again.stream = namedDouble.stream := by
  have loads : Module.ofWords namedDouble.words = .ok namedDouble :=
    Module.ofWords_words (by decide) (by decide) (by decide) rfl rfl
  have first : IsNumericId 1 := by decide
  have second : IsNumericId 2 := by decide
  have named : packString "pi" = [0x6970] := by decide +kernel
  have fixed (opcode : Opcode) (plain : opcode.layout.variadic = none) :
      opcode.layout.Admits opcode.layout.fixed :=
    ⟨[], 0, List.nil_prefix, .inr rfl, by rw [plain, List.append_nil, Option.elim_none,
      List.append_nil]⟩
  have regular : namedDouble.IsRegular := by
    intro earlier instruction later split
    match earlier, split with
    | [], split =>
        cases split
        exact ⟨.name, rfl, _, [[2], [0x6970]], fixed .name rfl,
          .cons ⟨2, rfl, second⟩ (.cons ⟨"pi", by decide, by decide, named.symm⟩ .nil), rfl⟩
    | [_], split =>
        cases split
        exact ⟨.typeFloat, rfl, _, [[1], [64]], fixed .typeFloat rfl,
          .cons ⟨1, rfl, first⟩ (.cons ⟨64, rfl⟩ .nil), rfl⟩
    | [_, _], split =>
        cases split
        exact ⟨.constant, rfl, _, [[1], [2], [0x54442D18, 0x400921FB]], fixed .constant rfl,
          .cons ⟨1, rfl, first⟩ (.cons ⟨2, rfl, second⟩ (.cons rfl .nil)), rfl⟩
    | _ :: _ :: _ :: _, split => simp [namedDouble] at split
  exact assemble_listing loads regular

end ShaderMachine
