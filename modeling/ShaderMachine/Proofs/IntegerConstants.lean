import ShaderMachine.Proofs.DeclaredIntegers
import ShaderMachine.Proofs.KindsSetOnce
import ShaderMachine.Proofs.NumberedNames

/-! # Integer constants

An integer constant means the same when a text is assembled and when the module is set up. It is
accepted if its literal is read and fits its type, and it has then the low-order bytes of the value
of the literal.

* **`Encoder.encodeFrom_integerConstant`** — a constant behind its type is encoded if it fits.
* **`Setup.constant_of_run`** — what a constant behind its type is set up as.
* **`Table.HoldsInteger`** — an ID stands for an integer of a type.
* **`IsConstantLine`** — the lines of constants.
* **`integerConstant_exact`** — which integer constants are accepted, and what they stand for. -/

namespace ShaderMachine

/-! ## Encoding a constant -/

namespace Encoder

variable {encoder : Encoder} {type : Id}

/-- Behind its type an integer constant is encoded exactly if it fits the type. -/
theorem encodeFrom_integerConstant {typeName name : String} {operand : Operand} {id : Id}
    {width : ℕ} {value : ℤ} {before : List Statement} {parts : List (List Word)}
    (encoded : encoder.encodeFrom [] before = .ok parts)
    (is_value : operand.integerValue? = some value)
    (is_type : encoder.ids.get? typeName = some type) (is_id : encoder.ids.get? name = some id)
    (declares : DeclaresInteger encoder.ids before type width)
    (is_width : width ∈ [8, 16, 32, 64]) (line : ℕ) :
    (FitsWidth width value → ∃ words, encoder.encodeFrom []
      (before ++ [⟨line, some name, .constant, [.id typeName, operand]⟩]) =
        .ok (parts ++ [words])) ∧
    (¬ FitsWidth width value → ∀ after, encoder.encodeFrom []
      (before ++ ⟨line, some name, .constant, [.id typeName, operand]⟩ :: after) =
        .error (.invalidLiteral line operand .tooWide)) := by
  -- The encoder behind the statements before knows the width that they declare.
  obtain ⟨instructions, parts_eq, -, encodes⟩ := exists_encodes encoded 0
  rw [List.reverse_nil, List.nil_append] at parts_eq
  obtain ⟨-, -, -, signedness, -, -, -, scalar⟩ := encodes.exists_typeInt declares
  rw [← parts_eq] at scalar
  have continues (after : List Statement) : encoder.encodeFrom [] (before ++ after) =
      (encoder.behind (before.zip parts)).encodeFrom parts.reverse after := by
    obtain ⟨_, rfl, appended⟩ := encodeFrom_append encoded after
    exact appended
  rw [← ids_behind (before.zip parts)] at is_type is_id
  have body := bodyWords_constant is_type is_id operand line
  rw [scalar] at body
  obtain ⟨has_words, fails⟩ := constantWords_exact is_value is_width line (signedness != 0)
  constructor
  · intro fits
    obtain ⟨words, is_words, -⟩ := has_words fits
    rw [is_words] at body
    have short : (type :: id :: words).length + 1 < 65536 := by
      have length_eq := length_constantWords is_words
      rw [constantLength] at length_eq
      split at length_eq <;> simp [length_eq]
    have in_order (words : List Word) : (words :: parts.reverse).reverse = parts ++ [words] := by
      rw [List.reverse_cons, List.reverse_reverse]
    rw [continues, encodeFrom, encode_of_bodyWords body rfl short]
    exact ⟨_, congrArg Except.ok (in_order _)⟩
  · intro unfit after
    rw [fails unfit] at body
    rw [continues, encodeFrom, encode_of_present rfl, body]
    rfl

end Encoder

/-! ## Setting a constant up -/

namespace Setup

variable {configuration : Configuration} {setup next : Setup} {instruction : Instruction}
  {type id : Id} {width : Word}

/-- A constant of an integer type has the bytes of its words. -/
theorem value_of_constant {words : List Word} {signed : Bool} {last : Cursor}
    (operands_eq : instruction.operands = type :: id :: words)
    (is_type : setup.table.typeOf type = .ok (.int width signed))
    (handled : constant configuration setup instruction instruction.cursor = .ok (next, last)) :
    next.table.value id = .ok ⟨type, constantBytes width words⟩ := by
  obtain ⟨type', first, first_eq, handled⟩ := OperandReader.exists_word handled
  obtain ⟨id', second, second_eq, handled⟩ := OperandReader.exists_word handled
  rw [second_eq] at first_eq
  cases operands_eq.symm.trans first_eq
  obtain ⟨size, has_size, handled⟩ := OperandReader.exists_computed handled
  rw [scalarConstantSize, is_type] at has_size
  cases has_size
  obtain ⟨third, handled⟩ := OperandReader.exists_counted handled
  obtain ⟨table, defined, rfl⟩ := exists_of_withDefinition handled
  exact Table.value_of_define defined

/-- A constant behind the declaration of its integer type has the bytes of its words for ever. -/
theorem constant_of_run {loaded : Module} {last : Setup} {signedness : Word} {words : List Word}
    {first between after : List Instruction} {declaration constant : Instruction}
    (passed : run configuration loaded = .ok last)
    (split : loaded.instructions = first ++ declaration :: between ++ constant :: after)
    (declares : Opcode.ofNumber? declaration.opcode = some .typeInt)
    (type_operands : declaration.operands = [type, width, signedness])
    (gives : Opcode.ofNumber? constant.opcode = some .constant)
    (operands_eq : constant.operands = type :: id :: words) :
    last.table.typeOf type = .ok (.int width (signedness != 0)) ∧
      last.table.value id = .ok ⟨type, constantBytes width words⟩ := by
  obtain ⟨folded, -⟩ := run_inv passed
  rw [split, List.foldlM_append, List.foldlM_append] at folded
  obtain ⟨above, folded, rest⟩ := exists_of_bind folded
  obtain ⟨start, -, folded⟩ := exists_of_bind folded
  rw [List.foldlM_cons] at folded
  obtain ⟨declared, stepped, folded⟩ := exists_of_bind folded
  obtain ⟨_, handled⟩ := exists_handled stepped declares rfl
  have is_type := typeOf_of_foldlM folded (typeOf_of_typeInt type_operands handled)
  refine ⟨typeOf_of_foldlM rest is_type, ?_⟩
  rw [List.foldlM_cons] at rest
  obtain ⟨given, stepped, rest⟩ := exists_of_bind rest
  obtain ⟨_, handled⟩ := exists_handled stepped gives rfl
  exact value_of_foldlM rest (value_of_constant operands_eq is_type handled)

end Setup

/-! ## Values that are set up -/

section

variable {operand : Operand} {value : ℤ} {width : ℕ}

/-- Whether an ID stands for an integer of a type: its bytes are the low-order ones, and it is read
as the number that is left of the integer. -/
structure Table.HoldsInteger (table : Table) (id type : Id) (width : ℕ) (value : ℤ) : Prop where
  /-- It has the low-order bytes of the integer. -/
  bytes : table.value id = .ok ⟨type, lowBytes (width / 8) value⟩
  /-- It is read as what is left of the integer. -/
  number : table.integerConstant id = .ok (value % 2 ^ width).toNat

/-- An ID that has the low-order bytes of an integer stands for it. -/
theorem Table.HoldsInteger.of_bytes {table : Table} {id type : Id} {word : Word} {signed : Bool}
    (is_width : width ∈ [8, 16, 32, 64]) (is_type : table.typeOf type = .ok (.int word signed))
    (bytes : table.value id = .ok ⟨type, lowBytes (width / 8) value⟩) :
    table.HoldsInteger id type width value := by
  obtain ⟨few, power⟩ : width / 8 ≤ 8 ∧ (256 : ℤ) ^ (width / 8) = 2 ^ width := by
    simp only [List.mem_cons, List.not_mem_nil, or_false] at is_width
    rcases is_width with rfl | rfl | rfl | rfl <;> norm_num
  have whole : (lowBytes (width / 8) value).take 8 = lowBytes (width / 8) value :=
    List.take_of_length_le (by rw [length_lowBytes]; exact few)
  have number := natOfBytes_lowBytes (width / 8) value
  rw [power] at number
  refine ⟨bytes, ?_⟩
  rw [integerConstant, bytes]
  change (table.typeOf type >>= _) = _
  rw [is_type]
  change Except.ok (natOfBytes ((lowBytes (width / 8) value).take 8)) = _
  rw [whole, ← number, Int.toNat_natCast]

/-- An integer constant that is encoded behind its type stands for its value once the module is set
up. -/
theorem Encoder.Encodes.holdsInteger {encoder : Encoder} {before after : List Statement}
    {number : ℕ} {name typeName : String} {type id : Id} {loaded : Module}
    {configuration : Configuration} {last : Setup}
    (encodes : encoder.Encodes
      (before ++ ⟨number, some name, .constant, [.id typeName, operand]⟩ :: after)
      loaded.instructions)
    (is_value : operand.integerValue? = some value)
    (is_type : encoder.ids.get? typeName = some type) (is_id : encoder.ids.get? name = some id)
    (declares : DeclaresInteger encoder.ids before type width) (is_width : width ∈ [8, 16, 32, 64])
    (passed : Setup.run configuration loaded = .ok last) :
    last.table.HoldsInteger id type width value := by
  obtain ⟨upper, lower, split, front, back⟩ := encodes.append_inv
  obtain ⟨first, declaration, between, signedness, rfl, declared, type_operands, scalar⟩ :=
    front.exists_typeInt declares
  cases back with
  | @cons _ _ constant _ rest encoded back =>
      have body := encoded.operands
      rw [bodyWords_constant (by rw [ids_behind]; exact is_type) (by rw [ids_behind]; exact is_id),
        scalar] at body
      obtain ⟨words, is_words, operands_eq⟩ := exists_of_map body
      obtain ⟨has_type, has_value⟩ := Setup.constant_of_run passed split declared type_operands
        encoded.known operands_eq.symm
      obtain ⟨has_words, fails⟩ := constantWords_exact is_value is_width number (signedness != 0)
      by_cases fits : FitsWidth width value
      · obtain ⟨_, is_words', bytes_eq⟩ := has_words fits
        cases is_words.symm.trans is_words'
        rw [bytes_eq] at has_value
        exact .of_bytes is_width has_type has_value
      · cases is_words.symm.trans (fails fits)

end

/-! ## Texts -/

/-- Whether a line is a constant: an ID, an equals sign, the mnemonic, the ID of a type and a
literal, with nothing else between them but blanks and comments. -/
def IsConstantLine (line : List Char) (name type : String) (literal : List Char) : Prop :=
  ∃ lexemes reading, Scans line lexemes ∧ lexemes.filter (·.reading ≠ .blank) =
    [⟨'%' :: name.toList, .token (.id name)⟩, ⟨['='], .token .equals⟩,
      ⟨"OpConstant".toList, .token (.word "OpConstant")⟩, ⟨'%' :: type.toList, .token (.id type)⟩,
      ⟨literal, reading⟩]

/-- What the line of a constant holds; its literal may be bad. -/
theorem IsConstantLine.exists_items {line literal : List Char} {name type : String}
    (is_constant : IsConstantLine line name type literal) (on_line : '\n' ∉ line) :
    ∃ reading, StandsFor literal reading ∧ scannedItems line =
      [.id name, .equals, .word "OpConstant", .id type].map Except.ok ++
        (Lexeme.item? ⟨literal, reading⟩).toList := by
  obtain ⟨lexemes, reading, scans, kept⟩ := is_constant
  refine ⟨reading,
    scans.standsFor ⟨literal, reading⟩ (List.mem_of_mem_filter (by rw [kept]; simp)), ?_⟩
  rw [scans.scannedItems_eq on_line, ← Lexeme.filterMap_item?_filter, kept]
  cases reading <;> rfl

/-- A constant with an integer literal is parsed exactly if the literal is read. -/
theorem IsConstantLine.parseLine {line literal : List Char} {name type : String} {value : ℤ}
    {readable : Prop} (is_constant : IsConstantLine line name type literal)
    (on_line : '\n' ∉ line) (is_literal : IsIntegerText literal value readable) (number : ℕ) :
    (readable → ∃ operand, operand.integerValue? = some value ∧ parseLine number line =
      .ok (some ⟨number, some name, .constant, [.id type, operand]⟩)) ∧
    (¬ readable → ∃ column, parseLine number line =
      .error (.badSyntax number column (.unexpectedInput (String.ofList literal)))) := by
  -- The literal is one lexeme, so the line has five tokens or a bad lexeme.
  obtain ⟨reading, stands, items⟩ := is_constant.exists_items on_line
  obtain ⟨reads, fails⟩ := is_literal.exists_reading
  constructor
  · intro holds
    obtain ⟨token, operand, is_token, is_operand, is_value⟩ := reads holds
    obtain rfl := stands.unique is_token
    refine ⟨operand, is_value, ?_⟩
    have cut : lineTokens number line =
        .ok [.id name, .equals, .word "OpConstant", .id type, token] :=
      lineTokens_eq_ok_iff.mpr items
    have known : Opcode.ofMnemonic? "OpConstant" = some .constant := by decide
    have operands : operandsOfTokens number "OpConstant" [.id type, token] =
        .ok [.id type, operand] := by
      simp only [operandsOfTokens, List.mapM_cons, List.mapM_nil, is_operand]
      rfl
    rw [ShaderMachine.parseLine, cut]
    change (Statement.build number (some name) "OpConstant" [.id type, token]).map some = _
    simp only [Statement.build, known, operands]
    rfl
  · intro unread
    obtain rfl := stands.unique (fails unread)
    obtain ⟨column, failed⟩ := lineTokens_of_bad items number
    refine ⟨column, ?_⟩
    rw [ShaderMachine.parseLine, failed]
    rfl

/-- An integer constant is accepted exactly if its literal is read and, unless its type has 64 bits,
fits a word. It then stands for its value once the module is set up: it has the low-order bytes, as
many as the width of the type says, and is read as what is left of the value below that many bits.
The type is declared above, and not again before the constant. -/
theorem integerConstant_exact {source : String} {number : ℕ} {line literal : List Char}
    {name typeName : String} {value : ℤ} {readable : Prop}
    (is_line : IsLine source.toList number line)
    (is_constant : IsConstantLine line name typeName literal)
    (is_literal : IsIntegerText literal value readable) :
    (¬ readable → (∃ column, parseLine number line =
        .error (.badSyntax number column (.unexpectedInput (String.ofList literal)))) ∧
      ∀ statements, parseSource source ≠ .ok statements) ∧
    (readable → ∃ operand constant, operand.integerValue? = some value ∧
      constant = Statement.mk number (some name) .constant [.id typeName, operand] ∧
      parseLine number line = .ok (some constant) ∧
      ∀ statements, parseSource source = .ok statements →
        ∃ before after, statements = before ++ constant :: after ∧
          ∀ encoder type width, Encoder.ofStatements statements = .ok encoder →
            encoder.ids.get? typeName = some type →
            DeclaresInteger encoder.ids before type width → width ∈ [8, 16, 32, 64] →
            (∀ parts, encoder.encodeFrom [] before = .ok parts →
              (FitsWidth width value → ∃ words,
                encoder.encodeFrom [] (before ++ [constant]) = .ok (parts ++ [words])) ∧
              (¬ FitsWidth width value →
                assembleWords source = .error (.invalidLiteral number operand .tooWide))) ∧
            ∀ loaded configuration machine, assemble source = .ok loaded →
              Machine.ofModule configuration loaded = .ok machine →
              ∃ id, encoder.ids.get? name = some id ∧
                machine.table.HoldsInteger id type width value) := by
  have on_line : '\n' ∉ line := by
    obtain ⟨_, _, -, on_line, -⟩ := is_line
    exact on_line
  obtain ⟨parses, fails⟩ := is_constant.parseLine on_line is_literal number
  constructor
  · intro unread
    obtain ⟨column, failed⟩ := fails unread
    refine ⟨⟨column, failed⟩, fun statements parsed => ?_⟩
    obtain ⟨found, found_ok⟩ := exists_parseLine parsed is_line
    cases failed.symm.trans found_ok
  · intro holds
    obtain ⟨operand, is_value, line_ok⟩ := parses holds
    refine ⟨operand, _, is_value, rfl, line_ok, fun statements parsed => ?_⟩
    -- A line that parses is one of the statements of the text.
    have mem := (mem_iff_of_parseSource parsed
      ⟨number, some name, .constant, [.id typeName, operand]⟩).mpr ⟨line, is_line, line_ok⟩
    obtain ⟨before, after, rfl⟩ := List.append_of_mem mem
    refine ⟨before, after, rfl, fun encoder type width started is_type declares is_width => ?_⟩
    have mentioned : name ∈ mentionedNames
        (before ++ ⟨number, some name, .constant, [.id typeName, operand]⟩ :: after) :=
      List.mem_flatMap.mpr ⟨_, mem, List.mem_cons_self⟩
    obtain ⟨id, is_id⟩ := Encoder.exists_number started mentioned
    constructor
    · intro parts encoded
      obtain ⟨accepts, refuses⟩ := Encoder.encodeFrom_integerConstant encoded is_value is_type
        is_id declares is_width number
      refine ⟨accepts, fun unfit => ?_⟩
      rw [assembleWords, parsed]
      simp only [bind, Except.bind, encodeStatements, started, refuses unfit after]
    · intro loaded configuration machine assembled set_up
      obtain ⟨-, encoder', -, started', -, encodes⟩ := assemble_encodes parsed assembled
      cases started.symm.trans started'
      obtain ⟨last, passed, rfl⟩ := Machine.ofModule_inv set_up
      exact ⟨id, is_id,
        encodes.holdsInteger is_value is_type is_id declares is_width passed⟩

/-- The statements of a text with minus two as a constant of 16 bits. -/
def shortConstant : List Statement :=
  [⟨1, some "1", .typeInt, [.integer 16, .integer 1]⟩,
    ⟨2, some "2", .constant, [.id "1", .integer (-2)]⟩]

/-- The words of these statements. -/
theorem encodeFrom_shortConstant : ∃ encoder, Encoder.ofStatements shortConstant = .ok encoder ∧
    encoder.ids.bound = 3 ∧ encoder.ids.get? "1" = some 1 ∧ encoder.ids.get? "2" = some 2 ∧
    encoder.encodeFrom [] shortConstant =
      .ok [[0x40015, 1, 16, 1], [0x4002b, 1, 2, 0xfffffffe]] := by
  have named : ∀ statement ∈ shortConstant, ∀ name ∈ statement.idNames, IsIdName name := by
    have one : IsIdName "1" := ⟨1, by decide, by decide⟩
    have two : IsIdName "2" := ⟨2, by decide, by decide⟩
    have names_eq : shortConstant.flatMap Statement.idNames = ["1", "2", "1"] := by decide
    have all : ∀ name ∈ ["1", "2", "1"], IsIdName name := by simp [one, two]
    exact fun statement mem name name_mem =>
      all name (names_eq ▸ List.mem_flatMap.mpr ⟨statement, mem, name_mem⟩)
  obtain ⟨numbers, counts, keeps, -, -⟩ := IdNumbers.counted_of_idNames named
  have is_type : numbers.get? "1" = some 1 := keeps 1 (by decide)
  have is_id : numbers.get? "2" = some 2 := keeps 2 (by decide)
  refine ⟨⟨numbers, ∅⟩, ?_, ?_, is_type, is_id, ?_⟩
  · rw [Encoder.ofStatements, counts]
    rfl
  · have numbered := (IdNumbers.counted_eq_ok_iff.mp counts).1
    rw [IdNumbers.eq_ofNames_of_ofStatements numbered, IdNumbers.bound_ofNames,
      distinct_eq_eraseDups]
    decide +kernel
  · -- The type is noted before the constant is encoded.
    have is_first : Encoder.encode ⟨numbers, ∅⟩ ⟨1, some "1", .typeInt, [.integer 16, .integer 1]⟩ =
        .ok [0x40015, 1, 16, 1] := by
      rw [encode_of_present rfl]
      simp only [Encoder.bodyWords, Opcode.layout, List.foldlM_cons, List.foldlM_nil,
        Encoder.fixedStep, Encoder.idWord, is_type, bind, Except.bind]
      rfl
    have scalar : (Encoder.note ⟨numbers, ∅⟩ ⟨1, some "1", .typeInt, [.integer 16, .integer 1]⟩
        [0x40015, 1, 16, 1]).scalars[(1 : Id)]? = some (.int 16 true) :=
      Std.HashMap.getElem?_insert_self
    have is_second : (Encoder.note ⟨numbers, ∅⟩
        ⟨1, some "1", .typeInt, [.integer 16, .integer 1]⟩ [0x40015, 1, 16, 1]).encode
          ⟨2, some "2", .constant, [.id "1", .integer (-2)]⟩ =
            .ok [0x4002b, 1, 2, 0xfffffffe] := by
      rw [encode_of_present rfl, Encoder.bodyWords_constant is_type is_id, scalar]
      decide +kernel
    rw [shortConstant, Encoder.encodeFrom_cons is_first, Encoder.encodeFrom_cons is_second]
    rfl

/-- Minus two as a constant of 16 bits. -/
theorem integerConstant_exact_short : ∃ loaded machine,
    assemble "%1=OpTypeInt 16 1\n%2=OpConstant%1 -2" = .ok loaded ∧
      Machine.ofModule {} loaded = .ok machine ∧ machine.table.HoldsInteger 2 1 16 (-2) := by
  have parsed : parseSource "%1=OpTypeInt 16 1\n%2=OpConstant%1 -2" = .ok shortConstant := by
    decide +kernel
  have is_line : IsLine "%1=OpTypeInt 16 1\n%2=OpConstant%1 -2".toList 2
      ['%', '2', '=', 'O', 'p', 'C', 'o', 'n', 's', 't', 'a', 'n', 't', '%', '1', ' ', '-', '2'] :=
    isLine_iff.mpr (by decide)
  have scans : Scans ([⟨['%', '2'], .token (.id "2")⟩, ⟨['='], .token .equals⟩,
      ⟨"OpConstant".toList, .token (.word "OpConstant")⟩, ⟨['%', '1'], .token (.id "1")⟩,
      ⟨[' '], .blank⟩, ⟨['-', '2'], .token (.integer (-2))⟩].flatMap Lexeme.text) _ :=
    .of_tails (by decide) (by decide +kernel)
  have is_constant : IsConstantLine _ "2" "1" ['-', '2'] :=
    ⟨_, .token (.integer (-2)), scans, by decide⟩
  have is_literal : IsIntegerText ['-', '2'] (-2) _ := .negative ⟨by decide, by simp⟩
  obtain ⟨operand, constant, -, constant_eq, -, whole⟩ :=
    (integerConstant_exact is_line is_constant is_literal).2 (by decide)
  obtain ⟨before, after, split, stands⟩ := whole _ parsed
  -- The constant is the second statement, so the type is the only one above it.
  obtain rfl : before = [⟨1, some "1", .typeInt, [.integer 16, .integer 1]⟩] := by
    match before, split with
    | [], split => simp [shortConstant, constant_eq] at split
    | [first], split => exact congrArg (fun first => [first]) (List.cons.inj split).1.symm
    | _ :: _ :: _, split => simp [shortConstant] at split
  obtain ⟨encoder, started, bound_eq, is_type, is_id, encoded⟩ := encodeFrom_shortConstant
  have words_eq := assembleWords_of_encodeFrom parsed started encoded
  rw [bound_eq] at words_eq
  have evaluated : (Module.ofWords ((ModuleHeader.ofBound 3 0).words ++
      [[0x40015, 1, 16, 1], [0x4002b, 1, 2, 0xfffffffe]].flatten)).toOption.any (fun loaded =>
        (Machine.ofModule {} loaded).toOption.any fun _ => true) = true := by decide +kernel
  obtain ⟨loaded, loads, evaluated⟩ := exists_of_any evaluated
  obtain ⟨machine, set_up, -⟩ := exists_of_any evaluated
  have assembled : assemble "%1=OpTypeInt 16 1\n%2=OpConstant%1 -2" = .ok loaded := by
    rw [assemble, words_eq]
    exact congrArg (Except.mapError AssemblyError.invalidModule) loads
  have declares : DeclaresInteger encoder.ids
      [⟨1, some "1", .typeInt, [.integer 16, .integer 1]⟩] 1 16 :=
    ⟨[], _, [], rfl, rfl, is_type, by decide, by simp⟩
  obtain ⟨id, is_id', holds⟩ := (stands encoder 1 16 started is_type declares (by decide)).2
    loaded {} machine assembled set_up
  cases is_id.symm.trans is_id'
  exact ⟨loaded, machine, assembled, set_up, holds⟩

end ShaderMachine
