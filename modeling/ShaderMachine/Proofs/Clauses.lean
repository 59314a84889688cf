import ShaderMachine.Proofs.Declarations
import ShaderMachine.Proofs.ListingRoundTrip
import ShaderMachine.Proofs.Reachable

/-! # What instructions say

Some instructions say something about an ID: they name it, decorate it, declare it as an entry point
or a function, or give it an execution mode. What they say is read off their words alone. A setup
that accepts an instruction makes the declaration that it says and no other one of these.

* **`literalText?`** — the string at the front of words.
* **`Clause`** and **`Instruction.clause?`** — what an instruction says.
* **`Instruction.IsSilent`** — the instructions that say nothing.
* **`Setup.Says`** — what an accepted instruction does to a setup.
* **`Setup.says_of_step`** — every accepted instruction does that.
* **`Setup.FollowsClauses`** — what a pass keeps along the clauses that it meets. -/

namespace ShaderMachine

/-! ## Strings -/

/-- The string at the front of words, with the words behind it. -/
def literalText? (words : List Word) : Option (String × List Word) :=
  (readTerminated [] words).bind fun (bytes, rest) =>
    (textOfBytes? bytes).map fun text => (text, rest)

/-- The words behind a string are those behind as many as it takes. -/
theorem rest_of_readTerminated {read bytes : Bytes} {words rest : List Word}
    (terminated : readTerminated read words = some (bytes, rest)) :
    ∃ length, bytes.length = read.length + length ∧ rest = words.drop (stringWordCount length) := by
  induction words generalizing read with
  | nil => cases terminated
  | cons word words hyp =>
      rw [readTerminated] at terminated
      have split := List.takeWhile_append_dropWhile (p := (· != 0)) (l := word.bytes)
      rw [List.span_eq_takeWhile_dropWhile] at terminated
      have total := congrArg List.length split
      rw [List.length_append, Word.length_bytes] at total
      cases behind : word.bytes.dropWhile (· != 0) with
      | nil =>
          rw [behind] at terminated total
          obtain ⟨length, length_eq, rest_eq⟩ := hyp terminated
          refine ⟨length + 4, ?_, ?_⟩
          · rw [length_eq, List.length_append, List.length_reverse]
            rw [List.length_nil] at total
            omega
          · rw [rest_eq, stringWordCount, stringWordCount,
              Nat.add_div_right length (by decide : 0 < 4), List.drop_succ_cons]
      | cons nul others =>
          rw [behind] at terminated total
          cases terminated
          rw [List.length_cons] at total
          refine ⟨(word.bytes.takeWhile (· != 0)).length, ?_, ?_⟩
          · rw [List.length_reverse, List.length_append, List.length_reverse, Nat.add_comm]
          · rw [stringWordCount, Nat.div_eq_of_lt (by omega), List.drop_succ_cons, List.drop_zero]

namespace OperandReader

/-- A string that was read stood ahead. -/
theorem exists_string {α : Type} {rest : String → OperandReader α} {cursor : Cursor}
    {answer : α × Cursor} (read : (readString >>= rest) cursor = .ok answer) :
    ∃ text next, literalText? cursor.ahead = some (text, next.ahead) ∧
      rest text next = .ok answer := by
  obtain ⟨⟨text, next⟩, first, read⟩ := exists_of_bind read
  refine ⟨text, next, ?_, read⟩
  rw [readString, Cursor.literalString] at first
  rw [literalText?]
  cases terminated : readTerminated [] cursor.ahead with
  | none =>
      rw [terminated] at first
      cases first
  | some found =>
      obtain ⟨bytes, behind⟩ := found
      rw [terminated] at first
      obtain ⟨length, length_eq, rfl⟩ := rest_of_readTerminated terminated
      rw [List.length_nil, Nat.zero_add] at length_eq
      simp only at first
      cases is_text : textOfBytes? bytes with
      | none =>
          rw [is_text] at first
          cases first
      | some text =>
          rw [is_text] at first
          cases first
          simp [is_text, length_eq, Cursor.advance]

/-- A string that stands ahead is read. -/
theorem readString_of_literalText? {cursor : Cursor} {text : String} {words : List Word}
    (is_text : literalText? cursor.ahead = some (text, words)) :
    ∃ next, readString cursor = .ok (text, next) ∧ next.ahead = words := by
  obtain ⟨⟨bytes, behind⟩, terminated, mapped⟩ := Option.bind_eq_some_iff.mp is_text
  obtain ⟨other, decoded, answer_eq⟩ := Option.map_eq_some_iff.mp mapped
  cases answer_eq
  obtain ⟨length, length_eq, rfl⟩ := rest_of_readTerminated terminated
  rw [List.length_nil, Nat.zero_add] at length_eq
  refine ⟨cursor.advance (stringWordCount bytes.length), ?_, by rw [length_eq]; rfl⟩
  rw [readString, Cursor.literalString, terminated]
  simp only [decoded]

end OperandReader

/-! ## Clauses -/

/-- What an instruction says about an ID. -/
inductive Clause where
  /-- It has a debug name. -/
  | name (target : Id) (text : String)
  /-- It has a further decoration. -/
  | decoration (target : Id) (entry : DecorationEntry)
  /-- It is an entry point with a name and an interface. -/
  | entryPoint (function : Id) (model : ExecutionModel) (text : String) (interface : List Id)
  /-- It has an execution mode. -/
  | executionMode (target : Id) (mode : Word) (literals : List Word)
  /-- It is a function. -/
  | function (id returnType functionType : Id) (control : Word)

namespace Clause

/-- The ID that something is said about. -/
def target : Clause → Id
  | name target _ | decoration target _ | entryPoint target _ _ _ | executionMode target _ _
  | function target _ _ _ => target

/-- What is said about it. -/
def declaration : Clause → Declaration
  | name _ text => .name text
  | decoration _ entry => .decoration entry
  | entryPoint _ model text interface => .entryPoint model text interface
  | executionMode _ mode literals => .executionMode mode literals
  | function _ returnType functionType control => .function returnType functionType control

end Clause

/-- The first four bytes of a text as a word, zeros where it has fewer. -/
def leadingWord (text : String) : Word :=
  let bytes := text.toUTF8.toList
  Word.ofBytes (bytes.getD 0 0) (bytes.getD 1 0) (bytes.getD 2 0) (bytes.getD 3 0)

/-- The decoration of a kind with the literals that stand at the front of words: of linkage the
start of the name and the linkage type, of other kinds one literal or none. -/
def decorationOf? (kind : Word) (literals : List Word) : Option DecorationEntry :=
  if kind = linkageDecoration then
    match literalText? literals with
    | some (text, linkage :: _) => some ⟨kind, leadingWord text, linkage⟩
    | _ => none
  else if decorationLiterals kind = 1 then
    literals.head?.map fun literal => ⟨kind, literal, 0⟩
  else
    some ⟨kind, 0, 0⟩

/-- A text keeps its first four bytes in a word. -/
theorem firstWord_eq (text : String) : Setup.firstWord text = leadingWord text := by
  rw [Setup.firstWord, leadingWord]
  rcases text.toUTF8.toList with _ | ⟨a, _ | ⟨b, _ | ⟨c, _ | ⟨d, bytes⟩⟩⟩⟩ <;> rfl

/-- The literals of a decoration that were read stood ahead. -/
theorem decorationOf?_of_read {instruction : Instruction} {kind : Word}
    {entry : DecorationEntry} {cursor next : Cursor}
    (read : Setup.readDecorationLiterals instruction kind cursor = .ok (entry, next)) :
    decorationOf? kind cursor.ahead = some entry := by
  unfold Setup.readDecorationLiterals at read
  unfold decorationOf?
  split at read
  · rename_i is_linkage
    obtain ⟨text, first, text_eq, read⟩ := OperandReader.exists_string read
    obtain ⟨linkage, second, second_eq, read⟩ := OperandReader.exists_word read
    cases read
    rw [if_pos is_linkage, text_eq, second_eq, firstWord_eq]
  · rename_i no_linkage
    rw [if_neg no_linkage]
    split at read
    · rename_i one
      obtain ⟨literal, first, first_eq, read⟩ := OperandReader.exists_word read
      cases read
      rw [if_pos one, first_eq]
      rfl
    · rename_i none
      cases read
      rw [if_neg none]

/-- A word that stands ahead is read. -/
theorem OperandReader.readWord_eq (instruction : Instruction) (base : ℕ) (behind : List Word)
    (word : Word) (words : List Word) :
    readWord instruction ⟨base, behind, word :: words⟩ =
      .ok (word, ⟨base, word :: behind, words⟩) :=
  rfl

/-- The literals of a decoration that stand ahead are read. -/
theorem read_of_decorationOf? (instruction : Instruction) {kind : Word}
    {entry : DecorationEntry} {cursor : Cursor}
    (is_entry : decorationOf? kind cursor.ahead = some entry) :
    ∃ next, Setup.readDecorationLiterals instruction kind cursor = .ok (entry, next) := by
  unfold decorationOf? at is_entry
  unfold Setup.readDecorationLiterals
  split at is_entry
  · -- A linkage has a name and a word behind it.
    rename_i is_linkage
    rw [if_pos is_linkage]
    split at is_entry
    · rename_i text linkage words text_eq
      cases is_entry
      obtain ⟨⟨base, behind, ahead⟩, read, rfl⟩ :=
        OperandReader.readString_of_literalText? text_eq
      refine ⟨⟨base, linkage :: behind, words⟩, ?_⟩
      simp only [bind, StateT.bind, read, Except.bind, OperandReader.readWord_eq, firstWord_eq]
      rfl
    · cases is_entry
  · rename_i no_linkage
    rw [if_neg no_linkage]
    split at is_entry
    · rename_i one
      rw [if_pos one]
      obtain ⟨base, behind, ahead⟩ := cursor
      cases ahead with
      | nil => cases is_entry
      | cons literal words =>
          cases is_entry
          exact ⟨_, rfl⟩
    · rename_i none
      rw [if_neg none]
      cases is_entry
      exact ⟨cursor, rfl⟩

/-- What an instruction says about an ID, if its operands can be read. -/
def Instruction.clause? (instruction : Instruction) : Option Clause :=
  match Opcode.ofNumber? instruction.opcode, instruction.operands with
  | some .name, target :: words => (literalText? words).map fun (text, _) => .name target text
  | some .decorate, target :: kind :: literals =>
      (decorationOf? kind literals).map (.decoration target)
  | some .entryPoint, model :: function :: words => do
      let model ← ExecutionModel.ofValue? model
      let (text, interface) ← literalText? words
      return .entryPoint function model text interface
  | some .executionMode, target :: mode :: literals => some (.executionMode target mode literals)
  | some .function, returnType :: id :: control :: functionType :: _ =>
      some (.function id returnType functionType control)
  | _, _ => none

/-- Whether an instruction is none of those that say something about an ID. -/
def Instruction.IsSilent (instruction : Instruction) : Prop :=
  ∀ opcode, Opcode.ofNumber? instruction.opcode = some opcode →
    opcode ∉ [.name, .decorate, .entryPoint, .executionMode, .function]

/-- An instruction that is none of these says nothing. -/
theorem Instruction.IsSilent.clause?_eq_none {instruction : Instruction}
    (silent : instruction.IsSilent) : instruction.clause? = none := by
  unfold clause?
  cases known : Opcode.ofNumber? instruction.opcode with
  | none => rfl
  | some opcode =>
      have other := silent opcode known
      cases opcode with
      | name | decorate | entryPoint | executionMode | function => simp at other
      | _ => rfl

/-- What decorates an ID is a decoration whose literals can be read. -/
theorem Instruction.clause?_decoration_inv {instruction : Instruction} {target : Id}
    {entry : DecorationEntry} (said : instruction.clause? = some (.decoration target entry)) :
    Opcode.ofNumber? instruction.opcode = some .decorate ∧ ∃ kind literals,
      instruction.operands = target :: kind :: literals ∧
      decorationOf? kind literals = some entry := by
  unfold clause? at said
  split at said
  · obtain ⟨_, -, impossible⟩ := Option.map_eq_some_iff.mp said
    cases impossible
  · rename_i kind literals known operands_eq
    obtain ⟨other, is_entry, same⟩ := Option.map_eq_some_iff.mp said
    cases same
    exact ⟨known, kind, literals, operands_eq, is_entry⟩
  · obtain ⟨_, -, said⟩ := Option.bind_eq_some_iff.mp said
    obtain ⟨_, -, impossible⟩ := Option.bind_eq_some_iff.mp said
    cases impossible
  · cases said
  · cases said
  · cases said

/-- The elements that a function gives of a list and one more. -/
theorem filterMap_concat {α β : Type} (f : α → Option β) (elements : List α) (last : α) :
    (elements ++ [last]).filterMap f = elements.filterMap f ++ (f last).toList := by
  rw [List.filterMap_append]
  cases given : f last with
  | none => rw [List.filterMap_cons_none given, List.filterMap_nil]; rfl
  | some value => rw [List.filterMap_cons_some given, List.filterMap_nil]; rfl

/-- What a module says about its IDs, in order. -/
def Module.clauses (loaded : Module) : List Clause :=
  loaded.instructions.filterMap Instruction.clause?

/-! ## Other declarations -/

/-- The width of the scalar type that a definition is. -/
def Definition.width? : Definition → Option Word
  | type (.int width _) | type (.float width) => some width
  | _ => none

namespace Declaration

/-- Whether a declaration says nothing that a clause may say. -/
def IsPlain : Declaration → Prop
  | definition _ _ | label | functionEnd => True
  | _ => False

/-- The width of the scalar type that a declaration gives an ID. -/
def width? : Declaration → Option Word
  | definition given _ => given.width?
  | _ => none

end Declaration

/-- Whether scalar types may have a width. -/
def IsScalarWidth (width : Word) : Prop :=
  width = 8 ∨ width = 16 ∨ width = 32 ∨ width = 64

namespace Setup

/-- What an accepted instruction does to a setup. -/
inductive Says (configuration : Configuration) (instruction : Instruction) (setup : Setup) :
    Setup → Prop
  /-- It says nothing and is passed over or counted. -/
  | silent {next : Setup} (silent : instruction.IsSilent)
      (no_width : instruction.declaredWidth? = none)
      (kept : ∃ unsupported, next = { setup with unsupported }) :
      Says configuration instruction setup next
  /-- What it says is declared. -/
  | clause {next : Setup} (clause : Clause) (said : instruction.clause? = some clause)
      (no_width : instruction.declaredWidth? = none)
      (made : setup.declare configuration instruction clause.target clause.declaration = .ok next) :
      Says configuration instruction setup next
  /-- An ID gets a definition or a function ends. If the ID becomes a scalar type, the instruction
  declares its width. -/
  | plain {next : Setup} (id : Id) (declaration : Declaration)
      (silent : instruction.IsSilent) (plain : declaration.IsPlain)
      (width : declaration.width?.map (id, ·) = instruction.declaredWidth?)
      (scalar : ∀ width, declaration.width? = some width → IsScalarWidth width)
      (made : setup.declare configuration instruction id declaration = .ok next) :
      Says configuration instruction setup next

open OperandReader

variable {configuration : Configuration} {instruction : Instruction} {setup next : Setup} {id : Id}

/-! ## What is declared -/

/-- A definition that is given is declared. -/
theorem declare_of_define {definition : Definition} (readable : definition.IsReadable)
    {table : Table} (defined : setup.table.define id definition = .ok table) :
    setup.declare configuration instruction id (.definition definition readable) =
      .ok { setup with table } := by
  obtain ⟨record, found, fresh, rfl⟩ := Table.define_inv defined
  rw [declare, found]
  simp only [bind, Except.bind, Declaration.apply, Record.defined,
    if_pos (Table.isUnset_iff.mpr fresh)]
  rfl

/-- A label that is given is declared. -/
theorem declare_of_label {table : Table}
    (defined : setup.table.define id (.label instruction.offset) = .ok table) :
    setup.declare configuration instruction id .label = .ok { setup with table } := by
  obtain ⟨record, found, fresh, rfl⟩ := Table.define_inv defined
  rw [declare, found]
  simp only [bind, Except.bind, Declaration.apply, Record.defined,
    if_pos (Table.isUnset_iff.mpr fresh)]
  rfl

/-- Whether a reading that succeeds passes an instruction over, or leads to a declaration that no
clause makes and that is not that of a scalar type. -/
abbrev SaysPlainly (configuration : Configuration) (instruction : Instruction) (setup : Setup)
    (reader : OperandReader Setup) : Prop :=
  reader.Meets (fun next => next = setup ∨ ∃ id declaration, declaration.IsPlain ∧
    declaration.width? = none ∧ setup.declare configuration instruction id declaration = .ok next)
    fun _ => True

/-- A setup that stays as it is. -/
theorem plain_pure : SaysPlainly configuration instruction setup (pure setup) :=
  meets_pure (.inl rfl)

/-- A setup with another table. -/
theorem plain_withTable (id : Id) (declaration : Declaration) (plain : declaration.IsPlain)
    (no_width : declaration.width? = none) {computed : Except MachineError Table}
    (declares : ∀ table, computed = .ok table →
      setup.declare configuration instruction id declaration = .ok { setup with table }) :
    SaysPlainly configuration instruction setup (setup.withTable computed) := by
  refine meets_compute (.of_cases (fun next is => ?_) fun _ _ => trivial)
  cases computed with
  | error error => cases is
  | ok table =>
      cases is
      exact .inr ⟨id, declaration, plain, no_width, declares table rfl⟩

/-- A setup with a further definition. -/
theorem plain_withDefinition {definition : Definition} (readable : definition.IsReadable)
    (no_width : (Declaration.definition definition readable).width? = none) :
    SaysPlainly configuration instruction setup (setup.withDefinition id definition) :=
  plain_withTable id (.definition definition readable) trivial no_width
    fun _ defined => declare_of_define readable defined

/-- A setup with a further type. -/
theorem plain_withType {type : DataType}
    (no_width : (Declaration.definition (.type type) trivial).width? = none) :
    SaysPlainly configuration instruction setup (setup.withType id type) := by
  unfold withType
  split
  · exact meets_throw trivial
  · exact plain_withDefinition trivial no_width

/-! ## Instructions that say nothing -/

/-- An instruction that says nothing. -/
theorem plain_ignore :
    SaysPlainly configuration instruction setup (ignore configuration setup instruction) :=
  .drained plain_pure

/-- A capability. -/
theorem plain_capability :
    SaysPlainly configuration instruction setup (capability configuration setup instruction) :=
  .word trivial fun _ => plain_pure

/-- An imported set of extended instructions. -/
theorem plain_extInstImport :
    SaysPlainly configuration instruction setup (extInstImport configuration setup instruction) :=
  .word trivial fun _ => .string (fun _ => trivial) fun _ => plain_withDefinition trivial rfl

/-- A type without operands. -/
theorem plain_plainType {type : DataType}
    (no_width : (Declaration.definition (.type type) trivial).width? = none) :
    SaysPlainly configuration instruction setup
      (plainType type configuration setup instruction) :=
  .word trivial fun _ => plain_withType no_width

/-- A vector type. -/
theorem plain_typeVector :
    SaysPlainly configuration instruction setup (typeVector configuration setup instruction) := by
  refine .word trivial fun id => .word trivial fun component => .word trivial fun count => ?_
  split
  · exact meets_malformed trivial
  · exact .computed (fun _ _ => trivial) fun members _ => plain_withType rfl

/-- A matrix type. -/
theorem plain_typeMatrix :
    SaysPlainly configuration instruction setup (typeMatrix configuration setup instruction) := by
  refine .word trivial fun id => .word trivial fun column => .word trivial fun count => ?_
  split
  · exact meets_malformed trivial
  · exact .computed (fun _ _ => trivial) fun members _ => plain_withType rfl

/-- An array type. -/
theorem plain_typeArray :
    SaysPlainly configuration instruction setup (typeArray configuration setup instruction) := by
  refine .word trivial fun id => .word trivial fun element => .word trivial fun lengthId => ?_
  refine .computed (fun _ _ => trivial) fun length _ => ?_
  split
  · exact meets_malformed trivial
  · refine .computed (fun _ _ => trivial) fun size _ => ?_
    split
    · exact meets_throw trivial
    · exact plain_withType rfl

/-- A structure type. -/
theorem plain_typeStruct :
    SaysPlainly configuration instruction setup (typeStruct configuration setup instruction) := by
  refine .word trivial fun id => .words fun types => ?_
  exact .computed (fun _ _ => trivial) fun members _ => plain_withType rfl

/-- A pointer type. -/
theorem plain_typePointer :
    SaysPlainly configuration instruction setup (typePointer configuration setup instruction) := by
  refine .word trivial fun id => .word trivial fun storageWord => ?_
  refine (Execution.meets_storageOfWord trivial).bind fun storage _ => ?_
  refine .word trivial fun pointee => ?_
  exact .computed (fun _ _ => trivial) fun _ _ => plain_withType rfl

/-- A function signature. -/
theorem plain_typeFunction :
    SaysPlainly configuration instruction setup
      (typeFunction configuration setup instruction) := by
  refine .word trivial fun id => .word trivial fun returnType => ?_
  refine .computed (fun _ _ => trivial) fun _ _ => .words fun parameters => ?_
  exact .computed (fun _ _ => trivial) fun _ _ => plain_withType rfl

/-- A truth value. -/
theorem plain_constantBool {truth : Bool} :
    SaysPlainly configuration instruction setup
      (constantBool truth configuration setup instruction) := by
  refine .word trivial fun type => .word trivial fun id => ?_
  exact .computed (fun _ _ => trivial) fun _ _ => plain_withDefinition trivial rfl

/-- A scalar constant. -/
theorem plain_constant :
    SaysPlainly configuration instruction setup (constant configuration setup instruction) := by
  refine .word trivial fun type => .word trivial fun id => ?_
  refine .computed (fun _ _ => trivial) fun size _ => ?_
  exact .counted trivial fun words _ => plain_withDefinition trivial rfl

/-- A composite constant. -/
theorem plain_constantComposite :
    SaysPlainly configuration instruction setup
      (constantComposite configuration setup instruction) := by
  refine .word trivial fun type => .word trivial fun id => .words fun constituents => ?_
  exact .computed (fun _ _ => trivial) fun bytes _ => plain_withDefinition trivial rfl

/-- A variable. -/
theorem plain_variableDecl :
    SaysPlainly configuration instruction setup
      (variableDecl configuration setup instruction) := by
  unfold variableDecl
  split
  · exact .drained plain_pure
  · have read : (Execution.readVariable setup.table instruction).Meets (fun _ => True)
        fun _ => True := Execution.meets_readVariable.imp (fun _ _ => trivial) fun _ _ => trivial
    exact read.bind fun answer _ => plain_withDefinition trivial rfl

/-- A parameter. -/
theorem plain_functionParameter :
    SaysPlainly configuration instruction setup
      (functionParameter configuration setup instruction) := by
  refine .word trivial fun type => .word trivial fun id => ?_
  split
  · exact meets_malformed trivial
  · exact .computed (fun _ _ => trivial) fun size _ => plain_withDefinition trivial rfl

/-- The end of a function. -/
theorem plain_functionEnd :
    SaysPlainly configuration instruction setup
      (functionEnd configuration setup instruction) := by
  unfold functionEnd
  split
  · exact meets_malformed trivial
  · rename_i id opened
    refine .computed (fun _ _ => trivial) fun table modified => ?_
    refine meets_pure (.inr ⟨id, .functionEnd, trivial, rfl, ?_⟩)
    obtain ⟨record, found, rfl⟩ := exists_of_map modified
    rw [declare, found]
    rfl

/-- A block label. -/
theorem plain_label :
    SaysPlainly configuration instruction setup (label configuration setup instruction) := by
  refine .word trivial fun id => ?_
  split
  · exact meets_malformed trivial
  · exact plain_withTable id .label trivial rfl fun _ => declare_of_label

/-! ## Scalar types -/

/-- An instruction that declares no scalar type declares no width. -/
theorem declaredWidth?_of_other {opcode : Opcode}
    (known : Opcode.ofNumber? instruction.opcode = some opcode)
    (other : opcode ≠ .typeInt ∧ opcode ≠ .typeFloat) : instruction.declaredWidth? = none := by
  rw [Instruction.declaredWidth?, known]
  split
  · rename_i is_int _
    exact absurd (Option.some.inj is_int) other.1
  · rename_i is_float _
    exact absurd (Option.some.inj is_float) other.2
  · rfl

/-- An instruction of another opcode says nothing. -/
theorem isSilent_of_other {opcode : Opcode}
    (known : Opcode.ofNumber? instruction.opcode = some opcode)
    (other : opcode ∉ [.name, .decorate, .entryPoint, .executionMode, .function]) :
    instruction.IsSilent := by
  intro same known'
  cases known.symm.trans known'
  exact other

/-- An instruction that is handled plainly does what it should. -/
theorem says_of_plain {opcode : Opcode} {reader : OperandReader Setup} {cursor : Cursor}
    (known : Opcode.ofNumber? instruction.opcode = some opcode)
    (other : opcode ∉ [.name, .decorate, .entryPoint, .executionMode, .function])
    (no_scalar : opcode ≠ .typeInt ∧ opcode ≠ .typeFloat)
    (plain : SaysPlainly configuration instruction setup reader)
    (handled : reader instruction.cursor = .ok (next, cursor)) :
    Says configuration instruction setup next := by
  have silent := isSilent_of_other known other
  have no_width := declaredWidth?_of_other known no_scalar
  rcases (plain instruction.cursor).value handled with same | ⟨id, declaration, plain, width, made⟩
  · exact .silent silent no_width ⟨setup.unsupported, same⟩
  · refine .plain id declaration silent plain ?_ (fun other is => ?_) made
    · rw [width, no_width]
      rfl
    · rw [width] at is
      cases is

/-- A scalar type that is given is declared with its width. -/
theorem says_of_withType {opcode : Opcode} {type : DataType} {width : Word} {cursor last : Cursor}
    (known : Opcode.ofNumber? instruction.opcode = some opcode)
    (other : opcode ∉ [.name, .decorate, .entryPoint, .executionMode, .function])
    (declares : instruction.declaredWidth? = some (id, width))
    (is_width : (Declaration.definition (.type type) trivial).width? = some width)
    (standard : IsScalarWidth width)
    (handled : setup.withType id type cursor = .ok (next, last)) :
    Says configuration instruction setup next := by
  obtain ⟨table, defined, rfl⟩ := exists_of_withType handled
  have readable : (Definition.type type).IsReadable := trivial
  refine .plain id (.definition (.type type) readable) (isSilent_of_other known other) trivial
    ?_ (fun other is => ?_) (declare_of_define readable defined)
  · rw [is_width, declares]
    rfl
  · obtain rfl := Option.some.inj (is_width.symm.trans is)
    exact standard

/-- An integer type. -/
theorem says_typeInt {cursor : Cursor}
    (known : Opcode.ofNumber? instruction.opcode = some .typeInt)
    (handled : typeInt configuration setup instruction instruction.cursor = .ok (next, cursor)) :
    Says configuration instruction setup next := by
  obtain ⟨id, first, first_eq, handled⟩ := exists_word handled
  obtain ⟨width, second, second_eq, handled⟩ := exists_word handled
  obtain ⟨signedness, third, third_eq, handled⟩ := exists_word handled
  have operands_eq : instruction.operands = id :: width :: signedness :: third.ahead := by
    rw [← third_eq, ← second_eq, ← first_eq]
    rfl
  split at handled
  · rename_i standard
    refine says_of_withType known (by decide) ?_ rfl standard handled
    rw [Instruction.declaredWidth?, known, operands_eq]
  · cases handled

/-- A float type. -/
theorem says_typeFloat {cursor : Cursor}
    (known : Opcode.ofNumber? instruction.opcode = some .typeFloat)
    (handled : typeFloat configuration setup instruction instruction.cursor = .ok (next, cursor)) :
    Says configuration instruction setup next := by
  obtain ⟨id, first, first_eq, handled⟩ := exists_word handled
  obtain ⟨width, second, second_eq, handled⟩ := exists_word handled
  have operands_eq : instruction.operands = id :: width :: second.ahead := by
    rw [← second_eq, ← first_eq]
    rfl
  split at handled
  · rename_i standard
    refine says_of_withType known (by decide) ?_ rfl (.inr standard) handled
    rw [Instruction.declaredWidth?, known, operands_eq]
  · cases handled

/-! ## Instructions that say something -/

/-- A debug name. -/
theorem says_name {cursor : Cursor} (known : Opcode.ofNumber? instruction.opcode = some .name)
    (handled : name configuration setup instruction instruction.cursor = .ok (next, cursor)) :
    Says configuration instruction setup next := by
  obtain ⟨target, first, first_eq, handled⟩ := exists_word handled
  obtain ⟨text, second, text_eq, handled⟩ := exists_string handled
  obtain ⟨record, found, handled⟩ := exists_computed handled
  have operands_eq : instruction.operands = target :: first.ahead := first_eq
  cases handled
  refine .clause (.name target text) ?_
    (declaredWidth?_of_other known ⟨nofun, nofun⟩) ?_
  · rw [Instruction.clause?, known, operands_eq]
    simp only [text_eq, Option.map_some]
  · rw [declare, Clause.target, found]
    rfl

/-- An entry point. -/
theorem says_entryPoint {cursor : Cursor}
    (known : Opcode.ofNumber? instruction.opcode = some .entryPoint)
    (handled : entryPoint configuration setup instruction instruction.cursor =
      .ok (next, cursor)) : Says configuration instruction setup next := by
  obtain ⟨modelWord, first, first_eq, handled⟩ := exists_word handled
  cases is_model : ExecutionModel.ofValue? modelWord with
  | none =>
      simp only [is_model] at handled
      cases handled
  | some model =>
    simp only [is_model, pure_bind] at handled
    obtain ⟨function, second, second_eq, handled⟩ := exists_word handled
    obtain ⟨text, third, text_eq, handled⟩ := exists_string handled
    obtain ⟨last, handled⟩ := exists_words handled
    obtain ⟨changed, is_changed, handled⟩ := exists_computed handled
    -- The function is checked first, then its record is changed.
    obtain ⟨-, -, is_changed⟩ := exists_of_bind is_changed
    obtain ⟨record, found, is_changed⟩ := exists_of_bind is_changed
    obtain ⟨definition, declared, is_changed⟩ := exists_of_bind is_changed
    have operands_eq : instruction.operands = modelWord :: function :: second.ahead := by
      rw [← second_eq, ← first_eq]
      rfl
    cases is_changed
    cases handled
    refine .clause (.entryPoint function model text third.ahead) ?_
      (declaredWidth?_of_other known ⟨nofun, nofun⟩) ?_
    · rw [Instruction.clause?, known, operands_eq]
      simp [is_model, text_eq]
    · rw [declare, Clause.target, found]
      simp only [bind, Except.bind, Clause.declaration, Declaration.apply, declared]
      rfl

/-- An execution mode. -/
theorem says_executionMode {cursor : Cursor}
    (known : Opcode.ofNumber? instruction.opcode = some .executionMode)
    (handled : executionMode configuration setup instruction instruction.cursor =
      .ok (next, cursor)) : Says configuration instruction setup next := by
  obtain ⟨target, first, first_eq, handled⟩ := exists_word handled
  obtain ⟨mode, second, second_eq, handled⟩ := exists_word handled
  obtain ⟨last, handled⟩ := exists_words handled
  have operands_eq : instruction.operands = target :: mode :: second.ahead := by
    rw [← second_eq, ← first_eq]
    rfl
  refine .clause (.executionMode target mode second.ahead) ?_
    (declaredWidth?_of_other known ⟨nofun, nofun⟩) ?_
  · rw [Instruction.clause?, known, operands_eq]
  · obtain ⟨table, changed, rfl⟩ := exists_of_map (of_computed handled).1
    obtain ⟨record, found, changed⟩ := exists_of_bind changed
    rw [declare, Clause.target, found]
    split at changed
    · rename_i entry is_entry
      cases changed
      simp only [bind, Except.bind, Clause.declaration, Declaration.apply, is_entry]
      rfl
    · cases changed
    · cases changed

/-- The head of a function. -/
theorem says_function {cursor : Cursor}
    (known : Opcode.ofNumber? instruction.opcode = some .function)
    (handled : function configuration setup instruction instruction.cursor = .ok (next, cursor)) :
    Says configuration instruction setup next := by
  obtain ⟨returnType, first, first_eq, handled⟩ := exists_word handled
  obtain ⟨id, second, second_eq, handled⟩ := exists_word handled
  obtain ⟨control, third, third_eq, handled⟩ := exists_word handled
  obtain ⟨functionType, fourth, fourth_eq, handled⟩ := exists_word handled
  have operands_eq : instruction.operands =
      returnType :: id :: control :: functionType :: fourth.ahead := by
    rw [← fourth_eq, ← third_eq, ← second_eq, ← first_eq]
    rfl
  cases outer : setup.openFunction with
  | some other =>
      simp only [outer] at handled
      cases handled
  | none =>
    simp only [outer] at handled
    obtain ⟨table, is_table, handled⟩ := exists_computed handled
    -- The two types are looked up before the record of the function is.
    obtain ⟨-, -, is_table⟩ := exists_of_bind is_table
    obtain ⟨-, -, is_table⟩ := exists_of_bind is_table
    obtain ⟨record, found, is_table⟩ := exists_of_bind is_table
    obtain ⟨definition, declared, is_table⟩ := exists_of_bind is_table
    cases is_table
    cases handled
    refine .clause (.function id returnType functionType control) ?_
      (declaredWidth?_of_other known ⟨nofun, nofun⟩) ?_
    · rw [Instruction.clause?, known, operands_eq]
    · rw [declare, Clause.target, found]
      simp only [bind, Except.bind, Clause.declaration, Declaration.apply, declared]
      rfl

/-- A decoration. -/
theorem says_decorate {cursor : Cursor}
    (known : Opcode.ofNumber? instruction.opcode = some .decorate)
    (handled : decorate configuration setup instruction instruction.cursor = .ok (next, cursor)) :
    Says configuration instruction setup next := by
  obtain ⟨target, first, first_eq, handled⟩ := exists_word handled
  obtain ⟨kind, second, second_eq, handled⟩ := exists_word handled
  obtain ⟨⟨entry, third⟩, read, handled⟩ := exists_of_bind handled
  have operands_eq : instruction.operands = target :: kind :: second.ahead := by
    rw [← second_eq, ← first_eq]
    rfl
  refine .clause (.decoration target entry) ?_ (declaredWidth?_of_other known ⟨nofun, nofun⟩) ?_
  · rw [Instruction.clause?, known, operands_eq]
    simp only [decorationOf?_of_read read, Option.map_some]
  · obtain ⟨table, changed, rfl⟩ := exists_of_map (of_computed handled).1
    obtain ⟨record, found, changed⟩ := exists_of_bind changed
    rw [declare, Clause.target, found]
    simp only [bind, Except.bind, Clause.declaration, Declaration.apply]
    split at changed
    · cases changed
    · rename_i room
      cases changed
      rw [if_neg room]
      rfl

/-! ## Every instruction -/

/-- An instruction that is accepted does what it should. -/
theorem says_of_step (stepped : setup.step configuration instruction = .ok next) :
    Says configuration instruction setup next := by
  rcases step_cases stepped with ⟨handler, cursor, registered, handled⟩ | ⟨missing, kept⟩
  · obtain ⟨opcode, known, registered⟩ := Option.bind_eq_some_iff.mp registered
    -- There is one case for each handler.
    cases opcode with
    | nop | source | sourceExtension | memberName | string | line | noLine | extension
    | moduleProcessed | memberDecorate | memoryModel =>
        cases registered
        exact says_of_plain known (by decide) (by decide) plain_ignore handled
    | name =>
        cases registered
        exact says_name known handled
    | capability =>
        cases registered
        exact says_of_plain known (by decide) (by decide) plain_capability handled
    | extInstImport =>
        cases registered
        exact says_of_plain known (by decide) (by decide) plain_extInstImport handled
    | entryPoint =>
        cases registered
        exact says_entryPoint known handled
    | executionMode =>
        cases registered
        exact says_executionMode known handled
    | decorate =>
        cases registered
        exact says_decorate known handled
    | typeVoid | typeBool =>
        cases registered
        exact says_of_plain known (by decide) (by decide) (plain_plainType rfl) handled
    | typeInt =>
        cases registered
        exact says_typeInt known handled
    | typeFloat =>
        cases registered
        exact says_typeFloat known handled
    | typeVector =>
        cases registered
        exact says_of_plain known (by decide) (by decide) plain_typeVector handled
    | typeMatrix =>
        cases registered
        exact says_of_plain known (by decide) (by decide) plain_typeMatrix handled
    | typeArray =>
        cases registered
        exact says_of_plain known (by decide) (by decide) plain_typeArray handled
    | typeStruct =>
        cases registered
        exact says_of_plain known (by decide) (by decide) plain_typeStruct handled
    | typePointer =>
        cases registered
        exact says_of_plain known (by decide) (by decide) plain_typePointer handled
    | typeFunction =>
        cases registered
        exact says_of_plain known (by decide) (by decide) plain_typeFunction handled
    | constantTrue | constantFalse =>
        cases registered
        exact says_of_plain known (by decide) (by decide) plain_constantBool handled
    | constant =>
        cases registered
        exact says_of_plain known (by decide) (by decide) plain_constant handled
    | constantComposite =>
        cases registered
        exact says_of_plain known (by decide) (by decide) plain_constantComposite handled
    | variableDecl =>
        cases registered
        exact says_of_plain known (by decide) (by decide) plain_variableDecl handled
    | function =>
        cases registered
        exact says_function known handled
    | functionParameter =>
        cases registered
        exact says_of_plain known (by decide) (by decide) plain_functionParameter handled
    | functionEnd =>
        cases registered
        exact says_of_plain known (by decide) (by decide) plain_functionEnd handled
    | label =>
        cases registered
        exact says_of_plain known (by decide) (by decide) plain_label handled
    | _ => cases registered
  · -- What says something or declares a scalar type has a handler.
    cases known : Opcode.ofNumber? instruction.opcode with
    | none =>
        refine .silent ?_ ?_ ⟨_, kept⟩
        · intro opcode known'
          cases known.symm.trans known'
        · rw [Instruction.declaredWidth?, known]
    | some opcode =>
        rw [Dispatch.get?_of_known _ known] at missing
        refine .silent (isSilent_of_other known ?_) (declaredWidth?_of_other known ?_)
          ⟨_, kept⟩
        · intro mem
          simp only [List.mem_cons, List.not_mem_nil, or_false] at mem
          rcases mem with rfl | rfl | rfl | rfl | rfl <;> cases missing
        · constructor
          · rintro rfl
            cases missing
          · rintro rfl
            cases missing

/-- What instructions keep of the clauses said so far and the setup: counting an instruction keeps
it, a clause that is declared is the next one said, and a declaration without a clause says
nothing. -/
structure FollowsClauses (configuration : Configuration) (P : List Clause → Setup → Prop) :
    Prop where
  /-- Counting unsupported instructions keeps it. -/
  counts {clauses : List Clause} {setup : Setup} (unsupported : ℕ) (holds : P clauses setup) :
    P clauses { setup with unsupported }
  /-- A clause that is declared is added. -/
  adds {clauses : List Clause} {clause : Clause} {setup next : Setup} {instruction : Instruction}
    (made : setup.declare configuration instruction clause.target clause.declaration = .ok next)
    (holds : P clauses setup) : P (clauses ++ [clause]) next
  /-- A declaration without a clause keeps it. -/
  keeps {clauses : List Clause} {setup next : Setup} {instruction : Instruction} {id : Id}
    {declaration : Declaration} (plain : declaration.IsPlain)
    (made : setup.declare configuration instruction id declaration = .ok next)
    (holds : P clauses setup) : P clauses next

/-- What follows the clauses goes on to hold along accepted instructions. -/
theorem foldlM_clauses {P : List Clause → Setup → Prop} {clauses : List Clause}
    {instructions : List Instruction} {last : Setup}
    (follows : FollowsClauses configuration P)
    (passed : instructions.foldlM (step configuration) setup = .ok last)
    (holds : P clauses setup) :
    P (clauses ++ instructions.filterMap Instruction.clause?) last := by
  induction instructions generalizing clauses setup with
  | nil =>
      cases passed
      rw [List.filterMap_nil, List.append_nil]
      exact holds
  | cons instruction instructions hyp =>
      rw [List.foldlM_cons] at passed
      obtain ⟨next, stepped, passed⟩ := exists_of_bind passed
      cases says_of_step stepped with
      | silent silent _ kept =>
          obtain ⟨unsupported, rfl⟩ := kept
          rw [List.filterMap_cons_none silent.clause?_eq_none]
          exact hyp passed (follows.counts unsupported holds)
      | clause clause said _ made =>
          rw [List.filterMap_cons_some said, List.append_cons]
          exact hyp passed (follows.adds made holds)
      | plain id declaration silent plain _ _ made =>
          rw [List.filterMap_cons_none silent.clause?_eq_none]
          exact hyp passed (follows.keeps plain made holds)

/-- Accepted instructions say something unless they are silent. -/
theorem isSilent_or_of_foldlM {instructions : List Instruction} {last : Setup}
    (passed : instructions.foldlM (step configuration) setup = .ok last) :
    ∀ instruction ∈ instructions,
      instruction.IsSilent ∨ ∃ clause, instruction.clause? = some clause := by
  induction instructions generalizing setup with
  | nil => exact fun _ impossible => absurd impossible List.not_mem_nil
  | cons first instructions hyp =>
      rw [List.foldlM_cons] at passed
      obtain ⟨next, stepped, passed⟩ := exists_of_bind passed
      intro instruction mem
      rcases List.mem_cons.mp mem with rfl | mem
      · cases says_of_step stepped with
        | silent silent | plain _ _ silent => exact .inl silent
        | clause clause said => exact .inr ⟨clause, said⟩
      · exact hyp passed instruction mem

/-- What holds of no clauses and an empty table holds of the clauses of a module and the setup that
the pass over it leads to. -/
theorem run_clauses {P : List Clause → Setup → Prop} {loaded : Module} {last : Setup}
    (follows : FollowsClauses configuration P)
    (passed : run configuration loaded = .ok last) (holds : P [] (ofModule loaded)) :
    P loaded.clauses last :=
  foldlM_clauses follows (run_inv passed).1 holds

end Setup

/-- In a module that a machine was set up from, every instruction says something unless it is
silent. -/
theorem Machine.Reachable.isSilent_or {loaded : Module} {machine : Machine}
    (reachable : Reachable loaded machine) :
    ∀ instruction ∈ loaded.instructions,
      instruction.IsSilent ∨ ∃ clause, instruction.clause? = some clause := by
  obtain ⟨-, configuration, setup, passed, -⟩ := reachable.exists_setUp
  exact Setup.isSilent_or_of_foldlM (Setup.run_inv passed).1

end ShaderMachine
