import ShaderMachine.Proofs.AssembledModules
import ShaderMachine.Proofs.Clauses
import ShaderMachine.Proofs.CountedDeclarations
import ShaderMachine.Proofs.ReachableLayout

/-! # Operand counts of assembled modules

What the assembler writes for a statement is what the machine reads for it: in an assembled module
no operand is missing and none is left over. There are three exceptions: the literals of
decorations, the operands of extended instructions, and strings that hold a NUL. That the value of a
constant has as many words as its type needs takes the scalar types that the assembler has noted to
be those that the table holds.

* **`Statement.MayMiscount`** — the exceptions.
* **`OperandReader.Fails`** — how a reading that has to take all operands fails.
* **`Setup.Noted`** — the scalar types of a table are the latest that instructions declare.
* **`Setup.miscount_of_step`** and **`Machine.miscount_of_step`** — who is blamed for a miscount.
* **`Machine.operands_counted`** — operands are miscounted only where an exception stands. -/

namespace ShaderMachine

variable {configuration : Configuration} {instruction : Instruction} {error : MachineError}

/-! ## Who is blamed -/

/-- Whether a fault ends a reading that has to take all operands of an instruction: the reading
fails with it, or it says that operands are left over. -/
def OperandReader.Fails {α : Type} (reader : OperandReader α) (instruction : Instruction)
    (error : MachineError) : Prop :=
  reader instruction.cursor = .error error ∨
    ∃ value cursor, reader instruction.cursor = .ok (value, cursor) ∧ cursor.isEmpty = false ∧
      error = .binary (instruction.malformed (.unreadOperands cursor.remaining))

/-- A reading that has to take all operands of its instruction and miscounts them blames the
instruction, and they are not as they should be. -/
theorem OperandReader.Reads.blames {α : Type} {reader : OperandReader α} {before : List Word → Prop}
    (reads : reader.Reads instruction before fun _ words => words = [])
    (fails : reader.Fails instruction error) (miscount : error.IsMiscount) :
    error.Names instruction ∧ ¬ before instruction.operands := by
  have reads := reads instruction.cursor
  rcases fails with failed | ⟨value, cursor, read, left_over, rfl⟩
  · exact reads.error failed miscount
  · refine ⟨⟨_, rfl⟩, fun starts => ?_⟩
    have none_left : cursor.ahead = [] := reads.value read starts
    rw [Cursor.isEmpty, none_left] at left_over
    cases left_over

namespace Setup

variable {setup next : Setup}

/-- Where a handler ends in a fault, its reading does. -/
theorem fails_of_ends {handler : SetupHandler}
    (ends : HandleEnds configuration setup instruction handler (.error error)) :
    (handler configuration setup instruction).Fails instruction error := by
  cases ends with
  | failed unread => exact .inl unread
  | leftOver handled left_over => exact .inr ⟨_, _, handled, left_over, rfl⟩

/-- An instruction of a module that miscounts its operands is blamed. It is a decoration, or a
constant with more or fewer words than its type needs, or its operands are none that its layout
admits. -/
theorem miscount_of_step {opcode : Opcode} {kinds : List OperandKind}
    (known : Opcode.ofNumber? instruction.opcode = some opcode)
    (admits : opcode.layout.Admits kinds)
    (failed : setup.step configuration instruction = .error error) (miscount : error.IsMiscount) :
    error.Names instruction ∧ (opcode = .decorate ∨
      opcode = .constant ∧ ¬ IsConstant setup.table instruction.operands ∨
      opcode ≠ .constant ∧ ¬ OperandKind.Filled kinds instruction.operands) := by
  have ends := setup.stepEnds configuration instruction
  rw [failed] at ends
  cases ends with
  | unsupported missing unknown strict => exact absurd miscount not_false
  | @handled handler _ registered ends =>
      have fails := fails_of_ends ends
      by_cases is_decoration : opcode = .decorate
      · subst is_decoration
        rw [Dispatch.get?_of_known _ known] at registered
        cases registered
        exact ⟨(reads_decorate.blames fails miscount).1, .inl rfl⟩
      by_cases is_constant : opcode = .constant
      · subst is_constant
        rw [Dispatch.get?_of_known _ known] at registered
        cases registered
        obtain ⟨names, wrong⟩ := reads_constant.blames fails miscount
        exact ⟨names, .inr (.inl ⟨rfl, wrong⟩)⟩
      obtain ⟨names, wrong⟩ :=
        (handler_covers known registered is_decoration is_constant admits).blames fails miscount
      exact ⟨names, .inr (.inr ⟨is_constant, wrong⟩)⟩

end Setup

/-- A fault that arises from an instruction and miscounts operands blames the instruction. -/
theorem MachineError.Arises.names {table : Table} (arises : error.Arises table instruction)
    (miscount : error.IsMiscount) : error.Names instruction := by
  cases error with
  | binary error =>
      rcases arises with rfl | ⟨word, rfl⟩ | ⟨count, rfl⟩ <;> exact ⟨_, rfl⟩
  | _ => exact absurd miscount not_false

namespace Machine

variable {machine : Machine}

/-- Where a handler was run and that failed, its reading did, or its effect was not carried out. -/
theorem fails_of_handle {handler : ExecutionHandler}
    (failed : (machine.handle instruction handler).result = .error error) :
    (handler machine.table machine.slots instruction).Fails instruction error ∨
      ∃ effect cursor,
        handler machine.table machine.slots instruction instruction.cursor = .ok (effect, cursor) ∧
          (machine.commit effect).result = .error error := by
  have ends := machine.handleEnds instruction handler
  generalize machine.handle instruction handler = outcome at ends failed
  cases ends with
  | failed unread =>
      cases failed
      exact .inl (.inl unread)
  | refused yielded committed =>
      cases failed
      exact .inr ⟨_, _, yielded, congrArg Outcome.result committed⟩
  | leftOver yielded committed left_over =>
      cases failed
      exact .inl (.inr ⟨_, _, yielded, left_over, rfl⟩)
  | done yielded committed at_end => cases failed

/-- An instruction that miscounts its operands is executed by a handler, and that one fails. -/
theorem exists_handler_of_miscount
    (failed : (machine.step configuration instruction).result = .error error)
    (miscount : error.IsMiscount) :
    ∃ handler, executionTable.get? instruction.opcode = some handler ∧
      (machine.handle instruction handler).result = .error error := by
  have ends := machine.stepEnds configuration instruction
  generalize machine.step configuration instruction = outcome at ends failed
  cases ends with
  | unsupported missing strict =>
      cases failed
      exact absurd miscount not_false
  | failed registered handled fatal =>
      cases failed
      exact ⟨_, registered, congrArg Outcome.result handled⟩
  | passed missing lenient => cases failed
  | executed registered handled => cases failed
  | skipped registered handled harmless lenient => cases failed

/-- An instruction of a body that miscounts its operands is blamed. It is an extended one, or it is
no constant and its operands are none that its layout admits. -/
theorem miscount_of_step {opcode : Opcode} {kinds : List OperandKind}
    (known : Opcode.ofNumber? instruction.opcode = some opcode)
    (admits : opcode.layout.Admits kinds)
    (failed : (machine.step configuration instruction).result = .error error)
    (miscount : error.IsMiscount) :
    error.Names instruction ∧ (opcode = .extInst ∨
      opcode ≠ .constant ∧ ¬ OperandKind.Filled kinds instruction.operands) := by
  refine ⟨((step_change configuration machine instruction).2 error failed).names miscount, ?_⟩
  by_cases is_extended : opcode = .extInst
  · exact .inl is_extended
  right
  obtain ⟨handler, registered, failed⟩ := exists_handler_of_miscount failed miscount
  have no_constant : opcode ≠ .constant := by
    rintro rfl
    rw [Dispatch.get?_of_known _ known] at registered
    cases registered
  refine ⟨no_constant, ?_⟩
  rcases fails_of_handle failed with fails | ⟨effect, cursor, handled, not_carried_out⟩
  · exact ((Execution.handler_covers known registered is_extended admits).blames fails miscount).2
  · -- Carrying out an effect counts no operands.
    have fits : effect.Fits machine.table :=
      (meets_handler machine.table machine.slots registered instruction.cursor).value handled
    have fair : Fair (machine.commit effect).result :=
      Sound.fair machine.table fun _ => (commit_change fits).2
    exact absurd miscount (fair error not_carried_out)

end Machine

/-! ## Scalar types -/

/-- The latest width of a scalar type is that of the last instruction if this declares it. -/
theorem latestWidth?_concat (earlier : List Instruction) (id : Id) :
    latestWidth? (earlier ++ [instruction]) id = match instruction.declaredWidth? with
      | some (target, width) => if id = target then some width else latestWidth? earlier id
      | none => latestWidth? earlier id := by
  rw [latestWidth?, lookup_concat]
  cases instruction.declaredWidth? <;> rfl

/-- Only a declaration of a scalar type makes a definition one. -/
theorem Declaration.width?_of_apply {id : Id} {record changed : Record} {declaration : Declaration}
    {width : Word} (applied : declaration.apply configuration instruction id record = .ok changed)
    (is_scalar : changed.definition.width? = some width) :
    declaration.width? = some width ∨
      declaration.width? = none ∧ record.definition.width? = some width := by
  cases applies_of_apply applied with
  | name => exact .inr ⟨rfl, is_scalar⟩
  | decoration room => exact .inr ⟨rfl, is_scalar⟩
  | definition unset => exact .inl is_scalar
  | label unset => cases is_scalar
  | functionEnd =>
      refine .inr ⟨rfl, ?_⟩
      rw [Record.ended] at is_scalar
      cases is : record.definition <;> rw [is] at is_scalar
      case type type => exact is_scalar
      all_goals cases is_scalar
  | @entryPoint _ _ _ given enters =>
      change given.width? = some width at is_scalar
      generalize record.definition = before at enters
      cases enters <;> cases is_scalar
  | executionMode is_entry => cases is_scalar
  | @function _ _ _ given begins =>
      change given.width? = some width at is_scalar
      generalize record.definition = before at begins
      cases begins <;> cases is_scalar

namespace Setup

variable {setup next : Setup} {done : List Instruction}

/-- Whether the scalar types of a setup are the latest that instructions declare, and of a width
that scalar types may have. -/
def Noted (done : List Instruction) (setup : Setup) : Prop :=
  ∀ id width, (setup.table.records.getD id {}).definition.width? = some width →
    latestWidth? done id = some width ∧ IsScalarWidth width

/-- A declaration that an instruction makes is noted with the width that the instruction declares.
-/
theorem Noted.declare {target : Id} {declaration : Declaration} (noted : Noted done setup)
    (declares : declaration.width?.map (target, ·) = instruction.declaredWidth?)
    (standard : ∀ width, declaration.width? = some width → IsScalarWidth width)
    (made : setup.declare configuration instruction target declaration = .ok next) :
    Noted (done ++ [instruction]) next := by
  obtain ⟨record, changed, found, applied, rfl⟩ := declare_inv made
  obtain ⟨-, rfl⟩ := Table.get_eq_ok_iff.mp found
  intro id width is_scalar
  rw [latestWidth?_concat, ← declares]
  change ((setup.table.put target changed).records.getD id {}).definition.width? = _ at is_scalar
  rw [Table.getD_put] at is_scalar
  by_cases same : id = target
  · subst same
    rw [if_pos rfl] at is_scalar
    rcases Declaration.width?_of_apply applied is_scalar with given | ⟨no_width, before⟩
    · rw [given]
      exact ⟨if_pos rfl, standard width given⟩
    · rw [no_width]
      exact noted id width before
  · rw [if_neg same] at is_scalar
    cases declaration.width? with
    | none => exact noted id width is_scalar
    | some other => simpa [same] using noted id width is_scalar

/-- An accepted instruction is noted. -/
theorem Noted.step (noted : Noted done setup)
    (stepped : setup.step configuration instruction = .ok next) :
    Noted (done ++ [instruction]) next := by
  cases says_of_step stepped with
  | silent _ no_width kept =>
      obtain ⟨unsupported, rfl⟩ := kept
      intro id width is_scalar
      rw [latestWidth?_concat, no_width]
      exact noted id width is_scalar
  | clause clause _ no_width made =>
      have none_declared : clause.declaration.width? = none := by cases clause <;> rfl
      refine noted.declare ?_ ?_ made
      · rw [none_declared, no_width]
        rfl
      · rw [none_declared]
        exact nofun
  | plain id declaration _ _ declares standard made => exact noted.declare declares standard made

/-- Accepted instructions are noted. -/
theorem noted_of_foldlM {loaded : Module} {instructions : List Instruction}
    (passed : instructions.foldlM (Setup.step configuration) (ofModule loaded) = .ok next) :
    Noted instructions next := by
  have onwards (instructions done : List Instruction) (setup : Setup) (noted : Noted done setup)
      (passed : instructions.foldlM (Setup.step configuration) setup = .ok next) :
      Noted (done ++ instructions) next := by
    induction instructions generalizing done setup with
    | nil =>
        cases passed
        rw [List.append_nil]
        exact noted
    | cons instruction instructions hyp =>
        rw [List.foldlM_cons] at passed
        obtain ⟨mid, stepped, passed⟩ := exists_of_bind passed
        rw [List.append_cons]
        exact hyp _ _ (noted.step stepped) passed
  refine onwards instructions [] (ofModule loaded) (fun id width is_scalar => ?_) passed
  have fresh : (ofModule loaded).table.records.getD id {} = {} := Std.TreeMap.getD_emptyc
  rw [fresh] at is_scalar
  cases is_scalar

/-- The constants of a scalar type that is noted take as many words as its width says. -/
theorem Noted.constantLength_eq {type : Id} {size : ℕ} (noted : Noted done setup)
    (is_size : scalarConstantSize setup.table type = .ok size) :
    constantLength (latestWidth? done type) = (size + 3) / 4 := by
  obtain ⟨data, is_type, is_size⟩ := exists_of_bind is_size
  obtain ⟨record, found, definition_eq⟩ := Table.typeOf_eq_ok_iff.mp is_type
  obtain ⟨-, rfl⟩ := Table.get_eq_ok_iff.mp found
  have counted (width : Word)
      (is_scalar : (setup.table.records.getD type {}).definition.width? = some width) :
      constantLength (latestWidth? done type) = (scalarSize width + 3) / 4 := by
    obtain ⟨latest, standard⟩ := noted type width is_scalar
    rw [latest]
    rcases standard with rfl | rfl | rfl | rfl <;> rfl
  cases data with
  | int width signed =>
      cases is_size
      exact counted width (by rw [definition_eq]; rfl)
  | float width =>
      cases is_size
      exact counted width (by rw [definition_eq]; rfl)
  | _ => cases is_size

end Setup

/-! ## Assembled instructions -/

/-- Whether what a statement is written as may not be what is read for it: a decoration, an extended
instruction, or a statement with a string that holds a NUL. -/
def Statement.MayMiscount (statement : Statement) : Prop :=
  statement.opcode = .decorate ∨ statement.opcode = .extInst ∨
    ∃ text, .str text ∈ statement.operands ∧ '\x00' ∈ text.toList

/-- Whether a fault blames an instruction that is written for a statement which may be miscounted.
-/
def MachineError.Blames (statements : List Statement) (instructions : List Instruction)
    (error : MachineError) : Prop :=
  ∃ statement instruction, (statement, instruction) ∈ statements.zip instructions ∧
    instruction.opcode = statement.opcode.number ∧ error.Names instruction ∧ statement.MayMiscount

namespace Encoder

variable {encoder : Encoder} {statement : Statement} {statements : List Statement}
  {instructions : List Instruction}

/-- What is written for an operand that is no constant and no string with a NUL is what its kind
takes. -/
theorem takes_of_operandWords {line : ℕ} {type : Option Id} {kind : OperandKind}
    (no_constant : kind ≠ .constant) {operand : Operand}
    (clean : ∀ text, operand = .str text → '\x00' ∉ text.toList) {part : List Word}
    (written : encoder.operandWords line type kind operand = .ok part) : kind.Takes part := by
  rcases operandWords_inv no_constant written with ⟨text, rfl, rfl, rfl⟩ | ⟨plain, word, rfl, -⟩
  · exact ⟨text, clean text rfl, rfl⟩
  · cases kind with
    | string => exact absurd rfl plain
    | _ => exact ⟨word, rfl⟩

/-- What is written for a statement is what operands that its layout admits are written as, except
for constants and where a string holds a NUL. -/
theorem IsEncoded.exists_kinds (encoded : encoder.IsEncoded statement instruction) :
    ∃ kinds, statement.opcode.layout.Admits kinds ∧
      (statement.opcode ≠ .constant → ¬ statement.MayMiscount →
        OperandKind.Filled kinds instruction.operands) := by
  obtain ⟨kinds, next, admits, run, -, words_eq⟩ :=
    Run.of_bodyWords (fun mem => encoded.kept mem) encoded.operands
  refine ⟨kinds, admits, fun no_constant counted => ?_⟩
  obtain ⟨parts, parts_eq, takes, -⟩ := run.exists_parts (P := OperandKind.Takes)
    (Q := fun _ _ => True) (fun name id _ _ => ⟨⟨id, rfl⟩, trivial⟩)
    fun kind kind_mem operand mem type part written => by
      refine ⟨takes_of_operandWords ?_ (fun text is nul => ?_) written, trivial⟩
      · rintro rfl
        exact constant_not_mem_of_admits no_constant admits kind_mem
      · exact counted (.inr (.inr ⟨text, is ▸ mem, nul⟩))
  exact ⟨parts, takes, words_eq ▸ parts_eq⟩

/-- A constant has as many words as its type needs, if the scalar types that the encoder knows are
those of the table. -/
theorem IsEncoded.isConstant {done : List Instruction} {setup : Setup}
    (encoded : encoder.IsEncoded statement instruction) (is_constant : statement.opcode = .constant)
    (widths : ∀ id, (encoder.scalars[id]?).map Scalar.width = latestWidth? done id)
    (noted : setup.Noted done) : Setup.IsConstant setup.table instruction.operands := by
  obtain ⟨kinds, next, admits, run, -, words_eq⟩ :=
    Run.of_bodyWords (fun mem => encoded.kept mem) encoded.operands
  rw [is_constant] at admits
  obtain rfl := OperandLayout.eq_of_admits rfl rfl admits
  obtain ⟨-, type, -, id, value, -, -, -, length_eq, operands_eq⟩ := run.exists_constant
  refine ⟨type, id, value, words_eq ▸ operands_eq, fun size is_size => ?_⟩
  rw [length_eq, widths, noted.constantLength_eq is_size]

/-- A setup of encoded statements that miscounts operands blames one of those that may be
miscounted. -/
theorem Encodes.blames_of_setup {loaded : Module} (no_scalars : encoder.scalars = ∅)
    (encodes : encoder.Encodes statements instructions)
    (failed : instructions.foldlM (Setup.step configuration) (Setup.ofModule loaded) = .error error)
    (miscount : error.IsMiscount) : error.Blames statements instructions := by
  obtain ⟨before, instruction, after, setup, split, passed, failed⟩ := exists_of_foldlM_error failed
  obtain ⟨statement, later, mem, encoded, -, widths⟩ :=
    encodes.exists_split split [] (widths_nil no_scalars)
  obtain ⟨kinds, admits, filled⟩ := encoded.exists_kinds
  obtain ⟨names, reason⟩ := Setup.miscount_of_step encoded.known admits failed miscount
  refine ⟨statement, instruction, mem, encoded.opcode, names, ?_⟩
  rcases reason with is_decoration | ⟨is_constant, wrong⟩ | ⟨no_constant, wrong⟩
  · exact .inl is_decoration
  · exact absurd (encoded.isConstant is_constant widths (Setup.noted_of_foldlM passed)) wrong
  · by_contra counted
    exact wrong (filled no_constant counted)

/-- An executed instruction that is encoded and miscounts its operands is one of those that may be
miscounted. -/
theorem Encodes.blames_of_step {machine : Machine} (no_scalars : encoder.scalars = ∅)
    (encodes : encoder.Encodes statements instructions) (within : instruction ∈ instructions)
    (failed : (machine.step configuration instruction).result = .error error)
    (miscount : error.IsMiscount) : error.Blames statements instructions := by
  obtain ⟨before, after, split⟩ := List.append_of_mem within
  obtain ⟨statement, later, mem, encoded, -, -⟩ :=
    encodes.exists_split split [] (widths_nil no_scalars)
  obtain ⟨kinds, admits, filled⟩ := encoded.exists_kinds
  obtain ⟨names, reason⟩ := Machine.miscount_of_step encoded.known admits failed miscount
  refine ⟨statement, instruction, mem, encoded.opcode, names, ?_⟩
  rcases reason with is_extended | ⟨no_constant, wrong⟩
  · exact .inr (.inl is_extended)
  · by_contra counted
    exact wrong (filled no_constant counted)

end Encoder

/-- Reading an output miscounts no operands. -/
theorem Slots.fair_output (slots : Slots) (location : Word) : Fair (slots.output location) := by
  intro error failed miscount
  unfold output at failed
  split at failed
  · split at failed
    · cases failed
    · cases failed
      exact miscount
  · cases failed
    exact miscount

namespace Machine

variable {machine : Machine}

/-- A call that miscounts operands fails at an instruction of the module. -/
theorem exists_of_call_miscount {id : Id}
    (failed : (machine.call configuration id).result = .error error) (miscount : error.IsMiscount) :
    ∃ other : Machine, ∃ instruction ∈ machine.loaded.instructions,
      (other.step configuration instruction).result = .error error := by
  have ends := machine.callEnds configuration id
  generalize machine.call configuration id = outcome at ends failed
  cases ends with
  | unbound bounds =>
      cases failed
      rcases bodyBounds_error bounds with rfl | rfl | rfl <;> exact absurd miscount not_false
  | completed bounds ran => cases failed
  | failed bounds ran =>
      cases failed
      rcases exists_of_run_error (congrArg Outcome.result ran) with
        rfl | ⟨other, instruction, mem, failed⟩
      · exact absurd miscount not_false
      · exact ⟨other, instruction, mem_instructions_of_mem_body mem, failed⟩

/-- A module from which no machine is set up has an instruction that fails, or a function that does
not end. -/
theorem ofModule_error {loaded : Module} (failed : ofModule configuration loaded = .error error) :
    loaded.instructions.foldlM (Setup.step configuration) (Setup.ofModule loaded) = .error error ∨
      ∃ id, error = .unterminatedFunction id := by
  unfold ofModule Setup.run at failed
  cases passed : loaded.instructions.foldlM (Setup.step configuration) (Setup.ofModule loaded) with
  | error fault =>
      rw [passed] at failed
      cases failed
      exact .inl rfl
  | ok setup =>
      rw [passed] at failed
      simp only [Bind.bind, Except.bind] at failed
      split at failed
      · rename_i id _
        cases failed
        exact .inr ⟨id, rfl⟩
      · cases failed

/-- Binding an input miscounts no operands. -/
theorem fair_bind (machine : Machine) (location : Word) (data : Bytes) :
    Fair (machine.bind location data) := by
  intro error failed miscount
  unfold Machine.bind Slots.bind at failed
  split at failed
  · cases failed
  · cases failed
    exact miscount

/-- Wherever operands of an assembled module are miscounted, whether when a machine is set up or
when one is called that the module leads to, an instruction is blamed whose statement may be
miscounted: a decoration, an extended instruction, or one with a string that holds a NUL. Every
constant has as many words as are read for its type. -/
theorem operands_counted {source : String} {loaded : Module}
    (assembled : assemble source = .ok loaded) :
    ∃ statements, parseSource source = .ok statements ∧
      (∀ configuration error, ofModule configuration loaded = .error error → error.IsMiscount →
        error.Blames statements loaded.instructions) ∧
      (∀ machine, Reachable loaded machine →
        (∀ location data, Fair (machine.bind location data)) ∧
        (∀ location, Fair (machine.slots.output location)) ∧
        (∀ configuration id error, (machine.call configuration id).result = .error error →
          error.IsMiscount → error.Blames statements loaded.instructions) ∧
        ∀ configuration name error,
          (machine.callEntryPoint configuration name).result = .error error →
          error.IsMiscount → error.Blames statements loaded.instructions) ∧
      ∀ configuration before instruction after setup,
        loaded.instructions = before ++ instruction :: after →
        before.foldlM (Setup.step configuration) (Setup.ofModule loaded) = .ok setup →
        instruction.opcode = Opcode.constant.number →
        Setup.IsConstant setup.table instruction.operands := by
  obtain ⟨_, is_words, -⟩ := exists_of_bind assembled
  obtain ⟨statements, parsed, -⟩ := exists_of_bind is_words
  obtain ⟨_, encoder, -, started, -, encodes⟩ := assemble_encodes parsed assembled
  obtain ⟨-, no_scalars⟩ := Encoder.ofStatements_inv started
  -- A call fails at an instruction of the module, which blames its own statement.
  have called {machine : Machine} (reachable : Reachable loaded machine)
      (configuration : Configuration) (id : Id) (error : MachineError)
      (failed : (machine.call configuration id).result = .error error)
      (miscount : error.IsMiscount) : error.Blames statements loaded.instructions := by
    obtain ⟨other, instruction, within, failed⟩ := exists_of_call_miscount failed miscount
    rw [reachable.exists_setUp.1] at within
    exact encodes.blames_of_step no_scalars within failed miscount
  refine ⟨statements, parsed, fun configuration error failed miscount => ?_,
    fun machine reachable =>
      ⟨machine.fair_bind, machine.slots.fair_output, called reachable, ?_⟩, ?_⟩
  · rcases ofModule_error failed with failed | ⟨id, rfl⟩
    · exact encodes.blames_of_setup no_scalars failed miscount
    · exact absurd miscount not_false
  · intro configuration name error failed miscount
    rcases callEntryPoint_cases configuration machine name with missing | ⟨id, -, entered⟩
    · rw [missing] at failed
      cases failed
      exact absurd miscount not_false
    · rw [entered] at failed
      exact called reachable configuration id error failed miscount
  · intro configuration before instruction after setup split passed is_constant
    -- The instruction comes from a statement behind those that declare its type.
    obtain ⟨statement, later, -, encoded, -, widths⟩ :=
      encodes.exists_split split [] (Encoder.widths_nil no_scalars)
    have is_constant : statement.opcode = .constant := by
      have known := encoded.known
      rw [is_constant, Opcode.ofNumber?_number] at known
      exact (Option.some.inj known).symm
    exact encoded.isConstant is_constant widths (Setup.noted_of_foldlM passed)

/-- A text with a constant of 64 bits and a variable is set up, and the constant has two words as
its type needs; when `main` is called, the operand too many of an extended instruction is blamed. -/
theorem operands_counted_absolute : ∃ machine setup,
    assemble absoluteText = .ok absoluteModule ∧ ofModule {} absoluteModule = .ok machine ∧
      (machine.callEntryPoint {} "main").result =
        .error (.binary (.malformed 50 12 (.unreadOperands 1))) ∧
      (MachineError.binary (.malformed 50 12 (.unreadOperands 1))).Blames absoluteStatements
        absoluteModule.instructions ∧
      (absoluteModule.instructions.take 5).foldlM (Setup.step {}) (Setup.ofModule absoluteModule) =
        .ok setup ∧ Setup.IsConstant setup.table [3, 5, 0, 0xbff80000] := by
  obtain ⟨statements, parsed, -, called, counted⟩ := operands_counted assemble_absolute.2
  cases parseSource_absolute.symm.trans parsed
  have evaluated : (ofModule {} absoluteModule).toOption.any (fun machine =>
      decide ((machine.callEntryPoint {} "main").result =
        .error (.binary (.malformed 50 12 (.unreadOperands 1))))) = true := by decide +kernel
  have passes : ((absoluteModule.instructions.take 5).foldlM (Setup.step {})
      (Setup.ofModule absoluteModule)).toOption.any (fun _ => true) = true := by decide +kernel
  obtain ⟨machine, set_up, failed⟩ := exists_of_any evaluated
  obtain ⟨setup, passed, -⟩ := exists_of_any passes
  rw [decide_eq_true_eq] at failed
  obtain ⟨-, -, -, blamed⟩ := called machine (.setUp set_up)
  exact ⟨machine, setup, assemble_absolute.2, set_up, failed, blamed {} "main" _ failed trivial,
    passed, counted {} _ ⟨25, 43, [3, 5, 0, 0xbff80000]⟩ _ setup rfl passed rfl⟩

end Machine

end ShaderMachine
