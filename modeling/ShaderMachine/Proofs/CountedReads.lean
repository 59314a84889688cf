import ShaderMachine.Proofs.ExecutionSteps
import ShaderMachine.Proofs.InstructionRoundTrip

/-! # Readings that take all their words

The operands that an instruction should have, as its layout says, are those that its handlers read:
if they are there, no handler wants another one and none leaves one over. This is so for executed
instructions.

* **`MachineError.IsMiscount`** — the faults that say that operands are missing or left over.
* **`OperandReader.Reads`** — what a reading makes of the words ahead.
* **`OperandReader.Covers`** — a reading takes what operands of given kinds are written as.
* **`Execution.handler_covers`** — executed instructions take what their layouts admit. -/

namespace ShaderMachine

variable {α β : Type}

/-! ## Faults -/

/-- Whether a fault says that operands are missing or left over. -/
def MachineError.IsMiscount : MachineError → Prop
  | .binary (.malformed _ _ .missingOperand) | .binary (.malformed _ _ (.unreadOperands _)) => True
  | _ => False

/-- Whether a fault is a malformation of an instruction. -/
def MachineError.Names (instruction : Instruction) (error : MachineError) : Prop :=
  ∃ reason, error = .binary (instruction.malformed reason)

/-- Whether what does not read operands does not miscount them. -/
def Fair (result : Except MachineError α) : Prop :=
  ∀ error, result = .error error → ¬ error.IsMiscount

/-- A computation that is sound for every instruction blames none. -/
theorem Sound.fair (table : Table) {result : Except MachineError α}
    (sound : ∀ instruction, Sound table instruction result) : Fair result := by
  intro error failed miscount
  cases error with
  | binary error =>
      -- Two instructions at different places are not both at fault.
      have first := sound ⟨0, Opcode.nop.number, []⟩ _ failed
      have second := sound ⟨1, Opcode.nop.number, []⟩ _ failed
      rcases first with rfl | ⟨_, rfl⟩ | ⟨_, rfl⟩ <;>
        rcases second with same | ⟨_, same⟩ | ⟨_, same⟩ <;> cases same
  | _ => exact miscount

namespace OperandReader

/-! ## Words ahead -/

/-- Whether a reading of an instruction's operands leads from words ahead for which one condition
holds to a value and words ahead for which another one holds. It may fail, but then it has not
miscounted such words; where it miscounts others, it blames the instruction. -/
def Reads (reader : OperandReader α) (instruction : Instruction) (before : List Word → Prop)
    (after : α → List Word → Prop) : Prop :=
  ∀ cursor, ShaderMachine.Meets (reader cursor)
    (fun answer => before cursor.ahead → after answer.1 answer.2.ahead)
    fun error => error.IsMiscount → error.Names instruction ∧ ¬ before cursor.ahead

variable {reader : OperandReader α} {instruction : Instruction} {before : List Word → Prop}
  {after : α → List Word → Prop} {last : β → List Word → Prop}

/-- One reading after the other. -/
theorem Reads.bind {rest : α → OperandReader β} (first : reader.Reads instruction before after)
    (second : ∀ value, (rest value).Reads instruction (after value) last) :
    (reader >>= rest).Reads instruction before last := by
  intro cursor
  refine ((first cursor).bind fun answer _ leads => ?_ : ShaderMachine.Meets
    (reader cursor >>= fun answer => rest answer.1 answer.2) _ _)
  refine (second answer.1 answer.2).imp (fun next goes_on starts => goes_on (leads starts))
    fun error faulty miscount => ?_
  obtain ⟨names, wrong⟩ := faulty miscount
  exact ⟨names, fun starts => wrong (leads starts)⟩

/-- Less may be asked of the words ahead. -/
theorem Reads.of_imp {narrower : List Word → Prop} (reads : reader.Reads instruction before after)
    (imp : ∀ words, narrower words → before words) :
    reader.Reads instruction narrower after := fun cursor =>
  (reads cursor).imp (fun _ leads starts => leads (imp _ starts)) fun _ faulty miscount =>
    ⟨(faulty miscount).1, fun starts => (faulty miscount).2 (imp _ starts)⟩

/-- Nothing is read. -/
theorem reads_pure {value : α} (same : ∀ words, before words → after value words) :
    (pure value : OperandReader α).Reads instruction before after :=
  fun _ => same _

/-- The reading ends in another malformation. -/
theorem reads_malformed {reason : Malformation}
    (other : ¬ (MachineError.binary (instruction.malformed reason)).IsMiscount) :
    (malformed instruction reason : OperandReader α).Reads instruction before after :=
  fun _ miscount => absurd miscount other

/-- After another malformation nothing is read. -/
theorem reads_malformed_bind {reason : Malformation} {rest : α → OperandReader β}
    (other : ¬ (MachineError.binary (instruction.malformed reason)).IsMiscount) :
    (malformed instruction reason >>= rest).Reads instruction before last :=
  fun _ miscount => absurd miscount other

/-- The reading ends in another fault. -/
theorem reads_throw {error : MachineError} (other : ¬ error.IsMiscount) :
    (throw error : OperandReader α).Reads instruction before after :=
  fun _ miscount => absurd miscount other

/-- What does not read operands. -/
theorem reads_compute {result : Except MachineError α} (fair : Fair result) :
    (compute result).Reads instruction before fun value words =>
      result = .ok value ∧ before words := by
  intro cursor
  cases result with
  | ok value => exact fun starts => ⟨rfl, starts⟩
  | error error => exact fun miscount => absurd miscount (fair error rfl)

/-- A word is read if one is ahead. -/
theorem reads_word (present : ¬ before []) :
    (readWord instruction).Reads instruction before fun word words => before (word :: words) := by
  rintro ⟨base, behind, ahead⟩
  cases ahead with
  | nil => exact fun _ => ⟨⟨_, rfl⟩, present⟩
  | cons word words => exact id

/-- A word may be read. -/
theorem reads_optional : readOptional.Reads instruction before fun answer words =>
    answer.elim (words = [] ∧ before []) fun word => before (word :: words) := by
  rintro ⟨base, behind, ahead⟩
  cases ahead with
  | nil => exact fun starts => ⟨rfl, starts⟩
  | cons word words => exact id

/-- All words ahead are read. -/
theorem reads_rest : readRest.Reads instruction before fun _ words => words = [] :=
  fun _ _ => rfl

/-- All words ahead are passed over. -/
theorem reads_drain : drain.Reads instruction before fun _ words => words = [] :=
  fun _ _ => rfl

/-- As many words as are ahead are read. -/
theorem reads_words {count : Nat} (enough : ∀ words, before words → words.length = count) :
    (readWords instruction count).Reads instruction before fun _ words => words = [] := by
  intro cursor
  rw [readWords, Cursor.take, Cursor.remaining]
  by_cases short : cursor.ahead.length < count
  · rw [if_pos short]
    exact fun _ => ⟨⟨_, rfl⟩, fun starts => absurd (enough _ starts) (Nat.ne_of_lt short)⟩
  · rw [if_neg short]
    exact fun starts => List.drop_eq_nil_of_le (Nat.le_of_eq (enough _ starts))

/-- A string is read if one is ahead that holds no NUL. -/
theorem reads_string {rest : List Word → Prop}
    (present : ∀ words, before words → ∃ text more, '\x00' ∉ text.toList ∧
      words = packString text ++ more ∧ rest more) :
    readString.Reads instruction before fun _ words => rest words := by
  rintro ⟨base, behind, ahead⟩
  have plain (error : BinaryError) (next : Cursor)
      (failed : (⟨base, behind, ahead⟩ : Cursor).literalString = (.error error, next)) :
      ¬ (MachineError.binary error).IsMiscount := by
    rw [Cursor.literalString] at failed
    split at failed
    · cases failed
      exact id
    · simp only at failed
      split at failed
      · cases failed
        exact id
      · cases failed
  rw [readString]
  split
  · rename_i text next read
    intro starts
    obtain ⟨text', more, no_nul, ahead_eq, goes_on⟩ := present ahead starts
    obtain rfl : ahead = packString text' ++ more := ahead_eq
    rw [Cursor.literalString_packString no_nul] at read
    cases read
    exact goes_on
  · rename_i error next failed
    exact fun miscount => absurd miscount (plain error next failed)

end OperandReader

/-! ## Operands -/

namespace OperandKind

/-- Whether words are what an operand of a kind is written as; a string must not hold a NUL. -/
def Takes : OperandKind → List Word → Prop
  | string, words => ∃ text : String, '\x00' ∉ text.toList ∧ words = packString text
  | _, words => ∃ word, words = [word]

/-- Whether words are what operands of some kinds are written as. -/
def Filled (kinds : List OperandKind) (words : List Word) : Prop :=
  ∃ parts, List.Forall₂ Takes kinds parts ∧ words = parts.flatten

/-- What operands are written as starts with what the first one is written as. -/
theorem filled_cons_inv {kind : OperandKind} {kinds : List OperandKind} {words : List Word}
    (filled : Filled (kind :: kinds) words) :
    ∃ part more, kind.Takes part ∧ words = part ++ more ∧ Filled kinds more := by
  obtain ⟨parts, takes, rfl⟩ := filled
  cases takes with
  | @cons _ part _ parts first others =>
      exact ⟨part, parts.flatten, first, List.flatten_cons, parts, others, rfl⟩

/-- An operand of another kind than a string is written as one word. -/
theorem Takes.exists_word {kind : OperandKind} {part : List Word} (takes : kind.Takes part)
    (plain : kind ≠ .string) : ∃ word, part = [word] := by
  cases kind with
  | string => exact absurd rfl plain
  | _ => exact takes

/-- No operands are written as no words. -/
theorem filled_nil_inv {words : List Word} (filled : Filled [] words) : words = [] := by
  obtain ⟨parts, ⟨⟩, rfl⟩ := filled
  rfl

end OperandKind

namespace OperandReader

open OperandKind

/-- Whether a reading takes exactly what operands of some kinds are written as. -/
abbrev Covers (reader : OperandReader α) (instruction : Instruction) (kinds : List OperandKind) :
    Prop :=
  reader.Reads instruction (Filled kinds) fun _ words => words = []

variable {instruction : Instruction} {kind : OperandKind} {kinds : List OperandKind}

/-- Nothing is left to read. -/
theorem covers_pure {value : α} : (pure value : OperandReader α).Covers instruction [] :=
  reads_pure fun _ => filled_nil_inv

/-- What does not read operands. -/
theorem covers_compute {result : Except MachineError α} (fair : Fair result) :
    (compute result).Covers instruction [] := fun cursor =>
  ((reads_compute fair) cursor).imp (fun _ leads starts => filled_nil_inv (leads starts).2)
    fun _ faulty => faulty

/-- An operand of one word, then the rest. -/
theorem Covers.word {rest : Word → OperandReader α} (plain : kind ≠ .string)
    (after : ∀ word, (rest word).Covers instruction kinds) :
    (readWord instruction >>= rest).Covers instruction (kind :: kinds) := by
  refine (reads_word fun none_left => ?_).bind fun word =>
    (after word).of_imp fun words filled => ?_
  · obtain ⟨part, more, takes, none_eq, -⟩ := filled_cons_inv none_left
    obtain ⟨word, rfl⟩ := takes.exists_word plain
    cases none_eq
  · obtain ⟨part, more, takes, words_eq, others⟩ := filled_cons_inv filled
    obtain ⟨word, rfl⟩ := takes.exists_word plain
    cases words_eq
    exact others

/-- An operand that may be there is the last one. -/
theorem Covers.optional {rest : Option Word → OperandReader α} (front : kinds <+: [kind])
    (plain : kind ≠ .string) (after : ∀ word, (rest word).Covers instruction []) :
    (readOptional >>= rest).Covers instruction kinds := by
  refine reads_optional.bind fun answer => (after answer).of_imp fun words filled => ?_
  refine ⟨[], .nil, ?_⟩
  cases answer with
  | none => exact filled.1
  | some word =>
      obtain rfl | rfl : kinds = [] ∨ kinds = [kind] := by
        rcases List.prefix_cons_iff.mp front with rfl | ⟨others, rfl, none⟩
        · exact .inl rfl
        · exact .inr (congrArg _ (List.prefix_nil.mp none))
      · cases filled_nil_inv filled
      · obtain ⟨part, more, takes, words_eq, others⟩ := filled_cons_inv filled
        obtain ⟨word, rfl⟩ := takes.exists_word plain
        cases words_eq
        exact filled_nil_inv others

/-- A string, then the rest. -/
theorem Covers.string {rest : String → OperandReader α}
    (after : ∀ text, (rest text).Covers instruction kinds) :
    (readString >>= rest).Covers instruction (.string :: kinds) := by
  refine (reads_string fun words filled => ?_).bind after
  obtain ⟨part, more, ⟨text, no_nul, rfl⟩, words_eq, filled⟩ := filled_cons_inv filled
  exact ⟨text, more, no_nul, words_eq, filled⟩

/-- All operands, then the rest. -/
theorem Covers.words {rest : List Word → OperandReader α}
    (after : ∀ words, (rest words).Covers instruction []) :
    (readRest >>= rest).Covers instruction kinds :=
  reads_rest.bind fun words => (after words).of_imp fun _ none_left => ⟨[], .nil, none_left⟩

/-- All operands are passed over, then the rest. -/
theorem Covers.drained {rest : Unit → OperandReader α} (after : (rest ()).Covers instruction []) :
    (drain >>= rest).Covers instruction kinds :=
  reads_drain.bind fun _ => after.of_imp fun _ none_left => ⟨[], .nil, none_left⟩

/-- Something that does not read operands, then the rest. -/
theorem Covers.computed {result : Except MachineError α} {rest : α → OperandReader β}
    (fair : Fair result)
    (after : ∀ value, (rest value).Covers instruction kinds) :
    (compute result >>= rest).Covers instruction kinds :=
  (reads_compute fair).bind fun value => (after value).of_imp fun _ filled => filled.2

end OperandReader

/-! ## Executed instructions -/

namespace Execution

open OperandReader OperandKind OperandLayout

variable {table : Table} {slots : Slots} {instruction : Instruction} {kinds : List OperandKind}

/-- A number of IDs, then the rest. -/
theorem covers_readIds (count : ℕ) {rest : List Id → OperandReader α}
    (after : ∀ ids, (rest ids).Covers instruction kinds) :
    (readIds instruction count >>= rest).Covers instruction
      (List.replicate count .id ++ kinds) := by
  induction count generalizing rest with
  | zero => exact after []
  | succ count hyp =>
      rw [readIds, bind_assoc]
      refine .word nofun fun id => ?_
      rw [bind_assoc]
      exact hyp fun ids => after (id :: ids)

/-- A storage class that was found, then the rest. -/
theorem covers_storageOfWord {word : Word} {rest : StorageClass → OperandReader α}
    (after : ∀ storage, (rest storage).Covers instruction kinds) :
    (storageOfWord instruction word >>= rest).Covers instruction kinds := by
  unfold storageOfWord
  split
  · exact after _
  · exact reads_malformed_bind not_false

/-- The operands of a variable, then the rest. -/
theorem covers_readVariable {rest : Id × Variable → OperandReader α}
    (front : kinds <+: [.id]) (after : ∀ answer, (rest answer).Covers instruction []) :
    (readVariable table instruction >>= rest).Covers instruction
      ([.resultType, .result, .enumerant .storageClass] ++ kinds) := by
  unfold readVariable
  simp only [bind_assoc]
  refine .word nofun fun type => .word nofun fun id => .word nofun fun storageWord => ?_
  refine .optional front nofun fun initializer => ?_
  refine covers_storageOfWord fun storage => ?_
  refine .computed (Sound.fair table fun _ => sound_createVariable _ _ _ _) fun contents => ?_
  exact after _

/-- An instruction without effect. -/
theorem covers_ignore : (ignore table slots instruction).Covers instruction kinds :=
  .drained covers_pure

/-- A block label. -/
theorem covers_label : (label table slots instruction).Covers instruction [.result] :=
  .word nofun fun _ => covers_pure

/-- The end of a call. -/
theorem covers_returnVoid : (returnVoid table slots instruction).Covers instruction [] :=
  covers_pure

/-- A variable. -/
theorem covers_variableDecl (front : kinds <+: [.id]) :
    (variableDecl table slots instruction).Covers instruction
      ([.resultType, .result, .enumerant .storageClass] ++ kinds) :=
  covers_readVariable front fun _ => covers_pure

/-- A load. -/
theorem covers_load (front : kinds <+: [.integer]) :
    (load table slots instruction).Covers instruction ([.resultType, .result, .id] ++ kinds) := by
  refine .word nofun fun resultType => .word nofun fun result => .word nofun fun pointer => ?_
  refine .optional front nofun fun _ => covers_compute (Sound.fair table fun _ => ?_)
  exact .bind (sound_loadBytes resultType pointer) fun bytes _ =>
    sound_finishValue result resultType (some bytes)

/-- A store. -/
theorem covers_store (front : kinds <+: [.integer]) :
    (store table slots instruction).Covers instruction ([.id, .id] ++ kinds) := by
  refine .word nofun fun pointer => .word nofun fun object => .optional front nofun fun _ => ?_
  exact .computed (Sound.fair table fun _ => sound_value object) fun value => covers_pure

/-- A composite built from its constituents. -/
theorem covers_compositeConstruct :
    (compositeConstruct table slots instruction).Covers instruction
      ([.resultType, .result] ++ kinds) := by
  refine .word nofun fun resultType => .word nofun fun result => .words fun constituents => ?_
  refine covers_compute (Sound.fair table fun _ => ?_)
  exact .bind (sound_foldComposite result resultType constituents) fun bytes _ =>
    sound_finishValue result resultType (some bytes)

/-- A part of a composite. -/
theorem covers_compositeExtract :
    (compositeExtract table slots instruction).Covers instruction
      ([.resultType, .result, .id] ++ kinds) := by
  refine .word nofun fun resultType => .word nofun fun result => .word nofun fun composite => ?_
  refine .words fun indices => covers_compute (Sound.fair table fun _ => ?_)
  exact .bind (sound_extractComposite composite indices) fun bytes _ =>
    sound_finishValue result resultType (some bytes)

/-- A float instruction. -/
theorem covers_floats (operation : FloatOperation) (arity : ℕ) :
    (floats operation arity table slots instruction).Covers instruction
      ([.resultType, .result] ++ List.replicate arity .id) := by
  refine .word nofun fun resultType => .word nofun fun result => ?_
  change OperandReader.Covers _ instruction (List.replicate arity .id)
  rw [← List.append_nil (List.replicate arity OperandKind.id)]
  refine covers_readIds arity fun operands => covers_compute (Sound.fair table fun _ => ?_)
  exact sound_evaluateFloats operation resultType result operands

/-- Executed instructions that are no extended ones take the operands that their layouts admit. -/
theorem handler_covers {opcode : Opcode} {handler : ExecutionHandler}
    (known : Opcode.ofNumber? instruction.opcode = some opcode)
    (registered : executionTable.get? instruction.opcode = some handler)
    (plain : opcode ≠ .extInst) (admits : opcode.layout.Admits kinds) :
    (handler table slots instruction).Covers instruction kinds := by
  rw [Dispatch.get?_of_known _ known] at registered
  -- There is one case for each handler; what has none is not registered.
  cases opcode with
  | nop | line | noLine | functionParameter =>
      cases registered
      exact covers_ignore
  | label =>
      cases registered
      obtain rfl := eq_of_admits rfl rfl admits
      exact covers_label
  | returnVoid =>
      cases registered
      obtain rfl := eq_of_admits rfl rfl admits
      exact covers_returnVoid
  | variableDecl =>
      cases registered
      obtain ⟨others, front, rfl⟩ := prefix_of_admits rfl admits
      exact covers_variableDecl front
  | load =>
      cases registered
      obtain ⟨others, front, rfl⟩ := prefix_of_admits rfl admits
      exact covers_load front
  | store =>
      cases registered
      obtain ⟨others, front, rfl⟩ := prefix_of_admits rfl admits
      exact covers_store front
  | compositeConstruct =>
      cases registered
      obtain ⟨others, rfl, -⟩ := mem_of_admits admits
      exact covers_compositeConstruct
  | compositeExtract =>
      cases registered
      obtain ⟨others, rfl, -⟩ := mem_of_admits admits
      exact covers_compositeExtract
  | fNegate | fAdd | fSub | fMul | fDiv | vectorTimesScalar | dot =>
      cases registered
      obtain rfl := eq_of_admits rfl rfl admits
      exact covers_floats _ _
  | extInst => exact absurd rfl plain
  | _ => cases registered

end Execution

end ShaderMachine
