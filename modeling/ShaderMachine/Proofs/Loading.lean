import ShaderMachine.Proofs.BodyWalk

/-! # What loads as a module

Loading accepts the words of complete framed instructions behind a good header, and nothing else.
What it keeps of them is what they say, and what it reports of other words is the first thing that
is wrong with them.

* **`IsWellFramed`** — the words that load.
* **`Module.Describes`** — what a loaded module says of its words.
* **`FirstFault`** — the first thing that is wrong with words that do not load.
* **`Module.ofWords_exact`** — loading does exactly this. -/

namespace ShaderMachine

/-! ## What instructions say about their module -/

namespace Instruction

/-- The number of operands that an instruction must have for its module to load. -/
def neededOperands (instruction : Instruction) : Nat :=
  match Opcode.ofNumber? instruction.opcode with
  | some .capability => 1
  | some .memoryModel | some .source => 2
  | _ => 0

/-- Whether an instruction has the operands that its module needs to load. -/
def IsComplete (instruction : Instruction) : Prop :=
  instruction.neededOperands ≤ instruction.operands.length

instance (instruction : Instruction) : Decidable instruction.IsComplete :=
  inferInstanceAs (Decidable (_ ≤ _))

/-- The first operand of an instruction with a given opcode. -/
def firstOf (opcode : Opcode) (instruction : Instruction) : Option Word :=
  if Opcode.ofNumber? instruction.opcode = some opcode then instruction.operands[0]? else none

/-- The first two operands of an instruction with a given opcode. -/
def firstTwoOf (opcode : Opcode) (instruction : Instruction) : Option (Word × Word) :=
  if Opcode.ofNumber? instruction.opcode = some opcode then
    match instruction.operands with
    | first :: second :: _ => some (first, second)
    | _ => none
  else
    none

end Instruction

namespace Metadata

/-- What a module with given instructions says about itself: every capability that is declared, and
the models and the source that are declared last. -/
def ofInstructions (instructions : List Instruction) : Metadata :=
  let models := (instructions.filterMap (Instruction.firstTwoOf .memoryModel)).getLast?
  { capabilities := (instructions.filterMap (Instruction.firstOf .capability)).toArray
    addressingModel := models.map Prod.fst
    memoryModel := models.map Prod.snd
    source := (instructions.filterMap (Instruction.firstTwoOf .source)).getLast? }

/-- A complete instruction is noted behind those before it. -/
theorem note_complete (before : List Instruction) {instruction : Instruction}
    (complete : instruction.IsComplete) :
    note (ofInstructions before) instruction = .ok (ofInstructions (before ++ [instruction])) := by
  obtain ⟨offset, number, operands⟩ := instruction
  rw [Instruction.IsComplete, Instruction.neededOperands] at complete
  simp only [ofInstructions, List.filterMap_append, List.filterMap_cons, List.filterMap_nil,
    Instruction.firstOf, Instruction.firstTwoOf, note]
  cases opcode : Opcode.ofNumber? number with
  | none => simp
  | some opcode' =>
      rw [opcode] at complete
      -- Only three opcodes are read, and an instruction with one of them has its operands.
      cases opcode' with
      | capability =>
          obtain ⟨first, rest, rfl⟩ := List.exists_cons_of_length_pos complete
          simp
      | memoryModel | source =>
          obtain ⟨first, rest, rfl⟩ := List.exists_cons_of_length_pos (Nat.lt_of_succ_lt complete)
          obtain ⟨second, rest, rfl⟩ :=
            List.exists_cons_of_length_pos (Nat.lt_of_succ_lt_succ complete)
          simp
      | _ => simp

/-- An instruction that is not complete is not noted. -/
theorem note_incomplete (metadata : Metadata) {instruction : Instruction}
    (incomplete : ¬ instruction.IsComplete) :
    note metadata instruction = .error (instruction.malformed .missingOperands) := by
  obtain ⟨offset, number, operands⟩ := instruction
  rw [Instruction.IsComplete, Instruction.neededOperands] at incomplete
  rw [note]
  cases opcode : Opcode.ofNumber? number with
  | none =>
      rw [opcode] at incomplete
      exact absurd (Nat.zero_le _) incomplete
  | some opcode' =>
      rw [opcode] at incomplete
      cases opcode' with
      | capability =>
          match operands with
          | [] => rfl
          | first :: rest => exact absurd (Nat.succ_pos _) incomplete
      | memoryModel | source =>
          match operands with
          | [] | [_] => rfl
          | first :: second :: rest =>
              exact absurd (Nat.succ_le_succ (Nat.succ_pos rest.length)) incomplete
      | _ => exact absurd (Nat.zero_le _) incomplete

/-- Complete instructions are noted one behind the other. -/
theorem foldlM_complete (before : List Instruction) {instructions : List Instruction}
    (complete : ∀ instruction ∈ instructions, instruction.IsComplete) :
    instructions.foldlM note (ofInstructions before) =
      .ok (ofInstructions (before ++ instructions)) := by
  induction instructions generalizing before with
  | nil => rw [List.append_nil]; rfl
  | cons instruction instructions hyp =>
      rw [List.forall_mem_cons] at complete
      rw [List.foldlM_cons, note_complete before complete.1]
      simp only [bind, Except.bind]
      rw [hyp (before ++ [instruction]) complete.2, List.append_assoc, List.singleton_append]

/-- The first instruction that is not complete is the one that is not noted. -/
theorem foldlM_incomplete {before rest : List Instruction} {instruction : Instruction}
    (complete : ∀ other ∈ before, other.IsComplete) (incomplete : ¬ instruction.IsComplete) :
    (before ++ instruction :: rest).foldlM note {} =
      .error (instruction.malformed .missingOperands) := by
  have noted := foldlM_complete [] complete
  rw [List.nil_append] at noted
  have start : ofInstructions [] = {} := rfl
  rw [start] at noted
  rw [List.foldlM_append, noted]
  simp only [bind, Except.bind, List.foldlM_cons, note_incomplete _ incomplete]

/-- Instructions are all complete, or there is a first one that is not. -/
theorem complete_or (instructions : List Instruction) :
    (∀ instruction ∈ instructions, instruction.IsComplete) ∨
      ∃ before instruction rest, instructions = before ++ instruction :: rest ∧
        (∀ other ∈ before, other.IsComplete) ∧ ¬ instruction.IsComplete := by
  induction instructions with
  | nil => exact .inl (by simp)
  | cons first instructions hyp =>
      by_cases complete : first.IsComplete
      · obtain all | ⟨before, instruction, rest, rfl, completes, incomplete⟩ := hyp
        · exact .inl (List.forall_mem_cons.mpr ⟨complete, all⟩)
        · exact .inr ⟨first :: before, instruction, rest, rfl,
            List.forall_mem_cons.mpr ⟨complete, completes⟩, incomplete⟩
      · exact .inr ⟨[], first, instructions, rfl, by simp, complete⟩

end Metadata

/-! ## Good words and the first fault of others -/

/-- Whether words start with a header that modules may have. -/
structure IsHeaded (words : List Word) : Prop where
  /-- They are enough for a header. -/
  long : headerLength ≤ words.length
  /-- The first one is the magic number. -/
  magic : words[0]? = some magicNumber
  /-- The fourth one is a bound that is neither zero nor too large. -/
  bounded : ∃ bound, words[3]? = some bound ∧ 0 < bound ∧ bound ≤ maxBound

/-- Whether words are a good header and complete instructions, one behind the other, that each take
as many words as they say. -/
structure IsWellFramed (words : List Word) : Prop where
  /-- The header is good. -/
  headed : IsHeaded words
  /-- The other words are those of complete instructions. -/
  instructions : ∃ instructions, words.drop headerLength = instructions.flatMap Instruction.words ∧
    IsFramed headerLength instructions ∧ ∀ instruction ∈ instructions, instruction.IsComplete

/-- What can be wrong with the word that counts the words of an instruction. -/
inductive CountFault (offset : Nat) : List Word → BinaryError → Prop
  /-- It counts none. -/
  | empty {word : Word} {rest : List Word}
      (zero : (InstructionHeader.ofWord word).wordCount = 0) :
      CountFault offset (word :: rest)
        (.malformed offset (InstructionHeader.ofWord word).opcode .emptyCount)
  /-- It counts more than there are. -/
  | overrun {word : Word} {rest : List Word}
      (few : (word :: rest).length < (InstructionHeader.ofWord word).wordCount.toNat) :
      CountFault offset (word :: rest)
        (.malformed offset (InstructionHeader.ofWord word).opcode
          (.overrun (InstructionHeader.ofWord word).wordCount.toNat (word :: rest).length))

/-- What can be wrong with a header. -/
inductive HeaderFault (words : List Word) : BinaryError → Prop
  /-- There are too few words. -/
  | truncated (few : words.length < headerLength) :
      HeaderFault words (.truncated (4 * words.length))
  /-- There are enough, but the first one is not the magic number. -/
  | magic {first : Word} (long : headerLength ≤ words.length) (first_eq : words[0]? = some first)
      (other : first ≠ magicNumber) : HeaderFault words (.badMagic first)
  /-- The first one is, but the fourth one is no good bound. -/
  | bound {bound : Word} (long : headerLength ≤ words.length)
      (magic : words[0]? = some magicNumber) (bound_eq : words[3]? = some bound)
      (bad : bound = 0 ∨ maxBound < bound) : HeaderFault words (.invalidBound bound)

/-- The first thing that is wrong with words. -/
inductive FirstFault (words : List Word) : BinaryError → Prop
  /-- The header is not good. -/
  | header {fault : BinaryError} (faulty : HeaderFault words fault) : FirstFault words fault
  /-- The header is good, but behind complete instructions there are words that none can be cut
  off from. -/
  | count {before : List Instruction} {rest : List Word} {fault : BinaryError}
      (headed : IsHeaded words)
      (stream : words.drop headerLength = before.flatMap Instruction.words ++ rest)
      (framed : IsFramed headerLength before)
      (complete : ∀ instruction ∈ before, instruction.IsComplete)
      (faulty : CountFault (headerLength + (before.flatMap Instruction.words).length) rest fault) :
      FirstFault words fault
  /-- The header is good, but behind complete instructions there is one that is not complete. -/
  | operands {before : List Instruction} {instruction : Instruction} {rest : List Word}
      (headed : IsHeaded words)
      (stream : words.drop headerLength =
        (before ++ [instruction]).flatMap Instruction.words ++ rest)
      (framed : IsFramed headerLength (before ++ [instruction]))
      (complete : ∀ other ∈ before, other.IsComplete) (incomplete : ¬ instruction.IsComplete) :
      FirstFault words (instruction.malformed .missingOperands)

/-- No instruction can be cut off from words exactly when their first one counts wrongly. -/
theorem cutInstruction_eq_error_iff {offset : Nat} {words : List Word} {fault : BinaryError}
    (nonempty : words ≠ []) :
    cutInstruction offset words = .error fault ↔ CountFault offset words fault := by
  obtain ⟨word, rest, rfl⟩ := List.exists_cons_of_ne_nil nonempty
  rw [cutInstruction]
  have operands_length := List.length_take
    (i := (InstructionHeader.ofWord word).operandCount) (l := rest)
  -- A count of zero is found first, then one that goes beyond the end.
  constructor
  · intro failed
    split_ifs at failed with zero few
    · cases failed
      exact .empty zero
    · cases failed
      refine .overrun ?_
      rw [InstructionHeader.operandCount] at *
      rw [List.length_cons]
      omega
  · intro faulty
    cases faulty with
    | empty zero => simp [zero]
    | overrun few =>
        rw [List.length_cons] at few
        have counted : ¬ (InstructionHeader.ofWord word).wordCount = 0 := by
          intro zero
          rw [zero] at few
          exact Nat.not_lt_zero _ few
        have short : (rest.take (InstructionHeader.ofWord word).operandCount).length <
            (InstructionHeader.ofWord word).operandCount := by
          rw [InstructionHeader.operandCount] at *
          omega
        simp only [if_neg counted, if_pos short, List.length_cons]

namespace Module

/-- Words that are enough for a header are those that start with five words. -/
theorem headerLength_le_iff {words : List Word} :
    headerLength ≤ words.length ↔ ∃ magic version generator bound schema rest,
      words = magic :: version :: generator :: bound :: schema :: rest := by
  constructor
  · intro long
    rcases words with - | ⟨magic, - | ⟨version, - | ⟨generator, - | ⟨bound, - | ⟨schema, rest⟩⟩⟩⟩⟩
    case cons.cons.cons.cons.cons => exact ⟨magic, version, generator, bound, schema, rest, rfl⟩
    all_goals simp [headerLength] at long
  · rintro ⟨magic, version, generator, bound, schema, rest, rfl⟩
    exact Nat.le_add_left _ _

/-- A header is read exactly when it is good. -/
theorem readHeader_eq_ok_iff {words stream : List Word} :
    (∃ header, readHeader words = .ok (header, stream)) ↔
      IsHeaded words ∧ stream = words.drop headerLength := by
  constructor
  · rintro ⟨header, read⟩
    obtain ⟨rfl, positive, small⟩ := readHeader_inv read
    have long : headerLength ≤ (header.words ++ stream).length :=
      headerLength_le_iff.mpr ⟨_, _, _, _, _, _, rfl⟩
    have more : 0 < header.bound := UInt32.pos_iff_ne_zero.mpr positive
    exact ⟨⟨long, rfl, header.bound, rfl, more, small⟩, rfl⟩
  · rintro ⟨⟨long, magic, bound, bound_eq, positive, small⟩, rfl⟩
    obtain ⟨first, version, generator, fourth, schema, rest, rfl⟩ := headerLength_le_iff.mp long
    cases magic
    cases bound_eq
    let header : ModuleHeader := ⟨version, generator, bound, schema⟩
    have good : header.bound ≠ 0 := UInt32.pos_iff_ne_zero.mp positive
    exact ⟨header, readHeader_words good small rest⟩

/-- A header is reported exactly when something is wrong with it. -/
theorem readHeader_eq_error_iff {words : List Word} {fault : BinaryError} :
    readHeader words = .error fault ↔ HeaderFault words fault := by
  -- The three faults are found in this order: too few words, another magic number, a bad bound.
  constructor
  · intro failed
    unfold readHeader at failed
    split at failed
    · rename_i magic version generator bound schema rest
      have long := headerLength_le_iff.mpr ⟨magic, version, generator, bound, schema, rest, rfl⟩
      split_ifs at failed with other bad
      · cases failed
        exact .magic long rfl other
      · cases failed
        rw [Decidable.not_not.mp other]
        exact .bound long rfl rfl bad
    · rename_i short
      cases failed
      refine .truncated (Nat.lt_of_not_le fun long => ?_)
      obtain ⟨magic, version, generator, bound, schema, rest, rfl⟩ := headerLength_le_iff.mp long
      exact short magic version generator bound schema rest rfl
  · intro faulty
    cases faulty with
    | truncated few =>
        unfold readHeader
        split
        · rename_i magic version generator bound schema rest
          have long := headerLength_le_iff.mpr ⟨magic, version, generator, bound, schema, rest, rfl⟩
          exact absurd few (Nat.not_lt_of_le long)
        · rfl
    | magic long first_eq other =>
        obtain ⟨first, version, generator, fourth, schema, rest, rfl⟩ := headerLength_le_iff.mp long
        cases first_eq
        rw [readHeader, if_pos other]
    | bound long magic bound_eq bad =>
        obtain ⟨first, version, generator, fourth, schema, rest, rfl⟩ := headerLength_le_iff.mp long
        cases magic
        cases bound_eq
        simp [readHeader, bad]

section

variable {words stream rest : List Word} {header : ModuleHeader} {before : List Instruction}
  {instruction : Instruction} {fault : BinaryError}
  (read : readHeader words = .ok (header, stream))

include read

/-- With a good header, the rest is cut up, then noted, then its fault is reported. -/
theorem ofWords_of_readHeader :
    ofWords words =
      ((Framing.ofWords headerLength stream).instructions.foldlM Metadata.note {}).bind
        fun metadata =>
          match (Framing.ofWords headerLength stream).fault with
          | some fault => .error fault
          | none => .ok ⟨header, (Framing.ofWords headerLength stream).instructions, metadata,
              (Framing.ofWords headerLength stream).instructions.length⟩ := by
  rw [ofWords, read]
  simp only [bind, Except.bind, foldlM_visit, Nat.zero_add]
  cases (Framing.ofWords headerLength stream).instructions.foldlM Metadata.note {} <;> rfl

/-- Complete framed instructions load. -/
theorem ofWords_of_complete (stream_eq : stream = before.flatMap Instruction.words)
    (framed : IsFramed headerLength before)
    (complete : ∀ instruction ∈ before, instruction.IsComplete) :
    ofWords words = .ok ⟨header, before, .ofInstructions before, before.length⟩ := by
  have noted : before.foldlM Metadata.note {} = .ok (.ofInstructions before) :=
    Metadata.foldlM_complete [] complete
  rw [ofWords_of_readHeader read, stream_eq, Framing.ofWords_flatMap framed]
  simp only [noted, Except.bind]

/-- Words behind complete instructions that none can be cut off from are reported. -/
theorem ofWords_of_countFault
    (stream_eq : stream = before.flatMap Instruction.words ++ rest)
    (framed : IsFramed headerLength before)
    (complete : ∀ instruction ∈ before, instruction.IsComplete)
    (faulty : CountFault (headerLength + (before.flatMap Instruction.words).length) rest fault) :
    ofWords words = .error fault := by
  have nonempty : rest ≠ [] := by
    cases faulty <;> exact List.cons_ne_nil _ _
  have noted : before.foldlM Metadata.note {} = .ok (.ofInstructions before) :=
    Metadata.foldlM_complete [] complete
  have cut_off : Framing.ofWords headerLength stream = ⟨before, some fault⟩ := by
    rw [Framing.ofWords, stream_eq, Framing.cut_append framed,
      Framing.cut_of_error nonempty ((cutInstruction_eq_error_iff nonempty).mpr faulty),
      List.append_nil, List.reverse_reverse]
  rw [ofWords_of_readHeader read, cut_off]
  simp only [noted, Except.bind]

/-- An instruction behind complete ones that is not complete is reported, whatever follows it. -/
theorem ofWords_of_incomplete
    (stream_eq : stream = (before ++ [instruction]).flatMap Instruction.words ++ rest)
    (framed : IsFramed headerLength (before ++ [instruction]))
    (complete : ∀ other ∈ before, other.IsComplete) (incomplete : ¬ instruction.IsComplete) :
    ofWords words = .error (instruction.malformed .missingOperands) := by
  -- What follows may have a fault of its own, which is not reached.
  obtain ⟨others, -, instructions_eq, -⟩ :=
    Framing.cut_inv ((before ++ [instruction]).reverse ++ [])
    (headerLength + ((before ++ [instruction]).flatMap Instruction.words).length) rest
  rw [← Framing.cut_append framed, ← stream_eq, List.append_nil, List.reverse_reverse,
    List.append_assoc, List.singleton_append] at instructions_eq
  rw [ofWords_of_readHeader read, Framing.ofWords, instructions_eq,
    Metadata.foldlM_incomplete complete incomplete]
  rfl

end

/-- Words with a fault do not load, and their first fault is reported. -/
theorem ofWords_of_firstFault {words : List Word} {fault : BinaryError}
    (faulty : FirstFault words fault) : ofWords words = .error fault := by
  cases faulty with
  | header faulty =>
      rw [ofWords, readHeader_eq_error_iff.mpr faulty]
      rfl
  | count headed stream framed complete faulty =>
      obtain ⟨header, read⟩ := readHeader_eq_ok_iff.mpr ⟨headed, rfl⟩
      exact ofWords_of_countFault read stream framed complete faulty
  | operands headed stream framed complete incomplete =>
      obtain ⟨header, read⟩ := readHeader_eq_ok_iff.mpr ⟨headed, rfl⟩
      exact ofWords_of_incomplete read stream framed complete incomplete

/-- Words are well-framed or have a first fault. -/
theorem isWellFramed_or (words : List Word) :
    IsWellFramed words ∨ ∃ fault, FirstFault words fault := by
  cases read : readHeader words with
  | error fault => exact .inr ⟨fault, .header (readHeader_eq_error_iff.mp read)⟩
  | ok pair =>
      obtain ⟨header, stream⟩ := pair
      obtain ⟨headed, rfl⟩ := readHeader_eq_ok_iff.mp ⟨header, read⟩
      obtain ⟨cut_off, rest, -, stream_eq, framed, stops⟩ :=
        Framing.cut_inv [] headerLength (words.drop headerLength)
      obtain complete | ⟨before, instruction, others, rfl, complete, incomplete⟩ :=
        Metadata.complete_or cut_off
      · cases fault : (Framing.cut [] headerLength (words.drop headerLength)).fault with
        | none =>
            rw [fault] at stops
            have nothing : rest = [] := stops
            rw [nothing, List.append_nil] at stream_eq
            exact .inl ⟨headed, cut_off, stream_eq, framed, complete⟩
        | some fault' =>
            rw [fault] at stops
            obtain ⟨nonempty, failed⟩ := stops
            have faulty := (cutInstruction_eq_error_iff nonempty).mp failed
            exact .inr ⟨fault', .count headed stream_eq framed complete faulty⟩
      · rw [← List.singleton_append, ← List.append_assoc] at stream_eq framed
        rw [List.flatMap_append, List.append_assoc] at stream_eq
        exact .inr ⟨_, .operands headed stream_eq framed.front complete incomplete⟩

/-- Whether a loaded module is what its words say. -/
structure Describes (loaded : Module) (words : List Word) : Prop where
  /-- Written again it is these words. -/
  words_eq : loaded.words = words
  /-- Its instructions stand behind the header, each where the one before it ends. -/
  framed : IsFramed headerLength loaded.instructions
  /-- Its instructions have the operands that it needs. -/
  complete : ∀ instruction ∈ loaded.instructions, instruction.IsComplete
  /-- There is no other way to cut the words into instructions. -/
  unique : ∀ instructions, IsFramed headerLength instructions →
    words.drop headerLength = instructions.flatMap Instruction.words →
    instructions = loaded.instructions
  /-- As many instructions were counted as it has. -/
  counted : loaded.instructionCount = loaded.instructions.length
  /-- It has every capability that is declared. -/
  capabilities : loaded.metadata.capabilities.toList =
    loaded.instructions.filterMap (Instruction.firstOf .capability)
  /-- It has the models that are declared last. -/
  models : (loaded.metadata.addressingModel, loaded.metadata.memoryModel) =
    let last := (loaded.instructions.filterMap (Instruction.firstTwoOf .memoryModel)).getLast?
    (last.map Prod.fst, last.map Prod.snd)
  /-- It has the source that is declared last. -/
  source : loaded.metadata.source =
    (loaded.instructions.filterMap (Instruction.firstTwoOf .source)).getLast?
  /-- Walking over it from its start to its end reads its instructions. -/
  walked : loaded.cursor.walk words.length = .ok loaded.instructions

/-- Walking over a framed module from its start to its end reads its instructions. -/
theorem walk_cursor {loaded : Module} (framed : IsFramed headerLength loaded.instructions) :
    loaded.cursor.walk loaded.words.length = .ok loaded.instructions := by
  have no_more := List.append_nil loaded.instructions
  have stop_eq : loaded.words.length = loaded.cursor.offset + loaded.stream.length :=
    List.length_append
  refine Cursor.walk_append (?_ : IsFramed headerLength (loaded.instructions ++ [])) ?_ stop_eq
  · rw [no_more]
    exact framed
  · rw [no_more]
    rfl

/-- Well-framed words load as what they say. -/
theorem exists_describes {words : List Word} (good : IsWellFramed words) :
    ∃ loaded, ofWords words = .ok loaded ∧ loaded.Describes words := by
  obtain ⟨headed, instructions, stream_eq, framed, complete⟩ := good
  obtain ⟨header, read⟩ := readHeader_eq_ok_iff.mpr ⟨headed, rfl⟩
  have loads := ofWords_of_complete read stream_eq framed complete
  obtain ⟨words_eq, -⟩ := ofWords_inv loads
  refine ⟨_, loads, words_eq.symm, framed, complete, ?_, rfl, List.toList_toArray, rfl, rfl, ?_⟩
  · intro others others_framed others_eq
    exact Framing.unique others_framed framed (others_eq.symm.trans stream_eq)
  · rw [words_eq]
    exact walk_cursor framed

/-- Loading accepts exactly the well-framed words, as what they say, and it reports exactly the
first fault of all others. -/
theorem ofWords_exact (words : List Word) :
    ((∃ loaded, ofWords words = .ok loaded) ↔ IsWellFramed words) ∧
      (∀ loaded, ofWords words = .ok loaded → loaded.Describes words) ∧
      ∀ fault, ofWords words = .error fault ↔ FirstFault words fault := by
  -- A stream is well framed or has a first fault; either decides how it loads.
  obtain good | ⟨fault, faulty⟩ := isWellFramed_or words
  · obtain ⟨loaded, loads, describes⟩ := exists_describes good
    refine ⟨⟨fun _ => good, fun _ => ⟨loaded, loads⟩⟩, ?_, ?_⟩
    · intro other loads'
      rw [loads] at loads'
      cases loads'
      exact describes
    · intro fault
      refine ⟨fun failed => ?_, ofWords_of_firstFault⟩
      rw [loads] at failed
      cases failed
  · have failed := ofWords_of_firstFault faulty
    refine ⟨⟨?_, ?_⟩, ?_, ?_⟩
    · rintro ⟨loaded, loads⟩
      rw [failed] at loads
      cases loads
    · intro good
      obtain ⟨loaded, loads, -⟩ := exists_describes good
      exact ⟨loaded, loads⟩
    · intro loaded loads
      rw [failed] at loads
      cases loads
    · intro other
      refine ⟨fun failed' => ?_, ofWords_of_firstFault⟩
      rw [failed] at failed'
      cases failed'
      exact faulty

end Module

end ShaderMachine
