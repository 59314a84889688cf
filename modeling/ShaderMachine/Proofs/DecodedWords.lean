import ShaderMachine.Proofs.Loading
import ShaderMachine.Proofs.ReadOperands

/-! # Decoded instructions are their words

Decoding keeps every word of an instruction but the padding of its strings: the words come back
from its operands, written one behind the other with the result where its kind stands.

* **`DecodedInstruction.words`** — the words that a decoded instruction stands for.
* **`Instruction.literalStrings`** — the words of the strings of an instruction, as its layout says.
* **`Decoder.Fault`** — why an instruction cannot be decoded.
* **`Module.decodeStream_exact`** — what decoding the stream of a module yields and reports. -/

namespace ShaderMachine

/-! ## Words of instructions -/

namespace DecodedInstruction

/-- The number of operands in front of the result of an instruction. -/
def resultPosition (instruction : DecodedInstruction) : Nat :=
  instruction.opcode?.elim 0 fun opcode => opcode.layout.fixed.idxOf .result

/-- The words of the operands, the result among them. -/
def operandWords (instruction : DecodedInstruction) : List Word :=
  (instruction.operands.take instruction.resultPosition).flatMap DecodedOperand.words ++
    instruction.result.toList ++
    (instruction.operands.drop instruction.resultPosition).flatMap DecodedOperand.words

/-- The words of an instruction, the header first. -/
def words (instruction : DecodedInstruction) : List Word :=
  InstructionHeader.toWord
      ⟨instruction.opcode, UInt16.ofNat (instruction.operandWords.length + 1)⟩ ::
    instruction.operandWords

/-- An instruction without a result is its operands. -/
theorem operandWords_of_result {instruction : DecodedInstruction}
    (no_result : instruction.result = none) :
    instruction.operandWords = instruction.operands.flatMap DecodedOperand.words := by
  rw [operandWords, no_result, Option.toList_none, List.append_nil, ← List.flatMap_append,
    List.take_append_drop]

end DecodedInstruction

/-- The words of the strings of an instruction. -/
def Instruction.literalStrings (instruction : Instruction) : List (List Word) :=
  match Opcode.ofNumber? instruction.opcode with
  | none => []
  | some opcode =>
      OperandKind.stringsOf (opcode.layout.upTo instruction.operands.length) instruction.operands

namespace Decoder

variable {decoder : Decoder} {decoding : Decoding} {kind : OperandKind} {kinds : List OperandKind}
  {instruction : Instruction} {opcode : Opcode} {decoded : DecodedInstruction}

/-- What a decoded instruction has in common with the instruction that it was decoded from: its
place, its sort and, if its strings have zero padding, its words. -/
structure Mirrors (decoded : DecodedInstruction) (instruction : Instruction) : Prop where
  /-- It is at the same place. -/
  offset_eq : decoded.offset = instruction.offset
  /-- It has the same number. -/
  opcode_eq : decoded.opcode = instruction.opcode
  /-- Its words are those of the instruction. -/
  words_eq : (∀ chunk ∈ instruction.literalStrings, IsZeroPadded chunk) →
    decoded.words = instruction.words

/-- The operand words of a supported instruction come back from its operands. -/
theorem operandWords_of_decodeOperands (known : Opcode.ofNumber? instruction.opcode = some opcode)
    (read : decoder.decodeOperands instruction opcode = .ok decoded)
    (padded : ∀ chunk ∈ instruction.literalStrings, IsZeroPadded chunk) :
    decoded.operandWords = instruction.operands := by
  obtain ⟨kinds, next, front, within, run, rfl⟩ := exists_run_of_decodeOperands read
  have ahead_eq : instruction.cursor.ahead = instruction.operands := rfl
  obtain ⟨more, upTo_eq⟩ := within
  rw [Instruction.literalStrings, known] at padded
  simp only [← upTo_eq] at padded
  obtain ⟨others, rfl, none_other⟩ := exists_others front ⟨more, upTo_eq⟩
  by_cases mem : .result ∈ opcode.layout.fixed
  · obtain ⟨before, after, fixed_eq, none_before, none_after, length_eq⟩ := exists_split mem
    have none_behind : .result ∉ after ++ others := by
      rw [List.mem_append, not_or]
      exact ⟨none_after, none_other⟩
    have kinds_eq : opcode.layout.fixed ++ others = before ++ (.result :: (after ++ others)) := by
      rw [fixed_eq, List.append_assoc, List.cons_append]
    rw [kinds_eq] at run
    rw [kinds_eq, List.append_assoc] at padded
    -- The run is one over the operands in front of the result and one from the result on.
    obtain ⟨mid, run, rest⟩ := run.append_inv
    obtain ⟨first, first_length, first_eq, -, first_words⟩ := run.exists_added none_before
    obtain ⟨id, second, result_eq, second_eq, second_words⟩ := rest.exists_result none_behind
    obtain ⟨words_eq, padded⟩ := first_words _ padded
    have position : DecodedInstruction.resultPosition ⟨instruction.offset, instruction.opcode,
        next.result, next.operands.reverse ++ next.cursor.ahead.map .literal⟩ = first.length := by
      rw [DecodedInstruction.resultPosition, DecodedInstruction.opcode?, known, first_length]
      exact length_eq.symm
    rw [DecodedInstruction.operandWords, position, result_eq, second_eq, first_eq, ← ahead_eq,
      words_eq, second_words more padded]
    simp [DecodedOperand.flatMap_literal]
  · have no_result : .result ∉ opcode.layout.fixed ++ others := by
      rw [List.mem_append, not_or]
      exact ⟨mem, none_other⟩
    obtain ⟨added, -, operands_eq, result_eq, words_eq⟩ := run.exists_added no_result
    obtain ⟨words_eq, -⟩ := words_eq more padded
    rw [DecodedInstruction.operandWords_of_result result_eq, ← ahead_eq, words_eq, operands_eq]
    simp [DecodedOperand.flatMap_literal]

/-- An instruction is mirrored by what it is decoded as. -/
theorem mirrors_of_decode (read : decoder.decode instruction = .ok decoded) :
    Mirrors decoded instruction := by
  rw [decode] at read
  cases known : Opcode.ofNumber? instruction.opcode with
  | none =>
      rw [known] at read
      cases read
      refine ⟨rfl, rfl, fun _ => ?_⟩
      rw [DecodedInstruction.words, DecodedInstruction.operandWords_of_result rfl,
        DecodedOperand.flatMap_literal]
      rfl
  | some opcode =>
      rw [known] at read
      have operands_eq := operandWords_of_decodeOperands known read
      obtain ⟨kinds, next, -, -, -, rfl⟩ := exists_run_of_decodeOperands read
      refine ⟨rfl, rfl, fun padded => ?_⟩
      rw [DecodedInstruction.words, operands_eq padded]
      rfl

/-- Every operand of a decoded instruction has words. -/
theorem words_ne_nil_of_decode (read : decoder.decode instruction = .ok decoded) :
    ∀ operand ∈ decoded.operands, operand.words ≠ [] := by
  have literals (words : List Word) :
      ∀ operand ∈ words.map DecodedOperand.literal, operand.words ≠ [] := by
    intro operand mem
    obtain ⟨word, -, rfl⟩ := List.mem_map.mp mem
    exact List.cons_ne_nil _ _
  rw [decode] at read
  cases known : Opcode.ofNumber? instruction.opcode with
  | none =>
      rw [known] at read
      cases read
      exact literals instruction.operands
  | some opcode =>
      rw [known] at read
      obtain ⟨kinds, next, -, -, run, rfl⟩ := exists_run_of_decodeOperands read
      intro operand mem
      rcases List.mem_append.mp mem with mem | mem
      · exact run.words_ne_nil (fun _ nothing => absurd nothing List.not_mem_nil) operand
          (List.mem_reverse.mp mem)
      · exact literals _ operand mem

/-! ## Faults -/

/-- Why an instruction cannot be decoded. -/
inductive Fault (instruction : Instruction) : ListingError → Prop
  /-- Its words end before an operand that is always there. -/
  | missing {opcode : Opcode} {kind : OperandKind} {before after : List OperandKind}
      (known : Opcode.ofNumber? instruction.opcode = some opcode)
      (fixed_eq : opcode.layout.fixed = before ++ kind :: after)
      (no_more : OperandKind.afterAll before instruction.operands = []) :
      Fault instruction (.missingOperand instruction.offset opcode kind)
  /-- Where it has a string, there is none. -/
  | string {opcode : Opcode} {before : List OperandKind} {passed words : List Word}
      {error : BinaryError} (known : Opcode.ofNumber? instruction.opcode = some opcode)
      (within : before ++ [.string] <+: opcode.layout.fixed ++ opcode.layout.optional)
      (operands_eq : instruction.operands = passed ++ words)
      (words_eq : words = OperandKind.afterAll before instruction.operands) (more : words ≠ [])
      (fault : StringFault (instruction.offset + 1 + passed.length) words error) :
      Fault instruction (.invalidModule error)

/-- An operand is not taken if it cannot be read. -/
theorem exists_of_takeOperand_error {error : ListingError}
    (failed : decoder.takeOperand decoding kind = .error error) :
    ∃ cause, error = .invalidModule cause ∧ decoder.readOperand decoding kind = .error cause := by
  rw [takeOperand] at failed
  rcases error_of_bind failed with failed | ⟨pair, -, failed⟩
  · obtain ⟨cause, unread, rfl⟩ := exists_of_mapError failed
    exact ⟨cause, rfl, unread⟩
  · dsimp only at failed
    split at failed <;> cases failed

/-- An operand that cannot be read after others is a faulty string. -/
theorem fault_of_takeOperand {error : ListingError} {before : List OperandKind}
    (known : Opcode.ofNumber? instruction.opcode = some opcode)
    (run : Run decoder ⟨instruction.cursor, none, none, []⟩ before decoding)
    (more : decoding.cursor.isEmpty = false)
    (within : before ++ [kind] <+: opcode.layout.fixed ++ opcode.layout.optional)
    (failed : decoder.takeOperand decoding kind = .error error) : Fault instruction error := by
  obtain ⟨cause, rfl, unread⟩ := exists_of_takeOperand_error failed
  obtain ⟨rfl, fault⟩ := stringFault_of_readOperand more unread
  obtain ⟨base_eq, words_eq, ahead_eq⟩ := run.position
  rw [Cursor.isEmpty, List.isEmpty_eq_false_iff] at more
  refine .string known within words_eq.symm ahead_eq more ?_
  rw [Cursor.offset, base_eq] at fault
  rw [List.length_reverse]
  exact fault

/-- An operand that is always there is missing or cannot be read. -/
theorem fault_of_fixed {error : ListingError}
    (known : Opcode.ofNumber? instruction.opcode = some opcode)
    (failed : opcode.layout.fixed.foldlM (decoder.fixedStep instruction.offset opcode)
      ⟨instruction.cursor, none, none, []⟩ = .error error) : Fault instruction error := by
  obtain ⟨before, kind, after, mid, fixed_eq, read, failed⟩ := exists_of_foldlM_error failed
  have run := Run.of_fixed read
  rw [fixedStep] at failed
  split_ifs at failed with at_end
  · cases failed
    refine .missing known fixed_eq ?_
    rw [Cursor.isEmpty, List.isEmpty_iff] at at_end
    exact run.position.2.2.symm.trans at_end
  · rw [Bool.not_eq_true] at at_end
    refine fault_of_takeOperand known run at_end ?_ failed
    rw [fixed_eq]
    simp

/-- An operand that may be there cannot be read. -/
theorem fault_of_optional {error : ListingError}
    (known : Opcode.ofNumber? instruction.opcode = some opcode)
    (fixed : Run decoder ⟨instruction.cursor, none, none, []⟩ opcode.layout.fixed decoding)
    (failed : opcode.layout.optional.foldlM decoder.optionalStep decoding = .error error) :
    Fault instruction error := by
  obtain ⟨before, kind, after, mid, optional_eq, read, failed⟩ := exists_of_foldlM_error failed
  obtain ⟨present, front, complete, run⟩ := Run.exists_of_optional read
  rw [optionalStep] at failed
  split_ifs at failed with at_end
  obtain rfl := complete.resolve_right at_end
  rw [Bool.not_eq_true] at at_end
  refine fault_of_takeOperand known (fixed.append run) at_end ?_ failed
  rw [optional_eq]
  simp

/-- A repeated operand can be read if it is no string. -/
theorem variadicSteps_ne_error {error : ListingError} {fuel : ℕ} (no_string : kind ≠ .string) :
    decoder.variadicSteps kind fuel decoding ≠ .error error := by
  intro failed
  induction fuel generalizing decoding with
  | zero => cases failed
  | succ fuel hyp =>
      rw [variadicSteps] at failed
      split_ifs at failed with at_end
      rw [Bool.not_eq_true] at at_end
      cases taken : decoder.takeOperand decoding kind with
      | error cause =>
          obtain ⟨cause, -, failed⟩ := exists_of_takeOperand_error taken
          exact no_string (stringFault_of_readOperand at_end failed).1
      | ok mid =>
          rw [taken] at failed
          exact hyp failed

/-- What is reported of an instruction is wrong with it. -/
theorem fault_of_decode {error : ListingError}
    (failed : decoder.decode instruction = .error error) :
    Fault instruction error := by
  rw [decode] at failed
  cases known : Opcode.ofNumber? instruction.opcode with
  | none =>
      rw [known] at failed
      cases failed
  | some opcode =>
      rw [known] at failed
      have failed : decoder.decodeOperands instruction opcode = .error error := failed
      rw [decodeOperands] at failed
      rcases error_of_bind failed with fixed | ⟨mid, fixed, failed⟩
      · exact fault_of_fixed known fixed
      rcases error_of_bind failed with optional | ⟨mid', optional, failed⟩
      · exact fault_of_optional known (Run.of_fixed fixed) optional
      cases variadic : opcode.layout.variadic with
      | none =>
          rw [variadic] at failed
          cases failed
      | some kind =>
          rw [variadic] at failed
          -- No layout ends in strings.
          have no_string : kind ≠ .string := by
            rintro rfl
            cases opcode <;> cases variadic
          rcases error_of_bind failed with repeated | ⟨next, -, failed⟩
          · exact absurd repeated (variadicSteps_ne_error no_string)
          · cases failed

/-! ## Instructions one behind the other -/

/-- Instructions are decoded one by one, in order. -/
theorem exists_of_decodeFrom {read : List DecodedInstruction} {instructions : List Instruction}
    {all : List DecodedInstruction} (decodes : decodeFrom read decoder instructions = .ok all) :
    ∃ later, all = read.reverse ++ later ∧ List.Forall₂ (fun decoded instruction =>
      ∃ decoder : Decoder, decoder.decode instruction = .ok decoded) later instructions := by
  induction instructions generalizing read decoder with
  | nil =>
      cases decodes
      exact ⟨[], (List.append_nil _).symm, .nil⟩
  | cons instruction instructions hyp =>
      rw [decodeFrom] at decodes
      cases first : decoder.decode instruction with
      | error error =>
          rw [first] at decodes
          cases decodes
      | ok decoded =>
          rw [first] at decodes
          obtain ⟨later, rfl, others⟩ := hyp decodes
          refine ⟨decoded :: later, ?_, .cons ⟨decoder, first⟩ others⟩
          rw [List.reverse_cons, List.append_assoc, List.singleton_append]

/-- The first instruction that cannot be decoded is reported. -/
theorem fault_of_decodeFrom {read : List DecodedInstruction} {instructions : List Instruction}
    {error : ListingError} (failed : decodeFrom read decoder instructions = .error error) :
    ∃ instruction ∈ instructions, Fault instruction error := by
  induction instructions generalizing read decoder with
  | nil => cases failed
  | cons instruction instructions hyp =>
      rw [decodeFrom] at failed
      cases first : decoder.decode instruction with
      | error error' =>
          rw [first] at failed
          cases failed
          exact ⟨instruction, List.mem_cons_self, fault_of_decode first⟩
      | ok decoded =>
          rw [first] at failed
          obtain ⟨later, mem, fault⟩ := hyp failed
          exact ⟨later, List.mem_cons_of_mem _ mem, fault⟩

/-- Decoded instructions have the words of those that they mirror, if the strings of these have
zero padding. -/
theorem flatMap_words_of_mirrors {decoded : List DecodedInstruction}
    {instructions : List Instruction} (mirrors : List.Forall₂ Mirrors decoded instructions)
    (padded : ∀ instruction ∈ instructions, ∀ chunk ∈ instruction.literalStrings,
      IsZeroPadded chunk) :
    decoded.flatMap DecodedInstruction.words = instructions.flatMap Instruction.words := by
  induction mirrors with
  | nil => rfl
  | cons mirror mirrors hyp =>
      rw [List.forall_mem_cons] at padded
      rw [List.flatMap_cons, List.flatMap_cons, mirror.words_eq padded.1, hyp padded.2]

end Decoder

namespace Module

/-- Decoding the stream of a framed module is decoding its instructions. -/
theorem decodeStream_stream {loaded : Module} (framed : IsFramed headerLength loaded.instructions) :
    decodeStream loaded.stream headerLength = loaded.decode := by
  rw [decodeStream, stream, Framing.ofWords_flatMap framed, decode]
  cases Decoder.decodeFrom [] {} loaded.instructions <;> rfl

/-- Decoding the stream of a module fails only at an instruction that lacks an operand or has a
faulty string. What it yields are the instructions that walking over the module reads, each with
its place and its number, and all the words of the module if its strings have zero padding. -/
theorem decodeStream_exact {words : List Word} {loaded : Module}
    (loads : ofWords words = .ok loaded) :
    (∀ error, decodeStream loaded.stream headerLength = .error error →
        ∃ instruction ∈ loaded.instructions, Decoder.Fault instruction error) ∧
      ∀ decoded, decodeStream loaded.stream headerLength = .ok decoded →
        (∃ instructions, loaded.cursor.walk words.length = .ok instructions ∧
          List.Forall₂ (fun decoded instruction => decoded.offset = instruction.offset ∧
            decoded.opcode = instruction.opcode) decoded instructions) ∧
        ((∀ instruction ∈ loaded.instructions, ∀ chunk ∈ instruction.literalStrings,
            IsZeroPadded chunk) →
          decoded.flatMap DecodedInstruction.words = loaded.stream) := by
  obtain ⟨rfl, -, framed, -⟩ := ofWords_inv loads
  rw [decodeStream_stream framed]
  refine ⟨fun error failed => Decoder.fault_of_decodeFrom failed, fun decoded decodes => ?_⟩
  obtain ⟨later, rfl, each⟩ := Decoder.exists_of_decodeFrom decodes
  have mirrors : List.Forall₂ Decoder.Mirrors decoded loaded.instructions :=
    each.imp fun _ _ ⟨_, read⟩ => Decoder.mirrors_of_decode read
  refine ⟨⟨loaded.instructions, walk_cursor framed, mirrors.imp fun _ _ mirror => ?_⟩,
    fun padded => Decoder.flatMap_words_of_mirrors mirrors padded⟩
  exact ⟨mirror.offset_eq, mirror.opcode_eq⟩

/-- A module with a word past the layout of a type, a constant with fewer words than its type says
and an instruction that is not supported. -/
def irregular : Module where
  header := .ofBound 3 0
  instructions :=
    [⟨5, 5, [2, 0x6970]⟩, ⟨8, 22, [1, 64, 7]⟩, ⟨12, 43, [1, 2, 5]⟩, ⟨16, 999, [8, 9]⟩]
  metadata := {}
  instructionCount := 4

/-- All words of the irregular module come back from what it is decoded as. -/
theorem decodeStream_irregular :
    ∃ decoded, decodeStream irregular.stream headerLength = .ok decoded ∧ decoded.length = 4 ∧
      decoded.flatMap DecodedInstruction.words = irregular.stream := by
  have loads : Module.ofWords irregular.words = .ok irregular :=
    Module.ofWords_words (by decide) (by decide) (by decide) rfl rfl
  have evaluated : (decodeStream irregular.stream headerLength).toOption.any
      (fun decoded => decoded.length == 4) = true := by
    decide +kernel
  obtain ⟨decoded, decodes, four⟩ := exists_of_any evaluated
  have padded : ∀ instruction ∈ irregular.instructions, ∀ chunk ∈ instruction.literalStrings,
      IsZeroPadded chunk := by
    decide +kernel
  exact ⟨decoded, decodes, eq_of_beq four, ((decodeStream_exact loads).2 decoded decodes).2 padded⟩

end Module

end ShaderMachine
