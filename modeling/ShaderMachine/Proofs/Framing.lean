import Mathlib.Tactic.SplitIfs
import ShaderMachine.Binary.Module
import ShaderMachine.Proofs.Fallible

/-! # Framing loses nothing

Cutting a stream into instructions keeps every word, so a loaded module holds the words it was
loaded from, and these words load again.

* **`IsFramed`** — instructions stand one behind the other and fit their header words.
* **`Framing.isFramed_of_fault`** — a stream without a fault is the words of framed instructions.
* **`Framing.ofWords_flatMap`** — the words of framed instructions are cut into them.
* **`Module.ofWords_inv`** and **`Module.ofWords_words`** — which words load as a module. -/

namespace ShaderMachine

/-- A header word is made of its two halves. -/
theorem InstructionHeader.toWord_ofWord (word : Word) :
    InstructionHeader.toWord (.ofWord word) = word := by
  have small := word.toNat_lt
  rw [toWord, ofWord, ← UInt32.toNat_inj]
  simp only [UInt16.toNat_ofNat', UInt32.toNat_ofNat']
  omega

/-- What is cut off a stream: the header word counts the instruction's words. -/
theorem cutInstruction_inv {offset : Nat} {words rest : List Word} {instruction : Instruction}
    (cut : cutInstruction offset words = .ok (instruction, rest)) :
    instruction.offset = offset ∧ instruction.wordCount < 65536 ∧
      words = instruction.words ++ rest := by
  cases words with
  | nil => cases cut
  | cons word tail =>
      have header_eq := InstructionHeader.toWord_ofWord word
      generalize header_of : InstructionHeader.ofWord word = header at header_eq
      have count_lt := header.wordCount.toNat_lt
      unfold cutInstruction at cut
      simp only [header_of] at cut
      split at cut
      · cases cut
      · rename_i counted
        split at cut
        · cases cut
        · rename_i enough
          cases cut
          have positive : 0 < header.wordCount.toNat := by
            rw [Nat.pos_iff_ne_zero]
            exact fun zero => counted (UInt16.toNat_inj.mp zero)
          -- The words that were cut off are as many as the header word says.
          have length : (tail.take header.operandCount).length + 1 = header.wordCount.toNat := by
            rw [InstructionHeader.operandCount] at *
            have := List.length_take_le (header.wordCount.toNat - 1) tail
            omega
          refine ⟨rfl, ?_, ?_⟩
          · rw [Instruction.wordCount, length]
            exact count_lt
          · rw [Instruction.words, Instruction.wordCount]
            simp only [length, UInt16.ofNat_toNat, List.cons_append, List.take_append_drop]
            rw [← header_eq]

/-- A header comes back from its word. -/
theorem InstructionHeader.ofWord_toWord (header : InstructionHeader) :
    InstructionHeader.ofWord header.toWord = header := by
  have opcode_lt := header.opcode.toNat_lt
  have count_lt := header.wordCount.toNat_lt
  rw [ofWord, toWord, InstructionHeader.mk.injEq, ← UInt16.toNat_inj, ← UInt16.toNat_inj]
  simp only [UInt16.toNat_ofNat', UInt32.toNat_ofNat']
  omega

/-- The words of an instruction are cut off as that instruction. -/
theorem cutInstruction_words {instruction : Instruction} (short : instruction.wordCount < 65536)
    (rest : List Word) :
    cutInstruction instruction.offset (instruction.words ++ rest) = .ok (instruction, rest) := by
  have header_eq := InstructionHeader.ofWord_toWord
    ⟨instruction.opcode, UInt16.ofNat instruction.wordCount⟩
  have count_eq : (UInt16.ofNat instruction.wordCount).toNat = instruction.wordCount := by
    rw [UInt16.toNat_ofNat', Nat.mod_eq_of_lt short]
  have operands_eq : instruction.wordCount - 1 = instruction.operands.length := rfl
  have positive : UInt16.ofNat instruction.wordCount ≠ 0 := by
    rw [Ne, ← UInt16.toNat_inj, count_eq]
    exact Nat.succ_ne_zero _
  rw [Instruction.words, List.cons_append, cutInstruction]
  simp only [header_eq, InstructionHeader.operandCount, count_eq, operands_eq]
  rw [List.take_left, List.drop_left, if_neg positive, if_neg (Nat.lt_irrefl _)]

/-- Whether instructions stand one behind the other from an offset on and are no longer than their
header words can say. -/
def IsFramed : Nat → List Instruction → Prop
  | _, [] => True
  | offset, instruction :: rest =>
      instruction.offset = offset ∧ instruction.wordCount < 65536 ∧ IsFramed instruction.stop rest

instance decidableIsFramed :
    (offset : Nat) → (instructions : List Instruction) → Decidable (IsFramed offset instructions)
  | _, [] => isTrue trivial
  | offset, instruction :: rest =>
      have := decidableIsFramed instruction.stop rest
      inferInstanceAs (Decidable (instruction.offset = offset ∧ instruction.wordCount < 65536 ∧
        IsFramed instruction.stop rest))

/-- Framed instructions are no longer than their header words can say. -/
theorem IsFramed.short {offset : Nat} {instructions : List Instruction}
    (framed : IsFramed offset instructions) :
    ∀ instruction ∈ instructions, instruction.wordCount < 65536 := by
  induction instructions generalizing offset with
  | nil => simp
  | cons instruction instructions hyp =>
      obtain ⟨-, short, framed⟩ := framed
      rw [List.forall_mem_cons]
      exact ⟨short, hyp framed⟩

/-- The number of words of an instruction. -/
theorem Instruction.length_words (instruction : Instruction) :
    instruction.words.length = instruction.wordCount :=
  rfl

namespace IsFramed

variable {offset : Nat} {before after : List Instruction} {instruction : Instruction}

/-- What is behind framed instructions is framed, too. -/
theorem append (framed : IsFramed offset (before ++ after)) :
    IsFramed (offset + (before.flatMap Instruction.words).length) after := by
  induction before generalizing offset with
  | nil => exact framed
  | cons first before hyp =>
      obtain ⟨rfl, -, framed⟩ := framed
      rw [List.flatMap_cons, List.length_append, first.length_words, ← Nat.add_assoc]
      exact hyp framed

/-- What is in front of framed instructions is framed, too. -/
theorem front (framed : IsFramed offset (before ++ after)) : IsFramed offset before := by
  induction before generalizing offset with
  | nil => trivial
  | cons first before hyp =>
      obtain ⟨offset_eq, short, framed⟩ := framed
      exact ⟨offset_eq, short, hyp framed⟩

/-- Framed instructions go on with framed ones. -/
theorem join (framed : IsFramed offset before)
    (behind : IsFramed (offset + (before.flatMap Instruction.words).length) after) :
    IsFramed offset (before ++ after) := by
  induction before generalizing offset with
  | nil => exact behind
  | cons first before hyp =>
      obtain ⟨rfl, short, framed⟩ := framed
      rw [List.flatMap_cons, List.length_append, first.length_words, ← Nat.add_assoc] at behind
      exact ⟨rfl, short, hyp framed behind⟩

/-- No framed instruction stands before the first one. -/
theorem le_offset (framed : IsFramed offset after) :
    ∀ instruction ∈ after, offset ≤ instruction.offset := by
  induction after generalizing offset with
  | nil => simp
  | cons first after hyp =>
      obtain ⟨rfl, -, framed⟩ := framed
      rw [List.forall_mem_cons]
      refine ⟨Nat.le_refl _, fun instruction mem => ?_⟩
      exact Nat.le_trans (Nat.le_add_right _ _) (hyp framed instruction mem)

/-- Framed instructions end where their words do or before. -/
theorem stop_le_end (framed : IsFramed offset before) : ∀ instruction ∈ before,
    instruction.stop ≤ offset + (before.flatMap Instruction.words).length := by
  induction before generalizing offset with
  | nil => simp
  | cons first before hyp =>
      obtain ⟨rfl, -, framed⟩ := framed
      rw [List.flatMap_cons, List.length_append, first.length_words, ← Nat.add_assoc,
        List.forall_mem_cons]
      exact ⟨Nat.le_add_right _ _, hyp framed⟩

/-- Framed instructions end before the next one starts. -/
theorem stop_le (framed : IsFramed offset (before ++ instruction :: after)) :
    ∀ other ∈ before, other.stop ≤ instruction.offset := by
  rw [framed.append.1]
  exact framed.front.stop_le_end

/-- Instructions after a framed one start where it ends or later. -/
theorem le_of_mem_after (framed : IsFramed offset (before ++ instruction :: after)) :
    ∀ other ∈ after, instruction.stop ≤ other.offset :=
  framed.append.2.2.le_offset

end IsFramed

/-- An instruction has a word. -/
theorem Instruction.offset_lt_stop (instruction : Instruction) :
    instruction.offset < instruction.stop :=
  Nat.lt_add_of_pos_right (Nat.succ_pos _)

namespace Framing

variable {read : List Instruction} {offset : Nat} {words : List Word}

/-- A stream that ends has no fault. -/
theorem cut_nil (read : List Instruction) (offset : Nat) :
    cut read offset [] = ⟨read.reverse, none⟩ := by
  rw [cut, if_pos List.isEmpty_nil]

/-- A fault ends the instructions. -/
theorem cut_of_error {fault : BinaryError} (nonempty : words ≠ [])
    (found : cutInstruction offset words = .error fault) :
    cut read offset words = ⟨read.reverse, some fault⟩ := by
  have not_empty : ¬ words.isEmpty = true := by simpa using nonempty
  rw [cut, if_neg not_empty]
  split
  · rename_i fault' found'
    rw [found] at found'
    cases found'
    rfl
  · rename_i found'
    rw [found] at found'
    cases found'

/-- An instruction is cut off, then the others. -/
theorem cut_of_ok {instruction : Instruction} {rest : List Word}
    (found : cutInstruction offset words = .ok (instruction, rest)) :
    cut read offset words = cut (instruction :: read) instruction.stop rest := by
  have not_empty : ¬ words.isEmpty = true := by
    rintro empty
    rw [List.isEmpty_iff.mp empty] at found
    cases found
  rw [cut.eq_def read offset words, if_neg not_empty]
  split
  · rename_i found'
    rw [found] at found'
    cases found'
  · rename_i found'
    rw [found] at found'
    cases found'
    rfl

/-- Why cutting stops in front of some words: there are none, or none can be cut off. -/
def StopsAt (offset : Nat) (rest : List Word) : Option BinaryError → Prop
  | none => rest = []
  | some fault => rest ≠ [] ∧ cutInstruction offset rest = .error fault

/-- A stream is the words of framed instructions and those that cutting stops in front of. -/
theorem cut_inv (read : List Instruction) (offset : Nat) (words : List Word) :
    ∃ cut_off rest, (cut read offset words).instructions = read.reverse ++ cut_off ∧
      words = cut_off.flatMap Instruction.words ++ rest ∧ IsFramed offset cut_off ∧
      StopsAt (offset + (cut_off.flatMap Instruction.words).length) rest
        (cut read offset words).fault := by
  -- The induction is on the cutting itself; what was read before is only carried along.
  induction read, offset, words using cut.induct with
  | case1 read offset words empty =>
      rw [List.isEmpty_iff] at empty
      subst empty
      rw [cut_nil]
      exact ⟨[], [], (List.append_nil _).symm, rfl, trivial, rfl⟩
  | case2 read offset words more fault found =>
      have nonempty : words ≠ [] := by simpa using more
      rw [cut_of_error nonempty found]
      exact ⟨[], words, (List.append_nil _).symm, rfl, trivial, nonempty, found⟩
  | case3 read offset words more instruction rest found hyp =>
      rw [cut_of_ok found]
      obtain ⟨others, behind, instructions_eq, rest_eq, framed, stops⟩ := hyp
      obtain ⟨offset_eq, short, words_eq⟩ := cutInstruction_inv found
      refine ⟨instruction :: others, behind, ?_, ?_, ⟨offset_eq, short, framed⟩, ?_⟩
      · rw [instructions_eq, List.reverse_cons, List.append_assoc, List.singleton_append]
      · rw [words_eq, rest_eq, List.flatMap_cons, List.append_assoc]
      · rw [List.flatMap_cons, List.length_append, instruction.length_words, ← offset_eq,
          ← Nat.add_assoc]
        exact stops

/-- A stream without a fault is the words of framed instructions. -/
theorem isFramed_of_fault (no_fault : (cut read offset words).fault = none) :
    ∃ cut_off, (cut read offset words).instructions = read.reverse ++ cut_off ∧
      words = cut_off.flatMap Instruction.words ∧ IsFramed offset cut_off := by
  obtain ⟨cut_off, rest, instructions_eq, words_eq, framed, stops⟩ := cut_inv read offset words
  rw [no_fault] at stops
  have nothing : rest = [] := stops
  rw [nothing, List.append_nil] at words_eq
  exact ⟨cut_off, instructions_eq, words_eq, framed⟩

/-- The words of framed instructions are cut into them, whatever comes behind. -/
theorem cut_append {instructions : List Instruction} (framed : IsFramed offset instructions)
    (read : List Instruction) (rest : List Word) :
    cut read offset (instructions.flatMap Instruction.words ++ rest) =
      cut (instructions.reverse ++ read)
        (offset + (instructions.flatMap Instruction.words).length) rest := by
  induction instructions generalizing offset read with
  | nil => rfl
  | cons instruction instructions hyp =>
      obtain ⟨rfl, short, framed⟩ := framed
      rw [List.flatMap_cons, List.append_assoc, cut_of_ok (cutInstruction_words short _),
        hyp framed, List.length_append, instruction.length_words, ← Nat.add_assoc,
        List.reverse_cons, List.append_assoc, List.singleton_append]
      rfl

/-- The words of framed instructions are cut into them. -/
theorem cut_flatMap {instructions : List Instruction} (framed : IsFramed offset instructions)
    (read : List Instruction) :
    cut read offset (instructions.flatMap Instruction.words) =
      ⟨read.reverse ++ instructions, none⟩ := by
  have cut_off := cut_append framed read []
  rw [List.append_nil, cut_nil, List.reverse_append, List.reverse_reverse] at cut_off
  exact cut_off

/-- The words of framed instructions are cut into them. -/
theorem ofWords_flatMap {instructions : List Instruction} (framed : IsFramed offset instructions) :
    ofWords offset (instructions.flatMap Instruction.words) = ⟨instructions, none⟩ := by
  rw [ofWords, cut_flatMap framed, List.reverse_nil, List.nil_append]

/-- There is one way to cut words into framed instructions. -/
theorem unique {first second : List Instruction} (framed : IsFramed offset first)
    (framed' : IsFramed offset second)
    (same : first.flatMap Instruction.words = second.flatMap Instruction.words) :
    first = second := by
  have cut_off := ofWords_flatMap framed
  rw [same, ofWords_flatMap framed', Framing.mk.injEq] at cut_off
  exact cut_off.1.symm

end Framing

namespace Module

/-- What a checked header says: the words are the header and the words after it. -/
theorem readHeader_inv {words stream : List Word} {header : ModuleHeader}
    (read : readHeader words = .ok (header, stream)) :
    words = header.words ++ stream ∧ header.bound ≠ 0 ∧ header.bound ≤ maxBound := by
  unfold readHeader at read
  split at read
  · rename_i magic version generator bound schema rest
    split_ifs at read with other_magic bad_bound
    cases read
    rw [not_or] at bad_bound
    refine ⟨?_, bad_bound.1, UInt32.not_lt.mp bad_bound.2⟩
    rw [ModuleHeader.words, Decidable.not_not.mp other_magic]
    rfl
  · cases read

/-- A header with a bound that modules may have is read back. -/
theorem readHeader_words {header : ModuleHeader} (positive : header.bound ≠ 0)
    (small : header.bound ≤ maxBound) (stream : List Word) :
    readHeader (header.words ++ stream) = .ok (header, stream) := by
  have good_bound : ¬ (header.bound = 0 ∨ maxBound < header.bound) := by
    rw [not_or]
    exact ⟨positive, UInt32.not_lt.mpr small⟩
  simp [readHeader, ModuleHeader.words, good_bound]

/-- Instructions that are gone through are noted one after the other, and all of them counted. -/
theorem foldlM_visit (instructions : List Instruction) (scan : Scan) :
    instructions.foldlM Scan.visit scan =
      (instructions.foldlM Metadata.note scan.metadata).map
        (⟨·, scan.count + instructions.length⟩) := by
  induction instructions generalizing scan with
  | nil => rfl
  | cons instruction instructions hyp =>
      rw [List.foldlM_cons, List.foldlM_cons, Scan.visit]
      cases scan.metadata.note instruction with
      | error fault => rfl
      | ok noted =>
          change instructions.foldlM Scan.visit ⟨noted, scan.count + 1⟩ = _
          rw [hyp, List.length_cons, Nat.add_right_comm, Nat.add_assoc]
          rfl

/-- What is known of a loaded module: it has the words that it was loaded from, and as many
instructions as were counted. -/
theorem ofWords_inv {words : List Word} {loaded : Module} (loads : ofWords words = .ok loaded) :
    words = loaded.words ∧ (loaded.bound ≠ 0 ∧ loaded.bound ≤ maxBound) ∧
      IsFramed headerLength loaded.instructions ∧
      loaded.instructions.foldlM Metadata.note {} = .ok loaded.metadata ∧
      loaded.instructionCount = loaded.instructions.length := by
  obtain ⟨⟨header, stream⟩, header_read, loads⟩ := exists_of_bind loads
  obtain ⟨words_eq, bound⟩ := readHeader_inv header_read
  -- Metadata is noted before a fault of the framing is reported.
  obtain ⟨scan, visited, loads⟩ := exists_of_bind loads
  rw [foldlM_visit] at visited
  obtain ⟨metadata, noted, rfl⟩ := exists_of_map visited
  cases faulty : (Framing.ofWords headerLength stream).fault with
  | some fault =>
      simp only [faulty] at loads
      cases loads
  | none =>
      simp only [faulty] at loads
      cases loads
      obtain ⟨instructions, instructions_eq, stream_eq, framed⟩ :=
        Framing.isFramed_of_fault faulty
      rw [List.reverse_nil, List.nil_append] at instructions_eq
      have all : (Framing.ofWords headerLength stream).instructions = instructions :=
        instructions_eq
      rw [all] at noted ⊢
      refine ⟨?_, bound, framed, noted, Nat.zero_add _⟩
      rw [words_eq, stream_eq]
      rfl

/-- The words of a module load as it if its parts fit each other. -/
theorem ofWords_words {loaded : Module} (positive : loaded.bound ≠ 0)
    (small : loaded.bound ≤ maxBound) (framed : IsFramed headerLength loaded.instructions)
    (noted : loaded.instructions.foldlM Metadata.note {} = .ok loaded.metadata)
    (counted : loaded.instructionCount = loaded.instructions.length) :
    ofWords loaded.words = .ok loaded := by
  rw [ofWords, words, readHeader_words positive small, stream]
  simp only [bind, Except.bind]
  rw [Framing.ofWords_flatMap framed, foldlM_visit, noted, Except.map]
  simp only [Nat.zero_add, ← counted]

end Module

end ShaderMachine
