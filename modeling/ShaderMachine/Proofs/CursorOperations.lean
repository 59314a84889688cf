import ShaderMachine.Binary.CursorOperation
import ShaderMachine.Proofs.Framing
import ShaderMachine.Proofs.ReadStrings

/-! # Operations stay within their words

A cursor is over some words of a stream and stays over them, whatever it is asked for and whether
that succeeds. What it yields are the words that it moved over, and a cursor over the operands of an
instruction is over nothing but these, however deep it is nested.

* **`Cursor.between`** — the words from one offset up to another.
* **`Cursor.IsWithin`** — a cursor is over some of the words of another, at the same offsets.
* **`Operation.target?`** — where an operation moves to, if it succeeds.
* **`Cursor.Yields`** — what comes of an operation, in one of four ways.
* **`Cursor.perform_yields`** — every operation comes to one of these. -/

namespace ShaderMachine

namespace Cursor

/-! ## Offsets -/

/-- The offset behind the last word. -/
def stop (cursor : Cursor) : ℕ :=
  cursor.base + cursor.words.length

/-- The words from one offset up to another. -/
def between (cursor : Cursor) (first last : ℕ) : List Word :=
  (cursor.words.drop (first - cursor.base)).take (last - first)

/-- The words ahead go on to the end. -/
theorem offset_add_remaining (cursor : Cursor) :
    cursor.offset + cursor.remaining = cursor.stop := by
  rw [offset, remaining, stop, words, List.length_append, List.length_reverse, Nat.add_assoc]

/-- No word is in front of the first one. -/
theorem base_le_offset (cursor : Cursor) : cursor.base ≤ cursor.offset :=
  Nat.le_add_right _ _

/-- The position is not behind the end. -/
theorem offset_le_stop (cursor : Cursor) : cursor.offset ≤ cursor.stop :=
  Nat.le.intro cursor.offset_add_remaining

/-- The words up to the position are behind it, and the next ones ahead. -/
theorem between_offset (cursor : Cursor) (count : ℕ) :
    cursor.between cursor.offset (cursor.offset + count) = cursor.ahead.take count := by
  have behind_length : cursor.offset - cursor.base = cursor.behind.reverse.length := by
    rw [offset, Nat.add_sub_cancel_left, List.length_reverse]
  rw [between, behind_length, words, List.drop_left, Nat.add_sub_cancel_left]

/-- The words from the next offset on are all but the first one. -/
theorem between_succ (cursor : Cursor) {first : ℕ} (from_base : cursor.base ≤ first) (last : ℕ) :
    cursor.between (first + 1) last = (cursor.between first last).tail := by
  rw [between, between, ← List.drop_one, List.drop_take, List.drop_drop, Nat.sub_add_comm from_base,
    Nat.sub_sub]

/-- The words from the position to the end are ahead. -/
theorem between_offset_stop (cursor : Cursor) :
    cursor.between cursor.offset cursor.stop = cursor.ahead := by
  rw [← offset_add_remaining, between_offset, remaining, List.take_length]

/-! ## Cursors over the same words -/

/-- Whether a cursor is over some of the words of another one, at the same offsets. -/
structure IsWithin (inner outer : Cursor) : Prop where
  /-- It starts there or later. -/
  base_le : outer.base ≤ inner.base
  /-- It ends there or earlier. -/
  stop_le : inner.stop ≤ outer.stop
  /-- It has the words that are there. -/
  words_eq : inner.words = outer.between inner.base inner.stop

namespace IsWithin

variable {inner middle outer : Cursor}

/-- A cursor over the same words is over some of them. -/
theorem of_words_eq (base_eq : inner.base = outer.base) (words_eq : inner.words = outer.words) :
    inner.IsWithin outer where
  base_le := Nat.le_of_eq base_eq.symm
  stop_le := by rw [stop, stop, base_eq, words_eq]
  words_eq := by
    rw [between, stop, base_eq, words_eq, Nat.sub_self, Nat.add_sub_cancel_left, List.drop_zero,
      List.take_length]

/-- A cursor is over its own words. -/
theorem refl (cursor : Cursor) : cursor.IsWithin cursor :=
  of_words_eq rfl rfl

/-- At an offset of both, the words are the same. -/
theorem between_eq (within : inner.IsWithin outer) {first last : ℕ} (from_base : inner.base ≤ first)
    (to_stop : last ≤ inner.stop) : inner.between first last = outer.between first last := by
  have base_le := within.base_le
  have skipped : inner.base - outer.base + (first - inner.base) = first - outer.base := by omega
  rw [between, within.words_eq, between, List.drop_take, List.drop_drop, List.take_take, skipped,
    Nat.min_eq_left (by omega), between]

/-- What is within what is within a cursor is within it. -/
theorem trans (within : inner.IsWithin middle) (around : middle.IsWithin outer) :
    inner.IsWithin outer where
  base_le := Nat.le_trans around.base_le within.base_le
  stop_le := Nat.le_trans within.stop_le around.stop_le
  words_eq := within.words_eq.trans (around.between_eq within.base_le within.stop_le)

end IsWithin

end Cursor

/-! ## Readings -/

/-- A header that counts words counts itself and the operands. -/
theorem InstructionHeader.wordCount_eq {header : InstructionHeader}
    (counted : header.wordCount ≠ 0) :
    header.wordCount.toNat = 1 + header.operandCount := by
  have positive : header.wordCount.toNat ≠ 0 := fun zero => counted (UInt16.toNat_inj.mp zero)
  rw [operandCount]
  omega

namespace Cursor

variable {cursor : Cursor} {word : Word} {rest : List Word}

/-- The next word is read if it is there. -/
theorem word_of_ahead (ahead_eq : cursor.ahead = word :: rest) :
    cursor.word = .ok (word, cursor.advance 1) := by
  rw [Cursor.word, advance, ahead_eq]
  rfl

/-- The next word is read if it is there, and otherwise none is. -/
theorem optional_eq (cursor : Cursor) :
    cursor.optional = (cursor.ahead.head?, cursor.advance (min 1 cursor.remaining)) := by
  obtain ⟨base, behind, _ | ⟨word, rest⟩⟩ := cursor
  · rfl
  · have one : min 1 (rest.length + 1) = 1 := Nat.min_eq_left (Nat.succ_pos _)
    rw [remaining, List.length_cons, one]
    rfl

/-- Words are read if there are so many. -/
theorem take_of_le {count : ℕ} (enough : count ≤ cursor.remaining) :
    cursor.take count = .ok (cursor.ahead.take count, cursor.advance count) := by
  rw [Cursor.take, if_neg (Nat.not_lt.mpr enough)]

/-- The word ahead decides whether an instruction is read, and how far it reaches. -/
theorem nextInstruction_of_ahead (ahead_eq : cursor.ahead = word :: rest) :
    cursor.nextInstruction =
      let header := InstructionHeader.ofWord word
      if header.wordCount = 0 then
        .error (.malformed cursor.offset header.opcode .emptyCount)
      else if cursor.remaining < header.wordCount.toNat then
        .error (.malformed cursor.offset header.opcode
          (.overrun header.wordCount.toNat cursor.remaining))
      else
        .ok (⟨cursor.offset, header.opcode, rest.take header.operandCount⟩,
          cursor.advance header.wordCount.toNat) := by
  rw [nextInstruction, ahead_eq, cutInstruction, remaining, ahead_eq, List.length_cons]
  generalize InstructionHeader.ofWord word = header
  -- Operands are missing exactly if the header counts more words than are left.
  have short_iff : (rest.take header.operandCount).length < header.operandCount ↔
      rest.length + 1 < header.wordCount.toNat := by
    rw [List.length_take, InstructionHeader.operandCount]
    omega
  simp only [short_iff]
  split_ifs with empty short
  · rfl
  · rfl
  · have count_eq : header.wordCount.toNat = (rest.take header.operandCount).length + 1 := by
      have counted := InstructionHeader.wordCount_eq empty
      rw [List.length_take]
      omega
    rw [count_eq]
    rfl

/-! ## What operations come to -/

/-- Where an operation moves to, if it succeeds. -/
def Operation.target? (cursor : Cursor) : Operation → Option ℕ
  | .word => if 1 ≤ cursor.remaining then some (cursor.offset + 1) else none
  | .optional => some (cursor.offset + min 1 cursor.remaining)
  | .take count | .skip count =>
      if count.toNat ≤ cursor.remaining then some (cursor.offset + count.toNat) else none
  | .rest => some cursor.stop
  | .seek target =>
      if cursor.base ≤ target.toNat ∧ target.toNat ≤ cursor.stop then some target.toNat else none
  | .peekHeader => if 1 ≤ cursor.remaining then some cursor.offset else none
  | .nextInstruction => do
      let count := (InstructionHeader.ofWord (← cursor.ahead.head?)).wordCount.toNat
      if 1 ≤ count ∧ count ≤ cursor.remaining then some (cursor.offset + count) else none
  | .literalString =>
      if 0 ∈ bytesOfWords cursor.ahead then
        (textOfBytes? (bytesBeforeNul cursor.ahead)).map fun _ =>
          cursor.offset + stringWordCount (bytesBeforeNul cursor.ahead).length
      else none

/-- An instruction reaches as far as its header counts, if so many words are there. -/
theorem Operation.target?_nextInstruction {cursor : Cursor} {word : Word} {rest : List Word}
    (ahead_eq : cursor.ahead = word :: rest) :
    Operation.nextInstruction.target? cursor =
      let count := (InstructionHeader.ofWord word).wordCount.toNat
      if 1 ≤ count ∧ count ≤ cursor.remaining then some (cursor.offset + count) else none := by
  rw [target?, ahead_eq]
  rfl

/-- What the answer to an operation at some offset says of the words that were passed, and of those
that were ahead. -/
def Operation.Answers (offset : ℕ) (passed ahead : List Word) : Operation → Answer → Prop
  | .word, .word found => passed = [found]
  | .optional, .optional found => passed = found.toList
  | .take _, .words found | .rest, .words found => passed = found
  | .skip _, .moved | .seek _, .moved => True
  | .peekHeader, .header found => ∃ rest, ahead = found.toWord :: rest
  | .nextInstruction, .instruction found => found.offset = offset ∧ passed = found.words
  | .literalString, .text found => 0 ∉ found.toUTF8.toList ∧ ∃ padding, padding.length < 4 ∧
      bytesOfWords passed = found.toUTF8.toList ++ 0 :: padding
  | _, _ => False

/-- What comes of an operation. -/
inductive Yields (cursor : Cursor) : Operation → Except BinaryError Answer × Cursor → Prop
  /-- It passes the next words, and answers what they are. -/
  | reads {operation : Operation} {answer : Answer} {count : ℕ} (enough : count ≤ cursor.remaining)
      (target_eq : operation.target? cursor = some (cursor.offset + count))
      (answers : operation.Answers cursor.offset (cursor.ahead.take count) cursor.ahead answer) :
      cursor.Yields operation (.ok answer, cursor.advance count)
  /-- It moves to an offset. -/
  | seeks {target : UInt64} (from_base : cursor.base ≤ target.toNat)
      (to_stop : target.toNat ≤ cursor.stop) :
      cursor.Yields (.seek target)
        (.ok .moved, (ofWords cursor.words cursor.base).advance (target.toNat - cursor.base))
  /-- It fails and leaves the cursor where it was. -/
  | refuses {operation : Operation} {fault : BinaryError}
      (no_target : operation.target? cursor = none) :
      cursor.Yields operation (.error fault, cursor)
  /-- It fails for what it finds in the words that it passed. -/
  | misreads {fault : BinaryError} {count : ℕ} (enough : count ≤ cursor.remaining)
      (no_target : Operation.literalString.target? cursor = none) :
      cursor.Yields .literalString (.error fault, cursor.advance count)

/-- Without a word ahead nothing is left. -/
theorem not_one_le_remaining {cursor : Cursor} (ahead_eq : cursor.ahead = []) :
    ¬ 1 ≤ cursor.remaining := by
  rw [remaining, ahead_eq]
  decide

/-- With a word ahead there is one left. -/
theorem one_le_remaining {cursor : Cursor} {word : Word} {rest : List Word}
    (ahead_eq : cursor.ahead = word :: rest) : 1 ≤ cursor.remaining := by
  rw [remaining, ahead_eq]
  exact Nat.succ_pos _

section

variable (cursor : Cursor)

/-- Reading a word. -/
theorem yields_word : cursor.Yields .word (cursor.perform .word) := by
  cases ahead_eq : cursor.ahead with
  | nil =>
      have failed : cursor.word = .error (.endOfStream cursor.offset) := by
        rw [Cursor.word, ahead_eq]
      rw [perform, failed]
      exact .refuses (if_neg (not_one_le_remaining ahead_eq))
  | cons word rest =>
      have enough := one_le_remaining ahead_eq
      rw [perform, word_of_ahead ahead_eq]
      refine .reads enough (if_pos enough) ?_
      rw [ahead_eq]
      rfl

/-- Reading a word if there is one. -/
theorem yields_optional : cursor.Yields .optional (cursor.perform .optional) := by
  rw [perform, optional_eq]
  refine .reads (Nat.min_le_right _ _) rfl ?_
  change _ = _
  rw [remaining]
  cases cursor.ahead <;> rfl

/-- Reading a number of words. -/
theorem yields_take (count : UInt64) :
    cursor.Yields (.take count) (cursor.perform (.take count)) := by
  rw [perform]
  by_cases enough : count.toNat ≤ cursor.remaining
  · rw [take_of_le enough]
    exact .reads enough (if_pos enough) rfl
  · rw [Cursor.take, if_pos (Nat.not_le.mp enough)]
    exact .refuses (if_neg enough)

/-- Moving over a number of words. -/
theorem yields_skip (count : UInt64) :
    cursor.Yields (.skip count) (cursor.perform (.skip count)) := by
  rw [perform, skip]
  by_cases enough : count.toNat ≤ cursor.remaining
  · rw [take_of_le enough]
    exact .reads enough (if_pos enough) trivial
  · rw [Cursor.take, if_pos (Nat.not_le.mp enough)]
    exact .refuses (if_neg enough)

/-- Reading all words. -/
theorem yields_rest : cursor.Yields .rest (cursor.perform .rest) := by
  have found : cursor.rest = (cursor.ahead, cursor.advance cursor.remaining) :=
    congrArg (cursor.ahead, ·) cursor.drained_eq
  rw [perform, found]
  refine .reads (Nat.le_refl _) (congrArg some cursor.offset_add_remaining.symm) ?_
  exact List.take_length

/-- Moving to an offset. -/
theorem yields_seek (target : UInt64) :
    cursor.Yields (.seek target) (cursor.perform (.seek target)) := by
  have inside : cursor.base ≤ target.toNat ∧ target.toNat - cursor.base ≤ cursor.words.length ↔
      cursor.base ≤ target.toNat ∧ target.toNat ≤ cursor.stop := by
    rw [stop]
    omega
  rw [perform, seek]
  by_cases there : cursor.base ≤ target.toNat ∧ target.toNat ≤ cursor.stop
  · rw [if_pos (inside.mpr there)]
    exact .seeks there.1 there.2
  · rw [if_neg (mt inside.mp there)]
    exact .refuses (if_neg there)

/-- Looking at a header. -/
theorem yields_peekHeader : cursor.Yields .peekHeader (cursor.perform .peekHeader) := by
  rw [perform, peekHeader]
  cases ahead_eq : cursor.ahead with
  | nil =>
      exact .refuses (if_neg (not_one_le_remaining ahead_eq))
  | cons word rest =>
      have enough := one_le_remaining ahead_eq
      refine .reads (Nat.zero_le _) (if_pos enough) ⟨rest, ?_⟩
      rw [ahead_eq, InstructionHeader.toWord_ofWord]

/-- Reading an instruction. -/
theorem yields_nextInstruction :
    cursor.Yields .nextInstruction (cursor.perform .nextInstruction) := by
  rw [perform]
  cases ahead_eq : cursor.ahead with
  | nil =>
      have failed : cursor.nextInstruction = .error (.endOfStream cursor.offset) := by
        rw [nextInstruction, ahead_eq]
        rfl
      rw [failed]
      refine .refuses ?_
      rw [Operation.target?, ahead_eq]
      rfl
  | cons word rest =>
      have target_eq := Operation.target?_nextInstruction ahead_eq
      have found := nextInstruction_of_ahead ahead_eq
      have word_eq := InstructionHeader.toWord_ofWord word
      generalize InstructionHeader.ofWord word = header at target_eq found word_eq
      simp only at target_eq found
      rw [found]
      split_ifs with empty short
      · refine .refuses (target_eq.trans (if_neg ?_))
        rw [empty]
        exact fun within => absurd within.1 (by decide)
      · exact .refuses
          (target_eq.trans (if_neg fun within => absurd short (Nat.not_lt.mpr within.2)))
      · have count_eq := InstructionHeader.wordCount_eq empty
        have enough : header.wordCount.toNat ≤ cursor.remaining := Nat.not_lt.mp short
        refine .reads enough (target_eq.trans (if_pos ⟨by omega, enough⟩)) ⟨rfl, ?_⟩
        rw [remaining, ahead_eq, List.length_cons] at enough
        have length_eq : (rest.take header.operandCount).length = header.operandCount :=
          List.length_take_of_le (by omega)
        -- The header of an instruction that is read counts the words that it takes.
        rw [Instruction.words, Instruction.wordCount, length_eq, Nat.add_comm, ← count_eq,
          UInt16.ofNat_toNat, ahead_eq, count_eq, Nat.add_comm, List.take_succ_cons, word_eq]

/-- Reading a string. -/
theorem yields_literalString : cursor.Yields .literalString (cursor.perform .literalString) := by
  rw [perform, literalString_eq]
  by_cases terminated : 0 ∈ bytesOfWords cursor.ahead
  · obtain ⟨enough, padding, consumed, -⟩ := exists_padding terminated
    rw [if_pos terminated]
    cases decoded : textOfBytes? (bytesBeforeNul cursor.ahead) with
    | some text =>
        have text_eq := toUTF8_of_textOfBytes? decoded
        have length_eq := congrArg List.length consumed
        rw [length_bytesOfWords, List.length_take_of_le enough, List.length_append,
          List.length_cons, stringWordCount] at length_eq
        refine .reads enough ?_ ⟨?_, padding, by omega, text_eq ▸ consumed⟩
        · rw [Operation.target?, if_pos terminated, decoded]
          rfl
        · rw [text_eq]
          exact fun mem => absurd (List.mem_takeWhile_imp mem) (by decide)
    | none =>
        refine .misreads enough ?_
        rw [Operation.target?, if_pos terminated, decoded]
        rfl
  · rw [if_neg terminated, drained_eq]
    exact .misreads (Nat.le_refl _) (if_neg terminated)

/-- Every operation comes to one of the four. -/
theorem perform_yields (operation : Operation) :
    cursor.Yields operation (cursor.perform operation) := by
  cases operation with
  | word => exact cursor.yields_word
  | optional => exact cursor.yields_optional
  | take count => exact cursor.yields_take count
  | skip count => exact cursor.yields_skip count
  | rest => exact cursor.yields_rest
  | seek target => exact cursor.yields_seek target
  | peekHeader => exact cursor.yields_peekHeader
  | nextInstruction => exact cursor.yields_nextInstruction
  | literalString => exact cursor.yields_literalString

end

namespace Yields

variable {cursor next : Cursor} {operation : Operation} {outcome : Except BinaryError Answer}

/-- An operation keeps the cursor over its words. -/
theorem stays (yields : cursor.Yields operation (outcome, next)) :
    next.base = cursor.base ∧ next.words = cursor.words := by
  cases yields with
  | reads | misreads => exact ⟨rfl, words_advance _ _⟩
  | seeks => exact ⟨rfl, words_advance _ _⟩
  | refuses => exact ⟨rfl, rfl⟩

/-- An operation keeps where the words end. -/
theorem stop_eq (yields : cursor.Yields operation (outcome, next)) : next.stop = cursor.stop := by
  obtain ⟨base_eq, words_eq⟩ := yields.stays
  rw [stop, stop, base_eq, words_eq]

/-- An operation succeeds exactly if there is an offset to move to, and moves to that. -/
theorem target?_eq_some_iff (yields : cursor.Yields operation (outcome, next)) {target : ℕ} :
    operation.target? cursor = some target ↔
      (∃ answer, outcome = .ok answer) ∧ next.offset = target := by
  cases yields with
  | reads enough target_eq =>
      rw [target_eq, Option.some.injEq, offset_advance _ enough]
      exact (and_iff_right ⟨_, rfl⟩).symm
  | @seeks sought from_base to_stop =>
      have there : Operation.target? cursor (.seek sought) = some sought.toNat :=
        if_pos ⟨from_base, to_stop⟩
      have inside : sought.toNat - cursor.base ≤ cursor.words.length := by
        rw [stop] at to_stop
        omega
      rw [there, Option.some.injEq, cursor.offset_ofWords_advance from_base inside]
      exact (and_iff_right ⟨_, rfl⟩).symm
  | refuses no_target | misreads _ no_target =>
      rw [no_target]
      exact iff_of_false nofun fun ⟨⟨_, succeeded⟩, _⟩ => nomatch succeeded

/-- An operation that fails leaves the cursor where it was, unless it reads a string. -/
theorem eq_of_error {fault : BinaryError} (yields : cursor.Yields operation (.error fault, next))
    (other : operation ≠ .literalString) : next = cursor := by
  cases yields with
  | refuses => rfl
  | misreads => exact absurd rfl other

/-- An operation that succeeds answers what it passes. -/
theorem answers {answer : Answer} (yields : cursor.Yields operation (.ok answer, next)) :
    operation.Answers cursor.offset (cursor.between cursor.offset next.offset)
      (cursor.between cursor.offset cursor.stop) answer := by
  cases yields with
  | reads enough _ answers =>
      rwa [offset_advance _ enough, between_offset, between_offset_stop]
  | seeks => trivial

end Yields

end Cursor

end ShaderMachine
