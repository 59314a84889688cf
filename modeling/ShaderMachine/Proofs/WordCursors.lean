import ShaderMachine.Binary.WordCursor
import ShaderMachine.Proofs.CursorOperations

/-! # Cursors over memory do not stop

A cursor over memory whose index is not behind the end of its slice, and whose offsets are numbers
of 64 bits, never stops the program. It is a position between the words in front of its index and
the others, and every operation on it comes to what the operation on that position comes to.

* **`WordCursor.IsValid`** — an index in the slice, and offsets that are numbers of 64 bits.
* **`WordCursor.view`** — the words behind a cursor, and those ahead of it.
* **`WordCursor.IsMoved`** — a cursor is some words further than another one.
* **`WordCursor.exists_performs`** — operations do not stop, and mirror those on the view. -/

namespace ShaderMachine

/-! ## Slices -/

namespace WordSlice

variable {slice : WordSlice}

/-- The length is the number of words. -/
@[simp] theorem toNat_length (slice : WordSlice) : slice.length.toNat = slice.words.length :=
  UInt64.toNat_ofNatLT

/-- Part of a slice is there if its ends are in order and in the slice. -/
theorem exists_part (slice : WordSlice) {first last : UInt64} (ordered : first.toNat ≤ last.toNat)
    (inside : last.toNat ≤ slice.words.length) :
    ∃ part, slice.part first last = .ok part ∧
      part.words = (slice.words.drop first.toNat).take (last.toNat - first.toNat) := by
  have within : first ≤ last ∧ last ≤ slice.length := by
    rw [UInt64.le_iff_toNat_le, UInt64.le_iff_toNat_le, toNat_length]
    exact ⟨ordered, inside⟩
  exact ⟨_, if_pos within, rfl⟩

end WordSlice

namespace WordCursor

/-! ## Positions -/

/-- The position between the words in front of a cursor's index and the others. -/
def view (cursor : WordCursor) : Cursor :=
  (Cursor.ofWords cursor.slice.words cursor.base.toNat).advance cursor.position.toNat

/-- Whether the index of a cursor is in its slice or at its end, and all its offsets are numbers of
64 bits. -/
structure IsValid (cursor : WordCursor) : Prop where
  /-- The index is not behind the end. -/
  position_le : cursor.position.toNat ≤ cursor.slice.words.length
  /-- The offset of the end is a number of 64 bits. -/
  stop_lt : cursor.base.toNat + cursor.slice.words.length < UInt64.size

/-- The cursor at the first word is valid if the offset behind the last one is a number of 64 bits.
-/
theorem isValid_ofSlice {slice : WordSlice} {base : UInt64}
    (fits : base.toNat + slice.words.length < UInt64.size) : (ofSlice slice base).IsValid :=
  ⟨Nat.zero_le _, fits⟩

/-- The first word is in front of all words. -/
@[simp] theorem view_ofSlice (slice : WordSlice) (base : UInt64) :
    (ofSlice slice base).view = Cursor.ofWords slice.words base.toNat :=
  rfl

/-- The words of the position are those of the slice. -/
@[simp] theorem words_view (cursor : WordCursor) : cursor.view.words = cursor.slice.words :=
  Cursor.words_advance _ _

/-- The words behind the index are ahead. -/
theorem ahead_view (cursor : WordCursor) :
    cursor.view.ahead = cursor.slice.words.drop cursor.position.toNat :=
  rfl

/-- As many words are ahead as are behind the index. -/
theorem remaining_view (cursor : WordCursor) :
    cursor.view.remaining = cursor.slice.words.length - cursor.position.toNat :=
  List.length_drop

/-- The offset of the end is that of the slice. -/
theorem stop_view (cursor : WordCursor) :
    cursor.view.stop = cursor.base.toNat + cursor.slice.words.length := by
  rw [Cursor.stop, words_view]
  rfl

/-- The word at the index is the next one. -/
theorem get?_position (cursor : WordCursor) :
    cursor.slice.get? cursor.position = cursor.view.ahead.head? := by
  rw [ahead_view, List.head?_drop, WordSlice.get?]

/-- Whether a cursor is a number of words further than another one in the same slice. -/
structure IsMoved (next cursor : WordCursor) (count : ℕ) : Prop where
  /-- It has the same words. -/
  slice_eq : next.slice = cursor.slice
  /-- They have the same offsets. -/
  base_eq : next.base = cursor.base
  /-- Its index is greater by that number. -/
  position_eq : next.position.toNat = cursor.position.toNat + count

namespace IsMoved

variable {cursor next last : WordCursor} {count further : ℕ}

/-- A cursor has not moved from itself. -/
theorem refl (cursor : WordCursor) : cursor.IsMoved cursor 0 :=
  ⟨rfl, rfl, rfl⟩

/-- Two moves are one. -/
theorem trans (first : next.IsMoved cursor count) (second : last.IsMoved next further) :
    last.IsMoved cursor (count + further) :=
  ⟨second.slice_eq.trans first.slice_eq, second.base_eq.trans first.base_eq, by
    rw [second.position_eq, first.position_eq, Nat.add_assoc]⟩

/-- Moving a cursor moves over the words ahead. -/
theorem view_eq (moved : next.IsMoved cursor count) : next.view = cursor.view.advance count := by
  rw [view, moved.slice_eq, moved.base_eq, moved.position_eq, view, Cursor.advance_advance]

/-- The words moved over are not ahead any more. -/
theorem remaining_eq (moved : next.IsMoved cursor count) :
    next.view.remaining = cursor.view.remaining - count := by
  rw [remaining_view, moved.slice_eq, moved.position_eq, remaining_view, Nat.sub_sub]

/-- A cursor that moves over words that are there stays valid. -/
theorem isValid (moved : next.IsMoved cursor count) (valid : cursor.IsValid)
    (enough : count ≤ cursor.view.remaining) : next.IsValid := by
  have position_le := valid.position_le
  rw [remaining_view] at enough
  refine ⟨?_, ?_⟩
  · rw [moved.position_eq, moved.slice_eq]
    omega
  · rw [moved.base_eq, moved.slice_eq]
    exact valid.stop_lt

end IsMoved

section

variable {cursor : WordCursor} (valid : cursor.IsValid)

include valid

/-- The offset of the next word is that of the position. -/
theorem offset_view : cursor.view.offset = cursor.base.toNat + cursor.position.toNat :=
  Cursor.offset_advance _ valid.position_le

/-- The offset is a number of 64 bits. -/
theorem exists_offset :
    ∃ offset, cursor.offset = .ok offset ∧ offset.toNat = cursor.view.offset := by
  rw [offset_view valid]
  exact checkedAdd_of_lt
    (Nat.lt_of_le_of_lt (Nat.add_le_add_left valid.position_le _) valid.stop_lt)

/-- The number of words ahead is not negative. -/
theorem exists_remaining :
    ∃ left, cursor.remaining = .ok left ∧ left.toNat = cursor.view.remaining := by
  rw [remaining_view, ← WordSlice.toNat_length]
  exact checkedSub_of_le (valid.position_le.trans_eq (WordSlice.toNat_length _).symm)

/-- An index further on, but not behind the end, is a number of 64 bits. -/
theorem exists_position (count : UInt64) (enough : count.toNat ≤ cursor.view.remaining) :
    ∃ last, checkedAdd cursor.position count = .ok last ∧
      IsMoved { cursor with position := last } cursor count.toNat := by
  have position_le := valid.position_le
  have length_lt := cursor.slice.length_lt
  rw [remaining_view] at enough
  have fits : cursor.position.toNat + count.toNat < UInt64.size := by omega
  obtain ⟨last, sum, sum_eq⟩ := checkedAdd_of_lt fits
  exact ⟨last, sum, rfl, rfl, sum_eq⟩

/-! ## Readings -/

/-- No word is read at the end. -/
theorem word_of_nil (ahead_eq : cursor.view.ahead = []) :
    cursor.word = .ok (.error (.endOfStream cursor.view.offset), cursor) := by
  obtain ⟨offset, offset_eq, toNat_eq⟩ := exists_offset valid
  rw [word, offset_eq, get?_position, ahead_eq, ← toNat_eq]
  rfl

/-- The next word is read if it is there. -/
theorem word_of_cons {found : Word} {rest : List Word}
    (ahead_eq : cursor.view.ahead = found :: rest) :
    ∃ next, cursor.word = .ok (.ok found, next) ∧ next.IsMoved cursor 1 := by
  obtain ⟨offset, offset_eq, -⟩ := exists_offset valid
  obtain ⟨last, sum, moved⟩ := exists_position valid 1 (Cursor.one_le_remaining ahead_eq)
  refine ⟨_, ?_, moved⟩
  rw [word, offset_eq, get?_position, ahead_eq]
  simp only [List.head?_cons, bind, Except.bind, sum]
  rfl

/-- Words are read if there are so many. -/
theorem exists_take (count : UInt64) (enough : count.toNat ≤ cursor.view.remaining) :
    ∃ part next, cursor.take count = .ok (.ok part, next) ∧
      part.words = cursor.view.ahead.take count.toNat ∧ next.IsMoved cursor count.toNat := by
  obtain ⟨left, left_eq, left_toNat⟩ := exists_remaining valid
  obtain ⟨last, sum, moved⟩ := exists_position valid count enough
  have valid' := moved.isValid valid enough
  have ordered : cursor.position.toNat ≤ last.toNat :=
    moved.position_eq ▸ Nat.le_add_right _ _
  obtain ⟨part, part_eq, words_eq⟩ := cursor.slice.exists_part ordered valid'.position_le
  have not_short : ¬ left < count := by
    rw [UInt64.lt_iff_toNat_lt, left_toNat]
    exact Nat.not_lt.mpr enough
  refine ⟨part, _, ?_, ?_, moved⟩
  · rw [take, left_eq]
    simp only [bind, Except.bind, if_neg not_short, sum, part_eq]
    rfl
  · rw [words_eq, moved.position_eq, Nat.add_sub_cancel_left, ahead_view]

/-- Words are not read if there are fewer. -/
theorem take_of_lt {count : UInt64} (short : cursor.view.remaining < count.toNat) :
    cursor.take count =
      .ok (.error (.endOfStream (cursor.view.offset + cursor.view.remaining)), cursor) := by
  obtain ⟨left, left_eq, left_toNat⟩ := exists_remaining valid
  have fits : cursor.base.toNat + cursor.slice.length.toNat < UInt64.size := by
    rw [WordSlice.toNat_length]
    exact valid.stop_lt
  obtain ⟨stop, stop_eq, stop_toNat⟩ := checkedAdd_of_lt fits
  have is_short : left < count := by
    rw [UInt64.lt_iff_toNat_lt, left_toNat]
    exact short
  rw [take, left_eq, Cursor.offset_add_remaining, stop_view]
  simp only [bind, Except.bind, if_pos is_short, stop_eq, stop_toNat, WordSlice.toNat_length]
  rfl

/-- All words ahead are read. -/
theorem exists_rest : ∃ part next, cursor.rest = .ok (part, next) ∧ part.words = cursor.view.ahead ∧
    next.IsMoved cursor cursor.view.remaining := by
  have position_le := valid.position_le
  have ordered : cursor.position.toNat ≤ cursor.slice.length.toNat :=
    position_le.trans_eq (WordSlice.toNat_length _).symm
  obtain ⟨part, part_eq, words_eq⟩ :=
    cursor.slice.exists_part ordered (WordSlice.toNat_length _).le
  refine ⟨part, { cursor with position := cursor.slice.length }, ?_, ?_, rfl, rfl,
    (?_ : cursor.slice.length.toNat = _)⟩
  · rw [rest, part_eq]
    rfl
  · rw [words_eq, WordSlice.toNat_length, ← remaining_view, ahead_view]
    exact List.take_length
  · rw [WordSlice.toNat_length, remaining_view]
    omega

/-- The next word is looked at as a header. -/
theorem peekHeader_eq : cursor.peekHeader = .ok cursor.view.peekHeader := by
  obtain ⟨offset, offset_eq, toNat_eq⟩ := exists_offset valid
  rw [peekHeader, offset_eq, get?_position, Cursor.peekHeader, ← toNat_eq]
  cases cursor.view.ahead <;> rfl

/-- The offset of the end is a number of 64 bits. -/
theorem offset_add_remaining_lt : cursor.view.offset + cursor.view.remaining < UInt64.size := by
  rw [Cursor.offset_add_remaining, stop_view]
  exact valid.stop_lt

/-! ## Instructions -/

/-- Whether a header at an offset, a cursor over operands and the cursor behind them are those of
the instruction at a cursor. -/
structure IsInstruction (cursor : WordCursor) (header : InstructionHeader) (offset : UInt64)
    (operands next : WordCursor) : Prop where
  /-- The header is the word at the cursor. -/
  header_eq : cursor.slice.get? cursor.position = some header.toWord
  /-- It counts itself. -/
  counted : header.wordCount ≠ 0
  /-- There are as many words as it counts. -/
  enough : header.wordCount.toNat ≤ cursor.view.remaining
  /-- The offset is that of the header. -/
  offset_eq : offset.toNat = cursor.view.offset
  /-- The cursor over the operands is at the first of them. -/
  position_eq : operands.position = 0
  /-- They start behind the header. -/
  base_eq : operands.base.toNat = cursor.view.offset + 1
  /-- They are the words there, as many as the header counts. -/
  words_eq : operands.slice.words = cursor.view.ahead.tail.take header.operandCount
  /-- The cursor behind them is as many words further as the header counts. -/
  moved : next.IsMoved cursor header.wordCount.toNat

namespace IsInstruction

variable {header : InstructionHeader} {offset : UInt64} {operands next : WordCursor}

omit valid in
/-- There are as many operands as the header counts besides itself. -/
theorem length_eq (is : cursor.IsInstruction header offset operands next) :
    operands.slice.words.length = header.operandCount := by
  have enough : header.wordCount.toNat ≤ cursor.view.ahead.length := is.enough
  rw [is.words_eq, List.length_take, List.length_tail, InstructionHeader.operandCount]
  omega

omit valid in
/-- The cursor over the operands is that over those of an instruction. -/
theorem view_eq (is : cursor.IsInstruction header offset operands next) :
    operands.view = Instruction.cursor ⟨offset.toNat, header.opcode, operands.slice.words⟩ := by
  rw [view, is.position_eq, is.base_eq, ← is.offset_eq]
  rfl

/-- The cursor over the operands is valid. -/
theorem isValid (is : cursor.IsInstruction header offset operands next) : operands.IsValid := by
  have stop_lt := offset_add_remaining_lt valid
  have count_eq := InstructionHeader.wordCount_eq is.counted
  have enough := is.enough
  refine ⟨?_, ?_⟩
  · rw [is.position_eq]
    exact Nat.zero_le _
  · rw [is.base_eq, is.length_eq]
    omega

end IsInstruction

/-- No instruction is read where the position has none. -/
theorem nextInstruction_of_error {fault : BinaryError}
    (failed : cursor.view.nextInstruction = .error fault) :
    cursor.nextInstruction = .ok (.error fault, cursor) := by
  obtain ⟨offset, offset_eq, offset_toNat⟩ := exists_offset valid
  obtain ⟨left, left_eq, left_toNat⟩ := exists_remaining valid
  have peeked := peekHeader_eq valid
  rw [Cursor.peekHeader] at peeked
  rw [nextInstruction]
  simp only [bind, Except.bind, offset_eq, left_eq, peeked]
  cases ahead_eq : cursor.view.ahead with
  | nil =>
      rw [Cursor.nextInstruction, ahead_eq] at failed
      cases failed
      rfl
  | cons word rest =>
      rw [Cursor.nextInstruction_of_ahead ahead_eq, ← offset_toNat, ← left_toNat] at failed
      simp only at failed ⊢
      -- The header counts no words at all, or more than are left.
      split_ifs at failed with empty short
      · cases failed
        rw [if_pos empty]
        rfl
      · cases failed
        rw [← UInt16.toNat_toUInt64, ← UInt64.lt_iff_toNat_lt] at short
        rw [if_neg empty, if_pos short]
        rfl

/-- An instruction is read if its header counts as many words as there are. -/
theorem exists_nextInstruction {word : Word} {rest : List Word} {header : InstructionHeader}
    (ahead_eq : cursor.view.ahead = word :: rest) (header_eq : .ofWord word = header)
    (counted : header.wordCount ≠ 0) (enough : header.wordCount.toNat ≤ cursor.view.remaining) :
    ∃ offset operands next, cursor.nextInstruction = .ok (.ok (header, offset, operands), next) ∧
      cursor.IsInstruction header offset operands next := by
  have stop_lt := offset_add_remaining_lt valid
  have one_le := Cursor.one_le_remaining ahead_eq
  have count_eq := InstructionHeader.wordCount_eq counted
  have operands_toNat : (UInt64.ofNat header.operandCount).toNat = header.operandCount :=
    UInt64.toNat_ofNat_of_lt' (by omega)
  obtain ⟨offset, offset_eq, offset_toNat⟩ := exists_offset valid
  obtain ⟨left, left_eq, left_toNat⟩ := exists_remaining valid
  have not_short : ¬ left < header.wordCount.toUInt64 := by
    rw [UInt64.lt_iff_toNat_lt, left_toNat, UInt16.toNat_toUInt64]
    exact Nat.not_lt.mpr enough
  have peeked : cursor.peekHeader = .ok (.ok header) := by
    rw [peekHeader_eq valid, Cursor.peekHeader, ahead_eq, ← header_eq]
  -- None of the sums is too large: behind the header there are still the operands.
  obtain ⟨behind, sum, moved⟩ := exists_position valid 1 one_le
  have behind_valid := moved.isValid valid one_le
  generalize behind_eq : { cursor with position := behind } = operand at moved behind_valid
  have left_of_operand : operand.view.remaining = cursor.view.remaining - 1 := moved.remaining_eq
  have ahead_of_operand : operand.view.ahead = cursor.view.ahead.tail := by
    rw [moved.view_eq, Cursor.advance]
    exact List.drop_one
  obtain ⟨operands, next, taken, words_eq, moved'⟩ :=
    exists_take behind_valid (.ofNat header.operandCount) (by rw [operands_toNat]; omega)
  rw [operands_toNat] at words_eq moved'
  have fits : offset.toNat + (1 : UInt64).toNat < UInt64.size := by
    change offset.toNat + 1 < _
    omega
  obtain ⟨start, start_eq, start_toNat⟩ := checkedAdd_of_lt fits
  refine ⟨offset, ofSlice operands start, next, ?_, ?_, counted, enough, offset_toNat, rfl, ?_, ?_,
    count_eq ▸ moved.trans moved'⟩
  · rw [nextInstruction]
    simp only [bind, Except.bind, offset_eq, peeked, if_neg counted, left_eq, if_neg not_short, sum,
      behind_eq, taken, start_eq]
    rfl
  · rw [get?_position, ahead_eq, ← header_eq, InstructionHeader.toWord_ofWord]
    rfl
  · rw [← offset_toNat]
    exact start_toNat
  · rw [← ahead_of_operand]
    exact words_eq

/-- An instruction is read where the position has one, and nowhere else. -/
theorem nextInstruction_cases :
    (∃ fault, cursor.nextInstruction = .ok (.error fault, cursor) ∧
      cursor.view.nextInstruction = .error fault) ∨
    ∃ header offset operands next,
      cursor.nextInstruction = .ok (.ok (header, offset, operands), next) ∧
      cursor.IsInstruction header offset operands next ∧
      cursor.view.nextInstruction = .ok (⟨offset.toNat, header.opcode, operands.slice.words⟩,
        cursor.view.advance header.wordCount.toNat) := by
  cases view_read : cursor.view.nextInstruction with
  | error fault => exact .inl ⟨fault, nextInstruction_of_error valid view_read, rfl⟩
  | ok pair =>
      cases ahead_eq : cursor.view.ahead with
      | nil =>
          rw [Cursor.nextInstruction, ahead_eq] at view_read
          cases view_read
      | cons word rest =>
          have found := Cursor.nextInstruction_of_ahead ahead_eq
          rw [view_read] at found
          generalize header_eq : InstructionHeader.ofWord word = header at found
          simp only at found
          split_ifs at found with empty short
          cases found
          obtain ⟨offset, operands, next, read, is⟩ :=
            exists_nextInstruction valid ahead_eq header_eq empty (Nat.not_lt.mp short)
          have words_eq := is.words_eq
          rw [ahead_eq, List.tail_cons] at words_eq
          refine .inr ⟨header, offset, operands, next, read, is, ?_⟩
          rw [is.offset_eq, words_eq]

end

/-! ## Strings -/

section

variable {cursor next : WordCursor} {start : UInt64} {found : Bytes} {word : Word}

/-- A string ends where no word is read. -/
theorem stringFrom_of_error {fault : BinaryError} (read : cursor.word = .ok (.error fault, next)) :
    cursor.stringFrom start found = .ok (.error (.unterminatedString start.toNat), next) := by
  rw [stringFrom]
  split
  all_goals rename_i read'; rw [read] at read'; cases read'
  rfl

/-- A word without a NUL is all part of a string. -/
theorem stringFrom_of_endless (read : cursor.word = .ok (.ok word, next))
    (endless : 0 ∉ word.bytes) :
    cursor.stringFrom start found = next.stringFrom start (found ++ word.bytes) := by
  have dropped : word.bytes.dropWhile (· != 0) = [] :=
    List.dropWhile_eq_nil_iff.mpr fun _ mem => bne_iff_ne.mpr (ne_of_mem_of_not_mem mem endless)
  rw [stringFrom]
  split
  all_goals rename_i read'; rw [read] at read'; cases read'
  rw [List.span_eq_takeWhile_dropWhile, dropped, takeWhile_of_no_nul endless]

/-- A word with a NUL is the last one of a string. -/
theorem stringFrom_of_mem (read : cursor.word = .ok (.ok word, next))
    (terminated : 0 ∈ word.bytes) :
    cursor.stringFrom start found =
      .ok (stringOfBytes start (found ++ word.bytes.takeWhile (· != 0)), next) := by
  obtain ⟨behind, word_eq⟩ := exists_behind_nul terminated
  have dropped : word.bytes.dropWhile (· != 0) = 0 :: behind :=
    List.append_cancel_left (List.takeWhile_append_dropWhile.trans word_eq)
  rw [stringFrom]
  split
  all_goals rename_i read'; rw [read] at read'; cases read'
  rw [List.span_eq_takeWhile_dropWhile, dropped]

/-- Words are read as the bytes of a string up to the first one that has a NUL. -/
theorem exists_stringFrom (valid : cursor.IsValid) (start : UInt64) (found : Bytes) :
    ∃ outcome next, cursor.stringFrom start found = .ok (outcome, next) ∧
      if 0 ∈ bytesOfWords cursor.view.ahead then
        outcome = stringOfBytes start (found ++ bytesBeforeNul cursor.view.ahead) ∧
          next.IsMoved cursor (stringWordCount (bytesBeforeNul cursor.view.ahead).length)
      else
        outcome = .error (.unterminatedString start.toNat) ∧
          next.IsMoved cursor cursor.view.remaining := by
  generalize words_eq : cursor.view.ahead = words
  induction words generalizing cursor found with
  | nil =>
      refine ⟨_, cursor, stringFrom_of_error (word_of_nil valid words_eq), ?_⟩
      rw [Cursor.remaining, words_eq]
      exact ⟨rfl, .refl cursor⟩
  | cons word words hyp =>
      obtain ⟨next, read, moved⟩ := word_of_cons valid words_eq
      by_cases here : 0 ∈ word.bytes
      · obtain ⟨text_eq, short⟩ := bytesBeforeNul_cons_of_mem here words
        refine ⟨_, next, stringFrom_of_mem read here, ?_⟩
        rw [if_pos (by rw [bytesOfWords_cons]; exact List.mem_append_left _ here), text_eq,
          stringWordCount, Nat.div_eq_of_lt short]
        exact ⟨rfl, moved⟩
      · -- The string goes on in the words behind this one.
        have enough := Cursor.one_le_remaining words_eq
        have ahead_eq : next.view.ahead = words := by
          rw [moved.view_eq, Cursor.advance, words_eq]
          rfl
        obtain ⟨outcome, last, goes_on, comes_to⟩ :=
          hyp (moved.isValid valid enough) (found ++ word.bytes) ahead_eq
        refine ⟨outcome, last, (stringFrom_of_endless read here).trans goes_on, ?_⟩
        have later : 0 ∈ bytesOfWords (word :: words) ↔ 0 ∈ bytesOfWords words := by
          rw [bytesOfWords_cons, List.mem_append, or_iff_right here]
        have one_more : stringWordCount (bytesBeforeNul (word :: words)).length =
            1 + stringWordCount (bytesBeforeNul words).length := by
          rw [bytesBeforeNul_cons here, List.length_append, Word.length_bytes, stringWordCount,
            stringWordCount]
          omega
        rw [one_more, bytesBeforeNul_cons here, ← List.append_assoc]
        rw [moved.remaining_eq] at comes_to
        simp only [later]
        split_ifs at comes_to ⊢
        · exact ⟨comes_to.1, moved.trans comes_to.2⟩
        · refine ⟨comes_to.1, ?_⟩
          rw [← Nat.add_sub_of_le enough]
          exact moved.trans comes_to.2

end

/-! ## Operations -/

/-- What comes of an operation that does not stop: the cursor stays valid and over its words, and it
and the answer are what the operation on the view comes to. -/
structure Performs (cursor : WordCursor) (operation : Cursor.Operation)
    (outcome : Except BinaryError Answer) (next : WordCursor) : Prop where
  /-- It does not stop. -/
  performed : cursor.perform operation = .ok (outcome, next)
  /-- The cursor stays valid. -/
  valid : next.IsValid
  /-- It stays over its words. -/
  stays : next.slice = cursor.slice ∧ next.base = cursor.base
  /-- It is where the operation on the view leads, with the same answer. -/
  view_eq : cursor.view.perform operation = (outcome.map Answer.content, next.view)

variable {cursor : WordCursor}

/-- An operation that moves over words that are there, as the one on the view does. -/
theorem Performs.of_moved {operation : Cursor.Operation} {outcome : Except BinaryError Answer}
    {next : WordCursor} {count : ℕ} (valid : cursor.IsValid)
    (performed : cursor.perform operation = .ok (outcome, next)) (moved : next.IsMoved cursor count)
    (enough : count ≤ cursor.view.remaining)
    (view_eq : cursor.view.perform operation =
      (outcome.map Answer.content, cursor.view.advance count)) :
    cursor.Performs operation outcome next :=
  ⟨performed, moved.isValid valid enough, ⟨moved.slice_eq, moved.base_eq⟩,
    moved.view_eq.symm ▸ view_eq⟩

/-- An operation that does not move, as the one on the view does not. -/
theorem Performs.of_stays {operation : Cursor.Operation} {outcome : Except BinaryError Answer}
    (valid : cursor.IsValid) (performed : cursor.perform operation = .ok (outcome, cursor))
    (view_eq : cursor.view.perform operation = (outcome.map Answer.content, cursor.view)) :
    cursor.Performs operation outcome cursor :=
  ⟨performed, valid, ⟨rfl, rfl⟩, view_eq⟩

section

variable (valid : cursor.IsValid)

include valid

/-- Reading a word. -/
theorem performs_word : ∃ outcome next, cursor.Performs .word outcome next := by
  cases ahead_eq : cursor.view.ahead with
  | nil =>
      refine ⟨.error (.endOfStream cursor.view.offset), cursor, .of_stays valid ?_ ?_⟩
      · rw [perform, word_of_nil valid ahead_eq]
        rfl
      · rw [Cursor.perform, Cursor.word, ahead_eq]
        rfl
  | cons found rest =>
      obtain ⟨next, read, moved⟩ := word_of_cons valid ahead_eq
      refine ⟨.ok (.word found), next,
        .of_moved valid ?_ moved (Cursor.one_le_remaining ahead_eq) ?_⟩
      · rw [perform, read]
        rfl
      · rw [Cursor.perform, Cursor.word_of_ahead ahead_eq]
        rfl

/-- Reading a word if there is one. -/
theorem performs_optional : ∃ outcome next, cursor.Performs .optional outcome next := by
  cases ahead_eq : cursor.view.ahead with
  | nil =>
      refine ⟨.ok (.optional none), _, .of_stays valid ?_ ?_⟩
      · rw [perform, optional, word_of_nil valid ahead_eq]
        rfl
      · rw [Cursor.perform, Cursor.optional, ahead_eq]
        rfl
  | cons found rest =>
      obtain ⟨next, read, moved⟩ := word_of_cons valid ahead_eq
      have enough := Cursor.one_le_remaining ahead_eq
      refine ⟨.ok (.optional (some found)), next, .of_moved valid ?_ moved enough ?_⟩
      · rw [perform, optional, read]
        rfl
      · rw [Cursor.perform, Cursor.optional_eq, ahead_eq, Nat.min_eq_left enough]
        rfl

/-- Reading a number of words. -/
theorem performs_take (count : UInt64) :
    ∃ outcome next, cursor.Performs (.take count) outcome next := by
  by_cases enough : count.toNat ≤ cursor.view.remaining
  · obtain ⟨part, next, read, words_eq, moved⟩ := exists_take valid count enough
    refine ⟨.ok (.words part), next, .of_moved valid ?_ moved enough ?_⟩
    · rw [perform, read]
      rfl
    · rw [Cursor.perform, Cursor.take_of_le enough, ← words_eq]
      rfl
  · refine ⟨.error (.endOfStream (cursor.view.offset + cursor.view.remaining)), cursor,
      .of_stays valid ?_ ?_⟩
    · rw [perform, take_of_lt valid (Nat.not_le.mp enough)]
      rfl
    · rw [Cursor.perform, Cursor.take, if_pos (Nat.not_le.mp enough)]
      rfl

/-- Moving over a number of words. -/
theorem performs_skip (count : UInt64) :
    ∃ outcome next, cursor.Performs (.skip count) outcome next := by
  by_cases enough : count.toNat ≤ cursor.view.remaining
  · obtain ⟨part, next, read, -, moved⟩ := exists_take valid count enough
    refine ⟨.ok .moved, next, .of_moved valid ?_ moved enough ?_⟩
    · rw [perform, skip, read]
      rfl
    · rw [Cursor.perform, Cursor.skip, Cursor.take_of_le enough]
      rfl
  · refine ⟨.error (.endOfStream (cursor.view.offset + cursor.view.remaining)), cursor,
      .of_stays valid ?_ ?_⟩
    · rw [perform, skip, take_of_lt valid (Nat.not_le.mp enough)]
      rfl
    · rw [Cursor.perform, Cursor.skip, Cursor.take, if_pos (Nat.not_le.mp enough)]
      rfl

/-- Reading all words. -/
theorem performs_rest : ∃ outcome next, cursor.Performs .rest outcome next := by
  obtain ⟨part, next, read, words_eq, moved⟩ := exists_rest valid
  refine ⟨.ok (.words part), next, .of_moved valid ?_ moved (Nat.le_refl _) ?_⟩
  · rw [perform, read]
    rfl
  · rw [Cursor.perform, Cursor.rest, Cursor.drained_eq, ← words_eq]
    rfl

/-- Moving to an offset. -/
theorem performs_seek (target : UInt64) :
    ∃ outcome next, cursor.Performs (.seek target) outcome next := by
  have inside : cursor.base ≤ target ∧ target - cursor.base ≤ cursor.slice.length ↔
      cursor.view.base ≤ target.toNat ∧
        target.toNat - cursor.view.base ≤ cursor.view.words.length := by
    rw [words_view, UInt64.le_iff_toNat_le]
    refine and_congr_right fun from_base => ?_
    rw [UInt64.le_iff_toNat_le, WordSlice.toNat_length,
      UInt64.toNat_sub_of_le _ _ (UInt64.le_iff_toNat_le.mpr from_base)]
    rfl
  by_cases there : cursor.base ≤ target ∧ target - cursor.base ≤ cursor.slice.length
  · have toNat_eq := UInt64.toNat_sub_of_le _ _ there.1
    refine ⟨.ok .moved, { cursor with position := target - cursor.base }, ?_, ?_, ⟨rfl, rfl⟩, ?_⟩
    · rw [perform, seek, if_pos there]
      rfl
    · have position_le := UInt64.le_iff_toNat_le.mp there.2
      rw [WordSlice.toNat_length] at position_le
      exact ⟨position_le, valid.stop_lt⟩
    · have view_eq : view { cursor with position := target - cursor.base } =
          (Cursor.ofWords cursor.slice.words cursor.base.toNat).advance
            (target.toNat - cursor.base.toNat) := by
        rw [← toNat_eq]
        rfl
      rw [Cursor.perform, Cursor.seek, if_pos (inside.mp there), words_view, view_eq]
      rfl
  · refine ⟨.error (.endOfStream target.toNat), cursor, .of_stays valid ?_ ?_⟩
    · rw [perform, seek, if_neg there]
      rfl
    · rw [Cursor.perform, Cursor.seek, if_neg (mt inside.mpr there)]
      rfl

/-- Looking at a header. -/
theorem performs_peekHeader : ∃ outcome next, cursor.Performs .peekHeader outcome next := by
  refine ⟨_, _, .of_stays valid (congrArg (Except.map _) (peekHeader_eq valid)) ?_⟩
  rw [Cursor.perform]
  cases cursor.view.peekHeader <;> rfl

/-- Reading an instruction. -/
theorem performs_nextInstruction :
    ∃ outcome next, cursor.Performs .nextInstruction outcome next := by
  rcases nextInstruction_cases valid with ⟨fault, failed, view_failed⟩ |
    ⟨header, offset, operands, next, read, is, view_read⟩
  · refine ⟨.error fault, cursor, .of_stays valid (congrArg (Except.map _) failed) ?_⟩
    rw [Cursor.perform, view_failed]
    rfl
  · refine ⟨.ok (.instruction header offset operands), next,
      .of_moved valid (congrArg (Except.map _) read) is.moved is.enough ?_⟩
    rw [Cursor.perform, view_read]
    rfl

/-- Reading a string. -/
theorem performs_literalString : ∃ outcome next, cursor.Performs .literalString outcome next := by
  obtain ⟨offset, offset_eq, offset_toNat⟩ := exists_offset valid
  obtain ⟨outcome, next, read, found⟩ := exists_stringFrom valid offset []
  have performed : cursor.perform .literalString = .ok (outcome.map .text, next) := by
    rw [perform, literalString, offset_eq]
    simp only [bind, Except.bind, read]
    rfl
  rw [List.nil_append] at found
  have view_eq := Cursor.literalString_eq cursor.view
  split_ifs at found with terminated
  · obtain ⟨rfl, moved⟩ := found
    rw [if_pos terminated] at view_eq
    refine ⟨_, _, .of_moved valid performed moved (exists_padding terminated).1 ?_⟩
    rw [Cursor.perform, view_eq, stringOfBytes, offset_toNat]
    cases textOfBytes? (bytesBeforeNul cursor.view.ahead) <;> rfl
  · obtain ⟨rfl, moved⟩ := found
    rw [if_neg terminated, Cursor.drained_eq] at view_eq
    refine ⟨_, _, .of_moved valid performed moved (Nat.le_refl _) ?_⟩
    rw [Cursor.perform, view_eq, offset_toNat]
    rfl

/-- Operations on a valid cursor do not stop. -/
theorem exists_performs (operation : Cursor.Operation) :
    ∃ outcome next, cursor.Performs operation outcome next := by
  cases operation with
  | word => exact performs_word valid
  | optional => exact performs_optional valid
  | take count => exact performs_take valid count
  | skip count => exact performs_skip valid count
  | rest => exact performs_rest valid
  | seek target => exact performs_seek valid target
  | peekHeader => exact performs_peekHeader valid
  | nextInstruction => exact performs_nextInstruction valid
  | literalString => exact performs_literalString valid

end

end WordCursor

end ShaderMachine
