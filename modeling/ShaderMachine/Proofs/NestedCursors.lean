import ShaderMachine.Proofs.WordCursors

/-! # Cursors over operands, at any depth

Reading an instruction yields a cursor over its operands, which can be asked for instructions
itself, and gone back from. Whatever is asked of the cursors on the way, none of them stops the
program, leaves its slice, or reaches a word outside of the instruction that it was entered from.

* **`CursorStack.IsWithin`** — valid cursors over words of one of them.
* **`CursorStack.exists_follow`** — steps do not stop, and lead to such cursors.
* **`WordCursor.IsSound`** — what holds of an operation, and of what comes of it.
* **`CursorStack.follow_isSound`** — it holds wherever steps have led. -/

namespace ShaderMachine

/-! ## Operands -/

namespace Cursor

variable {cursor next : Cursor} {instruction : Instruction}

/-- The operands of an instruction end where it does. -/
theorem stop_operands (instruction : Instruction) : instruction.cursor.stop = instruction.stop := by
  change instruction.offset + 1 + instruction.operands.length = _
  rw [Instruction.stop, Instruction.wordCount, Nat.add_right_comm, Nat.add_assoc]

/-- An instruction that is read is passed. -/
theorem offset_eq_stop
    (yields : cursor.Yields .nextInstruction (.ok (.instruction instruction), next)) :
    next.offset = instruction.stop := by
  obtain ⟨offset_eq, passed⟩ := yields.answers
  have reached := yields.target?_eq_some_iff.mpr ⟨⟨_, rfl⟩, rfl⟩
  cases ahead_eq : cursor.ahead with
  | nil =>
      rw [Operation.target?, ahead_eq] at reached
      cases reached
  | cons word rest =>
      rw [Operation.target?_nextInstruction ahead_eq] at reached
      simp only [Option.ite_none_right_eq_some, Option.some.injEq] at reached
      obtain ⟨⟨-, enough⟩, next_eq⟩ := reached
      rw [← next_eq, between_offset] at passed
      -- As many words are passed as the instruction has.
      have length_eq := congrArg List.length passed
      rw [List.length_take_of_le enough, Instruction.length_words] at length_eq
      rw [← next_eq, length_eq, ← offset_eq, Instruction.stop]

/-- The operands of an instruction that is read are words behind its header. -/
theorem isWithin_operands
    (yields : cursor.Yields .nextInstruction (.ok (.instruction instruction), next)) :
    instruction.cursor.IsWithin cursor := by
  obtain ⟨offset_eq, passed⟩ := yields.answers
  have next_eq := offset_eq_stop yields
  have base_le := cursor.base_le_offset
  refine ⟨?_, ?_, ?_⟩
  · change cursor.base ≤ instruction.offset + 1
    omega
  · rw [stop_operands, ← next_eq, ← yields.stop_eq]
    exact next.offset_le_stop
  · change instruction.operands = cursor.between (instruction.offset + 1) instruction.cursor.stop
    rw [stop_operands, ← next_eq, offset_eq, between_succ cursor base_le, passed]
    rfl

end Cursor

namespace WordCursor

section

variable {cursor next : WordCursor} {operation : Cursor.Operation}
  {outcome : Except BinaryError Answer} (performs : cursor.Performs operation outcome next)

include performs

/-- What comes of an operation is, on the views, one of the four ways that it may end in. -/
theorem Performs.yields : cursor.view.Yields operation (outcome.map Answer.content, next.view) :=
  performs.view_eq ▸ cursor.view.perform_yields operation

/-- A cursor stays over its words. -/
theorem Performs.isWithin : next.view.IsWithin cursor.view := by
  obtain ⟨base_eq, words_eq⟩ := performs.yields.stays
  exact .of_words_eq base_eq words_eq

/-- A cursor is where it was if its view is. -/
theorem Performs.eq_of_view_eq (valid : cursor.IsValid) (same : next.view = cursor.view) :
    next = cursor := by
  have offset_eq := congrArg Cursor.offset same
  rw [offset_view valid, offset_view performs.valid, performs.stays.2] at offset_eq
  have position_eq := UInt64.toNat_inj.mp (Nat.add_left_cancel offset_eq)
  rw [WordCursor.mk.injEq]
  exact ⟨performs.stays.1, position_eq, performs.stays.2⟩

end

section

variable {cursor next operands : WordCursor} {header : InstructionHeader} {offset : UInt64}
  (valid : cursor.IsValid)
  (performs : cursor.Performs .nextInstruction (.ok (.instruction header offset operands)) next)

include valid performs

/-- What is answered as an instruction is the one at the cursor. -/
theorem Performs.isInstruction : cursor.IsInstruction header offset operands next := by
  obtain ⟨⟨result, behind⟩, read, answered⟩ := exists_of_map performs.performed
  rcases nextInstruction_cases valid with ⟨fault, failed, -⟩ | ⟨_, _, _, _, found, is, -⟩
  · rw [failed] at read
    cases read
    cases answered
  · rw [found] at read
    cases read
    cases answered
    exact is

/-- The operands of an instruction are words behind its header. -/
theorem Performs.isWithin_operands : operands.view.IsWithin cursor.view := by
  rw [(performs.isInstruction valid).view_eq]
  exact Cursor.isWithin_operands performs.yields

end

end WordCursor

/-! ## Where steps lead -/

namespace CursorStack

variable {start : WordCursor} {stack : CursorStack}

/-- Whether all cursors of a stack are valid, and over words of one of them. -/
def IsWithin (stack : CursorStack) (start : WordCursor) : Prop :=
  ∀ cursor ∈ stack.top :: stack.below, cursor.IsValid ∧ cursor.view.IsWithin start.view

/-- A stack is over the words of its cursor if that is the only one. -/
theorem isWithin_singleton (valid : start.IsValid) : (CursorStack.mk start []).IsWithin start := by
  intro cursor mem
  rw [List.mem_singleton.mp mem]
  exact ⟨valid, .refl _⟩

/-- The cursor on top may move. -/
theorem IsWithin.of_performs (within : stack.IsWithin start) {operation : Cursor.Operation}
    {outcome : Except BinaryError WordCursor.Answer} {next : WordCursor}
    (performs : stack.top.Performs operation outcome next) :
    ({ stack with top := next } : CursorStack).IsWithin start := by
  obtain ⟨top_within, below_within⟩ := List.forall_mem_cons.mp within
  exact List.forall_mem_cons.mpr
    ⟨⟨performs.valid, performs.isWithin.trans top_within.2⟩, below_within⟩

/-- A step does not stop, and keeps all cursors over the words of the start. -/
theorem exists_after (within : stack.IsWithin start) (step : Step) :
    ∃ next, stack.after step = .ok next ∧ next.IsWithin start := by
  obtain ⟨valid, top_within⟩ := within stack.top List.mem_cons_self
  cases step with
  | perform operation =>
      obtain ⟨outcome, next, performs⟩ := WordCursor.exists_performs valid operation
      refine ⟨_, ?_, within.of_performs performs⟩
      rw [after, perform, performs.performed]
      rfl
  | enter =>
      obtain ⟨outcome, next, performs⟩ := WordCursor.exists_performs valid .nextInstruction
      have moved := within.of_performs performs
      rw [after, enter, perform, performs.performed]
      -- Only an instruction that is read is entered.
      rcases outcome with fault | answer
      · exact ⟨_, rfl, moved⟩
      · cases answer with
        | instruction header offset operands =>
            refine ⟨⟨operands, next :: stack.below⟩, rfl,
              List.forall_mem_cons.mpr ⟨⟨?_, ?_⟩, moved⟩⟩
            · exact (performs.isInstruction valid).isValid valid
            · exact (performs.isWithin_operands valid).trans top_within
        | _ => exact ⟨_, rfl, moved⟩
  | leave =>
      refine ⟨stack.leave, rfl, ?_⟩
      rw [leave]
      split
      · exact within
      · rename_i next below below_eq
        refine fun cursor mem => within cursor (List.mem_cons_of_mem _ ?_)
        rwa [below_eq]

/-- However many steps are made, none of them stops, and all cursors stay over the words of the
start. -/
theorem exists_follow (within : stack.IsWithin start) (steps : List Step) :
    ∃ next, stack.follow steps = .ok next ∧ next.IsWithin start := by
  induction steps generalizing stack with
  | nil => exact ⟨stack, rfl, within⟩
  | cons step steps hyp =>
      obtain ⟨mid, made, mid_within⟩ := exists_after within step
      obtain ⟨next, follows, next_within⟩ := hyp mid_within
      refine ⟨next, ?_, next_within⟩
      rw [follow, List.foldlM_cons, made]
      exact follows

end CursorStack

/-! ## Operations wherever steps have led -/

/-- What holds of an operation on a cursor at the offset `first`, which started from another one,
and of what comes of it: an outcome, and the cursor at the offset `last`. -/
structure WordCursor.IsSound (start cursor : WordCursor) (first : UInt64)
    (operation : Cursor.Operation) (outcome : Except BinaryError Answer) (next : WordCursor)
    (last : UInt64) : Prop where
  /-- The cursor is over words of the start, at the same offsets. -/
  within : cursor.view.IsWithin start.view
  /-- Its index is not behind the end of its slice, neither before nor after. -/
  position : cursor.position.toNat ≤ cursor.slice.words.length ∧
    next.position.toNat ≤ next.slice.words.length
  /-- It stays over the same words. -/
  stays : next.slice = cursor.slice ∧ next.base = cursor.base
  /-- It says where it is. -/
  offsets : cursor.offset = .ok first ∧ next.offset = .ok last
  /-- Its offset and the number of words ahead add up to the same. -/
  total : ∃ left left', cursor.remaining = .ok left ∧ next.remaining = .ok left' ∧
    last.toNat + left'.toNat = first.toNat + left.toNat
  /-- The operation succeeds exactly if there is an offset to move to, and moves to that. -/
  succeeds : ∀ target, operation.target? cursor.view = some target ↔
    (∃ answer, outcome = .ok answer) ∧ last.toNat = target
  /-- Moving to an offset succeeds exactly from the first word on up to behind the last. -/
  seeks : ∀ target, operation = .seek target →
    ((∃ answer, outcome = .ok answer) ↔ cursor.base.toNat ≤ target.toNat ∧
      target.toNat ≤ cursor.base.toNat + cursor.slice.words.length)
  /-- An operation that fails leaves the cursor where it was, unless it reads a string. -/
  fails : ∀ fault, outcome = .error fault → operation ≠ .literalString → next = cursor
  /-- What is answered are the words of the start from where the cursor was up to where it is. -/
  answers : ∀ answer, outcome = .ok answer →
    operation.Answers first.toNat (start.view.between first.toNat last.toNat)
      (start.view.between first.toNat cursor.view.stop) answer.content
  /-- The cursor over the operands of an instruction is over the words behind its header that this
  counts, and so is whatever is reached from there. -/
  operands : operation = .nextInstruction →
    ∀ header offset operands, outcome = .ok (.instruction header offset operands) →
      cursor.slice.get? cursor.position = some header.toWord ∧ offset = first ∧
      last.toNat = first.toNat + header.wordCount.toNat ∧
      operands.base.toNat = first.toNat + 1 ∧ operands.position = 0 ∧
      operands.slice.words.length + 1 = header.wordCount.toNat ∧
      operands.view.IsWithin start.view ∧
      ∀ steps, ∃ stack, (CursorStack.mk operands []).follow steps = .ok stack ∧
        first.toNat + 1 ≤ stack.top.base.toNat ∧
        stack.top.base.toNat + stack.top.slice.words.length ≤
          first.toNat + header.wordCount.toNat

/-- An operation does not stop and is sound, on every valid cursor over words of the start. -/
theorem WordCursor.exists_isSound {start cursor : WordCursor} (valid : cursor.IsValid)
    (within : cursor.view.IsWithin start.view) (operation : Cursor.Operation) :
    ∃ first outcome next last, cursor.perform operation = .ok (outcome, next) ∧
      IsSound start cursor first operation outcome next last := by
  obtain ⟨outcome, next, performs⟩ := exists_performs valid operation
  obtain ⟨first, first_eq, first_toNat⟩ := exists_offset valid
  obtain ⟨last, last_eq, last_toNat⟩ := exists_offset performs.valid
  obtain ⟨left, left_eq, left_toNat⟩ := exists_remaining valid
  obtain ⟨left', left_eq', left_toNat'⟩ := exists_remaining performs.valid
  have yields := performs.yields
  have last_le : last.toNat ≤ cursor.view.stop :=
    last_toNat ▸ yields.stop_eq ▸ next.view.offset_le_stop
  have succeeded : (∃ answer, outcome.map Answer.content = .ok answer) ↔
      ∃ answer, outcome = .ok answer := by
    cases outcome with
    | error fault => exact iff_of_false nofun nofun
    | ok answer => exact iff_of_true ⟨_, rfl⟩ ⟨_, rfl⟩
  refine ⟨first, outcome, next, last, performs.performed, within,
    ⟨valid.position_le, performs.valid.position_le⟩, performs.stays, ⟨first_eq, last_eq⟩,
    ⟨left, left', left_eq, left_eq', ?_⟩, fun target => ?_, ?_, ?_, ?_, ?_⟩
  · rw [first_toNat, last_toNat, left_toNat, left_toNat', Cursor.offset_add_remaining,
      Cursor.offset_add_remaining, yields.stop_eq]
  · rw [yields.target?_eq_some_iff, succeeded, last_toNat]
  · rintro target rfl
    rw [← succeeded, ← stop_view]
    constructor
    · intro found
      have reached := yields.target?_eq_some_iff.mpr ⟨found, rfl⟩
      rw [Cursor.Operation.target?, Option.ite_none_right_eq_some] at reached
      exact reached.1
    · intro inside
      exact (yields.target?_eq_some_iff.mp (if_pos inside)).1
  · rintro fault rfl other
    exact performs.eq_of_view_eq valid (yields.eq_of_error other)
  · rintro answer rfl
    rw [first_toNat]
    rw [← within.between_eq cursor.view.base_le_offset last_le,
      ← within.between_eq cursor.view.base_le_offset (Nat.le_refl _), last_toNat]
    exact yields.answers
  · -- The cursor over the operands of an instruction that is read is nested in this one.
    rintro rfl header offset operands rfl
    have is := performs.isInstruction valid
    have operands_valid := is.isValid valid
    have length_eq := is.length_eq
    have count_eq := InstructionHeader.wordCount_eq is.counted
    have base_eq : operands.base.toNat = first.toNat + 1 := is.base_eq.trans (by rw [first_toNat])
    refine ⟨is.header_eq, UInt64.toNat_inj.mp (is.offset_eq.trans first_toNat.symm), ?_, base_eq,
      is.position_eq, by omega, (performs.isWithin_operands valid).trans within, fun steps => ?_⟩
    · rw [last_toNat, first_toNat, is.moved.view_eq, Cursor.offset_advance _ is.enough]
    · obtain ⟨stack, follows, all_within⟩ :=
        CursorStack.exists_follow (CursorStack.isWithin_singleton operands_valid) steps
      have inside := (all_within stack.top List.mem_cons_self).2
      have base_le : operands.base.toNat ≤ stack.top.base.toNat := inside.base_le
      have stop_le := inside.stop_le
      rw [stop_view, stop_view] at stop_le
      exact ⟨stack, follows, by omega, by omega⟩

namespace CursorStack

/-- However a stream in memory is read, in whatever order and in operands nested to any depth, the
program does not stop: the cursor that reads stays in its slice and over words of the stream,
answers the words that it passes, and keeps what it reads of an instruction inside of it. -/
theorem follow_isSound (stream : WordSlice) (base : UInt64)
    (fits : base.toNat + stream.words.length < UInt64.size) (steps : List Step)
    (operation : Cursor.Operation) :
    ∃ stack first outcome next last,
      (CursorStack.mk (.ofSlice stream base) []).follow steps = .ok stack ∧
      stack.top.perform operation = .ok (outcome, next) ∧
      WordCursor.IsSound (.ofSlice stream base) stack.top first operation outcome next last := by
  -- Whatever was performed before, the cursor is valid, and within the words that it started with.
  obtain ⟨stack, follows, all_within⟩ :=
    exists_follow (isWithin_singleton (WordCursor.isValid_ofSlice fits)) steps
  obtain ⟨valid, within⟩ := all_within stack.top List.mem_cons_self
  obtain ⟨first, outcome, next, last, performed, sound⟩ :=
    WordCursor.exists_isSound valid within operation
  exact ⟨stack, first, outcome, next, last, follows, performed, sound⟩

/-- Among the operands of the first of two instructions, one that counts a single operand is read
again, after everything there was read. -/
theorem follow_isSound_nested :
    (10 : UInt64).toNat + [(0x40013 : Word), 0x20005, 7, 9, 0x10001].length < UInt64.size ∧
      (CursorStack.mk (.ofSlice ⟨[0x40013, 0x20005, 7, 9, 0x10001], by decide⟩ 10) []).follow
        [.enter, .enter, .perform .rest, .leave, .perform .rest, .enter, .perform (.seek 11)] =
          .ok ⟨⟨⟨[0x20005, 7, 9], by decide⟩, 0, 11⟩,
            [⟨⟨[0x40013, 0x20005, 7, 9, 0x10001], by decide⟩, 4, 10⟩]⟩ ∧
      WordCursor.IsSound (.ofSlice ⟨[0x40013, 0x20005, 7, 9, 0x10001], by decide⟩ 10)
        ⟨⟨[0x20005, 7, 9], by decide⟩, 0, 11⟩ 11 .nextInstruction
        (.ok (.instruction ⟨5, 2⟩ 11 ⟨⟨[7], by decide⟩, 0, 12⟩))
        ⟨⟨[0x20005, 7, 9], by decide⟩, 2, 11⟩ 13 := by
  refine ⟨by decide, rfl, ?_⟩
  obtain ⟨stack, first, outcome, next, last, follows, performed, sound⟩ :=
    follow_isSound ⟨[0x40013, 0x20005, 7, 9, 0x10001], by decide⟩ 10 (by decide)
      [.enter, .enter, .perform .rest, .leave, .perform .rest, .enter, .perform (.seek 11)]
      .nextInstruction
  -- The steps and the operation can lead to one place only.
  cases follows
  cases performed
  obtain ⟨first_eq, last_eq⟩ := sound.offsets
  cases first_eq
  cases last_eq
  exact sound

end CursorStack

end ShaderMachine
