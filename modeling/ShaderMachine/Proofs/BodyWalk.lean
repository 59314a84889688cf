import Mathlib.Data.List.TakeWhile
import ShaderMachine.Proofs.FunctionBodies

/-! # Walking over a function body

A function body is found by moving to where it starts and reading instruction after instruction
until its end. In a loaded module this finds the body that the function spans and never fails.

* **`Cursor.walk`** — read instructions up to an offset.
* **`Module.between`** — the instructions of a module between two offsets.
* **`seek_walk`** — walking over the body of a function.
* **`FunctionRecord.Bounded`** — where the body of a function starts and ends. -/

namespace ShaderMachine

/-! ## Reading one instruction after the other -/

namespace Cursor

/-- Reading an instruction leaves less to read. -/
theorem remaining_lt_of_nextInstruction {cursor next : Cursor} {instruction : Instruction}
    (read : cursor.nextInstruction = .ok (instruction, next)) :
    next.remaining < cursor.remaining := by
  obtain ⟨⟨first, rest⟩, cut, is⟩ := exists_of_map read
  cases is
  obtain ⟨-, -, ahead_eq⟩ := cutInstruction_inv cut
  rw [remaining, remaining, advance, List.length_drop, ahead_eq, List.length_append,
    Instruction.length_words, Instruction.wordCount]
  omega

/-- Read instructions until an offset is reached. -/
def walk (stop : Nat) (cursor : Cursor) : Except BinaryError (List Instruction) :=
  if cursor.offset < stop then
    match _h : cursor.nextInstruction with
    | .error error => .error error
    | .ok (instruction, next) => (walk stop next).map fun rest => instruction :: rest
  else
    .ok []
termination_by cursor.remaining
decreasing_by exact remaining_lt_of_nextInstruction ‹_›

variable {cursor : Cursor} {instruction closing : Instruction} {body after : List Instruction}

/-- A framed instruction ahead is read. -/
theorem nextInstruction_words (short : instruction.wordCount < 65536)
    (here : instruction.offset = cursor.offset)
    (ahead_eq : cursor.ahead = instruction.words ++ after.flatMap Instruction.words) :
    ∃ next, cursor.nextInstruction = .ok (instruction, next) ∧ next.offset = instruction.stop ∧
      next.ahead = after.flatMap Instruction.words := by
  refine ⟨cursor.advance instruction.wordCount, ?_, ?_, ?_⟩
  · rw [nextInstruction, ← here, ahead_eq, cutInstruction_words short]
    rfl
  · have enough : instruction.wordCount ≤ cursor.ahead.length := by
      rw [ahead_eq, List.length_append, instruction.length_words]
      exact Nat.le_add_right _ _
    rw [Instruction.stop, here, offset_advance _ enough]
  · rw [advance, ahead_eq, ← instruction.length_words, List.drop_left]

/-- Walking over framed instructions to where they end reads them. -/
theorem walk_append {stop : Nat} (framed : IsFramed cursor.offset (body ++ after))
    (ahead_eq : cursor.ahead = (body ++ after).flatMap Instruction.words)
    (stop_eq : stop = cursor.offset + (body.flatMap Instruction.words).length) :
    cursor.walk stop = .ok body := by
  -- Every instruction that is read moves the position to where the next one starts.
  induction body generalizing cursor with
  | nil =>
      have at_stop : stop = cursor.offset := stop_eq
      rw [walk, at_stop, if_neg (Nat.lt_irrefl _)]
  | cons instruction body hyp =>
      obtain ⟨here, short, framed⟩ := framed
      rw [List.flatMap_cons, List.length_append, instruction.length_words, ← Nat.add_assoc,
        ← here] at stop_eq
      have more : cursor.offset < stop := by
        rw [← here, stop_eq]
        exact Nat.lt_of_lt_of_le instruction.offset_lt_stop (Nat.le_add_right _ _)
      rw [List.cons_append, List.flatMap_cons] at ahead_eq
      obtain ⟨next, read, next_offset, next_ahead⟩ := nextInstruction_words short here ahead_eq
      rw [← next_offset] at framed
      have next_stop : stop = next.offset + (body.flatMap Instruction.words).length := by
        rw [next_offset]
        exact stop_eq
      rw [walk, if_pos more]
      split
      · rename_i error failed
        rw [read] at failed
        cases failed
      · rename_i found next' read'
        rw [read] at read'
        cases read'
        rw [hyp framed next_ahead next_stop]
        rfl

/-- Walking to a framed instruction reads those before it. -/
theorem walk_eq (framed : IsFramed cursor.offset (body ++ closing :: after))
    (ahead_eq : cursor.ahead = (body ++ closing :: after).flatMap Instruction.words) :
    cursor.walk closing.offset = .ok body :=
  walk_append framed ahead_eq framed.append.1

end Cursor

/-! ## The body of a function -/

/-- Whether an instruction starts from one offset on and before another one. -/
def Instruction.startsWithin (start stop : Nat) (instruction : Instruction) : Bool :=
  decide (start ≤ instruction.offset ∧ instruction.offset < stop)

/-- The instructions of a module that start from one offset on and before another one. -/
def Module.between (loaded : Module) (start stop : Nat) : List Instruction :=
  loaded.instructions.filter (Instruction.startsWithin start stop)

/-- Of framed instructions that start late enough, the first ones start before an offset. -/
theorem IsFramed.takeWhile_eq {offset start : Nat} {instructions : List Instruction}
    (framed : IsFramed offset instructions) (late : start ≤ offset) (stop : Nat) :
    (instructions.takeWhile fun instruction => instruction.offset < stop) =
      instructions.filter (Instruction.startsWithin start stop) := by
  induction instructions generalizing offset with
  | nil => rfl
  | cons first rest hyp =>
      have behind := framed.le_offset
      obtain ⟨rfl, -, framed⟩ := framed
      by_cases early : first.offset < stop
      · have within : first.startsWithin start stop = true := decide_eq_true ⟨late, early⟩
        rw [List.takeWhile_cons_of_pos (by simpa using early), List.filter_cons_of_pos within,
          hyp framed (late.trans first.offset_lt_stop.le)]
      · have nothing : ∀ instruction ∈ first :: rest,
            ¬ instruction.startsWithin start stop = true := by
          intro instruction mem
          have := behind instruction mem
          rw [Instruction.startsWithin, decide_eq_true_eq]
          omega
        rw [List.takeWhile_cons_of_neg (by simpa using early),
          List.filter_eq_nil_iff.mpr nothing]

/-- Framed instructions between two offsets stand together. -/
theorem IsFramed.between_eq {offset : Nat} {instructions : List Instruction}
    (framed : IsFramed offset instructions) (start stop : Nat) :
    ((instructions.dropWhile fun instruction => instruction.offset < start).takeWhile
      fun instruction => instruction.offset < stop) =
        instructions.filter (Instruction.startsWithin start stop) := by
  induction instructions generalizing offset with
  | nil => rfl
  | cons first rest hyp =>
      by_cases early : first.offset < start
      · have not_within : ¬ first.startsWithin start stop = true := by
          rw [Instruction.startsWithin, decide_eq_true_eq]
          omega
        rw [List.dropWhile_cons_of_pos (by simpa using early),
          List.filter_cons_of_neg not_within, hyp framed.2.2]
      · rw [List.dropWhile_cons_of_neg (by simpa using early)]
        refine framed.takeWhile_eq ?_ stop
        rw [← framed.1]
        exact Nat.le_of_not_lt early

/-- A machine runs what lies between two offsets of its module. -/
theorem body_eq_between {machine : Machine} {loaded : Module}
    (framed : IsFramed headerLength loaded.instructions) (loaded_eq : machine.loaded = loaded)
    (start stop : Nat) : machine.body start stop = loaded.between start stop := by
  rw [Machine.body, loaded_eq]
  exact framed.between_eq start stop

section

variable {loaded : Module} {before body after : List Instruction} {head closing : Instruction}
  (framed : IsFramed headerLength loaded.instructions)
  (instructions_eq : loaded.instructions = before ++ head :: (body ++ closing :: after))

include framed instructions_eq

/-- What lies between the head and the end of a function is its body. -/
theorem between_eq : loaded.between head.stop closing.offset = body := by
  rw [instructions_eq] at framed
  have before_head := framed.stop_le
  obtain ⟨-, -, framed⟩ := framed.append
  have body_starts := framed.le_offset
  have body_stops := framed.stop_le
  have after_end := framed.le_of_mem_after
  -- What is before ends at the head, and the head ends where the body starts.
  have none_before : before.filter (Instruction.startsWithin head.stop closing.offset) = [] := by
    rw [List.filter_eq_nil_iff]
    intro instruction mem
    have := before_head instruction mem
    have := instruction.offset_lt_stop
    have := head.offset_lt_stop
    rw [Instruction.startsWithin, decide_eq_true_eq]
    omega
  have no_head : ¬ head.startsWithin head.stop closing.offset = true := by
    have := head.offset_lt_stop
    rw [Instruction.startsWithin, decide_eq_true_eq]
    omega
  have all_body : body.filter (Instruction.startsWithin head.stop closing.offset) = body := by
    rw [List.filter_eq_self]
    intro instruction mem
    have := body_starts instruction (List.mem_append_left _ mem)
    have := body_stops instruction mem
    have := instruction.offset_lt_stop
    rw [Instruction.startsWithin, decide_eq_true_eq]
    omega
  have no_closing : ¬ closing.startsWithin head.stop closing.offset = true := by
    rw [Instruction.startsWithin, decide_eq_true_eq]
    omega
  -- What is after starts behind the end, which is not within either.
  have none_after : after.filter (Instruction.startsWithin head.stop closing.offset) = [] := by
    rw [List.filter_eq_nil_iff]
    intro instruction mem
    have := after_end instruction mem
    have := closing.offset_lt_stop
    rw [Instruction.startsWithin, decide_eq_true_eq]
    omega
  rw [Module.between, instructions_eq, List.filter_append, none_before,
    List.filter_cons_of_neg no_head, List.filter_append, all_body,
    List.filter_cons_of_neg no_closing, none_after, List.append_nil, List.nil_append]

/-- A machine of the module runs that body. -/
theorem body_eq {machine : Machine} (loaded_eq : machine.loaded = loaded) :
    machine.body head.stop closing.offset = body := by
  rw [body_eq_between framed loaded_eq, between_eq framed instructions_eq]

/-- Moving to where the body starts and walking to the end of the function reads the body. -/
theorem seek_walk :
    (loaded.cursor.seek head.stop >>= Cursor.walk closing.offset) = .ok body := by
  have whole : loaded.stream = (before ++ [head]).flatMap Instruction.words ++
      (body ++ closing :: after).flatMap Instruction.words := by
    rw [Module.stream, instructions_eq, ← List.flatMap_append, List.append_assoc,
      List.singleton_append]
  rw [instructions_eq] at framed
  have start_eq :
      head.stop = headerLength + ((before ++ [head]).flatMap Instruction.words).length := by
    -- There the position has the offset of the first instruction of the body.
    have here : head.offset = _ := framed.append.1
    rw [Instruction.stop, here, List.flatMap_append, List.length_append, List.flatMap_cons,
      List.flatMap_nil, List.append_nil, head.length_words, Nat.add_assoc]
  -- The head ends within the stream, so that its end can be moved to.
  have inside : loaded.cursor.base ≤ head.stop ∧
      head.stop - loaded.cursor.base ≤ loaded.cursor.words.length := by
    rw [start_eq, Module.cursor, whole]
    simp only [Cursor.ofWords, Cursor.words, List.length_append, List.length_reverse,
      List.length_nil]
    omega
  rw [Cursor.seek, if_pos inside]
  obtain ⟨-, -, framed⟩ := framed.append
  have base_eq : loaded.cursor.base = headerLength := rfl
  have words_eq : loaded.cursor.words = loaded.stream := by
    rw [Module.cursor, Cursor.ofWords, Cursor.words, List.reverse_nil, List.nil_append]
  have steps : head.stop - loaded.cursor.base =
      ((before ++ [head]).flatMap Instruction.words).length := by
    rw [start_eq, base_eq, Nat.add_sub_cancel_left]
  have here : ((Cursor.ofWords loaded.cursor.words loaded.cursor.base).advance
      (head.stop - loaded.cursor.base)).offset = head.stop :=
    Cursor.offset_ofWords_advance _ inside.1 inside.2
  refine Cursor.walk_eq (?_ : IsFramed _ (body ++ closing :: after)) ?_
  · rw [here]
    exact framed
  · rw [steps, words_eq, whole]
    exact List.drop_left

/-- The body or the end of a function stands where the head ends. -/
theorem exists_first :
    ∃ first ∈ loaded.instructions, first.offset = head.stop := by
  rw [instructions_eq] at framed ⊢
  obtain ⟨-, -, framed⟩ := framed.append
  cases body with
  | nil => exact ⟨closing, by simp, framed.1⟩
  | cons first body => exact ⟨first, by simp, framed.1⟩

end

/-- Whether the body of a function starts behind its head, which names it, and ends at the end of a
function, with neither the head nor the end of one in between. -/
structure FunctionRecord.Bounded (function : FunctionRecord) (id : Id) (loaded : Module)
    (stop : Nat) : Prop where
  /-- The end is noted. -/
  stop_eq : function.stop = some stop
  /-- The end is not before the start. -/
  ordered : function.start ≤ stop
  /-- The start is where the head of the function ends. -/
  headed : ∃ head ∈ loaded.instructions, head.OpensFunction ∧ head.operands[1]? = some id ∧
    head.stop = function.start
  /-- An instruction starts at the start. -/
  starts : ∃ first ∈ loaded.instructions, first.offset = function.start
  /-- The end of a function starts at the end. -/
  ends : ∃ closing ∈ loaded.instructions, closing.offset = stop ∧ closing.ClosesFunction
  /-- No function starts or ends in between. -/
  alone : ∀ instruction ∈ loaded.instructions, function.start ≤ instruction.offset →
    instruction.offset < stop → instruction.IsInner

/-- A function that spans its body in a framed module is bounded by its head and its end. -/
theorem FunctionRecord.Spans.exists_bounded {function : FunctionRecord} {id : Id} {loaded : Module}
    (framed : IsFramed headerLength loaded.instructions)
    (spans : function.Spans id loaded.instructions) :
    ∃ stop, function.Bounded id loaded stop ∧
      (loaded.cursor.seek function.start >>= Cursor.walk stop) =
        .ok (loaded.between function.start stop) ∧
      ∀ machine : Machine, machine.loaded = loaded →
        machine.body function.start stop = loaded.between function.start stop := by
  obtain ⟨before, head, body, closing, after, instructions_eq, ⟨opens, own⟩, start, inners, closes,
    stop⟩ := spans
  have between := between_eq framed instructions_eq
  have head_mem : head ∈ loaded.instructions := by
    rw [instructions_eq]
    simp
  have closing_mem : closing ∈ loaded.instructions := by
    rw [instructions_eq]
    simp
  -- The body may be empty, but the end is not before the start.
  have ordered : head.stop ≤ closing.offset := by
    rw [instructions_eq] at framed
    obtain ⟨-, -, framed⟩ := framed.append
    exact framed.le_offset closing (by simp)
  rw [start]
  refine ⟨closing.offset, ⟨stop, ?_, ?_, ?_, ⟨closing, closing_mem, rfl, closes⟩, ?_⟩, ?_, ?_⟩
  · rw [start]
    exact ordered
  · exact ⟨head, head_mem, opens, own, start.symm⟩
  · rw [start]
    exact exists_first framed instructions_eq
  · intro instruction mem after_start before_stop
    apply inners
    rw [← between, Module.between, List.mem_filter, Instruction.startsWithin, decide_eq_true_eq,
      ← start]
    exact ⟨mem, after_start, before_stop⟩
  · rw [between]
    exact seek_walk framed instructions_eq
  · intro machine loaded_eq
    rw [between]
    exact body_eq framed instructions_eq loaded_eq

end ShaderMachine
