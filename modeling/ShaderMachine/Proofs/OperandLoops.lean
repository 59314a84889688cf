import Mathlib.Data.List.Infix
import ShaderMachine.Assembly.Encoder
import ShaderMachine.Listing.Decoded

/-! # Runs over operands

A decoder and an encoder each go over the operands of a layout in three loops: those always there,
those that may be there and those that may repeat. Both come down to one run over the kinds of the
operands that are there.

* **`OperandLayout.Admits`** — the kinds of operands that an instruction of a layout may have.
* **`Decoder.Run`** and **`Encoder.Run`** — runs over operands of given kinds.
* **`Decoder.decodeOperands_of_run`** and **`Encoder.bodyWords_of_run`** — a run over all operands
  decides what the three loops yield. -/

namespace ShaderMachine

/-- Whether an instruction of a layout may have operands of the given kinds: those always there, a
first part of those that may be there and, after all of these, any number of repeated ones. -/
def OperandLayout.Admits (layout : OperandLayout) (kinds : List OperandKind) : Prop :=
  ∃ present count, present <+: layout.optional ∧ (present = layout.optional ∨ count = 0) ∧
    kinds = layout.fixed ++ present ++ layout.variadic.elim [] (List.replicate count)

namespace Decoder

variable {decoder : Decoder} {decoding next : Decoding} {kinds : List OperandKind}

/-- A run of a decoder over operands of given kinds, each of which takes some words. -/
inductive Run (decoder : Decoder) : Decoding → List OperandKind → Decoding → Prop
  /-- No operand is left. -/
  | nil (decoding : Decoding) : Run decoder decoding [] decoding
  /-- One operand is read, then the others. -/
  | cons {decoding mid next : Decoding} {kind : OperandKind} {kinds : List OperandKind}
      (taken : decoder.takeOperand decoding kind = .ok mid)
      (shorter : mid.cursor.remaining < decoding.cursor.remaining)
      (run : Run decoder mid kinds next) : Run decoder decoding (kind :: kinds) next

namespace Run

/-- A run over operands in two parts passes through a state between them. -/
theorem append_inv {first second : List OperandKind}
    (run : Run decoder decoding (first ++ second) next) :
    ∃ mid, Run decoder decoding first mid ∧ Run decoder mid second next := by
  induction first generalizing decoding with
  | nil => exact ⟨decoding, .nil decoding, run⟩
  | cons kind first hyp =>
      cases run with
      | cons taken shorter run =>
          obtain ⟨mid, front, back⟩ := hyp run
          exact ⟨mid, .cons taken shorter front, back⟩

/-- A run that takes words starts before some. -/
theorem not_isEmpty {cursor : Cursor} (shorter : cursor.remaining < decoding.cursor.remaining) :
    decoding.cursor.isEmpty = false := by
  rw [Cursor.isEmpty, List.isEmpty_eq_false_iff]
  intro empty
  rw [Cursor.remaining, Cursor.remaining, empty] at shorter
  exact absurd shorter (Nat.not_lt_zero _)

/-- Each operand of a run takes a word. -/
theorem length_le (run : Run decoder decoding kinds next) :
    kinds.length ≤ decoding.cursor.remaining := by
  induction run with
  | nil => exact Nat.zero_le _
  | cons taken shorter run hyp =>
      rw [List.length_cons]
      omega

/-- A run decides the loop over operands that are always there. -/
theorem fixed (run : Run decoder decoding kinds next) (offset : ℕ) (opcode : Opcode) :
    kinds.foldlM (decoder.fixedStep offset opcode) decoding = .ok next := by
  induction run with
  | nil => rfl
  | cons taken shorter run hyp =>
      rw [List.foldlM_cons, fixedStep, not_isEmpty shorter, taken]
      exact hyp

/-- Nothing is read for operands that may be there once no word is left. -/
theorem optional_over (at_end : decoding.cursor.isEmpty = true) (kinds : List OperandKind) :
    kinds.foldlM decoder.optionalStep decoding = .ok decoding := by
  induction kinds with
  | nil => rfl
  | cons kind kinds hyp =>
      rw [List.foldlM_cons, optionalStep, if_pos at_end]
      exact hyp

/-- A run decides the loop over operands that may be there, if all are or if it uses up the
words. -/
theorem optional (run : Run decoder decoding kinds next) {all : List OperandKind}
    (front : kinds <+: all) (complete : kinds = all ∨ next.cursor.isEmpty = true) :
    all.foldlM decoder.optionalStep decoding = .ok next := by
  obtain ⟨absent, rfl⟩ := front
  -- Operands that are not there come after all words are used up.
  have no_more : absent.foldlM decoder.optionalStep next = .ok next := by
    rcases complete with equal | at_end
    · rw [List.append_right_eq_self.mp equal.symm]
      rfl
    · exact optional_over at_end absent
  induction run with
  | nil => exact no_more
  | cons taken shorter run hyp =>
      rw [List.cons_append, List.foldlM_cons, optionalStep, not_isEmpty shorter, taken]
      refine hyp (complete.imp_left fun equal => ?_) no_more
      exact (List.cons.inj equal).2

/-- A run decides the loop over repeated operands, if it uses up the words. -/
theorem variadic {kind : OperandKind} {count fuel : ℕ}
    (run : Run decoder decoding (List.replicate count kind) next)
    (at_end : next.cursor.isEmpty = true) (enough : count ≤ fuel) :
    decoder.variadicSteps kind fuel decoding = .ok next := by
  induction count generalizing decoding fuel with
  | zero =>
      cases run
      cases fuel with
      | zero => rfl
      | succ fuel => rw [variadicSteps, if_pos at_end]
  | succ count hyp =>
      cases run with
      | cons taken shorter run =>
          obtain ⟨fuel, rfl⟩ : ∃ less, fuel = less + 1 := ⟨fuel - 1, by omega⟩
          rw [variadicSteps, not_isEmpty shorter]
          simp only [taken]
          exact hyp run (by omega)

end Run

/-- A run over all operands of an instruction that uses up its words decides how it is decoded. -/
theorem decodeOperands_of_run {instruction : Instruction} {opcode : Opcode}
    (admits : opcode.layout.Admits kinds)
    (run : Run decoder ⟨instruction.cursor, none, none, []⟩ kinds next)
    (at_end : next.cursor.isEmpty = true) :
    decoder.decodeOperands instruction opcode =
      .ok ⟨instruction.offset, instruction.opcode, next.result, next.operands.reverse⟩ := by
  obtain ⟨present, count, front, complete, rfl⟩ := admits
  obtain ⟨mid, run, repeated⟩ := run.append_inv
  obtain ⟨mid', fixed, optional⟩ := run.append_inv
  have nothing_unread : next.cursor.ahead = [] := by simpa [Cursor.isEmpty] using at_end
  -- If optional operands are missing, nothing repeats and the words end with those present.
  have complete' : present = opcode.layout.optional ∨ mid.cursor.isEmpty = true := by
    refine complete.imp_right fun zero => ?_
    cases variadic : opcode.layout.variadic with
    | none =>
        rw [variadic] at repeated
        cases repeated
        exact at_end
    | some kind =>
        rw [variadic, zero] at repeated
        cases repeated
        exact at_end
  rw [decodeOperands]
  simp only [fixed.fixed, optional.optional front complete', bind, Except.bind]
  cases variadic : opcode.layout.variadic with
  | none =>
      rw [variadic] at repeated
      cases repeated
      simp only [pure, Except.pure, nothing_unread, List.map_nil, List.append_nil]
  | some kind =>
      rw [variadic] at repeated
      have enough := repeated.length_le
      rw [Option.elim_some, List.length_replicate] at enough
      simp only [repeated.variadic at_end enough, pure, Except.pure, nothing_unread, List.map_nil,
        List.append_nil]

end Decoder

namespace Encoder

variable {encoder : Encoder} {statement : Statement} {progress next : Progress}
  {kinds : List OperandKind}

/-- A run of an encoder over operands of given kinds; the result is no operand of the statement. -/
inductive Run (encoder : Encoder) (statement : Statement) :
    Progress → List OperandKind → Progress → Prop
  /-- No operand is left. -/
  | nil (progress : Progress) : Run encoder statement progress [] progress
  /-- The result is written, then the others. -/
  | result {progress next : Progress} {kinds : List OperandKind} {name : String} {id : Id}
      (named : statement.result = some name) (number : encoder.idWord statement.line name = .ok id)
      (run : Run encoder statement { progress with words := progress.words ++ [id] } kinds next) :
      Run encoder statement progress (.result :: kinds) next
  /-- One operand is written, then the others. -/
  | operand {words part : List Word} {operand : Operand} {rest : List Operand}
      {resultType : Option Id} {next : Progress} {kind : OperandKind} {kinds : List OperandKind}
      (no_result : kind ≠ .result)
      (written : encoder.operandWords statement.line resultType kind operand = .ok part)
      (run : Run encoder statement
        ⟨words ++ part, rest, if kind = .resultType then part.getLast? else resultType⟩
        kinds next) :
      Run encoder statement ⟨words, operand :: rest, resultType⟩ (kind :: kinds) next

namespace Run

/-- A run over operands in two parts passes through a state between them. -/
theorem append_inv {first second : List OperandKind}
    (run : Run encoder statement progress (first ++ second) next) :
    ∃ mid, Run encoder statement progress first mid ∧ Run encoder statement mid second next := by
  induction first generalizing progress with
  | nil => exact ⟨progress, .nil progress, run⟩
  | cons kind first hyp =>
      cases run with
      | result named number run =>
          obtain ⟨mid, front, back⟩ := hyp run
          exact ⟨mid, .result named number front, back⟩
      | operand no_result written run =>
          obtain ⟨mid, front, back⟩ := hyp run
          exact ⟨mid, .operand no_result written front, back⟩

/-- A run decides the loop over operands that are always there. -/
theorem fixed (run : Run encoder statement progress kinds next) :
    kinds.foldlM (encoder.fixedStep statement) progress = .ok next := by
  induction run with
  | nil => rfl
  | result named number run hyp =>
      rw [List.foldlM_cons, fixedStep.eq_def]
      simp only [named, number]
      exact hyp
  | @operand words part operand rest resultType next kind kinds no_result written run hyp =>
      have step : encoder.fixedStep statement ⟨words, operand :: rest, resultType⟩ kind =
          .ok ⟨words ++ part, rest, if kind = .resultType then part.getLast? else resultType⟩ := by
        rw [fixedStep.eq_def]
        split
        · exact absurd rfl no_result
        · rename_i at_end _
          exact absurd at_end (by simp)
        · rename_i equal _
          obtain ⟨rfl, rfl⟩ := List.cons.inj equal
          simp only [written]
          rfl
      rw [List.foldlM_cons, step]
      exact hyp

/-- Whether operands of a kind tell an encoder nothing about later ones. -/
def IsPlain (kind : OperandKind) : Prop :=
  kind ≠ .result ∧ kind ≠ .resultType

/-- Nothing is written for operands that may be there once no operand is left. -/
theorem optional_over (at_end : progress.operands = []) (kinds : List OperandKind) :
    kinds.foldlM (encoder.optionalStep statement) progress = .ok progress := by
  induction kinds with
  | nil => rfl
  | cons kind kinds hyp =>
      rw [List.foldlM_cons, optionalStep]
      simp only [at_end]
      exact hyp

/-- A run decides the loop over operands that may be there, if all are or if it uses up the
operands. -/
theorem optional (run : Run encoder statement progress kinds next) {all : List OperandKind}
    (plain : ∀ kind ∈ all, IsPlain kind) (front : kinds <+: all)
    (complete : kinds = all ∨ next.operands = []) :
    all.foldlM (encoder.optionalStep statement) progress = .ok next := by
  obtain ⟨absent, rfl⟩ := front
  have no_more : absent.foldlM (encoder.optionalStep statement) next = .ok next := by
    rcases complete with equal | at_end
    · rw [List.append_right_eq_self.mp equal.symm]
      rfl
    · exact optional_over at_end absent
  induction run with
  | nil => exact no_more
  | result named number run hyp => exact absurd rfl (plain .result (by simp)).1
  | @operand words part operand rest resultType next kind kinds no_result written run hyp =>
      have step : encoder.optionalStep statement ⟨words, operand :: rest, resultType⟩ kind =
          .ok ⟨words ++ part, rest, if kind = .resultType then part.getLast? else resultType⟩ := by
        rw [optionalStep, if_neg (plain kind (by simp)).2]
        simp only [written]
        rfl
      rw [List.cons_append, List.foldlM_cons, step]
      refine hyp (fun kind mem => plain kind (List.mem_cons_of_mem _ mem))
        (complete.imp_left fun equal => ?_) no_more
      exact (List.cons.inj equal).2

/-- A run decides the loop over repeated operands, if it uses up the operands. -/
theorem variadic {kind : OperandKind} (plain : IsPlain kind) {count : ℕ}
    (run : Run encoder statement progress (List.replicate count kind) next)
    (at_end : next.operands = []) :
    encoder.variadicStep statement progress (some kind) = .ok next := by
  -- The repeated operands are written one by one, and their words come one after the other.
  have parts : ∃ parts, progress.operands.mapM
      (encoder.operandWords statement.line progress.resultType kind) = .ok parts ∧
      next = ⟨progress.words ++ parts.flatten, [], progress.resultType⟩ := by
    induction count generalizing progress with
    | zero =>
        cases run
        refine ⟨[], ?_, ?_⟩
        · rw [at_end]
          rfl
        · rw [List.flatten_nil, List.append_nil, ← at_end]
    | succ count hyp =>
        rw [List.replicate_succ] at run
        cases run with
        | result named number run => exact absurd rfl plain.1
        | @operand words part operand rest resultType _ _ _ no_result written run =>
            rw [if_neg plain.2] at run
            obtain ⟨parts, parts_eq, next_eq⟩ := hyp run
            refine ⟨part :: parts, ?_, ?_⟩
            · simp only [List.mapM_cons, written, bind, Except.bind, parts_eq]
              rfl
            · rw [next_eq, List.flatten_cons, List.append_assoc]
  obtain ⟨parts, parts_eq, next_eq⟩ := parts
  rw [variadicStep]
  simp only [parts_eq, bind, Except.bind, next_eq]
  rfl

end Run

/-- Operands that may be there or repeat tell an encoder nothing about later ones. -/
theorem isPlain_of_mem_optional {opcode : Opcode} {kind : OperandKind}
    (mem : kind ∈ opcode.layout.optional) : Run.IsPlain kind := by
  have every : ∀ kind ∈ opcode.layout.optional, kind ≠ .result ∧ kind ≠ .resultType := by
    cases opcode <;> decide
  exact every kind mem

/-- Operands that repeat tell an encoder nothing about later ones. -/
theorem isPlain_of_variadic {opcode : Opcode} {kind : OperandKind}
    (repeated : opcode.layout.variadic = some kind) : Run.IsPlain kind := by
  have every : ∀ kind ∈ opcode.layout.variadic, kind ≠ .result ∧ kind ≠ .resultType := by
    cases opcode <;> simp [Opcode.layout]
  exact every kind repeated

/-- A run over all operands of a statement decides its operand words. -/
theorem bodyWords_of_run (admits : statement.opcode.layout.Admits kinds)
    (run : Run encoder statement ⟨[], statement.operands, none⟩ kinds next)
    (at_end : next.operands = []) : encoder.bodyWords statement = .ok next.words := by
  obtain ⟨present, count, front, complete, rfl⟩ := admits
  obtain ⟨mid, run, repeated⟩ := run.append_inv
  obtain ⟨mid', fixed, optional⟩ := run.append_inv
  -- If optional operands are missing, nothing repeats and the statement ends with those present.
  have complete' : present = statement.opcode.layout.optional ∨ mid.operands = [] := by
    refine complete.imp_right fun zero => ?_
    cases variadic : statement.opcode.layout.variadic with
    | none =>
        rw [variadic] at repeated
        cases repeated
        exact at_end
    | some kind =>
        rw [variadic, zero] at repeated
        cases repeated
        exact at_end
  have last : encoder.variadicStep statement mid statement.opcode.layout.variadic = .ok next := by
    cases variadic : statement.opcode.layout.variadic with
    | none =>
        rw [variadic] at repeated
        cases repeated
        rfl
    | some kind =>
        rw [variadic] at repeated
        exact repeated.variadic (isPlain_of_variadic variadic) at_end
  rw [bodyWords]
  simp only [fixed.fixed, bind, Except.bind, last, at_end,
    optional.optional (fun _ mem => isPlain_of_mem_optional mem) front complete']
  rfl

end Encoder

end ShaderMachine
