import ShaderMachine.Proofs.Framing
import ShaderMachine.Proofs.InstructionRoundTrip
import ShaderMachine.Proofs.Meets

/-! # Encoded statements fill their layouts

What an encoder writes for a statement are the words of an instruction that fills its layout, so
nothing that it writes is lost when the words are read again.

* **`Statement.items`** — the operands of a statement in the order of their words.
* **`Encoder.IsSound`** — an encoder numbers IDs by numbers that IDs may have.
* **`Operand.IsClean`** — a string can be told from its padding and from the end of its line.
* **`Encoder.Run.of_bodyWords`** — an encoder goes over the operands that a layout admits.
* **`Encoder.Run.exists_parts`** — the words of a run are what its operands are written as.
* **`Encoder.fills_of_bodyWords`** — what is written for a statement fills the layout of its opcode.
* **`Encoder.IsEncoded`** — an instruction is what an encoder writes for a statement.
* **`Encoder.exists_encodes`** — encoded statements are framed instructions, one each. -/

namespace ShaderMachine

/-! ## The order of operands -/

/-- Operands in the order of their words, if they start with operands of the given kinds: a result,
which is no operand, stands where its kind does. -/
def placeResult (result : Option String) : List OperandKind → List Operand → List Operand
  | [], operands => operands
  | kind :: kinds, operands =>
      if kind = .result then (result.map .id).toList ++ placeResult result kinds operands
      else operands.take 1 ++ placeResult result kinds (operands.drop 1)

/-- The operands of a statement in the order of their words, its result among them. -/
def Statement.items (statement : Statement) : List Operand :=
  placeResult statement.result statement.opcode.layout.fixed statement.operands

section

variable {result : Option String}

/-- Without a result operands are in the order of their words. -/
theorem placeResult_of_not_mem {kinds : List OperandKind} (no_result : .result ∉ kinds)
    (operands : List Operand) : placeResult result kinds operands = operands := by
  induction kinds generalizing operands with
  | nil => rfl
  | cons kind kinds hyp =>
      rw [List.mem_cons, not_or] at no_result
      rw [placeResult, if_neg (Ne.symm no_result.1), hyp no_result.2, List.take_append_drop]

/-- Kinds without a result behind the others change nothing. -/
theorem placeResult_append {others : List OperandKind} (no_result : .result ∉ others)
    (kinds : List OperandKind) (operands : List Operand) :
    placeResult result (kinds ++ others) operands = placeResult result kinds operands := by
  induction kinds generalizing operands with
  | nil => exact placeResult_of_not_mem no_result operands
  | cons kind kinds hyp => rw [List.cons_append, placeResult, placeResult, hyp, hyp]

end

/-! ## One operand -/

/-- A literal of one word takes one word. -/
theorem length_of_integerWord? {line : ℕ} {operand : Operand} {fault : AssemblyError}
    {words : List Word}
    (encoded : (match integerWord? line operand with
      | some word => word.map fun word => [word]
      | none => .error fault) = .ok words) : ∃ word, words = [word] := by
  split at encoded
  · rename_i result _
    cases result with
    | error error => cases encoded
    | ok word =>
        cases encoded
        exact ⟨word, rfl⟩
  · cases encoded

/-- The value of a constant of a type of 64 bits takes two words. -/
theorem length_constantWords_wide {line : ℕ} {scalar : Scalar} (wide : scalar.width = 64)
    {operand : Operand} {words : List Word}
    (encoded : constantWords line (some scalar) operand = .ok words) : words.length = 2 := by
  -- What is no number has no value of any type.
  cases scalar with
  | float width =>
      obtain rfl : width = 64 := wide
      cases operand with
      | float text =>
          rw [constantWords] at encoded
          split at encoded
          · cases encoded
            rfl
          · cases encoded
      | integer value | bits value =>
          cases encoded
          rfl
      | _ => cases encoded
  | int width signed =>
      obtain rfl : width = 64 := wide
      cases operand with
      | integer value | bits value =>
          cases encoded
          rfl
      | _ => cases encoded

/-- The value of a constant of another type, or of one that is not known, takes one word. -/
theorem length_constantWords_narrow {line : ℕ} {scalar : Option Scalar}
    (narrow : scalar.map Scalar.width ≠ some 64) {operand : Operand} {words : List Word}
    (encoded : constantWords line scalar operand = .ok words) : words.length = 1 := by
  unfold constantWords at encoded
  simp only at encoded
  split at encoded
  case h_2 | h_3 =>
    split at encoded
    · cases encoded
      rfl
    · cases encoded
  case h_4 | h_5 | h_8 => cases encoded
  case h_7 =>
    cases encoded
    rfl
  case h_12 =>
    obtain ⟨word, rfl⟩ := length_of_integerWord? encoded
    rfl
  all_goals exact absurd rfl narrow

/-- The value of a constant takes as many words as the width of its type says. -/
theorem length_constantWords {line : ℕ} {scalar : Option Scalar} {operand : Operand}
    {words : List Word} (encoded : constantWords line scalar operand = .ok words) :
    words.length = constantLength (scalar.map Scalar.width) := by
  rw [constantLength]
  split
  · rename_i wide
    obtain ⟨scalar, rfl, width_eq⟩ := Option.map_eq_some_iff.mp wide
    exact length_constantWords_wide width_eq encoded
  · rename_i narrow
    exact length_constantWords_narrow narrow encoded

/-- An enumerant or an integer takes one word. -/
theorem Encoder.length_nameOrInteger {line : ℕ} {kind : OperandKind} {table : String}
    {valueOf : String → Option Word} {operand : Operand} {words : List Word}
    (encoded : nameOrInteger line kind table valueOf operand = .ok words) :
    ∃ word, words = [word] := by
  unfold nameOrInteger at encoded
  split at encoded
  · split at encoded
    · rename_i value _
      cases encoded
      exact ⟨value, rfl⟩
    · cases encoded
  · exact length_of_integerWord? encoded

/-- Whether the numbers of all IDs are ones that IDs may have. -/
def Encoder.IsSound (encoder : Encoder) : Prop :=
  ∀ name id, encoder.ids.get? name = some id → IsNumericId id

/-- Whether a string can be told from its padding and from the end of its line. -/
def Operand.IsClean : Operand → Prop
  | .str text => '\x00' ∉ text.toList ∧ '\n' ∉ text.toList
  | _ => True

namespace Encoder

variable {encoder : Encoder} {statement : Statement} {progress next : Progress}
  {kinds : List OperandKind}

/-- The number of an ID is one that IDs may have. -/
theorem IsSound.idWord (sound : encoder.IsSound) {line : ℕ} {name : String} {id : Id}
    (found : encoder.idWord line name = .ok id) : IsNumericId id := by
  unfold Encoder.idWord at found
  split at found
  · rename_i number
    cases found
    exact sound name id number
  · cases found

/-- What is written for an operand that is no constant is a string, or it is one word, which is the
number of an ID where the kind wants one. -/
theorem operandWords_inv {line : ℕ} {type : Option Id} {kind : OperandKind}
    (no_constant : kind ≠ .constant) {operand : Operand} {part : List Word}
    (written : encoder.operandWords line type kind operand = .ok part) :
    (∃ text, kind = .string ∧ operand = .str text ∧ part = packString text) ∨
      kind ≠ .string ∧ ∃ word, part = [word] ∧
        (kind ∈ [.resultType, .result, .id] → ∃ name, encoder.idWord line name = .ok word) := by
  unfold operandWords at written
  split at written
  -- These are the three kinds of operands that are IDs.
  case h_1 | h_2 | h_3 =>
    rename_i name
    obtain ⟨id, found, rfl⟩ := exists_of_map written
    exact .inr ⟨nofun, id, rfl, fun _ => ⟨name, found⟩⟩
  case h_4 =>
    rename_i text
    cases written
    exact .inl ⟨text, rfl, rfl, rfl⟩
  case h_5 =>
    obtain ⟨word, rfl⟩ := length_of_integerWord? written
    exact .inr ⟨nofun, word, rfl, by simp⟩
  case h_6 | h_7 =>
    obtain ⟨word, rfl⟩ := length_nameOrInteger written
    exact .inr ⟨nofun, word, rfl, by simp⟩
  case h_8 => exact absurd rfl no_constant
  case h_9 => cases written

/-- What is written for an operand that is no constant is what its kind takes. -/
theorem IsSound.accepts (sound : encoder.IsSound) {line : ℕ} {type : Option Id}
    {kind : OperandKind} (no_constant : kind ≠ .constant) {operand : Operand}
    (clean : operand.IsClean) {part : List Word}
    (written : encoder.operandWords line type kind operand = .ok part) (width : Option Word) :
    kind.Accepts width part := by
  rcases operandWords_inv no_constant written with ⟨text, rfl, rfl, rfl⟩ | ⟨plain, word, rfl, named⟩
  · exact ⟨text, clean.1, clean.2, rfl⟩
  · cases kind with
    | constant => exact absurd rfl no_constant
    | string => exact absurd rfl plain
    | integer | extended | enumerant => exact ⟨word, rfl⟩
    | resultType | result | id =>
        obtain ⟨name, found⟩ := named (by simp)
        exact ⟨word, rfl, sound.idWord found⟩

/-- A reference to an ID is written as one word. -/
theorem operandWords_idWord {line : ℕ} {type : Option Id} {kind : OperandKind}
    (reference : kind = .result ∨ kind = .resultType) {operand : Operand} {part : List Word}
    (written : encoder.operandWords line type kind operand = .ok part) :
    ∃ id, part = [id] := by
  have no_constant : kind ≠ .constant := by rcases reference with rfl | rfl <;> nofun
  rcases operandWords_inv no_constant written with ⟨text, rfl, -⟩ | ⟨-, word, part_eq, -⟩
  · exact absurd reference nofun
  · exact ⟨word, part_eq⟩

/-! ## All operands -/

namespace Run

/-- A loop over operands that are always there is a run, if a result stands before the statement. -/
theorem of_fixed (kept : .result ∈ kinds → statement.result.isSome = true)
    (looped : kinds.foldlM (encoder.fixedStep statement) progress = .ok next) :
    Run encoder statement progress kinds next := by
  induction kinds generalizing progress with
  | nil =>
      cases looped
      exact .nil _
  | cons kind kinds hyp =>
      rw [List.foldlM_cons] at looped
      obtain ⟨mid, step, looped⟩ := exists_of_bind looped
      have run := hyp (fun mem => kept (List.mem_cons_of_mem _ mem)) looped
      unfold fixedStep at step
      split at step
      · rename_i name named
        obtain ⟨id, number, step⟩ := exists_of_bind step
        cases step
        exact .result named number run
      · cases step
      · rename_i operand rest operands_eq no_result
        obtain ⟨part, written, step⟩ := exists_of_bind step
        cases step
        obtain ⟨words, operands, type⟩ := progress
        obtain rfl : operands = operand :: rest := operands_eq
        refine .operand (fun is_result => ?_) written run
        -- A result would have been written without an operand.
        subst is_result
        obtain ⟨name, named⟩ := Option.isSome_iff_exists.mp (kept List.mem_cons_self)
        exact no_result name rfl named

/-- A loop over operands that may be there is a run over those that are. -/
theorem of_optional (plain : ∀ kind ∈ kinds, IsPlain kind)
    (looped : kinds.foldlM (encoder.optionalStep statement) progress = .ok next) :
    ∃ present, present <+: kinds ∧ (present = kinds ∨ next.operands = []) ∧
      Run encoder statement progress present next := by
  induction kinds generalizing progress with
  | nil =>
      cases looped
      exact ⟨[], List.nil_prefix, .inl rfl, .nil _⟩
  | cons kind kinds hyp =>
      obtain ⟨words, operands, type⟩ := progress
      cases operands with
      | nil =>
          rw [optional_over rfl] at looped
          cases looped
          exact ⟨[], List.nil_prefix, .inr rfl, .nil _⟩
      | cons operand rest =>
          rw [List.forall_mem_cons] at plain
          rw [List.foldlM_cons] at looped
          obtain ⟨mid, step, looped⟩ := exists_of_bind looped
          obtain ⟨part, written, step⟩ := exists_of_bind step
          cases step
          obtain ⟨present, front, complete, run⟩ := hyp plain.2 looped
          refine ⟨kind :: present, (List.prefix_cons_inj kind).mpr front,
            complete.imp_left (congrArg (List.cons kind)), .operand plain.1.1 written ?_⟩
          rw [if_neg plain.1.2]
          exact run

/-- A loop over operands that repeat is a run over all of them. -/
theorem of_variadic {kind : OperandKind} (plain : IsPlain kind)
    (looped : encoder.variadicStep statement progress (some kind) = .ok next) :
    Run encoder statement progress (List.replicate progress.operands.length kind) next ∧
      next.operands = [] := by
  obtain ⟨parts, written, looped⟩ := exists_of_bind looped
  cases looped
  refine ⟨?_, rfl⟩
  obtain ⟨words, operands, type⟩ := progress
  simp only at written ⊢
  clear looped
  -- The operands are written one by one; each one moves on from the words before it.
  induction operands generalizing words parts with
  | nil =>
      rw [List.mapM_nil] at written
      cases written
      rw [List.flatten_nil, List.append_nil]
      exact .nil _
  | cons operand operands hyp =>
      rw [List.mapM_cons] at written
      obtain ⟨part, first, written⟩ := exists_of_bind written
      obtain ⟨others, rest, written⟩ := exists_of_bind written
      cases written
      rw [List.length_cons, List.replicate_succ, List.flatten_cons, ← List.append_assoc]
      refine .operand plain.1 first ?_
      rw [if_neg plain.2]
      exact hyp _ _ rest

/-- Runs one after the other are a run over all their operands. -/
theorem append {first second : List OperandKind} {mid : Progress}
    (front : Run encoder statement progress first mid)
    (back : Run encoder statement mid second next) :
    Run encoder statement progress (first ++ second) next := by
  induction front with
  | nil => exact back
  | result named number _ hyp => exact .result named number (hyp back)
  | operand no_result written _ hyp => exact .operand no_result written (hyp back)

/-- What an encoder writes for a statement it writes in a run over operands that the layout
admits. -/
theorem of_bodyWords {words : List Word}
    (kept : .result ∈ statement.opcode.layout.fixed → statement.result.isSome = true)
    (written : encoder.bodyWords statement = .ok words) :
    ∃ kinds next, statement.opcode.layout.Admits kinds ∧
      Run encoder statement ⟨[], statement.operands, none⟩ kinds next ∧ next.operands = [] ∧
      next.words = words := by
  obtain ⟨first, fixed_loop, written⟩ := exists_of_bind written
  obtain ⟨second, optional_loop, written⟩ := exists_of_bind written
  obtain ⟨third, variadic_loop, written⟩ := exists_of_bind written
  obtain ⟨present, front, complete, optional⟩ :=
    of_optional (fun _ mem => isPlain_of_mem_optional mem) optional_loop
  -- Operands repeat only behind all of those that may be there.
  obtain ⟨count, none_missing, repeated⟩ : ∃ count, (present = statement.opcode.layout.optional ∨
      count = 0) ∧ Run encoder statement second
        (statement.opcode.layout.variadic.elim [] (List.replicate count)) third := by
    cases variadic : statement.opcode.layout.variadic with
    | none =>
        rw [variadic] at variadic_loop
        cases variadic_loop
        exact ⟨0, .inr rfl, .nil _⟩
    | some kind =>
        rw [variadic] at variadic_loop
        refine ⟨_, complete.imp_right fun at_end => ?_,
          (of_variadic (isPlain_of_variadic variadic) variadic_loop).1⟩
        rw [at_end, List.length_nil]
  split at written
  · rename_i none_left
    cases written
    exact ⟨_, third, ⟨present, count, front, none_missing, rfl⟩,
      ((of_fixed kept fixed_loop).append optional).append repeated, none_left, rfl⟩
  · cases written

/-- The words of a run are those of its operands, one after the other. What holds of the words of
each kind of operand and of each operand holds of them. -/
theorem exists_parts {P : OperandKind → List Word → Prop} {Q : Operand → List Word → Prop}
    (run : Run encoder statement progress kinds next)
    (named : ∀ name id, statement.result = some name →
      encoder.idWord statement.line name = .ok id → P .result [id] ∧ Q (.id name) [id])
    (each : ∀ kind ∈ kinds, ∀ operand ∈ progress.operands, ∀ type part,
      encoder.operandWords statement.line type kind operand = .ok part →
        P kind part ∧ Q operand part) :
    ∃ parts, next.words = progress.words ++ parts.flatten ∧ List.Forall₂ P kinds parts ∧
      (next.operands = [] →
        List.Forall₂ Q (placeResult statement.result kinds progress.operands) parts) := by
  -- Induction on the run: the part of each operand is put in front of those behind it.
  induction run with
  | nil progress =>
      refine ⟨[], (List.append_nil _).symm, .nil, fun none_left => ?_⟩
      rw [placeResult, none_left]
      exact .nil
  | @result progress next kinds name id is_result number run hyp =>
      obtain ⟨parts, words_eq, by_kind, by_operand⟩ :=
        hyp fun kind mem => each kind (List.mem_cons_of_mem _ mem)
      obtain ⟨first, first'⟩ := named name id is_result number
      refine ⟨[id] :: parts, ?_, .cons first by_kind, fun none_left => ?_⟩
      · rw [words_eq, List.flatten_cons, List.append_assoc]
      · rw [placeResult, if_pos rfl, is_result]
        exact .cons first' (is_result ▸ by_operand none_left)
  | @operand words part operand rest type next kind kinds no_result written run hyp =>
      obtain ⟨parts, words_eq, by_kind, by_operand⟩ := hyp fun kind mem other other_mem =>
        each kind (List.mem_cons_of_mem _ mem) other (List.mem_cons_of_mem _ other_mem)
      obtain ⟨first, first'⟩ :=
        each kind List.mem_cons_self operand List.mem_cons_self type part written
      refine ⟨part :: parts, ?_, .cons first by_kind, fun none_left => ?_⟩
      · rw [words_eq, List.flatten_cons, List.append_assoc]
      · rw [placeResult, if_neg no_result]
        exact .cons first' (by_operand none_left)

/-- A run over the operands of a constant writes its type, its ID and as many words for its value as
the width of the type says. -/
theorem exists_constant {operands : List Operand}
    (run : Run encoder statement ⟨[], operands, none⟩ Opcode.constant.layout.fixed next) :
    ∃ typed type name id value, typed ∈ operands ∧
      encoder.operandWords statement.line none .resultType typed = .ok [type] ∧
      encoder.idWord statement.line name = .ok id ∧
      value.length = constantLength ((encoder.scalars[type]?).map Scalar.width) ∧
      next.words = type :: id :: value := by
  have kinds_eq : Opcode.constant.layout.fixed = [.resultType] ++ [.result, .constant] := rfl
  rw [kinds_eq] at run
  obtain ⟨mid, front, last⟩ := run.append_inv
  cases front with
  | @operand _ part typed rest _ _ _ _ _ written front =>
      obtain ⟨type, rfl⟩ := encoder.operandWords_idWord (.inr rfl) written
      cases front
      cases last with
      | operand no_result => exact absurd rfl no_result
      | @result _ _ _ name id _ number last =>
          cases last with
          | @operand _ value _ _ _ _ _ _ _ written' last =>
              cases last
              -- The type is the first word, and the scalars say what it is.
              exact ⟨typed, type, name, id, value, List.mem_cons_self, written, number,
                length_constantWords written', rfl⟩

end Run

/-- The operand words that are written for a statement are what the operands of its layout take, if
that holds operand by operand. The width of a constant is that of its result type. -/
theorem exists_filled {P : OperandKind → List Word → Prop} {words : List Word}
    (named : ∀ name id, encoder.idWord statement.line name = .ok id → P .result [id])
    (each : ∀ kind, kind ≠ .constant → ∀ operand ∈ statement.operands, ∀ type part,
      encoder.operandWords statement.line type kind operand = .ok part → P kind part)
    (constant : ∀ part : List Word, part.length = constantLength
      ((words.head?.bind fun id => encoder.scalars[id]?).map Scalar.width) → P .constant part)
    (kept : .result ∈ statement.opcode.layout.fixed → statement.result.isSome = true)
    (written : encoder.bodyWords statement = .ok words) :
    ∃ kinds parts, statement.opcode.layout.Admits kinds ∧ List.Forall₂ P kinds parts ∧
      words = parts.flatten := by
  obtain ⟨kinds, next, admits, run, -, rfl⟩ := Run.of_bodyWords kept written
  by_cases is_constant : statement.opcode = .constant
  · rw [is_constant] at admits ⊢
    obtain rfl := OperandLayout.eq_of_admits rfl rfl admits
    obtain ⟨typed, type, name, id, value, mem, is_type, number, length_eq, words_eq⟩ :=
      run.exists_constant
    rw [words_eq] at constant
    refine ⟨_, [[type], [id], value], admits, .cons ?_ (.cons (named name id number)
      (.cons (constant value length_eq) .nil)), by rw [words_eq]; simp⟩
    exact each .resultType nofun typed mem none [type] is_type
  · have no_constant := constant_not_mem_of_admits is_constant admits
    obtain ⟨parts, words_eq, by_kind, -⟩ := run.exists_parts (P := P) (Q := fun _ _ => True)
      (fun name id _ number => ⟨named name id number, trivial⟩)
      fun kind mem operand operand_mem type part written =>
        ⟨each kind (fun same => no_constant (same ▸ mem)) operand operand_mem type part written,
          trivial⟩
    exact ⟨_, parts, admits, by_kind, words_eq⟩

/-- The operand words that are written for a statement fill the layout of its opcode, if the width
of a constant is that of its result type. -/
theorem fills_of_bodyWords {words : List Word} (sound : encoder.IsSound)
    (clean : ∀ operand ∈ statement.operands, operand.IsClean)
    (kept : .result ∈ statement.opcode.layout.fixed → statement.result.isSome = true)
    (written : encoder.bodyWords statement = .ok words) :
    statement.opcode.layout.Fills
      ((words.head?.bind fun id => encoder.scalars[id]?).map Scalar.width) words :=
  exists_filled (fun _ id number => ⟨id, rfl, sound.idWord number⟩)
    (fun _ no_constant _ mem _ _ written => sound.accepts no_constant (clean _ mem) written _)
    (fun _ length_eq => length_eq) kept written

/-- What an encoder writes for a statement: an instruction of the statement's opcode, whose operand
words are those of the statement and few enough for a header to count. -/
structure IsEncoded (encoder : Encoder) (statement : Statement) (instruction : Instruction) :
    Prop where
  /-- The opcode is that of the statement. -/
  opcode : instruction.opcode = statement.opcode.number
  /-- A header can count the words. -/
  short : instruction.wordCount < 65536
  /-- The statement has a result if its layout has one. -/
  result : statement.result.isSome = statement.opcode.layout.hasResult
  /-- The operand words are those of the statement. -/
  operands : encoder.bodyWords statement = .ok instruction.operands

/-- A statement whose layout has a result has one. -/
theorem IsEncoded.kept {instruction : Instruction}
    (encoded : encoder.IsEncoded statement instruction)
    (mem : .result ∈ statement.opcode.layout.fixed) : statement.result.isSome = true := by
  rw [encoded.result]
  exact List.contains_iff_mem.mpr mem

/-- The opcode of an encoded statement is known. -/
theorem IsEncoded.known {instruction : Instruction}
    (encoded : encoder.IsEncoded statement instruction) :
    Opcode.ofNumber? instruction.opcode = some statement.opcode := by
  rw [encoded.opcode]
  exact Opcode.ofNumber?_number statement.opcode

/-- An encoded statement is an instruction, wherever it stands. -/
theorem exists_isEncoded {words : List Word} (encoded : encoder.encode statement = .ok words)
    (offset : ℕ) : ∃ instruction : Instruction, instruction.offset = offset ∧
      instruction.words = words ∧ encoder.IsEncoded statement instruction := by
  unfold encode at encoded
  split at encoded
  · cases encoded
  · cases encoded
  · rename_i no_result needless
    obtain ⟨body, written, encoded⟩ := exists_of_bind encoded
    dsimp only at encoded
    split at encoded
    · rename_i short
      cases encoded
      refine ⟨⟨offset, statement.opcode.number, body⟩, rfl, rfl, rfl, short, ?_, written⟩
      -- A missing result and a needless one were refused.
      cases result : statement.result with
      | some name => exact (eq_true_of_ne_false fun none => needless name result none).symm
      | none => exact (eq_false_of_ne_true fun some => no_result result some).symm
    · cases encoded

/-! ## Statements one after the other -/

/-- Whether instructions are what an encoder writes for statements, one each; each statement may
declare a type that the encoder knows from then on. -/
inductive Encodes : Encoder → List Statement → List Instruction → Prop
  /-- No statement is left. -/
  | nil (encoder : Encoder) : Encodes encoder [] []
  /-- One statement is encoded, then the others. -/
  | cons {encoder : Encoder} {statement : Statement} {instruction : Instruction}
      {statements : List Statement} {instructions : List Instruction}
      (encoded : encoder.IsEncoded statement instruction)
      (encodes : (encoder.note statement instruction.words).Encodes statements instructions) :
      Encodes encoder (statement :: statements) (instruction :: instructions)

/-- Encoded statements are framed instructions, one each. -/
theorem exists_encodes {statements : List Statement} {written words : List (List Word)}
    (encoded : encoder.encodeFrom written statements = .ok words) (offset : ℕ) :
    ∃ instructions, words = written.reverse ++ instructions.map Instruction.words ∧
      IsFramed offset instructions ∧ encoder.Encodes statements instructions := by
  induction statements generalizing encoder written offset with
  | nil =>
      cases encoded
      exact ⟨[], by rw [List.map_nil, List.append_nil], trivial, .nil encoder⟩
  | cons statement statements hyp =>
      unfold encodeFrom at encoded
      split at encoded
      · cases encoded
      · rename_i first is_first
        obtain ⟨instruction, rfl, rfl, is_encoded⟩ := exists_isEncoded is_first offset
        obtain ⟨instructions, words_eq, framed, encodes⟩ := hyp encoded instruction.stop
        refine ⟨instruction :: instructions, ?_, ⟨rfl, is_encoded.short, framed⟩,
          .cons is_encoded encodes⟩
        rw [words_eq, List.reverse_cons, List.append_assoc, List.map_cons, List.singleton_append]

end Encoder

end ShaderMachine
