import ShaderMachine.Proofs.InstructionRoundTrip
import ShaderMachine.Proofs.Meets

/-! # Operands that are read

A decoder reads each operand off the front of the words that are left. The words of the operand are
those that it was read from, unless it is a string that is not padded with zeros.

* **`IsZeroPadded`** — whether words are a string with nothing but zeros behind it.
* **`OperandKind.afterAll`** and **`OperandKind.stringsOf`** — the words after operands of some
  kinds, and the strings among them.
* **`Decoder.Takes`** — what a decoder makes of one operand.
* **`Decoder.Run.exists_added`** and **`Decoder.Run.exists_result`** — what it makes of many.
* **`Decoder.exists_run_of_decodeOperands`** — an instruction is decoded by one run. -/

namespace ShaderMachine

/-- The words of an operand. -/
def DecodedOperand.words : DecodedOperand → List Word
  | .id reference => [reference]
  | .literal value => [value]
  | .str text => packString text
  | .enumerant _ value => [value]
  | .extended _ instruction => [instruction]
  | .constant _ words => words

/-- Words that are kept as they are stand for themselves. -/
theorem DecodedOperand.flatMap_literal (words : List Word) :
    (words.map DecodedOperand.literal).flatMap DecodedOperand.words = words := by
  rw [List.flatMap_map]
  change words.flatMap (fun word => [word]) = words
  exact List.flatMap_singleton' words

/-! ## Strings with zero padding -/

/-- Whether the bytes of words are all zero from the first one on that is. -/
def IsZeroPadded (words : List Word) : Prop :=
  ∀ byte ∈ (bytesOfWords words).dropWhile (· != 0), byte = 0

instance (words : List Word) : Decidable (IsZeroPadded words) :=
  inferInstanceAs (Decidable (∀ _ ∈ _, _))

/-- The bytes of a word with a NUL, up to that one, are packed into the word again if nothing but
zeros comes after them. -/
theorem packBytes_takeWhile {b₀ b₁ b₂ b₃ : UInt8} (ends : 0 ∈ [b₀, b₁, b₂, b₃]) :
    ([b₀, b₁, b₂, b₃].takeWhile (· != 0)).length < 4 ∧
      ((∀ byte ∈ [b₀, b₁, b₂, b₃].dropWhile (· != 0), byte = 0) →
        packBytes [] ([b₀, b₁, b₂, b₃].takeWhile (· != 0)) = [Word.ofBytes b₀ b₁ b₂ b₃]) := by
  -- The cases are where the first zero byte of the word is.
  by_cases zero₀ : b₀ = 0
  · subst zero₀
    refine ⟨by simp, fun zeros => ?_⟩
    obtain ⟨rfl, rfl, rfl⟩ : b₁ = 0 ∧ b₂ = 0 ∧ b₃ = 0 := by simpa using zeros
    rfl
  by_cases zero₁ : b₁ = 0
  · subst zero₁
    refine ⟨by simp [zero₀], fun zeros => ?_⟩
    obtain ⟨rfl, rfl⟩ : b₂ = 0 ∧ b₃ = 0 := by simpa [zero₀] using zeros
    simp [zero₀, packBytes]
  by_cases zero₂ : b₂ = 0
  · subst zero₂
    refine ⟨by simp [zero₀, zero₁], fun zeros => ?_⟩
    obtain rfl : b₃ = 0 := by simpa [zero₀, zero₁] using zeros
    simp [zero₀, zero₁, packBytes]
  obtain rfl : b₃ = 0 := by simpa [Ne.symm zero₀, Ne.symm zero₁, Ne.symm zero₂, eq_comm] using ends
  exact ⟨by simp [zero₀, zero₁, zero₂], fun _ => by simp [zero₀, zero₁, zero₂, packBytes]⟩

/-- What is read up to a NUL is the words that end with it. With zero padding these are the packed
bytes in front of it. -/
theorem readTerminated_inv {read bytes : Bytes} {words rest : List Word}
    (found : readTerminated read words = some (bytes, rest)) :
    ∃ front chunk, bytes = read.reverse ++ front ∧ words = chunk ++ rest ∧
      chunk.length = stringWordCount front.length ∧
      (IsZeroPadded chunk → chunk = packBytes [] front) := by
  induction words generalizing read with
  | nil => cases found
  | cons word words hyp =>
      obtain ⟨b₀, b₁, b₂, b₃, bytes_eq, rfl⟩ := word.exists_bytes
      have parts := List.takeWhile_append_dropWhile (l := [b₀, b₁, b₂, b₃]) (p := (· != 0))
      rw [readTerminated, bytes_eq, List.span_eq_takeWhile_dropWhile] at found
      -- A word without a zero byte is passed, and one with a zero byte ends the string.
      cases dropped : [b₀, b₁, b₂, b₃].dropWhile (· != 0) with
      | nil =>
          rw [dropped, List.append_nil] at parts
          simp only [dropped, parts] at found
          obtain ⟨front, chunk, rfl, rfl, length_eq, packed⟩ := hyp found
          refine ⟨b₀ :: b₁ :: b₂ :: b₃ :: front, _ :: chunk, by simp, rfl, ?_, fun padded => ?_⟩
          · rw [List.length_cons, length_eq]
            simp only [stringWordCount, List.length_cons]
            omega
          · have others : IsZeroPadded chunk := by
              rw [IsZeroPadded, bytesOfWords, List.flatMap_cons, bytes_eq, List.dropWhile_append,
                dropped] at padded
              exact padded
            rw [packBytes, packBytes_eq_append, ← packed others]
            rfl
      | cons zero zeros =>
          simp only [dropped] at found
          cases found
          have ends : 0 ∈ [b₀, b₁, b₂, b₃] := by
            by_contra endless
            have passed : [b₀, b₁, b₂, b₃].dropWhile (· != 0) = [] :=
              List.dropWhile_eq_nil_iff.mpr fun _ mem =>
                bne_iff_ne.mpr (ne_of_mem_of_not_mem mem endless)
            cases dropped.symm.trans passed
          obtain ⟨few, packed⟩ := packBytes_takeWhile ends
          refine ⟨_, [_], by simp, rfl, ?_, fun padded => (packed ?_).symm⟩
          · rw [stringWordCount, Nat.div_eq_of_lt few]
            rfl
          · rw [IsZeroPadded, bytesOfWords, List.flatMap_singleton, bytes_eq] at padded
            exact padded

/-- A text has the bytes that it was found from. -/
theorem toUTF8_of_textOfBytes? {bytes : Bytes} {text : String}
    (found : textOfBytes? bytes = some text) : text.toUTF8.toList = bytes := by
  rw [textOfBytes?, String.fromUTF8?] at found
  split_ifs at found with valid
  cases found
  rw [String.toUTF8_eq_toByteArray, byteList_eq]
  exact List.toList_data_toByteArray

namespace OperandKind

/-- The words that are left after an operand of a kind. -/
def after : OperandKind → List Word → List Word
  | .string, words => (readTerminated [] words).elim [] Prod.snd
  | .constant, _ => []
  | _, words => words.tail

/-- The words that are left after operands of some kinds. -/
def afterAll (kinds : List OperandKind) (words : List Word) : List Word :=
  kinds.foldl (fun words kind => kind.after words) words

/-- The words of the strings among operands of some kinds. -/
def stringsOf : List OperandKind → List Word → List (List Word)
  | [], _ => []
  | kind :: kinds, words =>
      let rest := kind.after words
      if kind = .string then words.take (words.length - rest.length) :: stringsOf kinds rest
      else stringsOf kinds rest

end OperandKind

/-- The kinds of the operands of an instruction with at most `count` repeated ones. -/
def OperandLayout.upTo (layout : OperandLayout) (count : Nat) : List OperandKind :=
  layout.fixed ++ layout.optional ++ layout.variadic.elim [] (List.replicate count)

/-! ## Operands -/

namespace Decoder

variable {decoder : Decoder} {decoding next : Decoding} {kind : OperandKind}
  {kinds : List OperandKind}

/-- What is read as an operand of a kind: words in front of those after it. They are the words of
the operand, unless it is a string with other padding. -/
structure IsRead (kind : OperandKind) (words : List Word) (operand : DecodedOperand)
    (rest : List Word) : Prop where
  /-- The words after it are those after an operand of the kind. -/
  rest_eq : rest = kind.after words
  /-- It has words. -/
  nonempty : operand.words ≠ []
  /-- The words in front of them are its own. -/
  exists_part : ∃ part, part ≠ [] ∧ words = part ++ rest ∧
    ((kind = .string → IsZeroPadded part) → operand.words = part)

/-- A word is read off the front. -/
theorem exists_wordOperand {cursor after : Cursor} {make : Word → DecodedOperand}
    {operand : DecodedOperand} (read : wordOperand cursor make = .ok (operand, after)) :
    ∃ word, operand = make word ∧ cursor.ahead = word :: after.ahead ∧
      after.base = cursor.base ∧ after.words = cursor.words := by
  obtain ⟨base, behind, ahead⟩ := cursor
  cases ahead with
  | nil => cases read
  | cons word rest =>
      cases read
      exact ⟨word, rfl, rfl, rfl, by simp [Cursor.words]⟩

/-- A string is read off the front. -/
theorem isRead_string {cursor after : Cursor} {text : String}
    (read : cursor.literalString = (.ok text, after)) :
    IsRead .string cursor.ahead (.str text) after.ahead ∧
      after.base = cursor.base ∧ after.words = cursor.words := by
  rw [Cursor.literalString] at read
  cases found : readTerminated [] cursor.ahead with
  | none =>
      rw [found] at read
      cases read
  | some pair =>
      obtain ⟨bytes, rest⟩ := pair
      obtain ⟨front, chunk, rfl, ahead_eq, length_eq, packed⟩ := readTerminated_inv found
      simp only [found] at read
      cases decoded : textOfBytes? bytes with
      | none =>
          rw [decoded] at read
          cases read
      | some text =>
          rw [decoded] at read
          cases read
          -- The cursor moves over the words of the string.
          have rest_eq : (cursor.advance (stringWordCount bytes.length)).ahead = rest := by
            rw [Cursor.advance, ← length_eq, ahead_eq, List.drop_left]
          rw [rest_eq]
          refine ⟨⟨?_, Cursor.packString_ne_nil text, chunk, ?_, ahead_eq, fun padded => ?_⟩, rfl,
            Cursor.words_advance _ _⟩
          · rw [OperandKind.after, found]
            rfl
          · rw [← List.length_pos_iff, length_eq]
            exact Nat.succ_pos _
          · rw [DecodedOperand.words, packString, toUTF8_of_textOfBytes? decoded]
            exact (packed (padded rfl)).symm

/-- What is read as an operand is in front of the words after it. -/
theorem isRead_of_readOperand {operand : DecodedOperand} {after : Cursor}
    (more : decoding.cursor.isEmpty = false)
    (read : decoder.readOperand decoding kind = .ok (operand, after)) :
    IsRead kind decoding.cursor.ahead operand after.ahead ∧
      after.base = decoding.cursor.base ∧ after.words = decoding.cursor.words := by
  cases kind with
  | string =>
      rw [readOperand.eq_def] at read
      cases found : decoding.cursor.literalString with
      | mk text rest =>
          cases text with
          | error error =>
              simp only [found] at read
              cases read
          | ok text =>
              simp only [found] at read
              cases read
              exact isRead_string found
  | constant =>
      cases read
      rw [Cursor.isEmpty, List.isEmpty_eq_false_iff] at more
      refine ⟨⟨rfl, more, _, more, (List.append_nil _).symm, fun _ => rfl⟩, rfl, ?_⟩
      simp [Cursor.words, Cursor.drained]
  | _ =>
      obtain ⟨word, rfl, ahead_eq, position⟩ := exists_wordOperand read
      refine ⟨⟨?_, List.cons_ne_nil _ _, [word], by simp, ahead_eq, fun _ => rfl⟩, position⟩
      rw [ahead_eq]
      rfl

/-- What is wrong with words that start with no string, at a given offset. -/
inductive StringFault (offset : ℕ) (words : List Word) : BinaryError → Prop
  /-- They hold no NUL. -/
  | unterminated (endless : readTerminated [] words = none) :
      StringFault offset words (.unterminatedString offset)
  /-- The bytes before the first NUL are no text. -/
  | invalid {bytes : Bytes} {rest : List Word}
      (found : readTerminated [] words = some (bytes, rest))
      (no_text : textOfBytes? bytes = none) : StringFault offset words (.invalidString offset)

/-- A string that cannot be read does not end or is no text. -/
theorem stringFault_of_literalString {cursor after : Cursor} {error : BinaryError}
    (failed : cursor.literalString = (.error error, after)) :
    StringFault cursor.offset cursor.ahead error := by
  rw [Cursor.literalString] at failed
  cases found : readTerminated [] cursor.ahead with
  | none =>
      rw [found] at failed
      cases failed
      exact .unterminated found
  | some pair =>
      simp only [found] at failed
      cases decoded : textOfBytes? pair.1 with
      | none =>
          rw [decoded] at failed
          cases failed
          exact .invalid found decoded
      | some text =>
          rw [decoded] at failed
          cases failed

/-- Only a string cannot be read, where words are left. -/
theorem stringFault_of_readOperand {error : BinaryError} (more : decoding.cursor.isEmpty = false)
    (failed : decoder.readOperand decoding kind = .error error) :
    kind = .string ∧ StringFault decoding.cursor.offset decoding.cursor.ahead error := by
  cases kind with
  | string =>
      rw [readOperand.eq_def] at failed
      cases found : decoding.cursor.literalString with
      | mk text rest =>
          cases text with
          | error error =>
              simp only [found] at failed
              cases failed
              exact ⟨rfl, stringFault_of_literalString found⟩
          | ok text =>
              simp only [found] at failed
              cases failed
  | constant => cases failed
  | _ =>
      rw [Cursor.isEmpty, List.isEmpty_eq_false_iff] at more
      obtain ⟨word, rest, ahead_eq⟩ := List.exists_cons_of_ne_nil more
      rw [readOperand.eq_def] at failed
      simp only [wordOperand, Cursor.word, ahead_eq] at failed
      cases failed

/-- What has become of a decoding with one more operand, which is its result or the latest of the
others. -/
structure Takes (decoding : Decoding) (kind : OperandKind) (operand : DecodedOperand)
    (next : Decoding) : Prop where
  /-- The operand is read off the front of the words. -/
  read : IsRead kind decoding.cursor.ahead operand next.cursor.ahead
  /-- The words are still those of one stream. -/
  position : next.cursor.base = decoding.cursor.base ∧ next.cursor.words = decoding.cursor.words
  /-- A result is no other operand. -/
  result : kind = .result → ∃ id, operand = .id id ∧ next.result = some id ∧
    next.operands = decoding.operands
  /-- Any other operand is the latest one. -/
  operand : kind ≠ .result → next.result = decoding.result ∧
    next.operands = operand :: decoding.operands

/-- An operand is read and put where it belongs. -/
theorem exists_takes (more : decoding.cursor.isEmpty = false)
    (taken : decoder.takeOperand decoding kind = .ok next) :
    ∃ operand, Takes decoding kind operand next := by
  rw [takeOperand] at taken
  obtain ⟨⟨operand, after⟩, read, taken⟩ := exists_of_bind taken
  replace read := ok_of_mapError read
  obtain ⟨is_read, position⟩ := isRead_of_readOperand more read
  refine ⟨operand, ?_⟩
  by_cases is_result : kind = .result
  · subst is_result
    obtain ⟨word, rfl, -⟩ := exists_wordOperand read
    cases taken
    exact ⟨is_read, position, fun _ => ⟨word, rfl, rfl, rfl⟩, fun other => absurd rfl other⟩
  · have others : next.cursor = after ∧ next.result = decoding.result ∧
        next.operands = operand :: decoding.operands := by
      dsimp only at taken
      split at taken
      · exact absurd rfl is_result
      · cases taken
        exact ⟨rfl, rfl, rfl⟩
      · cases taken
        exact ⟨rfl, rfl, rfl⟩
    obtain ⟨rfl, others⟩ := others
    exact ⟨is_read, position, fun same => absurd same is_result, fun _ => others⟩

/-! ## Runs over operands -/

/-- An operand takes a word. -/
theorem remaining_lt_of_takeOperand (more : decoding.cursor.isEmpty = false)
    (taken : decoder.takeOperand decoding kind = .ok next) :
    next.cursor.remaining < decoding.cursor.remaining := by
  obtain ⟨operand, takes⟩ := exists_takes more taken
  obtain ⟨part, nonempty, ahead_eq, -⟩ := takes.read.exists_part
  have := List.length_pos_iff.mpr nonempty
  rw [Cursor.remaining, Cursor.remaining, ahead_eq, List.length_append]
  omega

namespace Run

/-- A run goes on with another one. -/
theorem append {mid : Decoding} {first second : List OperandKind}
    (front : Run decoder decoding first mid) (back : Run decoder mid second next) :
    Run decoder decoding (first ++ second) next := by
  induction front with
  | nil => exact back
  | cons taken shorter run hyp => exact .cons taken shorter (hyp back)

/-- The loop over operands that are always there is a run over them. -/
theorem of_fixed {offset : ℕ} {opcode : Opcode}
    (read : kinds.foldlM (decoder.fixedStep offset opcode) decoding = .ok next) :
    Run decoder decoding kinds next := by
  induction kinds generalizing decoding with
  | nil =>
      cases read
      exact .nil _
  | cons kind kinds hyp =>
      rw [List.foldlM_cons] at read
      obtain ⟨mid, stepped, read⟩ := exists_of_bind read
      rw [fixedStep] at stepped
      split_ifs at stepped with at_end
      rw [Bool.not_eq_true] at at_end
      exact .cons stepped (remaining_lt_of_takeOperand at_end stepped) (hyp read)

/-- The loop over operands that may be there is a run over the first of them, which are all unless
the words end. -/
theorem exists_of_optional (read : kinds.foldlM decoder.optionalStep decoding = .ok next) :
    ∃ present, present <+: kinds ∧ (present = kinds ∨ next.cursor.isEmpty = true) ∧
      Run decoder decoding present next := by
  induction kinds generalizing decoding with
  | nil =>
      cases read
      exact ⟨[], List.prefix_rfl, .inl rfl, .nil _⟩
  | cons kind kinds hyp =>
      by_cases at_end : decoding.cursor.isEmpty = true
      · rw [optional_over at_end] at read
        cases read
        exact ⟨[], List.nil_prefix, .inr at_end, .nil _⟩
      · rw [List.foldlM_cons] at read
        obtain ⟨mid, stepped, read⟩ := exists_of_bind read
        rw [optionalStep, if_neg at_end] at stepped
        rw [Bool.not_eq_true] at at_end
        obtain ⟨present, front, complete, run⟩ := hyp read
        refine ⟨kind :: present, (List.prefix_cons_inj kind).mpr front, ?_,
          .cons stepped (remaining_lt_of_takeOperand at_end stepped) run⟩
        exact complete.imp_left fun equal => by rw [equal]

/-- The loop over repeated operands is a run over some of them. -/
theorem exists_of_variadic {fuel : ℕ}
    (read : decoder.variadicSteps kind fuel decoding = .ok next) :
    ∃ count, Run decoder decoding (List.replicate count kind) next := by
  induction fuel generalizing decoding with
  | zero =>
      cases read
      exact ⟨0, .nil _⟩
  | succ fuel hyp =>
      rw [variadicSteps] at read
      split_ifs at read with at_end
      · cases read
        exact ⟨0, .nil _⟩
      · rw [Bool.not_eq_true] at at_end
        cases taken : decoder.takeOperand decoding kind with
        | error error =>
            rw [taken] at read
            cases read
        | ok mid =>
            rw [taken] at read
            obtain ⟨count, run⟩ := hyp read
            exact ⟨count + 1, .cons taken (remaining_lt_of_takeOperand at_end taken) run⟩

/-- A run stays in its stream and passes the words of its operands. -/
theorem position (run : Run decoder decoding kinds next) :
    next.cursor.base = decoding.cursor.base ∧ next.cursor.words = decoding.cursor.words ∧
      next.cursor.ahead = OperandKind.afterAll kinds decoding.cursor.ahead := by
  induction run with
  | nil => exact ⟨rfl, rfl, rfl⟩
  | cons taken shorter run hyp =>
      obtain ⟨operand, takes⟩ := exists_takes (not_isEmpty shorter) taken
      obtain ⟨base_eq, words_eq, ahead_eq⟩ := hyp
      refine ⟨base_eq.trans takes.position.1, words_eq.trans takes.position.2, ?_⟩
      rw [ahead_eq, takes.read.rest_eq]
      rfl

/-- Every operand that a run puts after those before it has words. -/
theorem words_ne_nil (run : Run decoder decoding kinds next)
    (before : ∀ operand ∈ decoding.operands, operand.words ≠ []) :
    ∀ operand ∈ next.operands, operand.words ≠ [] := by
  induction run with
  | nil => exact before
  | @cons decoding mid next kind kinds taken shorter run hyp =>
      obtain ⟨operand, takes⟩ := exists_takes (not_isEmpty shorter) taken
      refine hyp ?_
      by_cases is_result : kind = .result
      · obtain ⟨id, -, -, same⟩ := takes.result is_result
        rw [same]
        exact before
      · rw [(takes.operand is_result).2, List.forall_mem_cons]
        exact ⟨takes.read.nonempty, before⟩

/-- A run without a result puts one operand for each kind after those before it. With zero padding
their words are those that the run has passed. -/
theorem exists_added (run : Run decoder decoding kinds next) (no_result : .result ∉ kinds) :
    ∃ added : List DecodedOperand, added.length = kinds.length ∧
      next.operands = added.reverse ++ decoding.operands ∧ next.result = decoding.result ∧
      ∀ more, (∀ chunk ∈ OperandKind.stringsOf (kinds ++ more) decoding.cursor.ahead,
          IsZeroPadded chunk) →
        decoding.cursor.ahead = added.flatMap DecodedOperand.words ++ next.cursor.ahead ∧
          ∀ chunk ∈ OperandKind.stringsOf more next.cursor.ahead, IsZeroPadded chunk := by
  induction run with
  | nil => exact ⟨[], rfl, rfl, rfl, fun more padded => ⟨rfl, padded⟩⟩
  | @cons decoding mid next kind kinds taken shorter run hyp =>
      rw [List.mem_cons, not_or] at no_result
      obtain ⟨operand, takes⟩ := exists_takes (not_isEmpty shorter) taken
      obtain ⟨added, length_eq, operands_eq, result_eq, words_eq⟩ := hyp no_result.2
      obtain ⟨result_eq', operands_eq'⟩ := takes.operand (Ne.symm no_result.1)
      obtain ⟨part, -, ahead_eq, part_eq⟩ := takes.read.exists_part
      refine ⟨operand :: added, ?_, ?_, result_eq.trans result_eq', fun more padded => ?_⟩
      · rw [List.length_cons, List.length_cons, length_eq]
      · rw [operands_eq, operands_eq', List.reverse_cons, List.append_assoc]
        rfl
      · rw [List.cons_append, OperandKind.stringsOf, ← takes.read.rest_eq] at padded
        -- The strings of the words are this operand, if it is one, and those behind it.
        have own : kind = .string → IsZeroPadded part := by
          rintro rfl
          rw [if_pos rfl, List.forall_mem_cons, ahead_eq] at padded
          simpa using padded.1
        have others : ∀ chunk ∈ OperandKind.stringsOf (kinds ++ more) mid.cursor.ahead,
            IsZeroPadded chunk := by
          split_ifs at padded
          · exact (List.forall_mem_cons.mp padded).2
          · exact padded
        obtain ⟨rest_eq, later⟩ := words_eq more others
        refine ⟨?_, later⟩
        rw [List.flatMap_cons, part_eq own, List.append_assoc, ← rest_eq, ahead_eq]

/-- A run that starts with the result puts one operand for each kind behind it after those before
it. With zero padding the result and their words are those that the run has passed. -/
theorem exists_result (run : Run decoder decoding (.result :: kinds) next)
    (no_result : .result ∉ kinds) :
    ∃ (id : Id) (added : List DecodedOperand), next.result = some id ∧
      next.operands = added.reverse ++ decoding.operands ∧
      ∀ more, (∀ chunk ∈ OperandKind.stringsOf (.result :: kinds ++ more) decoding.cursor.ahead,
          IsZeroPadded chunk) →
        decoding.cursor.ahead =
          id :: (added.flatMap DecodedOperand.words ++ next.cursor.ahead) := by
  cases run with
  | cons taken shorter run =>
      obtain ⟨operand, takes⟩ := exists_takes (not_isEmpty shorter) taken
      obtain ⟨id, rfl, id_eq, same⟩ := takes.result rfl
      obtain ⟨part, -, ahead_eq, part_eq⟩ := takes.read.exists_part
      obtain ⟨added, -, operands_eq, result_eq, words_eq⟩ := run.exists_added no_result
      refine ⟨id, added, result_eq.trans id_eq, by rw [operands_eq, same], fun more padded => ?_⟩
      rw [List.cons_append, OperandKind.stringsOf, ← takes.read.rest_eq] at padded
      rw [ahead_eq, ← part_eq (fun is_string => nomatch is_string), (words_eq more padded).1]
      rfl

end Run

variable {instruction : Instruction} {opcode : Opcode} {decoded : DecodedInstruction}

/-- An instruction is decoded by a run over its operands; words that are left are kept as they
are. -/
theorem exists_run_of_decodeOperands
    (read : decoder.decodeOperands instruction opcode = .ok decoded) :
    ∃ kinds next, opcode.layout.fixed <+: kinds ∧
      kinds <+: opcode.layout.upTo instruction.operands.length ∧
      Run decoder ⟨instruction.cursor, none, none, []⟩ kinds next ∧
      decoded = ⟨instruction.offset, instruction.opcode, next.result,
        next.operands.reverse ++ next.cursor.ahead.map .literal⟩ := by
  rw [decodeOperands] at read
  obtain ⟨mid, fixed, read⟩ := exists_of_bind read
  obtain ⟨mid', optional, read⟩ := exists_of_bind read
  obtain ⟨present, front, complete, optional⟩ := Run.exists_of_optional optional
  -- The operands that repeat are a run over as many as there are.
  obtain ⟨count, next, repeated, rfl⟩ : ∃ count next,
      Run decoder mid' (opcode.layout.variadic.elim [] (List.replicate count)) next ∧
      decoded = ⟨instruction.offset, instruction.opcode, next.result,
        next.operands.reverse ++ next.cursor.ahead.map .literal⟩ := by
    cases variadic : opcode.layout.variadic with
    | none =>
        rw [variadic] at read
        cases read
        exact ⟨0, mid', .nil _, rfl⟩
    | some kind =>
        rw [variadic] at read
        obtain ⟨next, repeated, read⟩ := exists_of_bind read
        obtain ⟨count, run⟩ := Run.exists_of_variadic repeated
        cases read
        exact ⟨count, next, run, rfl⟩
  have run := (Run.of_fixed fixed).append (optional.append repeated)
  refine ⟨_, next, List.prefix_append _ _, ?_, run, rfl⟩
  -- There are no more of them than words, since each takes one.
  rw [OperandLayout.upTo, List.append_assoc, List.prefix_append_right_inj]
  have enough := run.length_le
  rw [List.length_append, List.length_append] at enough
  have few := repeated.length_le
  cases variadic : opcode.layout.variadic with
  | none => simpa using front
  | some kind =>
      simp only [variadic, Option.elim_some, List.length_replicate] at enough few ⊢
      rcases complete with rfl | at_end
      · rw [List.prefix_append_right_inj, List.prefix_replicate_iff]
        have : count ≤ instruction.operands.length := le_trans (by omega) enough
        exact ⟨by simpa using this, by simp⟩
      · rw [Cursor.isEmpty, List.isEmpty_iff] at at_end
        obtain rfl : count = 0 := by
          rw [Cursor.remaining, at_end] at few
          exact Nat.le_zero.mp few
        simpa using front.trans (List.prefix_append _ _)

/-- The operands of a run are those that are always there and others, none of them a result. -/
theorem exists_others {count : ℕ} (front : opcode.layout.fixed <+: kinds)
    (within : kinds <+: opcode.layout.upTo count) :
    ∃ others, kinds = opcode.layout.fixed ++ others ∧ .result ∉ others := by
  obtain ⟨others, rfl⟩ := front
  rw [OperandLayout.upTo, List.append_assoc, List.prefix_append_right_inj] at within
  refine ⟨others, rfl, fun mem => result_not_mem_others opcode ?_⟩
  have mem := within.subset mem
  rw [List.mem_append] at mem ⊢
  refine mem.imp_right fun mem => ?_
  cases variadic : opcode.layout.variadic with
  | none => simp [variadic] at mem
  | some kind =>
      rw [variadic] at mem
      simp [(List.mem_replicate.mp mem).2]

/-- Where a layout has a result, the kinds of its operands are those in front of it and those behind
it, with no other result. -/
theorem exists_split (mem : .result ∈ opcode.layout.fixed) :
    ∃ before after, opcode.layout.fixed = before ++ .result :: after ∧ .result ∉ before ∧
      .result ∉ after ∧ before.length = opcode.layout.fixed.idxOf .result := by
  have once : opcode.layout.fixed.count .result ≤ 1 := by
    cases opcode <;> decide
  obtain ⟨before, after, fixed_eq, none_before⟩ := List.eq_append_cons_of_mem mem
  rw [fixed_eq, List.count_append, List.count_cons_self] at once
  refine ⟨before, after, fixed_eq, none_before, ?_, ?_⟩
  · rw [← List.count_eq_zero]
    omega
  · rw [fixed_eq, List.idxOf_append_of_notMem none_before, List.idxOf_cons_self, Nat.add_zero]

end Decoder

end ShaderMachine
