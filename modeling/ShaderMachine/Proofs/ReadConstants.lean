import ShaderMachine.Proofs.EncodedInstructions
import ShaderMachine.Proofs.ScannedTexts

/-! # Constants that are read back

What a listing writes for the words of a constant is read as these words exactly if they are as many
as the type of the constant takes.

* **`constantWords_spellConstant`** — what is written is read as the words it was written for.
* **`second_word_lost`** — an integer with a word too many, which is written as one number. -/

namespace ShaderMachine

/-- The words of a constant of any type are written so that whatever is read of them, as one
operand of the same type, is these words again exactly if they are as many as the type takes. In
that case they are read. -/
theorem constantWords_spellConstant (scalar : Option Scalar) (words : List Word) :
    (∀ operand, IsOperandText (spellConstant scalar words) operand → ∀ line encoded,
        constantWords line scalar operand = .ok encoded →
          (encoded = words ↔ words.length = constantLength (scalar.map Scalar.width))) ∧
      (words.length = constantLength (scalar.map Scalar.width) →
        ∃ operand, IsOperandText (spellConstant scalar words) operand ∧
          ∀ line, constantWords line scalar operand = .ok words) := by
  have back (fits : words.length = constantLength (scalar.map Scalar.width)) :
      ∃ operand, IsOperandText (spellConstant scalar words) operand ∧
        ∀ line, constantWords line scalar operand = .ok words := by
    obtain ⟨operand, reads, -, encoded⟩ := exists_constant fits
    exact ⟨operand, reads.isOperandText, encoded⟩
  refine ⟨fun operand is_text line encoded encodes => ⟨?_, fun fits => ?_⟩, back⟩
  · rintro rfl
    exact length_constantWords encodes
  · obtain ⟨other, is_other, encodes'⟩ := back fits
    obtain rfl := is_text.unique is_other
    rw [encodes' line] at encodes
    exact (Except.ok.inj encodes).symm

/-- A double is written as a float that is read as the words of the double. -/
theorem constantWords_spellConstant_double : ∃ operand encoded,
    IsOperandText (spellConstant (some (.float 64)) [0x54442D18, 0x400921FB]) operand ∧
      constantWords 1 (some (.float 64)) operand = .ok encoded ∧
      encoded = [0x54442D18, 0x400921FB] := by
  have exact_words :=
    constantWords_spellConstant (some (.float 64)) [0x54442D18, 0x400921FB]
  obtain ⟨operand, is_text, encodes⟩ := exact_words.2 rfl
  exact ⟨operand, _, is_text, encodes 1,
    (exact_words.1 operand is_text 1 _ (encodes 1)).mpr rfl⟩

/-- Two words of an integer type of one word are written as one number, which is read as the first
of them only. -/
theorem second_word_lost : ∃ operand,
    IsOperandText (spellConstant (some (.int 32 false)) [5, 0]) operand ∧
      constantWords 1 (some (.int 32 false)) operand = .ok [5] := by
  have spelled : spellConstant (some (.int 32 false)) [5, 0] = toString (5 : ℤ) := by
    decide +kernel
  rw [spelled]
  refine ⟨_, (readsAs_integer 5 (by decide) (by decide)).isOperandText, ?_⟩
  rfl

end ShaderMachine
