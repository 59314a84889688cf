import ShaderMachine.Assembly.Encoder
import ShaderMachine.Machine.Table
import ShaderMachine.Proofs.JoinedTexts

/-! # Integer literals

An integer literal is read if it has 64 bits, with its sign or as raw bits. As a constant it is
written as one word, or as two if its type has 64 bits. The bytes of these words are the low-order
bytes of its value in two's complement.

* **`lowBytes`** — the low-order bytes of an integer, and **`natOfBytes_lowBytes`** — their value.
* **`constantWords_wide`** and **`constantWords_narrow`** — the words of integer constants.
* **`constantWords_exact`** — integers that fit their type have words, which have their bytes.
* **`IsIntegerText`** — the integer literals with their values.
* **`Scans`** — the stretches of a line, those that are bad literals among them.
* **`lineTokens_of_bad`** — a bad literal is an error. -/

namespace ShaderMachine

/-! ## Low-order bytes -/

/-- The low-order bytes of an integer in two's complement, least significant first. -/
def lowBytes (count : ℕ) (value : ℤ) : Bytes :=
  (List.range count).map fun place => UInt8.ofInt (value / 256 ^ place)

section

variable {count : ℕ} {value : ℤ}

/-- There are as many bytes as are asked for. -/
@[simp] theorem length_lowBytes : (lowBytes count value).length = count := by
  simp [lowBytes]

/-- The bytes behind some of them are those of what is left. -/
theorem lowBytes_add (first second : ℕ) (value : ℤ) :
    lowBytes (first + second) value =
      lowBytes first value ++ lowBytes second (value / 256 ^ first) := by
  have split (place : ℕ) : value / 256 ^ (first + place) = value / 256 ^ first / 256 ^ place := by
    rw [Int.ediv_ediv_of_nonneg (by positivity), pow_add]
  simp [lowBytes, List.range_add, split]

/-- The first bytes are those of less. -/
theorem take_lowBytes {more : ℕ} (le : count ≤ more) :
    (lowBytes more value).take count = lowBytes count value := by
  obtain ⟨rest, rfl⟩ := Nat.exists_eq_add_of_le le
  rw [lowBytes_add, List.take_append_of_le_length (by simp), List.take_of_length_le (by simp)]

/-- What is left of an integer below a product is told by the two factors. -/
theorem emod_mul_eq {first second : ℤ} (first_pos : 0 < first) (second_pos : 0 < second)
    (value : ℤ) :
    value % (first * second) = value % first + first * (value / first % second) := by
  have low_nonneg := Int.emod_nonneg value first_pos.ne'
  have low_lt := Int.emod_lt_of_pos value first_pos
  have high_nonneg := Int.emod_nonneg (value / first) second_pos.ne'
  have high_lt := Int.emod_lt_of_pos (value / first) second_pos
  have whole : value % first + first * (value / first % second) +
      first * second * (value / first / second) = value := by
    rw [mul_assoc, add_assoc, ← mul_add, Int.emod_add_mul_ediv, Int.emod_add_mul_ediv]
  refine ((Int.ediv_emod_unique (Int.mul_pos first_pos second_pos)).mpr ⟨whole, ?_, ?_⟩).2
  · positivity
  · nlinarith

/-- The value of low-order bytes is what is left of the integer. -/
theorem natOfBytes_lowBytes (count : ℕ) (value : ℤ) :
    (Table.natOfBytes (lowBytes count value) : ℤ) = value % 256 ^ count := by
  induction count generalizing value with
  | zero => exact (Int.emod_one value).symm
  | succ count hyp =>
      have first : ((UInt8.ofInt value).toNat : ℤ) = value % 256 := by
        rw [UInt8.ofInt, UInt8.toNat_ofNat']
        omega
      have cons : lowBytes (count + 1) value =
          UInt8.ofInt value :: lowBytes count (value / 256) := by
        rw [Nat.add_comm, lowBytes_add]
        simp [lowBytes]
      have valued : Table.natOfBytes (lowBytes (count + 1) value) =
          (UInt8.ofInt value).toNat + 256 * Table.natOfBytes (lowBytes count (value / 256)) := by
        rw [cons]
        rfl
      rw [valued]
      push_cast
      rw [first, hyp, pow_succ', emod_mul_eq (by norm_num) (by positivity)]

/-- The bytes of the word of an integer are its low-order ones. -/
theorem bytes_ofInt (value : ℤ) : Word.bytes (UInt32.ofInt value) = lowBytes 4 value := by
  have byte (n : ℕ) (quotient : ℤ) (same : (n : ℤ) % 256 = quotient % 256) :
      UInt8.ofNat n = UInt8.ofInt quotient := by
    rw [← UInt8.toNat_inj, UInt8.ofInt, UInt8.toNat_ofNat', UInt8.toNat_ofNat']
    omega
  have word_eq : ((UInt32.ofInt value).toNat : ℤ) = value % 4294967296 := by
    rw [UInt32.ofInt, UInt32.toNat_ofNat']
    omega
  have listed : lowBytes 4 value = [UInt8.ofInt value, UInt8.ofInt (value / 256),
      UInt8.ofInt (value / 65536), UInt8.ofInt (value / 16777216)] := by
    simp [lowBytes, List.range_succ]
  rw [listed, Word.bytes]
  simp only [List.cons.injEq, and_true]
  refine ⟨byte _ _ ?_, byte _ _ ?_, byte _ _ ?_, byte _ _ ?_⟩ <;> omega

/-- The bytes of the words of a 64-bit integer are its low-order ones. -/
theorem bytesOfWords_double (value : ℤ) :
    bytesOfWords [UInt32.ofInt value, UInt32.ofInt (value / 4294967296)] = lowBytes 8 value := by
  have split : lowBytes 8 value = lowBytes 4 value ++ lowBytes 4 (value / 256 ^ 4) :=
    lowBytes_add 4 4 value
  rw [split, bytesOfWords_cons, bytesOfWords_cons, bytes_ofInt, bytes_ofInt]
  simp [bytesOfWords]

end

/-! ## Words of integer constants -/

/-- The integer that an operand stands for. -/
def Operand.integerValue? : Operand → Option ℤ
  | integer value => some value.toInt
  | bits value => some value.toNat
  | _ => none

/-- Whether an integer fits one word, as a signed or an unsigned number. -/
def FitsWord (value : ℤ) : Prop :=
  -2 ^ 31 ≤ value ∧ value < 2 ^ 32

instance (value : ℤ) : Decidable (FitsWord value) :=
  inferInstanceAs (Decidable (_ ∧ _))

section

variable {operand : Operand} {value : ℤ}

/-- The word of a natural number is that of the integer. -/
theorem ofInt_natCast (number : ℕ) : UInt32.ofInt number = UInt32.ofNat number := by
  rw [UInt32.ofInt, ← UInt32.toNat_inj, UInt32.toNat_ofNat', UInt32.toNat_ofNat']
  omega

/-- An integer is written as a word exactly if it fits one. -/
theorem integerWord?_eq (is_value : operand.integerValue? = some value) (line : ℕ) :
    integerWord? line operand = some (if FitsWord value then .ok (UInt32.ofInt value)
      else .error (.invalidLiteral line operand .tooWide)) := by
  cases operand with
  | integer number =>
      cases is_value
      have fits_iff : FitsWord number.toInt ↔
          -2147483648 ≤ number.toInt ∧ number.toInt < 4294967296 := by
        rw [FitsWord]
        omega
      simp only [integerWord?, fits_iff]
      split <;> rfl
  | bits number =>
      cases is_value
      have fits_iff : FitsWord number.toNat ↔ number.toNat < 4294967296 := by
        rw [FitsWord]
        omega
      simp only [integerWord?, fits_iff, ofInt_natCast]
      split <;> rfl
  | _ => cases is_value

/-- The words of an integer constant of 64 bits. -/
theorem constantWords_wide (is_value : operand.integerValue? = some value) (line : ℕ)
    (signed : Bool) : constantWords line (some (.int 64 signed)) operand =
      .ok [UInt32.ofInt value, UInt32.ofInt (value / 4294967296)] := by
  -- Of the 64 bits, the low-order ones and the others are those of the integer itself.
  have split {bits : ℕ} (same : (bits : ℤ) = value % 18446744073709551616) :
      splitDouble bits = [UInt32.ofInt value, UInt32.ofInt (value / 4294967296)] := by
    simp only [splitDouble, List.cons.injEq, and_true, UInt32.ofInt, ← UInt32.toNat_inj,
      UInt32.toNat_ofNat']
    omega
  cases operand with
  | integer number =>
      cases is_value
      have signed_eq : number.toInt = (number.toUInt64.toNat : ℤ).bmod (2 ^ 64) :=
        BitVec.toInt_eq_toNat_bmod number.toBitVec
      have left : (number.toUInt64.toNat : ℤ).bmod (2 ^ 64) % ((2 ^ 64 : ℕ) : ℤ) =
          number.toUInt64.toNat % ((2 ^ 64 : ℕ) : ℤ) := Int.bmod_emod
      have small := number.toUInt64.toNat_lt
      exact congrArg Except.ok (split (by rw [signed_eq]; omega))
  | bits number =>
      cases is_value
      have small := number.toNat_lt
      exact congrArg Except.ok (split (by omega))
  | _ => cases is_value

/-- The word of an integer constant of fewer bits. -/
theorem constantWords_narrow (is_value : operand.integerValue? = some value) (line : ℕ)
    {width : Word} (narrow : width ≠ 64) (signed : Bool) :
    constantWords line (some (.int width signed)) operand =
      if FitsWord value then .ok [UInt32.ofInt value]
      else .error (.invalidLiteral line operand .tooWide) := by
  -- Unless the type is the one with 64 bits, all integers take the branch of one word.
  have one_word (found : Except AssemblyError Word)
      (is_found : integerWord? line operand = some found) :
      constantWords line (some (.int width signed)) operand = found.map fun word => [word] := by
    cases operand with
    | integer number | bits number =>
        simp only [constantWords]
        split
        case h_5 =>
          rename_i is_operand _
          cases is_operand
        case h_9 | h_11 =>
          rename_i is_scalar
          cases is_scalar
          exact absurd rfl narrow
        case h_12 => rw [is_found]
        all_goals
          rename_i is_scalar
          cases is_scalar
    | _ => cases is_value
  rw [one_word _ (integerWord?_eq is_value line)]
  by_cases fits : FitsWord value
  · rw [if_pos fits, if_pos fits]
    rfl
  · rw [if_neg fits, if_neg fits]
    rfl

/-- Whether an integer fits a type of a width: if the type has fewer than 64 bits, it may still have
as many as a word has. -/
def FitsWidth (width : ℕ) (value : ℤ) : Prop :=
  width ≠ 64 → FitsWord value

/-- The bytes of a constant of a scalar type, of whose words only as many as it needs are read. -/
def constantBytes (width : Word) (words : List Word) : Bytes :=
  (bytesOfWords (words.take ((scalarSize width + 3) / 4))).take (scalarSize width)

/-- An integer constant has words exactly if it fits its type, and what is set up from them are the
low-order bytes of its value. -/
theorem constantWords_exact {width : ℕ} (is_value : operand.integerValue? = some value)
    (is_width : width ∈ [8, 16, 32, 64]) (line : ℕ) (signed : Bool) :
    (FitsWidth width value → ∃ words,
      constantWords line (some (.int (UInt32.ofNat width) signed)) operand = .ok words ∧
        constantBytes (UInt32.ofNat width) words = lowBytes (width / 8) value) ∧
    (¬ FitsWidth width value →
      constantWords line (some (.int (UInt32.ofNat width) signed)) operand =
        .error (.invalidLiteral line operand .tooWide)) := by
  -- Two words take any value; narrower types take those of one word.
  by_cases wide : width = 64
  · subst wide
    refine ⟨fun _ => ⟨_, constantWords_wide is_value line signed, ?_⟩, fun unfit => ?_⟩
    · have size_eq : scalarSize (UInt32.ofNat 64) = 8 := by decide
      rw [constantBytes, size_eq]
      change (bytesOfWords [_, _]).take 8 = _
      rw [bytesOfWords_double, take_lowBytes (Nat.le_refl 8)]
    · exact absurd (fun narrow => absurd rfl narrow) unfit
  · obtain ⟨narrow, size_eq, small, positive⟩ : UInt32.ofNat width ≠ 64 ∧
        scalarSize (UInt32.ofNat width) = width / 8 ∧ width / 8 ≤ 4 ∧ 1 ≤ width / 8 := by
      simp only [List.mem_cons, List.not_mem_nil, or_false] at is_width
      rcases is_width with rfl | rfl | rfl | rfl
      · decide
      · decide
      · decide
      · exact absurd rfl wide
    rw [constantWords_narrow is_value line narrow]
    refine ⟨fun fits => ⟨_, if_pos (fits wide), ?_⟩, fun unfit => if_neg fun fits => ?_⟩
    · have one_word : (width / 8 + 3) / 4 = 1 := by omega
      rw [constantBytes, size_eq, one_word, List.take_succ_cons, List.take_zero, bytesOfWords_cons,
        bytes_ofInt]
      change (lowBytes 4 value ++ []).take _ = _
      rw [List.append_nil, take_lowBytes small]
    · exact unfit fun _ => fits

end

/-! ## Texts of integer literals -/

/-- Whether a text is an integer literal, with its value and whether it is read: it may have 64
bits, with the sign if it is decimal. -/
inductive IsIntegerText : List Char → ℤ → Prop → Prop
  /-- Decimal digits. -/
  | natural {digits : List Char} (some_digits : IsDigits digits) :
      IsIntegerText digits (valueInBase 10 digits) (valueInBase 10 digits < 2 ^ 63)
  /-- A minus sign and decimal digits. -/
  | negative {digits : List Char} (some_digits : IsDigits digits) :
      IsIntegerText ('-' :: digits) (-valueInBase 10 digits) (valueInBase 10 digits ≤ 2 ^ 63)
  /-- Hexadecimal digits. -/
  | hex {digits : List Char} (nonempty : digits ≠ [])
      (all : ∀ c ∈ digits, isHexDigit c = true) :
      IsIntegerText ('0' :: 'x' :: digits) (valueInBase 16 digits) (valueInBase 16 digits < 2 ^ 64)

/-- What an integer literal stands for: an operand of its value, or nothing if it is not read. -/
theorem IsIntegerText.exists_reading {text : List Char} {value : ℤ} {readable : Prop}
    (is_literal : IsIntegerText text value readable) :
    (readable → ∃ token operand, StandsFor text (.token token) ∧
      Operand.ofToken? token = some operand ∧ operand.integerValue? = some value) ∧
    (¬ readable → StandsFor text .bad) := by
  -- Decimal digits with a sign or without one stand for the number if it has 64 bits.
  have decimal {sign digits : List Char} (is_sign : IsSign sign) (some_digits : IsDigits digits)
      {number : ℤ} (number_eq : (if decide (sign ≠ []) = true then -(valueInBase 10 digits : ℤ)
        else valueInBase 10 digits) = number) :
      (-2 ^ 63 ≤ number ∧ number < 2 ^ 63 → ∃ token operand,
        StandsFor (sign ++ digits) (.token token) ∧ Operand.ofToken? token = some operand ∧
          operand.integerValue? = some number) ∧
      (¬ (-2 ^ 63 ≤ number ∧ number < 2 ^ 63) → StandsFor (sign ++ digits) .bad) := by
    have stands := StandsFor.integer is_sign some_digits
    rw [readInteger, number_eq] at stands
    constructor
    · rintro ⟨lower, upper⟩
      rw [if_pos (by omega)] at stands
      refine ⟨_, _, stands, rfl, ?_⟩
      rw [Operand.integerValue?, Int64.toInt_ofInt_of_le lower upper]
    · intro unreadable
      rwa [if_neg (by omega)] at stands
  cases is_literal with
  | @natural digits some_digits =>
      obtain ⟨reads, fails⟩ := decimal (.inl rfl) some_digits rfl
      exact ⟨fun small => reads (by simp; omega), fun large => fails (by simp; omega)⟩
  | @negative digits some_digits =>
      obtain ⟨reads, fails⟩ := decimal (.inr rfl) some_digits rfl
      exact ⟨fun small => reads (by simp; omega), fun large => fails (by simp; omega)⟩
  | @hex digits nonempty all =>
      have stands := StandsFor.hex nonempty all
      unfold readHex at stands
      extract_lets value at stands
      have small_iff : value < 18446744073709551616 ↔ valueInBase 16 digits < 2 ^ 64 := by
        simp [value]
      constructor
      · intro small
        rw [if_pos (small_iff.mpr small)] at stands
        refine ⟨_, _, stands, rfl, ?_⟩
        rw [Operand.integerValue?, UInt64.toNat_ofNat_of_lt' small]
      · intro large
        rwa [if_neg (small_iff.not.mpr large)] at stands

/-! ## Lines with bad literals -/

/-- Whether a line is cut into stretches, each the longest match of a pattern. Blanks and comments
are among them, and so are literals that are not read. -/
inductive Scans : List Char → List Lexeme → Prop
  /-- An empty line has none. -/
  | nil : Scans [] []
  /-- One is cut off, and then those of the rest. -/
  | cons {text rest : List Char} {reading : Reading} {lexemes : List Lexeme}
      (stands : StandsFor text reading) (longest : IsLongest text rest)
      (scans : Scans rest lexemes) : Scans (text ++ rest) (⟨text, reading⟩ :: lexemes)

/-- Blanks hold nothing. -/
theorem Lexeme.filterMap_item?_filter (lexemes : List Lexeme) :
    (lexemes.filter (·.reading ≠ .blank)).filterMap item? = lexemes.filterMap item? := by
  rw [List.filterMap_filter]
  refine List.filterMap_congr fun found _ => ?_
  split
  · rfl
  · rename_i is_blank
    rw [decide_eq_true_eq, not_not] at is_blank
    rw [item?, is_blank]

namespace Scans

variable {line : List Char} {lexemes : List Lexeme}

/-- Stretches that are found one behind the other, none of them bad, are those of their line. -/
theorem of_tails (on_line : '\n' ∉ lexemes.flatMap Lexeme.text)
    (found : ∀ tail ∈ lexemes.tails, ∀ first ∈ tail.head?,
      frontLexeme (tail.flatMap Lexeme.text) = first ∧ first.reading ≠ .bad) :
    Scans (lexemes.flatMap Lexeme.text) lexemes := by
  induction lexemes with
  | nil => exact .nil
  | cons first lexemes hyp =>
      rw [List.tails_cons, List.forall_mem_cons] at found
      obtain ⟨front, good⟩ := found.1 first rfl
      rw [List.flatMap_cons] at on_line front ⊢
      have stands := standsFor_frontLexeme on_line (by rwa [front])
      have longest : IsLongest (frontLexeme (first.text ++ lexemes.flatMap Lexeme.text)).text
          (lexemes.flatMap Lexeme.text) := isLongest_frontLexeme (by rw [front])
      rw [front] at stands longest
      rw [List.mem_append, not_or] at on_line
      exact .cons stands longest (hyp on_line.2 found.2)

/-- A line holds what its stretches do. -/
theorem scannedItems_eq (scans : Scans line lexemes) (on_line : '\n' ∉ line) :
    scannedItems line = lexemes.filterMap Lexeme.item? := by
  induction scans with
  | nil => exact scannedItems_nil
  | @cons text rest reading lexemes stands longest _ hyp =>
      rw [List.mem_append, not_or] at on_line
      have front := stands.frontLexeme_append longest on_line.2
      rw [scannedItems_append stands.ne_nil front, hyp on_line.2, List.filterMap_cons]
      cases Lexeme.item? ⟨text, reading⟩ <;> rfl

/-- Every stretch matches a pattern. -/
theorem standsFor (scans : Scans line lexemes) :
    ∀ found ∈ lexemes, StandsFor found.text found.reading := by
  induction scans with
  | nil => simp
  | cons stands _ _ hyp => exact List.forall_mem_cons.mpr ⟨stands, hyp⟩

end Scans

/-- The first text on a line that is no token is an error. -/
theorem lineTokens_of_bad {line : List Char} {tokens : List Token} {text : String}
    {rest : List ScannedToken}
    (items : scannedItems line = tokens.map Except.ok ++ .error text :: rest) (number : ℕ) :
    ∃ column, lineTokens number line =
      .error (.badSyntax number column (.unexpectedInput text)) := by
  rw [scannedItems] at items
  rw [lineTokens]
  generalize scanLine line = placed at items ⊢
  induction tokens generalizing placed with
  | nil =>
      obtain ⟨first, placed, rfl, is_bad, -⟩ := List.map_eq_cons_iff.mp items
      refine ⟨first.start + 1, ?_⟩
      rw [List.mapM_cons, is_bad]
      rfl
  | cons token tokens hyp =>
      obtain ⟨first, placed, rfl, is_token, items⟩ := List.map_eq_cons_iff.mp items
      obtain ⟨column, failed⟩ := hyp placed items
      refine ⟨column, ?_⟩
      rw [List.mapM_cons, is_token, failed]
      rfl

end ShaderMachine
