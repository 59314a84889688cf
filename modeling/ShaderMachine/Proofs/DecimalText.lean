import ShaderMachine.Decimal.Notation
import ShaderMachine.Proofs.NamedFloat

/-! # Reading written floats

A finite float is written so that reading the text gives its bits back.

* **`DecimalText`** — the texts of unsigned floats: digits with a point, or with a power of ten, or
  with both.
* **`DecimalStyle.writeDecimal_decimalText`** — a decimal is written as such a text, of its value.
* **`FloatFormat.read?_write`** — a written finite float reads back as its bits. -/

namespace ShaderMachine

/-! ## Runs of characters -/

/-- Whether a text is over or goes on with a character outside a class. -/
def Stops (inside : Char → Bool) (rest : List Char) : Prop :=
  ∀ c ∈ rest.head?, inside c = false

/-- The end of a text stops every run. -/
@[simp] theorem stops_nil (inside : Char → Bool) : Stops inside [] := by
  simp [Stops]

/-- A character outside a class stops a run of the class. -/
@[simp] theorem stops_cons (inside : Char → Bool) (c : Char) (rest : List Char) :
    Stops inside (c :: rest) ↔ inside c = false := by
  simp [Stops]

/-- Nothing is taken where a run stops at once. -/
theorem Stops.takeWhile_eq_nil {inside : Char → Bool} {rest : List Char}
    (stops : Stops inside rest) : rest.takeWhile inside = [] := by
  cases rest with
  | nil => rfl
  | cons c rest => rw [List.takeWhile_cons_of_neg (by simpa using stops)]

/-- A run is taken as a whole, up to where it stops. -/
theorem Stops.takeWhile_append {inside : Char → Bool} {run rest : List Char}
    (stops : Stops inside rest) (all : ∀ c ∈ run, inside c = true) :
    (run ++ rest).takeWhile inside = run := by
  rw [List.takeWhile_append_of_pos all, stops.takeWhile_eq_nil, List.append_nil]

/-- What stops a run is left when the run is dropped. -/
theorem Stops.dropWhile_append {inside : Char → Bool} {run rest : List Char}
    (stops : Stops inside rest) (all : ∀ c ∈ run, inside c = true) :
    (run ++ rest).dropWhile inside = rest := by
  rw [List.dropWhile_append_of_pos all]
  cases rest with
  | nil => rfl
  | cons c rest => rw [List.dropWhile_cons_of_neg (by simpa using stops)]

/-! ## Digits -/

/-- The digits of a number are digits. -/
theorem isDigit_of_mem_digits {n : ℕ} {c : Char} (mem : c ∈ Nat.toDigits 10 n) :
    c.isDigit = true :=
  Nat.isDigit_of_mem_toDigits (by norm_num) (by norm_num) mem

/-- The value of a number's digits is the number. -/
theorem digitsValue_toDigits (n : ℕ) : digitsValue (Nat.toDigits 10 n) = n :=
  Nat.ofDigitChars_ten_toDigits

/-- Zeros at the end multiply the value of digits. -/
theorem digitsValue_append_zeros (digits : List Char) (count : ℕ) :
    digitsValue (digits ++ List.replicate count '0') = 10 ^ count * digitsValue digits := by
  change Nat.ofDigitChars 10 _ 0 = 10 ^ count * Nat.ofDigitChars 10 digits 0
  rw [Nat.ofDigitChars_append, Nat.ofDigitChars_replicate_zero]

/-- Zeros in front do not change the value of digits. -/
theorem digitsValue_zeros_append (count : ℕ) (digits : List Char) :
    digitsValue (List.replicate count '0' ++ digits) = digitsValue digits := by
  change Nat.ofDigitChars 10 _ 0 = Nat.ofDigitChars 10 digits 0
  rw [Nat.ofDigitChars_append, Nat.ofDigitChars_replicate_zero, Nat.mul_zero]

/-- The digits of a number are read as the number. -/
theorem readDigits?_toDigits (n : ℕ) : readDigits? (Nat.toDigits 10 n) = some n := by
  have not_empty : (Nat.toDigits 10 n).isEmpty = false := by
    simp [List.isEmpty_eq_false_iff]
  have all_digits : (Nat.toDigits 10 n).any (!·.isDigit) = false := by
    rw [List.any_eq_false]
    intro c mem
    simp [isDigit_of_mem_digits mem]
  rw [readDigits?, not_empty, all_digits, digitsValue_toDigits]
  simp

/-- An integer is written as its sign and the digits of its magnitude. -/
theorem toList_toString_int (n : ℤ) :
    (toString n).toList =
      (if n < 0 then ['-'] else []) ++ Nat.toDigits 10 n.natAbs := by
  cases n with
  | ofNat n =>
      have : ¬ (Int.ofNat n < 0) := by simp
      rw [if_neg this]
      exact Nat.toList_repr
  | negSucc n =>
      rw [if_pos (Int.negSucc_lt_zero n)]
      change ("-" ++ Nat.repr (n + 1)).toList = _
      rw [String.toList_append, Nat.toList_repr]
      rfl

/-- A digit has no other case. -/
theorem toLower_of_isDigit {c : Char} (digit : c.isDigit = true) : c.toLower = c := by
  simp only [Char.isDigit, Bool.and_eq_true, decide_eq_true_eq, ge_iff_le, UInt32.le_iff_toNat_le]
    at digit
  refine dif_neg ?_
  simp only [not_and, ge_iff_le, UInt32.le_iff_toNat_le]
  intro upper
  exact absurd (Nat.le_trans upper digit.2) (by decide)

/-- A text that starts with a digit has no sign. -/
theorem splitSign_of_isDigit {c : Char} (rest : List Char) (digit : c.isDigit = true) :
    splitSign (c :: rest) = (false, c :: rest) := by
  have not_minus : c ≠ '-' := by
    rintro rfl
    exact absurd digit (by decide)
  have not_plus : c ≠ '+' := by
    rintro rfl
    exact absurd digit (by decide)
  rw [splitSign]
  · exact fun _ h => not_minus (List.cons.inj h).1
  · exact fun _ h => not_plus (List.cons.inj h).1

/-- The digits of a number are a digit and further digits. -/
theorem toDigits_eq_cons (n : ℕ) :
    ∃ c rest, Nat.toDigits 10 n = c :: rest ∧ c.isDigit = true := by
  cases digits : Nat.toDigits 10 n with
  | nil => exact absurd digits Nat.toDigits_ne_nil
  | cons c rest =>
      refine ⟨c, rest, rfl, isDigit_of_mem_digits (n := n) ?_⟩
      rw [digits]
      exact List.mem_cons_self

/-! ## The texts of unsigned floats -/

/-- The digits of an unsigned float up to its power of ten, with a point before the fraction unless
the fraction is empty. -/
def mantissaText (whole fraction : List Char) : List Char :=
  whole ++ if fraction.isEmpty then [] else '.' :: fraction

/-- A text of an unsigned float, with the decimal that it is read as. -/
inductive DecimalText : List Char → Decimal → Prop
  /-- Digits with a point among them. -/
  | point (whole fraction : List Char) (nonempty : whole ≠ [])
      (whole_digits : ∀ c ∈ whole, c.isDigit = true)
      (fraction_digits : ∀ c ∈ fraction, c.isDigit = true) :
      DecimalText (whole ++ '.' :: fraction)
        ⟨digitsValue (whole ++ fraction), -(fraction.length : ℤ)⟩
  /-- Digits and a power of ten. -/
  | power (whole fraction : List Char) (exponent : ℤ) (nonempty : whole ≠ [])
      (whole_digits : ∀ c ∈ whole, c.isDigit = true)
      (fraction_digits : ∀ c ∈ fraction, c.isDigit = true) :
      DecimalText (mantissaText whole fraction ++ 'e' :: (toString exponent).toList)
        ⟨digitsValue (whole ++ fraction), exponent - fraction.length⟩

namespace Decimal

/-- A written power of ten is read as its exponent. -/
theorem readExponent?_toString (exponent : ℤ) :
    readExponent? ('e' :: (toString exponent).toList) = some exponent := by
  rw [toList_toString_int]
  simp only [readExponent?, true_or, if_true]
  by_cases negative : exponent < 0
  · rw [if_pos negative]
    simp only [List.cons_append, List.nil_append, splitSign, readDigits?_toDigits, if_true]
    change some (-(exponent.natAbs : ℤ)) = some exponent
    rw [Int.natCast_natAbs, abs_of_neg negative, neg_neg]
  · obtain ⟨c, rest, digits, digit⟩ := toDigits_eq_cons exponent.natAbs
    rw [if_neg negative, List.nil_append, digits, splitSign_of_isDigit rest digit]
    simp only [← digits, readDigits?_toDigits, Bool.false_eq_true, if_false]
    change some (exponent.natAbs : ℤ) = some exponent
    rw [Int.natCast_natAbs, abs_of_nonneg (not_lt.mp negative)]

end Decimal

namespace DecimalText

variable {text : List Char} {decimal : Decimal}

/-- The text of an unsigned float starts with a digit. -/
theorem exists_digit (written : DecimalText text decimal) :
    ∃ c rest, text = c :: rest ∧ c.isDigit = true := by
  cases written with
  | point whole fraction nonempty whole_digits =>
      obtain ⟨c, rest, rfl⟩ := List.exists_cons_of_ne_nil nonempty
      exact ⟨c, _, rfl, whole_digits c List.mem_cons_self⟩
  | power whole fraction exponent nonempty whole_digits =>
      obtain ⟨c, rest, rfl⟩ := List.exists_cons_of_ne_nil nonempty
      exact ⟨c, _, rfl, whole_digits c List.mem_cons_self⟩

/-- The text of an unsigned float is read as its decimal. -/
theorem read? (written : DecimalText text decimal) : Decimal.read? text = some decimal := by
  cases written with
  | point whole fraction nonempty whole_digits fraction_digits =>
      have stops : Stops Char.isDigit ('.' :: fraction) := by simp
      have not_empty : whole.isEmpty = false := List.isEmpty_eq_false_iff.mpr nonempty
      rw [Decimal.read?]
      simp only [stops.takeWhile_append whole_digits, stops.dropWhile_append whole_digits,
        List.takeWhile_eq_self_iff.mpr fraction_digits,
        List.dropWhile_eq_nil_iff.mpr fraction_digits, not_empty, Decimal.readExponent?]
      simp
  | power whole fraction exponent nonempty whole_digits fraction_digits =>
      have not_empty : whole.isEmpty = false := List.isEmpty_eq_false_iff.mpr nonempty
      have read_power := Decimal.readExponent?_toString exponent
      generalize (toString exponent).toList = power at read_power ⊢
      have stops : Stops Char.isDigit ('e' :: power) := by simp
      rw [Decimal.read?, mantissaText]
      -- Without digits after it the point is left out.
      by_cases empty : fraction = []
      · subst empty
        simp only [List.isEmpty_nil, if_true, List.append_nil, stops.takeWhile_append whole_digits,
          stops.dropWhile_append whole_digits, not_empty]
        simp [read_power]
      · have point : Stops Char.isDigit ('.' :: (fraction ++ 'e' :: power)) := by simp
        rw [if_neg (by simpa using empty), List.append_assoc, List.cons_append]
        simp only [point.takeWhile_append whole_digits, point.dropWhile_append whole_digits,
          stops.takeWhile_append fraction_digits, stops.dropWhile_append fraction_digits, not_empty,
          read_power]
        simp

end DecimalText

namespace DecimalStyle

/-- Zeros before the digits of a number are digits too. -/
theorem isDigit_of_mem_zeros_append {n count : ℕ} {c : Char}
    (mem : c ∈ List.replicate count '0' ++ Nat.toDigits 10 n) : c.isDigit = true := by
  rw [List.mem_append, List.mem_replicate] at mem
  rcases mem with ⟨-, rfl⟩ | mem
  · rfl
  · exact isDigit_of_mem_digits mem

/-- Zeros after the digits of a number are digits too. -/
theorem isDigit_of_mem_append_zeros {n count : ℕ} {c : Char}
    (mem : c ∈ Nat.toDigits 10 n ++ List.replicate count '0') : c.isDigit = true := by
  rw [List.mem_append, List.mem_replicate] at mem
  rcases mem with mem | ⟨-, rfl⟩
  · exact isDigit_of_mem_digits mem
  · rfl

/-- Cutting the digits of a decimal in two, with a power of ten for the place of the cut, keeps the
decimal. -/
theorem cut_digits (decimal : Decimal) (front : ℕ) {exponent : ℤ}
    (place : exponent =
      decimal.exponent + ((Nat.toDigits 10 decimal.digits).drop front).length) :
    (⟨digitsValue ((Nat.toDigits 10 decimal.digits).take front ++
        (Nat.toDigits 10 decimal.digits).drop front),
      exponent - ((Nat.toDigits 10 decimal.digits).drop front).length⟩ : Decimal) = decimal := by
  rw [List.take_append_drop, digitsValue_toDigits, place, add_sub_cancel_right]

/-- The digits of a decimal with a point among them are a text of its value. -/
theorem placePoint_decimalText (decimal : Decimal) :
    ∃ read, DecimalText
        (listing.placePoint (Nat.toDigits 10 decimal.digits) decimal.order).toList read ∧
      read.value = decimal.value := by
  have order_eq : decimal.order = (Nat.toDigits 10 decimal.digits).length + decimal.exponent := rfl
  have length_pos : 0 < (Nat.toDigits 10 decimal.digits).length := Nat.length_toDigits_pos
  rw [placePoint]
  split_ifs with small whole
  · -- The point stands before all digits.
    rw [String.toList_append, String.toList_ofList, String.toList_ofList]
    refine ⟨_, .point ['0']
      (List.replicate (-decimal.order).toNat '0' ++ Nat.toDigits 10 decimal.digits) (by simp)
      (by simp) (fun _ => isDigit_of_mem_zeros_append), ?_⟩
    rw [← List.append_assoc, ← List.replicate_one, ← List.replicate_add, digitsValue_zeros_append,
      digitsValue_toDigits, Decimal.value, Decimal.value]
    congr 2
    simp only [List.length_append, List.length_replicate]
    omega
  · -- The point stands after all digits.
    -- The exponent is then a natural number, the count of zeros to be added.
    obtain ⟨zeros, exponent_eq⟩ : ∃ zeros : ℕ, decimal.exponent = zeros :=
      Int.eq_ofNat_of_zero_le (by omega)
    have zeros_eq : decimal.order.toNat - (Nat.toDigits 10 decimal.digits).length = zeros := by
      omega
    rw [zeros_eq, String.toList_append, String.toList_ofList]
    refine ⟨_, .point (Nat.toDigits 10 decimal.digits ++ List.replicate zeros '0') ['0'] (by simp)
      (fun _ => isDigit_of_mem_append_zeros) (by simp), ?_⟩
    rw [List.append_assoc, ← List.replicate_one, ← List.replicate_add, digitsValue_append_zeros,
      digitsValue_toDigits, Decimal.value, Decimal.value, exponent_eq]
    simp only [List.length_replicate]
    push_cast
    rw [zpow_neg, zpow_natCast, pow_add]
    field_simp
  · -- The point stands among the digits.
    have cut : decimal.order.toNat ≤ (Nat.toDigits 10 decimal.digits).length := by omega
    refine ⟨decimal, ?_, rfl⟩
    have written := DecimalText.point
      ((Nat.toDigits 10 decimal.digits).take decimal.order.toNat)
      ((Nat.toDigits 10 decimal.digits).drop decimal.order.toNat)
      (by
        rw [ne_eq, List.take_eq_nil_iff, ← List.length_eq_zero_iff]
        omega)
      (fun _ mem => isDigit_of_mem_digits (List.mem_of_mem_take mem))
      (fun _ mem => isDigit_of_mem_digits (List.mem_of_mem_drop mem))
    rw [← zero_sub, cut_digits decimal _ (by rw [List.length_drop]; omega)] at written
    rw [String.toList_append, String.toList_append, String.toList_ofList, String.toList_ofList]
    simpa using written

/-- The digits of a decimal with a point after the first one and a power of ten are a text of its
value. -/
theorem scientific_decimalText (decimal : Decimal) :
    DecimalText (scientific (Nat.toDigits 10 decimal.digits) decimal.order).toList decimal := by
  have order_eq : decimal.order = (Nat.toDigits 10 decimal.digits).length + decimal.exponent := rfl
  have length_pos : 0 < (Nat.toDigits 10 decimal.digits).length := Nat.length_toDigits_pos
  -- One digit stands before the point, if there is a point.
  have written := DecimalText.power
    ((Nat.toDigits 10 decimal.digits).take 1) ((Nat.toDigits 10 decimal.digits).drop 1)
    (decimal.order - 1)
    (by
      rw [ne_eq, List.take_eq_nil_iff, ← List.length_eq_zero_iff]
      omega)
    (fun _ mem => isDigit_of_mem_digits (List.mem_of_mem_take mem))
    (fun _ mem => isDigit_of_mem_digits (List.mem_of_mem_drop mem))
  rw [cut_digits decimal 1 (by rw [List.length_drop]; omega), mantissaText] at written
  rw [scientific]
  split_ifs at written ⊢ with single
  · rw [String.toList_append, String.toList_append, String.toList_append, String.toList_ofList,
      List.append_assoc]
    exact written
  · rw [String.toList_append, String.toList_append, String.toList_append, String.toList_append,
      String.toList_ofList, String.toList_ofList, String.toList_ofList,
      List.append_assoc _ "e".toList]
    exact written

/-- A decimal is written as a text of its value. -/
theorem writeDecimal_decimalText (decimal : Decimal) :
    ∃ read, DecimalText (listing.writeDecimal decimal).toList read ∧
      read.value = decimal.value := by
  rw [writeDecimal]
  split_ifs
  · exact placePoint_decimalText decimal
  · exact ⟨decimal, scientific_decimalText decimal, rfl⟩

/-! ## Signed floats -/

/-- The minus of a negative number. -/
def signText (negative : Bool) : List Char :=
  if negative then ['-'] else []

/-- A finite float is written as its sign and the text of a decimal that names its magnitude. -/
theorem write_decimalText {format : FloatFormat} {bits : ℕ}
    (exponent_wide : 1 < format.exponentBits)
    (finite : format.isFinite bits = true) :
    ∃ text read, (listing.write format bits).toList =
        signText (decide (format.signBit ≤ bits)) ++ text ∧
      DecimalText text read ∧ read.magnitude format = bits % format.signBit := by
  have finite' : bits % format.signBit < format.infinity := by
    simpa [FloatFormat.isFinite] using finite
  have sign_eq (negative : Bool) (text : String) :
      ((if negative then "-" else "") ++ text).toList = signText negative ++ text.toList := by
    cases negative <;> simp [signText]
  rw [write, FloatFormat.classify]
  simp only [if_pos finite']
  -- Zero has a text of its own; every other float is written by its shortest decimal.
  by_cases zero : (format.unpack (bits % format.signBit)).1 = 0
  · have magnitude_zero : bits % format.signBit = 0 := by
      by_contra nonzero
      exact (format.unpack_significand_pos (Nat.pos_of_ne_zero nonzero)).ne' zero
    refine ⟨"0.0".toList, ⟨0, -1⟩, ?_, .point ['0'] ['0'] (by simp) (by simp) (by simp), ?_⟩
    · rw [if_pos zero, String.append_assoc, sign_eq]
      rfl
    · rw [magnitude_zero]
      rfl
  · have nonzero : 0 < bits % format.signBit := by
      rw [Nat.pos_iff_ne_zero]
      intro magnitude_zero
      refine zero ?_
      rw [magnitude_zero, FloatFormat.unpack]
      simp
    obtain ⟨read, written, equal⟩ :=
      writeDecimal_decimalText (Decimal.shortest format (bits % format.signBit))
    refine ⟨_, read, ?_, written, ?_⟩
    · rw [if_neg zero, sign_eq]
    · rw [Decimal.magnitude_congr format equal]
      exact Decimal.magnitude_shortest exponent_wide nonzero finite'

end DecimalStyle

namespace FloatFormat

variable {format : FloatFormat}

/-- A sign and the text of an unsigned float are read as the float with that sign. -/
theorem read?_of_decimalText {text : List Char} {decimal : Decimal}
    (written : DecimalText text decimal) (negative : Bool) :
    format.read? (DecimalStyle.signText negative ++ text) =
      some (format.withSign negative (decimal.magnitude format)) := by
  obtain ⟨c, rest, text_eq, digit⟩ := written.exists_digit
  have split : splitSign (DecimalStyle.signText negative ++ text) = (negative, text) := by
    cases negative with
    | true => rfl
    | false =>
        rw [text_eq]
        exact splitSign_of_isDigit rest digit
  -- The text starts with a digit, so it is none of the names.
  have no_name (first : Char) (others : List Char) (letter : first.isDigit = false) :
      String.ofList (text.map Char.toLower) ≠ String.ofList (first :: others) := by
    rw [text_eq, ne_eq, String.ofList_inj, List.map_cons, List.cons.injEq]
    rintro ⟨equal, -⟩
    rw [toLower_of_isDigit digit] at equal
    exact absurd digit (by simp [equal, letter])
  have not_inf : String.ofList (text.map Char.toLower) ≠ "inf" := no_name 'i' ['n', 'f'] rfl
  have not_infinity : String.ofList (text.map Char.toLower) ≠ "infinity" :=
    no_name 'i' ['n', 'f', 'i', 'n', 'i', 't', 'y'] rfl
  have not_nan : String.ofList (text.map Char.toLower) ≠ "nan" := no_name 'n' ['a', 'n'] rfl
  rw [read?, split]
  simp only [not_inf, not_infinity, not_nan, or_self, if_false, written.read?, Option.map_some]

/-- The sign and the magnitude of a bit pattern make it up. -/
theorem withSign_mod {bits : ℕ} (small : bits < 2 * format.signBit) :
    format.withSign (decide (format.signBit ≤ bits)) (bits % format.signBit) = bits := by
  -- The sign bit is the highest one, so the remainder takes it off.
  by_cases negative : format.signBit ≤ bits
  · have : bits % format.signBit = bits - format.signBit := by
      rw [Nat.mod_eq_sub_mod negative, Nat.mod_eq_of_lt (by omega)]
    rw [decide_eq_true negative, withSign, if_pos rfl, this]
    omega
  · rw [decide_eq_false negative, Nat.mod_eq_of_lt (by omega), withSign]
    rfl

/-- A finite float that is written is read as its bits. -/
theorem read?_write {bits : ℕ} (exponent_wide : 1 < format.exponentBits)
    (small : bits < 2 * format.signBit) (finite : format.isFinite bits = true) :
    format.read? (DecimalStyle.listing.write format bits).toList = some bits := by
  obtain ⟨text, read, text_eq, written, magnitude_eq⟩ :=
    DecimalStyle.write_decimalText exponent_wide finite
  rw [text_eq, read?_of_decimalText written, magnitude_eq, withSign_mod small]

end FloatFormat

end ShaderMachine
