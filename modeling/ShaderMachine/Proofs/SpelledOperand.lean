import ShaderMachine.Assembly.Encoder
import ShaderMachine.Listing.Spelling
import ShaderMachine.Proofs.Lexing

/-! # Spelled words are encoded as themselves

What a listing spells for the words of an operand is one token, and encoding the operand that the
token stands for gives the words again.

* **`ReadsAs`** — a text is one token, which stands for an operand.
* **`exists_integer`**, **`exists_enumerant`** and **`exists_extended`** — operands of one word.
* **`exists_constant`** — the value of a constant of any scalar type. -/

namespace ShaderMachine

/-! ## Words as numbers -/

/-- A word is the word of its number. -/
theorem ofInt_toNat (word : Word) : UInt32.ofInt word.toNat = word := by
  have small := word.toNat_lt
  rw [UInt32.ofInt, ← UInt32.toNat_inj, UInt32.toNat_ofNat']
  omega

/-- A word is the word of its number as a signed one. -/
theorem ofInt_toInt32 (word : Word) : UInt32.ofInt word.toInt32.toInt = word := by
  have small := word.toNat_lt
  have signed : word.toInt32.toInt = (word.toNat : ℤ).bmod (2 ^ 32) :=
    BitVec.toInt_eq_toNat_bmod word.toBitVec
  have remainder : (word.toNat : ℤ).bmod (2 ^ 32) % ((2 ^ 32 : ℕ) : ℤ) =
      word.toNat % ((2 ^ 32 : ℕ) : ℤ) := Int.bmod_emod
  rw [UInt32.ofInt, ← UInt32.toNat_inj, UInt32.toNat_ofNat', signed]
  omega

/-- Two words are those of their 64-bit value. -/
theorem splitDouble_joinDouble (low high : Word) :
    splitDouble (joinDouble low high) = [low, high] := by
  have low_lt := low.toNat_lt
  have high_lt := high.toNat_lt
  simp only [splitDouble, joinDouble, List.cons.injEq, and_true]
  constructor
  · rw [← UInt32.toNat_inj, UInt32.toNat_ofNat']
    omega
  · rw [← UInt32.toNat_inj, UInt32.toNat_ofNat']
    omega

/-- The value of two words has 64 bits. -/
theorem joinDouble_lt (low high : Word) : joinDouble low high < 18446744073709551616 := by
  have low_lt := low.toNat_lt
  have high_lt := high.toNat_lt
  rw [joinDouble]
  omega

/-! ## Operands of one word -/

/-- Whether a text is one token of one line, which stands for an operand. -/
def ReadsAs (text : String) (operand : Operand) : Prop :=
  '\n' ∉ text.toList ∧
    ∃ token, LexesTo text.toList token ∧ Operand.ofToken? token = some operand

/-- A decimal integer is read as an operand. -/
theorem readsAs_integer (value : ℤ) (lower : -9223372036854775808 ≤ value)
    (upper : value ≤ 9223372036854775807) :
    ReadsAs (toString value) (.integer (Int64.ofInt value)) :=
  ⟨newline_not_mem_integer value, _, lexesTo_integer lower upper, rfl⟩

/-- A number in base sixteen is read as an operand. -/
theorem readsAs_bits {value : ℕ} (small : value < 18446744073709551616) :
    ReadsAs (Text.hex value) (.bits (UInt64.ofNat value)) :=
  ⟨newline_not_mem_hex value, _, lexesTo_hex small, rfl⟩

/-- A decimal integer of one word is encoded as that word. -/
theorem integerWord?_integer (line : ℕ) {value : ℤ} (lower : -2147483648 ≤ value)
    (upper : value < 4294967296) :
    integerWord? line (.integer (Int64.ofInt value)) = some (.ok (UInt32.ofInt value)) := by
  have value_eq : (Int64.ofInt value).toInt = value :=
    Int64.toInt_ofInt_of_le (by omega) (by omega)
  rw [integerWord?]
  simp only [value_eq, lower, upper, and_self, if_true]

/-- A number in base sixteen is encoded as the word of its bits. -/
theorem integerWord?_bits (line : ℕ) (word : Word) :
    integerWord? line (.bits (UInt64.ofNat word.toNat)) = some (.ok word) := by
  have small := word.toNat_lt
  have value_eq : (UInt64.ofNat word.toNat).toNat = word.toNat :=
    UInt64.toNat_ofNat_of_lt' (Nat.lt_trans small (by decide))
  rw [integerWord?]
  simp only [value_eq, UInt32.ofNat_toNat]
  rw [if_pos small]

/-- An integer operand of one word is encoded as that word wherever a name may stand too. -/
theorem nameOrInteger_integer (line : ℕ) (kind : OperandKind) (table : String)
    (valueOf : String → Option Word) {value : Int64} {word : Word}
    (encoded : integerWord? line (.integer value) = some (.ok word)) :
    Encoder.nameOrInteger line kind table valueOf (.integer value) = .ok [word] := by
  rw [Encoder.nameOrInteger]
  · simp only [encoded]
    rfl
  · exact fun _ => nofun

/-- The number of a word is read as an integer that is encoded as the word. -/
theorem exists_integer (word : Word) : ∃ operand, ReadsAs (toString word) operand ∧
    operand.idName? = none ∧ (∀ line, integerWord? line operand = some (.ok word)) ∧
    ∀ line kind table valueOf,
      Encoder.nameOrInteger line kind table valueOf operand = .ok [word] := by
  have small := word.toNat_lt
  have encoded (line : ℕ) :
      integerWord? line (.integer (Int64.ofInt word.toNat)) = some (.ok word) := by
    rw [integerWord?_integer line (by omega) (by omega), ofInt_toNat]
  refine ⟨.integer (Int64.ofInt word.toNat), readsAs_integer word.toNat (by omega) (by omega), rfl,
    encoded, fun line kind table valueOf => ?_⟩
  exact nameOrInteger_integer line kind table valueOf (encoded line)

/-! ## Names -/

/-- Every member of a family is spelt by a name. -/
theorem isName_of_mem_members {family : EnumFamily} {member : Word × String}
    (mem : member ∈ family.members) : isName member.2.toList = true := by
  have every : ∀ family : EnumFamily, ∀ member ∈ family.members,
      isName member.2.toList = true := by
    intro family
    cases family <;> decide +kernel
  exact every family member mem

/-- Every bit with a name is one of the lowest four. -/
theorem functionControl_lt {name : String} {bit : Word}
    (found : EnumFamily.functionControl.valueOfMember? name = some bit) : bit < 16 := by
  rw [EnumFamily.valueOfMember?, Option.map_eq_some_iff] at found
  obtain ⟨member, found, rfl⟩ := found
  have every : ∀ member ∈ EnumFamily.functionControl.members, member.1 < 16 := by decide
  exact every member (List.mem_of_find?_eq_some found)

/-- A mask that can be read has no bits but those with a name. -/
theorem parseMask_lt {text : String} {mask : Word} (parsed : parseMask text = some mask) :
    mask < 16 := by
  have step (parts : List (List Char)) : ∀ mask ∈ parts.foldl
      (fun mask part => do
        let bits ← mask
        let bit ← EnumFamily.functionControl.valueOfMember? (String.ofList (Text.trim part))
        return bits ||| bit) (some 0), mask < 16 := by
    refine List.foldlRecOn parts _ (motive := fun mask => ∀ bits ∈ mask, bits < 16) ?_ ?_
    · rintro bits ⟨⟩
      decide
    · intro mask hyp part _ bits mem
      simp only [Option.mem_def, Option.bind_eq_bind, Option.bind_eq_some_iff,
        Option.pure_def, Option.some.injEq] at mem
      obtain ⟨before, before_eq, bit, bit_eq, rfl⟩ := mem
      have before_lt := hyp before before_eq
      have bit_lt := functionControl_lt bit_eq
      rw [UInt32.lt_iff_toNat_lt] at *
      rw [UInt32.toNat_or]
      exact Nat.or_lt_two_pow (n := 4) before_lt bit_lt
  exact step _ mask parsed

/-- A mask of bits with names is empty or has one of these bits. -/
theorem known_ne_nil {mask : Word} (small : mask < 16) (nonzero : mask ≠ 0) :
    (EnumFamily.functionControl.members.filter fun member => mask &&& member.1 != 0) ≠ [] := by
  have every : ∀ bits : Fin 16, bits ≠ 0 → (EnumFamily.functionControl.members.filter
      fun member => UInt32.ofNat bits &&& member.1 != 0) ≠ [] := by
    decide +kernel
  have mask_lt : mask.toNat < 16 := UInt32.lt_iff_toNat_lt.mp small
  have mask_eq : UInt32.ofNat mask.toNat = mask := UInt32.ofNat_toNat
  have found := every ⟨mask.toNat, mask_lt⟩ (by
    rw [ne_eq, Fin.ext_iff]
    exact fun zero => nonzero (UInt32.toNat_inj.mp zero))
  simpa only [mask_eq] using found

/-- A mask of bits with names is spelt by these names. -/
theorem formatMask_eq_names {mask : Word} (small : mask < 16) :
    ∃ (first : String) (names : List String), isName first.toList = true ∧
      (∀ name ∈ names, isName name.toList = true) ∧
      formatMask mask = "|".intercalate (first :: names) := by
  by_cases none : mask = 0
  · exact ⟨"None", [], rfl, by simp, by rw [formatMask, if_pos none, String.intercalate_singleton]⟩
  · have no_unknown : mask.toNat / 16 * 16 = 0 := by
      rw [UInt32.lt_iff_toNat_lt] at small
      have : mask.toNat < 16 := small
      omega
    obtain ⟨member, others, known_eq⟩ := List.exists_cons_of_ne_nil (known_ne_nil small none)
    have every (name : String) (mem : name ∈ (member :: others).map Prod.snd) :
        isName name.toList = true := by
      rw [← known_eq, List.mem_map] at mem
      obtain ⟨member, member_mem, rfl⟩ := mem
      exact isName_of_mem_members (List.mem_filter.mp member_mem).1
    refine ⟨member.2, others.map Prod.snd, every _ (by simp), fun name mem => every _ ?_, ?_⟩
    · exact List.mem_cons_of_mem _ mem
    · rw [formatMask, if_neg none]
      simp only [no_unknown, known_eq]
      simp

/-- A name is read as a word. -/
theorem readsAs_name {name : String} (all : isName name.toList = true) :
    ReadsAs name (.word name) := by
  have lexes := lexesTo_word all
  rw [String.ofList_toList] at lexes
  exact ⟨newline_not_mem_name all, _, lexes, rfl⟩

/-- Names with bars between them are read as a word. -/
theorem readsAs_mask {first : String} {names : List String} (first_all : isName first.toList = true)
    (names_all : ∀ name ∈ names, isName name.toList = true) :
    ReadsAs ("|".intercalate (first :: names)) (.word ("|".intercalate (first :: names))) := by
  have joined : ("|".intercalate (first :: names)).toList =
      first.toList ++ (names.map String.toList).flatMap ('|' :: ·) :=
    toList_intercalate_cons rfl first names
  have lexes : LexesTo (first.toList ++ (names.map String.toList).flatMap ('|' :: ·)) _ :=
    lexesTo_mask first_all (by simpa using names_all)
  rw [← joined, String.ofList_toList] at lexes
  refine ⟨?_, _, lexes, rfl⟩
  rw [joined, List.mem_append, not_or, List.mem_flatMap]
  refine ⟨newline_not_mem_name first_all, ?_⟩
  rintro ⟨name, mem, mem'⟩
  obtain ⟨name, name_mem, rfl⟩ := List.mem_map.mp mem
  have free := newline_not_mem_name (names_all name name_mem)
  simp [free] at mem'

/-- A spelling that stands for a word is read as a word. -/
theorem readsAs_enumerant {family : EnumFamily} {value : Word} {name : String}
    (spelt : family.nameOf value = some name) (back : family.valueOf name = some value) :
    ReadsAs name (.word name) := by
  have member_name (found : family.memberOfValue? value = some name) :
      ReadsAs name (.word name) := by
    rw [EnumFamily.memberOfValue?, Option.map_eq_some_iff] at found
    obtain ⟨member, found, rfl⟩ := found
    exact readsAs_name (isName_of_mem_members (List.mem_of_find?_eq_some found))
  cases family with
  | functionControl =>
      obtain ⟨first, names, first_all, names_all, text_eq⟩ :=
        formatMask_eq_names (parseMask_lt back)
      rw [EnumFamily.nameOf, Option.some.injEq] at spelt
      rw [← spelt, text_eq]
      exact readsAs_mask first_all names_all
  | _ => exact member_name spelt

/-- A word that stands for a name is spelt so that it is encoded as itself. -/
theorem exists_enumerant (family : EnumFamily) (value : Word) : ∃ operand,
    ReadsAs (DecodedOperand.enumerant family value).spell operand ∧ operand.idName? = none ∧
    ∀ line kind table,
      Encoder.nameOrInteger line kind table family.valueOf operand = .ok [value] := by
  rw [DecodedOperand.spell]
  split
  · rename_i name found
    rw [Option.filter_eq_some_iff] at found
    obtain ⟨spelt, back⟩ := found
    have back : family.valueOf name = some value := eq_of_beq back
    refine ⟨.word name, readsAs_enumerant spelt back, rfl, fun line kind table => ?_⟩
    rw [Encoder.nameOrInteger]
    simp only [back]
  · obtain ⟨operand, reads, no_id, -, encoded⟩ := exists_integer value
    exact ⟨operand, reads, no_id, fun line kind table => encoded line kind table family.valueOf⟩

/-- Every extended instruction is spelt by a name. -/
theorem isName_glslName (instruction : GlslInstruction) :
    isName instruction.name.toList = true := by
  cases instruction <;> decide +kernel

/-- The number of an extended instruction is spelt so that it is encoded as itself. -/
theorem exists_extended (isGlsl : Bool) (value : Word) : ∃ operand,
    ReadsAs (DecodedOperand.extended isGlsl value).spell operand ∧ operand.idName? = none ∧
    ∀ line kind table, Encoder.nameOrInteger line kind table
      (fun name => (GlslInstruction.ofName? name).map GlslInstruction.number) operand =
        .ok [value] := by
  rw [DecodedOperand.spell]
  split
  · rename_i known found
    have number_eq : known.number = value := by
      cases isGlsl with
      | false => cases found
      | true =>
          rw [if_pos rfl, GlslInstruction.ofNumber?] at found
          have number_eq := List.find?_some found
          exact eq_of_beq number_eq
    refine ⟨.word known.name, readsAs_name (isName_glslName known), rfl,
      fun line kind table => ?_⟩
    rw [Encoder.nameOrInteger, GlslInstruction.ofName?_name, Option.map_some, number_eq]
  · obtain ⟨operand, reads, no_id, -, encoded⟩ := exists_integer value
    exact ⟨operand, reads, no_id, fun line kind table => encoded line kind table _⟩

/-! ## Constants -/

/-- The width of a scalar type in bits. -/
def Scalar.width : Scalar → Word
  | float width | int width _ => width

/-- The number of words that a constant takes if the width of its type is known. -/
def constantLength (width : Option Word) : ℕ :=
  if width = some 64 then 2 else 1

/-- Bits of one word are encoded as that word unless two are wanted. -/
theorem constantWords_bits (line : ℕ) {scalar : Option Scalar}
    (narrow : scalar.map Scalar.width ≠ some 64) (word : Word) :
    constantWords line scalar (.bits (UInt64.ofNat word.toNat)) = .ok [word] := by
  have encoded := integerWord?_bits line word
  generalize UInt64.ofNat word.toNat = value at encoded ⊢
  match scalar with
  | none => simp [constantWords, encoded, Except.map]
  | some (.float width) =>
      have width_ne : width ≠ 64 := by simpa [Scalar.width] using narrow
      simp [constantWords, encoded, width_ne, Except.map]
  | some (.int width signed) =>
      have width_ne : width ≠ 64 := by simpa [Scalar.width] using narrow
      simp [constantWords, encoded, width_ne, Except.map]

/-- An integer of one word is encoded as that word for an integer type of another width than 64. -/
theorem constantWords_integer (line : ℕ) {width word : Word} (signed : Bool) (narrow : width ≠ 64)
    {value : Int64} (encoded : integerWord? line (.integer value) = some (.ok word)) :
    constantWords line (some (.int width signed)) (.integer value) = .ok [word] := by
  simp [constantWords, encoded, narrow, Except.map]

/-- A float is spelt as a float that is read as its bits, or as these bits. -/
theorem exists_float (format : FloatFormat) (bits : ℕ) (exponent_wide : 1 < format.exponentBits)
    (small : bits < 2 * format.signBit) (small' : bits < 18446744073709551616) :
    ∃ operand, ReadsAs (spellFloat format bits) operand ∧ operand.idName? = none ∧
      ((∃ text, operand = .float text ∧ format.read? text.toList = some bits) ∨
        operand = .bits (UInt64.ofNat bits)) := by
  rw [spellFloat]
  split_ifs with finite
  · have reads : ReadsAs (DecimalStyle.listing.write format bits) (.float _) :=
      ⟨newline_not_mem_float exponent_wide finite, _, lexesTo_float exponent_wide finite, rfl⟩
    exact ⟨_, reads, rfl, Or.inl ⟨_, rfl, FloatFormat.read?_write exponent_wide small finite⟩⟩
  · exact ⟨_, readsAs_bits small', rfl, Or.inr rfl⟩

/-- The words of a constant of 64 bits are spelt so that they are encoded again. -/
theorem exists_wideConstant {scalar : Scalar} (wide : scalar.width = 64) (low high : Word) :
    ∃ operand, ReadsAs (spellConstant (some scalar) [low, high]) operand ∧
      operand.idName? = none ∧
      ∀ line, constantWords line (some scalar) operand = .ok [low, high] := by
  have small := joinDouble_lt low high
  have bits_eq : (UInt64.ofNat (joinDouble low high)).toNat = joinDouble low high :=
    UInt64.toNat_ofNat_of_lt' small
  cases scalar with
  | float width =>
      obtain rfl : width = 64 := wide
      obtain ⟨operand, reads, no_id, encoded⟩ :=
        exists_float .double (joinDouble low high) (by decide) small small
      refine ⟨operand, reads, no_id, fun line => ?_⟩
      rcases encoded with ⟨text, rfl, read⟩ | rfl
      · simp only [constantWords, read, splitDouble_joinDouble]
      · simp only [constantWords, bits_eq, splitDouble_joinDouble]
  | int width signed =>
      obtain rfl : width = 64 := wide
      have encoded (line : ℕ) (value : Int64)
          (value_eq : value.toUInt64 = UInt64.ofNat (joinDouble low high)) :
          constantWords line (some (.int 64 signed)) (.integer value) = .ok [low, high] := by
        simp only [constantWords, value_eq, bits_eq, splitDouble_joinDouble]
      cases signed with
      | true =>
          -- A signed number always lies in the range of a signed token.
          have lower := (UInt64.ofNat (joinDouble low high)).toInt64.le_toInt
          have upper := (UInt64.ofNat (joinDouble low high)).toInt64.toInt_lt
          refine ⟨_, readsAs_integer _ lower (by omega), rfl, fun line => encoded line _ ?_⟩
          rw [Int64.ofInt_toInt]
          rfl
      | false =>
          -- Beyond the range of a signed token the bits are spelt in base sixteen.
          by_cases half : joinDouble low high < 9223372036854775808
          · refine ⟨.integer (Int64.ofInt (joinDouble low high : ℕ)), ?_, rfl,
              fun line => encoded line _ ?_⟩
            · simp only [spellConstant, if_pos half]
              exact readsAs_integer (joinDouble low high : ℕ) (by omega) (by omega)
            · rw [Int64.ofInt_eq_ofNat]
              rfl
          · refine ⟨.bits (UInt64.ofNat (joinDouble low high)), ?_, rfl, fun line => ?_⟩
            · simp only [spellConstant, if_neg half]
              exact readsAs_bits small
            · simp only [constantWords, bits_eq, splitDouble_joinDouble]

/-- The word of a constant of another width than 64 is spelt so that it is encoded again. -/
theorem exists_narrowConstant {scalar : Option Scalar}
    (narrow : scalar.map Scalar.width ≠ some 64) (word : Word) :
    ∃ operand, ReadsAs (spellConstant scalar [word]) operand ∧ operand.idName? = none ∧
      ∀ line, constantWords line scalar operand = .ok [word] := by
  have small := word.toNat_lt
  have as_bits : ReadsAs (Text.hex word.toNat) (.bits (UInt64.ofNat word.toNat)) :=
    readsAs_bits (Nat.lt_trans small (by decide))
  match scalar with
  | none =>
      refine ⟨_, ?_, rfl, fun line => constantWords_bits line narrow word⟩
      simpa [spellConstant] using as_bits
  | some (.float width) =>
      -- Floats of other widths are spelt by their bits.
      by_cases single : width = 32
      · subst single
        obtain ⟨operand, reads, no_id, encoded⟩ :=
          exists_float .single word.toNat (by decide) small (Nat.lt_trans small (by decide))
        refine ⟨operand, reads, no_id, fun line => ?_⟩
        rcases encoded with ⟨text, rfl, read⟩ | rfl
        · simp [constantWords, read]
        · exact constantWords_bits line narrow word
      · refine ⟨_, ?_, rfl, fun line => constantWords_bits line narrow word⟩
        simpa [spellConstant, single] using as_bits
  | some (.int width true) =>
      have width_ne : width ≠ 64 := by simpa [Scalar.width] using narrow
      have lower := word.toInt32.le_toInt
      have upper := word.toInt32.toInt_lt
      refine ⟨_, readsAs_integer word.toInt32.toInt (by omega) (by omega), rfl, fun line => ?_⟩
      refine constantWords_integer line true width_ne ?_
      rw [integerWord?_integer line (by omega) (by omega), ofInt_toInt32]
  | some (.int width false) =>
      have width_ne : width ≠ 64 := by simpa [Scalar.width] using narrow
      refine ⟨_, readsAs_integer word.toNat (by omega) (by omega), rfl, fun line => ?_⟩
      refine constantWords_integer line false width_ne ?_
      rw [integerWord?_integer line (by omega) (by omega), ofInt_toNat]

/-- The words of a constant are spelt so that they are encoded again, if they are as many as its
type wants. -/
theorem exists_constant {scalar : Option Scalar} {words : List Word}
    (length : words.length = constantLength (scalar.map Scalar.width)) :
    ∃ operand, ReadsAs (DecodedOperand.constant scalar words).spell operand ∧
      operand.idName? = none ∧ ∀ line, constantWords line scalar operand = .ok words := by
  rw [constantLength] at length
  split_ifs at length with wide
  · obtain ⟨low, high, rfl⟩ := List.length_eq_two.mp length
    obtain ⟨type, rfl, width_eq⟩ := Option.map_eq_some_iff.mp wide
    exact exists_wideConstant width_eq low high
  · obtain ⟨word, rfl⟩ := List.length_eq_one_iff.mp length
    exact exists_narrowConstant wide word

end ShaderMachine
