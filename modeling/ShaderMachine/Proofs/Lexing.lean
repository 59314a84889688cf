import Mathlib.Tactic.IntervalCases
import ShaderMachine.Assembly.Token
import ShaderMachine.Proofs.DecimalText

/-! # Lexing separated texts

A text that is a whole token where a blank or the end of the line follows is cut off as that
token, so a line of such texts with blanks between them is cut into their tokens.

* **`LexesTo`** — a text is a whole token wherever no other character than a blank follows it.
* **`lexesTo_id`**, **`lexesTo_integer`**, **`lexesTo_hex`**, **`lexesTo_float`**,
  **`lexesTo_word`** and **`lexesTo_str`** — the texts of each kind of token.
* **`tokens_scanLine`** — separated texts are cut into their tokens. -/

namespace ShaderMachine

/-! ## Texts of tokens -/

/-- Whether a text is a whole token wherever it is followed by a blank or by nothing. -/
def LexesTo (text : List Char) (token : Token) : Prop :=
  ∃ c tail, text = c :: tail ∧
    ∀ rest, Stops (· != ' ') rest → lexeme c (tail ++ rest) = ⟨text, .token token⟩

/-- Where a text stops before everything but blanks, it stops before every class without the
blank. -/
theorem Stops.of_blank {inside : Char → Bool} {rest : List Char} (stops : Stops (· != ' ') rest)
    (blank : inside ' ' = false) : Stops inside rest := by
  cases rest with
  | nil => exact stops_nil inside
  | cons c rest =>
      have : c = ' ' := by simpa using stops
      rw [stops_cons, this, blank]

/-- The name of an ID after a percent sign is a token. -/
theorem lexesTo_id {name : List Char} (nonempty : name ≠ [])
    (all : ∀ c ∈ name, isIdChar c = true) : LexesTo ('%' :: name) (.id (String.ofList name)) := by
  refine ⟨'%', name, rfl, fun rest stops => ?_⟩
  have stops' : Stops isIdChar rest := stops.of_blank rfl
  have not_empty : name.isEmpty = false := List.isEmpty_eq_false_iff.mpr nonempty
  have not_separator : isSeparator '%' = false := rfl
  simp [lexeme, not_separator, stops'.takeWhile_append all, not_empty]

/-- The equals sign is a token. -/
theorem lexesTo_equals : LexesTo ['='] .equals :=
  ⟨'=', [], rfl, fun _ _ => rfl⟩

/-! ## Numbers -/

/-- A further digit multiplies the value of the digits before it by the base. -/
theorem valueInBase_append (base : ℕ) (digits : List Char) (c : Char) :
    valueInBase base (digits ++ [c]) = base * valueInBase base digits + hexDigitValue c := by
  rw [valueInBase, List.foldl_append]
  rfl

/-- The character of a digit has the digit's value. -/
theorem hexDigitValue_digitChar {digit : ℕ} (small : digit < 16) :
    hexDigitValue digit.digitChar = digit := by
  interval_cases digit <;> rfl

/-- The digits of a number in a base up to sixteen have the number as their value. -/
theorem valueInBase_toDigits (base : ℕ) (one_lt : 1 < base) (small : base ≤ 16) (n : ℕ) :
    valueInBase base (Nat.toDigits base n) = n := by
  induction n using Nat.strong_induction_on with
  | h n hyp =>
      by_cases single : n < base
      · rw [Nat.toDigits_of_lt_base single]
        have := hexDigitValue_digitChar (Nat.lt_of_lt_of_le single small)
        simp [valueInBase, this]
      · have shorter : n / base < n := Nat.div_lt_self (by omega) one_lt
        have last : n % base < 16 := Nat.lt_of_lt_of_le (Nat.mod_lt _ (by omega)) small
        rw [Nat.toDigits_of_base_le one_lt (not_lt.mp single), valueInBase_append, hyp _ shorter,
          hexDigitValue_digitChar last]
        exact Nat.div_add_mod n base

/-- The digits of a number in base sixteen are hexadecimal digits. -/
theorem isHexDigit_of_mem_toDigits {n : ℕ} {c : Char} (mem : c ∈ Nat.toDigits 16 n) :
    isHexDigit c = true := by
  induction n using Nat.strong_induction_on with
  | h n hyp =>
      have digit_char (digit : ℕ) (small : digit < 16) : isHexDigit digit.digitChar = true := by
        interval_cases digit <;> rfl
      by_cases single : n < 16
      · rw [Nat.toDigits_of_lt_base single, List.mem_singleton] at mem
        rw [mem]
        exact digit_char n single
      · rw [Nat.toDigits_of_base_le (by norm_num) (not_lt.mp single), List.mem_append,
          List.mem_singleton] at mem
        rcases mem with mem | rfl
        · exact hyp _ (Nat.div_lt_self (by omega) (by norm_num)) mem
        · exact digit_char _ (Nat.mod_lt _ (by norm_num))

/-- A minus with digits, or digits alone, are cut off where no number goes on. -/
theorem numberLexeme_integer (sign : List Char) {digits rest : List Char} (nonempty : digits ≠ [])
    (all : ∀ c ∈ digits, c.isDigit = true) (stops : Stops (· != ' ') rest) :
    numberLexeme sign (digits ++ rest) =
      ⟨sign ++ digits, readInteger (sign ≠ []) digits⟩ := by
  have stops' : Stops Char.isDigit rest := stops.of_blank rfl
  have not_empty : digits.isEmpty = false := List.isEmpty_eq_false_iff.mpr nonempty
  rw [numberLexeme]
  simp only [stops'.takeWhile_append all, stops'.dropWhile_append all, not_empty]
  cases rest with
  | nil => rfl
  | cons c rest =>
      have : c = ' ' := by simpa using stops
      subst this
      rfl

/-- Where a digit stands, a number starts. -/
theorem lexeme_of_isDigit {c : Char} (rest : List Char) (digit : c.isDigit = true) :
    lexeme c rest = numberLexeme [] (c :: rest) := by
  have range : 48 ≤ c.toNat ∧ c.toNat ≤ 57 := by
    simp only [Char.isDigit, Bool.and_eq_true, decide_eq_true_eq, ge_iff_le,
      UInt32.le_iff_toNat_le] at digit
    exact digit
  obtain ⟨lower, upper⟩ := range
  rw [← Char.ofNat_toNat c]
  generalize c.toNat = code at lower upper
  interval_cases code <;> rfl

/-- A decimal integer of 64 bits is a token. -/
theorem lexesTo_integer {value : ℤ} (lower : -9223372036854775808 ≤ value)
    (upper : value ≤ 9223372036854775807) :
    LexesTo (toString value).toList (.integer (Int64.ofInt value)) := by
  have magnitude := valueInBase_toDigits 10 (by norm_num) (by norm_num) value.natAbs
  have digits_ne : Nat.toDigits 10 value.natAbs ≠ [] := Nat.toDigits_ne_nil
  have all : ∀ c ∈ Nat.toDigits 10 value.natAbs, c.isDigit = true :=
    fun _ => isDigit_of_mem_digits
  rw [toList_toString_int]
  by_cases negative : value < 0
  · rw [if_pos negative]
    refine ⟨'-', Nat.toDigits 10 value.natAbs, rfl, fun rest stops => ?_⟩
    -- A minus sign in front of a digit starts a number.
    have lexed : lexeme '-' (Nat.toDigits 10 value.natAbs ++ rest) =
        numberLexeme ['-'] (Nat.toDigits 10 value.natAbs ++ rest) := rfl
    have value_eq : -(value.natAbs : ℤ) = value := by omega
    rw [lexed, numberLexeme_integer ['-'] digits_ne all stops, readInteger, magnitude]
    simp only [ne_eq, reduceCtorEq, not_false_eq_true, decide_true, if_true, value_eq, lower, upper,
      and_self]
  · rw [if_neg negative, List.nil_append]
    obtain ⟨c, tail, digits_eq, digit⟩ := toDigits_eq_cons value.natAbs
    refine ⟨c, tail, digits_eq, fun rest stops => ?_⟩
    have value_eq : (value.natAbs : ℤ) = value := by omega
    rw [lexeme_of_isDigit _ digit, ← List.cons_append, ← digits_eq,
      numberLexeme_integer [] digits_ne all stops, readInteger, magnitude]
    simp only [ne_eq, not_true_eq_false, decide_false, Bool.false_eq_true, if_false, value_eq,
      lower, upper, and_self, if_true, List.nil_append]

/-- A number of 64 bits in base sixteen is a token. -/
theorem lexesTo_hex {value : ℕ} (small : value < 18446744073709551616) :
    LexesTo (Text.hex value).toList (.hex (UInt64.ofNat value)) := by
  have text_eq : (Text.hex value).toList = '0' :: 'x' :: Nat.toDigits 16 value := by
    rw [Text.hex, Text.hexDigits, String.toList_append, String.toList_ofList, String.toList_ofList]
    rfl
  have value_eq := valueInBase_toDigits 16 (by norm_num) (by norm_num) value
  have digits_ne : Nat.toDigits 16 value ≠ [] := Nat.toDigits_ne_nil
  refine ⟨'0', 'x' :: Nat.toDigits 16 value, text_eq, fun rest stops => ?_⟩
  have stops' : Stops isHexDigit rest := stops.of_blank rfl
  have all : ∀ c ∈ Nat.toDigits 16 value, isHexDigit c = true :=
    fun _ => isHexDigit_of_mem_toDigits
  have hex_digits : (Nat.toDigits 16 value ++ rest).takeWhile isHexDigit = Nat.toDigits 16 value :=
    stops'.takeWhile_append all
  have digits :
      ('0' :: 'x' :: (Nat.toDigits 16 value ++ rest)).takeWhile Char.isDigit = ['0'] := rfl
  have after : ('0' :: 'x' :: (Nat.toDigits 16 value ++ rest)).dropWhile Char.isDigit =
      'x' :: (Nat.toDigits 16 value ++ rest) := rfl
  rw [List.cons_append, lexeme_of_isDigit _ rfl, numberLexeme, text_eq]
  simp only [digits, after]
  simp [hex_digits, digits_ne, readHex, value_eq, small]

/-! ## Floats -/

/-- A written power of ten is cut off as a whole. -/
theorem exponentPart_toString (exponent : ℤ) {rest : List Char} (stops : Stops (· != ' ') rest) :
    exponentPart ('e' :: ((toString exponent).toList ++ rest)) =
      'e' :: (toString exponent).toList := by
  have stops' : Stops Char.isDigit rest := stops.of_blank rfl
  have all : ∀ c ∈ Nat.toDigits 10 exponent.natAbs, c.isDigit = true :=
    fun _ => isDigit_of_mem_digits
  have digits : (Nat.toDigits 10 exponent.natAbs ++ rest).takeWhile Char.isDigit =
      Nat.toDigits 10 exponent.natAbs := stops'.takeWhile_append all
  have digits_ne : Nat.toDigits 10 exponent.natAbs ≠ [] := Nat.toDigits_ne_nil
  rw [toList_toString_int]
  by_cases negative : exponent < 0
  · rw [if_pos negative]
    change exponentPart ('e' :: '-' :: (Nat.toDigits 10 exponent.natAbs ++ rest)) = _
    rw [exponentPart]
    simp [digits, digits_ne]
  · obtain ⟨c, tail, digits_eq, digit⟩ := toDigits_eq_cons exponent.natAbs
    rw [if_neg negative, List.nil_append]
    -- No sign is found before the first digit.
    have no_sign (sign : Char) (not_digit : sign.isDigit = false) (after : List Char) :
        Nat.toDigits 10 exponent.natAbs ++ rest ≠ sign :: after := by
      rw [digits_eq, List.cons_append, ne_eq, List.cons.injEq]
      rintro ⟨rfl, -⟩
      exact absurd digit (by simp [not_digit])
    rw [exponentPart]
    · simp [digits, digits_ne]
    · exact no_sign '+' rfl
    · exact no_sign '-' rfl

/-- No power of ten is found where a text stops. -/
theorem exponentPart_of_stops {rest : List Char} (stops : Stops (· != ' ') rest) :
    exponentPart rest = [] := by
  cases rest with
  | nil => rfl
  | cons c rest =>
      have : c = ' ' := by simpa using stops
      rw [this]
      rfl

/-- The text of an unsigned float after a sign is cut off as a whole. -/
theorem numberLexeme_decimalText (sign : List Char) {text rest : List Char} {decimal : Decimal}
    (written : DecimalText text decimal) (stops : Stops (· != ' ') rest) :
    numberLexeme sign (text ++ rest) =
      ⟨sign ++ text, .token (.float (String.ofList (sign ++ text)))⟩ := by
  cases written with
  | point whole fraction nonempty whole_digits fraction_digits =>
      have point : Stops Char.isDigit ('.' :: (fraction ++ rest)) := by simp
      have stops' : Stops Char.isDigit rest := stops.of_blank rfl
      have not_empty : whole.isEmpty = false := List.isEmpty_eq_false_iff.mpr nonempty
      rw [List.append_assoc, List.cons_append, numberLexeme]
      simp only [point.takeWhile_append whole_digits, point.dropWhile_append whole_digits,
        stops'.takeWhile_append fraction_digits, stops'.dropWhile_append fraction_digits,
        exponentPart_of_stops stops, not_empty]
      simp
  | power whole fraction exponent nonempty whole_digits fraction_digits =>
      have not_empty : whole.isEmpty = false := List.isEmpty_eq_false_iff.mpr nonempty
      have cut_power := exponentPart_toString exponent stops
      -- Of the power it only matters that it is cut off as a whole.
      generalize (toString exponent).toList = power at cut_power ⊢
      have stops' : Stops Char.isDigit ('e' :: (power ++ rest)) := by simp
      by_cases empty : fraction = []
      · rw [mantissaText, if_pos (by simpa using empty), List.append_nil, List.append_assoc,
          List.cons_append, numberLexeme]
        simp only [stops'.takeWhile_append whole_digits, stops'.dropWhile_append whole_digits,
          not_empty]
        simp [cut_power]
      · have point : Stops Char.isDigit ('.' :: (fraction ++ 'e' :: (power ++ rest))) := by simp
        have text_eq : mantissaText whole fraction ++ 'e' :: power ++ rest =
            whole ++ '.' :: (fraction ++ 'e' :: (power ++ rest)) := by
          rw [mantissaText, if_neg (by simpa using empty)]
          simp
        rw [text_eq, numberLexeme]
        simp only [point.takeWhile_append whole_digits, point.dropWhile_append whole_digits,
          stops'.takeWhile_append fraction_digits, stops'.dropWhile_append fraction_digits,
          cut_power, not_empty]
        simp [mantissaText, empty]

/-- A finite float as listings write it is a token. -/
theorem lexesTo_float {format : FloatFormat} {bits : ℕ} (exponent_wide : 1 < format.exponentBits)
    (finite : format.isFinite bits = true) :
    LexesTo (DecimalStyle.listing.write format bits).toList
      (.float (DecimalStyle.listing.write format bits)) := by
  obtain ⟨text, read, text_eq, written, -⟩ :=
    DecimalStyle.write_decimalText exponent_wide finite
  rw [← String.ofList_toList (s := DecimalStyle.listing.write format bits), text_eq,
    String.toList_ofList]
  cases decide (format.signBit ≤ bits) with
  | true =>
      refine ⟨'-', text, rfl, fun rest stops => ?_⟩
      have lexed : lexeme '-' (text ++ rest) = numberLexeme ['-'] (text ++ rest) := rfl
      rw [lexed, numberLexeme_decimalText ['-'] written stops]
      rfl
  | false =>
      obtain ⟨c, tail, rfl, digit⟩ := written.exists_digit
      refine ⟨c, tail, rfl, fun rest stops => ?_⟩
      rw [lexeme_of_isDigit _ digit, ← List.cons_append,
        numberLexeme_decimalText [] written stops]
      rfl

/-! ## Words and strings -/

/-- Texts joined by a character are the first text and the others, each after that character. -/
theorem toList_intercalate_cons {separator : String} {c : Char} (single : separator.toList = [c])
    (first : String) (others : List String) :
    (separator.intercalate (first :: others)).toList =
      first.toList ++ (others.map String.toList).flatMap (c :: ·) := by
  induction others generalizing first with
  | nil => simp
  | cons second others hyp =>
      rw [String.intercalate_cons_cons, String.toList_append, String.toList_append, hyp, single]
      simp

/-- Whether a text is a name: an opcode, an enumerant or one bit of a mask. -/
def isName : List Char → Bool
  | [] => false
  | c :: tail => isWordStart c && tail.all isWordChar

/-- The further names of a mask are cut off up to where the text stops. -/
theorem maskTail_names {names : List (List Char)} (all : ∀ name ∈ names, isName name = true)
    (written : List Char) {rest : List Char} (stops : Stops (· != ' ') rest) :
    maskTail written (names.flatMap ('|' :: ·) ++ rest) =
      written.reverse ++ names.flatMap ('|' :: ·) := by
  induction names generalizing written with
  | nil =>
      cases rest with
      | nil => rw [List.flatMap_nil, List.append_nil, List.append_nil, maskTail]; simp
      | cons c rest =>
          have : c = ' ' := by simpa using stops
          rw [this, List.flatMap_nil, List.append_nil, List.nil_append, maskTail]
          simp
  | cons name names hyp =>
      have name_all := all name List.mem_cons_self
      have rest_all : ∀ name ∈ names, isName name = true :=
        fun name mem => all name (List.mem_cons_of_mem _ mem)
      cases name with
      | nil => simp [isName] at name_all
      | cons c tail =>
          simp only [isName, Bool.and_eq_true, List.all_eq_true] at name_all
          obtain ⟨start, tail_all⟩ := name_all
          -- A name ends at the bar before the next one or where the text stops.
          have next_stops : Stops isWordChar (names.flatMap ('|' :: ·) ++ rest) := by
            cases names with
            | nil => exact stops.of_blank rfl
            | cons name names => simp [isWordChar]
          rw [List.flatMap_cons, List.cons_append, List.cons_append, List.append_assoc,
            List.cons_append, maskTail, if_pos start, next_stops.takeWhile_append tail_all,
            next_stops.dropWhile_append tail_all, hyp rest_all]
          simp

/-- Where a word starts, no other token does. -/
theorem lexeme_of_isWordStart {c : Char} (rest : List Char) (start : isWordStart c = true) :
    lexeme c rest =
      let text := maskTail ((rest.takeWhile isWordChar).reverse ++ [c]) (rest.dropWhile isWordChar)
      ⟨text, .token (.word (String.ofList text))⟩ := by
  have other (d : Char) (not_start : isWordStart d = false) : c ≠ d := by
    rintro rfl
    exact absurd start (by simp [not_start])
  have not_separator : isSeparator c = false := by
    simp [isSeparator, other ' ' rfl, other '\t' rfl, other '\r' rfl]
  rw [lexeme, not_separator]
  simp [other ';' rfl, other '=' rfl, other '%' rfl, other '"' rfl, start]

/-- Names with bars between them are one token. -/
theorem lexesTo_mask {first : List Char} {names : List (List Char)}
    (first_all : isName first = true)
    (all : ∀ name ∈ names, isName name = true) :
    LexesTo (first ++ names.flatMap ('|' :: ·))
      (.word (String.ofList (first ++ names.flatMap ('|' :: ·)))) := by
  cases first with
  | nil => simp [isName] at first_all
  | cons c tail =>
      simp only [isName, Bool.and_eq_true, List.all_eq_true] at first_all
      obtain ⟨start, tail_all⟩ := first_all
      refine ⟨c, tail ++ names.flatMap ('|' :: ·), rfl, fun rest stops => ?_⟩
      have next_stops : Stops isWordChar (names.flatMap ('|' :: ·) ++ rest) := by
        cases names with
        | nil => exact stops.of_blank rfl
        | cons name names => simp [isWordChar]
      rw [lexeme_of_isWordStart _ start, List.append_assoc,
        next_stops.takeWhile_append tail_all, next_stops.dropWhile_append tail_all]
      simp only [maskTail_names all _ stops]
      simp

/-- A name is a token. -/
theorem lexesTo_word {name : List Char} (all : isName name = true) :
    LexesTo name (.word (String.ofList name)) := by
  have lexes : LexesTo (name ++ List.flatMap ('|' :: ·) []) _ := lexesTo_mask all (by simp)
  simpa using lexes

/-- A marked text is read up to the quote after it. -/
theorem stringBody_markQuotes (text written meant rest : List Char) :
    stringBody written meant (Text.markQuotes text ++ '"' :: rest) =
      ((Text.markQuotes text).reverse ++ written, text.reverse ++ meant, true) := by
  induction text generalizing written meant with
  | nil => rfl
  | cons c text hyp =>
      by_cases marked : c = '"' ∨ c = '\\'
      · have split : Text.markQuotes (c :: text) = '\\' :: c :: Text.markQuotes text := by
          simp [Text.markQuotes, marked]
        rw [split, List.cons_append, List.cons_append, stringBody, hyp]
        simp
      · have split : Text.markQuotes (c :: text) = c :: Text.markQuotes text := by
          simp [Text.markQuotes, marked]
        rw [split, List.cons_append, stringBody, hyp]
        · simp
        · exact fun h => marked (Or.inl h)
        · exact fun h _ => marked (Or.inr h)
        · exact fun _ _ h _ => marked (Or.inr h)

/-- A text between quotes is a token. -/
theorem lexesTo_str (text : String) : LexesTo (Text.quoteBare text).toList (.str text) := by
  refine ⟨'"', Text.markQuotes text.toList ++ ['"'], by simp [Text.quoteBare], fun rest _ => ?_⟩
  have not_separator : isSeparator '"' = false := rfl
  rw [List.append_assoc, List.singleton_append, lexeme, not_separator]
  simp [stringBody_markQuotes, Text.quoteBare]

/-! ## Lines -/

/-- A token does not start with a separator. -/
theorem LexesTo.stops {text : List Char} {token : Token} (lexes : LexesTo text token)
    (rest : List Char) : Stops isSeparator (text ++ rest) := by
  obtain ⟨c, tail, rfl, cut⟩ := lexes
  rw [List.cons_append, stops_cons]
  by_contra separator
  have blank := cut [] (stops_nil _)
  rw [lexeme, if_pos (by simpa using separator)] at blank
  exact absurd (congrArg Lexeme.reading blank) (by simp)

/-- A line goes on after a token. -/
theorem scanFrom_token {text rest : List Char} {token : Token} (lexes : LexesTo text token)
    (stops : Stops (· != ' ') rest) (read : List (Placed ScannedToken)) (start : ℕ) :
    scanFrom read start (text ++ rest) =
      scanFrom (⟨.ok token, start, start + byteLength text⟩ :: read) (start + byteLength text)
        rest := by
  obtain ⟨c, tail, rfl, cut⟩ := lexes
  rw [List.cons_append, scanFrom, cut rest stops]
  simp

/-- A line goes on after blanks. -/
theorem scanFrom_blanks (count : ℕ) {rest : List Char} (stops : Stops isSeparator rest)
    (read : List (Placed ScannedToken)) (start : ℕ) :
    scanFrom read start (List.replicate count ' ' ++ rest) =
      scanFrom read (start + byteLength (List.replicate count ' ')) rest := by
  cases count with
  | zero => rfl
  | succ count =>
      have blanks : ∀ c ∈ List.replicate count ' ', isSeparator c = true := by
        intro c mem
        rw [(List.mem_replicate.mp mem).2]
        rfl
      have separator : isSeparator ' ' = true := rfl
      rw [List.replicate_succ, List.cons_append, scanFrom, lexeme, if_pos separator,
        stops.takeWhile_append blanks]
      simp

/-- A comment holds no token. -/
theorem scanLine_comment (rest : List Char) : scanLine (';' :: rest) = [] := by
  have not_separator : isSeparator ';' = false := rfl
  rw [scanLine, scanFrom, lexeme, not_separator]
  simp [scanFrom]

/-- What follows a token in a line of separated texts is a blank. -/
theorem stops_separated (texts : List (List Char)) :
    Stops (· != ' ') (texts.flatMap (' ' :: ·)) := by
  cases texts <;> simp

/-- The tokens of texts with a blank before each are found one after the other. -/
theorem tokens_scanFrom {texts : List (List Char)} {tokens : List Token}
    (lex : List.Forall₂ LexesTo texts tokens) (read : List (Placed ScannedToken)) (start : ℕ) :
    (scanFrom read start (texts.flatMap (' ' :: ·))).map Placed.item =
      (read.map Placed.item).reverse ++ tokens.map Except.ok := by
  induction lex generalizing read start with
  | nil => simp [scanFrom]
  | @cons text token texts tokens lexes lex hyp =>
      have blank := scanFrom_blanks 1 (lexes.stops (texts.flatMap (' ' :: ·))) read start
      rw [List.replicate_one, List.singleton_append] at blank
      rw [List.flatMap_cons, List.cons_append, blank,
        scanFrom_token lexes (stops_separated texts), hyp]
      simp

/-- Separated texts are cut into their tokens, with any number of blanks before the first one. -/
theorem tokens_scanLine (count : ℕ) {text : List Char} {token : Token} {texts : List (List Char)}
    {tokens : List Token} (lexes : LexesTo text token) (lex : List.Forall₂ LexesTo texts tokens) :
    (scanLine (List.replicate count ' ' ++ (text ++ texts.flatMap (' ' :: ·)))).map Placed.item =
      (token :: tokens).map Except.ok := by
  rw [scanLine, scanFrom_blanks count (lexes.stops _), scanFrom_token lexes (stops_separated texts),
    tokens_scanFrom lex]
  simp

/-! ## Line ends -/

/-- A text of characters from a class without the line end has no line end. -/
theorem newline_not_mem {inside : Char → Bool} {text : List Char}
    (all : ∀ c ∈ text, inside c = true) (out : inside '\n' = false) : '\n' ∉ text := by
  intro mem
  exact absurd (all _ mem) (by simp [out])

/-- A decimal integer has no line end. -/
theorem newline_not_mem_integer (value : ℤ) : '\n' ∉ (toString value).toList := by
  have digits : '\n' ∉ Nat.toDigits 10 value.natAbs :=
    newline_not_mem (fun _ => isDigit_of_mem_digits) rfl
  rw [toList_toString_int, List.mem_append, not_or]
  refine ⟨?_, digits⟩
  split_ifs <;> simp

/-- A number in base sixteen has no line end. -/
theorem newline_not_mem_hex (value : ℕ) : '\n' ∉ (Text.hex value).toList := by
  have digits : '\n' ∉ Nat.toDigits 16 value :=
    newline_not_mem (fun _ => isHexDigit_of_mem_toDigits) rfl
  rw [Text.hex, Text.hexDigits, String.toList_append, String.toList_ofList, String.toList_ofList,
    List.mem_append, not_or]
  exact ⟨by simp, digits⟩

/-- The text of an unsigned float has no line end. -/
theorem DecimalText.newline_not_mem {text : List Char} {decimal : Decimal}
    (written : DecimalText text decimal) : '\n' ∉ text := by
  cases written with
  | point whole fraction nonempty whole_digits fraction_digits =>
      have whole_free := ShaderMachine.newline_not_mem whole_digits rfl
      have fraction_free := ShaderMachine.newline_not_mem fraction_digits rfl
      simp [whole_free, fraction_free]
  | power whole fraction exponent nonempty whole_digits fraction_digits =>
      have whole_free := ShaderMachine.newline_not_mem whole_digits rfl
      have fraction_free := ShaderMachine.newline_not_mem fraction_digits rfl
      have exponent_free := newline_not_mem_integer exponent
      generalize (toString exponent).toList = power at exponent_free ⊢
      rw [mantissaText]
      split_ifs <;> simp [whole_free, fraction_free, exponent_free]

/-- A finite float as listings write it has no line end. -/
theorem newline_not_mem_float {format : FloatFormat} {bits : ℕ}
    (exponent_wide : 1 < format.exponentBits) (finite : format.isFinite bits = true) :
    '\n' ∉ (DecimalStyle.listing.write format bits).toList := by
  obtain ⟨text, read, text_eq, written, -⟩ :=
    DecimalStyle.write_decimalText exponent_wide finite
  rw [text_eq, List.mem_append, not_or]
  refine ⟨?_, written.newline_not_mem⟩
  cases decide (format.signBit ≤ bits) <;> simp [DecimalStyle.signText]

/-- A name has no line end. -/
theorem newline_not_mem_name {name : List Char} (all : isName name = true) : '\n' ∉ name := by
  cases name with
  | nil => simp
  | cons c tail =>
      simp only [isName, Bool.and_eq_true, List.all_eq_true] at all
      obtain ⟨start, tail_all⟩ := all
      rw [List.mem_cons, not_or]
      refine ⟨?_, newline_not_mem tail_all rfl⟩
      rintro rfl
      exact absurd start (by decide)

/-- A text between quotes has no line end unless the text itself has one. -/
theorem newline_not_mem_quoteBare {text : String} (free : '\n' ∉ text.toList) :
    '\n' ∉ (Text.quoteBare text).toList := by
  have marked : '\n' ∉ Text.markQuotes text.toList := by
    rw [Text.markQuotes, List.mem_flatMap]
    rintro ⟨c, mem, mem'⟩
    split_ifs at mem' with special
    · have : c = '\n' := by simpa [eq_comm] using mem'
      exact free (this ▸ mem)
    · have : c = '\n' := by simpa [eq_comm] using mem'
      exact free (this ▸ mem)
  simp [Text.quoteBare, marked]

end ShaderMachine
