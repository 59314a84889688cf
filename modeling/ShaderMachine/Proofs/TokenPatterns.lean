import ShaderMachine.Proofs.LexemeContext

/-! # Patterns of tokens

A kind of token is a pattern of texts, and so are the blanks and comments between tokens. What is
cut off the front of a line is the longest text there that matches a pattern, so the rules by which
it is found one character after the other may be forgotten for the patterns.

* **`StandsFor`** — the texts that match a pattern, with what they stand for.
* **`StandsFor.frontLexeme_eq`** — a line that matches a pattern is cut off as a whole.
* **`StandsFor.prefix_frontLexeme`** — what is cut off is at least as long as any text at the front
  that matches a pattern.
* **`standsFor_frontLexeme`** — what is cut off matches a pattern itself, if it is not bad. -/

namespace ShaderMachine

/-! ## Patterns -/

/-- Whether a text is some digits. -/
structure IsDigits (text : List Char) : Prop where
  /-- There is one. -/
  nonempty : text ≠ []
  /-- There is nothing else. -/
  all : ∀ c ∈ text, c.isDigit = true

/-- Whether a text is a sign that a number may have, or none. -/
def IsSign (text : List Char) : Prop :=
  text = [] ∨ text = ['-']

/-- Whether a text is a power of ten. -/
inductive IsPower : List Char → Prop
  /-- A letter, perhaps a sign, and digits. -/
  | intro {mark : Char} {sign digits : List Char} (is_mark : mark = 'e' ∨ mark = 'E')
      (is_sign : sign = [] ∨ sign = ['+'] ∨ sign = ['-']) (some_digits : IsDigits digits) :
      IsPower (mark :: sign ++ digits)

/-- Whether a text is a decimal float. -/
inductive IsFloatText : List Char → Prop
  /-- Digits with a point behind or between them, and perhaps a power of ten. -/
  | point {sign whole fraction power : List Char} (is_sign : IsSign sign)
      (some_digits : IsDigits whole) (fraction_digits : ∀ c ∈ fraction, c.isDigit = true)
      (has_power : power = [] ∨ IsPower power) :
      IsFloatText (sign ++ whole ++ '.' :: fraction ++ power)
  /-- Digits and a power of ten. -/
  | power {sign whole power : List Char} (is_sign : IsSign sign) (some_digits : IsDigits whole)
      (has_power : IsPower power) : IsFloatText (sign ++ whole ++ power)

/-- Whether a text is a name, or several with a bar between each two. -/
def IsWordText (text : List Char) : Prop :=
  ∃ (first : List Char) (names : List (List Char)), isName first = true ∧
    (∀ name ∈ names, isName name = true) ∧ text = first ++ names.flatMap ('|' :: ·)

/-- Whether some characters between quotes mean others. -/
inductive Quotes : List Char → List Char → Prop
  /-- Nothing means nothing. -/
  | nil : Quotes [] []
  /-- A character that is neither a quote nor a backslash nor the end of a line means itself. -/
  | plain {c : Char} {body meant : List Char} (no_quote : c ≠ '"') (no_escape : c ≠ '\\')
      (on_line : c ≠ '\n') (quotes : Quotes body meant) : Quotes (c :: body) (c :: meant)
  /-- A backslash makes any character mean itself, but not the end of a line. -/
  | escaped {c : Char} {body meant : List Char} (on_line : c ≠ '\n')
      (quotes : Quotes body meant) : Quotes ('\\' :: c :: body) (c :: meant)

/-- Whether a text matches a pattern, and what it stands for then. An integer with too many bits
matches the pattern of integers and is bad. -/
inductive StandsFor : List Char → Reading → Prop
  /-- Blanks. -/
  | separators {text : List Char} (nonempty : text ≠ [])
      (all : ∀ c ∈ text, isSeparator c = true) : StandsFor text .blank
  /-- A comment up to the end of a line. -/
  | comment {text : List Char} (free : '\n' ∉ text) : StandsFor (';' :: text) .blank
  /-- The equals sign. -/
  | equals : StandsFor ['='] (.token .equals)
  /-- An ID. -/
  | id {name : List Char} (nonempty : name ≠ []) (all : ∀ c ∈ name, isIdChar c = true) :
      StandsFor ('%' :: name) (.token (.id (String.ofList name)))
  /-- A word. -/
  | word {text : List Char} (is_word : IsWordText text) :
      StandsFor text (.token (.word (String.ofList text)))
  /-- A decimal integer. -/
  | integer {sign digits : List Char} (is_sign : IsSign sign) (some_digits : IsDigits digits) :
      StandsFor (sign ++ digits) (readInteger (sign ≠ []) digits)
  /-- A hexadecimal integer. -/
  | hex {digits : List Char} (nonempty : digits ≠ []) (all : ∀ c ∈ digits, isHexDigit c = true) :
      StandsFor ('0' :: 'x' :: digits) (readHex digits)
  /-- A float. -/
  | float {text : List Char} (is_float : IsFloatText text) :
      StandsFor text (.token (.float (String.ofList text)))
  /-- A string. -/
  | str {body meant : List Char} (quotes : Quotes body meant) :
      StandsFor ('"' :: body ++ ['"']) (.token (.str (String.ofList meant)))

/-- The first stretch of a line; there is none on an empty line. -/
def frontLexeme : List Char → Lexeme
  | [] => ⟨[], .bad⟩
  | c :: rest => lexeme c rest

/-! ## Powers of ten -/

/-- The sign of a power of ten is told from its digits. -/
theorem exponentSign_append {sign digits : List Char}
    (is_sign : sign = [] ∨ sign = ['+'] ∨ sign = ['-']) (some_digits : IsDigits digits)
    (more : List Char) : exponentSign (sign ++ digits ++ more) = sign := by
  obtain ⟨d, tail, rfl⟩ := List.exists_cons_of_ne_nil some_digits.nonempty
  have is_digit := some_digits.all d List.mem_cons_self
  rcases is_sign with rfl | rfl | rfl
  · rw [List.nil_append, List.cons_append, exponentSign_cons, if_neg]
    rintro (rfl | rfl) <;> exact absurd is_digit (by decide)
  · rfl
  · rfl

/-- A power of ten is found with the digits behind it. -/
theorem IsPower.exponentPart_append {power : List Char} (is_power : IsPower power)
    (more : List Char) : exponentPart (power ++ more) = power ++ more.takeWhile Char.isDigit := by
  obtain ⟨is_mark, is_sign, some_digits⟩ := is_power
  rename_i mark sign digits
  have shape : mark :: sign ++ digits ++ more = mark :: (sign ++ digits ++ more) := rfl
  have found : (digits ++ more).takeWhile Char.isDigit = digits ++ more.takeWhile Char.isDigit :=
    List.takeWhile_append_of_pos some_digits.all
  rw [shape, exponentPart_cons, if_pos is_mark, exponentSign_append is_sign some_digits]
  simp [found, some_digits.nonempty]

/-- A power of ten does not start with a digit, nor with a point or an `x`. -/
theorem IsPower.exists_mark {power : List Char} (is_power : IsPower power) :
    ∃ mark rest, power = mark :: rest ∧ mark.isDigit = false ∧ mark ≠ '.' ∧ mark ≠ 'x' := by
  obtain ⟨is_mark, -, -⟩ := is_power
  refine ⟨_, _, rfl, ?_⟩
  rcases is_mark with rfl | rfl <;> decide

/-- What is found as a power of ten is one. -/
theorem isPower_exponentPart (text : List Char) :
    exponentPart text = [] ∨ IsPower (exponentPart text) := by
  cases text with
  | nil => exact .inl rfl
  | cons c rest =>
      rw [exponentPart_cons]
      split
      · rename_i is_mark
        dsimp only
        split
        · exact .inl rfl
        · rename_i some_digits
          refine .inr (.intro is_mark ?_ ⟨?_, fun _ mem => List.mem_takeWhile_imp mem⟩)
          · unfold exponentSign
            split <;> simp
          · rwa [List.isEmpty_iff] at some_digits
      · exact .inl rfl

/-! ## Numbers -/

section

variable {sign digits : List Char}

/-- A number starts with its sign and its digits. -/
theorem frontLexeme_number (is_sign : IsSign sign) (some_digits : IsDigits digits)
    (more : List Char) : frontLexeme (sign ++ digits ++ more) =
      numberRest sign (digits ++ more.takeWhile Char.isDigit) (more.dropWhile Char.isDigit) := by
  have front : frontLexeme (sign ++ digits ++ more) = numberLexeme sign (digits ++ more) := by
    rcases is_sign with rfl | rfl
    · obtain ⟨d, tail, rfl⟩ := List.exists_cons_of_ne_nil some_digits.nonempty
      exact lexeme_of_isDigit _ (some_digits.all d List.mem_cons_self)
    · rfl
  rw [front, numberLexeme_eq, List.takeWhile_append_of_pos some_digits.all,
    List.dropWhile_append_of_pos some_digits.all, if_neg]
  simp [some_digits.nonempty]

/-- A number that ends with its digits is followed by what is no digit. -/
theorem frontLexeme_number_of_stops (is_sign : IsSign sign) (some_digits : IsDigits digits)
    {more : List Char} (stops : Stops Char.isDigit more) :
    frontLexeme (sign ++ digits ++ more) = numberRest sign digits more := by
  have left := stops.dropWhile_append (List.forall_mem_nil _)
  rw [List.nil_append] at left
  rw [frontLexeme_number is_sign some_digits, stops.takeWhile_eq_nil, left, List.append_nil]

/-- Whatever follows the digits of a number, it is a float or an integer. -/
theorem standsFor_numberRest (is_sign : IsSign sign) (some_digits : IsDigits digits)
    (rest : List Char) :
    StandsFor (numberRest sign digits rest).text (numberRest sign digits rest).reading := by
  have ends := endsNumber_numberRest sign digits rest
  generalize numberRest sign digits rest = found at ends ⊢
  cases ends with
  | integer => exact .integer is_sign some_digits
  | point written_eq =>
      rw [written_eq]
      exact .float (.point is_sign some_digits (fun _ mem => List.mem_takeWhile_imp mem)
        (isPower_exponentPart _))
  | power some_power written_eq =>
      rw [written_eq]
      exact .float (.power is_sign some_digits ((isPower_exponentPart _).resolve_left some_power))
  | hex some_hex => exact .hex some_hex fun _ mem => List.mem_takeWhile_imp mem

/-- A number with a sign is a float or an integer, or bad for want of digits. -/
theorem standsFor_numberLexeme (is_sign : IsSign sign) (text : List Char)
    (good : (numberLexeme sign text).reading ≠ .bad) :
    StandsFor (numberLexeme sign text).text (numberLexeme sign text).reading := by
  rw [numberLexeme_eq] at good ⊢
  split
  · rename_i no_digits
    rw [if_pos no_digits] at good
    exact absurd rfl good
  · rename_i some_digits
    rw [List.isEmpty_iff] at some_digits
    exact standsFor_numberRest is_sign ⟨some_digits, fun _ mem => List.mem_takeWhile_imp mem⟩ _

end

/-- What a fraction and its power of ten are found as, where more follows: they are in front of it,
and all of it if nothing follows. -/
theorem fraction_append {fraction power : List Char}
    (fraction_digits : ∀ c ∈ fraction, c.isDigit = true) (has_power : power = [] ∨ IsPower power)
    (more : List Char) :
    fraction ++ power <+: (fraction ++ power ++ more).takeWhile Char.isDigit ++
        exponentPart ((fraction ++ power ++ more).dropWhile Char.isDigit) ∧
      ((fraction ++ power).takeWhile Char.isDigit = fraction ∧
        exponentPart ((fraction ++ power).dropWhile Char.isDigit) = power) := by
  rcases has_power with rfl | is_power
  · rw [List.append_nil, List.takeWhile_append_of_pos fraction_digits, List.append_assoc]
    refine ⟨List.prefix_append _ _, List.takeWhile_eq_self_iff.mpr fraction_digits, ?_⟩
    rw [List.dropWhile_eq_nil_iff.mpr fraction_digits]
    rfl
  · obtain ⟨mark, rest, power_eq, no_digit, -, -⟩ := is_power.exists_mark
    have stops (behind : List Char) : Stops Char.isDigit (power ++ behind) := by
      rw [power_eq, List.cons_append, stops_cons]
      exact no_digit
    have whole := is_power.exponentPart_append []
    have stops_whole := stops []
    rw [List.append_nil] at whole stops_whole
    refine ⟨?_, stops_whole.takeWhile_append fraction_digits, ?_⟩
    · rw [List.append_assoc, (stops more).takeWhile_append fraction_digits,
        (stops more).dropWhile_append fraction_digits, is_power.exponentPart_append,
        ← List.append_assoc]
      exact List.prefix_append _ _
    · rw [stops_whole.dropWhile_append fraction_digits, whole, List.takeWhile_nil, List.append_nil]

/-- A float is cut off as a whole, with more of it where more follows. -/
theorem frontLexeme_float {text : List Char} (is_float : IsFloatText text) (more : List Char) :
    text <+: (frontLexeme (text ++ more)).text ∧
      frontLexeme text = ⟨text, .token (.float (String.ofList text))⟩ := by
  cases is_float with
  | @point sign whole fraction power is_sign some_digits fraction_digits has_power =>
      have point_stops (behind : List Char) : Stops Char.isDigit ('.' :: behind) := by simp
      have shape (behind : List Char) :
          sign ++ whole ++ '.' :: fraction ++ power ++ behind =
            sign ++ whole ++ '.' :: (fraction ++ power ++ behind) := by simp
      obtain ⟨front, whole_fraction, whole_power⟩ := fraction_append fraction_digits has_power more
      constructor
      · rw [shape, frontLexeme_number_of_stops is_sign some_digits (point_stops _),
          numberRest_point]
        simpa using front
      · have whole_text := shape []
        rw [List.append_nil, List.append_nil] at whole_text
        rw [whole_text, frontLexeme_number_of_stops is_sign some_digits (point_stops _),
          numberRest_point, whole_fraction, whole_power]
        simp
  | @power sign whole power is_sign some_digits has_power =>
      obtain ⟨mark, rest, power_eq, no_digit, no_point, no_x⟩ := has_power.exists_mark
      -- The power is found where it stands, with any digits behind it.
      have found (behind : List Char) : frontLexeme (sign ++ whole ++ power ++ behind) =
          ⟨sign ++ whole ++ (power ++ behind.takeWhile Char.isDigit),
            .token (.float (String.ofList
              (sign ++ whole ++ (power ++ behind.takeWhile Char.isDigit))))⟩ := by
        have part := has_power.exponentPart_append behind
        have some_power : exponentPart (mark :: (rest ++ behind)) ≠ [] := by
          rw [← List.cons_append, ← power_eq, part, power_eq]
          simp
        have stops : Stops Char.isDigit (mark :: (rest ++ behind)) := by
          rw [stops_cons]
          exact no_digit
        rw [List.append_assoc, power_eq, List.cons_append,
          frontLexeme_number_of_stops is_sign some_digits stops, numberRest_cons _ _ _ no_point,
          if_neg fun hex => no_x hex.1, if_neg some_power, ← List.cons_append, ← power_eq, part]
      constructor
      · rw [found, ← List.append_assoc]
        exact List.prefix_append _ _
      · have whole_text := found []
        rw [List.append_nil, List.takeWhile_nil, List.append_nil] at whole_text
        exact whole_text

/-- A hexadecimal integer is cut off with the digits behind it. -/
theorem frontLexeme_hex {digits : List Char} (nonempty : digits ≠ [])
    (all : ∀ c ∈ digits, isHexDigit c = true) (more : List Char) :
    frontLexeme ('0' :: 'x' :: digits ++ more) =
      ⟨'0' :: 'x' :: digits ++ more.takeWhile isHexDigit,
        readHex (digits ++ more.takeWhile isHexDigit)⟩ := by
  have zero : IsDigits ['0'] := ⟨by simp, by simp⟩
  have stops : Stops Char.isDigit ('x' :: (digits ++ more)) := by simp
  have front := frontLexeme_number_of_stops (.inl rfl) zero stops
  have found : (digits ++ more).takeWhile isHexDigit = digits ++ more.takeWhile isHexDigit :=
    List.takeWhile_append_of_pos all
  rw [numberRest_cons _ _ _ (by decide), if_pos ⟨rfl, rfl, rfl, by simp [found, nonempty]⟩,
    found] at front
  exact front

/-! ## Words and strings -/

/-- Names go on with a bar and one more name. -/
theorem IsWordText.append {text name : List Char} (is_word : IsWordText text)
    (is_name : isName name = true) : IsWordText (text ++ '|' :: name) := by
  obtain ⟨first, names, is_first, all, rfl⟩ := is_word
  refine ⟨first, names ++ [name], is_first, ?_, by simp⟩
  intro other mem
  rcases List.mem_append.mp mem with mem | mem
  · exact all other mem
  · rwa [List.mem_singleton.mp mem]

/-- What is cut off as names is names. -/
theorem isWordText_maskTail {written text : List Char} (is_word : IsWordText written.reverse) :
    IsWordText (maskTail written text) := by
  fun_induction maskTail written text with
  | case1 written c rest start hyp =>
      refine hyp ?_
      have is_name : isName (c :: rest.takeWhile isWordChar) = true := by
        rw [isName, start, Bool.true_and, List.all_eq_true]
        exact fun _ mem => List.mem_takeWhile_imp mem
      simpa using is_word.append is_name
  | case2 written c rest other => exact is_word
  | case3 written text other => exact is_word

/-- A word is cut off where one starts. -/
theorem standsFor_word {c : Char} (rest : List Char) (start : isWordStart c = true) :
    StandsFor (lexeme c rest).text (lexeme c rest).reading := by
  rw [lexeme_of_isWordStart rest start]
  refine .word (isWordText_maskTail ⟨c :: rest.takeWhile isWordChar, [], ?_, by simp, by simp⟩)
  rw [isName, start, Bool.true_and, List.all_eq_true]
  exact fun _ mem => List.mem_takeWhile_imp mem

/-- The names that follow one with a bar before each are cut off with it. -/
theorem prefix_wordMask {names : List (List Char)} (all : ∀ name ∈ names, isName name = true)
    {tail : List Char} (tail_all : ∀ c ∈ tail, isWordChar c = true) (written more : List Char) :
    written.reverse ++ tail ++ names.flatMap ('|' :: ·) <+:
      maskTail
        (((tail ++ names.flatMap ('|' :: ·) ++ more).takeWhile isWordChar).reverse ++ written)
        ((tail ++ names.flatMap ('|' :: ·) ++ more).dropWhile isWordChar) := by
  induction names generalizing tail written with
  | nil =>
      have front := prefix_maskTail (((tail ++ more).takeWhile isWordChar).reverse ++ written)
        ((tail ++ more).dropWhile isWordChar)
      rw [List.takeWhile_append_of_pos tail_all] at front
      simp only [List.flatMap_nil, List.append_nil, List.takeWhile_append_of_pos tail_all]
      refine List.IsPrefix.trans ?_ front
      simp
  | cons name names hyp =>
      rw [List.forall_mem_cons] at all
      obtain ⟨is_name, all⟩ := all
      cases name with
      | nil => simp [isName] at is_name
      | cons c name =>
          simp only [isName, Bool.and_eq_true, List.all_eq_true] at is_name
          obtain ⟨start, name_all⟩ := is_name
          -- The first name ends at the bar, and the next one is cut off behind it.
          have stops :
              Stops isWordChar ('|' :: c :: (name ++ names.flatMap ('|' :: ·) ++ more)) := by
            simp [isWordChar]
          have shape : tail ++ ((c :: name) :: names).flatMap ('|' :: ·) ++ more =
              tail ++ '|' :: c :: (name ++ names.flatMap ('|' :: ·) ++ more) := by simp
          rw [shape, stops.takeWhile_append tail_all, stops.dropWhile_append tail_all,
            maskTail_name _ _ start]
          have front := hyp all name_all (c :: '|' :: (tail.reverse ++ written))
          simpa using front

/-- Names with bars between them are cut off where a text starts with them. -/
theorem prefix_frontLexeme_word {text : List Char} (is_word : IsWordText text)
    (more : List Char) : text <+: (frontLexeme (text ++ more)).text := by
  obtain ⟨first, names, is_name, all, rfl⟩ := is_word
  cases first with
  | nil => simp [isName] at is_name
  | cons c tail =>
      simp only [isName, Bool.and_eq_true, List.all_eq_true] at is_name
      obtain ⟨start, tail_all⟩ := is_name
      have front := prefix_wordMask all tail_all [c] more
      rw [List.cons_append, List.cons_append, frontLexeme, lexeme_of_isWordStart _ start]
      exact front

/-- Neither the characters between quotes nor those that they mean end a line. -/
theorem Quotes.newline_not_mem {body meant : List Char} (quotes : Quotes body meant) :
    '\n' ∉ body ∧ '\n' ∉ meant := by
  induction quotes with
  | nil => simp
  | plain _ _ on_line _ hyp => simp [hyp, Ne.symm on_line]
  | escaped on_line _ hyp => simp [hyp, Ne.symm on_line]

/-- The characters between quotes are cut off with what they mean. -/
theorem stringBody_quotes {body meant : List Char} (quotes : Quotes body meant)
    (written before more : List Char) :
    stringBody written before (body ++ '"' :: more) =
      (body.reverse ++ written, meant.reverse ++ before, true) := by
  induction quotes generalizing written before with
  | nil => rfl
  | plain no_quote no_escape _ _ hyp =>
      rw [List.cons_append, stringBody_plain _ _ _ no_quote no_escape, hyp]
      simp
  | escaped _ _ hyp =>
      rw [List.cons_append, List.cons_append, stringBody, hyp]
      simp

/-- What is cut off up to a closing quote is characters and what they mean. -/
theorem quotes_of_stringBody {written meant text written' meant' : List Char}
    (closed : stringBody written meant text = (written', meant', true)) (on_line : '\n' ∉ text) :
    ∃ body more, Quotes body more ∧ written' = body.reverse ++ written ∧
      meant' = more.reverse ++ meant := by
  fun_induction stringBody written meant text with
  | case1 written meant rest =>
      cases closed
      exact ⟨[], [], .nil, rfl, rfl⟩
  | case2 written meant => cases closed
  | case3 written meant c rest hyp =>
      simp only [List.mem_cons, not_or] at on_line
      obtain ⟨body, more, quotes, rfl, rfl⟩ := hyp closed on_line.2.2
      exact ⟨_, _, .escaped (Ne.symm on_line.2.1) quotes, by simp, by simp⟩
  | case4 written meant c rest no_quote no_last no_escape hyp =>
      simp only [List.mem_cons, not_or] at on_line
      obtain ⟨body, more, quotes, rfl, rfl⟩ := hyp closed on_line.2
      have plain : c ≠ '\\' := by
        rintro rfl
        cases rest with
        | nil => exact no_last rfl rfl
        | cons c rest => exact no_escape c rest rfl rfl
      exact ⟨_, _, .plain no_quote plain (Ne.symm on_line.1) quotes, by simp, by simp⟩
  | case5 written meant => cases closed

/-! ## The longest match -/

/-- What is cut off a line is what stands at its front. -/
theorem frontLexeme_front : ∀ line : List Char, (frontLexeme line).text <+: line
  | [] => List.prefix_rfl
  | c :: rest => lexeme_front c rest

/-- A text that is a token wherever a blank or nothing follows is cut off as a whole. -/
theorem LexesTo.frontLexeme_eq {text : List Char} {token : Token} (lexes : LexesTo text token) :
    frontLexeme text = ⟨text, .token token⟩ := by
  obtain ⟨c, tail, rfl, cut⟩ := lexes
  have whole := cut [] (stops_nil _)
  rwa [List.append_nil] at whole

/-- The name of an ID is cut off with what goes on it. -/
theorem frontLexeme_id {name : List Char} (nonempty : name ≠ [])
    (all : ∀ c ∈ name, isIdChar c = true) (more : List Char) :
    frontLexeme ('%' :: name ++ more) = ⟨'%' :: name ++ more.takeWhile isIdChar,
      .token (.id (String.ofList (name ++ more.takeWhile isIdChar)))⟩ := by
  have not_separator : isSeparator '%' = false := rfl
  have found : (name ++ more).takeWhile isIdChar = name ++ more.takeWhile isIdChar :=
    List.takeWhile_append_of_pos all
  rw [List.cons_append, frontLexeme, lexeme, not_separator]
  simp [found, nonempty]

/-- A string is cut off up to its closing quote. -/
theorem frontLexeme_str {body meant : List Char} (quotes : Quotes body meant) (more : List Char) :
    frontLexeme ('"' :: body ++ ['"'] ++ more) =
      ⟨'"' :: body ++ ['"'], .token (.str (String.ofList meant))⟩ := by
  have not_separator : isSeparator '"' = false := rfl
  rw [List.append_assoc, List.singleton_append, List.cons_append, frontLexeme, lexeme,
    not_separator]
  simp [stringBody_quotes quotes]

/-- Blanks are cut off with those behind them. -/
theorem frontLexeme_separators {text : List Char} (nonempty : text ≠ [])
    (all : ∀ c ∈ text, isSeparator c = true) (more : List Char) :
    frontLexeme (text ++ more) = ⟨text ++ more.takeWhile isSeparator, .blank⟩ := by
  obtain ⟨c, tail, rfl⟩ := List.exists_cons_of_ne_nil nonempty
  rw [List.forall_mem_cons] at all
  rw [List.cons_append, frontLexeme, lexeme, if_pos all.1, List.takeWhile_append_of_pos all.2]
  rfl

/-- A float has a sign and digits, and something behind them. -/
theorem IsFloatText.exists_digits {text : List Char} (is_float : IsFloatText text) :
    ∃ sign digits rest, IsSign sign ∧ IsDigits digits ∧ text = sign ++ digits ++ rest := by
  cases is_float with
  | point is_sign some_digits _ _ => exact ⟨_, _, _, is_sign, some_digits, List.append_assoc _ _ _⟩
  | power is_sign some_digits _ => exact ⟨_, _, _, is_sign, some_digits, rfl⟩

namespace StandsFor

variable {text : List Char} {reading : Reading}

/-- No pattern goes on across the end of a line. -/
theorem newline_not_mem (stands : StandsFor text reading) : '\n' ∉ text := by
  -- Signs, digits and powers are free of newlines.
  have digits_free {digits : List Char} (all : ∀ c ∈ digits, c.isDigit = true) : '\n' ∉ digits :=
    ShaderMachine.newline_not_mem all rfl
  have sign_free {sign : List Char} (is_sign : IsSign sign) : '\n' ∉ sign := by
    rcases is_sign with rfl | rfl <;> simp
  have power_free {power : List Char} (is_power : IsPower power) : '\n' ∉ power := by
    obtain ⟨is_mark, is_sign, some_digits⟩ := is_power
    have free := digits_free some_digits.all
    rcases is_mark with rfl | rfl <;> rcases is_sign with rfl | rfl | rfl <;> simp [free]
  cases stands with
  | separators _ all => exact ShaderMachine.newline_not_mem all rfl
  | comment free => simp [free]
  | equals => simp
  | id _ all =>
      have free := ShaderMachine.newline_not_mem all rfl
      simp [free]
  | word is_word =>
      obtain ⟨first, names, is_first, all, rfl⟩ := is_word
      rw [List.mem_append, not_or, List.mem_flatMap]
      refine ⟨newline_not_mem_name is_first, ?_⟩
      rintro ⟨name, mem, inside⟩
      have free := newline_not_mem_name (all name mem)
      simp [free] at inside
  | integer is_sign some_digits =>
      rw [List.mem_append, not_or]
      exact ⟨sign_free is_sign, digits_free some_digits.all⟩
  | hex _ all =>
      have free := ShaderMachine.newline_not_mem all rfl
      simp [free]
  | float is_float =>
      cases is_float with
      | point is_sign some_digits fraction_digits has_power =>
          have free : '\n' ∉ _ := has_power.elim (fun is => is ▸ List.not_mem_nil) power_free
          simp [sign_free is_sign, digits_free some_digits.all, digits_free fraction_digits, free]
      | power is_sign some_digits has_power =>
          simp [sign_free is_sign, digits_free some_digits.all, power_free has_power]
  | str quotes =>
      have free : '\n' ∉ _ := quotes.newline_not_mem.1
      simp [free]

/-- A line that matches a pattern is cut off as a whole. -/
theorem frontLexeme_eq (stands : StandsFor text reading) : frontLexeme text = ⟨text, reading⟩ := by
  cases stands with
  | separators nonempty all =>
      have found := frontLexeme_separators nonempty all []
      rwa [List.append_nil, List.takeWhile_nil, List.append_nil] at found
  | comment free => rfl
  | equals => rfl
  | id nonempty all => exact (lexesTo_id nonempty all).frontLexeme_eq
  | word is_word =>
      obtain ⟨first, names, is_first, all, rfl⟩ := is_word
      exact (lexesTo_mask is_first all).frontLexeme_eq
  | integer is_sign some_digits =>
      have found := frontLexeme_number_of_stops is_sign some_digits (stops_nil _)
      rw [List.append_nil] at found
      exact found
  | hex nonempty all =>
      have found := frontLexeme_hex nonempty all []
      rwa [List.append_nil, List.takeWhile_nil, List.append_nil, List.append_nil] at found
  | float is_float => exact (frontLexeme_float is_float []).2
  | str quotes =>
      have found := frontLexeme_str quotes []
      rwa [List.append_nil] at found

/-- No pattern is matched by nothing. -/
theorem ne_nil (stands : StandsFor text reading) : text ≠ [] := by
  cases stands with
  | separators nonempty _ => exact nonempty
  | comment _ => exact List.cons_ne_nil _ _
  | equals => exact List.cons_ne_nil _ _
  | id _ _ => exact List.cons_ne_nil _ _
  | word is_word =>
      obtain ⟨first, names, is_first, -, rfl⟩ := is_word
      cases first with
      | nil => simp [isName] at is_first
      | cons c first => exact List.cons_ne_nil _ _
  | integer _ some_digits => simp [some_digits.nonempty]
  | hex _ _ => exact List.cons_ne_nil _ _
  | float is_float =>
      obtain ⟨sign, digits, rest, -, some_digits, rfl⟩ := is_float.exists_digits
      simp [some_digits.nonempty]
  | str _ => exact List.cons_ne_nil _ _

/-- A text that stands for a token is that token wherever a blank or nothing follows. -/
theorem lexesTo {token : Token} (stands : StandsFor text (.token token)) : LexesTo text token := by
  obtain ⟨c, tail, rfl⟩ := List.exists_cons_of_ne_nil (stands.ne_nil)
  refine ⟨c, tail, rfl, fun rest stops => ?_⟩
  have whole : lexeme c (tail ++ []) = ⟨c :: tail, .token token⟩ := by
    rw [List.append_nil]
    exact stands.frontLexeme_eq
  have ends : EndsTokens rest := fun d mem => .inl (by simp_all [Stops, isSeparator])
  rw [lexeme_replace (congrArg Lexeme.reading whole) (by rw [whole]) ends, whole]

/-- A text stands for one thing. -/
theorem unique {other : Reading} (stands : StandsFor text reading)
    (stands' : StandsFor text other) : reading = other :=
  congrArg Lexeme.reading (stands.frontLexeme_eq.symm.trans stands'.frontLexeme_eq)

/-- What is cut off is at least as long as any text at the front that matches a pattern. -/
theorem prefix_frontLexeme (stands : StandsFor text reading) (more : List Char) :
    text <+: (frontLexeme (text ++ more)).text := by
  cases stands with
  | separators nonempty all =>
      rw [frontLexeme_separators nonempty all]
      exact List.prefix_append _ _
  | comment free => exact List.prefix_append _ _
  | equals => exact List.prefix_rfl
  | id nonempty all =>
      rw [frontLexeme_id nonempty all]
      exact List.prefix_append _ _
  | word is_word => exact prefix_frontLexeme_word is_word more
  | @integer sign digits is_sign some_digits =>
      rw [frontLexeme_number is_sign some_digits]
      have front := prefix_numberRest sign (digits ++ more.takeWhile Char.isDigit)
        (more.dropWhile Char.isDigit)
      rw [← List.append_assoc] at front
      exact (List.prefix_append _ _).trans front
  | hex nonempty all =>
      rw [frontLexeme_hex nonempty all]
      exact List.prefix_append _ _
  | float is_float => exact (frontLexeme_float is_float more).1
  | str quotes =>
      rw [frontLexeme_str quotes]

/-- Where a text at the front of a line matches a pattern, what is cut off does, too. -/
theorem standsFor_append (stands : StandsFor text reading) {more : List Char}
    (on_line : '\n' ∉ more) : StandsFor (frontLexeme (text ++ more)).text
      (frontLexeme (text ++ more)).reading := by
  -- A number goes on with what the text goes on with, and so do the runs of characters of other
  -- lexemes.
  have number {sign digits : List Char} (is_sign : IsSign sign) (some_digits : IsDigits digits)
      (rest : List Char) : StandsFor (frontLexeme (sign ++ digits ++ rest)).text
        (frontLexeme (sign ++ digits ++ rest)).reading := by
    rw [frontLexeme_number is_sign some_digits]
    refine standsFor_numberRest is_sign ⟨by simp [some_digits.nonempty], fun c mem => ?_⟩ _
    rcases List.mem_append.mp mem with mem | mem
    · exact some_digits.all c mem
    · exact List.mem_takeWhile_imp mem
  have goes_on {inside : Char → Bool} {run : List Char} (all : ∀ c ∈ run, inside c = true) :
      ∀ c ∈ run ++ more.takeWhile inside, inside c = true := by
    intro c mem
    rcases List.mem_append.mp mem with mem | mem
    · exact all c mem
    · exact List.mem_takeWhile_imp mem
  cases stands with
  | separators nonempty all =>
      rw [frontLexeme_separators nonempty all]
      exact .separators (by simp [nonempty]) (goes_on all)
  | comment free => exact .comment (by simp [free, on_line])
  | equals => exact .equals
  | id nonempty all =>
      rw [frontLexeme_id nonempty all]
      exact .id (by simp [nonempty]) (goes_on all)
  | word is_word =>
      obtain ⟨first, names, is_first, all, rfl⟩ := is_word
      cases first with
      | nil => simp [isName] at is_first
      | cons c tail =>
          simp only [isName, Bool.and_eq_true] at is_first
          exact standsFor_word _ is_first.1
  | integer is_sign some_digits => exact number is_sign some_digits more
  | hex nonempty all =>
      rw [frontLexeme_hex nonempty all]
      exact .hex (by simp [nonempty]) (goes_on all)
  | float is_float =>
      obtain ⟨sign, digits, rest, is_sign, some_digits, rfl⟩ := is_float.exists_digits
      rw [List.append_assoc]
      exact number is_sign some_digits _
  | str quotes =>
      rw [frontLexeme_str quotes]
      exact .str quotes

end StandsFor

/-- What is cut off a line matches a pattern, if it is not bad. -/
theorem standsFor_frontLexeme {line : List Char} (on_line : '\n' ∉ line)
    (good : (frontLexeme line).reading ≠ .bad) :
    StandsFor (frontLexeme line).text (frontLexeme line).reading := by
  cases line with
  | nil => exact absurd rfl good
  | cons c rest =>
      rw [List.mem_cons, not_or] at on_line
      have cuts := cuts_lexeme c rest
      rw [frontLexeme] at good ⊢
      generalize lexeme c rest = found at cuts good ⊢
      -- One case for each way of cutting the front off.
      cases cuts with
      | separators separator =>
          refine .separators (List.cons_ne_nil _ _) ?_
          rw [List.forall_mem_cons]
          exact ⟨separator, fun _ mem => List.mem_takeWhile_imp mem⟩
      | comment => exact .comment on_line.2
      | equals => exact .equals
      | id name_eq some_name =>
          subst name_eq
          exact .id some_name fun _ mem => List.mem_takeWhile_imp mem
      | str body =>
          obtain ⟨written, more, quotes, rfl, rfl⟩ := quotes_of_stringBody body on_line.2
          simpa using StandsFor.str quotes
      | word start text_eq =>
          have is_word := standsFor_word rest start
          rw [lexeme_of_isWordStart rest start] at is_word
          subst text_eq
          exact is_word
      | negative => exact standsFor_numberLexeme (.inr rfl) rest good
      | number digit => exact standsFor_numberLexeme (.inl rfl) (c :: rest) good
      | noName | unclosed body | other => exact absurd rfl good

end ShaderMachine
