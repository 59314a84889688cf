import ShaderMachine.Proofs.Lexing

/-! # Lexemes and what follows them

A lexeme is what stands at the front of a line. Whatever follows a token may be replaced by a blank,
a comment or the end of the line, with as much of the text in between kept as one likes: the token
stays what it is, since neither a blank nor a comment goes on any token.

* **`lexeme_front`** — what is cut off is what stands at the front.
* **`EndsTokens`** — what no token goes on with.
* **`lexeme_replace`** — a token does not depend on what follows it, as long as it ends there. -/

namespace ShaderMachine

/-! ## What stands at the front -/

/-- What stands at the front of the rest of a text stands behind its first part. -/
theorem append_front {text first rest more : List Char} (text_eq : first ++ rest = text)
    (front : more <+: rest) : first ++ more <+: text := by
  rw [← text_eq]
  exact (List.prefix_append_right_inj _).mpr front

/-- The sign of a power of ten, if it has one. -/
def exponentSign : List Char → List Char
  | '+' :: _ => ['+']
  | '-' :: _ => ['-']
  | _ => []

/-- The first character tells the sign of a power of ten. -/
theorem exponentSign_cons (c : Char) (rest : List Char) :
    exponentSign (c :: rest) = if c = '+' ∨ c = '-' then [c] else [] := by
  unfold exponentSign
  split <;> simp_all

/-- The sign of a power of ten is what stands at the front. -/
theorem exponentSign_front (text : List Char) : exponentSign text <+: text := by
  unfold exponentSign
  split <;> simp

/-- A power of ten is an `e`, perhaps a sign, and digits. -/
theorem exponentPart_cons (c : Char) (rest : List Char) :
    exponentPart (c :: rest) =
      if c = 'e' ∨ c = 'E' then
        let digits := (rest.drop (exponentSign rest).length).takeWhile Char.isDigit
        if digits.isEmpty then [] else c :: exponentSign rest ++ digits
      else
        [] :=
  rfl

/-- A power of ten is what stands at the front. -/
theorem exponentPart_front (text : List Char) : exponentPart text <+: text := by
  cases text with
  | nil => exact List.nil_prefix
  | cons c rest =>
      have rest_eq := List.prefix_iff_eq_append.mp (exponentSign_front rest)
      rw [exponentPart_cons]
      dsimp only
      split
      · split
        · exact List.nil_prefix
        · rw [List.cons_append, List.cons_prefix_cons]
          exact ⟨rfl, append_front rest_eq (List.takeWhile_prefix _)⟩
      · exact List.nil_prefix

/-- The number that starts with some digits, by what follows these. -/
def numberRest (sign digits : List Char) : List Char → Lexeme
  | '.' :: tail =>
      let written := sign ++ digits ++ '.' :: tail.takeWhile Char.isDigit ++
        exponentPart (tail.dropWhile Char.isDigit)
      ⟨written, .token (.float (String.ofList written))⟩
  | c :: tail =>
      let hexDigits := tail.takeWhile isHexDigit
      let exponent := exponentPart (c :: tail)
      if c = 'x' ∧ sign = [] ∧ digits = ['0'] ∧ hexDigits ≠ [] then
        ⟨'0' :: 'x' :: hexDigits, readHex hexDigits⟩
      else if exponent = [] then
        ⟨sign ++ digits, readInteger (sign ≠ []) digits⟩
      else
        let written := sign ++ digits ++ exponent
        ⟨written, .token (.float (String.ofList written))⟩
  | [] => ⟨sign ++ digits, readInteger (sign ≠ []) digits⟩

/-- Where a point follows the digits, more digits and a power of ten may follow the point. -/
theorem numberRest_point (sign digits tail : List Char) :
    numberRest sign digits ('.' :: tail) =
      let written := sign ++ digits ++ '.' :: tail.takeWhile Char.isDigit ++
        exponentPart (tail.dropWhile Char.isDigit)
      ⟨written, .token (.float (String.ofList written))⟩ :=
  rfl

/-- Where no point follows the digits, the number is hexadecimal, an integer, or has a power of ten.
-/
theorem numberRest_cons (sign digits tail : List Char) {c : Char} (no_point : c ≠ '.') :
    numberRest sign digits (c :: tail) =
      if c = 'x' ∧ sign = [] ∧ digits = ['0'] ∧ tail.takeWhile isHexDigit ≠ [] then
        ⟨'0' :: 'x' :: tail.takeWhile isHexDigit, readHex (tail.takeWhile isHexDigit)⟩
      else if exponentPart (c :: tail) = [] then
        ⟨sign ++ digits, readInteger (sign ≠ []) digits⟩
      else
        ⟨sign ++ digits ++ exponentPart (c :: tail),
          .token (.float (String.ofList (sign ++ digits ++ exponentPart (c :: tail))))⟩ := by
  rw [numberRest]
  exact no_point

/-- A number is its digits and what follows them. -/
theorem numberLexeme_eq (sign text : List Char) :
    numberLexeme sign text =
      if (text.takeWhile Char.isDigit).isEmpty then ⟨sign, .bad⟩
      else numberRest sign (text.takeWhile Char.isDigit) (text.dropWhile Char.isDigit) := by
  unfold numberLexeme
  dsimp only
  generalize text.dropWhile Char.isDigit = rest
  split
  · rfl
  · split
    · rfl
    · rename_i no_point
      rw [numberRest_cons _ _ _ no_point]
    · rfl

/-- How a number goes on behind its digits. -/
inductive EndsNumber : List Char → List Char → List Char → Lexeme → Prop
  /-- Nothing that goes on the number follows. -/
  | integer {sign digits rest : List Char} :
      EndsNumber sign digits rest ⟨sign ++ digits, readInteger (sign ≠ []) digits⟩
  /-- A point follows, perhaps with more digits and a power of ten. -/
  | point {sign digits tail written : List Char}
      (written_eq : written = sign ++ digits ++ '.' :: tail.takeWhile Char.isDigit ++
        exponentPart (tail.dropWhile Char.isDigit)) :
      EndsNumber sign digits ('.' :: tail) ⟨written, .token (.float (String.ofList written))⟩
  /-- A power of ten follows. -/
  | power {sign digits rest written : List Char} (some_power : exponentPart rest ≠ [])
      (written_eq : written = sign ++ digits ++ exponentPart rest) :
      EndsNumber sign digits rest ⟨written, .token (.float (String.ofList written))⟩
  /-- An `x` with hexadecimal digits follows a zero without a sign. -/
  | hex {tail : List Char} (some_digits : tail.takeWhile isHexDigit ≠ []) :
      EndsNumber [] ['0'] ('x' :: tail)
        ⟨'0' :: 'x' :: tail.takeWhile isHexDigit, readHex (tail.takeWhile isHexDigit)⟩

/-- Every number goes on in one of these ways. -/
theorem endsNumber_numberRest (sign digits rest : List Char) :
    EndsNumber sign digits rest (numberRest sign digits rest) := by
  cases rest with
  | nil => exact .integer
  | cons c tail =>
      by_cases point : c = '.'
      · subst point
        exact .point rfl
      · rw [numberRest_cons _ _ _ point]
        split
        · rename_i hex
          obtain ⟨rfl, rfl, rfl, some_digits⟩ := hex
          exact .hex some_digits
        · split
          · exact .integer
          · rename_i some_power
            exact .power some_power rfl

/-- What follows the digits of a number is what stands behind them. -/
theorem numberRest_front (sign digits rest : List Char) :
    (numberRest sign digits rest).text <+: sign ++ digits ++ rest := by
  have ends := endsNumber_numberRest sign digits rest
  generalize numberRest sign digits rest = found at ends ⊢
  cases ends with
  | integer => exact List.prefix_append _ _
  | @point _ _ tail _ written_eq =>
      have tail_eq := List.takeWhile_append_dropWhile (p := Char.isDigit) (l := tail)
      rw [written_eq, List.append_assoc (sign ++ digits), List.prefix_append_right_inj,
        List.cons_append, List.cons_prefix_cons]
      exact ⟨rfl, append_front tail_eq (exponentPart_front _)⟩
  | power some_power written_eq =>
      rw [written_eq]
      exact (List.prefix_append_right_inj _).mpr (exponentPart_front _)
  | hex some_digits =>
      exact (List.prefix_append_right_inj ['0', 'x']).mpr (List.takeWhile_prefix _)

/-- A number is at least its digits. -/
theorem prefix_numberRest (sign digits rest : List Char) :
    sign ++ digits <+: (numberRest sign digits rest).text := by
  have ends := endsNumber_numberRest sign digits rest
  generalize numberRest sign digits rest = found at ends ⊢
  cases ends with
  | integer => exact List.prefix_rfl
  | point written_eq =>
      rw [written_eq, List.append_assoc]
      exact List.prefix_append _ _
  | power some_power written_eq =>
      rw [written_eq]
      exact List.prefix_append _ _
  | hex some_digits => exact List.prefix_append ['0'] _

/-- A number is what stands at the front, with its sign. -/
theorem numberLexeme_front (sign text : List Char) :
    (numberLexeme sign text).text <+: sign ++ text := by
  have text_eq := List.takeWhile_append_dropWhile (p := Char.isDigit) (l := text)
  rw [numberLexeme_eq]
  split
  · exact List.prefix_append _ _
  · conv_rhs => rw [← text_eq, ← List.append_assoc]
    exact numberRest_front _ _ _

/-- A percent sign starts the name of an ID. -/
theorem lexeme_percent (rest : List Char) : lexeme '%' rest =
    if (rest.takeWhile isIdChar).isEmpty then ⟨['%'], .bad⟩
    else ⟨'%' :: rest.takeWhile isIdChar,
      .token (.id (String.ofList (rest.takeWhile isIdChar)))⟩ :=
  rfl

/-- A quote that is closed starts a string. -/
theorem lexeme_quote {rest written meant : List Char}
    (body : stringBody [] [] rest = (written, meant, true)) : lexeme '"' rest =
      ⟨'"' :: written.reverse ++ ['"'], .token (.str (String.ofList meant.reverse))⟩ := by
  rw [lexeme, body]
  rfl

/-- How the first stretch of a line is cut off. -/
inductive Cuts : Char → List Char → Lexeme → Prop
  /-- Separators are cut off as far as they go. -/
  | separators {c : Char} {rest : List Char} (separator : isSeparator c = true) :
      Cuts c rest ⟨c :: rest.takeWhile isSeparator, .blank⟩
  /-- A comment is all that is left. -/
  | comment {rest : List Char} : Cuts ';' rest ⟨';' :: rest, .blank⟩
  /-- An equals sign stands alone. -/
  | equals {rest : List Char} : Cuts '=' rest ⟨['='], .token .equals⟩
  /-- A percent sign without a name is bad. -/
  | noName {rest : List Char} : Cuts '%' rest ⟨['%'], .bad⟩
  /-- A percent sign with a name is an ID. -/
  | id {rest name : List Char} (name_eq : name = rest.takeWhile isIdChar) (some_name : name ≠ []) :
      Cuts '%' rest ⟨'%' :: name, .token (.id (String.ofList name))⟩
  /-- A quote goes on to the next one. -/
  | str {rest written meant : List Char} (body : stringBody [] [] rest = (written, meant, true)) :
      Cuts '"' rest ⟨'"' :: written.reverse ++ ['"'], .token (.str (String.ofList meant.reverse))⟩
  /-- A quote without another one is bad. -/
  | unclosed {rest written meant : List Char}
      (body : stringBody [] [] rest = (written, meant, false)) :
      Cuts '"' rest ⟨'"' :: written.reverse, .bad⟩
  /-- A word is a name with the names behind it that bars are in front of. -/
  | word {c : Char} {rest text : List Char} (start : isWordStart c = true)
      (text_eq : text =
        maskTail ((rest.takeWhile isWordChar).reverse ++ [c]) (rest.dropWhile isWordChar)) :
      Cuts c rest ⟨text, .token (.word (String.ofList text))⟩
  /-- A minus sign is that of a number. -/
  | negative {rest : List Char} : Cuts '-' rest (numberLexeme ['-'] rest)
  /-- A digit is that of a number. -/
  | number {c : Char} {rest : List Char} (digit : c.isDigit = true) :
      Cuts c rest (numberLexeme [] (c :: rest))
  /-- All other characters are bad. -/
  | other {c : Char} {rest : List Char} : Cuts c rest ⟨[c], .bad⟩

/-- Every stretch is cut off in one of these ways. -/
theorem cuts_lexeme (c : Char) (rest : List Char) : Cuts c rest (lexeme c rest) := by
  -- One way for each test of the first character, in the order of the tests.
  unfold lexeme
  dsimp only
  split
  · rename_i separator
    exact .separators separator
  split
  · rename_i comment
    rw [comment]
    exact .comment
  split
  · rename_i equals
    rw [equals]
    exact .equals
  split
  · rename_i percent
    rw [percent]
    split
    · exact .noName
    · rename_i some_name
      exact .id rfl fun empty => some_name (List.isEmpty_iff.mpr empty)
  split
  · rename_i quote
    rw [quote]
    split
    · rename_i body
      exact .str body
    · rename_i body
      exact .unclosed body
  split
  · rename_i start
    exact .word start rfl
  split
  · rename_i minus
    rw [minus]
    exact .negative
  split
  · rename_i digit
    exact .number digit
  · exact .other

/-- The names of a mask are what stands behind what was written. -/
theorem maskTail_front (written text : List Char) :
    maskTail written text <+: written.reverse ++ text := by
  fun_induction maskTail written text with
  | case1 written c rest start hyp =>
      simpa [List.takeWhile_append_dropWhile] using hyp
  | case2 written c rest other => exact List.prefix_append _ _
  | case3 written text other => exact List.prefix_append _ _

/-- The names of a mask go on what was written. -/
theorem prefix_maskTail (written text : List Char) :
    written.reverse <+: maskTail written text := by
  fun_induction maskTail written text with
  | case1 written c rest start hyp =>
      refine List.IsPrefix.trans ?_ hyp
      simp
  | case2 written c rest other => exact List.prefix_rfl
  | case3 written text other => exact List.prefix_rfl

/-- A string is what stands behind what was written, up to its closing quote if it has one. -/
theorem stringBody_front {written meant text written' meant' : List Char} {closed : Bool}
    (body : stringBody written meant text = (written', meant', closed)) :
    written'.reverse ++ (if closed then ['"'] else []) <+: written.reverse ++ text ∧
      written.length ≤ written'.length := by
  -- Each step moves one or two characters from the text to what is written, latest first.
  fun_induction stringBody written meant text with
  | case1 written meant rest =>
      cases body
      exact ⟨(List.prefix_append_right_inj _).mpr (by simp), Nat.le_refl _⟩
  | case2 written meant =>
      cases body
      exact ⟨by simp, Nat.le_refl _⟩
  | case3 written meant escaped rest hyp =>
      obtain ⟨front, longer⟩ := hyp body
      refine ⟨by simpa using front, ?_⟩
      rw [List.length_cons, List.length_cons] at longer
      omega
  | case4 written meant plain rest _ _ _ hyp =>
      obtain ⟨front, longer⟩ := hyp body
      refine ⟨by simpa using front, ?_⟩
      rw [List.length_cons] at longer
      omega
  | case5 written meant =>
      cases body
      exact ⟨by simp, Nat.le_refl _⟩

/-- What is cut off a line is what stands at its front. -/
theorem lexeme_front (c : Char) (rest : List Char) : (lexeme c rest).text <+: c :: rest := by
  have cuts := cuts_lexeme c rest
  generalize lexeme c rest = found at cuts ⊢
  cases cuts with
  | separators separator => exact (List.prefix_cons_inj c).mpr (List.takeWhile_prefix _)
  | comment => exact List.prefix_rfl
  | equals | noName | other => exact List.prefix_append [_] rest
  | id name_eq some_name =>
      rw [name_eq]
      exact (List.prefix_cons_inj '%').mpr (List.takeWhile_prefix _)
  | str body | unclosed body => simpa using (stringBody_front body).1
  | word start text_eq =>
      have front := maskTail_front ((rest.takeWhile isWordChar).reverse ++ [c])
        (rest.dropWhile isWordChar)
      rw [← text_eq] at front
      simpa [List.takeWhile_append_dropWhile] using front
  | negative => exact numberLexeme_front ['-'] rest
  | number digit => exact numberLexeme_front [] (c :: rest)

/-- A number that is one has some characters. -/
theorem numberLexeme_ne_nil {sign text : List Char} {token : Token}
    (reads : (numberLexeme sign text).reading = .token token) :
    (numberLexeme sign text).text ≠ [] := by
  rw [numberLexeme_eq] at reads ⊢
  split at reads
  · cases reads
  · rename_i some_digits
    rw [if_neg some_digits]
    intro empty
    have whole := prefix_numberRest sign (text.takeWhile Char.isDigit)
      (text.dropWhile Char.isDigit)
    rw [empty, List.prefix_nil, List.append_eq_nil_iff] at whole
    exact some_digits (List.isEmpty_iff.mpr whole.2)

/-- A token has some characters. -/
theorem lexeme_ne_nil {c : Char} {rest : List Char} {token : Token}
    (reads : (lexeme c rest).reading = .token token) : (lexeme c rest).text ≠ [] := by
  have cuts := cuts_lexeme c rest
  generalize lexeme c rest = found at cuts reads ⊢
  cases cuts with
  | word start text_eq =>
      have front := prefix_maskTail ((rest.takeWhile isWordChar).reverse ++ [c])
        (rest.dropWhile isWordChar)
      rw [← text_eq] at front
      rintro rfl
      simp at front
  | negative => exact numberLexeme_ne_nil reads
  | number digit => exact numberLexeme_ne_nil reads
  | _ => exact List.cons_ne_nil _ _

/-- Whether a reading is that of a number, good or bad. -/
def Reading.IsNumeral : Reading → Prop
  | .token (.integer _) | .token (.hex _) | .token (.float _) | .bad => True
  | _ => False

/-- A numeral is not blank. -/
theorem Reading.IsNumeral.ne_blank {reading : Reading} (numeral : reading.IsNumeral) :
    reading ≠ .blank := by
  rintro rfl
  exact numeral

/-- A numeral is no string. -/
theorem Reading.IsNumeral.ne_str {reading : Reading} {string : String}
    (numeral : reading.IsNumeral) : reading ≠ .token (.str string) := by
  rintro rfl
  exact numeral

/-- An integer is a numeral. -/
theorem isNumeral_readInteger (negative : Bool) (digits : List Char) :
    (readInteger negative digits).IsNumeral := by
  unfold readInteger
  extract_lets magnitude value
  split <;> trivial

/-- Raw bits are a numeral. -/
theorem isNumeral_readHex (digits : List Char) : (readHex digits).IsNumeral := by
  unfold readHex
  extract_lets value
  split <;> trivial

/-- A number is read as a numeral. -/
theorem isNumeral_numberLexeme (sign text : List Char) :
    (numberLexeme sign text).reading.IsNumeral := by
  rw [numberLexeme_eq]
  split
  · trivial
  · generalize text.takeWhile Char.isDigit = digits, text.dropWhile Char.isDigit = rest
    have ends := endsNumber_numberRest sign digits rest
    generalize numberRest sign digits rest = found at ends ⊢
    cases ends with
    | integer => exact isNumeral_readInteger _ _
    | point written_eq | power some_power written_eq => trivial
    | hex some_digits => exact isNumeral_readHex _

/-- Only separators and comments are blank. -/
theorem lexeme_ne_blank {c : Char} (rest : List Char) (no_separator : isSeparator c = false)
    (no_comment : c ≠ ';') : (lexeme c rest).reading ≠ .blank := by
  have cuts := cuts_lexeme c rest
  generalize lexeme c rest = found at cuts ⊢
  cases cuts with
  | separators separator => cases no_separator.symm.trans separator
  | comment => exact absurd rfl no_comment
  | negative | number digit => exact (isNumeral_numberLexeme _ _).ne_blank
  | _ => simp

/-! ## What follows -/

/-- Whether a text is over or goes on with what no token goes on with. -/
def EndsTokens (rest : List Char) : Prop :=
  ∀ c ∈ rest.head?, isSeparator c = true ∨ c = ';'

/-- A class of characters stops where tokens end, if none of the characters there is in it. -/
theorem EndsTokens.stops {rest : List Char} (ends : EndsTokens rest) (inside : Char → Bool)
    (outside : [' ', '\t', '\r', ';'].any inside = false) : Stops inside rest := by
  intro c mem
  refine Bool.eq_false_of_not_eq_true (List.any_eq_false.mp outside c ?_)
  rcases ends c mem with separator | rfl
  · simpa [isSeparator, or_assoc] using Or.inl separator
  · simp

/-- A text is as long as a run of characters at its front and what is behind it. -/
theorem length_run (inside : Char → Bool) (text : List Char) :
    (text.takeWhile inside).length + (text.dropWhile inside).length = text.length := by
  rw [← List.length_append, List.takeWhile_append_dropWhile]

/-- Whether a run of characters ends within the first part of a text. -/
structure RunEnds (inside : Char → Bool) (front back : List Char) : Prop where
  /-- The run. -/
  takeWhile_eq : (front ++ back).takeWhile inside = front.takeWhile inside
  /-- What is behind it. -/
  dropWhile_eq : (front ++ back).dropWhile inside = front.dropWhile inside ++ back

section

variable {inside : Char → Bool} {front back back' : List Char}

/-- A run that is no longer than the first part of a text ends within it. -/
theorem runEnds_of_le (within : ((front ++ back).takeWhile inside).length ≤ front.length) :
    RunEnds inside front back := by
  -- The run is no longer than the front, so along the front either a character ends it, or all are
  -- inside and the text behind has to end it at once.
  induction front with
  | nil =>
      have none_taken : back.takeWhile inside = [] :=
        List.eq_nil_of_length_eq_zero (Nat.eq_zero_of_le_zero within)
      have back_eq := List.takeWhile_append_dropWhile (p := inside) (l := back)
      rw [none_taken, List.nil_append] at back_eq
      exact ⟨none_taken, back_eq⟩
  | cons c front hyp =>
      by_cases is_inside : inside c = true
      · rw [List.cons_append, List.takeWhile_cons_of_pos is_inside] at within
        obtain ⟨taken, left⟩ := hyp (Nat.le_of_succ_le_succ within)
        constructor
        · rw [List.cons_append, List.takeWhile_cons_of_pos is_inside, taken,
            List.takeWhile_cons_of_pos is_inside]
        · rw [List.cons_append, List.dropWhile_cons_of_pos is_inside, left,
            List.dropWhile_cons_of_pos is_inside]
      · constructor
        · rw [List.cons_append, List.takeWhile_cons_of_neg is_inside,
            List.takeWhile_cons_of_neg is_inside]
        · rw [List.cons_append, List.dropWhile_cons_of_neg is_inside,
            List.dropWhile_cons_of_neg is_inside, List.cons_append]

/-- A run ends where the rest of a text stops it, if not before. -/
theorem Stops.runEnds (stops : Stops inside back) (front : List Char) :
    RunEnds inside front back := by
  refine runEnds_of_le ?_
  rw [List.takeWhile_append]
  split
  · rw [stops.takeWhile_eq_nil, List.append_nil]
  · exact (List.takeWhile_prefix inside).length_le

/-- A run that is no longer than the first part of a text is the same where another rest stops it.
-/
theorem takeWhile_replace (within : ((front ++ back).takeWhile inside).length ≤ front.length)
    (stops : Stops inside back') :
    (front ++ back').takeWhile inside = (front ++ back).takeWhile inside :=
  (stops.runEnds front).takeWhile_eq.trans (runEnds_of_le within).takeWhile_eq.symm

/-- A power of ten that is no longer than the first part of a text is the same where tokens end
behind that part. -/
theorem exponentPart_replace (within : (exponentPart (front ++ back)).length ≤ front.length)
    (ends : EndsTokens back') : exponentPart (front ++ back') = exponentPart (front ++ back) := by
  have no_digit : Stops Char.isDigit back' := ends.stops _ (by decide)
  cases front with
  | nil =>
      have none_here : exponentPart back = [] :=
        List.eq_nil_of_length_eq_zero (Nat.eq_zero_of_le_zero within)
      rw [List.nil_append, List.nil_append, none_here]
      cases back' with
      | nil => rfl
      | cons c rest =>
          have other := (stops_cons _ _ _).mp
            (ends.stops (fun c => c == 'e' || c == 'E') (by decide))
          rw [exponentPart_cons, if_neg (by simpa using other)]
  | cons c front =>
      rw [List.cons_append, exponentPart_cons] at within
      rw [List.cons_append, List.cons_append, exponentPart_cons, exponentPart_cons]
      split
      · rename_i is_exponent
        rw [if_pos is_exponent] at within
        dsimp only at within ⊢
        cases front with
        | nil =>
            -- Behind the first part there is no power of ten, or else it would be longer.
            have no_sign : exponentSign back' = [] := by
              cases back' with
              | nil => rfl
              | cons c rest =>
                  have other := (stops_cons _ _ _).mp
                    (ends.stops (fun c => c == '+' || c == '-') (by decide))
                  rw [exponentSign_cons, if_neg (by simpa using other)]
            rw [List.nil_append] at within ⊢
            rw [List.nil_append, no_sign, List.length_nil, List.drop_zero,
              no_digit.takeWhile_eq_nil, List.isEmpty_nil, if_pos rfl]
            split at within
            · rename_i no_digits
              rw [if_pos no_digits]
            · rename_i some_digits
              rw [List.isEmpty_iff_length_eq_zero] at some_digits
              simp only [List.length_append, List.length_cons, List.length_nil] at within
              omega
        | cons s front =>
            have same_sign (behind : List Char) :
                exponentSign (s :: front ++ behind) = exponentSign (s :: front) := by
              rw [List.cons_append, exponentSign_cons, exponentSign_cons]
            have sign_le := (exponentSign_front (s :: front)).length_le
            rw [same_sign, List.drop_append_of_le_length sign_le] at within ⊢
            rw [same_sign, List.drop_append_of_le_length sign_le, takeWhile_replace ?_ no_digit]
            split at within
            · rename_i no_digits
              rw [List.isEmpty_iff] at no_digits
              rw [no_digits]
              exact Nat.zero_le _
            · simp only [List.length_append, List.length_cons, List.length_drop] at within ⊢
              omega
      · rfl

/-- A number that is no longer than its digits is an integer. -/
theorem numberRest_of_le {sign digits rest : List Char}
    (within : (numberRest sign digits rest).text.length ≤ (sign ++ digits).length) :
    numberRest sign digits rest = ⟨sign ++ digits, readInteger (sign ≠ []) digits⟩ := by
  cases rest with
  | nil => rfl
  | cons c tail =>
      -- Each of the other ways to go on adds characters, for which there is no room.
      by_cases point : c = '.'
      · subst point
        simp [numberRest] at within
      · rw [numberRest_cons _ _ _ point] at within ⊢
        split at within
        · rename_i hex
          obtain ⟨-, rfl, rfl, -⟩ := hex
          simp at within
        · rename_i no_hex
          rw [if_neg no_hex]
          split at within
          · rename_i no_exponent
            rw [if_pos no_exponent]
          · rename_i some_exponent
            have positive := List.length_pos_iff.mpr some_exponent
            have longer : (sign ++ digits).length + (exponentPart (c :: tail)).length ≤
                (sign ++ digits).length := List.length_append ▸ within
            omega

/-- The fraction of a number is the same where tokens end behind a part of the text that is as long.
-/
theorem numberRest_point_replace {sign digits : List Char}
    (within : (numberRest sign digits ('.' :: (front ++ back))).text.length ≤
      (sign ++ digits).length + (front.length + 1))
    (ends : EndsTokens back') : numberRest sign digits ('.' :: (front ++ back')) =
      numberRest sign digits ('.' :: (front ++ back)) := by
  rw [numberRest_point] at within
  rw [numberRest_point, numberRest_point]
  simp only [List.length_append, List.length_cons] at within
  have fraction : RunEnds Char.isDigit front back := runEnds_of_le (by omega)
  have fraction' := (ends.stops Char.isDigit (by decide)).runEnds front
  have split_front := length_run Char.isDigit front
  rw [fraction.takeWhile_eq, fraction.dropWhile_eq] at within ⊢
  have exponent_eq : exponentPart (front.dropWhile Char.isDigit ++ back') =
      exponentPart (front.dropWhile Char.isDigit ++ back) :=
    exponentPart_replace (by omega) ends
  rw [fraction'.takeWhile_eq, fraction'.dropWhile_eq, exponent_eq]

/-- The digits of a hexadecimal number are the same where tokens end behind a part of the text that
is as long. -/
theorem numberRest_hex_replace
    (within : (numberRest [] ['0'] ('x' :: (front ++ back))).text.length ≤ front.length + 2)
    (ends : EndsTokens back') : numberRest [] ['0'] ('x' :: (front ++ back')) =
      numberRest [] ['0'] ('x' :: (front ++ back)) := by
  have no_point : 'x' ≠ '.' := by decide
  have no_exponent (rest : List Char) : exponentPart ('x' :: rest) = [] := rfl
  rw [numberRest_cons _ _ _ no_point] at within
  rw [numberRest_cons _ _ _ no_point, numberRest_cons _ _ _ no_point]
  have hex_within : ((front ++ back).takeWhile isHexDigit).length ≤ front.length := by
    split at within
    · simp only [List.length_cons] at within
      omega
    · rename_i no_hex
      simp only [ne_eq, true_and, not_not] at no_hex
      rw [no_hex]
      exact Nat.zero_le _
  rw [takeWhile_replace hex_within (ends.stops _ (by decide)), no_exponent, no_exponent]

/-- What follows the digits of a number is the same where tokens end behind a part of the text that
is as long. -/
theorem numberRest_replace {sign digits : List Char}
    (within : (numberRest sign digits (front ++ back)).text.length ≤
      (sign ++ digits).length + front.length)
    (ends : EndsTokens back') :
    numberRest sign digits (front ++ back') = numberRest sign digits (front ++ back) := by
  cases front with
  | nil =>
      -- The number ends with its digits. What follows instead is neither a point nor an `x`, and
      -- starts no power of ten.
      have replaced : exponentPart ([] ++ back') = exponentPart ([] ++ []) :=
        exponentPart_replace (Nat.le_refl _) ends
      have no_exponent : exponentPart back' = [] := replaced
      rw [numberRest_of_le within, List.nil_append]
      cases back' with
      | nil => rfl
      | cons c tail =>
          have other := (stops_cons _ _ _).mp
            (ends.stops (fun c => c == '.' || c == 'x') (by decide))
          simp only [Bool.or_eq_false_iff, beq_eq_false_iff_ne] at other
          rw [numberRest_cons _ _ _ other.1, if_neg fun hex => other.2 hex.1, if_pos no_exponent]
  | cons c tail =>
      -- The first character behind the digits is kept, and with it the way in which the number goes
      -- on.
      by_cases point : c = '.'
      · subst point
        exact numberRest_point_replace within ends
      by_cases hex : c = 'x' ∧ sign = [] ∧ digits = ['0']
      · obtain ⟨rfl, rfl, rfl⟩ := hex
        refine numberRest_hex_replace (within.trans ?_) ends
        rw [List.length_cons, List.nil_append, List.length_singleton]
        omega
      · have not_hex (rest : List Char) : ¬ (c = 'x' ∧ sign = [] ∧ digits = ['0'] ∧
            rest.takeWhile isHexDigit ≠ []) :=
          fun both => hex ⟨both.1, both.2.1, both.2.2.1⟩
        rw [List.cons_append, numberRest_cons _ _ _ point, if_neg (not_hex _)] at within
        rw [List.cons_append, List.cons_append, numberRest_cons _ _ _ point,
          numberRest_cons _ _ _ point, if_neg (not_hex _), if_neg (not_hex _)]
        -- The power of ten ends within the front, whether there is one or not.
        have exponent_within : (exponentPart (c :: tail ++ back)).length ≤ (c :: tail).length := by
          split at within
          · rename_i no_exponent
            rw [List.cons_append, no_exponent]
            exact Nat.zero_le _
          · rw [List.length_append] at within
            exact Nat.le_of_add_le_add_left within
        have exponent_eq := exponentPart_replace exponent_within ends
        rw [List.cons_append, List.cons_append] at exponent_eq
        rw [exponent_eq]

/-- A number is the same where tokens end behind a part of the text that is as long. -/
theorem numberLexeme_replace {sign : List Char}
    (within : (numberLexeme sign (front ++ back)).text.length ≤ sign.length + front.length)
    (ends : EndsTokens back') :
    numberLexeme sign (front ++ back') = numberLexeme sign (front ++ back) := by
  rw [numberLexeme_eq] at within
  rw [numberLexeme_eq, numberLexeme_eq]
  -- The digits end within the front, so they are the same with either text behind.
  have digits_within : ((front ++ back).takeWhile Char.isDigit).length ≤ front.length := by
    split at within
    · rename_i no_digits
      rw [List.isEmpty_iff] at no_digits
      rw [no_digits]
      exact Nat.zero_le _
    · have digits_le := (prefix_numberRest sign ((front ++ back).takeWhile Char.isDigit)
        ((front ++ back).dropWhile Char.isDigit)).length_le
      rw [List.length_append] at digits_le
      omega
  have digits := runEnds_of_le digits_within
  have digits' := (ends.stops Char.isDigit (by decide)).runEnds front
  rw [digits.takeWhile_eq, digits.dropWhile_eq] at within ⊢
  rw [digits'.takeWhile_eq, digits'.dropWhile_eq]
  split
  · rfl
  · rename_i some_digits
    rw [if_neg some_digits] at within
    have split_front := length_run Char.isDigit front
    -- What is left of the front has room for the rest of the number.
    refine numberRest_replace ?_ ends
    rw [List.length_append]
    omega

/-- A mask ends where no bar with a name behind it follows. -/
theorem maskTail_of_no_name {written text : List Char}
    (no_name : ∀ c rest, text = '|' :: c :: rest → isWordStart c = false) :
    maskTail written text = written.reverse := by
  unfold maskTail
  split
  · rename_i c rest
    rw [if_neg (by simp [no_name c rest rfl])]
  · rfl

/-- A mask goes on with a name behind a bar. -/
theorem maskTail_name (written rest : List Char) {c : Char} (start : isWordStart c = true) :
    maskTail written ('|' :: c :: rest) =
      maskTail ((rest.takeWhile isWordChar).reverse ++ c :: '|' :: written)
        (rest.dropWhile isWordChar) := by
  rw [maskTail, if_pos start]

/-- A mask that ends within a part of a text ends there where that part has no bar with a name
behind it. -/
theorem maskTail_of_le {written : List Char}
    (within : (maskTail written (front ++ back)).length ≤ written.length + front.length)
    (no_name : ∀ c tail, front = '|' :: c :: tail → isWordStart c ≠ true) :
    maskTail written (front ++ back) = written.reverse := by
  refine maskTail_of_no_name fun c rest text_eq => ?_
  by_contra other
  have start := Bool.eq_true_of_not_eq_false other
  rw [text_eq, maskTail_name _ _ start] at within
  have name_le := (prefix_maskTail ((rest.takeWhile isWordChar).reverse ++ c :: '|' :: written)
    (rest.dropWhile isWordChar)).length_le
  simp only [List.length_reverse, List.length_append, List.length_cons] at name_le
  -- The name is within the part that is kept.
  match front with
  | [] =>
      rw [List.length_nil] at within
      omega
  | [_] =>
      rw [List.length_singleton] at within
      omega
  | first :: second :: tail =>
      obtain ⟨rfl, rest_eq⟩ := List.cons.inj text_eq
      obtain ⟨rfl, -⟩ := List.cons.inj rest_eq
      exact no_name second tail rfl start

/-- A mask ends where tokens end, behind a part of a text that has no bar with a name behind it. -/
theorem maskTail_of_ends {written : List Char} (ends : EndsTokens back')
    (no_name : ∀ c tail, front = '|' :: c :: tail → isWordStart c ≠ true) :
    maskTail written (front ++ back') = written.reverse := by
  have no_bar : Stops (· == '|') back' := ends.stops _ (by decide)
  have no_start : Stops isWordStart back' := ends.stops _ (by decide)
  refine maskTail_of_no_name fun c rest text_eq => ?_
  match front with
  | [] =>
      rw [List.nil_append] at text_eq
      simp [text_eq] at no_bar
  | [_] =>
      obtain ⟨rfl, rest_eq⟩ := List.cons.inj text_eq
      change back' = c :: rest at rest_eq
      simpa [rest_eq] using no_start
  | first :: second :: tail =>
      obtain ⟨rfl, rest_eq⟩ := List.cons.inj text_eq
      obtain ⟨rfl, -⟩ := List.cons.inj rest_eq
      simpa using no_name second tail rfl

/-- The names of a mask are the same where tokens end behind a part of the text that is as long. -/
theorem maskTail_replace {written : List Char}
    (within : (maskTail written (front ++ back)).length ≤ written.length + front.length)
    (ends : EndsTokens back') :
    maskTail written (front ++ back') = maskTail written (front ++ back) := by
  -- The induction is on the length of the front, which gets shorter by a bar and a name.
  induction h : front.length using Nat.strong_induction_on generalizing front written with
  | _ length hyp =>
      subst h
      by_cases named : ∃ c tail, front = '|' :: c :: tail ∧ isWordStart c = true
      · obtain ⟨c, tail, rfl, start⟩ := named
        simp only [List.cons_append] at within ⊢
        rw [maskTail_name _ _ start] at within ⊢
        rw [maskTail_name _ _ start]
        -- The name ends within the front, so it is the same with either text behind.
        have name_le := (prefix_maskTail (((tail ++ back).takeWhile isWordChar).reverse ++
          c :: '|' :: written) ((tail ++ back).dropWhile isWordChar)).length_le
        simp only [List.length_reverse, List.length_append, List.length_cons] at name_le within
        have name : RunEnds isWordChar tail back := runEnds_of_le (by omega)
        have name' := (ends.stops isWordChar (by decide)).runEnds tail
        have split_tail := length_run isWordChar tail
        rw [name.takeWhile_eq, name.dropWhile_eq] at within ⊢
        rw [name'.takeWhile_eq, name'.dropWhile_eq]
        refine hyp _ ?_ ?_ rfl
        · simp only [List.length_cons]
          omega
        · simp only [List.length_reverse, List.length_append, List.length_cons]
          omega
      · push Not at named
        -- No further name starts within the front, and none starts behind it.
        rw [maskTail_of_le within named, maskTail_of_ends ends named]

/-- A string goes on with what is neither a quote nor a backslash. -/
theorem stringBody_plain (written meant rest : List Char) {c : Char} (no_quote : c ≠ '"')
    (no_escape : c ≠ '\\') :
    stringBody written meant (c :: rest) = stringBody (c :: written) (c :: meant) rest := by
  rw [stringBody]
  · exact no_quote
  · exact fun is _ => no_escape is
  · exact fun _ _ is _ => no_escape is

/-- A string is the same wherever it is closed within the part of the text that is kept. -/
theorem stringBody_replace {written meant written' meant' : List Char}
    (closed : stringBody written meant (front ++ back) = (written', meant', true))
    (within : written'.length + 1 ≤ written.length + front.length) :
    stringBody written meant (front ++ back') = (written', meant', true) := by
  generalize text_eq : front ++ back = text at closed
  fun_induction stringBody written meant text generalizing front with
  | case1 written meant rest =>
      cases front with
      | nil =>
          cases closed
          simp at within
      | cons c more =>
          -- The closing quote stands in the front.
          obtain ⟨rfl, -⟩ := List.cons.inj text_eq
          exact closed
  | case2 written meant => cases closed
  | case3 written meant escaped rest hyp =>
      have longer := (stringBody_front closed).2
      rw [List.length_cons, List.length_cons] at longer
      -- An escaped character that is cut in two would leave the quote outside of the front.
      match front with
      | [] =>
          rw [List.length_nil] at within
          omega
      | [_] =>
          rw [List.length_singleton] at within
          omega
      | first :: second :: more =>
          obtain ⟨rfl, rest_eq⟩ := List.cons.inj text_eq
          obtain ⟨rfl, more_eq⟩ := List.cons.inj rest_eq
          rw [List.cons_append, List.cons_append, stringBody]
          refine hyp ?_ more_eq closed
          simp only [List.length_cons] at within ⊢
          omega
  | case4 written meant plain rest no_quote no_last no_escape hyp =>
      have longer := (stringBody_front closed).2
      rw [List.length_cons] at longer
      cases front with
      | nil =>
          rw [List.length_nil] at within
          omega
      | cons first more =>
          obtain ⟨rfl, more_eq⟩ := List.cons.inj text_eq
          -- The character is no backslash, with whatever text behind it.
          have not_escape : first ≠ '\\' := by
            rintro rfl
            cases rest with
            | nil => exact no_last rfl rfl
            | cons c rest => exact no_escape c rest rfl rfl
          rw [List.cons_append, stringBody_plain _ _ _ no_quote not_escape]
          refine hyp ?_ more_eq closed
          simp only [List.length_cons] at within ⊢
          omega
  | case5 written meant => cases closed

/-- The names of a mask that a word starts are the same where tokens end behind a part of the text
that is as long. -/
theorem wordMask_replace {c : Char}
    (within : (maskTail (((front ++ back).takeWhile isWordChar).reverse ++ [c])
      ((front ++ back).dropWhile isWordChar)).length ≤ front.length + 1)
    (ends : EndsTokens back') :
    maskTail (((front ++ back').takeWhile isWordChar).reverse ++ [c])
        ((front ++ back').dropWhile isWordChar) =
      maskTail (((front ++ back).takeWhile isWordChar).reverse ++ [c])
        ((front ++ back).dropWhile isWordChar) := by
  have name_le := (prefix_maskTail (((front ++ back).takeWhile isWordChar).reverse ++ [c])
    ((front ++ back).dropWhile isWordChar)).length_le
  simp only [List.length_reverse, List.length_append, List.length_singleton] at name_le
  have name : RunEnds isWordChar front back := runEnds_of_le (by omega)
  have name' := (ends.stops isWordChar (by decide)).runEnds front
  have split_front := length_run isWordChar front
  rw [name.takeWhile_eq, name.dropWhile_eq] at within ⊢
  rw [name'.takeWhile_eq, name'.dropWhile_eq]
  refine maskTail_replace ?_ ends
  rw [List.length_append, List.length_reverse, List.length_singleton]
  omega

end

/-- A token does not depend on what follows it, as long as it ends there. -/
theorem lexeme_replace {c : Char} {front back back' : List Char} {token : Token}
    (reads : (lexeme c (front ++ back)).reading = .token token)
    (within : (lexeme c (front ++ back)).text.length ≤ (c :: front).length)
    (ends : EndsTokens back') : lexeme c (front ++ back') = lexeme c (front ++ back) := by
  have cuts := cuts_lexeme c (front ++ back)
  rw [List.length_cons] at within
  generalize lexeme c (front ++ back) = found at cuts reads within ⊢
  -- The first character is kept, and with it the way in which the stretch is cut off; in each way
  -- it ends within the front.
  cases cuts with
  | separators separator => cases reads
  | comment => cases reads
  | equals => rfl
  | noName => cases reads
  | id name_eq some_name =>
      subst name_eq
      rw [lexeme_percent, takeWhile_replace (Nat.le_of_succ_le_succ within)
        (ends.stops _ (by decide)), if_neg fun empty => some_name (List.isEmpty_iff.mp empty)]
  | str body =>
      simp only [List.length_cons, List.length_append, List.length_reverse, List.length_nil]
        at within
      exact lexeme_quote (stringBody_replace body (by rw [List.length_nil]; omega))
  | unclosed body => cases reads
  | word start text_eq =>
      subst text_eq
      rw [lexeme_of_isWordStart _ start, wordMask_replace within ends]
  | negative => exact numberLexeme_replace (by rw [List.length_singleton]; omega) ends
  | number digit =>
      rw [lexeme_of_isDigit _ digit]
      have inside : (numberLexeme [] ((c :: front) ++ back)).text.length ≤
          ([] : List Char).length + (c :: front).length := by simpa using within
      exact numberLexeme_replace inside ends
  | other => cases reads

end ShaderMachine
