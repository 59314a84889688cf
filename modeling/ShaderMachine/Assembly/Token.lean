import ShaderMachine.Text.Quoted

/-! # Tokens of assembly text

Assembly text is read line by line; no token spans a line. Each token is the longest one that
starts where it starts. Blanks and comments separate tokens and yield none.

**`Token`** lists the kinds; **`lexeme`** is the text of the first token of a line and what it
stands for; **`scanLine`** cuts a line into tokens with their places, in bytes; **`scanSource`**
does so for a whole text. -/

namespace ShaderMachine

/-- A token of assembly text. -/
inductive Token where
  /-- An ID, without its percent sign. -/
  | id (name : String)
  /-- An opcode, an enumerant or the name of an extended instruction. -/
  | word (text : String)
  /-- A decimal integer. -/
  | integer (value : Int64)
  /-- A hexadecimal integer, as raw bits. -/
  | hex (value : UInt64)
  /-- A decimal float as it is written, since each width reads it anew. -/
  | float (text : String)
  /-- A quoted string, without its quotes and escapes. -/
  | str (text : String)
  /-- The sign between a result and its instruction. -/
  | equals
  deriving DecidableEq

namespace Token

/-- How a token reads in a message. -/
def describe : Token → String
  | id name => "Id(" ++ Text.quoteVisible name ++ ")"
  | word text => "Word(" ++ Text.quoteVisible text ++ ")"
  | integer value => "Integer(" ++ toString value.toInt ++ ")"
  | hex value => "Hex(" ++ toString value.toNat ++ ")"
  | float text => "Float(" ++ Text.quoteVisible text ++ ")"
  | str text => "Str(" ++ Text.quoteVisible text ++ ")"
  | equals => "Equals"

end Token

/-- What a stretch of a line stands for. -/
inductive Reading where
  /-- Blanks or a comment. -/
  | blank
  /-- A token. -/
  | token (token : Token)
  /-- Nothing that assembly text may hold. -/
  | bad
  deriving DecidableEq

/-- A stretch of a line with what it stands for. -/
structure Lexeme where
  /-- Its characters. -/
  text : List Char
  /-- What it stands for. -/
  reading : Reading
  deriving DecidableEq

/-! ## Character classes -/

/-- Whether a character separates tokens. -/
def isSeparator (c : Char) : Bool :=
  c == ' ' || c == '\t' || c == '\r'

/-- Whether a character may stand in the name of an ID. -/
def isIdChar (c : Char) : Bool :=
  c.isAlphanum || c == '_' || c == '.'

/-- Whether a character may start a word. -/
def isWordStart (c : Char) : Bool :=
  c.isAlpha || c == '_'

/-- Whether a character may go on a word. -/
def isWordChar (c : Char) : Bool :=
  c.isAlphanum || c == '_'

/-- Whether a character is a hexadecimal digit. -/
def isHexDigit (c : Char) : Bool :=
  c.isDigit || ('a' ≤ c && c ≤ 'f') || ('A' ≤ c && c ≤ 'F')

/-! ## Numbers -/

/-- The value of a hexadecimal digit. -/
def hexDigitValue (c : Char) : Nat :=
  if c.isDigit then c.toNat - '0'.toNat else c.toLower.toNat - 'a'.toNat + 10

/-- The value of a sequence of digits in a base. -/
def valueInBase (base : Nat) (digits : List Char) : Nat :=
  digits.foldl (fun value c => base * value + hexDigitValue c) 0

/-- A decimal integer, if it has 64 bits with its sign. -/
def readInteger (negative : Bool) (digits : List Char) : Reading :=
  let magnitude : Int := valueInBase 10 digits
  let value := if negative then -magnitude else magnitude
  if -9223372036854775808 ≤ value ∧ value ≤ 9223372036854775807 then
    .token (.integer (Int64.ofInt value))
  else
    .bad

/-- A hexadecimal integer, if it has 64 bits. -/
def readHex (digits : List Char) : Reading :=
  let value := valueInBase 16 digits
  if value < 18446744073709551616 then .token (.hex (UInt64.ofNat value)) else .bad

/-- The longest power of ten at the front of a text, empty if there is none. -/
def exponentPart : List Char → List Char
  | c :: rest =>
      if c = 'e' ∨ c = 'E' then
        let sign := match rest with
          | '+' :: _ => ['+']
          | '-' :: _ => ['-']
          | _ => []
        let digits := (rest.drop sign.length).takeWhile Char.isDigit
        if digits.isEmpty then [] else c :: sign ++ digits
      else
        []
  | [] => []

/-- The longest number at the front of a text, with its sign; without digits the sign is bad. -/
def numberLexeme (sign text : List Char) : Lexeme :=
  let digits := text.takeWhile Char.isDigit
  let rest := text.dropWhile Char.isDigit
  if digits.isEmpty then
    ⟨sign, .bad⟩
  else
    match rest with
    | '.' :: tail =>
        let written := sign ++ digits ++ '.' :: tail.takeWhile Char.isDigit ++
          exponentPart (tail.dropWhile Char.isDigit)
        ⟨written, .token (.float (String.ofList written))⟩
    | c :: tail =>
        let hexDigits := tail.takeWhile isHexDigit
        let exponent := exponentPart rest
        if c = 'x' ∧ sign = [] ∧ digits = ['0'] ∧ hexDigits ≠ [] then
          ⟨'0' :: 'x' :: hexDigits, readHex hexDigits⟩
        else if exponent = [] then
          ⟨sign ++ digits, readInteger (sign ≠ []) digits⟩
        else
          let written := sign ++ digits ++ exponent
          ⟨written, .token (.float (String.ofList written))⟩
    | [] => ⟨sign ++ digits, readInteger (sign ≠ []) digits⟩

/-! ## Words and strings -/

/-- The further names of a mask, each after a bar, that follow its first name; `written` holds
the characters before them, latest first. -/
def maskTail (written : List Char) : List Char → List Char
  | '|' :: c :: rest =>
      if isWordStart c then
        maskTail ((rest.takeWhile isWordChar).reverse ++ c :: '|' :: written)
          (rest.dropWhile isWordChar)
      else
        written.reverse
  | _ => written.reverse
termination_by text => text.length
decreasing_by
  have := (List.dropWhile_sublist (l := rest) isWordChar).length_le
  simp only [List.length_cons]
  omega

/-- The string after an opening quote. The answer holds the characters written, without the
closing quote, and the characters meant, both latest first, and whether a closing quote follows.

A backslash stands for the character after it; one at the end of the line ends the string. -/
def stringBody (written meant : List Char) : List Char → List Char × List Char × Bool
  | '"' :: _ => (written, meant, true)
  | ['\\'] => (written, meant, false)
  | '\\' :: c :: rest => stringBody (c :: '\\' :: written) (c :: meant) rest
  | c :: rest => stringBody (c :: written) (c :: meant) rest
  | [] => (written, meant, false)

/-! ## Lines -/

/-- The first stretch of a line that starts with `c`. -/
def lexeme (c : Char) (rest : List Char) : Lexeme :=
  if isSeparator c then
    ⟨c :: rest.takeWhile isSeparator, .blank⟩
  else if c = ';' then
    ⟨c :: rest, .blank⟩
  else if c = '=' then
    ⟨[c], .token .equals⟩
  else if c = '%' then
    let name := rest.takeWhile isIdChar
    if name.isEmpty then ⟨[c], .bad⟩ else ⟨c :: name, .token (.id (String.ofList name))⟩
  else if c = '"' then
    match stringBody [] [] rest with
    | (written, meant, true) =>
        ⟨c :: written.reverse ++ ['"'], .token (.str (String.ofList meant.reverse))⟩
    | (written, _, false) => ⟨c :: written.reverse, .bad⟩
  else if isWordStart c then
    let text := maskTail ((rest.takeWhile isWordChar).reverse ++ [c]) (rest.dropWhile isWordChar)
    ⟨text, .token (.word (String.ofList text))⟩
  else if c = '-' then
    numberLexeme [c] rest
  else if c.isDigit then
    numberLexeme [] (c :: rest)
  else
    ⟨[c], .bad⟩

/-- A stretch of a text that holds a token, or should, with the places of its first byte and of
the byte after it. -/
structure Placed (α : Type) where
  /-- What stands there. -/
  item : α
  /-- The place of its first byte. -/
  start : Nat
  /-- The place of the byte after its last one. -/
  stop : Nat

/-- The number of bytes of a text. -/
def byteLength (text : List Char) : Nat :=
  text.foldl (fun length c => length + c.utf8Size) 0

/-- A token, or the text that is none. -/
abbrev ScannedToken := Except String Token

/-- Cut a line, whose first byte has the place `start`, into tokens, after those already `read`
(latest first). -/
def scanFrom (read : List (Placed ScannedToken)) (start : Nat) :
    List Char → List (Placed ScannedToken)
  | [] => read.reverse
  | c :: rest =>
      let found := lexeme c rest
      let stop := start + byteLength found.text
      let next := rest.drop (found.text.length - 1)
      match found.reading with
      | .blank => scanFrom read stop next
      | .token token => scanFrom (⟨.ok token, start, stop⟩ :: read) stop next
      | .bad => scanFrom (⟨.error (String.ofList found.text), start, stop⟩ :: read) stop next
termination_by text => text.length
decreasing_by all_goals simp only [List.length_drop, List.length_cons]; omega

/-- Cut a line into tokens; places count from the start of the line. -/
def scanLine (line : List Char) : List (Placed ScannedToken) :=
  scanFrom [] 0 line

/-- The lines of a text. -/
def sourceLines (source : String) : List (List Char) :=
  source.toList.splitOn '\n'

/-- What stands at a place of a text of several lines. -/
inductive SourceItem where
  /-- A token. -/
  | token (token : Token)
  /-- The end of a line that is not the last one. -/
  | newline
  /-- Text that is no token. -/
  | bad (text : String)
  deriving DecidableEq

/-- The items of one line that starts at the place `start`, the end of the line included. -/
def lineItems (start : Nat) (line : List Char) : List (Placed SourceItem) :=
  let stop := start + byteLength line
  (scanLine line).map (fun placed =>
    let item := match placed.item with
      | .ok token => SourceItem.token token
      | .error text => .bad text
    ⟨item, start + placed.start, start + placed.stop⟩) ++ [⟨.newline, stop, stop + 1⟩]

/-- Cut a text into tokens and line ends; places count from the start of the text. -/
def scanSource (source : String) : List (Placed SourceItem) :=
  let (items, _) := (sourceLines source).foldl
    (fun (items, start) line =>
      ((lineItems start line).reverse ++ items, start + byteLength line + 1))
    (([] : List (Placed SourceItem)), 0)
  (items.drop 1).reverse

end ShaderMachine
