import ShaderMachine.Text.Basic
import ShaderMachine.Text.Escaped

/-! # Quoted texts

Two ways to write a text between double quotes.

**`Text.quoteBare`** marks only quotes and backslashes, with a backslash before each, so that the
assembler reads the text back; **`Text.quoteVisible`** is for messages: it also spells out every
character that could not be seen. -/

namespace ShaderMachine.Text

/-- Put a backslash before each quote and each backslash. -/
def markQuotes (text : List Char) : List Char :=
  text.flatMap fun c => if c = '"' ∨ c = '\\' then ['\\', c] else [c]

/-- A text between quotes, as assembly text spells it. -/
def quoteBare (text : String) : String :=
  String.ofList ('"' :: markQuotes text.toList ++ ['"'])

/-- How one character is spelt in a message. -/
def visible (c : Char) : String :=
  match c with
  | '\x00' => "\\0"
  | '\t' => "\\t"
  | '\r' => "\\r"
  | '\n' => "\\n"
  | '"' => "\\\""
  | '\\' => "\\\\"
  | _ => if needsEscape c then "\\u\x7b" ++ hexDigits c.toNat ++ "\x7d" else c.toString

/-- A text between quotes, as messages spell it. -/
def quoteVisible (text : String) : String :=
  "\"" ++ String.join (text.toList.map visible) ++ "\""

end ShaderMachine.Text
