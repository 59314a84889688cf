/-! # Plain texts

Blanks around a text, and numbers in base sixteen.

**`Text.isBlank`** is the Unicode property `White_Space`; **`Text.trim`** cuts blanks off both ends
of a text, and **`Text.alignRight`** puts blanks before it so that it ends in a given column.
**`Text.hex`** writes `0x` and the digits of a number without leading zeros; **`Text.hexWord`** pads
them to the eight digits of one word. -/

namespace ShaderMachine.Text

/-! ## Blanks -/

/-- Whether a character is white space in the sense of Unicode. -/
def isBlank (c : Char) : Bool :=
  let n := c.toNat
  (9 ≤ n && n ≤ 13) || n == 0x20 || n == 0x85 || n == 0xA0 || n == 0x1680 ||
    (0x2000 ≤ n && n ≤ 0x200A) || n == 0x2028 || n == 0x2029 || n == 0x202F || n == 0x205F ||
    n == 0x3000

/-- A text without the blanks at its ends. -/
def trim (text : List Char) : List Char :=
  ((text.dropWhile isBlank).reverse.dropWhile isBlank).reverse

/-- A text with blanks before it up to a width; a wider text stays as it is. -/
def alignRight (width : Nat) (text : String) : String :=
  String.ofList (List.replicate (width - text.length) ' ') ++ text

/-! ## Numbers in hexadecimal -/

/-- The lowercase hexadecimal digits of a number, without leading zeros. -/
def hexDigits (n : Nat) : String :=
  String.ofList (Nat.toDigits 16 n)

/-- A number as a hexadecimal literal. -/
def hex (n : Nat) : String :=
  "0x" ++ hexDigits n

/-- A number as a hexadecimal literal of at least eight digits. -/
def hexWord (n : Nat) : String :=
  let digits := Nat.toDigits 16 n
  "0x" ++ String.ofList (List.replicate (8 - digits.length) '0' ++ digits)

end ShaderMachine.Text
