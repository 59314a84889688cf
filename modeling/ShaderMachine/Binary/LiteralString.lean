import ShaderMachine.Binary.Word

/-! # Literal strings

A literal string is its UTF-8 bytes, a NUL, and zeros up to the next word boundary, four bytes
to a word.

**`packString`** writes that form; **`readTerminated`** finds the bytes before the first NUL and
the words after the one that holds it; **`stringWordCount`** is the number of words written. -/

namespace ShaderMachine

/-- The number of words that a string of `length` bytes takes, terminator and padding included. -/
def stringWordCount (length : Nat) : Nat :=
  length / 4 + 1

/-- Pack bytes four to a word after the words already `written`, ending in a word with a NUL. -/
def packBytes (written : List Word) : Bytes → List Word
  | b₀ :: b₁ :: b₂ :: b₃ :: rest => packBytes (Word.ofBytes b₀ b₁ b₂ b₃ :: written) rest
  | [b₀, b₁, b₂] => (Word.ofBytes b₀ b₁ b₂ 0 :: written).reverse
  | [b₀, b₁] => (Word.ofBytes b₀ b₁ 0 0 :: written).reverse
  | [b₀] => (Word.ofBytes b₀ 0 0 0 :: written).reverse
  | [] => (0 :: written).reverse

/-- The words of a literal string. -/
def packString (text : String) : List Word :=
  packBytes [] text.toUTF8.toList

/-- Read bytes up to the first NUL, after those already `read` (latest first).

The answer holds the bytes and the words after the one with the NUL; there is none if the words
hold no NUL. -/
def readTerminated (read : Bytes) : List Word → Option (Bytes × List Word)
  | [] => none
  | word :: rest =>
      match (Word.bytes word).span (· != 0) with
      | (front, []) => readTerminated (front.reverse ++ read) rest
      | (front, _ :: _) => some ((front.reverse ++ read).reverse, rest)

/-- The text with the given bytes, if they are UTF-8. -/
def textOfBytes? (bytes : Bytes) : Option String :=
  String.fromUTF8? bytes.toByteArray

end ShaderMachine
