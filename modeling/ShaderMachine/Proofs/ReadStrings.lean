import ShaderMachine.Proofs.ReadOperands

/-! # Strings are read as they are written

A literal string ends at the first NUL ahead. Its bytes are those in front of that NUL, whatever
comes behind it, and the words that are read are as many as packing these bytes takes, so that
packing a text and reading it agree on where the next operand starts.

* **`bytesBeforeNul`** — the bytes in front of the first NUL.
* **`readTerminated_eq`** — what is read, in terms of the bytes of all words ahead.
* **`bytesOfWords_packBytes`** — the bytes of packed words are the packed ones and zeros.
* **`Cursor.literalString_exact`** — when a string is read, which one, and how far. -/

namespace ShaderMachine

/-! ## Bytes in front of a NUL -/

/-- The bytes of some words in front of the first NUL, or all of them if there is none. -/
def bytesBeforeNul (words : List Word) : Bytes :=
  (bytesOfWords words).takeWhile (· != 0)

/-- Bytes with a NUL are those in front of the first NUL, that NUL, and others. -/
theorem exists_behind_nul {bytes : Bytes} (terminated : 0 ∈ bytes) :
    ∃ behind, bytes = bytes.takeWhile (· != 0) ++ 0 :: behind := by
  obtain ⟨front, behind, rfl, no_zero⟩ := List.eq_append_cons_of_mem terminated
  have passed : ∀ byte ∈ front, (byte != 0) = true := fun byte mem =>
    bne_iff_ne.mpr (ne_of_mem_of_not_mem mem no_zero)
  refine ⟨behind, ?_⟩
  rw [List.takeWhile_append_of_pos passed]
  simp

/-- Bytes without a NUL are all in front of it. -/
theorem takeWhile_of_no_nul {bytes : Bytes} (endless : 0 ∉ bytes) :
    bytes.takeWhile (· != 0) = bytes :=
  List.takeWhile_eq_self_iff.mpr fun _ mem => bne_iff_ne.mpr (ne_of_mem_of_not_mem mem endless)

/-- Where the first word has no NUL, its bytes are in front of the first NUL of the others. -/
theorem bytesBeforeNul_cons {word : Word} (endless : 0 ∉ word.bytes) (words : List Word) :
    bytesBeforeNul (word :: words) = word.bytes ++ bytesBeforeNul words :=
  List.takeWhile_append_of_pos fun _ mem => bne_iff_ne.mpr (ne_of_mem_of_not_mem mem endless)

/-- Where the first word has a NUL, only bytes of that word are in front of it. -/
theorem bytesBeforeNul_cons_of_mem {word : Word} (terminated : 0 ∈ word.bytes) (words : List Word) :
    bytesBeforeNul (word :: words) = word.bytes.takeWhile (· != 0) ∧
      (word.bytes.takeWhile (· != 0)).length < 4 := by
  obtain ⟨behind, word_eq⟩ := exists_behind_nul terminated
  have length_eq := congrArg List.length word_eq
  rw [Word.length_bytes, List.length_append, List.length_cons] at length_eq
  refine ⟨?_, by omega⟩
  -- The bytes of the other words come behind the NUL.
  rw [bytesBeforeNul, bytesOfWords_cons, List.takeWhile_append, if_neg]
  rw [Word.length_bytes]
  omega

/-- Reading stops behind the word that has the first NUL, and finds the bytes in front of it. -/
theorem readTerminated_eq (read : Bytes) (words : List Word) :
    readTerminated read words =
      if 0 ∈ bytesOfWords words then
        some (read.reverse ++ bytesBeforeNul words,
          words.drop (stringWordCount (bytesBeforeNul words).length))
      else
        none := by
  induction words generalizing read with
  | nil => rfl
  | cons word words hyp =>
      rw [readTerminated, List.span_eq_takeWhile_dropWhile]
      -- The string ends in this word or in one behind it, and takes one word more then.
      by_cases here : 0 ∈ word.bytes
      · obtain ⟨text_eq, few⟩ := bytesBeforeNul_cons_of_mem here words
        obtain ⟨behind, word_eq⟩ := exists_behind_nul here
        have dropped : word.bytes.dropWhile (· != 0) = 0 :: behind := by
          have parts := List.takeWhile_append_dropWhile (l := word.bytes) (p := (· != 0))
          exact List.append_cancel_left (parts.trans word_eq)
        have one : stringWordCount (word.bytes.takeWhile (· != 0)).length = 1 := by
          rw [stringWordCount, Nat.div_eq_of_lt few]
        rw [if_pos (by rw [bytesOfWords_cons]; exact List.mem_append_left _ here), text_eq, one]
        simp only [dropped, List.reverse_append, List.reverse_reverse]
        rfl
      · have passed := takeWhile_of_no_nul here
        have dropped : word.bytes.dropWhile (· != 0) = [] := by
          rw [List.dropWhile_eq_nil_iff]
          exact fun _ mem => bne_iff_ne.mpr (ne_of_mem_of_not_mem mem here)
        have one_more : stringWordCount (bytesBeforeNul (word :: words)).length =
            stringWordCount (bytesBeforeNul words).length + 1 := by
          rw [bytesBeforeNul_cons here, List.length_append, Word.length_bytes, stringWordCount,
            stringWordCount]
          omega
        have later : 0 ∈ bytesOfWords (word :: words) ↔ 0 ∈ bytesOfWords words := by
          rw [bytesOfWords_cons, List.mem_append, or_iff_right here]
        simp only [dropped, passed, hyp, one_more, later, List.drop_succ_cons]
        rw [bytesBeforeNul_cons here, List.reverse_append, List.reverse_reverse, List.append_assoc]

/-! ## Packed bytes -/

/-- The bytes of packed words are the packed ones and zeros up to the end of a word, at least one.
-/
theorem bytesOfWords_packBytes : ∀ bytes : Bytes,
    bytesOfWords (packBytes [] bytes) = bytes ++ List.replicate (4 - bytes.length % 4) 0
  | b₀ :: b₁ :: b₂ :: b₃ :: rest => by
      have same_end : (b₀ :: b₁ :: b₂ :: b₃ :: rest).length % 4 = rest.length % 4 := by
        simp only [List.length_cons]
        omega
      rw [packBytes, packBytes_eq_append, List.reverse_singleton, List.singleton_append,
        bytesOfWords_cons, Word.bytes_ofBytes, bytesOfWords_packBytes rest, same_end]
      rfl
  | [b₀, b₁, b₂] => by simp [packBytes, bytesOfWords, Word.bytes_ofBytes]
  | [b₀, b₁] => by simp [packBytes, bytesOfWords, Word.bytes_ofBytes]
  | [b₀] => by simp [packBytes, bytesOfWords, Word.bytes_ofBytes]
  | [] => rfl

/-- The words that hold bytes up to a NUL are as many as packing the bytes takes, and have the bytes
that packing them has, but for those behind the NUL. -/
theorem exists_padding {words : List Word} (terminated : 0 ∈ bytesOfWords words) :
    stringWordCount (bytesBeforeNul words).length ≤ words.length ∧
      ∃ padding, bytesOfWords (words.take (stringWordCount (bytesBeforeNul words).length)) =
          bytesBeforeNul words ++ 0 :: padding ∧
        bytesOfWords (packBytes [] (bytesBeforeNul words)) =
          bytesBeforeNul words ++ 0 :: List.replicate padding.length 0 := by
  obtain ⟨behind, bytes_eq⟩ := exists_behind_nul terminated
  change bytesOfWords words = bytesBeforeNul words ++ 0 :: behind at bytes_eq
  have length_eq := congrArg List.length bytes_eq
  rw [length_bytesOfWords, List.length_append, List.length_cons] at length_eq
  -- The NUL is the first byte, or one of the other three, of the word that packing ends with.
  have rounded : 4 * stringWordCount (bytesBeforeNul words).length =
      (bytesBeforeNul words).length + 1 + (3 - (bytesBeforeNul words).length % 4) := by
    rw [stringWordCount]
    omega
  refine ⟨by omega, behind.take (3 - (bytesBeforeNul words).length % 4), ?_, ?_⟩
  · rw [bytesOfWords_take, rounded, bytes_eq, Nat.add_assoc, List.take_length_add_append,
      Nat.add_comm 1, List.take_succ_cons]
  · have zeros : 4 - (bytesBeforeNul words).length % 4 =
        3 - (bytesBeforeNul words).length % 4 + 1 := by omega
    rw [bytesOfWords_packBytes, zeros, List.replicate_succ, List.length_take_of_le (by omega)]

/-! ## Strings -/

/-- Bytes are found to be those of a text, or are those of no text. -/
theorem textOfBytes?_eq_some_iff {bytes : Bytes} {text : String} :
    textOfBytes? bytes = some text ↔ text.toUTF8.toList = bytes := by
  constructor
  · exact toUTF8_of_textOfBytes?
  · rintro rfl
    exact textOfBytes?_toUTF8 text

/-- Bytes that are found to be those of no text are those of no text. -/
theorem textOfBytes?_eq_none_iff {bytes : Bytes} :
    textOfBytes? bytes = none ↔ ∀ text : String, text.toUTF8.toList ≠ bytes := by
  rw [Option.eq_none_iff_forall_ne_some]
  exact forall_congr' fun text => not_congr textOfBytes?_eq_some_iff

/-- The bytes of a text are as many as its size says. -/
theorem length_toUTF8 (text : String) : text.toUTF8.toList.length = text.utf8ByteSize := by
  rw [byteList_eq, Array.length_toList]
  rfl

namespace Cursor

/-- What comes of reading a string: the first NUL ahead decides how far is read, and the bytes in
front of it decide what is. -/
theorem literalString_eq (cursor : Cursor) :
    cursor.literalString =
      if 0 ∈ bytesOfWords cursor.ahead then
        (match textOfBytes? (bytesBeforeNul cursor.ahead) with
          | none => .error (.invalidString cursor.offset)
          | some text => .ok text,
          cursor.advance (stringWordCount (bytesBeforeNul cursor.ahead).length))
      else
        (.error (.unterminatedString cursor.offset), cursor.drained) := by
  rw [literalString, readTerminated_eq]
  split
  · rename_i found
    split at found
    · cases found
    · rename_i endless
      rw [if_neg endless]
  · rename_i bytes rest found
    split at found
    · rename_i terminated
      cases found
      rw [if_pos terminated, List.reverse_nil, List.nil_append]
      cases textOfBytes? (bytesBeforeNul cursor.ahead) <;> rfl
    · cases found

/-- A string has no end exactly if no byte ahead is zero. -/
theorem literalString_unterminated_iff {cursor : Cursor} :
    cursor.literalString.1 = .error (.unterminatedString cursor.offset) ↔
      0 ∉ bytesOfWords cursor.ahead := by
  rw [literalString_eq]
  by_cases terminated : 0 ∈ bytesOfWords cursor.ahead
  · rw [if_pos terminated]
    refine iff_of_false ?_ (not_not_intro terminated)
    cases textOfBytes? (bytesBeforeNul cursor.ahead) <;> simp
  · rw [if_neg terminated]
    exact iff_of_true rfl terminated

/-- A string is none for what it is exactly if the bytes in front of its end are those of no text.
-/
theorem literalString_invalid_iff {cursor : Cursor} :
    cursor.literalString.1 = .error (.invalidString cursor.offset) ↔
      0 ∈ bytesOfWords cursor.ahead ∧
        ∀ text : String, text.toUTF8.toList ≠ bytesBeforeNul cursor.ahead := by
  rw [literalString_eq, ← textOfBytes?_eq_none_iff]
  by_cases terminated : 0 ∈ bytesOfWords cursor.ahead
  · rw [if_pos terminated, and_iff_right terminated]
    cases textOfBytes? (bytesBeforeNul cursor.ahead) <;> simp
  · rw [if_neg terminated]
    exact iff_of_false (by simp) fun found => terminated found.1

/-- A string is read as the text of the bytes in front of its end. -/
theorem literalString_ok_iff {cursor : Cursor} {text : String} :
    cursor.literalString.1 = .ok text ↔
      0 ∈ bytesOfWords cursor.ahead ∧ text.toUTF8.toList = bytesBeforeNul cursor.ahead := by
  rw [literalString_eq, ← textOfBytes?_eq_some_iff]
  by_cases terminated : 0 ∈ bytesOfWords cursor.ahead
  · rw [if_pos terminated, and_iff_right terminated]
    cases textOfBytes? (bytesBeforeNul cursor.ahead) <;> simp
  · rw [if_neg terminated]
    exact iff_of_false (by simp) fun found => terminated found.1

/-- A packed text without NUL characters is read as that text, up to the words behind it, of which
it takes as many as its bytes need. In any words, reading a string fails for want of an end exactly
if no byte ahead is zero, and for what the string is exactly if the bytes in front of the first zero
are those of no text; otherwise it yields the text of these bytes and moves over as many words as
they need, which are the packed text up to the zero; behind it the packed text has zeros. -/
theorem literalString_exact (cursor : Cursor) :
    (∀ (text : String) (rest : List Word), '\x00' ∉ text.toList →
      cursor.ahead = packString text ++ rest →
        cursor.literalString = (.ok text, cursor.advance (stringWordCount text.utf8ByteSize)) ∧
          (cursor.advance (stringWordCount text.utf8ByteSize)).ahead = rest) ∧
    (cursor.literalString.1 = .error (.unterminatedString cursor.offset) ↔
      0 ∉ bytesOfWords cursor.ahead) ∧
    (cursor.literalString.1 = .error (.invalidString cursor.offset) ↔
      0 ∈ bytesOfWords cursor.ahead ∧
        ∀ text : String, text.toUTF8.toList ≠ bytesBeforeNul cursor.ahead) ∧
    ∀ text : String, (cursor.literalString.1 = .ok text ↔
        0 ∈ bytesOfWords cursor.ahead ∧ text.toUTF8.toList = bytesBeforeNul cursor.ahead) ∧
      (cursor.literalString.1 = .ok text →
        stringWordCount text.utf8ByteSize ≤ cursor.remaining ∧
        cursor.literalString.2 = cursor.advance (stringWordCount text.utf8ByteSize) ∧
        ∃ padding, bytesOfWords (cursor.ahead.take (stringWordCount text.utf8ByteSize)) =
            text.toUTF8.toList ++ 0 :: padding ∧
          bytesOfWords (packString text) =
            text.toUTF8.toList ++ 0 :: List.replicate padding.length 0) := by
  refine ⟨fun text rest no_nul ahead_eq => ?_, literalString_unterminated_iff,
    literalString_invalid_iff, fun text => ⟨literalString_ok_iff, fun found => ?_⟩⟩
  · -- Packed strings have no other zero byte than those that end them.
    obtain ⟨base, behind, ahead⟩ := cursor
    subst ahead_eq
    have count_eq : stringWordCount text.utf8ByteSize = (packString text).length := by
      rw [packString, length_packBytes, length_toUTF8]
    rw [count_eq, advance_append]
    exact ⟨literalString_packString no_nul base behind rest, rfl⟩
  · obtain ⟨terminated, bytes_eq⟩ := literalString_ok_iff.mp found
    obtain ⟨enough, padded⟩ := exists_padding terminated
    rw [← length_toUTF8, packString, bytes_eq, literalString_eq, if_pos terminated]
    exact ⟨enough, rfl, padded⟩

/-- A character of two bytes that stands across two words is read, and so is what is packed after
it; whatever comes behind the NUL is passed over. -/
theorem literalString_across : ∃ padding,
    (⟨7, [9], packString "abc\u00e9" ++ [5]⟩ : Cursor).literalString =
      (.ok "abc\u00e9", ⟨7, [0xA9, 0xC3636261, 9], [5]⟩) ∧
    (⟨7, [9], [0xC3636261, 0xFFEE00A9, 5]⟩ : Cursor).literalString =
      (.ok "abc\u00e9", ⟨7, [0xFFEE00A9, 0xC3636261, 9], [5]⟩) ∧
    bytesOfWords [0xC3636261, 0xFFEE00A9] = "abc\u00e9".toUTF8.toList ++ 0 :: padding ∧
    padding = [0xEE, 0xFF] := by
  have written : packString "abc\u00e9" = [0xC3636261, 0xA9] := by decide +kernel
  have size : "abc\u00e9".utf8ByteSize = 5 := by decide +kernel
  have bytes : "abc\u00e9".toUTF8.toList = [0x61, 0x62, 0x63, 0xC3, 0xA9] := by decide +kernel
  obtain ⟨packed, -⟩ := literalString_exact ⟨7, [9], packString "abc\u00e9" ++ [5]⟩
  obtain ⟨-, -, -, found⟩ := literalString_exact ⟨7, [9], [0xC3636261, 0xFFEE00A9, 5]⟩
  have is_read := (found "abc\u00e9").1.mpr (by rw [bytes]; decide)
  obtain ⟨-, after, padding, consumed, -⟩ := (found "abc\u00e9").2 is_read
  rw [size] at after consumed
  refine ⟨padding, ?_, ?_, consumed, ?_⟩
  · rw [(packed "abc\u00e9" [5] (by decide) rfl).1, size, written]
    rfl
  · exact Prod.ext is_read after
  · rw [bytes] at consumed
    have same : [0x61, 0x62, 0x63, 0xC3, 0xA9, 0, 0xEE, 0xFF] =
      [0x61, 0x62, 0x63, 0xC3, 0xA9] ++ 0 :: padding := consumed
    cases same
    rfl

end Cursor

end ShaderMachine
