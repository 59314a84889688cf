import Mathlib.Data.List.TakeDrop
import Mathlib.Data.List.TakeWhile
import ShaderMachine.Binary.Cursor

/-! # Packed strings are read back

A text without NUL characters, packed into words, is read back from any stream that starts with
these words, and reading stops right behind them.

* **`readTerminated_packBytes`** — bytes other than NUL come back up to their terminator.
* **`Cursor.literalString_packString`** — a packed text is read as that text. -/

namespace ShaderMachine

/-! ## Bytes of texts -/

/-- The bytes of an array are listed from any of its positions on. -/
theorem byteList_loop (bytes : ByteArray) (position : ℕ) (read : List UInt8) :
    ByteArray.toList.loop bytes position read =
      read.reverse ++ bytes.data.toList.drop position := by
  induction position, read using ByteArray.toList.loop.induct bytes with
  | case1 position read more hyp =>
      have in_range : position < bytes.data.toList.length := more
      have next : bytes.get! position = bytes.data.toList[position] :=
        getElem!_pos bytes.data _ more
      rw [ByteArray.toList.loop, if_pos more, hyp, List.drop_eq_getElem_cons in_range, next]
      simp
  | case2 position read beyond =>
      have out_of_range : bytes.data.toList.length ≤ position := not_lt.mp beyond
      rw [ByteArray.toList.loop, if_neg beyond, List.drop_eq_nil_of_le out_of_range,
        List.append_nil]

/-- The list of an array's bytes holds its data. -/
theorem byteList_eq (bytes : ByteArray) : bytes.toList = bytes.data.toList := by
  rw [ByteArray.toList, byteList_loop]
  rfl

/-- The bytes of a text are the bytes of its characters. -/
theorem utf8_eq_flatMap (text : String) :
    text.toUTF8.toList = text.toList.flatMap String.utf8EncodeChar := by
  rw [String.toUTF8_eq_toByteArray, ← String.utf8Encode_toList, byteList_eq, List.utf8Encode,
    List.toList_data_toByteArray]

/-- A text is found again from its bytes. -/
theorem textOfBytes?_toUTF8 (text : String) : textOfBytes? text.toUTF8.toList = some text := by
  have bytes : text.toUTF8.toList.toByteArray = text.toByteArray := by
    rw [String.toUTF8_eq_toByteArray, byteList_eq]
    apply ByteArray.ext
    rw [List.data_toByteArray, Array.toArray_toList]
  rw [textOfBytes?, bytes, String.fromUTF8?, dif_pos text.isValidUTF8]
  rfl

/-- A byte is zero only if its number is. -/
theorem byte_ne_zero {n : ℕ} (positive : 0 < n) (small : n < 256) : UInt8.ofNat n ≠ 0 := by
  intro zero
  have := congrArg UInt8.toNat zero
  rw [UInt8.toNat_ofNat_of_lt' small] at this
  exact positive.ne' this

/-- Only the NUL character has a byte that is zero. -/
theorem utf8EncodeChar_ne_zero {c : Char} (not_nul : c ≠ '\x00') {byte : UInt8}
    (mem : byte ∈ String.utf8EncodeChar c) : byte ≠ 0 := by
  have code_ne : c.val.toNat ≠ 0 := by
    intro zero
    refine not_nul ?_
    rw [← Char.ofNat_toNat c, Char.toNat, zero]
  have every : ∀ byte ∈ String.utf8EncodeChar c, ∃ n, 0 < n ∧ n < 256 ∧ byte = UInt8.ofNat n := by
    rw [String.utf8EncodeChar]
    generalize c.val.toNat = code at code_ne
    -- A single byte is the code itself; of several bytes, each has its marker bits set.
    split_ifs with one two three
    · simp only [List.mem_singleton, forall_eq]
      exact ⟨code, by omega, by omega, rfl⟩
    · simp only [List.mem_cons, List.not_mem_nil, or_false, forall_eq_or_imp, forall_eq]
      exact ⟨⟨_, by omega, by omega, rfl⟩, ⟨_, by omega, by omega, rfl⟩⟩
    · simp only [List.mem_cons, List.not_mem_nil, or_false, forall_eq_or_imp, forall_eq]
      exact ⟨⟨_, by omega, by omega, rfl⟩, ⟨_, by omega, by omega, rfl⟩,
        ⟨_, by omega, by omega, rfl⟩⟩
    · simp only [List.mem_cons, List.not_mem_nil, or_false, forall_eq_or_imp, forall_eq]
      exact ⟨⟨_, by omega, by omega, rfl⟩, ⟨_, by omega, by omega, rfl⟩,
        ⟨_, by omega, by omega, rfl⟩, ⟨_, by omega, by omega, rfl⟩⟩
  obtain ⟨n, positive, small, rfl⟩ := every byte mem
  exact byte_ne_zero positive small

/-- A text without NUL characters has no byte that is zero. -/
theorem utf8_ne_zero {text : String} (no_nul : '\x00' ∉ text.toList) :
    ∀ byte ∈ text.toUTF8.toList, byte ≠ 0 := by
  intro byte mem
  rw [utf8_eq_flatMap, List.mem_flatMap] at mem
  obtain ⟨c, c_mem, mem⟩ := mem
  refine utf8EncodeChar_ne_zero ?_ mem
  rintro rfl
  exact no_nul c_mem

/-! ## Packed bytes -/

/-- The words written before packed bytes stay in front. -/
theorem packBytes_eq_append : ∀ (written : List Word) (bytes : Bytes),
    packBytes written bytes = written.reverse ++ packBytes [] bytes
  | written, b₀ :: b₁ :: b₂ :: b₃ :: rest => by
      rw [packBytes, packBytes, packBytes_eq_append (_ :: written), packBytes_eq_append [_]]
      simp
  | _, [_, _, _] => by simp [packBytes]
  | _, [_, _] => by simp [packBytes]
  | _, [_] => by simp [packBytes]
  | _, [] => by simp [packBytes]

/-- Bytes are packed into as many words as they take with their terminator. -/
theorem length_packBytes : ∀ bytes : Bytes,
    (packBytes [] bytes).length = stringWordCount bytes.length
  | b₀ :: b₁ :: b₂ :: b₃ :: rest => by
      rw [packBytes, packBytes_eq_append, List.length_append, length_packBytes rest]
      simp only [stringWordCount, List.length_cons, List.length_reverse, List.length_nil]
      omega
  | [_, _, _] => by simp [packBytes, stringWordCount]
  | [_, _] => by simp [packBytes, stringWordCount]
  | [_] => by simp [packBytes, stringWordCount]
  | [] => by simp [packBytes, stringWordCount]

/-- Bytes other than NUL are read back up to the word that ends them. -/
theorem readTerminated_packBytes : ∀ {bytes : Bytes} (_ : ∀ byte ∈ bytes, byte ≠ 0) (read : Bytes)
    (rest : List Word),
    readTerminated read (packBytes [] bytes ++ rest) = some (read.reverse ++ bytes, rest)
  | b₀ :: b₁ :: b₂ :: b₃ :: bytes, nonzero, read, rest => by
      simp only [List.mem_cons, forall_eq_or_imp] at nonzero
      obtain ⟨h₀, h₁, h₂, h₃, others⟩ := nonzero
      rw [packBytes, packBytes_eq_append, List.append_assoc, List.reverse_singleton,
        List.singleton_append, readTerminated, Word.bytes_ofBytes]
      simp only [List.span_eq_takeWhile_dropWhile]
      simp [h₀, h₁, h₂, h₃, readTerminated_packBytes others]
  | [b₀, b₁, b₂], nonzero, read, rest => by
      simp only [List.mem_cons, forall_eq_or_imp, List.not_mem_nil, or_false, forall_eq] at nonzero
      obtain ⟨h₀, h₁, h₂⟩ := nonzero
      simp [packBytes, readTerminated, Word.bytes_ofBytes, List.span_eq_takeWhile_dropWhile, h₀, h₁,
        h₂]
  | [b₀, b₁], nonzero, read, rest => by
      simp only [List.mem_cons, forall_eq_or_imp, List.not_mem_nil, or_false, forall_eq] at nonzero
      obtain ⟨h₀, h₁⟩ := nonzero
      simp [packBytes, readTerminated, Word.bytes_ofBytes, List.span_eq_takeWhile_dropWhile, h₀, h₁]
  | [b₀], nonzero, read, rest => by
      simp only [List.mem_singleton, forall_eq] at nonzero
      simp [packBytes, readTerminated, Word.bytes_ofBytes, List.span_eq_takeWhile_dropWhile,
        nonzero]
  | [], _, read, rest => by
      simp [packBytes, readTerminated, Word.bytes, List.span_eq_takeWhile_dropWhile]

/-! ## Packed texts -/

namespace Cursor

/-- Moving over the words in front of the position leaves the words after them. -/
theorem advance_append (base : ℕ) (behind words rest : List Word) :
    (⟨base, behind, words ++ rest⟩ : Cursor).advance words.length =
      ⟨base, words.reverse ++ behind, rest⟩ := by
  simp [advance]

/-- A packed text is read as that text, up to the words behind it. -/
theorem literalString_packString {text : String} (no_nul : '\x00' ∉ text.toList) (base : ℕ)
    (behind rest : List Word) :
    (⟨base, behind, packString text ++ rest⟩ : Cursor).literalString =
      (.ok text, ⟨base, (packString text).reverse ++ behind, rest⟩) := by
  have found := readTerminated_packBytes (utf8_ne_zero no_nul) [] rest
  rw [List.reverse_nil, List.nil_append] at found
  rw [literalString, packString]
  simp only [found, textOfBytes?_toUTF8, ← length_packBytes, advance_append]

/-- A packed text is not empty. -/
theorem packString_ne_nil (text : String) : packString text ≠ [] := by
  rw [← List.length_pos_iff, packString, length_packBytes]
  exact Nat.succ_pos _

end Cursor

end ShaderMachine
