/-! # Words and bytes

An instruction stream is a list of 32-bit words, and a file is the list of their bytes.

**`Word.bytes`** and **`Word.ofBytes`** pass between a word and its four bytes, least
significant first; **`bytesOfWords`** and **`wordsOfBytes`** do so for whole streams, and
**`wordsOfSwappedBytes`** reads a stream that was written most significant byte first. -/

namespace ShaderMachine

/-- One word of an instruction stream. -/
abbrev Word := UInt32

/-- The number by which an instruction names a result. -/
abbrev Id := UInt32

/-- The contents of a file or of a value in memory. -/
abbrev Bytes := List UInt8

namespace Word

/-- The four bytes of a word, least significant first. -/
def bytes (word : Word) : Bytes :=
  [UInt8.ofNat word.toNat, UInt8.ofNat (word.toNat / 256), UInt8.ofNat (word.toNat / 65536),
    UInt8.ofNat (word.toNat / 16777216)]

/-- The word with the given bytes, least significant first. -/
def ofBytes (b₀ b₁ b₂ b₃ : UInt8) : Word :=
  UInt32.ofNat (b₀.toNat + 256 * b₁.toNat + 65536 * b₂.toNat + 16777216 * b₃.toNat)

@[simp] theorem length_bytes (word : Word) : (bytes word).length = 4 :=
  rfl

/-- A word is made of its bytes. -/
theorem bytes_ofBytes (b₀ b₁ b₂ b₃ : UInt8) :
    bytes (ofBytes b₀ b₁ b₂ b₃) = [b₀, b₁, b₂, b₃] := by
  have h₀ := b₀.toNat_lt
  have h₁ := b₁.toNat_lt
  have h₂ := b₂.toNat_lt
  have h₃ := b₃.toNat_lt
  have word_eq : (ofBytes b₀ b₁ b₂ b₃).toNat =
      b₀.toNat + 256 * b₁.toNat + 65536 * b₂.toNat + 16777216 * b₃.toNat := by
    rw [ofBytes, UInt32.toNat_ofNat_of_lt']
    change _ < 4294967296
    omega
  have byte_eq (byte : UInt8) (n : Nat) (equal : n % 256 = byte.toNat) : UInt8.ofNat n = byte := by
    rw [← UInt8.toNat_inj, UInt8.toNat_ofNat']
    exact equal
  rw [bytes, word_eq]
  simp only [List.cons.injEq, and_true]
  refine ⟨byte_eq _ _ ?_, byte_eq _ _ ?_, byte_eq _ _ ?_, byte_eq _ _ ?_⟩ <;> omega

/-- A word is made of four bytes. -/
theorem exists_bytes (word : Word) :
    ∃ b₀ b₁ b₂ b₃, bytes word = [b₀, b₁, b₂, b₃] ∧ ofBytes b₀ b₁ b₂ b₃ = word := by
  refine ⟨_, _, _, _, rfl, ?_⟩
  have word_lt := word.toNat_lt
  rw [← UInt32.toNat_inj, ofBytes]
  simp only [UInt32.toNat_ofNat', UInt8.toNat_ofNat']
  omega

end Word

/-- The bytes of a stream of words. -/
def bytesOfWords (words : List Word) : Bytes :=
  words.flatMap Word.bytes

/-- The bytes of a concatenation are the concatenated bytes. -/
@[simp] theorem bytesOfWords_append (first second : List Word) :
    bytesOfWords (first ++ second) = bytesOfWords first ++ bytesOfWords second := by
  simp [bytesOfWords]

/-- The bytes of a first word stand in front. -/
theorem bytesOfWords_cons (word : Word) (words : List Word) :
    bytesOfWords (word :: words) = word.bytes ++ bytesOfWords words :=
  rfl

/-- The bytes of some words are four each. -/
theorem length_bytesOfWords (words : List Word) :
    (bytesOfWords words).length = 4 * words.length := by
  induction words with
  | nil => rfl
  | cons word words hyp =>
      rw [bytesOfWords_cons, List.length_append, Word.length_bytes, hyp, List.length_cons]
      omega

/-- The bytes of the first words are the first bytes, four for each of them. -/
theorem bytesOfWords_take (count : Nat) (words : List Word) :
    bytesOfWords (words.take count) = (bytesOfWords words).take (4 * count) := by
  induction words generalizing count with
  | nil => rw [List.take_nil, bytesOfWords, List.flatMap_nil, List.take_nil]
  | cons word words hyp =>
      cases count with
      | zero => rfl
      | succ count =>
          have enough : word.bytes.length ≤ 4 * (count + 1) := by
            rw [Word.length_bytes]
            omega
          rw [List.take_succ_cons, bytesOfWords_cons, bytesOfWords_cons, hyp, List.take_append,
            List.take_of_length_le enough, Word.length_bytes, Nat.mul_succ, Nat.add_sub_cancel]

/-- Group bytes by four and read each group with `join`; a partial group at the end is left out. -/
def groupBytes (join : UInt8 → UInt8 → UInt8 → UInt8 → Word) (read : List Word) :
    Bytes → List Word
  | b₀ :: b₁ :: b₂ :: b₃ :: rest => groupBytes join (join b₀ b₁ b₂ b₃ :: read) rest
  | _ => read.reverse

/-- The words of a byte sequence, each stored least significant byte first. -/
def wordsOfBytes (bytes : Bytes) : List Word :=
  groupBytes Word.ofBytes [] bytes

/-- The words of a byte sequence, each stored most significant byte first. -/
def wordsOfSwappedBytes (bytes : Bytes) : List Word :=
  groupBytes (fun b₀ b₁ b₂ b₃ => Word.ofBytes b₃ b₂ b₁ b₀) [] bytes

end ShaderMachine
