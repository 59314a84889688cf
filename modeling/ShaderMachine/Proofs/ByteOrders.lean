import ShaderMachine.Proofs.Loading

/-! # Files in either byte order

A file holds the words of a module in one of two byte orders, and its first word tells in which. So
loading a file is loading its words, and what was loaded is written as the file itself, or as the
file in the other byte order.

* **`bytesOfWords_wordsOfBytes`** — bytes by the word are those of the words read from them.
* **`swapBytes`** — a file in the other byte order.
* **`Module.ofBytes_bytesOfWords`** and **`Module.ofBytes_swappedBytes`** — loading either file of
  some words is loading the words.
* **`Module.ofBytes_exact`** — loading bytes loses nothing, whichever order they have. -/

namespace ShaderMachine

/-! ## Words of bytes -/

section

variable (join : UInt8 → UInt8 → UInt8 → UInt8 → Word)

/-- Groups of bytes are read behind those that were read before. -/
theorem groupBytes_eq (read : List Word) : ∀ bytes : Bytes,
    groupBytes join read bytes = read.reverse ++ groupBytes join [] bytes
  | b₀ :: b₁ :: b₂ :: b₃ :: rest => by
      rw [groupBytes, groupBytes, groupBytes_eq _ rest, groupBytes_eq [_] rest]
      simp
  | [] | [_] | [_, _] | [_, _, _] => (List.append_nil _).symm

/-- The first four bytes are read as the first word. -/
theorem groupBytes_cons (b₀ b₁ b₂ b₃ : UInt8) (rest : Bytes) :
    groupBytes join [] (b₀ :: b₁ :: b₂ :: b₃ :: rest) =
      join b₀ b₁ b₂ b₃ :: groupBytes join [] rest := by
  rw [groupBytes, groupBytes_eq]
  rfl

end

/-- The bytes of some words are read as these words. -/
theorem wordsOfBytes_bytesOfWords (words : List Word) :
    wordsOfBytes (bytesOfWords words) = words := by
  induction words with
  | nil => rfl
  | cons word words hyp =>
      obtain ⟨b₀, b₁, b₂, b₃, bytes_eq, word_eq⟩ := Word.exists_bytes word
      rw [bytesOfWords_cons, bytes_eq, wordsOfBytes]
      change groupBytes Word.ofBytes [] (b₀ :: b₁ :: b₂ :: b₃ :: bytesOfWords words) = _
      rw [groupBytes_cons, word_eq]
      exact congrArg (word :: ·) hyp

/-- A whole number of words is written as it was read. -/
theorem bytesOfWords_wordsOfBytes : ∀ {bytes : Bytes}, bytes.length % 4 = 0 →
    bytesOfWords (wordsOfBytes bytes) = bytes
  | b₀ :: b₁ :: b₂ :: b₃ :: rest, whole => by
      have rest_whole : rest.length % 4 = 0 := by
        simp only [List.length_cons] at whole
        omega
      have rest_eq := bytesOfWords_wordsOfBytes rest_whole
      rw [wordsOfBytes] at rest_eq
      rw [wordsOfBytes, groupBytes_cons, bytesOfWords_cons, Word.bytes_ofBytes, rest_eq]
      rfl
  | [], _ => rfl

/-! ## The other byte order -/

/-- Bytes with each group of four reversed; what is left over at the end stays. -/
def swapBytes : Bytes → Bytes
  | b₀ :: b₁ :: b₂ :: b₃ :: rest => b₃ :: b₂ :: b₁ :: b₀ :: swapBytes rest
  | rest => rest

/-- The bytes of some words, those of each word most significant first. -/
def swappedBytesOfWords (words : List Word) : Bytes :=
  words.flatMap fun word => word.bytes.reverse

/-- Bytes are as many in the other order. -/
@[simp] theorem length_swapBytes : ∀ bytes : Bytes, (swapBytes bytes).length = bytes.length
  | b₀ :: b₁ :: b₂ :: b₃ :: rest => by
      rw [swapBytes]
      simp only [List.length_cons, length_swapBytes rest]
  | [] | [_] | [_, _] | [_, _, _] => rfl

/-- The other order of the other order is the first one. -/
@[simp] theorem swapBytes_swapBytes : ∀ bytes : Bytes, swapBytes (swapBytes bytes) = bytes
  | b₀ :: b₁ :: b₂ :: b₃ :: rest => by rw [swapBytes, swapBytes, swapBytes_swapBytes rest]
  | [] | [_] | [_, _] | [_, _, _] => rfl

/-- In the other order, the bytes of a word stand the other way round. -/
theorem swapBytes_bytesOfWords (words : List Word) :
    swapBytes (bytesOfWords words) = swappedBytesOfWords words := by
  induction words with
  | nil => rfl
  | cons word words hyp =>
      have swapped : swapBytes (bytesOfWords (word :: words)) =
          word.bytes.reverse ++ swapBytes (bytesOfWords words) := rfl
      rw [swapped, hyp]
      rfl

/-- Words that are stored the other way round are those of the bytes in the other order. -/
theorem wordsOfSwappedBytes_eq : ∀ bytes : Bytes,
    wordsOfSwappedBytes bytes = wordsOfBytes (swapBytes bytes)
  | b₀ :: b₁ :: b₂ :: b₃ :: rest => by
      have rest_eq := wordsOfSwappedBytes_eq rest
      rw [wordsOfSwappedBytes, wordsOfBytes] at rest_eq
      rw [wordsOfSwappedBytes, wordsOfBytes, swapBytes, groupBytes_cons, groupBytes_cons, rest_eq]
  | [] | [_] | [_, _] | [_, _, _] => rfl

/-! ## Loading -/

namespace Module

variable {words : List Word} {bytes : Bytes} {loaded : Module}

/-- Words that load start with the magic number. -/
theorem head?_words (loaded : Module) : loaded.words.head? = some magicNumber :=
  rfl

/-- Bytes are a whole number of words of at least a header, or their number is reported. -/
theorem ofBytes_truncated (short : bytes.length % 4 ≠ 0 ∨ bytes.length < 4 * headerLength) :
    ofBytes bytes = .error (.truncated bytes.length) := by
  rw [ofBytes, if_pos short]

/-- Too few words are reported by the number of their bytes. -/
theorem ofWords_truncated (few : words.length < headerLength) :
    ofWords words = .error (.truncated (4 * words.length)) :=
  ofWords_of_firstFault (.header (.truncated few))

/-- Enough words are not reported as too few. -/
theorem ofWords_ne_truncated (enough : headerLength ≤ words.length) (length : Nat) :
    ofWords words ≠ .error (.truncated length) := by
  intro failed
  cases (ofWords_exact words).2.2 _ |>.mp failed with
  | header faulty =>
      cases faulty with
      | truncated few => exact absurd few (Nat.not_lt_of_le enough)
  | count headed stream framed complete faulty => cases faulty

/-- The first word of a file is that of its first bytes. -/
theorem head?_wordsOfBytes_take (words : List Word) :
    (wordsOfBytes ((bytesOfWords words).take 4)).head? = words.head? := by
  have first := bytesOfWords_take 1 words
  rw [Nat.mul_one] at first
  rw [← first, wordsOfBytes_bytesOfWords]
  cases words <;> rfl

/-- Words whose least significant bytes are stored first load as these words, unless the first one
is the magic number the other way round. -/
theorem ofBytes_bytesOfWords (plain : words.head? ≠ some swappedMagicNumber) :
    ofBytes (bytesOfWords words) = ofWords words := by
  have length_eq := length_bytesOfWords words
  by_cases few : words.length < headerLength
  · rw [ofWords_truncated few, ← length_eq]
    exact ofBytes_truncated (.inr (by omega))
  · rw [ofBytes, if_neg (by omega), head?_wordsOfBytes_take, if_neg plain,
      wordsOfBytes_bytesOfWords]

/-- Where the first word is the magic number the other way round, all words are read so. -/
theorem ofBytes_of_swapped (whole : bytes.length % 4 = 0)
    (swapped : (wordsOfBytes bytes).head? = some swappedMagicNumber) :
    ofBytes bytes = ofWords (wordsOfBytes (swapBytes bytes)) := by
  have bytes_eq := bytesOfWords_wordsOfBytes whole
  have swapped_eq := bytesOfWords_wordsOfBytes ((length_swapBytes bytes).symm ▸ whole)
  have length_eq := length_bytesOfWords (wordsOfBytes (swapBytes bytes))
  rw [swapped_eq, length_swapBytes] at length_eq
  by_cases few : (wordsOfBytes (swapBytes bytes)).length < headerLength
  · rw [ofWords_truncated few, ← length_eq]
    exact ofBytes_truncated (.inr (by omega))
  · have first := head?_wordsOfBytes_take (wordsOfBytes bytes)
    rw [bytes_eq] at first
    rw [ofBytes, if_neg (by omega), first, if_pos swapped, wordsOfSwappedBytes_eq]

/-- Words whose most significant bytes are stored first load as these words, too. -/
theorem ofBytes_swappedBytes (magic : words.head? = some magicNumber) :
    ofBytes (swappedBytesOfWords words) = ofWords words := by
  have length_eq := length_bytesOfWords words
  have swapped : (wordsOfBytes (swapBytes (bytesOfWords words))).head? =
      some swappedMagicNumber := by
    obtain ⟨rest, rfl⟩ := List.head?_eq_some_iff.mp magic
    have front : swapBytes (bytesOfWords (magicNumber :: rest)) =
        swappedMagicNumber.bytes ++ swapBytes (bytesOfWords rest) := rfl
    rw [front]
    change (groupBytes Word.ofBytes [] (_ :: _ :: _ :: _ :: _)).head? = _
    rw [groupBytes_cons]
    rfl
  rw [← swapBytes_bytesOfWords, ofBytes_of_swapped (by rw [length_swapBytes]; omega) swapped,
    swapBytes_swapBytes, wordsOfBytes_bytesOfWords]

/-- What a loaded module is written as loads as that module. -/
theorem ofBytes_bytes (loads : ofWords words = .ok loaded) : ofBytes loaded.bytes = .ok loaded := by
  obtain ⟨rfl, -⟩ := ofWords_inv loads
  rw [bytes, ofBytes_bytesOfWords (by rw [head?_words]; decide)]
  exact loads

/-- Bytes that load are those that the module is written as, or these in the other order. The first
word says which. -/
theorem bytes_of_loads (loads : ofBytes bytes = .ok loaded) :
    ((wordsOfBytes bytes).head? = some magicNumber ∧ loaded.bytes = bytes ∨
      (wordsOfBytes bytes).head? = some swappedMagicNumber ∧ loaded.bytes = swapBytes bytes) ∧
      ofBytes loaded.bytes = .ok loaded := by
  have whole : bytes.length % 4 = 0 := by
    by_contra partial_word
    rw [ofBytes_truncated (.inl partial_word)] at loads
    cases loads
  by_cases swapped : (wordsOfBytes bytes).head? = some swappedMagicNumber
  · rw [ofBytes_of_swapped whole swapped] at loads
    have words_eq := (ofWords_inv loads).1
    refine ⟨.inr ⟨swapped, ?_⟩, ofBytes_bytes loads⟩
    rw [Module.bytes, ← words_eq]
    exact bytesOfWords_wordsOfBytes ((length_swapBytes bytes).symm ▸ whole)
  · have bytes_eq := bytesOfWords_wordsOfBytes whole
    rw [← bytes_eq, ofBytes_bytesOfWords swapped] at loads
    have words_eq := (ofWords_inv loads).1
    refine ⟨.inl ⟨?_, ?_⟩, ofBytes_bytes loads⟩
    · rw [words_eq, head?_words]
    · rw [Module.bytes, ← words_eq, bytes_eq]

/-- Bytes are reported as truncated exactly if they are no whole number of words, or fewer than a
header has. -/
theorem ofBytes_truncated_iff {length : Nat} :
    ofBytes bytes = .error (.truncated length) ↔
      length = bytes.length ∧ (bytes.length % 4 ≠ 0 ∨ bytes.length < 4 * headerLength) := by
  constructor
  · intro failed
    by_cases short : bytes.length % 4 ≠ 0 ∨ bytes.length < 4 * headerLength
    · rw [ofBytes_truncated short] at failed
      cases failed
      exact ⟨rfl, short⟩
    · -- Then there are words enough, in either order.
      rw [not_or, Decidable.not_not, Nat.not_lt] at short
      obtain ⟨whole, enough⟩ := short
      have length_of (bytes : Bytes) (whole : bytes.length % 4 = 0)
          (enough : 4 * headerLength ≤ bytes.length) :
          headerLength ≤ (wordsOfBytes bytes).length := by
        have length_eq := length_bytesOfWords (wordsOfBytes bytes)
        rw [bytesOfWords_wordsOfBytes whole] at length_eq
        omega
      by_cases swapped : (wordsOfBytes bytes).head? = some swappedMagicNumber
      · rw [ofBytes_of_swapped whole swapped] at failed
        exact absurd failed (ofWords_ne_truncated
          (length_of _ (by rwa [length_swapBytes]) (by rwa [length_swapBytes])) _)
      · rw [← bytesOfWords_wordsOfBytes whole, ofBytes_bytesOfWords swapped] at failed
        exact absurd failed (ofWords_ne_truncated (length_of _ whole enough) _)
  · rintro ⟨rfl, short⟩
    exact ofBytes_truncated short

/-- Words that start with the magic number load as the same module, or fail alike, as words and as
files in both byte orders. Bytes that load are what the module is written as, or that in the other
byte order, as their first word says, and what it is written as loads again. Bytes are reported as
truncated, with their number, exactly if they are no whole number of words or fewer than a header
has. -/
theorem ofBytes_exact :
    (∀ words : List Word, words.head? = some magicNumber →
      ofBytes (bytesOfWords words) = ofWords words ∧
        ofBytes (swappedBytesOfWords words) = ofWords words) ∧
    (∀ (bytes : Bytes) (loaded : Module), ofBytes bytes = .ok loaded →
      ((wordsOfBytes bytes).head? = some magicNumber ∧ loaded.bytes = bytes ∨
        (wordsOfBytes bytes).head? = some swappedMagicNumber ∧
          loaded.bytes = swapBytes bytes) ∧
        ofBytes loaded.bytes = .ok loaded) ∧
    ∀ (bytes : Bytes) (length : Nat), ofBytes bytes = .error (.truncated length) ↔
      length = bytes.length ∧ (bytes.length % 4 ≠ 0 ∨ bytes.length < 20) := by
  refine ⟨fun words magic => ⟨ofBytes_bytesOfWords ?_, ofBytes_swappedBytes magic⟩,
    fun bytes loaded loads => bytes_of_loads loads, fun bytes length => ofBytes_truncated_iff⟩
  rw [magic]
  decide

/-- A module of one empty instruction loads from a file with the most significant bytes first, and
is written with the least significant ones first. -/
theorem ofBytes_exact_swapped : ∃ loaded : Module,
    ofBytes (swappedBytesOfWords [magicNumber, 0x00010000, 0, 5, 0, 0x00010000]) = .ok loaded ∧
      loaded.bytes = swapBytes
        (swappedBytesOfWords [magicNumber, 0x00010000, 0, 5, 0, 0x00010000]) ∧
      ofBytes loaded.bytes = .ok loaded := by
  have loads : (ofWords [magicNumber, 0x00010000, 0, 5, 0, 0x00010000]).toOption.any
      (fun _ => true) = true := by decide +kernel
  obtain ⟨loaded, loads, -⟩ := exists_of_any loads
  have from_file := (ofBytes_exact.1 _ rfl).2.trans loads
  obtain ⟨written, again⟩ := ofBytes_exact.2.1 _ loaded from_file
  refine ⟨loaded, from_file, ?_, again⟩
  rcases written with ⟨plain, -⟩ | ⟨-, written⟩
  · exact absurd plain (by decide)
  · exact written

end Module

end ShaderMachine
