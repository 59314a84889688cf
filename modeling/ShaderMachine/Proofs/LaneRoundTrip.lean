import ShaderMachine.Proofs.LaneShapes

/-! # Lanes are read as they were written

A value that is a whole number of lanes loses nothing when its lanes are read, and lanes lose
nothing when they are written. So what comes of float operands depends on their lanes alone, and
what was computed lane by lane may be computed with again as if it had never been bytes.

* **`Lane.IsLossless`** — lanes are read as they were written, and the other way round.
* **`dvd_length_iff`** — the bytes of whole lanes are what lanes are written to.
* **`map1_eq_some_iff`** and its like — what comes of the bytes of lanes, lane by lane.
* **`FloatOperation.run_distance`** and its like — what comes of them in the other forms. -/

namespace ShaderMachine

/-! ## One lane -/

/-- Whether lanes are read as they were written, and bytes are written as they were read. -/
structure Lane.IsLossless (α : Type) [Lane α] : Prop extends Lane.IsSized α where
  /-- A lane is read from what it was written to, whatever follows. -/
  read_write : ∀ (lane : α) (rest : Bytes), Lane.read (Lane.write lane ++ rest) = lane
  /-- The bytes of one lane are written as they were read. -/
  write_read : ∀ bytes : Bytes, bytes.length = Lane.byteCount α →
    Lane.write (Lane.read bytes : α) = bytes

/-- Nothing is lost of a single. -/
theorem Single.isLossless : Lane.IsLossless Single where
  toIsSized := Single.isSized
  read_write lane rest := by
    obtain ⟨b₀, b₁, b₂, b₃, bytes_eq, word_eq⟩ := Word.exists_bytes lane.bits
    change Single.read (Word.bytes lane.bits ++ rest) = lane
    rw [bytes_eq]
    exact congrArg Single.mk word_eq
  write_read bytes length_eq := by
    match bytes, length_eq with
    | [b₀, b₁, b₂, b₃], _ => exact Word.bytes_ofBytes b₀ b₁ b₂ b₃

/-- Nothing is lost of a double. -/
theorem Double.isLossless : Lane.IsLossless Double where
  toIsSized := Double.isSized
  read_write lane rest := by
    obtain ⟨b₀, b₁, b₂, b₃, low_eq, low⟩ := Word.exists_bytes (UInt32.ofNat lane.bits.toNat)
    obtain ⟨b₄, b₅, b₆, b₇, high_eq, high⟩ :=
      Word.exists_bytes (UInt32.ofNat (lane.bits.toNat / 4294967296))
    change Double.read (Word.bytes _ ++ Word.bytes _ ++ rest) = lane
    rw [low_eq, high_eq]
    refine congrArg Double.mk ?_
    have bits_lt := lane.bits.toNat_lt
    rw [low, high, ← UInt64.toNat_inj, UInt64.toNat_ofNat', UInt32.toNat_ofNat',
      UInt32.toNat_ofNat']
    omega
  write_read bytes length_eq := by
    match bytes, length_eq with
    | [b₀, b₁, b₂, b₃, b₄, b₅, b₆, b₇], _ =>
        have low_lt := (Word.ofBytes b₀ b₁ b₂ b₃).toNat_lt
        have high_lt := (Word.ofBytes b₄ b₅ b₆ b₇).toNat_lt
        have low := Word.bytes_ofBytes b₀ b₁ b₂ b₃
        have high := Word.bytes_ofBytes b₄ b₅ b₆ b₇
        change Word.bytes (UInt32.ofNat (UInt64.ofNat _).toNat) ++
          Word.bytes (UInt32.ofNat ((UInt64.ofNat _).toNat / 4294967296)) = _
        generalize Word.ofBytes b₀ b₁ b₂ b₃ = first at *
        generalize Word.ofBytes b₄ b₅ b₆ b₇ = second at *
        -- The two words make up 64 bits, of which they are the halves.
        have bits_eq : (UInt64.ofNat (first.toNat + 4294967296 * second.toNat)).toNat =
            first.toNat + 4294967296 * second.toNat := UInt64.toNat_ofNat_of_lt' (by
          change _ < 18446744073709551616
          omega)
        have first_eq : UInt32.ofNat (first.toNat + 4294967296 * second.toNat) = first := by
          rw [← UInt32.toNat_inj, UInt32.toNat_ofNat']
          omega
        have second_eq :
            UInt32.ofNat ((first.toNat + 4294967296 * second.toNat) / 4294967296) = second := by
          rw [← UInt32.toNat_inj, UInt32.toNat_ofNat']
          omega
        rw [bits_eq, first_eq, second_eq, low, high]
        rfl

/-! ## Lanes one after the other -/

section

variable {α : Type} [Lane α]

/-- One lane is written as such. -/
theorem encodeLanes_singleton (lane : α) : encodeLanes [lane] = Lane.write lane :=
  List.append_nil _

variable (lossless : Lane.IsLossless α)

include lossless

/-- Lanes are read as they were written, one after the other. -/
theorem readLanes_encodeLanes (read lanes : List α) :
    readLanes read lanes.length (encodeLanes lanes) = read.reverse ++ lanes := by
  induction lanes generalizing read with
  | nil => rw [List.length_nil, readLanes, List.append_nil]
  | cons lane lanes hyp =>
      have written : encodeLanes (lane :: lanes) = Lane.write lane ++ encodeLanes lanes := rfl
      rw [List.length_cons, readLanes, written, lossless.read_write, ← lossless.write lane,
        List.drop_left, hyp, List.reverse_cons, List.append_assoc, List.singleton_append]

/-- Lanes are read as they were written. -/
theorem decodeLanes_encodeLanes (lanes : List α) : decodeLanes (encodeLanes lanes) = lanes := by
  rw [decodeLanes, length_encodeLanes lossless.toIsSized,
    Nat.mul_div_cancel _ lossless.positive, readLanes_encodeLanes lossless]
  rfl

/-- Lanes that are written alike are the same. -/
theorem encodeLanes_inj {first second : List α} :
    encodeLanes first = encodeLanes second ↔ first = second := by
  refine ⟨fun same => ?_, congrArg encodeLanes⟩
  rw [← decodeLanes_encodeLanes lossless first, same, decodeLanes_encodeLanes lossless]

/-- Lanes are written to as many bytes as other ones if there are as many of them. -/
theorem length_encodeLanes_inj {first second : List α} :
    (encodeLanes first).length = (encodeLanes second).length ↔ first.length = second.length := by
  rw [length_encodeLanes lossless.toIsSized, length_encodeLanes lossless.toIsSized,
    Nat.mul_left_inj (Nat.ne_of_gt lossless.positive)]

/-- The bytes of whole lanes are what lanes are written to. -/
theorem dvd_length_iff {bytes : Bytes} :
    Lane.byteCount α ∣ bytes.length ↔ ∃ lanes : List α, bytes = encodeLanes lanes := by
  constructor
  · rintro ⟨count, length_eq⟩
    induction count generalizing bytes with
    | zero => exact ⟨[], List.length_eq_zero_iff.mp length_eq⟩
    | succ count hyp =>
        rw [Nat.mul_succ] at length_eq
        obtain ⟨lanes, rest_eq⟩ := @hyp (bytes.drop (Lane.byteCount α)) (by
          rw [List.length_drop, length_eq, Nat.add_sub_cancel])
        have first_eq := lossless.write_read (bytes.take (Lane.byteCount α)) (by
          rw [List.length_take, length_eq]
          exact Nat.min_eq_left (Nat.le_add_left _ _))
        refine ⟨Lane.read (bytes.take (Lane.byteCount α)) :: lanes, ?_⟩
        change bytes = Lane.write _ ++ encodeLanes lanes
        rw [first_eq, ← rest_eq, List.take_append_drop]
  · rintro ⟨lanes, rfl⟩
    exact ⟨lanes.length, (length_encodeLanes lossless.toIsSized lanes).trans (Nat.mul_comm _ _)⟩

/-- What is made of the bytes of whole lanes is made of what lanes are written to. -/
theorem map_laneCount?_eq_some_iff {bytes : Bytes} {make : Nat → Bytes} {made : Bytes} :
    (laneCount? α bytes).map make = some made ↔
      (∃ lanes : List α, bytes = encodeLanes lanes) ∧
        make (bytes.length / Lane.byteCount α) = made := by
  rw [← dvd_length_iff lossless, laneCount?, Nat.dvd_iff_mod_eq_zero]
  split
  · rename_i whole
    rw [Option.map_some, Option.some.injEq, and_iff_right whole]
  · rename_i partly
    exact iff_of_false (by simp) fun made => partly made.1

/-- What comes of one operand lane by lane. -/
theorem map1_eq_some_iff {f : α → α} {a made : Bytes} : map1 f a = some made ↔
    ∃ xs, a = encodeLanes xs ∧ made = encodeLanes (xs.map f) := by
  rw [map1, map_laneCount?_eq_some_iff lossless]
  constructor
  · rintro ⟨⟨xs, rfl⟩, rfl⟩
    exact ⟨xs, rfl, by rw [decodeLanes_encodeLanes lossless]⟩
  · rintro ⟨xs, rfl, rfl⟩
    exact ⟨⟨xs, rfl⟩, by rw [decodeLanes_encodeLanes lossless]⟩

/-- What comes of two operands lane by lane. -/
theorem map2_eq_some_iff {f : α → α → α} {a b made : Bytes} : map2 f a b = some made ↔
    ∃ xs ys, (a = encodeLanes xs ∧ b = encodeLanes ys) ∧ xs.length = ys.length ∧
      made = encodeLanes (List.zipWith f xs ys) := by
  rw [map2]
  constructor
  · intro computed
    split at computed
    · rename_i same
      obtain ⟨whole, rfl⟩ := (map_laneCount?_eq_some_iff lossless).mp computed
      obtain ⟨xs, rfl⟩ := whole
      obtain ⟨ys, rfl⟩ := (dvd_length_iff lossless).mp
        (same ▸ (dvd_length_iff lossless).mpr ⟨xs, rfl⟩)
      refine ⟨xs, ys, ⟨rfl, rfl⟩, (length_encodeLanes_inj lossless).mp same, ?_⟩
      rw [decodeLanes_encodeLanes lossless, decodeLanes_encodeLanes lossless]
    · cases computed
  · rintro ⟨xs, ys, ⟨rfl, rfl⟩, same, rfl⟩
    rw [if_pos ((length_encodeLanes_inj lossless).mpr same), map_laneCount?_eq_some_iff lossless,
      decodeLanes_encodeLanes lossless, decodeLanes_encodeLanes lossless]
    exact ⟨⟨xs, rfl⟩, rfl⟩

/-- What comes of three operands lane by lane. -/
theorem map3_eq_some_iff {f : α → α → α → α} {a b c made : Bytes} : map3 f a b c = some made ↔
    ∃ xs ys zs, (a = encodeLanes xs ∧ b = encodeLanes ys ∧ c = encodeLanes zs) ∧
      (xs.length = ys.length ∧ xs.length = zs.length) ∧
      made = encodeLanes (List.zipWith (fun g z => g z) (List.zipWith f xs ys) zs) := by
  rw [map3]
  constructor
  · intro computed
    split at computed
    · rename_i same
      obtain ⟨⟨xs, rfl⟩, rfl⟩ := (map_laneCount?_eq_some_iff lossless).mp computed
      have whole := (dvd_length_iff lossless).mpr ⟨xs, rfl⟩
      obtain ⟨ys, rfl⟩ := (dvd_length_iff lossless).mp (same.1 ▸ whole)
      obtain ⟨zs, rfl⟩ := (dvd_length_iff lossless).mp (same.2 ▸ whole)
      rw [length_encodeLanes_inj lossless, length_encodeLanes_inj lossless] at same
      refine ⟨xs, ys, zs, ⟨rfl, rfl, rfl⟩, same, ?_⟩
      simp only [decodeLanes_encodeLanes lossless]
    · cases computed
  · rintro ⟨xs, ys, zs, ⟨rfl, rfl, rfl⟩, same, rfl⟩
    have equal := same.imp (length_encodeLanes_inj lossless).mpr
      (length_encodeLanes_inj lossless).mpr
    rw [if_pos equal, map_laneCount?_eq_some_iff lossless, decodeLanes_encodeLanes lossless,
      decodeLanes_encodeLanes lossless, decodeLanes_encodeLanes lossless]
    exact ⟨⟨xs, rfl⟩, rfl⟩

/-! ## Other forms -/

/-- One lane of bytes is what a lane is written to. -/
theorem scalarLane?_eq_some_iff {bytes : Bytes} {lane : α} :
    scalarLane? bytes = some lane ↔ bytes = encodeLanes [lane] := by
  rw [scalarLane?, encodeLanes_singleton]
  constructor
  · intro read
    split at read
    · rename_i one
      cases read
      exact (lossless.write_read bytes one).symm
    · cases read
  · rintro rfl
    have read := lossless.read_write lane []
    rw [List.append_nil] at read
    rw [if_pos (lossless.write lane), read]

namespace FloatOperation

variable {x y made : Bytes}

/-- What comes of a vector and a scalar. -/
theorem run_scale : scale.run α [x, y] = some made ↔
    ∃ (xs : List α) (factor : α), (x = encodeLanes xs ∧ y = encodeLanes [factor]) ∧
      made = encodeLanes (xs.map (Lane.mul · factor)) := by
  simp only [scale, Option.bind_eq_some_iff, scalarLane?_eq_some_iff lossless,
    map1_eq_some_iff lossless]
  constructor
  · rintro ⟨factor, rfl, xs, rfl, rfl⟩
    exact ⟨xs, factor, ⟨rfl, rfl⟩, rfl⟩
  · rintro ⟨xs, factor, ⟨rfl, rfl⟩, rfl⟩
    exact ⟨factor, rfl, xs, rfl, rfl⟩

/-- What comes of a dot product. -/
theorem run_dot : dot.run α [x, y] = some made ↔
    ∃ xs ys : List α, (x = encodeLanes xs ∧ y = encodeLanes ys) ∧ xs.length = ys.length ∧
      made = encodeLanes [dotLanes xs ys] := by
  simp only [dot, laneCount?_isSome, encodeLanes_singleton]
  constructor
  · intro computed
    split at computed
    · rename_i fits
      obtain ⟨same, whole⟩ := fits
      obtain ⟨xs, rfl⟩ := (dvd_length_iff lossless).mp whole
      obtain ⟨ys, rfl⟩ := (dvd_length_iff lossless).mp (same ▸ whole)
      rw [decodeLanes_encodeLanes lossless, decodeLanes_encodeLanes lossless] at computed
      exact ⟨xs, ys, ⟨rfl, rfl⟩, (length_encodeLanes_inj lossless).mp same,
        (Option.some.inj computed).symm⟩
    · cases computed
  · rintro ⟨xs, ys, ⟨rfl, rfl⟩, same, rfl⟩
    rw [if_pos ⟨(length_encodeLanes_inj lossless).mpr same,
      (dvd_length_iff lossless).mpr ⟨xs, rfl⟩⟩, decodeLanes_encodeLanes lossless,
      decodeLanes_encodeLanes lossless]

/-- What comes of a length. -/
theorem run_length : length.run α [x] = some made ↔
    ∃ xs : List α, x = encodeLanes xs ∧ made = encodeLanes [lengthLanes xs] := by
  simp only [length, map_laneCount?_eq_some_iff lossless, encodeLanes_singleton]
  constructor
  · rintro ⟨⟨xs, rfl⟩, rfl⟩
    exact ⟨xs, rfl, by rw [decodeLanes_encodeLanes lossless]⟩
  · rintro ⟨xs, rfl, rfl⟩
    exact ⟨⟨xs, rfl⟩, by rw [decodeLanes_encodeLanes lossless]⟩

/-- What comes of a distance. -/
theorem run_distance : distance.run α [x, y] = some made ↔
    ∃ xs ys : List α, (x = encodeLanes xs ∧ y = encodeLanes ys) ∧ xs.length = ys.length ∧
      made = encodeLanes [lengthLanes (List.zipWith Lane.sub xs ys)] := by
  simp only [distance, Option.map_eq_some_iff, map2_eq_some_iff lossless, encodeLanes_singleton]
  constructor
  · rintro ⟨difference, ⟨xs, ys, are, same, rfl⟩, rfl⟩
    exact ⟨xs, ys, are, same, by rw [decodeLanes_encodeLanes lossless]⟩
  · rintro ⟨xs, ys, are, same, rfl⟩
    exact ⟨_, ⟨xs, ys, are, same, rfl⟩, by rw [decodeLanes_encodeLanes lossless]⟩

/-- What comes of a vector that is brought to length one. -/
theorem run_normalize : normalize.run α [x] = some made ↔
    ∃ xs : List α, x = encodeLanes xs ∧
      made = encodeLanes (xs.map (Lane.div · (lengthLanes xs))) := by
  simp only [normalize, map1_eq_some_iff lossless]
  refine exists_congr fun xs => and_congr_right ?_
  rintro rfl
  rw [decodeLanes_encodeLanes lossless]

end FloatOperation

end

end ShaderMachine
