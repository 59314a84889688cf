import ShaderMachine.Proofs.LaneRoundTrip

/-! # Every lane at its place

Bytes hold one lane after the other, so a lane is found at its index without reading those in front
of it. What is computed lane by lane has at each index what comes of the lanes at that index, for
every operand, and there is a lane of every operand wherever there is one of the first.

* **`laneAt?`** — the lane at an index of some bytes.
* **`getElem?_decodeLanes`** — the lanes that are read are those at all indices, in order.
* **`Lane.IsMapped`** — what holds of reading, writing and computing with lanes of one width.
* **`isMapped_single_double`** — it holds of both widths. -/

namespace ShaderMachine

/-! ## Lanes at an index -/

/-- The lane at an index of some bytes, if all of it is there. -/
def laneAt? (α : Type) [Lane α] (bytes : Bytes) (index : ℕ) : Option α :=
  if (index + 1) * Lane.byteCount α ≤ bytes.length then
    some (Lane.read ((bytes.drop (index * Lane.byteCount α)).take (Lane.byteCount α)))
  else
    none

section

variable {α : Type} [Lane α]

/-- Lanes are read one after the other, each as far from the last one as a lane is long. -/
theorem readLanes_eq (read : List α) (count : ℕ) (bytes : Bytes) :
    readLanes read count bytes = read.reverse ++
      (List.range count).map fun index => Lane.read (bytes.drop (index * Lane.byteCount α)) := by
  induction count generalizing read bytes with
  | zero => rw [readLanes, List.range_zero, List.map_nil, List.append_nil]
  | succ count hyp =>
      have next_eq (index : ℕ) : (bytes.drop (Lane.byteCount α)).drop (index * Lane.byteCount α) =
          bytes.drop ((index + 1) * Lane.byteCount α) := by
        rw [List.drop_drop, Nat.succ_mul, Nat.add_comm]
      rw [readLanes, hyp, List.range_succ_eq_map, List.map_cons, List.map_map, List.reverse_cons,
        List.append_assoc, List.singleton_append, Nat.zero_mul, List.drop_zero]
      simp only [next_eq, Function.comp_def]

variable (lossless : Lane.IsLossless α)

include lossless

/-- A lane is read from its own bytes alone. -/
theorem read_take {bytes : Bytes} (enough : Lane.byteCount α ≤ bytes.length) :
    (Lane.read (bytes.take (Lane.byteCount α)) : α) = Lane.read bytes := by
  have written := lossless.write_read _ (List.length_take_of_le enough)
  have read := lossless.read_write (Lane.read (bytes.take (Lane.byteCount α)))
    (bytes.drop (Lane.byteCount α))
  rw [written, List.take_append_drop] at read
  exact read.symm

/-- The lanes that are read are those at all indices, in order. -/
theorem getElem?_decodeLanes (bytes : Bytes) (index : ℕ) :
    (decodeLanes bytes : List α)[index]? = laneAt? α bytes index := by
  have whole_iff : index < bytes.length / Lane.byteCount α ↔
      (index + 1) * Lane.byteCount α ≤ bytes.length := by
    rw [Nat.lt_iff_add_one_le, Nat.le_div_iff_mul_le lossless.positive]
  rw [decodeLanes, readLanes_eq, List.reverse_nil, List.nil_append, List.getElem?_map, laneAt?]
  split
  · rename_i whole
    have enough : Lane.byteCount α ≤ (bytes.drop (index * Lane.byteCount α)).length := by
      rw [Nat.succ_mul] at whole
      rw [List.length_drop]
      omega
    rw [List.getElem?_range (whole_iff.mpr whole), read_take lossless enough]
    rfl
  · rename_i partly
    rw [List.getElem?_eq_none
      (by rw [List.length_range]; exact Nat.not_lt.mp (mt whole_iff.mp partly))]
    rfl

/-- The lanes that were written are at their indices. -/
theorem laneAt?_encodeLanes (lanes : List α) (index : ℕ) :
    laneAt? α (encodeLanes lanes) index = lanes[index]? := by
  rw [← getElem?_decodeLanes lossless, decodeLanes_encodeLanes lossless]

/-- Bytes of whole lanes are written as they were read. -/
theorem encodeLanes_decodeLanes {bytes : Bytes} (whole : Lane.byteCount α ∣ bytes.length) :
    encodeLanes (decodeLanes bytes : List α) = bytes := by
  obtain ⟨lanes, rfl⟩ := (dvd_length_iff lossless).mp whole
  rw [decodeLanes_encodeLanes lossless]

/-- There are as many indices in the bytes of lanes as lanes. -/
theorem length_encodeLanes_div (lanes : List α) :
    (encodeLanes lanes).length / Lane.byteCount α = lanes.length := by
  rw [length_encodeLanes lossless.toIsSized, Nat.mul_div_cancel _ lossless.positive]

end

/-! ## Lane by lane -/

/-- Where the length of what is made is known in case something is, it is known when nothing is. -/
theorem eq_none_iff_of_length {made : Option Bytes} {fits : Prop} {length : ℕ}
    (length_iff : ∀ size, made.map List.length = some size ↔ fits ∧ length = size) :
    made = none ↔ ¬fits := by
  cases made with
  | none => exact iff_of_true rfl fun fit => nomatch (length_iff length).mpr ⟨fit, rfl⟩
  | some bytes =>
      refine iff_of_false nofun (not_not_intro ?_)
      exact ((length_iff bytes.length).mp rfl).1

section

variable {α : Type} [Lane α] (lossless : Lane.IsLossless α)

include lossless

/-- What comes of one operand lane by lane is as long, and has at every index what comes of the lane
there. -/
theorem lanes_of_map1 {f : α → α} {a made : Bytes} (computed : map1 f a = some made) :
    made.length = a.length ∧ ∀ index < a.length / Lane.byteCount α, ∃ x,
      laneAt? α a index = some x ∧ laneAt? α made index = some (f x) := by
  obtain ⟨xs, rfl, rfl⟩ := (map1_eq_some_iff lossless).mp computed
  refine ⟨(length_encodeLanes_inj lossless).mpr (List.length_map f), fun index there => ?_⟩
  rw [length_encodeLanes_div lossless] at there
  simp only [laneAt?_encodeLanes lossless, List.getElem?_map, List.getElem?_eq_getElem there]
  exact ⟨_, rfl, rfl⟩

/-- The same holds of two operands: both have a lane at every index of the first. -/
theorem lanes_of_map2 {f : α → α → α} {a b made : Bytes} (computed : map2 f a b = some made) :
    made.length = a.length ∧ ∀ index < a.length / Lane.byteCount α, ∃ x y,
      laneAt? α a index = some x ∧ laneAt? α b index = some y ∧
        laneAt? α made index = some (f x y) := by
  obtain ⟨xs, ys, ⟨rfl, rfl⟩, same, rfl⟩ := (map2_eq_some_iff lossless).mp computed
  refine ⟨(length_encodeLanes_inj lossless).mpr ?_, fun index there => ?_⟩
  · rw [List.length_zipWith, ← same, Nat.min_self]
  rw [length_encodeLanes_div lossless] at there
  simp only [laneAt?_encodeLanes lossless, List.getElem?_zipWith, List.getElem?_eq_getElem there,
    List.getElem?_eq_getElem (same ▸ there : index < ys.length)]
  exact ⟨_, _, rfl, rfl, rfl⟩

/-- The same holds of three operands. -/
theorem lanes_of_map3 {f : α → α → α → α} {a b c made : Bytes}
    (computed : map3 f a b c = some made) :
    made.length = a.length ∧ ∀ index < a.length / Lane.byteCount α, ∃ x y z,
      laneAt? α a index = some x ∧ laneAt? α b index = some y ∧ laneAt? α c index = some z ∧
        laneAt? α made index = some (f x y z) := by
  obtain ⟨xs, ys, zs, ⟨rfl, rfl, rfl⟩, ⟨same, same'⟩, rfl⟩ :=
    (map3_eq_some_iff lossless).mp computed
  refine ⟨(length_encodeLanes_inj lossless).mpr ?_, fun index there => ?_⟩
  · rw [List.length_zipWith, List.length_zipWith, ← same, ← same', Nat.min_self, Nat.min_self]
  rw [length_encodeLanes_div lossless] at there
  simp only [laneAt?_encodeLanes lossless, List.getElem?_zipWith, List.getElem?_eq_getElem there,
    List.getElem?_eq_getElem (same ▸ there : index < ys.length),
    List.getElem?_eq_getElem (same' ▸ there : index < zs.length)]
  exact ⟨_, _, _, rfl, rfl, rfl, rfl⟩

/-- Applying one function after another to every lane is applying their composition. -/
theorem map1_map1 (f g : α → α) (a : Bytes) : (map1 f a).bind (map1 g) = map1 (g ∘ f) a := by
  by_cases whole : Lane.byteCount α ∣ a.length
  · obtain ⟨xs, rfl⟩ := (dvd_length_iff lossless).mp whole
    have mapped (h : α → α) (ys : List α) :
        map1 h (encodeLanes ys) = some (encodeLanes (ys.map h)) :=
      (map1_eq_some_iff lossless).mpr ⟨ys, rfl, rfl⟩
    rw [mapped, mapped, Option.bind_some, mapped, List.map_map]
  · have nothing (h : α → α) : map1 h a = none :=
      (eq_none_iff_of_length (length_map1 lossless.toIsSized h a)).mpr whole
    rw [nothing, nothing, Option.bind_none]

end

/-! ## Both widths -/

/-- What holds of reading and writing lanes, and of computing lane by lane. -/
structure Lane.IsMapped (α : Type) [Lane α] : Prop where
  /-- The lanes that are read are the whole ones at all indices, in order. -/
  decode : ∀ (bytes : Bytes) (index : ℕ),
    (decodeLanes bytes : List α)[index]? = laneAt? α bytes index
  /-- Lanes are read as they were written. -/
  decode_encode : ∀ lanes : List α, decodeLanes (encodeLanes lanes) = lanes
  /-- Bytes of whole lanes are written as they were read. -/
  encode_decode : ∀ bytes : Bytes, Lane.byteCount α ∣ bytes.length →
    encodeLanes (decodeLanes bytes : List α) = bytes
  /-- Nothing comes of an operand that is no whole number of lanes, and of no other one. -/
  map1_none : ∀ (f : α → α) (a : Bytes), map1 f a = none ↔ ¬Lane.byteCount α ∣ a.length
  /-- Nothing comes of two operands if the first is no whole number of lanes or the second has
  another length, and of no other ones. -/
  map2_none : ∀ (f : α → α → α) (a b : Bytes),
    map2 f a b = none ↔ ¬Lane.byteCount α ∣ a.length ∨ a.length ≠ b.length
  /-- Nothing comes of three operands if the first is no whole number of lanes or another one has
  another length, and of no other ones. -/
  map3_none : ∀ (f : α → α → α → α) (a b c : Bytes),
    map3 f a b c = none ↔ ¬Lane.byteCount α ∣ a.length ∨ a.length ≠ b.length ∨ a.length ≠ c.length
  /-- What comes of one operand is as long, and every lane of it comes of the lane there. -/
  map1_some : ∀ (f : α → α) (a made : Bytes), map1 f a = some made →
    made.length = a.length ∧ ∀ index < a.length / Lane.byteCount α, ∃ x,
      laneAt? α a index = some x ∧ laneAt? α made index = some (f x)
  /-- What comes of two operands is as long, and every lane of it comes of the lanes there. -/
  map2_some : ∀ (f : α → α → α) (a b made : Bytes), map2 f a b = some made →
    made.length = a.length ∧ ∀ index < a.length / Lane.byteCount α, ∃ x y,
      laneAt? α a index = some x ∧ laneAt? α b index = some y ∧
        laneAt? α made index = some (f x y)
  /-- What comes of three operands is as long, and every lane of it comes of the lanes there. -/
  map3_some : ∀ (f : α → α → α → α) (a b c made : Bytes), map3 f a b c = some made →
    made.length = a.length ∧ ∀ index < a.length / Lane.byteCount α, ∃ x y z,
      laneAt? α a index = some x ∧ laneAt? α b index = some y ∧ laneAt? α c index = some z ∧
        laneAt? α made index = some (f x y z)
  /-- One function after another is their composition. -/
  map1_map1 : ∀ (f g : α → α) (a : Bytes), (map1 f a).bind (map1 g) = map1 (g ∘ f) a

/-- Lanes that lose nothing are mapped lane by lane. -/
theorem Lane.IsLossless.isMapped {α : Type} [Lane α] (lossless : Lane.IsLossless α) :
    Lane.IsMapped α where
  decode := getElem?_decodeLanes lossless
  decode_encode := decodeLanes_encodeLanes lossless
  encode_decode _ := encodeLanes_decodeLanes lossless
  map1_none f a := eq_none_iff_of_length (length_map1 lossless.toIsSized f a)
  map2_none f a b := by
    have length_iff := length_map2 lossless.toIsSized f a b
    simp only [← and_assoc] at length_iff
    rw [eq_none_iff_of_length length_iff, not_and_or, or_comm]
  map3_none f a b c := by
    have length_iff := length_map3 lossless.toIsSized f a b c
    simp only [← and_assoc] at length_iff
    rw [eq_none_iff_of_length length_iff, not_and_or, not_and_or, or_comm]
  map1_some _ _ _ := lanes_of_map1 lossless
  map2_some _ _ _ _ := lanes_of_map2 lossless
  map3_some _ _ _ _ _ := lanes_of_map3 lossless
  map1_map1 := map1_map1 lossless

/-- Lanes of either width are read as they were written, and are mapped lane by lane. -/
theorem isMapped_single_double : Lane.IsMapped Single ∧ Lane.IsMapped Double :=
  ⟨Single.isLossless.isMapped, Double.isLossless.isMapped⟩

end ShaderMachine
