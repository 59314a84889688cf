import Mathlib.Data.List.Zip
import ShaderMachine.Proofs.FloatCode

/-! # What float code makes of lanes

Lines of float code read values and give one. Of values that are lanes they make lanes, and what one
line wrote another one reads as it was, so code on floats is code on lanes.

* **`Holds`** — the lanes that an ID stands for, and **`Made`**, those of a value that is given.
* **`value?_map1`** and its like — what a line makes of lanes.
* **`finalValue?_clamp`** and its like — code that makes the same lanes as one line does. -/

namespace ShaderMachine

/-! ## Lanes of values -/

section

variable {α : Type} [Lane α] {sizes : Id → Option Nat} {values : Id → Option Value}

/-- Whether an ID stands for the bytes of lanes. -/
def Holds (values : Id → Option Value) (id : Id) (xs : List α) : Prop :=
  (values id).map Value.bytes = some (encodeLanes xs)

/-- Whether a value is that of lanes, and has the size of its type. -/
def Made (sizes : Id → Option Nat) (type : Id) (xs : List α) (value : Value) : Prop :=
  value = ⟨type, encodeLanes xs⟩ ∧ sizes type = some (encodeLanes xs).length

/-- An ID that is given a value of lanes stands for them and for no others. -/
theorem holds_update_self (lossless : Lane.IsLossless α) {id type : Id} {xs ys : List α} :
    Holds (Function.update values id (some ⟨type, encodeLanes xs⟩)) id ys ↔ xs = ys := by
  rw [Holds, Function.update_self, Option.map_some, Option.some.injEq, encodeLanes_inj lossless]

/-- Other IDs stand for the same lanes. -/
theorem holds_update_of_ne {id other : Id} {stored : Option Value} {xs : List α}
    (different : other ≠ id) :
    Holds (Function.update values id stored) other xs ↔ Holds values other xs := by
  rw [Holds, Holds, Function.update_of_ne different]

/-- An ID stands for no other lanes than it does. -/
theorem Holds.unique (lossless : Lane.IsLossless α) {id : Id} {xs ys : List α}
    (holds : Holds values id xs) (holds' : Holds values id ys) : xs = ys :=
  (encodeLanes_inj lossless).mp (Option.some.inj (holds.symm.trans holds'))

variable {name : FloatName} {type result x y z : Id} {value : Value}

/-- A line of which only lanes come gives a value of lanes. -/
theorem value?_of_bytes {line : FloatLine} {comes : List α → Prop}
    (bytes_iff : ∀ made, line.bytes? α values = some made ↔
      ∃ xs, comes xs ∧ made = encodeLanes xs) :
    line.value? α sizes values = some value ↔ ∃ xs, comes xs ∧ Made sizes line.type xs value := by
  obtain ⟨type, bytes⟩ := value
  rw [FloatLine.value?_eq_some_iff, bytes_iff]
  constructor
  · rintro ⟨rfl, ⟨xs, come, rfl⟩, size⟩
    exact ⟨xs, come, rfl, size⟩
  · rintro ⟨xs, come, is, size⟩
    cases is
    exact ⟨rfl, ⟨xs, come, rfl⟩, size⟩

/-- What a line with one operand gives. -/
theorem value?_one {make : List α → List α}
    (run_iff : ∀ a made, name.run α [a] = some made ↔
      ∃ xs, a = encodeLanes xs ∧ made = encodeLanes (make xs)) :
    (FloatLine.mk name type result [x]).value? α sizes values = some value ↔
      ∃ xs, Holds values x xs ∧ Made sizes type (make xs) value := by
  have bytes_iff (made : Bytes) :
      (FloatLine.mk name type result [x]).bytes? α values = some made ↔
        ∃ zs, (∃ xs, Holds values x xs ∧ zs = make xs) ∧ made = encodeLanes zs := by
    simp only [FloatLine.bytes?, List.mapM_cons, List.mapM_nil, Holds]
    cases values x <;> simp [run_iff]
  rw [value?_of_bytes bytes_iff]
  constructor
  · rintro ⟨_, ⟨xs, holds, rfl⟩, made⟩
    exact ⟨xs, holds, made⟩
  · rintro ⟨xs, holds, made⟩
    exact ⟨_, ⟨xs, holds, rfl⟩, made⟩

/-- What a line with two operands gives. -/
theorem value?_two {fits : List α → List α → Prop} {make : List α → List α → List α}
    (run_iff : ∀ a b made, name.run α [a, b] = some made ↔
      ∃ xs ys, (a = encodeLanes xs ∧ b = encodeLanes ys) ∧ fits xs ys ∧
        made = encodeLanes (make xs ys)) :
    (FloatLine.mk name type result [x, y]).value? α sizes values = some value ↔
      ∃ xs ys, (Holds values x xs ∧ Holds values y ys) ∧ fits xs ys ∧
        Made sizes type (make xs ys) value := by
  have bytes_iff (made : Bytes) :
      (FloatLine.mk name type result [x, y]).bytes? α values = some made ↔
        ∃ zs, (∃ xs ys, (Holds values x xs ∧ Holds values y ys) ∧ fits xs ys ∧
          zs = make xs ys) ∧ made = encodeLanes zs := by
    simp only [FloatLine.bytes?, List.mapM_cons, List.mapM_nil, Holds]
    cases values x <;> cases values y <;> simp [run_iff, and_assoc]
  rw [value?_of_bytes bytes_iff]
  constructor
  · rintro ⟨_, ⟨xs, ys, hold, fit, rfl⟩, made⟩
    exact ⟨xs, ys, hold, fit, made⟩
  · rintro ⟨xs, ys, hold, fit, made⟩
    exact ⟨_, ⟨xs, ys, hold, fit, rfl⟩, made⟩

/-- What a line with three operands gives. -/
theorem value?_three {fits : List α → List α → List α → Prop}
    {make : List α → List α → List α → List α}
    (run_iff : ∀ a b c made, name.run α [a, b, c] = some made ↔
      ∃ xs ys zs, (a = encodeLanes xs ∧ b = encodeLanes ys ∧ c = encodeLanes zs) ∧
        fits xs ys zs ∧ made = encodeLanes (make xs ys zs)) :
    (FloatLine.mk name type result [x, y, z]).value? α sizes values = some value ↔
      ∃ xs ys zs, (Holds values x xs ∧ Holds values y ys ∧ Holds values z zs) ∧ fits xs ys zs ∧
        Made sizes type (make xs ys zs) value := by
  have bytes_iff (made : Bytes) :
      (FloatLine.mk name type result [x, y, z]).bytes? α values = some made ↔
        ∃ us, (∃ xs ys zs, (Holds values x xs ∧ Holds values y ys ∧ Holds values z zs) ∧
          fits xs ys zs ∧ us = make xs ys zs) ∧ made = encodeLanes us := by
    simp only [FloatLine.bytes?, List.mapM_cons, List.mapM_nil, Holds]
    cases values x <;> cases values y <;> cases values z <;> simp [run_iff, and_assoc]
  rw [value?_of_bytes bytes_iff]
  constructor
  · rintro ⟨_, ⟨xs, ys, zs, hold, fit, rfl⟩, made⟩
    exact ⟨xs, ys, zs, hold, fit, made⟩
  · rintro ⟨xs, ys, zs, hold, fit, made⟩
    exact ⟨_, ⟨xs, ys, zs, hold, fit, rfl⟩, made⟩

/-! ## Expansions -/

/-- As many lanes come of equally many ones. -/
theorem length_zipWith_same {β γ δ : Type} (f : β → γ → δ) {us : List β} {vs : List γ} {count : Nat}
    (us_length : us.length = count) (vs_length : vs.length = count) :
    (List.zipWith f us vs).length = count := by
  rw [List.length_zipWith, us_length, vs_length, Nat.min_self]

/-- Copies are found if the one is. -/
theorem mapM_replicate {β γ : Type} (find : β → Option γ) (one : β) {count : Nat}
    (positive : 0 < count) :
    (List.replicate count one).mapM find = (find one).map (List.replicate count) := by
  induction count, positive using Nat.le_induction with
  | base => cases found : find one <;> simp [found]
  | succ count positive hyp =>
      rw [List.replicate_succ, List.mapM_cons, hyp]
      cases find one <;> rfl

/-- One operand common to all lanes counts as copies of it. -/
theorem map_eq_zipWith_replicate {β γ δ : Type} (f : β → γ → δ) (us : List β) (common : γ) :
    us.map (f · common) = List.zipWith f us (List.replicate us.length common) := by
  rw [← List.map_const', List.zipWith_map_right, List.zipWith_self]

/-- A blend of lanes is made in four steps over all of them. -/
theorem zipWith_laneMix (xs ys weights : List α) :
    List.zipWith (fun g z => g z) (List.zipWith laneMix xs ys) weights =
      List.zipWith Lane.add (List.zipWith Lane.mul xs
          (List.zipWith Lane.sub (List.replicate weights.length Lane.one) weights))
        (List.zipWith Lane.mul ys weights) := by
  induction xs generalizing ys weights with
  | nil => rfl
  | cons x xs hyp =>
      cases ys with
      | nil => cases weights <;> rfl
      | cons y ys =>
          cases weights with
          | nil => rfl
          | cons weight weights => exact congrArg (_ :: ·) (hyp ys weights)

section

variable (lossless : Lane.IsLossless α)

include lossless

/-- What one operand gives lane by lane. -/
theorem value?_map1 (name : FloatName) (f : α → α) (runs : ∀ a, name.run α [a] = map1 f a) :
    (FloatLine.mk name type result [x]).value? α sizes values = some value ↔
      ∃ xs, Holds values x xs ∧ Made sizes type (xs.map f) value :=
  value?_one fun a _ => runs a ▸ map1_eq_some_iff lossless

/-- What two operands give lane by lane. -/
theorem value?_map2 (name : FloatName) (f : α → α → α)
    (runs : ∀ a b, name.run α [a, b] = map2 f a b) :
    (FloatLine.mk name type result [x, y]).value? α sizes values = some value ↔
      ∃ xs ys, (Holds values x xs ∧ Holds values y ys) ∧ xs.length = ys.length ∧
        Made sizes type (List.zipWith f xs ys) value :=
  value?_two fun a b _ => runs a b ▸ map2_eq_some_iff lossless

/-- What three operands give lane by lane. -/
theorem value?_map3 (name : FloatName) (f : α → α → α → α)
    (runs : ∀ a b c, name.run α [a, b, c] = map3 f a b c) :
    (FloatLine.mk name type result [x, y, z]).value? α sizes values = some value ↔
      ∃ xs ys zs, (Holds values x xs ∧ Holds values y ys ∧ Holds values z zs) ∧
        (xs.length = ys.length ∧ xs.length = zs.length) ∧
        Made sizes type (List.zipWith (fun g z => g z) (List.zipWith f xs ys) zs) value :=
  value?_three fun a b c _ => runs a b c ▸ map3_eq_some_iff lossless

/-- What a vector and a scalar give. -/
theorem value?_scale :
    (FloatLine.mk (.core .vectorTimesScalar) type result [x, y]).value? α sizes values =
      some value ↔ ∃ (xs : List α) (factor : α), (Holds values x xs ∧ Holds values y [factor]) ∧
        Made sizes type (xs.map (Lane.mul · factor)) value := by
  have bytes_iff (made : Bytes) :
      (FloatLine.mk (.core .vectorTimesScalar) type result [x, y]).bytes? α values = some made ↔
        ∃ zs, (∃ (xs : List α) (factor : α), (Holds values x xs ∧ Holds values y [factor]) ∧
          zs = xs.map (Lane.mul · factor)) ∧ made = encodeLanes zs := by
    have run_iff (a b : Bytes) :
        (FloatName.core .vectorTimesScalar).run α [a, b] = some made ↔ _ :=
      FloatOperation.run_scale lossless
    simp only [FloatLine.bytes?, List.mapM_cons, List.mapM_nil, Holds]
    cases values x <;> cases values y <;> simp [run_iff, and_assoc]
  rw [value?_of_bytes bytes_iff]
  constructor
  · rintro ⟨_, ⟨xs, factor, hold, rfl⟩, made⟩
    exact ⟨xs, factor, hold, made⟩
  · rintro ⟨xs, factor, hold, made⟩
    exact ⟨_, ⟨xs, factor, hold, rfl⟩, made⟩

/-- What a dot product gives. -/
theorem value?_dot : (FloatLine.mk (.core .dot) type result [x, y]).value? α sizes values =
      some value ↔ ∃ xs ys : List α, (Holds values x xs ∧ Holds values y ys) ∧
        xs.length = ys.length ∧ Made sizes type [dotLanes xs ys] value :=
  value?_two fun _ _ _ => FloatOperation.run_dot lossless

/-- What a length gives. -/
theorem value?_length : (FloatLine.mk (.extended .length) type result [x]).value? α sizes values =
      some value ↔ ∃ xs : List α, Holds values x xs ∧ Made sizes type [lengthLanes xs] value :=
  value?_one fun _ _ => FloatOperation.run_length lossless

/-- What a distance gives. -/
theorem value?_distance :
    (FloatLine.mk (.extended .distance) type result [x, y]).value? α sizes values =
      some value ↔ ∃ xs ys : List α, (Holds values x xs ∧ Holds values y ys) ∧
        xs.length = ys.length ∧ Made sizes type [lengthLanes (List.zipWith Lane.sub xs ys)] value :=
  value?_two fun _ _ _ => FloatOperation.run_distance lossless

/-- What a vector gives that is brought to length one. -/
theorem value?_normalize :
    (FloatLine.mk (.extended .normalize) type result [x]).value? α sizes values =
      some value ↔ ∃ xs : List α, Holds values x xs ∧
        Made sizes type (xs.map (Lane.div · (lengthLanes xs))) value :=
  value?_one fun _ _ => FloatOperation.run_normalize lossless

/-- What copies of one operand give, if they make up as many lanes. -/
theorem value?_splat {count : Nat} (positive : 0 < count)
    (size : sizes type = some (count * Lane.byteCount α)) :
    (FloatLine.mk .construct type result (List.replicate count x)).value? α sizes values =
      some value ↔ ∃ factor : α, Holds values x [factor] ∧
        Made sizes type (List.replicate count factor) value := by
  have encode_replicate (factor : α) : encodeLanes (List.replicate count factor) =
      (List.replicate count (encodeLanes [factor])).flatten := by
    rw [encodeLanes_singleton, encodeLanes, List.flatMap_def, List.map_replicate]
  have bytes_eq : (FloatLine.mk .construct type result (List.replicate count x)).bytes? α values =
      (values x).map fun a => (List.replicate count a.bytes).flatten := by
    rw [FloatLine.bytes?, mapM_replicate values x positive]
    cases values x <;> simp [FloatName.run]
  obtain ⟨type', bytes⟩ := value
  rw [FloatLine.value?_eq_some_iff, bytes_eq]
  simp only [Holds, Made, encode_replicate, Option.map_eq_some_iff, Value.mk.injEq]
  constructor
  · rintro ⟨rfl, ⟨a, is_x, rfl⟩, bytes_size⟩
    -- The copies have the size of as many lanes, so each of them is one lane.
    have lane_size : a.bytes.length = Lane.byteCount α := by
      have sizes_eq := Option.some.inj (bytes_size.symm.trans size)
      rw [List.length_flatten, List.map_replicate, List.sum_replicate_nat] at sizes_eq
      exact Nat.eq_of_mul_eq_mul_left positive sizes_eq
    have lane_eq : a.bytes = encodeLanes [(Lane.read a.bytes : α)] := by
      rw [encodeLanes_singleton, lossless.write_read a.bytes lane_size]
    refine ⟨Lane.read a.bytes, ⟨a, is_x, lane_eq⟩, ⟨rfl, ?_⟩, ?_⟩
    · rw [← lane_eq]
    · rw [← lane_eq]
      exact bytes_size
  · rintro ⟨factor, ⟨a, is_x, lane_eq⟩, ⟨rfl, rfl⟩, bytes_size⟩
    exact ⟨rfl, ⟨a, is_x, lane_eq ▸ rfl⟩, bytes_size⟩

/-- Lanes have the size of a type if as many other ones do that have the same size. -/
theorem Made.size {xs : List α} {other : Id} (made : Made sizes type xs value)
    (same : sizes other = sizes type) (ys : List α) (same_length : ys.length = xs.length) :
    sizes other = some (encodeLanes ys).length := by
  rw [same, made.2, (length_encodeLanes_inj lossless).mpr same_length]

/-- A type of the size of some lanes has values of as many. -/
theorem Made.length_eq {xs : List α} {count : Nat} (made : Made sizes type xs value)
    (size : sizes type = some (count * Lane.byteCount α)) : xs.length = count := by
  have length_eq := Option.some.inj (made.2.symm.trans size)
  rw [length_encodeLanes lossless.toIsSized] at length_eq
  exact Nat.eq_of_mul_eq_mul_right lossless.positive length_eq

variable {t : Id}

/-- A value is moved into an interval from below, then from above. -/
theorem finalValue?_clamp {scratch low high : Id} (same : sizes scratch = sizes type)
    (apart : high ≠ t) :
    finalValue? α sizes values [⟨.extended .fMax, scratch, t, [x, low]⟩,
        ⟨.extended .fMin, type, result, [t, high]⟩] =
      (FloatLine.mk (.extended .fClamp) type result [x, low, high]).value? α sizes values := by
  have lanes_eq (xs lows highs : List α) :
      List.zipWith (fun g z => g z) (List.zipWith laneClamp xs lows) highs =
        List.zipWith laneMin (List.zipWith laneMax xs lows) highs := by
    rw [List.zipWith_zipWith_left, List.zipWith_zipWith_left]
    rfl
  refine Option.ext fun value => ?_
  simp only [finalValue?, Option.bind_eq_some_iff,
    value?_map2 lossless (.extended .fMax) laneMax fun _ _ => rfl,
    value?_map2 lossless (.extended .fMin) laneMin fun _ _ => rfl,
    value?_map3 lossless (.extended .fClamp) laneClamp fun _ _ _ => rfl, lanes_eq]
  constructor
  · rintro ⟨_, ⟨xs, lows, ⟨is_x, is_low⟩, same_low, rfl, -⟩, _, highs, ⟨is_t, is_high⟩, same_high,
      made⟩
    obtain rfl := (holds_update_self lossless).mp is_t
    rw [List.length_zipWith, ← same_low, Nat.min_self] at same_high
    exact ⟨xs, lows, highs, ⟨is_x, is_low, (holds_update_of_ne apart).mp is_high⟩,
      ⟨same_low, same_high⟩, made⟩
  · rintro ⟨xs, lows, highs, ⟨is_x, is_low, is_high⟩, ⟨same_low, same_high⟩, made⟩
    have length_eq := length_zipWith_same laneMax rfl same_low.symm
    have made_length := length_zipWith_same laneMin length_eq same_high.symm
    have size := made.size lossless same _ (length_eq.trans made_length.symm)
    exact ⟨_, ⟨xs, lows, ⟨is_x, is_low⟩, same_low, rfl, size⟩, _, highs,
      ⟨(holds_update_self lossless).mpr rfl, (holds_update_of_ne apart).mpr is_high⟩,
      length_eq.trans same_high, made⟩

/-- The distance above the floor is the difference to the floor. -/
theorem finalValue?_fract {scratch : Id} (same : sizes scratch = sizes type) (apart : x ≠ t) :
    finalValue? α sizes values [⟨.extended .floor, scratch, t, [x]⟩,
        ⟨.core .fSub, type, result, [x, t]⟩] =
      (FloatLine.mk (.extended .fract) type result [x]).value? α sizes values := by
  have lanes_eq (xs : List α) :
      xs.map laneFract = List.zipWith Lane.sub xs (xs.map Lane.floor) := by
    rw [List.zipWith_map_right, List.zipWith_self]
    rfl
  refine Option.ext fun value => ?_
  simp only [finalValue?, Option.bind_eq_some_iff,
    value?_map1 lossless (.extended .floor) Lane.floor fun _ => rfl,
    value?_map2 lossless (.core .fSub) Lane.sub fun _ _ => rfl,
    value?_map1 lossless (.extended .fract) laneFract fun _ => rfl, lanes_eq]
  constructor
  · rintro ⟨_, ⟨xs, is_x, rfl, -⟩, xs', _, ⟨is_x', is_t⟩, -, made⟩
    obtain rfl := (holds_update_self lossless).mp is_t
    obtain rfl := is_x.unique lossless ((holds_update_of_ne apart).mp is_x')
    exact ⟨xs, is_x, made⟩
  · rintro ⟨xs, is_x, made⟩
    have size := made.size lossless same (xs.map Lane.floor) (by simp)
    exact ⟨_, ⟨xs, is_x, rfl, size⟩, xs, _,
      ⟨(holds_update_of_ne apart).mpr is_x, (holds_update_self lossless).mpr rfl⟩,
      (List.length_map _).symm, made⟩

/-- The inverse of a square root is one over it. -/
theorem finalValue?_inverseSqrt {scratch one : Id} {count : Nat} (same : sizes scratch = sizes type)
    (size : sizes type = some (count * Lane.byteCount α))
    (ones : Holds values one (List.replicate count (Lane.one : α))) (apart : one ≠ t) :
    finalValue? α sizes values [⟨.extended .sqrt, scratch, t, [x]⟩,
        ⟨.core .fDiv, type, result, [one, t]⟩] =
      (FloatLine.mk (.extended .inverseSqrt) type result [x]).value? α sizes values := by
  have lanes_eq (xs : List α) : xs.map laneInverseSqrt =
      List.zipWith Lane.div (List.replicate xs.length Lane.one) (xs.map Lane.sqrt) := by
    rw [← List.map_const', List.zipWith_map_left, List.zipWith_map_right, List.zipWith_self]
    rfl
  refine Option.ext fun value => ?_
  simp only [finalValue?, Option.bind_eq_some_iff,
    value?_map1 lossless (.extended .sqrt) Lane.sqrt fun _ => rfl,
    value?_map2 lossless (.core .fDiv) Lane.div fun _ _ => rfl,
    value?_map1 lossless (.extended .inverseSqrt) laneInverseSqrt fun _ => rfl, lanes_eq]
  constructor
  · rintro ⟨_, ⟨xs, is_x, rfl, -⟩, _, _, ⟨is_one, is_t⟩, same_length, made⟩
    obtain rfl := (holds_update_self lossless).mp is_t
    obtain rfl := ones.unique lossless ((holds_update_of_ne apart).mp is_one)
    rw [List.length_replicate, List.length_map] at same_length
    exact ⟨xs, is_x, same_length ▸ made⟩
  · rintro ⟨xs, is_x, made⟩
    have count_eq := made.length_eq lossless size
    rw [List.length_zipWith, List.length_replicate, List.length_map, Nat.min_self] at count_eq
    have stored_size := made.size lossless same (xs.map Lane.sqrt) (by simp)
    exact ⟨_, ⟨xs, is_x, rfl, stored_size⟩, _, _,
      ⟨(holds_update_of_ne apart).mpr ones, (holds_update_self lossless).mpr rfl⟩,
      by rw [List.length_replicate, List.length_map, count_eq], count_eq ▸ made⟩

/-- A length is the square root of the dot product of a vector with itself. -/
theorem finalValue?_length {scratch : Id} (same : sizes scratch = sizes type) :
    finalValue? α sizes values [⟨.core .dot, scratch, t, [x, x]⟩,
        ⟨.extended .sqrt, type, result, [t]⟩] =
      (FloatLine.mk (.extended .length) type result [x]).value? α sizes values := by
  refine Option.ext fun value => ?_
  simp only [finalValue?, Option.bind_eq_some_iff, value?_dot lossless, value?_length lossless,
    value?_map1 lossless (.extended .sqrt) Lane.sqrt fun _ => rfl]
  constructor
  · rintro ⟨_, ⟨xs, xs', ⟨is_x, is_x'⟩, -, rfl, -⟩, _, is_t, made⟩
    obtain rfl := (holds_update_self lossless).mp is_t
    obtain rfl := is_x.unique lossless is_x'
    exact ⟨xs, is_x, made⟩
  · rintro ⟨xs, is_x, made⟩
    have size := made.size lossless same [dotLanes xs xs] rfl
    exact ⟨_, ⟨xs, xs, ⟨is_x, is_x⟩, rfl, rfl, size⟩, _, (holds_update_self lossless).mpr rfl, made⟩

/-- A distance is the length of the difference. -/
theorem finalValue?_distance {scratch : Id}
    (size : ∀ value, values x = some value → sizes scratch = some value.bytes.length) :
    finalValue? α sizes values [⟨.core .fSub, scratch, t, [x, y]⟩,
        ⟨.extended .length, type, result, [t]⟩] =
      (FloatLine.mk (.extended .distance) type result [x, y]).value? α sizes values := by
  refine Option.ext fun value => ?_
  simp only [finalValue?, Option.bind_eq_some_iff, value?_length lossless, value?_distance lossless,
    value?_map2 lossless (.core .fSub) Lane.sub fun _ _ => rfl]
  constructor
  · rintro ⟨_, ⟨xs, ys, are, same_length, rfl, -⟩, _, is_t, made⟩
    obtain rfl := (holds_update_self lossless).mp is_t
    exact ⟨xs, ys, are, same_length, made⟩
  · rintro ⟨xs, ys, are, same_length, made⟩
    obtain ⟨stored, is_x, bytes_eq⟩ := Option.map_eq_some_iff.mp are.1
    have length_eq := length_zipWith_same Lane.sub rfl same_length.symm
    have scratch_size := size stored is_x
    rw [bytes_eq, ← (length_encodeLanes_inj lossless).mpr length_eq] at scratch_size
    exact ⟨_, ⟨xs, ys, are, same_length, rfl, scratch_size⟩, _,
      (holds_update_self lossless).mpr rfl, made⟩

/-- A vector times a scalar is its product with copies of the scalar. -/
theorem finalValue?_scale {scratch : Id} {count : Nat} (positive : 0 < count)
    (same : sizes scratch = sizes type) (size : sizes type = some (count * Lane.byteCount α))
    (apart : x ≠ t) :
    finalValue? α sizes values [⟨.construct, scratch, t, List.replicate count y⟩,
        ⟨.core .fMul, type, result, [x, t]⟩] =
      (FloatLine.mk (.core .vectorTimesScalar) type result [x, y]).value? α sizes values := by
  refine Option.ext fun value => ?_
  simp only [finalValue?, Option.bind_eq_some_iff, value?_scale lossless,
    value?_splat lossless positive (same.trans size),
    value?_map2 lossless (.core .fMul) Lane.mul fun _ _ => rfl]
  constructor
  · rintro ⟨_, ⟨factor, is_y, rfl, -⟩, xs, _, ⟨is_x, is_t⟩, same_length, made⟩
    obtain rfl := (holds_update_self lossless).mp is_t
    rw [List.length_replicate] at same_length
    refine ⟨xs, factor, ⟨(holds_update_of_ne apart).mp is_x, is_y⟩, ?_⟩
    rw [map_eq_zipWith_replicate, same_length]
    exact made
  · rintro ⟨xs, factor, ⟨is_x, is_y⟩, made⟩
    have count_eq := made.length_eq lossless size
    rw [List.length_map] at count_eq
    have scratch_size := made.size lossless same (List.replicate count factor) (by simp [count_eq])
    rw [map_eq_zipWith_replicate, count_eq] at made
    exact ⟨_, ⟨factor, is_y, rfl, scratch_size⟩, xs, _,
      ⟨(holds_update_of_ne apart).mpr is_x, (holds_update_self lossless).mpr rfl⟩,
      by rw [List.length_replicate, count_eq], made⟩

/-- A vector is brought to length one by its quotients by copies of its length. -/
theorem finalValue?_normalize {scratch scratch' t' : Id} {count : Nat} (positive : 0 < count)
    (one_lane : sizes scratch = some (Lane.byteCount α)) (same : sizes scratch' = sizes type)
    (size : sizes type = some (count * Lane.byteCount α)) (apart : x ≠ t) (apart' : x ≠ t') :
    finalValue? α sizes values [⟨.extended .length, scratch, t, [x]⟩,
        ⟨.construct, scratch', t', List.replicate count t⟩,
        ⟨.core .fDiv, type, result, [x, t']⟩] =
      (FloatLine.mk (.extended .normalize) type result [x]).value? α sizes values := by
  refine Option.ext fun value => ?_
  simp only [finalValue?, Option.bind_eq_some_iff, value?_length lossless,
    value?_normalize lossless, value?_splat lossless positive (same.trans size),
    value?_map2 lossless (.core .fDiv) Lane.div fun _ _ => rfl]
  constructor
  · -- From the code to the line: each step reads what the one before it has written, and `x` is
    -- untouched.
    rintro ⟨_, ⟨xs, is_x, rfl, -⟩, _, ⟨factor, is_t, rfl, -⟩, xs', _, ⟨is_x', is_t'⟩, same_length,
      made⟩
    obtain rfl := (holds_update_self lossless).mp is_t'
    cases (holds_update_self lossless).mp is_t
    rw [holds_update_of_ne apart', holds_update_of_ne apart] at is_x'
    obtain rfl := is_x.unique lossless is_x'
    rw [List.length_replicate] at same_length
    refine ⟨xs, is_x, ?_⟩
    rw [map_eq_zipWith_replicate, same_length]
    exact made
  · rintro ⟨xs, is_x, made⟩
    -- From the line to the code: the scratch types have the right sizes.
    have count_eq := made.length_eq lossless size
    rw [List.length_map] at count_eq
    have splat_size := made.size lossless same (List.replicate count (lengthLanes xs))
      (by simp [count_eq])
    have length_size : sizes scratch = some (encodeLanes [lengthLanes xs]).length := by
      rw [one_lane, encodeLanes_singleton, lossless.write]
    rw [map_eq_zipWith_replicate, count_eq] at made
    refine ⟨_, ⟨xs, is_x, rfl, length_size⟩, _,
      ⟨_, (holds_update_self lossless).mpr rfl, rfl, splat_size⟩, xs, _, ⟨?_, ?_⟩, ?_, made⟩
    · rwa [holds_update_of_ne apart', holds_update_of_ne apart]
    · exact (holds_update_self lossless).mpr rfl
    · rw [List.length_replicate, count_eq]

/-- A blend is the sum of one value times what is left of the weight and the other times it. -/
theorem finalValue?_mix {a one scratch₁ scratch₂ scratch₃ t₁ t₂ t₃ : Id} {count : Nat}
    (same₁ : sizes scratch₁ = sizes type) (same₂ : sizes scratch₂ = sizes type)
    (same₃ : sizes scratch₃ = sizes type) (size : sizes type = some (count * Lane.byteCount α))
    (ones : Holds values one (List.replicate count (Lane.one : α)))
    (apart₁ : t₁ ∉ [x, y, a]) (apart₂ : t₂ ∉ [y, a, t₃]) :
    finalValue? α sizes values [⟨.core .fSub, scratch₁, t₁, [one, a]⟩,
        ⟨.core .fMul, scratch₂, t₂, [x, t₁]⟩, ⟨.core .fMul, scratch₃, t₃, [y, a]⟩,
        ⟨.core .fAdd, type, result, [t₂, t₃]⟩] =
      (FloatLine.mk (.extended .fMix) type result [x, y, a]).value? α sizes values := by
  simp only [List.mem_cons, List.not_mem_nil, or_false, not_or] at apart₁ apart₂
  obtain ⟨x_apart, y_apart, a_apart⟩ := apart₁
  obtain ⟨y_apart', a_apart', t_apart⟩ := apart₂
  refine Option.ext fun value => ?_
  simp only [finalValue?, Option.bind_eq_some_iff, zipWith_laneMix,
    value?_map2 lossless (.core .fSub) Lane.sub fun _ _ => rfl,
    value?_map2 lossless (.core .fMul) Lane.mul fun _ _ => rfl,
    value?_map2 lossless (.core .fAdd) Lane.add fun _ _ => rfl,
    value?_map3 lossless (.extended .fMix) laneMix fun _ _ _ => rfl]
  constructor
  · rintro ⟨_, ⟨_, weights, ⟨is_one, is_a⟩, same_one, rfl, -⟩, _,
      ⟨xs, _, ⟨is_x, is_t₁⟩, same_x, rfl, -⟩, _, ⟨ys, weights', ⟨is_y, is_a'⟩, same_y, rfl, -⟩,
      _, _, ⟨is_t₂, is_t₃⟩, -, made⟩
    -- The operands are read behind the steps that write elsewhere.
    rw [holds_update_of_ne (Ne.symm x_apart)] at is_x
    rw [holds_update_of_ne (Ne.symm y_apart'), holds_update_of_ne (Ne.symm y_apart)] at is_y
    rw [holds_update_of_ne (Ne.symm a_apart'), holds_update_of_ne (Ne.symm a_apart)] at is_a'
    rw [holds_update_of_ne t_apart] at is_t₂
    obtain rfl := ones.unique lossless is_one
    obtain rfl := is_a.unique lossless is_a'
    obtain rfl := (holds_update_self lossless).mp is_t₁
    obtain rfl := (holds_update_self lossless).mp is_t₂
    obtain rfl := (holds_update_self lossless).mp is_t₃
    rw [List.length_replicate] at same_one
    rw [List.length_zipWith, List.length_replicate, same_one, Nat.min_self] at same_x
    subst same_one
    exact ⟨xs, ys, weights, ⟨is_x, is_y, is_a⟩, ⟨same_x.trans same_y.symm, same_x⟩, made⟩
  · rintro ⟨xs, ys, weights, ⟨is_x, is_y, is_a⟩, ⟨same_y, same_a⟩, made⟩
    have xs_length := made.length_eq lossless size
    simp only [List.length_zipWith, List.length_replicate, ← same_y, ← same_a, Nat.min_self]
      at xs_length
    have ys_length := same_y.symm.trans xs_length
    have weights_length := same_a.symm.trans xs_length
    rw [weights_length] at made
    -- All vectors have as many lanes, so every step fits its type.
    have ones_length : (List.replicate count (Lane.one : α)).length = count := List.length_replicate
    have rest_length := length_zipWith_same Lane.sub ones_length weights_length
    have first_length := length_zipWith_same Lane.mul xs_length rest_length
    have second_length := length_zipWith_same Lane.mul ys_length weights_length
    have sum_length := (length_zipWith_same Lane.add first_length second_length).symm
    refine ⟨_, ⟨_, weights, ⟨ones, is_a⟩, ones_length.trans weights_length.symm, rfl,
        made.size lossless same₁ _ (rest_length.trans sum_length)⟩,
      _, ⟨xs, _, ⟨?_, (holds_update_self lossless).mpr rfl⟩, xs_length.trans rest_length.symm, rfl,
        made.size lossless same₂ _ (first_length.trans sum_length)⟩,
      _, ⟨ys, weights, ⟨?_, ?_⟩, ys_length.trans weights_length.symm, rfl,
        made.size lossless same₃ _ (second_length.trans sum_length)⟩,
      _, _, ⟨?_, (holds_update_self lossless).mpr rfl⟩, first_length.trans second_length.symm, made⟩
    · rwa [holds_update_of_ne (Ne.symm x_apart)]
    · rwa [holds_update_of_ne (Ne.symm y_apart'), holds_update_of_ne (Ne.symm y_apart)]
    · rwa [holds_update_of_ne (Ne.symm a_apart'), holds_update_of_ne (Ne.symm a_apart)]
    · rw [holds_update_of_ne t_apart]
      exact (holds_update_self lossless).mpr rfl

end

end

end ShaderMachine
