import Mathlib.Data.List.Basic
import ShaderMachine.Machine.Execution

/-! # The shapes of float operands

The operands of a float instruction are bytes, of which it makes lanes. How many bytes each of them
may have, and how many come of it, does not depend on what the lanes are, but on the form of the
instruction alone.

* **`Lane.IsSized`** — all lanes take the same number of bytes.
* **`FloatForm`** — the forms of float instructions, with **`FloatForm.Fits`**, the lengths of
  operands that fit a form.
* **`FloatOperation.HasForm`** — a computation takes the operands that fit a form, and no others.
* **`Opcode.exists_hasForm`** and **`GlslInstruction.hasForm`** — the forms of all instructions. -/

namespace ShaderMachine

/-! ## Bytes and lanes -/

/-- Whether all lanes take the same number of bytes, of which there is one at least. -/
structure Lane.IsSized (α : Type) [Lane α] : Prop where
  /-- A lane has bytes. -/
  positive : 0 < Lane.byteCount α
  /-- As many bytes are written for every lane. -/
  write : ∀ lane : α, (Lane.write lane).length = Lane.byteCount α

/-- A single has four bytes. -/
theorem Single.isSized : Lane.IsSized Single where
  positive := by decide
  write _ := rfl

/-- A double has eight bytes. -/
theorem Double.isSized : Lane.IsSized Double where
  positive := by decide
  write _ := rfl

section

variable {α : Type} [Lane α]

/-- As many lanes are read as are asked for. -/
theorem length_readLanes (read : List α) (count : Nat) (bytes : Bytes) :
    (readLanes read count bytes).length = read.length + count := by
  induction count generalizing read bytes with
  | zero => rw [readLanes, List.length_reverse, Nat.add_zero]
  | succ count hyp => rw [readLanes, hyp, List.length_cons, Nat.succ_add_eq_add_succ]

/-- There are as many lanes in some bytes as go into them whole. -/
theorem length_decodeLanes (bytes : Bytes) :
    (decodeLanes bytes : List α).length = bytes.length / Lane.byteCount α := by
  rw [decodeLanes, length_readLanes, List.length_nil, Nat.zero_add]

/-- The lanes in some bytes are counted exactly if these are a whole number of lanes. -/
theorem laneCount?_isSome (bytes : Bytes) :
    (laneCount? α bytes).isSome ↔ Lane.byteCount α ∣ bytes.length := by
  rw [laneCount?, Nat.dvd_iff_mod_eq_zero]
  split
  · exact iff_of_true rfl ‹_›
  · exact iff_of_false (by decide) ‹_›

/-- What is made of the bytes of a whole number of lanes has its own length. -/
theorem length_map_laneCount? (bytes made : Bytes) (size : Nat) :
    ((laneCount? α bytes).map fun _ => made).map List.length = some size ↔
      Lane.byteCount α ∣ bytes.length ∧ made.length = size := by
  rw [← laneCount?_isSome (α := α)]
  cases laneCount? α bytes <;> simp

variable (sized : Lane.IsSized α)

include sized

/-- Lanes take as many bytes as each of them does. -/
theorem length_encodeLanes (lanes : List α) :
    (encodeLanes lanes).length = lanes.length * Lane.byteCount α := by
  induction lanes with
  | nil => rw [encodeLanes, List.flatMap_nil, List.length_nil, List.length_nil, Nat.zero_mul]
  | cons lane lanes hyp =>
      rw [encodeLanes, List.flatMap_cons, List.length_append, sized.write, List.length_cons,
        Nat.succ_mul, Nat.add_comm]
      exact congrArg (· + Lane.byteCount α) hyp

/-- One operand that is a whole number of lanes is computed with, and keeps its length. -/
theorem length_map1 (f : α → α) (a : Bytes) (size : Nat) :
    (map1 f a).map List.length = some size ↔ Lane.byteCount α ∣ a.length ∧ a.length = size := by
  rw [map1, length_map_laneCount?, length_encodeLanes sized, List.length_map, length_decodeLanes]
  refine and_congr_right fun whole => ?_
  rw [Nat.div_mul_cancel whole]

/-- Two operands of the same length that are whole numbers of lanes are computed with, and what
comes of it has that length, too. -/
theorem length_map2 (f : α → α → α) (a b : Bytes) (size : Nat) :
    (map2 f a b).map List.length = some size ↔
      a.length = b.length ∧ Lane.byteCount α ∣ a.length ∧ a.length = size := by
  rw [map2]
  split
  · rename_i same
    rw [and_iff_right same, length_map_laneCount?, length_encodeLanes sized, List.length_zipWith,
      length_decodeLanes, length_decodeLanes, ← same, Nat.min_self]
    refine and_congr_right fun whole => ?_
    rw [Nat.div_mul_cancel whole]
  · rename_i other
    exact iff_of_false (by simp) fun ⟨same, _⟩ => other same

/-- The same holds of three operands. -/
theorem length_map3 (f : α → α → α → α) (a b c : Bytes) (size : Nat) :
    (map3 f a b c).map List.length = some size ↔
      (a.length = b.length ∧ a.length = c.length) ∧ Lane.byteCount α ∣ a.length ∧
        a.length = size := by
  rw [map3]
  split
  · rename_i same
    rw [and_iff_right same, length_map_laneCount?, length_encodeLanes sized, List.length_zipWith,
      List.length_zipWith, length_decodeLanes, length_decodeLanes, length_decodeLanes, ← same.1,
      ← same.2, Nat.min_self, Nat.min_self]
    refine and_congr_right fun whole => ?_
    rw [Nat.div_mul_cancel whole]
  · rename_i other
    exact iff_of_false (by simp) fun ⟨same, _⟩ => other same

end

/-! ## Forms -/

/-- How a float instruction takes its operands. -/
inductive FloatForm where
  /-- Lane by lane, which yields as many lanes. -/
  | lanewise (arity : Nat)
  /-- Lane by lane, and yields one lane for all of them. -/
  | reduced (arity : Nat)
  /-- Every lane of one operand with the one lane of another. -/
  | scaled
  /-- Three lanes of two operands each. -/
  | crossed
  deriving DecidableEq, Repr

namespace FloatForm

/-- The number of operands. -/
def arity : FloatForm → Nat
  | lanewise arity | reduced arity => arity
  | scaled | crossed => 2

/-- The number of bytes that come of operands of some lengths. -/
def resultLength (form : FloatForm) (laneBytes : Nat) (lengths : List Nat) : Nat :=
  match form with
  | lanewise _ | scaled => lengths.headD 0
  | reduced _ => laneBytes
  | crossed => 3 * laneBytes

/-- Whether operands of some lengths fit a form, for lanes of some bytes. -/
structure Fits (form : FloatForm) (laneBytes : Nat) (lengths : List Nat) : Prop where
  /-- There are as many of them as the form takes. -/
  count : lengths.length = form.arity
  /-- They are whole numbers of lanes, unless a cross product is taken of them. -/
  whole : form ≠ .crossed → ∀ length ∈ lengths, laneBytes ∣ length
  /-- They are equally long, but for a scalar. -/
  same : form ≠ .scaled → ∀ first ∈ lengths, ∀ second ∈ lengths, first = second
  /-- A scalar is one lane. -/
  scalar : form = .scaled → lengths[1]? = some laneBytes
  /-- Operands of a cross product have three whole lanes; a part of another one may follow. -/
  three : form = .crossed → ∀ length ∈ lengths, length / laneBytes = 3

variable {laneBytes : Nat}

/-- Operands that are combined lane by lane fit if they are equally long and whole lanes. -/
theorem fits_of_combined {form : FloatForm} {first : Nat} {rest : List Nat}
    (combined : form = .lanewise form.arity ∨ form = .reduced form.arity) :
    form.Fits laneBytes (first :: rest) ↔ (first :: rest).length = form.arity ∧
      (∀ second ∈ rest, first = second) ∧ laneBytes ∣ first := by
  have not_scaled : form ≠ .scaled := by
    rintro rfl
    simp at combined
  have not_crossed : form ≠ .crossed := by
    rintro rfl
    simp at combined
  constructor
  · rintro ⟨count, whole, same, -, -⟩
    exact ⟨count, fun second mem => same not_scaled first List.mem_cons_self second
      (List.mem_cons_of_mem first mem), whole not_crossed first List.mem_cons_self⟩
  · rintro ⟨count, same, whole⟩
    have all_same (length : Nat) (mem : length ∈ first :: rest) : first = length := by
      rcases List.mem_cons.mp mem with rfl | mem
      · rfl
      · exact same length mem
    refine ⟨count, fun _ length mem => all_same length mem ▸ whole, fun _ a mem b mem' => ?_,
      fun is => absurd is not_scaled, fun is => absurd is not_crossed⟩
    rw [← all_same a mem, all_same b mem']

/-- A vector and a scalar fit if the one is whole lanes and the other is one lane. -/
theorem fits_scaled {first second : Nat} :
    scaled.Fits laneBytes [first, second] ↔ second = laneBytes ∧ laneBytes ∣ first := by
  constructor
  · rintro ⟨-, whole, -, scalar, -⟩
    exact ⟨Option.some.inj (scalar rfl), whole (by decide) first List.mem_cons_self⟩
  · rintro ⟨rfl, whole⟩
    refine ⟨rfl, fun _ => ?_, fun not_scaled => absurd rfl not_scaled, fun _ => rfl,
      (nomatch ·)⟩
    simpa using whole

/-- Operands of a cross product fit if they are equally long and have three lanes. -/
theorem fits_crossed {first second : Nat} :
    crossed.Fits laneBytes [first, second] ↔ first = second ∧ first / laneBytes = 3 := by
  constructor
  · rintro ⟨-, -, same, -, three⟩
    exact ⟨same (by decide) first List.mem_cons_self second
      (List.mem_cons_of_mem first List.mem_cons_self), three rfl first List.mem_cons_self⟩
  · rintro ⟨rfl, three⟩
    refine ⟨rfl, fun not_crossed => absurd rfl not_crossed, fun _ => ?_, (nomatch ·),
      fun _ => ?_⟩
    · simp
    · simpa using three

end FloatForm

/-! ## Computations of a form -/

namespace FloatOperation

/-- Whether a computation takes the operands that fit a form and no others, and yields as many bytes
as come of them. -/
def HasForm (operation : FloatOperation) (form : FloatForm) : Prop :=
  ∀ (α : Type) [Lane α], Lane.IsSized α → ∀ (operands : List Bytes) (size : Nat),
    (operation.run α operands).map List.length = some size ↔
      form.Fits (Lane.byteCount α) (operands.map List.length) ∧
        form.resultLength (Lane.byteCount α) (operands.map List.length) = size

section

variable {form : FloatForm} {laneBytes size : Nat} {operands : List Bytes}

/-- Too many or too few operands do not fit, so that nothing is to be computed of them. -/
theorem none_of_length (other : operands.length ≠ form.arity) :
    (none : Option Bytes).map List.length = some size ↔
      form.Fits laneBytes (operands.map List.length) ∧
        form.resultLength laneBytes (operands.map List.length) = size := by
  refine iff_of_false (by simp) fun ⟨fits, _⟩ => other ?_
  rw [← fits.count, List.length_map]

end

/-- One operand lane by lane. -/
theorem hasForm_unary (f : (α : Type) → [Lane α] → α → α) :
    (unary f).HasForm (.lanewise 1) := by
  intro α _ sized operands size
  match operands with
  | [x] =>
      rw [unary, length_map1 sized, List.map_singleton, FloatForm.fits_of_combined (.inl rfl)]
      simp [FloatForm.resultLength, FloatForm.arity]
  | [] | _ :: _ :: _ => exact none_of_length (by simp [FloatForm.arity])

/-- Two operands lane by lane. -/
theorem hasForm_binary (f : (α : Type) → [Lane α] → α → α → α) :
    (binary f).HasForm (.lanewise 2) := by
  intro α _ sized operands size
  match operands with
  | [x, y] =>
      rw [binary, length_map2 sized, List.map_cons, FloatForm.fits_of_combined (.inl rfl)]
      simp [FloatForm.resultLength, FloatForm.arity, and_assoc]
  | [] | [_] | _ :: _ :: _ :: _ => exact none_of_length (by simp [FloatForm.arity])

/-- Three operands lane by lane. -/
theorem hasForm_ternary (f : (α : Type) → [Lane α] → α → α → α → α) :
    (ternary f).HasForm (.lanewise 3) := by
  intro α _ sized operands size
  match operands with
  | [x, y, z] =>
      rw [ternary, length_map3 sized, List.map_cons, FloatForm.fits_of_combined (.inl rfl)]
      simp [FloatForm.resultLength, FloatForm.arity, and_assoc]
  | [] | [_] | [_, _] | _ :: _ :: _ :: _ :: _ => exact none_of_length (by simp [FloatForm.arity])

/-- A vector times a scalar. -/
theorem hasForm_scale : scale.HasForm .scaled := by
  intro α _ sized operands size
  match operands with
  | [vector, scalar] =>
      rw [scale, List.map_cons, List.map_singleton, FloatForm.fits_scaled]
      simp only [scalarLane?]
      split
      · rename_i one
        rw [Option.bind_some, length_map1 sized, and_iff_right one]
        rfl
      · rename_i other
        exact iff_of_false (by simp) fun ⟨fits, _⟩ => other fits.1
  | [] | [_] | _ :: _ :: _ :: _ => exact none_of_length (by simp [FloatForm.arity])

/-- A dot product. -/
theorem hasForm_dot : dot.HasForm (.reduced 2) := by
  intro α _ sized operands size
  match operands with
  | [x, y] =>
      rw [dot, List.map_cons, FloatForm.fits_of_combined (.inr rfl)]
      simp only [laneCount?_isSome]
      split
      · rename_i fits
        rw [Option.map_some, sized.write, Option.some.injEq]
        simp [FloatForm.resultLength, FloatForm.arity, fits.1, fits.1 ▸ fits.2]
      · rename_i other
        refine iff_of_false (by simp) fun ⟨⟨_, same, whole⟩, _⟩ => other ⟨?_, whole⟩
        exact same _ List.mem_cons_self
  | [] | [_] | _ :: _ :: _ :: _ => exact none_of_length (by simp [FloatForm.arity])

/-- The length of a vector. -/
theorem hasForm_length : length.HasForm (.reduced 1) := by
  intro α _ sized operands size
  match operands with
  | [x] =>
      rw [length, length_map_laneCount?, sized.write, List.map_singleton,
        FloatForm.fits_of_combined (.inr rfl)]
      simp [FloatForm.resultLength, FloatForm.arity]
  | [] | _ :: _ :: _ => exact none_of_length (by simp [FloatForm.arity])

/-- The distance of two points. -/
theorem hasForm_distance : distance.HasForm (.reduced 2) := by
  intro α _ sized operands size
  match operands with
  | [x, y] =>
      simp only [distance]
      rw [List.map_cons, FloatForm.fits_of_combined (.inr rfl)]
      cases difference : map2 (α := α) Lane.sub x y with
      | some made =>
          obtain ⟨same, whole, -⟩ :=
            (length_map2 sized Lane.sub x y made.length).mp (by rw [difference, Option.map_some])
          rw [Option.map_some, Option.map_some, sized.write, Option.some.injEq]
          simp [FloatForm.resultLength, FloatForm.arity, same, same ▸ whole]
      | none =>
          refine iff_of_false (by simp) fun ⟨⟨_, same, whole⟩, _⟩ => ?_
          -- Operands that fit can be subtracted.
          have subtracted := (length_map2 sized Lane.sub x y x.length).mpr
            ⟨same _ List.mem_cons_self, whole, rfl⟩
          rw [difference] at subtracted
          cases subtracted
  | [] | [_] | _ :: _ :: _ :: _ => exact none_of_length (by simp [FloatForm.arity])

/-- A vector of length one. -/
theorem hasForm_normalize : normalize.HasForm (.lanewise 1) := by
  intro α _ sized operands size
  match operands with
  | [x] =>
      rw [normalize, length_map1 sized, List.map_singleton, FloatForm.fits_of_combined (.inl rfl)]
      simp [FloatForm.resultLength, FloatForm.arity]
  | [] | _ :: _ :: _ => exact none_of_length (by simp [FloatForm.arity])

/-- A cross product. -/
theorem hasForm_cross : cross.HasForm .crossed := by
  intro α _ sized operands size
  match operands with
  | [x, y] =>
      rw [cross, List.map_cons, List.map_singleton, FloatForm.fits_crossed]
      simp only
      split
      · rename_i x₀ x₁ x₂ y₀ y₁ y₂ lanes_x lanes_y
        -- The lanes were matched, so there are three of them; bytes behind them are not seen.
        have three : x.length / Lane.byteCount α = 3 := by
          rw [← length_decodeLanes (α := α), lanes_x]
          rfl
        split
        · rename_i same
          rw [Option.map_some, length_encodeLanes sized, Option.some.injEq]
          exact (and_iff_right ⟨same, three⟩).symm
        · rename_i other
          exact iff_of_false (by simp) fun ⟨fits, _⟩ => other fits.1
      · rename_i not_three
        refine iff_of_false (by simp) fun ⟨⟨same, three⟩, _⟩ => ?_
        -- Three lanes are read from operands of that length.
        obtain ⟨x₀, x₁, x₂, lanes_x⟩ := List.length_eq_three.mp
          ((length_decodeLanes (α := α) x).trans three)
        obtain ⟨y₀, y₁, y₂, lanes_y⟩ := List.length_eq_three.mp
          ((length_decodeLanes (α := α) y).trans (same ▸ three))
        exact not_three _ _ _ _ _ _ lanes_x lanes_y
  | [] | [_] | _ :: _ :: _ :: _ => exact none_of_length (by simp [FloatForm.arity])

end FloatOperation

/-! ## The forms of all instructions -/

/-- The form of a float instruction that is no extended one. -/
def Opcode.floatForm? : Opcode → Option FloatForm
  | .fNegate => some (.lanewise 1)
  | .fAdd | .fSub | .fMul | .fDiv => some (.lanewise 2)
  | .vectorTimesScalar => some .scaled
  | .dot => some (.reduced 2)
  | _ => none

/-- What a float instruction computes that is no extended one. -/
def Opcode.floatOperation? : Opcode → Option FloatOperation
  | .fNegate => some (.unary fun _ => Lane.neg)
  | .fAdd => some (.binary fun _ => Lane.add)
  | .fSub => some (.binary fun _ => Lane.sub)
  | .fMul => some (.binary fun _ => Lane.mul)
  | .fDiv => some (.binary fun _ => Lane.div)
  | .vectorTimesScalar => some .scale
  | .dot => some .dot
  | _ => none

/-- The form of an extended instruction. -/
def GlslInstruction.form : GlslInstruction → FloatForm
  | .fAbs | .floor | .ceil | .fract | .sqrt | .inverseSqrt | .normalize => .lanewise 1
  | .pow | .fMin | .fMax => .lanewise 2
  | .fClamp | .fMix => .lanewise 3
  | .length => .reduced 1
  | .distance => .reduced 2
  | .cross => .crossed

/-- A float instruction computes what has its form. -/
theorem Opcode.exists_hasForm {opcode : Opcode} {form : FloatForm}
    (is_form : opcode.floatForm? = some form) : ∃ operation,
      opcode.floatOperation? = some operation ∧ operation.HasForm form ∧
        executionTable.handler? opcode = some (Execution.floats operation form.arity) := by
  cases opcode with
  | fNegate =>
      cases is_form
      exact ⟨_, rfl, FloatOperation.hasForm_unary _, rfl⟩
  | fAdd | fSub | fMul | fDiv =>
      cases is_form
      exact ⟨_, rfl, FloatOperation.hasForm_binary _, rfl⟩
  | vectorTimesScalar =>
      cases is_form
      exact ⟨_, rfl, FloatOperation.hasForm_scale, rfl⟩
  | dot =>
      cases is_form
      exact ⟨_, rfl, FloatOperation.hasForm_dot, rfl⟩
  | _ => cases is_form

namespace GlslInstruction

/-- An extended instruction computes what has its form. -/
theorem hasForm (known : GlslInstruction) : known.operation.HasForm known.form := by
  cases known with
  | fAbs | floor | ceil | fract | sqrt | inverseSqrt => exact FloatOperation.hasForm_unary _
  | pow | fMin | fMax => exact FloatOperation.hasForm_binary _
  | fClamp | fMix => exact FloatOperation.hasForm_ternary _
  | length => exact FloatOperation.hasForm_length
  | distance => exact FloatOperation.hasForm_distance
  | cross => exact FloatOperation.hasForm_cross
  | normalize => exact FloatOperation.hasForm_normalize

/-- An extended instruction has as many operands as its form. -/
theorem arity_eq (known : GlslInstruction) : known.arity = known.form.arity := by
  cases known <;> rfl

end GlslInstruction

end ShaderMachine
