/-! # Arithmetic that stops

Positions and counts are numbers of a fixed width. A sum or a difference that the width does not
hold, or a part of a slice that the slice does not have, is no answer: the program stops there.

**`Trap`** says why a program stops; **`checkedAdd`** and **`checkedSub`** are the sum and the
difference of two numbers of 64 bits, which stop where these are too large or negative. -/

namespace ShaderMachine

/-- Why a program stops without an answer. -/
inductive Trap where
  /-- A sum is too large for its width. -/
  | sumTooLarge
  /-- A difference is negative. -/
  | negativeDifference
  /-- A part of a slice is asked for that it does not have. -/
  | outOfSlice
  deriving DecidableEq, Repr

/-- What the program says when it stops. -/
def Trap.message : Trap → String
  | sumTooLarge => "attempt to add with overflow"
  | negativeDifference => "attempt to subtract with overflow"
  | outOfSlice => "slice index out of range"

/-- A sum, if its width holds it. -/
def checkedAdd (first second : UInt64) : Except Trap UInt64 :=
  if first.toNat + second.toNat < UInt64.size then .ok (first + second) else .error .sumTooLarge

/-- A difference, if it is not negative. -/
def checkedSub (first second : UInt64) : Except Trap UInt64 :=
  if second ≤ first then .ok (first - second) else .error .negativeDifference

section

variable {first second : UInt64}

/-- A sum that fits is that of the numbers. -/
theorem checkedAdd_of_lt (fits : first.toNat + second.toNat < UInt64.size) :
    ∃ sum, checkedAdd first second = .ok sum ∧ sum.toNat = first.toNat + second.toNat :=
  ⟨first + second, if_pos fits, (UInt64.toNat_add ..).trans (Nat.mod_eq_of_lt fits)⟩

/-- A difference that is not negative is that of the numbers. -/
theorem checkedSub_of_le (le : second.toNat ≤ first.toNat) :
    ∃ difference, checkedSub first second = .ok difference ∧
      difference.toNat = first.toNat - second.toNat :=
  have le' : second ≤ first := UInt64.le_iff_toNat_le.mpr le
  ⟨first - second, if_pos le', UInt64.toNat_sub_of_le first second le'⟩

end

/-- The largest number has no successor. -/
example : checkedAdd 0xFFFFFFFFFFFFFFFF 1 = .error .sumTooLarge :=
  rfl

end ShaderMachine
