import ShaderMachine.Proofs.Layout

/-! # The parts of aggregates

The values of an aggregate type are made of parts that lie one after the other; an index leads to
the part that it counts, which starts where the parts before it end.

* **`DataType.IsAggregate`** — the types of which the values are made of parts.
* **`DataType.parts`** — the parts of a type, those of an array repeated.
* **`DataType.member?_eq`** — the member at an index is the part that it counts.
* **`DataType.isSome_member?_iff`** — the indices of an aggregate are those below its count. -/

namespace ShaderMachine

namespace DataType

/-- Whether the values of a type are made of parts. -/
def IsAggregate : DataType → Prop
  | vector _ | matrix _ | array _ _ | struct _ => True
  | _ => False

/-- The parts of a type in order. -/
def parts : DataType → List Member
  | vector members | matrix members | struct members => members
  | array element length => List.replicate length.toNat element
  | _ => []

variable {type : DataType} {index : Word}

/-- What is no aggregate has no parts. -/
theorem parts_eq_nil (simple : ¬ type.IsAggregate) : type.parts = [] := by
  cases type with
  | vector | matrix | array | struct => exact absurd trivial simple
  | _ => rfl

/-- An aggregate counts its parts. -/
theorem length_parts (aggregate : type.IsAggregate) : type.parts.length = type.elementCount := by
  cases type with
  | vector | matrix | struct => rfl
  | array element length => exact List.length_replicate
  | _ => exact absurd aggregate not_false

/-- Repeated members take up as much as one of them as often. -/
theorem membersSize_replicate (count : Nat) (member : Member) :
    membersSize (List.replicate count member) = member.size * count := by
  rw [membersSize, List.map_replicate, List.sum_replicate_nat, Nat.mul_comm]

/-- An aggregate is as large as its parts together. -/
theorem membersSize_parts (aggregate : type.IsAggregate) : membersSize type.parts = type.size := by
  cases type with
  | vector | matrix | struct => rfl
  | array element length => exact membersSize_replicate length.toNat element
  | _ => exact absurd aggregate not_false

/-- The member at an index is the part that it counts, and lies after the parts before it. -/
theorem member?_eq (type : DataType) (index : Word) :
    type.member? index = type.parts[index.toNat]?.map fun member =>
      (member, membersSize (type.parts.take index.toNat)) := by
  cases type with
  | vector | matrix | struct => rfl
  | array element length =>
      rw [member?, parts, List.getElem?_replicate]
      simp only [UInt32.lt_iff_toNat_lt]
      by_cases below : index.toNat < length.toNat
      · rw [if_pos below, if_pos below, List.take_replicate, membersSize_replicate,
          Nat.min_eq_left (Nat.le_of_lt below)]
        rfl
      · rw [if_neg below, if_neg below]
        rfl
  | _ => rfl

/-- A type has a member at the indices below the number of its parts. -/
theorem isSome_member?_iff_parts :
    (type.member? index).isSome ↔ index.toNat < type.parts.length := by
  rw [member?_eq, Option.isSome_map]
  simp

/-- An aggregate has a member at the indices below its count. -/
theorem isSome_member?_iff (aggregate : type.IsAggregate) :
    (type.member? index).isSome ↔ index.toNat < type.elementCount := by
  rw [isSome_member?_iff_parts, length_parts aggregate]

end DataType

end ShaderMachine
