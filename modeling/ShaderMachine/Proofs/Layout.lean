import ShaderMachine.Machine.Computation
import ShaderMachine.Proofs.TableLaws

/-! # The layout of a table

In a table that is laid out, every value has the size of its type, every variable that of what its
pointer type points to, and every aggregate type notes the sizes that its members have. What a
path of indices leads to then lies within the composite, and every vector has a component.

* **`DataType.Fits`**, **`Value.Fits`**, **`Variable.Fits`** — what a table says agrees with the
  sizes noted in a definition.
* **`Table.Layout`** — every definition of a table fits it.
* **`Table.Layout.put`** — a table stays laid out if types stay and what is written fits.
* **`Part.Within.foldlM`** — what a path of indices leads to lies within the composite. -/

namespace ShaderMachine

/-! ## Definitions that fit -/

/-- The parts of which a type notes the sizes; those of an array are all alike. -/
def DataType.members : DataType → List Member
  | vector members | matrix members | struct members => members
  | array element _ => [element]
  | _ => []

/-- Whether a type agrees with what a table says about its parts. -/
structure DataType.Fits (table : Table) (type : DataType) : Prop where
  /-- It is not too large. -/
  small : type.size ≤ maxTypeSize
  /-- Every part has the size noted for it. -/
  members : ∀ member ∈ type.members, table.sizeOf member.type = .ok member.size
  /-- A vector repeats one scalar two to sixteen times. -/
  vector : ∀ members, type = .vector members → ∃ count component scalar, 2 ≤ count ∧ count ≤ 16 ∧
    members = List.replicate count component ∧ table.typeOf component.type = .ok scalar ∧
    scalar.isScalar = true

/-- Whether a value has the size of its type. -/
def Value.Fits (table : Table) (value : Value) : Prop :=
  table.sizeOf value.type = .ok value.bytes.length

/-- Whether a variable agrees with its pointer type and holds as much as that points to. -/
structure Variable.Fits (table : Table) (contents : Variable) : Prop where
  /-- The type is that of pointers to what the variable holds, where it lives. -/
  pointer : table.typeOf contents.type = .ok (.pointer contents.storage contents.pointee)
  /-- The data has the size of what the pointer points to. -/
  data : table.sizeOf contents.pointee = .ok contents.data.length

/-- Whether a definition agrees with a table. -/
def Definition.Fits (table : Table) : Definition → Prop
  | .type data => data.Fits table
  | .constant value => value.Fits table
  | .var contents => contents.Fits table
  | _ => True

/-- Whether every definition of a table agrees with it. -/
def Table.Layout (table : Table) : Prop :=
  ∀ id record, table.get id = .ok record → record.definition.Fits table

/-! ## Tables with the same types -/

/-- Whether the types of one table are types of another one. -/
def Table.KeepsTypes (table next : Table) : Prop :=
  ∀ id type, table.typeOf id = .ok type → next.typeOf id = .ok type

namespace Table.KeepsTypes

variable {table next : Table} (keeps : table.KeepsTypes next)

include keeps

/-- Types keep their sizes. -/
theorem sizeOf {id : Id} {size : Nat} (has_size : table.sizeOf id = .ok size) :
    next.sizeOf id = .ok size := by
  obtain ⟨type, is_type, size_eq⟩ := sizeOf_eq_ok_iff.mp has_size
  exact sizeOf_eq_ok_iff.mpr ⟨type, keeps id type is_type, size_eq⟩

/-- A type that fits goes on to fit. -/
theorem dataType {type : DataType} (fits : type.Fits table) : type.Fits next := by
  refine ⟨fits.small, fun member mem => keeps.sizeOf (fits.members member mem), ?_⟩
  intro members is_vector
  obtain ⟨count, component, scalar, least, most, repeated, is_type, is_scalar⟩ :=
    fits.vector members is_vector
  exact ⟨count, component, scalar, least, most, repeated, keeps _ _ is_type, is_scalar⟩

/-- A definition that fits goes on to fit. -/
theorem definition {definition : Definition} (fits : definition.Fits table) :
    definition.Fits next := by
  cases definition with
  | type type => exact keeps.dataType fits
  | constant value => exact keeps.sizeOf fits
  | var contents => exact ⟨keeps _ _ fits.pointer, keeps.sizeOf fits.data⟩
  | _ => trivial

end Table.KeepsTypes

namespace Table

variable {table : Table} {id : Id} {record changed : Record}

/-- Types stay if the record written holds the type that the one before it held. -/
theorem keepsTypes_put (found : table.get id = .ok record)
    (keeps : ∀ type, record.definition = .type type → changed.definition = .type type) :
    table.KeepsTypes (table.put id changed) := by
  intro other type is_type
  obtain ⟨present, read, definition_eq⟩ := typeOf_eq_ok_iff.mp is_type
  rw [typeOf_eq_ok_iff]
  by_cases same : other = id
  · subst same
    rw [found] at read
    cases read
    exact ⟨changed, get_put_self found, keeps type definition_eq⟩
  · exact ⟨present, (get_put_of_ne same).trans read, definition_eq⟩

/-- A table stays laid out if types stay and what is written fits. -/
theorem Layout.put (layout : table.Layout) (found : table.get id = .ok record)
    (keeps : ∀ type, record.definition = .type type → changed.definition = .type type)
    (fits : changed.definition.Fits table) : (table.put id changed).Layout := by
  -- What was fitting before goes on to fit, since all types are kept.
  have types := keepsTypes_put found keeps
  intro other present read
  rcases get_put_inv found read with ⟨-, rfl⟩ | ⟨-, before⟩
  · exact types.definition fits
  · exact types.definition (layout other present before)

/-- An empty table is laid out. -/
theorem layout_ofBound (bound : Word) : (ofBound bound).Layout := by
  intro id record found
  obtain ⟨-, rfl⟩ := get_eq_ok_iff.mp found
  rw [ofBound, Std.TreeMap.getD_emptyc]
  trivial

namespace Layout

variable (layout : table.Layout)

include layout

/-- A type of the table fits it. -/
theorem typeOf {type : DataType} (is_type : table.typeOf id = .ok type) : type.Fits table := by
  obtain ⟨record, found, definition_eq⟩ := typeOf_eq_ok_iff.mp is_type
  have fits := layout id record found
  rw [definition_eq] at fits
  exact fits

/-- A value of the table fits it. -/
theorem value {value : Value} (is_value : table.value id = .ok value) : value.Fits table := by
  obtain ⟨record, found, definition_eq⟩ := value_eq_ok_iff.mp is_value
  have fits := layout id record found
  rw [definition_eq] at fits
  exact fits

/-- A variable of the table fits it. -/
theorem contents {contents : Variable} (found : table.get id = .ok record)
    (is_variable : record.definition = .var contents) : contents.Fits table := by
  have fits := layout id record found
  rw [is_variable] at fits
  exact fits

end Layout

end Table

/-! ## Parts lie within composites -/

/-- The members before one and that member are no larger than all members. -/
theorem membersSize_take {members : List Member} {index : Nat} {member : Member}
    (found : members[index]? = some member) :
    membersSize (members.take index) + member.size ≤ membersSize members := by
  induction members generalizing index with
  | nil => cases found
  | cons first members hyp =>
      cases index with
      | zero =>
          cases found
          simp [membersSize]
      | succ index =>
          have rest := hyp found
          simp only [membersSize, List.take_succ_cons, List.map_cons, List.sum_cons] at rest ⊢
          omega

/-- A part of a type is one of those noted in it and lies within it. -/
theorem DataType.member?_inv {type : DataType} {index : Word} {member : Member} {offset : Nat}
    (found : type.member? index = some (member, offset)) :
    member ∈ type.members ∧ offset + member.size ≤ type.size := by
  cases type with
  | vector members | matrix members | struct members =>
      obtain ⟨part, at_index, part_eq⟩ := Option.map_eq_some_iff.mp found
      cases part_eq
      exact ⟨List.mem_of_getElem? at_index, membersSize_take at_index⟩
  | array element length =>
      rw [member?] at found
      split at found
      · rename_i below
        cases found
        -- An element below the length ends no later than all elements do.
        have next : index.toNat + 1 ≤ length.toNat := UInt32.lt_iff_toNat_lt.mp below
        refine ⟨List.mem_singleton_self _, ?_⟩
        calc member.size * index.toNat + member.size
            = member.size * (index.toNat + 1) := (Nat.mul_succ _ _).symm
          _ ≤ member.size * length.toNat := Nat.mul_le_mul_left _ next
      · cases found
  | _ => cases found

/-- Whether a part has the size of its type and lies within some bytes. -/
def Part.Within (table : Table) (total : Nat) (part : Part) : Prop :=
  table.sizeOf part.type = .ok part.size ∧ part.offset + part.size ≤ total

/-- The member of a part that lies within some bytes does so, too. -/
theorem Part.Within.memberPart {table : Table} (layout : table.Layout) {composite : Id}
    {total : Nat} {part next : Part} {index : Word} (within : part.Within table total)
    (member : memberPart table composite part index = .ok next) : next.Within table total := by
  obtain ⟨type, is_type, size_eq⟩ := Table.sizeOf_eq_ok_iff.mp within.1
  obtain ⟨type', is_type', member⟩ := exists_of_bind member
  obtain rfl : type = type' := Except.ok.inj (is_type.symm.trans is_type')
  split at member
  · rename_i found offset is_member
    cases member
    obtain ⟨mem, inside⟩ := DataType.member?_inv is_member
    refine ⟨(layout.typeOf is_type).members _ mem, ?_⟩
    have bounded := within.2
    simp only at inside ⊢
    omega
  · cases member

/-- What a path of indices leads to lies within the bytes that its first composite lies within. -/
theorem Part.Within.foldlM {table : Table} (layout : table.Layout) {composite : Id}
    {total : Nat} {indices : List Word} {part last : Part} (within : part.Within table total)
    (path : indices.foldlM (ShaderMachine.memberPart table composite) part = .ok last) :
    last.Within table total := by
  -- Every step of the path leads to a part of the part before.
  induction indices generalizing part with
  | nil =>
      cases path
      exact within
  | cons index indices hyp =>
      rw [List.foldlM_cons] at path
      obtain ⟨next, member, path⟩ := exists_of_bind path
      exact hyp (within.memberPart layout member) path

end ShaderMachine
