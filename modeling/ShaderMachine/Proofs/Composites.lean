import Mathlib.Data.List.Forall2
import ShaderMachine.Proofs.Aggregates

/-! # Taking composites apart

A path of indices leads from a composite to a part, level by level: the bytes of an aggregate are
cut into those of its parts, and the index counts one of them. Extraction adds up the offsets of the
levels instead and cuts once, which comes to the same.

* **`pieces`** — the bytes of parts that lie one after the other, with **`flatten_pieces`** and
  **`pieces_flatten`**: cutting and putting together are inverse.
* **`Table.LeadsTo`** — a path leads to some bytes of a type, level by level.
* **`Table.LeadsTo.append_iff`** — one path after the other.
* **`extractComposite_eq_ok_iff`** — extraction yields what the path leads to.
* **`foldComposite_of_values`** — building puts the constituents together. -/

namespace ShaderMachine

/-! ## Pieces -/

/-- The bytes of each of some members that lie one after the other. -/
def pieces : List Member → Bytes → List Bytes
  | [], _ => []
  | member :: members, bytes => bytes.take member.size :: pieces members (bytes.drop member.size)

/-- The piece at an index starts where those before it end. -/
theorem getElem?_pieces (members : List Member) (bytes : Bytes) (index : Nat) :
    (pieces members bytes)[index]? = members[index]?.map fun member =>
      (bytes.drop (membersSize (members.take index))).take member.size := by
  induction members generalizing bytes index with
  | nil => rfl
  | cons member members hyp =>
      cases index with
      | zero => rfl
      | succ index =>
          rw [pieces, List.getElem?_cons_succ, List.getElem?_cons_succ, hyp]
          simp only [List.take_succ_cons, membersSize, List.map_cons, List.sum_cons, List.drop_drop]

/-- There are as many pieces as members. -/
theorem length_pieces (members : List Member) (bytes : Bytes) :
    (pieces members bytes).length = members.length := by
  induction members generalizing bytes with
  | nil => rfl
  | cons member members hyp => rw [pieces, List.length_cons, List.length_cons, hyp]

/-- Pieces put together are the bytes that were cut, if the members take up all of them. -/
theorem flatten_pieces {members : List Member} {bytes : Bytes}
    (all : bytes.length ≤ membersSize members) : (pieces members bytes).flatten = bytes := by
  induction members generalizing bytes with
  | nil => exact (List.length_eq_zero_iff.mp (Nat.le_zero.mp all)).symm
  | cons member members hyp =>
      have rest : (bytes.drop member.size).length ≤ membersSize members := by
        simp only [membersSize, List.map_cons, List.sum_cons] at all ⊢
        rw [List.length_drop]
        omega
      rw [pieces, List.flatten_cons, hyp rest, List.take_append_drop]

/-- Bytes put together are cut into what they were, if they have the sizes of the members. -/
theorem pieces_flatten {members : List Member} {parts : List Bytes}
    (sizes : parts.map List.length = members.map Member.size) :
    pieces members parts.flatten = parts := by
  induction members generalizing parts with
  | nil =>
      rw [List.map_nil, List.map_eq_nil_iff] at sizes
      subst sizes
      rfl
  | cons member members hyp =>
      cases parts with
      | nil => cases sizes
      | cons part parts =>
          rw [List.map_cons, List.map_cons, List.cons.injEq] at sizes
          rw [List.flatten_cons, pieces, ← sizes.1, List.take_left, List.drop_left, hyp sizes.2]

/-- A piece has the size of its member, if there are bytes for all members. -/
theorem length_of_pieces {members : List Member} {bytes piece : Bytes} {member : Member}
    {index : Nat}
    (enough : membersSize members ≤ bytes.length) (counted : members[index]? = some member)
    (cut : (pieces members bytes)[index]? = some piece) : piece.length = member.size := by
  rw [getElem?_pieces, counted, Option.map_some, Option.some.injEq] at cut
  have inside := membersSize_take counted
  rw [← cut, List.length_take, List.length_drop]
  omega

/-! ## Paths -/

/-- Whether a path of indices leads from bytes of a type to bytes of another one: the first index
counts a part, of which the bytes are cut out, and the others lead on from there. -/
inductive Table.LeadsTo (table : Table) : Id → Bytes → List Word → Id → Bytes → Prop
  /-- An empty path leads nowhere else. -/
  | here (type : Id) (bytes : Bytes) : LeadsTo table type bytes [] type bytes
  /-- The first index counts a part. -/
  | part {type last : Id} {bytes piece final : Bytes} {data : DataType} {index : Word}
      {member : Member} {indices : List Word} (is_type : table.typeOf type = .ok data)
      (counted : data.parts[index.toNat]? = some member)
      (cut : (pieces data.parts bytes)[index.toNat]? = some piece)
      (rest : LeadsTo table member.type piece indices last final) :
      LeadsTo table type bytes (index :: indices) last final

namespace Table.LeadsTo

variable {table next : Table} {type mid last : Id} {bytes mid_bytes final : Bytes}
  {indices first second : List Word}

/-- One path after the other. -/
theorem append (leads : table.LeadsTo type bytes first mid mid_bytes)
    (more : table.LeadsTo mid mid_bytes second last final) :
    table.LeadsTo type bytes (first ++ second) last final := by
  induction leads with
  | here => exact more
  | part is_type counted cut _ hyp => exact .part is_type counted cut (hyp more)

/-- A path that starts with one that leads somewhere leads on from there. -/
theorem append_iff (leads : table.LeadsTo type bytes first mid mid_bytes) :
    table.LeadsTo type bytes (first ++ second) last final ↔
      table.LeadsTo mid mid_bytes second last final := by
  refine ⟨fun whole => ?_, leads.append⟩
  induction leads with
  | here => exact whole
  | part is_type counted cut _ hyp =>
      cases whole with
      | part is_type' counted' cut' rest' =>
          cases is_type.symm.trans is_type'
          cases counted.symm.trans counted'
          cases cut.symm.trans cut'
          exact hyp rest'

/-- A path that leads somewhere does so from its start. -/
theorem exists_of_append (whole : table.LeadsTo type bytes (first ++ second) last final) :
    ∃ mid mid_bytes, table.LeadsTo type bytes first mid mid_bytes := by
  induction first generalizing type bytes with
  | nil => exact ⟨type, bytes, .here type bytes⟩
  | cons index first hyp =>
      cases whole with
      | part is_type counted cut rest =>
          obtain ⟨mid, mid_bytes, leads⟩ := hyp rest
          exact ⟨mid, mid_bytes, .part is_type counted cut leads⟩

/-- Paths depend on nothing but types. -/
theorem of_keepsTypes (keeps : table.KeepsTypes next)
    (leads : table.LeadsTo type bytes indices last final) :
    next.LeadsTo type bytes indices last final := by
  induction leads with
  | here type bytes => exact .here type bytes
  | part is_type counted cut _ hyp => exact .part (keeps _ _ is_type) counted cut hyp

end Table.LeadsTo

/-- The parts of a type are among the members of which it notes the sizes. -/
theorem DataType.mem_members_of_parts {type : DataType} {index : Nat} {member : Member}
    (counted : type.parts[index]? = some member) : member ∈ type.members := by
  cases type with
  | vector | matrix | struct => exact List.mem_of_getElem? counted
  | array element length =>
      rw [List.eq_of_mem_replicate (List.mem_of_getElem? counted)]
      exact List.mem_singleton_self element
  | _ => cases counted

/-- A type with a part is as large as its parts together. -/
theorem DataType.membersSize_of_parts {type : DataType} {index : Nat} {member : Member}
    (counted : type.parts[index]? = some member) : membersSize type.parts = type.size := by
  by_cases aggregate : type.IsAggregate
  · exact membersSize_parts aggregate
  · rw [parts_eq_nil aggregate] at counted
    cases counted

section

variable {table : Table} {composite : Id} (layout : table.Layout)

include layout

/-- What a path leads to has the size of its type, if the bytes that it starts from have. -/
theorem Table.LeadsTo.sizeOf {type last : Id} {bytes final : Bytes} {indices : List Word}
    (leads : table.LeadsTo type bytes indices last final)
    (size : table.sizeOf type = .ok bytes.length) : table.sizeOf last = .ok final.length := by
  induction leads with
  | here => exact size
  | part is_type counted cut _ hyp =>
      have size_eq := Except.ok.inj ((Table.sizeOf_of_typeOf is_type).symm.trans size)
      have enough := DataType.membersSize_of_parts counted
      refine hyp ?_
      rw [length_of_pieces (by omega) counted cut]
      exact (layout.typeOf is_type).members _ (DataType.mem_members_of_parts counted)

/-! ## Extraction -/

/-- The bytes of a part of some bytes. -/
def Part.cut (part : Part) (bytes : Bytes) : Bytes :=
  (bytes.drop part.offset).take part.size

omit layout in
/-- The member of a part at an index is the part of its type that the index counts. -/
theorem memberPart_eq_ok_iff {part next : Part} {index : Word} :
    memberPart table composite part index = .ok next ↔
      ∃ data member, table.typeOf part.type = .ok data ∧
        data.parts[index.toNat]? = some member ∧
        next = ⟨member.type, part.offset + membersSize (data.parts.take index.toNat),
          member.size⟩ := by
  rw [memberPart]
  cases is_type : table.typeOf part.type with
  | error error => simp [bind, Except.bind]
  | ok data =>
      simp only [bind, Except.bind, DataType.member?_eq, Except.ok.injEq]
      cases counted : data.parts[index.toNat]? with
      | none => simp [counted]
      | some member => simp [counted, pure, Except.pure, eq_comm]

omit layout in
/-- An index that counts no part of a type leads nowhere. -/
theorem memberPart_outside {part : Part} {index : Word} {data : DataType}
    (is_type : table.typeOf part.type = .ok data) (outside : data.parts[index.toNat]? = none) :
    memberPart table composite part index = .error (.typeMismatch composite (.compositeWith index)
      (.members data.kind data.elementCount)) := by
  rw [memberPart, is_type]
  simp only [bind, Except.bind, DataType.member?_eq, outside, Option.map_none]

omit layout in
/-- A part of a part is cut out of the bytes of the outer one, or out of all bytes at once. -/
theorem cut_member {part : Part} {total : Bytes} {data : DataType} {index : Nat} {member : Member}
    (within : part.Within table total.length) (is_type : table.typeOf part.type = .ok data)
    (counted : data.parts[index]? = some member) :
    (pieces data.parts (part.cut total))[index]? = some (Part.cut ⟨member.type,
      part.offset + membersSize (data.parts.take index), member.size⟩ total) := by
  have size_eq := Except.ok.inj ((Table.sizeOf_of_typeOf is_type).symm.trans within.1)
  have inside := membersSize_take counted
  rw [DataType.membersSize_of_parts counted, size_eq] at inside
  rw [getElem?_pieces, counted, Option.map_some, Part.cut, Part.cut, List.drop_take, List.take_take,
    List.drop_drop, Nat.min_eq_left (by omega)]

/-- What offsets that are added up lead to is where the path leads, level by level. -/
theorem leadsTo_of_path {total : Bytes} {indices : List Word} {part last : Part}
    (within : part.Within table total.length)
    (path : indices.foldlM (memberPart table composite) part = .ok last) :
    table.LeadsTo part.type (part.cut total) indices last.type (last.cut total) := by
  induction indices generalizing part with
  | nil =>
      cases path
      exact .here _ _
  | cons index indices hyp =>
      rw [List.foldlM_cons] at path
      obtain ⟨next, stepped, path⟩ := exists_of_bind path
      have within_next := within.memberPart layout stepped
      obtain ⟨data, member, is_type, counted, rfl⟩ := memberPart_eq_ok_iff.mp stepped
      exact .part is_type counted (cut_member within is_type counted) (hyp within_next path)

/-- Where a path leads, level by level, is where offsets that are added up lead. -/
theorem exists_path (composite : Id) {total final : Bytes} {indices : List Word} {part : Part}
    {last : Id}
    (within : part.Within table total.length)
    (leads : table.LeadsTo part.type (part.cut total) indices last final) :
    ∃ reached, indices.foldlM (memberPart table composite) part = .ok reached ∧
      reached.type = last ∧ reached.cut total = final := by
  induction indices generalizing part with
  | nil =>
      cases leads
      exact ⟨part, rfl, rfl, rfl⟩
  | cons index indices hyp =>
      cases leads with
      | part is_type counted cut rest =>
          rw [cut_member within is_type counted, Option.some.injEq] at cut
          have stepped : memberPart table composite part index = .ok _ :=
            memberPart_eq_ok_iff.mpr ⟨_, _, is_type, counted, rfl⟩
          rw [← cut] at rest
          obtain ⟨reached, path, ends⟩ := hyp (within.memberPart layout stepped) rest
          refine ⟨reached, ?_, ends⟩
          rw [List.foldlM_cons, stepped]
          exact path

/-- A value is a part of itself, which is cut out whole. -/
theorem within_whole {value : Value} (is_value : table.value composite = .ok value) :
    Part.Within table value.bytes.length ⟨value.type, 0, value.bytes.length⟩ ∧
      Part.cut ⟨value.type, 0, value.bytes.length⟩ value.bytes = value.bytes := by
  refine ⟨⟨layout.value is_value, by simp⟩, ?_⟩
  simp [Part.cut]

/-- Extraction yields the bytes that a path of indices leads to. -/
theorem extractComposite_eq_ok_iff {indices : List Word} {bytes : Bytes} :
    extractComposite table composite indices = .ok bytes ↔
      ∃ value last, table.value composite = .ok value ∧
        table.LeadsTo value.type value.bytes indices last bytes := by
  constructor
  · intro extracted
    obtain ⟨value, is_value, extracted⟩ := exists_of_bind extracted
    obtain ⟨part, path, extracted⟩ := exists_of_bind extracted
    obtain ⟨within, whole⟩ := within_whole layout is_value
    have leads := leadsTo_of_path layout within path
    rw [whole] at leads
    split at extracted
    · cases extracted
      exact ⟨value, part.type, is_value, leads⟩
    · cases extracted
  · rintro ⟨value, last, is_value, leads⟩
    obtain ⟨within, whole⟩ := within_whole layout is_value
    rw [← whole] at leads
    obtain ⟨part, path, -, rfl⟩ := exists_path layout composite within leads
    rw [extractComposite, is_value]
    simp only [bind, Except.bind, path, if_pos (within.foldlM layout path).2]
    rfl

/-- A path that goes on with an index that counts no part leads nowhere, and the index is
reported. -/
theorem extractComposite_outside {value : Value} {first second : List Word} {index : Word}
    {reached : Id} {bytes : Bytes} {data : DataType} (is_value : table.value composite = .ok value)
    (leads : table.LeadsTo value.type value.bytes first reached bytes)
    (is_type : table.typeOf reached = .ok data) (outside : data.parts[index.toNat]? = none) :
    extractComposite table composite (first ++ index :: second) =
      .error (.typeMismatch composite (.compositeWith index)
        (.members data.kind data.elementCount)) := by
  obtain ⟨within, whole⟩ := within_whole layout is_value
  rw [← whole] at leads
  obtain ⟨part, path, rfl, -⟩ := exists_path layout composite within leads
  rw [extractComposite, is_value]
  simp only [bind, Except.bind, List.foldlM_append, List.foldlM_cons, path,
    memberPart_outside is_type outside]

end

/-! ## Building -/

/-- Values that IDs stand for are found one after the other. -/
theorem Table.mapM_value {table : Table} {ids : List Id} {values : List Value}
    (each : List.Forall₂ (fun id value => table.value id = .ok value) ids values) :
    ids.mapM table.value = .ok values := by
  induction each with
  | nil => rfl
  | cons is_value _ hyp =>
      rw [List.mapM_cons, is_value, hyp]
      rfl

/-- A composite is built of the bytes of its constituents, if they make up the size of the type. -/
theorem foldComposite_of_values {table : Table} {result type : Id} {constituents : List Id}
    {values : List Value}
    (each : List.Forall₂ (fun id value => table.value id = .ok value) constituents values)
    (size : table.sizeOf type = .ok (values.flatMap Value.bytes).length) :
    foldComposite table result type constituents = .ok (values.flatMap Value.bytes) := by
  rw [foldComposite, size, Table.mapM_value each]
  exact if_pos rfl

end ShaderMachine
