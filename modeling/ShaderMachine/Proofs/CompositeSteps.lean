import ShaderMachine.Proofs.Composites
import ShaderMachine.Proofs.ComputedValues

/-! # Building composites and taking them apart

Instructions that build a composite of parts and take parts out of one are inverse to each other,
and a part of a part is the one that the longer path leads to.

* **`Instruction.Constructs`** and **`Instruction.Extracts`** — the two instructions.
* **`Instruction.TakesApart`** — instructions that take all parts out of a composite.
* **`Machine.GivesEach`** — values are given to IDs one after the other.
* **`Machine.Attained.composites_inverse`** — building and taking apart are inverse. -/

namespace ShaderMachine

/-! ## Instructions on composites -/

namespace Instruction

/-- Whether an instruction builds a composite of a type from constituents. -/
def Constructs (instruction : Instruction) (type result : Id) (constituents : List Id) : Prop :=
  Opcode.ofNumber? instruction.opcode = some .compositeConstruct ∧
    instruction.operands = type :: result :: constituents

/-- Whether an instruction takes the part that a path of indices leads to out of a composite, as a
value of a type. -/
def Extracts (instruction : Instruction) (type result composite : Id) (indices : List Word) :
    Prop :=
  Opcode.ofNumber? instruction.opcode = some .compositeExtract ∧
    instruction.operands = type :: result :: composite :: indices

/-- Whether instructions take the parts of a composite from a place on out of it, one after the
other, each as a value of its type. -/
inductive TakesApart (composite : Id) :
    Nat → List Member → List Id → List Instruction → Prop
  /-- No part is left. -/
  | nil (start : Nat) : TakesApart composite start [] [] []
  /-- The first one is taken out, then the others. -/
  | cons {start : Nat} {index : Word} {member : Member} {members : List Member} {result : Id}
      {results : List Id} {instruction : Instruction} {instructions : List Instruction}
      (at_start : index.toNat = start)
      (extracts : instruction.Extracts member.type result composite [index])
      (rest : TakesApart composite (start + 1) members results instructions) :
      TakesApart composite start (member :: members) (result :: results)
        (instruction :: instructions)

end Instruction

namespace Machine

variable {configuration : Configuration} {machine mid next : Machine} {instruction : Instruction}
  {type result composite : Id} {constituents : List Id} {indices : List Word} {bytes : Bytes}

/-- An instruction that builds a composite computes what its constituents make up. -/
theorem computes_construct (machine : Machine)
    (constructs : instruction.Constructs type result constituents) :
    ∃ cursor, cursor.ahead = [] ∧ machine.ComputesValue instruction type result
      (foldComposite machine.table result type constituents) cursor := by
  obtain ⟨is_construct, operands_eq⟩ := constructs
  have registered : executionTable.get? instruction.opcode = some Execution.compositeConstruct :=
    Dispatch.get?_of_known _ is_construct
  obtain ⟨offset, opcode, operands⟩ := instruction
  subst operands_eq
  refine ⟨_, ?_, Execution.compositeConstruct, registered, rfl⟩
  rfl

/-- An instruction that takes a part out computes what the path leads to. -/
theorem computes_extract (machine : Machine)
    (extracts : instruction.Extracts type result composite indices) :
    ∃ cursor, cursor.ahead = [] ∧ machine.ComputesValue instruction type result
      (extractComposite machine.table composite indices) cursor := by
  obtain ⟨is_extract, operands_eq⟩ := extracts
  have registered : executionTable.get? instruction.opcode = some Execution.compositeExtract :=
    Dispatch.get?_of_known _ is_extract
  obtain ⟨offset, opcode, operands⟩ := instruction
  subst operands_eq
  refine ⟨_, ?_, Execution.compositeExtract, registered, rfl⟩
  rfl

/-- An instruction that builds a composite yields the bytes of its constituents. -/
theorem yields_construct (configuration : Configuration) {values : List Value}
    (constructs : instruction.Constructs type result constituents)
    (each : List.Forall₂ (fun id value => machine.table.value id = .ok value) constituents values)
    (size : machine.table.sizeOf type = .ok (values.flatMap Value.bytes).length)
    (holds : machine.table.MayHold result) :
    machine.Yields configuration instruction result ⟨type, values.flatMap Value.bytes⟩ := by
  obtain ⟨cursor, at_end, computes⟩ := machine.computes_construct constructs
  exact (yields_iff computes at_end fun _ => sound_foldComposite result type constituents).mpr
    ⟨foldComposite_of_values each size, size, holds⟩

/-- An instruction that takes a part out yields what the path leads to. -/
theorem yields_extract_iff (layout : machine.table.Layout)
    (extracts : instruction.Extracts type result composite indices) :
    machine.Yields configuration instruction result ⟨type, bytes⟩ ↔
      (∃ value last, machine.table.value composite = .ok value ∧
        machine.table.LeadsTo value.type value.bytes indices last bytes) ∧
      machine.table.sizeOf type = .ok bytes.length ∧ machine.table.MayHold result := by
  obtain ⟨cursor, at_end, computes⟩ := machine.computes_extract extracts
  rw [yields_iff computes at_end fun _ => sound_extractComposite composite indices,
    extractComposite_eq_ok_iff layout]

/-- One that yields nothing fails. -/
theorem fails_extract_iff (extracts : instruction.Extracts type result composite indices) :
    machine.Fails configuration instruction ↔
      ∀ bytes, ¬ machine.Yields configuration instruction result ⟨type, bytes⟩ := by
  obtain ⟨cursor, at_end, computes⟩ := machine.computes_extract extracts
  exact fails_iff computes at_end fun _ => sound_extractComposite composite indices

/-! ## Values given one after the other -/

/-- Whether a machine becomes another one by giving values to IDs one after the other. -/
inductive GivesEach : Machine → List Id → List Value → Machine → Prop
  /-- None is given. -/
  | nil (machine : Machine) : GivesEach machine [] [] machine
  /-- One is given, then the others. -/
  | cons {machine mid next : Machine} {id : Id} {ids : List Id} {value : Value}
      {values : List Value}
      (gives : machine.Gives id value mid) (rest : GivesEach mid ids values next) :
      GivesEach machine (id :: ids) (value :: values) next

namespace GivesEach

variable {ids : List Id} {values : List Value} (given : machine.GivesEach ids values next)

include given

/-- No type comes or goes. -/
theorem typeOf_iff {other : Id} {data : DataType} :
    next.table.typeOf other = .ok data ↔ machine.table.typeOf other = .ok data := by
  induction given with
  | nil => exact Iff.rfl
  | cons gives _ hyp => exact hyp.trans gives.typeOf_iff

/-- The same IDs may be given values. -/
theorem mayHold_iff {other : Id} : next.table.MayHold other ↔ machine.table.MayHold other := by
  induction given with
  | nil => exact Iff.rfl
  | cons gives _ hyp => exact hyp.trans gives.mayHold_iff

/-- The values of other IDs stay. -/
theorem value_of_not_mem {other : Id} (different : other ∉ ids) :
    next.table.value other = machine.table.value other := by
  induction given with
  | nil => rfl
  | cons gives _ hyp =>
      rw [List.mem_cons, not_or] at different
      exact (hyp different.2).trans (gives.value_of_ne different.1)

/-- Every ID stands for the value that it was given, if no other one was given to it later. -/
theorem values_of_nodup (distinct : ids.Nodup) :
    List.Forall₂ (fun id value => next.table.value id = .ok value) ids values := by
  induction given with
  | nil => exact .nil
  | cons gives rest hyp =>
      rw [List.nodup_cons] at distinct
      refine .cons ?_ (hyp distinct.2)
      exact (rest.value_of_not_mem distinct.1).trans gives.value_eq

end GivesEach

/-- Paths lead where they led before. -/
theorem Gives.leadsTo_iff {id last : Id} {value : Value} {final : Bytes}
    (gives : machine.Gives id value next) :
    next.table.LeadsTo type bytes indices last final ↔
      machine.table.LeadsTo type bytes indices last final :=
  ⟨.of_keepsTypes fun _ _ => gives.typeOf_iff.mp, .of_keepsTypes fun _ _ => gives.typeOf_iff.mpr⟩

/-- A machine that an instruction leads to is attained. -/
theorem Attained.of_step {loaded : Module} {skipped : Bool} (attained : Attained loaded machine)
    (stepped : machine.step configuration instruction = ⟨next, .ok skipped⟩) :
    Attained loaded next := by
  have after := attained.step configuration instruction
  rw [stepped] at after
  exact after

/-! ## Taking composites apart -/

section

variable {loaded : Module} {value : Value} {data : DataType} {values : List Value}

/-- An index leads to the piece that it counts. -/
theorem leadsTo_piece {table : Table} (bytes : Bytes) {index : Word} {member : Member}
    (is_type : table.typeOf type = .ok data) (counted : data.parts[index.toNat]? = some member) :
    ∃ piece, (pieces data.parts bytes)[index.toNat]? = some piece ∧
      table.LeadsTo type bytes [index] member.type piece := by
  have cut := getElem?_pieces data.parts bytes index.toNat
  rw [counted, Option.map_some] at cut
  exact ⟨_, cut, .part is_type counted cut (.here _ _)⟩

/-- Instructions that take the parts of a composite from a place on out of it give its pieces to
their results and go on. -/
theorem exists_run_takesApart (executed unsupported : Nat) {start : Nat} {members : List Member}
    {results : List Id} {extracts : List Instruction} (attained : Attained loaded machine)
    (is_value : machine.table.value composite = .ok value)
    (is_type : machine.table.typeOf value.type = .ok data)
    (takes : Instruction.TakesApart composite start members results extracts)
    (members_eq : data.parts.drop start = members) (other : composite ∉ results)
    (hold : ∀ id ∈ results, machine.table.MayHold id)
    (limit : executed + extracts.length ≤ configuration.maxInstructions) :
    ∃ next values, machine.GivesEach results values next ∧
      values.map Value.bytes = (pieces data.parts value.bytes).drop start ∧
      ∀ rest, machine.run configuration executed unsupported (extracts ++ rest) =
        next.run configuration (executed + extracts.length) unsupported rest := by
  induction takes generalizing machine executed with
  | nil start =>
      refine ⟨machine, [], .nil machine, ?_, fun rest => rfl⟩
      rw [List.drop_eq_nil_iff] at members_eq
      rw [List.map_nil, List.drop_eq_nil_of_le]
      rw [length_pieces]
      exact members_eq
  | @cons start index member members result results instruction extracts at_start extract takes
      hyp =>
      subst at_start
      rw [List.mem_cons, not_or] at other
      rw [List.length_cons] at limit
      have counted : data.parts[index.toNat]? = some member := by
        have first : (data.parts.drop index.toNat)[0]? = data.parts[index.toNat]? :=
          List.getElem?_drop
        rw [← first, members_eq]
        rfl
      have later : data.parts.drop (index.toNat + 1) = members := by
        rw [← List.tail_drop, members_eq, List.tail_cons]
      obtain ⟨piece, cut, leads⟩ := leadsTo_piece value.bytes is_type counted
      have layout := attained.table_layout
      have piece_size := leads.sizeOf layout (layout.value is_value)
      -- The part is taken out; what the others need is still there.
      have yields : machine.Yields configuration instruction result ⟨member.type, piece⟩ :=
        (yields_extract_iff layout extract).mpr ⟨⟨value, member.type, is_value, leads⟩, piece_size,
          hold result List.mem_cons_self⟩
      obtain ⟨mid, stepped, gives⟩ := yields
      obtain ⟨next, values, given, bytes_eq, ran⟩ := hyp (executed + 1)
        (attained.of_step stepped) ((gives.value_of_ne other.1).trans is_value)
        (gives.typeOf_iff.mpr is_type) later other.2
        (fun id mem => gives.mayHold_iff.mpr (hold id (List.mem_cons_of_mem result mem))) (by omega)
      refine ⟨next, ⟨member.type, piece⟩ :: values, .cons gives given, ?_, fun rest => ?_⟩
      · obtain ⟨within, piece_eq⟩ := List.getElem?_eq_some_iff.mp cut
        rw [List.map_cons, bytes_eq, List.drop_eq_getElem_cons within, piece_eq]
      · rw [List.cons_append, run_cons (by omega) stepped, if_neg Bool.false_ne_true,
          Nat.add_zero unsupported, ran, List.length_cons, Nat.add_assoc, Nat.add_comm 1]

/-- The pieces of all parts put together are the value that they were cut from. -/
theorem flatMap_of_pieces {table : Table} (layout : table.Layout)
    (is_value : table.value composite = .ok value) (is_type : table.typeOf value.type = .ok data)
    (aggregate : data.IsAggregate)
    (bytes_eq : values.map Value.bytes = pieces data.parts value.bytes) :
    values.flatMap Value.bytes = value.bytes := by
  have size : data.size = value.bytes.length :=
    Except.ok.inj ((Table.sizeOf_of_typeOf is_type).symm.trans (layout.value is_value))
  rw [List.flatMap_def, bytes_eq]
  exact flatten_pieces (by rw [DataType.membersSize_parts aggregate, size])

/-- Constituents that have the sizes of the parts of a type have its size together. -/
theorem length_flatMap_of_sizes (aggregate : data.IsAggregate)
    (sizes : values.map (fun value => value.bytes.length) = data.parts.map Member.size) :
    (values.flatMap Value.bytes).length = data.size := by
  rw [List.length_flatMap, sizes, ← DataType.membersSize_parts aggregate]
  rfl

/-- An index takes the bytes of the constituent that it counts out of what is built of them. -/
theorem leadsTo_constituent {table : Table} {index : Word} (is_type : table.typeOf type = .ok data)
    (aggregate : data.IsAggregate)
    (sizes : values.map (fun value => value.bytes.length) = data.parts.map Member.size)
    (below : index.toNat < data.elementCount) :
    ∃ value last, values[index.toNat]? = some value ∧
      table.LeadsTo type (values.flatMap Value.bytes) [index] last value.bytes := by
  rw [← DataType.length_parts aggregate] at below
  obtain ⟨piece, cut, leads⟩ := leadsTo_piece (values.flatMap Value.bytes) is_type
    (List.getElem?_eq_getElem below)
  have parts_sizes : (values.map Value.bytes).map List.length = data.parts.map Member.size := by
    rw [List.map_map]
    exact sizes
  rw [List.flatMap_def, pieces_flatten parts_sizes, List.getElem?_map,
    Option.map_eq_some_iff] at cut
  obtain ⟨value, at_index, rfl⟩ := cut
  exact ⟨value, _, at_index, leads⟩

/-- What is taken out of a value by one path after the other is what both of them together lead to.
-/
theorem leads_onward_iff {stored reached : Id} {first second : List Word} {mid_bytes final : Bytes}
    (is_value : machine.table.value composite = .ok value)
    (leads : machine.table.LeadsTo value.type value.bytes first reached mid_bytes)
    (gives : machine.Gives stored ⟨reached, mid_bytes⟩ next) :
    (∃ value last, machine.table.value composite = .ok value ∧
        machine.table.LeadsTo value.type value.bytes (first ++ second) last final) ↔
      ∃ value last, next.table.value stored = .ok value ∧
        next.table.LeadsTo value.type value.bytes second last final := by
  constructor
  · rintro ⟨value', last, is_value', whole⟩
    cases is_value.symm.trans is_value'
    exact ⟨_, last, gives.value_eq, gives.leadsTo_iff.mpr (leads.append_iff.mp whole)⟩
  · rintro ⟨value', last, is_value', rest⟩
    cases gives.value_eq.symm.trans is_value'
    exact ⟨value, last, is_value, leads.append (gives.leadsTo_iff.mp rest)⟩

end

/-! ## The inverse laws -/

/-- Whether aggregates are built of constituents that have the sizes of their parts one by one, and
an index below the count then takes out the bytes of the constituent that it counts. -/
def TakesOutConstituents (configuration : Configuration) (machine : Machine) : Prop :=
  ∀ (construct : Instruction) (type result : Id) (constituents : List Id) (data : DataType)
    (values : List Value),
    construct.Constructs type result constituents → machine.table.typeOf type = .ok data →
    data.IsAggregate →
    List.Forall₂ (fun id value => machine.table.value id = .ok value) constituents values →
    values.map (fun value => value.bytes.length) = data.parts.map Member.size →
    machine.table.MayHold result →
    ∃ next, machine.step configuration construct = ⟨next, .ok false⟩ ∧
      machine.Gives result ⟨type, values.flatMap Value.bytes⟩ next ∧
      ∀ index : Word, index.toNat < data.elementCount → ∃ value,
        values[index.toNat]? = some value ∧
        ∀ (extract : Instruction) (part_type target : Id),
          extract.Extracts part_type target result [index] →
          next.table.sizeOf part_type = .ok value.bytes.length → next.table.MayHold target →
          next.Yields configuration extract target ⟨part_type, value.bytes⟩

/-- Whether a value of an aggregate type of which all parts are taken out is built of them again. -/
def RebuildsFromParts (configuration : Configuration) (machine : Machine) : Prop :=
  ∀ (composite result : Id) (value : Value) (data : DataType) (results : List Id)
    (extracts : List Instruction) (construct : Instruction) (executed unsupported : Nat),
    machine.table.value composite = .ok value → machine.table.typeOf value.type = .ok data →
    data.IsAggregate → Instruction.TakesApart composite 0 data.parts results extracts →
    composite ∉ results → results.Nodup → (∀ id ∈ results, machine.table.MayHold id) →
    construct.Constructs value.type result results → machine.table.MayHold result →
    executed + extracts.length < configuration.maxInstructions →
    ∃ next, machine.run configuration executed unsupported (extracts ++ [construct]) =
        ⟨next, .ok (executed + extracts.length + 1, unsupported)⟩ ∧
      next.table.value result = .ok value

/-- Whether what a path leads to is taken out as a value of the type that it leads to, from which
another path then leads on to what both of them together lead to, and fails if they do. -/
def LeadsOnward (configuration : Configuration) (machine : Machine) : Prop :=
  ∀ (composite stored reached : Id) (value : Value) (bytes : Bytes) (first : List Word)
    (extract : Instruction),
    machine.table.value composite = .ok value →
    machine.table.LeadsTo value.type value.bytes first reached bytes →
    extract.Extracts reached stored composite first → machine.table.MayHold stored →
    ∃ next, machine.step configuration extract = ⟨next, .ok false⟩ ∧
      machine.Gives stored ⟨reached, bytes⟩ next ∧
      ∀ (second : List Word) (type target : Id) (direct further : Instruction),
        direct.Extracts type target composite (first ++ second) →
        further.Extracts type target stored second →
        (∀ final, machine.Yields configuration direct target ⟨type, final⟩ ↔
          next.Yields configuration further target ⟨type, final⟩) ∧
        (machine.Fails configuration direct ↔ next.Fails configuration further)

/-- Whether a path that leads nowhere fails, and so does every path that starts with it. -/
def FailsAstray (configuration : Configuration) (machine : Machine) : Prop :=
  ∀ (composite type target : Id) (value : Value) (first second : List Word) (direct : Instruction),
    machine.table.value composite = .ok value →
    (∀ reached bytes, ¬ machine.table.LeadsTo value.type value.bytes first reached bytes) →
    direct.Extracts type target composite (first ++ second) → machine.Fails configuration direct

/-- Whether an index that is not below the count of an aggregate, or any index into something else,
fails with a mismatch that says so, and nothing changes. -/
def ReportsOutside (configuration : Configuration) (machine : Machine) : Prop :=
  ∀ (composite type target reached : Id) (value : Value) (bytes : Bytes) (data : DataType)
    (first second : List Word) (index : Word) (direct : Instruction),
    machine.table.value composite = .ok value →
    machine.table.LeadsTo value.type value.bytes first reached bytes →
    machine.table.typeOf reached = .ok data → (data.IsAggregate → data.elementCount ≤ index.toNat) →
    direct.Extracts type target composite (first ++ index :: second) →
    machine.step configuration direct = ⟨machine, .error (.typeMismatch composite
      (.compositeWith index) (.members data.kind data.elementCount))⟩

section

variable {loaded : Module} (attained : Attained loaded machine) (configuration : Configuration)

include attained

/-- What is built of constituents is taken apart into them. -/
theorem Attained.takesOutConstituents : machine.TakesOutConstituents configuration := by
  intro construct type result constituents data values constructs is_type aggregate each sizes holds
  have size : machine.table.sizeOf type = .ok (values.flatMap Value.bytes).length := by
    rw [length_flatMap_of_sizes aggregate sizes]
    exact Table.sizeOf_of_typeOf is_type
  obtain ⟨next, stepped, gives⟩ :=
    yields_construct configuration constructs each size holds
  refine ⟨next, stepped, gives, fun index below => ?_⟩
  obtain ⟨value, last, at_index, leads⟩ :=
    leadsTo_constituent (gives.typeOf_iff.mpr is_type) aggregate sizes below
  refine ⟨value, at_index, fun extract part_type target extracts part_size may_hold => ?_⟩
  exact (yields_extract_iff (attained.of_step stepped).table_layout extracts).mpr
    ⟨⟨_, last, gives.value_eq, leads⟩, part_size, may_hold⟩

/-- What is taken apart is built again of its parts. -/
theorem Attained.rebuildsFromParts : machine.RebuildsFromParts configuration := by
  intro composite result value data results extracts construct executed unsupported is_value is_type
    aggregate takes other distinct hold constructs holds limit
  have layout := attained.table_layout
  obtain ⟨mid, values, given, bytes_eq, ran⟩ := exists_run_takesApart executed unsupported
    attained is_value is_type takes rfl other hold (Nat.le_of_lt limit)
  have whole : values.flatMap Value.bytes = value.bytes :=
    flatMap_of_pieces layout is_value is_type aggregate bytes_eq
  have size : mid.table.sizeOf value.type = .ok (values.flatMap Value.bytes).length := by
    rw [Table.sizeOf_of_typeOf (given.typeOf_iff.mpr is_type), whole,
      ← Table.sizeOf_of_typeOf is_type]
    exact layout.value is_value
  -- After all parts were taken out, every result still holds its own.
  obtain ⟨next, stepped, gives⟩ := yields_construct configuration constructs
    (given.values_of_nodup distinct) size (given.mayHold_iff.mpr holds)
  refine ⟨next, ?_, ?_⟩
  · rw [ran, run_cons limit stepped]
    rfl
  · rw [gives.value_eq, whole]

/-- A part of a part is what the longer path leads to. -/
theorem Attained.leadsOnward : machine.LeadsOnward configuration := by
  intro composite stored reached value bytes first extract is_value leads extracts holds
  have layout := attained.table_layout
  have size := leads.sizeOf layout (layout.value is_value)
  have yields : machine.Yields configuration extract stored ⟨reached, bytes⟩ :=
    (yields_extract_iff layout extracts).mpr ⟨⟨value, reached, is_value, leads⟩, size, holds⟩
  obtain ⟨next, stepped, gives⟩ := yields
  refine ⟨next, stepped, gives, fun second type target direct further directly onwards => ?_⟩
  have same (final : Bytes) : machine.Yields configuration direct target ⟨type, final⟩ ↔
      next.Yields configuration further target ⟨type, final⟩ := by
    rw [yields_extract_iff layout directly,
      yields_extract_iff (attained.of_step stepped).table_layout onwards,
      leads_onward_iff is_value leads gives, gives.sizeOf_iff, gives.mayHold_iff]
  refine ⟨same, ?_⟩
  rw [fails_extract_iff directly, fails_extract_iff onwards]
  exact forall_congr' fun final => not_congr (same final)

/-- Paths that lead nowhere fail. -/
theorem Attained.failsAstray : machine.FailsAstray configuration := by
  intro composite type target value first second direct is_value nowhere directly
  rw [fails_extract_iff directly]
  intro bytes yields
  obtain ⟨⟨value', last, is_value', whole⟩, -⟩ :=
    (yields_extract_iff attained.table_layout directly).mp yields
  cases is_value.symm.trans is_value'
  obtain ⟨reached, reached_bytes, leads⟩ := whole.exists_of_append
  exact nowhere reached reached_bytes leads

/-- An index that counts no part is reported. -/
theorem Attained.reportsOutside : machine.ReportsOutside configuration := by
  intro composite type target reached value bytes data first second index direct is_value leads
    is_type
    beyond directly
  have no_part : data.parts[index.toNat]? = none := by
    by_cases aggregate : data.IsAggregate
    · rw [List.getElem?_eq_none_iff, DataType.length_parts aggregate]
      exact beyond aggregate
    · rw [DataType.parts_eq_nil aggregate]
      rfl
  obtain ⟨cursor, -, computes⟩ := machine.computes_extract directly
  refine step_of_not_computed computes (fun _ => sound_extractComposite composite _) ?_
  rw [extractComposite_outside attained.table_layout is_value leads is_type no_part]
  rfl

end

/-- On every machine that a module leads to, in the middle of calls, too, building composites and
taking them apart are inverse. Constituents of the sizes of the parts are taken out of what is built
of them, a value is built again of all its parts, one path after another leads where both together
lead, paths that lead nowhere fail, and an index that counts no part is reported. -/
theorem Attained.composites_inverse {loaded : Module} (attained : Attained loaded machine)
    (configuration : Configuration) :
    machine.TakesOutConstituents configuration ∧ machine.RebuildsFromParts configuration ∧
      machine.LeadsOnward configuration ∧ machine.FailsAstray configuration ∧
      machine.ReportsOutside configuration :=
  ⟨attained.takesOutConstituents configuration, attained.rebuildsFromParts configuration,
    attained.leadsOnward configuration, attained.failsAstray configuration,
    attained.reportsOutside configuration⟩

/-- A module with a structure of two floats and one, and a constant of it. -/
def nested : Module where
  header := .ofBound 10 0
  instructions := [⟨5, 22, [1, 32]⟩, ⟨8, 23, [2, 1, 2]⟩, ⟨12, 30, [3, 2, 1]⟩,
    ⟨16, 43, [1, 4, 0x3F800000]⟩, ⟨20, 43, [1, 5, 0x40000000]⟩, ⟨24, 44, [2, 6, 4, 5]⟩,
    ⟨29, 44, [3, 7, 6, 4]⟩]
  metadata := {}
  instructionCount := 7

/-- The second float of the first part of the constant is taken out at once, and out of the first
part. -/
theorem composites_inverse_nested : ∃ machine next, Attained nested machine ∧
    machine.step {} ⟨34, 81, [2, 8, 7, 0]⟩ = ⟨next, .ok false⟩ ∧
    machine.Yields {} ⟨39, 81, [1, 9, 7, 0, 1]⟩ 9 ⟨1, [0, 0, 0, 64]⟩ ∧
    next.Yields {} ⟨39, 81, [1, 9, 8, 1]⟩ 9 ⟨1, [0, 0, 0, 64]⟩ := by
  have evaluated : ((ofModule {} nested).toOption.any fun machine =>
      machine.table.value 7 = .ok ⟨3, [0, 0, 128, 63, 0, 0, 0, 64, 0, 0, 128, 63]⟩ &&
      machine.table.typeOf 3 = .ok (.struct [⟨2, 8⟩, ⟨1, 4⟩]) &&
      machine.table.typeOf 2 = .ok (.vector [⟨1, 4⟩, ⟨1, 4⟩]) &&
      machine.table.sizeOf 1 = .ok 4 && machine.table.get 8 = .ok {} &&
      machine.table.get 9 = .ok {}) = true := by decide +kernel
  obtain ⟨machine, set_up, evaluated⟩ := exists_of_any evaluated
  simp only [Bool.and_eq_true, decide_eq_true_eq] at evaluated
  obtain ⟨⟨⟨⟨⟨is_value, is_struct⟩, is_vector⟩, size⟩, fresh⟩, fresh'⟩ := evaluated
  have attained : Attained nested machine := .reachable (.setUp set_up)
  have first : machine.table.LeadsTo 3 [0, 0, 128, 63, 0, 0, 0, 64, 0, 0, 128, 63] [0] 2
      [0, 0, 128, 63, 0, 0, 0, 64] := .part is_struct rfl rfl (.here 2 _)
  have second : machine.table.LeadsTo 2 [0, 0, 128, 63, 0, 0, 0, 64] [1] 1 [0, 0, 0, 64] :=
    .part is_vector rfl rfl (.here 1 _)
  obtain ⟨next, stepped, -, onward⟩ := (attained.composites_inverse {}).2.2.1 7 8 2 _ _ [0]
    ⟨34, 81, [2, 8, 7, 0]⟩ is_value first ⟨rfl, rfl⟩ ⟨_, fresh, .inl rfl⟩
  have directly : machine.Yields {} ⟨39, 81, [1, 9, 7, 0, 1]⟩ 9 ⟨1, [0, 0, 0, 64]⟩ :=
    (yields_extract_iff attained.table_layout ⟨rfl, rfl⟩).mpr
      ⟨⟨_, 1, is_value, first.append second⟩, size, _, fresh', .inl rfl⟩
  exact ⟨machine, next, attained, stepped, directly,
    ((onward [1] 1 9 ⟨39, 81, [1, 9, 7, 0, 1]⟩ ⟨39, 81, [1, 9, 8, 1]⟩ ⟨rfl, rfl⟩
      ⟨rfl, rfl⟩).1 _).mp directly⟩

end Machine

end ShaderMachine
