import ShaderMachine.Proofs.Sessions

/-! # Unknown instructions

An instruction that nobody knows may be put anywhere between the instructions of a module. Unless
the machine is strict, it changes nothing but where the later instructions stand: the same is
recorded, the same sessions succeed and leave the same outputs, and only a call of the function
whose body it is in counts it, as one more instruction that was skipped.

* **`Gap`** — where words are put into a module, and how many; **`Gap.record`** is a record with its
  places moved accordingly.
* **`Module.inserting`** — a module with one more instruction.
* **`Module.ofWords_inserting`** — the words of such a module are those of the old one with the
  words of the instruction among them.
* **`Module.bodiesAlign_inserting`** — a body has the instruction if it reaches over its place.
* **`Module.unknown_transparent`** — sessions with an unknown instruction. -/

namespace ShaderMachine

/-! ## Moved places -/

/-- Words that are put into a module. -/
structure Gap where
  /-- The offset at which they are put. -/
  place : Nat
  /-- How many they are. -/
  count : Nat

namespace Gap

variable (gap : Gap)

/-- Where an instruction stands. One that stood at the gap stands behind it. -/
def offset (before : Nat) : Nat :=
  if before < gap.place then before else before + gap.count

/-- Where a body starts. One that started at the gap starts with the new words. -/
def start (before : Nat) : Nat :=
  if before ≤ gap.place then before else before + gap.count

/-- A function whose body is moved. -/
def function (before : FunctionRecord) : FunctionRecord :=
  { before with start := gap.start before.start, stop := before.stop.map gap.offset }

/-- A definition whose places are moved. -/
def definition : Definition → Definition
  | .function body => .function (gap.function body)
  | .entryPoint entry => .entryPoint { entry with function := entry.function.map gap.function }
  | .label offset => .label (gap.offset offset)
  | other => other

/-- A record whose places are moved. -/
def record (before : Record) : Record :=
  { before with definition := gap.definition before.definition }

/-- An instruction behind the gap. -/
def instruction (before : Instruction) : Instruction :=
  { before with offset := before.offset + gap.count }

/-- The places that go together. -/
def places : Places :=
  ⟨fun before after => after = gap.start before, fun before after => after = gap.offset before⟩

/-- How many of the new words' instructions a body has: it must reach over the gap. -/
def extra (start stop : Nat) : Nat :=
  if start ≤ gap.place ∧ gap.place ≤ stop then 1 else 0

variable {gap}

/-- A function that corresponds is moved. -/
theorem function_eq {first second : FunctionRecord} (bodies : first.Corresponds gap.places second) :
    second = gap.function first := by
  obtain ⟨returnType, functionType, control, start, stop⟩ := first
  obtain ⟨returnType', functionType', control', start', stop'⟩ := second
  obtain ⟨rfl, rfl, rfl, start_eq, stops⟩ := bodies
  have start_eq : start' = gap.start start := start_eq
  have stop_eq : stop' = stop.map gap.offset := by
    cases stops with
    | some stop_eq => exact congrArg some stop_eq
    | none => rfl
  rw [function, start_eq, stop_eq]

/-- A definition that corresponds is moved. -/
theorem definition_eq {first second : Definition}
    (definitions : first.Corresponds gap.places second) :
    second = gap.definition first := by
  cases definitions with
  | unset => rfl
  | readable readable =>
      cases first with
      | type | constant | var | extendedSet => rfl
      | _ => cases readable
  | @entryPoint first second entries =>
      obtain ⟨models, names, modes, interface, body⟩ := first
      obtain ⟨models', names', modes', interface', body'⟩ := second
      obtain ⟨rfl, rfl, rfl, rfl, bodies⟩ := entries
      have body_eq : body' = body.map gap.function := by
        cases bodies with
        | some bodies => exact congrArg some (function_eq bodies)
        | none => rfl
      rw [body_eq, definition]
  | function bodies =>
      rw [function_eq bodies]
      rfl
  | label stands =>
      rw [definition]
      exact congrArg Definition.label stands

/-- A record that corresponds is moved. -/
theorem record_eq {first second : Record} (records : first.Corresponds gap.places second) :
    second = gap.record first := by
  obtain ⟨name, decorations, definition⟩ := first
  obtain ⟨name', decorations', definition'⟩ := second
  obtain ⟨rfl, rfl, definitions⟩ := records
  have definitions_eq : definition' = gap.definition definition := definition_eq definitions
  rw [record, definitions_eq]

/-- The records of tables that correspond are moved. -/
theorem get_eq {first second : Table} (corresponds : first.Corresponds gap.places second)
    (bound_eq : first.bound = second.bound) (id : Id) :
    second.get id = (first.get id).map gap.record := by
  rw [Table.get, Table.get, bound_eq, record_eq (corresponds.records id)]
  split <;> rfl

/-- An instruction in front of the gap corresponds to itself. -/
theorem corresponds_front {instruction : Instruction} (stop_le : instruction.stop ≤ gap.place) :
    instruction.Corresponds gap.places instruction := by
  refine ⟨rfl, rfl, ?_, ?_⟩
  · have before := instruction.offset_lt_stop
    exact (if_pos (Nat.lt_of_lt_of_le before stop_le)).symm
  · exact (if_pos stop_le).symm

/-- An instruction behind the gap corresponds to the one that is moved. -/
theorem corresponds_behind {instruction : Instruction}
    (le_offset : gap.place ≤ instruction.offset) :
    instruction.Corresponds gap.places (gap.instruction instruction) := by
  refine ⟨rfl, rfl, ?_, ?_⟩
  · exact (if_neg (Nat.not_lt.mpr le_offset)).symm
  · have after := instruction.offset_lt_stop
    have moved : gap.start instruction.stop = instruction.stop + gap.count :=
      if_neg (Nat.not_le.mpr (Nat.lt_of_le_of_lt le_offset after))
    exact (Nat.add_right_comm _ _ _).trans moved.symm

/-- An instruction in front of the gap is in the same bodies as before. -/
theorem startsWithin_front {instruction : Instruction} (stop_le : instruction.stop ≤ gap.place)
    (start stop : Nat) : instruction.startsWithin (gap.start start) (gap.offset stop) =
      instruction.startsWithin start stop := by
  have before := instruction.offset_lt_stop
  rw [Instruction.startsWithin, Instruction.startsWithin, decide_eq_decide, Gap.start, Gap.offset]
  split <;> split <;> omega

/-- An instruction behind the gap is in the same bodies as before. -/
theorem startsWithin_behind {instruction : Instruction} (le_offset : gap.place ≤ instruction.offset)
    (start stop : Nat) :
    (gap.instruction instruction).startsWithin (gap.start start) (gap.offset stop) =
      instruction.startsWithin start stop := by
  have moved : (gap.instruction instruction).offset = instruction.offset + gap.count := rfl
  rw [Instruction.startsWithin, Instruction.startsWithin, decide_eq_decide, moved, Gap.start,
    Gap.offset]
  split <;> split <;> omega

/-- An instruction in the gap is in the bodies that reach over it. -/
theorem startsWithin_gap {instruction : Instruction} (here : instruction.offset = gap.place)
    (nonempty : 0 < gap.count) (start stop : Nat) :
    instruction.startsWithin (gap.start start) (gap.offset stop) =
      decide (start ≤ gap.place ∧ gap.place ≤ stop) := by
  rw [Instruction.startsWithin, decide_eq_decide, here, Gap.start, Gap.offset]
  split <;> split <;> omega

/-- Instructions around the gap correspond, and unknown ones may stand in it. -/
theorem aligned {front behind middle : List Instruction}
    (unknown : ∀ instruction ∈ middle, Opcode.ofNumber? instruction.opcode = none)
    (stop_le : ∀ instruction ∈ front, instruction.stop ≤ gap.place)
    (le_offset : ∀ instruction ∈ behind, gap.place ≤ instruction.offset) :
    Aligned gap.places (front ++ behind) (front ++ (middle ++ behind.map gap.instruction)) 0
      middle.length := by
  have fronts : List.Forall₂ (Instruction.Corresponds gap.places) front front :=
    List.forall₂_same.mpr fun instruction mem => corresponds_front (stop_le instruction mem)
  have behinds : List.Forall₂ (Instruction.Corresponds gap.places) behind
      (behind.map gap.instruction) :=
    List.forall₂_map_right_iff.mpr <| List.forall₂_same.mpr fun instruction mem =>
      corresponds_behind (le_offset instruction mem)
  have joined := (Aligned.of_forall₂ fronts).append
    ((Aligned.of_unknown unknown).append (.of_forall₂ behinds))
  simp only [Nat.zero_add, Nat.add_zero] at joined
  exact joined

/-- Moved instructions are framed behind the gap. -/
theorem isFramed_map {offset : Nat} {instructions : List Instruction}
    (framed : IsFramed offset instructions) :
    IsFramed (offset + gap.count) (instructions.map gap.instruction) := by
  induction instructions generalizing offset with
  | nil => trivial
  | cons first rest hyp =>
      obtain ⟨rfl, short, framed⟩ := framed
      refine ⟨rfl, short, ?_⟩
      have stop_eq : (gap.instruction first).stop = first.stop + gap.count :=
        Nat.add_right_comm _ _ _
      rw [stop_eq]
      exact hyp framed

/-- Moved instructions are noted alike. -/
theorem note_instruction {metadata noted : Metadata} {instruction : Instruction}
    (notes : metadata.note instruction = .ok noted) :
    metadata.note (gap.instruction instruction) = .ok noted := by
  unfold Metadata.note at notes ⊢
  simp only [Gap.instruction]
  split at notes <;> simp_all

/-- Moved instructions are noted alike, one after the other. -/
theorem foldlM_note {metadata noted : Metadata} {instructions : List Instruction}
    (notes : instructions.foldlM Metadata.note metadata = .ok noted) :
    (instructions.map gap.instruction).foldlM Metadata.note metadata = .ok noted := by
  induction instructions generalizing metadata with
  | nil => exact notes
  | cons first rest hyp =>
      rw [List.foldlM_cons] at notes
      obtain ⟨mid, once, notes⟩ := exists_of_bind notes
      rw [List.map_cons, List.foldlM_cons, note_instruction once]
      exact hyp notes

end Gap

/-! ## Modules with one more instruction -/

namespace Module

/-- Where the instruction of an index starts, or where the last one ends. -/
def placeAt (loaded : Module) (index : Nat) : Nat :=
  headerLength + ((loaded.instructions.take index).flatMap Instruction.words).length

/-- Room for an instruction in front of the one of an index. -/
def gapAt (loaded : Module) (index : Nat) (operands : List Word) : Gap :=
  ⟨loaded.placeAt index, operands.length + 1⟩

/-- An instruction in front of the one of an index. -/
def instructionAt (loaded : Module) (index : Nat) (opcode : UInt16) (operands : List Word) :
    Instruction :=
  ⟨loaded.placeAt index, opcode, operands⟩

/-- A module with an instruction in front of the one of an index. -/
def inserting (loaded : Module) (index : Nat) (opcode : UInt16) (operands : List Word) : Module :=
  { loaded with
    instructions := loaded.instructions.take index ++
      loaded.instructionAt index opcode operands ::
        (loaded.instructions.drop index).map (loaded.gapAt index operands).instruction
    instructionCount := loaded.instructionCount + 1 }

variable {loaded : Module} {words : List Word} {index : Nat} {opcode : UInt16}
  {operands : List Word}

/-- The instructions of a module are framed around the new one. -/
theorem isFramed_inserting (framed : IsFramed headerLength loaded.instructions)
    (short : operands.length + 1 < 65536) :
    IsFramed headerLength (loaded.inserting index opcode operands).instructions := by
  rw [← List.take_append_drop index loaded.instructions] at framed
  have moved : IsFramed (loaded.placeAt index + (loaded.gapAt index operands).count)
      ((loaded.instructions.drop index).map (loaded.gapAt index operands).instruction) :=
    Gap.isFramed_map framed.append
  exact framed.front.join ⟨rfl, short, moved⟩

/-- The words of the module are those of the old one with those of the instruction among them. -/
theorem words_inserting (loaded : Module) (index : Nat) (opcode : UInt16) (operands : List Word) :
    (loaded.inserting index opcode operands).words =
      loaded.words.take (loaded.placeAt index) ++
        (loaded.instructionAt index opcode operands).words ++
        loaded.words.drop (loaded.placeAt index) := by
  have words_eq : loaded.words = (loaded.header.words ++
      (loaded.instructions.take index).flatMap Instruction.words) ++
      (loaded.instructions.drop index).flatMap Instruction.words := by
    rw [Module.words, Module.stream, List.append_assoc, ← List.flatMap_append,
      List.take_append_drop]
  have place_eq : loaded.placeAt index = (loaded.header.words ++
      (loaded.instructions.take index).flatMap Instruction.words).length := by
    rw [List.length_append]
    rfl
  have moved : ((loaded.instructions.drop index).map
      (loaded.gapAt index operands).instruction).flatMap Instruction.words =
        (loaded.instructions.drop index).flatMap Instruction.words := by
    rw [List.flatMap_map]
    rfl
  rw [words_eq, place_eq, List.take_left, List.drop_left, Module.words, Module.stream, inserting,
    List.flatMap_append, List.flatMap_cons, moved]
  simp only [List.append_assoc]

/-- An unknown instruction says nothing about a module. -/
theorem note_of_unknown {metadata : Metadata} {instruction : Instruction}
    (unknown : Opcode.ofNumber? instruction.opcode = none) :
    metadata.note instruction = .ok metadata := by
  unfold Metadata.note
  simp only [unknown]

/-- The words of a module load with those of an unknown instruction among them. -/
theorem ofWords_inserting (loads : Module.ofWords words = .ok loaded)
    (unknown : Opcode.ofNumber? opcode = none) (short : operands.length + 1 < 65536) :
    Module.ofWords (words.take (loaded.placeAt index) ++
      (loaded.instructionAt index opcode operands).words ++ words.drop (loaded.placeAt index)) =
        .ok (loaded.inserting index opcode operands) := by
  obtain ⟨rfl, ⟨positive, small⟩, framed, noted, counted⟩ := ofWords_inv loads
  have one_more : (loaded.inserting index opcode operands).instructions.length =
      loaded.instructions.length + 1 := by
    rw [inserting, List.length_append, List.length_cons, List.length_map, List.length_take,
      List.length_drop]
    omega
  rw [← words_inserting]
  refine ofWords_words positive small (isFramed_inserting framed short) ?_
    ((congrArg (· + 1) counted).trans one_more.symm)
  rw [← List.take_append_drop index loaded.instructions, List.foldlM_append] at noted
  obtain ⟨mid, front, behind⟩ := exists_of_bind noted
  have here : mid.note (loaded.instructionAt index opcode operands) = .ok mid :=
    note_of_unknown unknown
  rw [inserting, List.foldlM_append, front]
  change List.foldlM _ mid _ = _
  rw [List.foldlM_cons, here]
  exact Gap.foldlM_note behind

/-! ## Side by side -/

section

variable (framed : IsFramed headerLength loaded.instructions)

include framed

/-- What is in front of the gap ends there or before. -/
theorem stop_le_of_mem_take (index : Nat) (operands : List Word) :
    ∀ instruction ∈ loaded.instructions.take index,
      instruction.stop ≤ (loaded.gapAt index operands).place := by
  rw [← List.take_append_drop index loaded.instructions] at framed
  exact framed.front.stop_le_end

/-- What is behind the gap starts there or later. -/
theorem le_of_mem_drop (index : Nat) (operands : List Word) :
    ∀ instruction ∈ loaded.instructions.drop index,
      (loaded.gapAt index operands).place ≤ instruction.offset := by
  rw [← List.take_append_drop index loaded.instructions] at framed
  exact framed.append.le_offset

variable (unknown : Opcode.ofNumber? opcode = none) (short : operands.length + 1 < 65536)

include unknown

/-- The module has the unknown instruction besides those that correspond. -/
theorem aligned_inserting : Aligned (loaded.gapAt index operands).places loaded.instructions
    (loaded.inserting index opcode operands).instructions 0 1 := by
  have here : ∀ instruction ∈ [loaded.instructionAt index opcode operands],
      Opcode.ofNumber? instruction.opcode = none := by
    simpa [instructionAt] using unknown
  have aligned := Gap.aligned here (stop_le_of_mem_take framed index operands)
    (le_of_mem_drop framed index operands)
  rw [List.take_append_drop] at aligned
  exact aligned

include short

/-- A body has the unknown instruction besides those that correspond if it reaches over the gap. -/
theorem bodiesAlign_inserting :
    loaded.BodiesAlign (loaded.gapAt index operands).places (loaded.gapAt index operands).extra
      (loaded.inserting index opcode operands) := by
  rintro first second start _ stop _ loaded_eq loaded_eq' rfl rfl
  have stop_le := stop_le_of_mem_take framed index operands
  have le_offset := le_of_mem_drop framed index operands
  have here : (loaded.instructionAt index opcode operands).offset =
      (loaded.gapAt index operands).place := rfl
  have nonempty : 0 < (loaded.gapAt index operands).count := Nat.succ_pos _
  rw [body_eq_between framed loaded_eq,
    body_eq_between (isFramed_inserting framed short) loaded_eq', between, between, inserting]
  generalize loaded.gapAt index operands = gap at stop_le le_offset here nonempty ⊢
  -- Around the gap the new bounds select what the old ones do.
  have fronts : (loaded.instructions.take index).filter
      (Instruction.startsWithin (gap.start start) (gap.offset stop)) =
        (loaded.instructions.take index).filter (Instruction.startsWithin start stop) :=
    List.filter_congr fun instruction mem =>
      Gap.startsWithin_front (stop_le instruction mem) start stop
  have behinds : ((loaded.instructions.drop index).map gap.instruction).filter
      (Instruction.startsWithin (gap.start start) (gap.offset stop)) =
        ((loaded.instructions.drop index).filter (Instruction.startsWithin start stop)).map
          gap.instruction := by
    rw [List.filter_map]
    exact congrArg _ <| List.filter_congr fun instruction mem =>
      Gap.startsWithin_behind (le_offset instruction mem) start stop
  have extra_eq : ([loaded.instructionAt index opcode operands].filter
      (Instruction.startsWithin (gap.start start) (gap.offset stop))).length =
        gap.extra start stop := by
    rw [List.filter_singleton, Gap.startsWithin_gap here nonempty, Gap.extra, Bool.cond_decide]
    split <;> rfl
  have whole : loaded.instructions.filter (Instruction.startsWithin start stop) =
      (loaded.instructions.take index).filter (Instruction.startsWithin start stop) ++
        (loaded.instructions.drop index).filter (Instruction.startsWithin start stop) := by
    rw [← List.filter_append, List.take_append_drop]
  rw [whole, ← List.singleton_append, List.filter_append, List.filter_append, fronts, behinds,
    ← extra_eq]
  refine Gap.aligned (fun instruction mem => ?_)
    (fun instruction mem => stop_le instruction (List.mem_of_mem_filter mem))
    fun instruction mem => le_offset instruction (List.mem_of_mem_filter mem)
  rw [List.mem_singleton.mp (List.mem_of_mem_filter mem)]
  exact unknown

end

end Module

/-! ## Sessions -/

namespace Module

variable {configuration : Configuration} {loaded : Module} {words : List Word} {index : Nat}
  {opcode : UInt16} {operands : List Word}

/-- Unless the machine is strict, an unknown instruction between two others is transparent. Its
words load with those of the module. The new module is set up if and only if the old one is, with
the same records but for their places, and with one more instruction skipped. What succeeds in a
session succeeds again, with the same outputs; a call of the function whose body has the instruction
executes and skips one more, which the limit must allow. -/
theorem unknown_transparent (loads : Module.ofWords words = .ok loaded)
    (lenient : configuration.strict = false) (unknown : Opcode.ofNumber? opcode = none)
    (short : operands.length + 1 < 65536) :
    Module.ofWords (words.take (loaded.placeAt index) ++
        (loaded.instructionAt index opcode operands).words ++ words.drop (loaded.placeAt index)) =
      .ok (loaded.inserting index opcode operands) ∧
    ((∃ machine', Machine.ofModule configuration (loaded.inserting index opcode operands) =
        .ok machine') ↔ ∃ machine, Machine.ofModule configuration loaded = .ok machine) ∧
    ∀ machine machine', Machine.ofModule configuration loaded = .ok machine →
      Machine.ofModule configuration (loaded.inserting index opcode operands) = .ok machine' →
      (∀ id, machine'.table.get id =
        (machine.table.get id).map (loaded.gapAt index operands).record) ∧
      machine'.nameAllocations = machine.nameAllocations ∧
      machine'.setupUnsupported = machine.setupUnsupported + 1 ∧
      ∀ tasks reports last, machine.performAll configuration tasks = .ok (reports, last) →
        (∀ report ∈ reports, ∀ summary ∈ report.summary, summary.executed +
          machine.extraAt (loaded.gapAt index operands).extra summary.function ≤
            configuration.maxInstructions) →
        ∃ last', machine'.performAll configuration tasks = .ok (reports.map fun report =>
            report.lengthened (machine.extraAt (loaded.gapAt index operands).extra), last') ∧
          ∀ id, last'.table.get id =
            (last.table.get id).map (loaded.gapAt index operands).record := by
  obtain ⟨-, -, framed, -⟩ := ofWords_inv loads
  -- The instructions align with one more on the right, which is unknown.
  have aligned : Aligned (loaded.gapAt index operands).places loaded.instructions
    (loaded.inserting index opcode operands).instructions 0 1 := aligned_inserting framed unknown
  have bound_le : loaded.bound ≤ (loaded.inserting index opcode operands).bound :=
    UInt32.le_refl _
  have bound_ge : (loaded.inserting index opcode operands).bound ≤ loaded.bound :=
    UInt32.le_refl _
  have relaxes := Configuration.Relaxes.refl configuration
  refine ⟨ofWords_inserting loads unknown short, ⟨?_, ?_⟩, ?_⟩
  · rintro ⟨machine', set_up'⟩
    obtain ⟨machine, set_up, -⟩ := Machine.corresponds_of_ofModule bound_ge relaxes aligned.flip
      (fun more => absurd rfl more) set_up'
    exact ⟨machine, set_up⟩
  · -- Only here the unknown instruction is added, which a strict machine would refuse.
    rintro ⟨machine, set_up⟩
    obtain ⟨machine', set_up', -⟩ := Machine.corresponds_of_ofModule bound_le relaxes aligned
      (fun _ => lenient) set_up
    exact ⟨machine', set_up'⟩
  · intro machine machine' set_up set_up'
    obtain ⟨_, again, loaded_eq', machines, counted⟩ := Machine.corresponds_of_ofModule
      bound_le relaxes aligned (fun _ => lenient) set_up
    cases set_up'.symm.trans again
    have bounds : machine.table.bound = machine'.table.bound := by
      rw [Machine.bound_of_ofModule set_up, Machine.bound_of_ofModule set_up']
      exact UInt32.le_antisymm bound_le bound_ge
    refine ⟨Gap.get_eq machines.table bounds, machines.nameAllocations, counted, ?_⟩
    intro tasks reports last performed enough
    obtain ⟨last', performed', lasts⟩ := machines.performAll relaxes
      (Machine.loaded_of_ofModule set_up) loaded_eq'
      (bodiesAlign_inserting framed unknown short) (fun _ _ _ => lenient) performed enough
    have keeps := Machine.keeps_of_performAll performed
    have keeps' := Machine.keeps_of_performAll performed'
    refine ⟨last', performed', Gap.get_eq lasts.table ?_⟩
    exact keeps.alike.bound.symm.trans (bounds.trans keeps'.alike.bound)

/-- An unknown instruction right behind the head of the entry point of a module with private state,
which is then called twice. -/
theorem unknown_transparent_flagged : ∃ machine reports last machine' last',
    Machine.ofModule {} Machine.flagged = .ok machine ∧
    machine.performAll {} [.enter "main", .enter "main"] = .ok (reports, last) ∧
    Machine.ofModule {} (Machine.flagged.inserting 11 60000 [7]) = .ok machine' ∧
    machine'.setupUnsupported = machine.setupUnsupported + 1 ∧
    machine'.performAll {} [.enter "main", .enter "main"] =
      .ok (reports.map fun report => report.lengthened (machine.extraAt (Gap.extra ⟨48, 2⟩)),
        last') := by
  have loads : Module.ofWords Machine.flagged.words = .ok Machine.flagged :=
    ofWords_words (by decide) (by decide) (by decide) (by decide) rfl
  have evaluated : (Machine.ofModule {} Machine.flagged).toOption.any (fun machine =>
      (machine.performAll {} [.enter "main", .enter "main"]).toOption.any fun answer =>
        answer.1.all fun report => report.summary.all fun summary => decide (summary.executed +
          machine.extraAt (Machine.flagged.gapAt 11 [7]).extra summary.function ≤
            Configuration.maxInstructions {})) = true := by
    decide +kernel
  obtain ⟨machine, set_up, completes⟩ := exists_of_any evaluated
  obtain ⟨⟨reports, last⟩, performed, enough⟩ := exists_of_any completes
  simp only [List.all_eq_true, Option.all_eq_true, decide_eq_true_eq] at enough
  obtain ⟨-, succeeds, transparent⟩ :=
    @unknown_transparent {} Machine.flagged _ 11 60000 [7] loads rfl (by decide) (by decide)
  obtain ⟨machine', set_up'⟩ := succeeds.mpr ⟨machine, set_up⟩
  obtain ⟨-, -, counted, sessions⟩ := transparent machine machine' set_up set_up'
  obtain ⟨last', performed', -⟩ := sessions _ reports last performed enough
  exact ⟨machine, reports, last, machine', last', set_up, performed, set_up', counted, performed'⟩

end Module

end ShaderMachine
