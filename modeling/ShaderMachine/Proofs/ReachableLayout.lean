import ShaderMachine.Proofs.Reachable
import ShaderMachine.Proofs.SetupSteps

/-! # Reachable machines are laid out

Whatever a module declares and whatever inputs are bound and functions are called, every value of
the result table has the size of its type and every aggregate type notes the sizes of its parts.

* **`Machine.Reachable.laid_out`** — their tables are laid out, so two faults never end a call. -/

namespace ShaderMachine

/-! ## Tables that stay laid out -/

/-- A declaration keeps a table laid out. -/
theorem Table.Declares.layout {gives : Prop} {table next : Table}
    (declares : table.Declares gives next)
    (layout : table.Layout) : next.Layout := by
  cases declares with
  | keep => exact layout
  | describe found same =>
      refine layout.put found (fun type is => same.trans is) ?_
      rw [same]
      exact layout _ _ found
  | define found fresh fits plain =>
      refine layout.put found (fun type is => ?_) fits
      rw [fresh] at is
      cases is
  | enter found enters before same =>
      refine layout.put found (fun type is => ?_) ?_
      · rcases before with unset | ⟨body, function⟩ | ⟨known, entry⟩
        · cases unset.symm.trans is
        · cases function.symm.trans is
        · cases entry.symm.trans is
      · rw [enters]
        trivial

/-- Noting where a function ends changes neither types nor data. -/
theorem Definition.endFunction_eq (definition : Definition) (stop : Nat) :
    definition.endFunction stop = definition ∨
      ∀ table, (definition.endFunction stop).Fits table ∧ ∀ type, definition ≠ .type type := by
  cases definition with
  | function body => exact Or.inr fun table => ⟨trivial, by simp⟩
  | entryPoint entry => exact Or.inr fun table => ⟨trivial, by simp⟩
  | _ => exact Or.inl rfl

/-- An instruction of a module keeps a table laid out. -/
theorem Setup.Moves.layout {setup next : Setup} {instruction : Instruction}
    (moves : setup.Moves instruction next) (layout : setup.table.Layout) : next.table.Layout := by
  unfold Moves at moves
  split at moves
  · obtain ⟨-, id, record, changed, body, found, before, -, enters, -, -, -, table_eq, -⟩ := moves
    rw [table_eq]
    refine layout.put found (fun type is => ?_) ?_
    · rcases before with unset | ⟨entry, is_entry⟩
      · cases unset.symm.trans is
      · cases is_entry.symm.trans is
    · rcases enters with ⟨entry, is_entry⟩ | is_function
      · rw [is_entry]
        trivial
      · rw [is_function]
        trivial
  · obtain ⟨id, record, -, found, table_eq, -⟩ := moves
    rw [table_eq]
    rcases Definition.endFunction_eq record.definition instruction.offset with same | other
    · refine layout.put found (fun type is => same.trans is) ?_
      rw [Record.ended, same]
      exact layout id record found
    · refine layout.put found (fun type is => absurd is ((other setup.table).2 type)) ?_
      exact (other setup.table).1
  · exact moves.2.layout layout

/-- The pass over a module leads to a table that is laid out. -/
theorem Setup.layout_of_foldlM {configuration : Configuration} {instructions : List Instruction}
    {setup last : Setup} (layout : setup.table.Layout)
    (passed : instructions.foldlM (step configuration) setup = .ok last) : last.table.Layout :=
  foldlM_preserves (P := fun setup => setup.table.Layout)
    (fun _ _ _ _ stepped => (step_inv stepped).layout) passed layout

/-- A module is set up with a table that is laid out. -/
theorem Setup.layout_of_run {configuration : Configuration} {loaded : Module} {setup : Setup}
    (passed : run configuration loaded = .ok setup) : setup.table.Layout :=
  layout_of_foldlM (Table.layout_ofBound loaded.bound) (run_inv passed).1

/-- An executed instruction keeps a table laid out. -/
theorem Table.Change.layout {table next : Table} (change : table.Change next)
    (layout : table.Layout) : next.Layout := by
  cases change with
  | keep => exact layout
  | touch found => exact layout.put found (fun type is => is) (layout _ _ found)
  | @assign id record definition found is_data fits before =>
      refine layout.put found (fun type is => ?_) fits
      -- A type is neither unset nor data, so it is not replaced.
      rcases before with unset | same_kind
      · cases unset.symm.trans is
      · rw [is] at same_kind
        cases definition with
        | type type => cases is_data
        | _ => cases same_kind
  | @store id record contents data found is_variable length_eq =>
      refine layout.put found (fun type is => ?_) ?_
      · cases is_variable.symm.trans is
      · have fits := layout.contents found is_variable
        refine ⟨fits.pointer, ?_⟩
        rw [length_eq]
        exact fits.data

/-- Executed instructions keep a table laid out. -/
theorem Table.Changes.layout {table next : Table} (changes : table.Changes next)
    (layout : table.Layout) : next.Layout := by
  induction changes with
  | refl => exact layout
  | tail _ change hyp => exact change.layout hyp

namespace Machine

/-! ## Calls -/

variable {configuration : Configuration} {machine : Machine}

/-- A body is not found if its ID is out of range, if that stands for no function, or if the
function has no end. -/
theorem bodyBounds_error {id : Id} {error : MachineError}
    (failed : machine.bodyBounds id = .error error) :
    error = .idOutOfRange id machine.table.bound ∨ error = .undefinedId id ∨
      error = .unterminatedFunction id := by
  have ends := machine.boundsEnds id
  rw [failed] at ends
  cases ends with
  | outOfRange => exact Or.inl rfl
  | undefined => exact Or.inr (Or.inl rfl)
  | unterminated => exact Or.inr (Or.inr rfl)

/-- A call that fails does not find its body, is cut off, or ends in a fault of an instruction. -/
theorem call_faults {id : Id} {error : MachineError}
    (failed : (machine.call configuration id).result = .error error) :
    (error = .idOutOfRange id machine.table.bound ∨ error = .undefinedId id ∨
        error = .unterminatedFunction id) ∨
      error = .executionLimitExceeded configuration.maxInstructions ∨
      ∃ table instruction, machine.table.Changes table ∧ error.Arises table instruction := by
  have ends := machine.callEnds configuration id
  generalize machine.call configuration id = outcome at ends failed
  cases ends with
  | unbound bounds =>
      cases failed
      exact Or.inl (bodyBounds_error bounds)
  | completed bounds ran => cases failed
  | @failed start stop next _ bounds ran =>
      cases failed
      have faults := (run_changes configuration 0 0 (machine.withOutputs Slots.noOutputs)
        (machine.body start stop)).2
      rw [ran] at faults
      rcases faults error rfl with limit | ⟨table, changes, instruction, -, arises⟩
      · exact Or.inr (Or.inl limit)
      · exact Or.inr (Or.inr ⟨table, instruction, changes, arises⟩)

/-- In a table that is laid out no call ends in a fault that the layout rules out. -/
theorem fitsLayout_of_call {id : Id} {error : MachineError} (layout : machine.table.Layout)
    (failed : (machine.call configuration id).result = .error error) : error.FitsLayout := by
  -- A fault of the body arises in a table that is laid out, too.
  rcases call_faults failed with (rfl | rfl | rfl) | rfl | ⟨table, instruction, changes, arises⟩
  · trivial
  · trivial
  · trivial
  · trivial
  · exact arises.fitsLayout (changes.layout layout)

/-! ## Reachable machines -/

/-- The tables of reachable machines are laid out. -/
theorem Reachable.table_layout {loaded : Module} (reachable : Reachable loaded machine) :
    machine.table.Layout := by
  obtain ⟨-, first, setup, passed, changes⟩ := reachable.exists_setUp
  exact changes.layout (Setup.layout_of_run passed)

/-- The table of every reachable machine is laid out, and neither a call of a function nor one of an
entry point ends in a fault that this rules out. -/
theorem Reachable.laid_out {loaded : Module} (reachable : Reachable loaded machine) :
    machine.table.Layout ∧
      (∀ configuration id error, (machine.call configuration id).result = .error error →
        error.FitsLayout) ∧
      ∀ configuration name error, (machine.callEntryPoint configuration name).result =
        .error error → error.FitsLayout := by
  have layout := reachable.table_layout
  refine ⟨layout, fun _ _ _ failed => fitsLayout_of_call layout failed,
    fun configuration name error failed => ?_⟩
  rcases callEntryPoint_cases configuration machine name with missing | ⟨id, -, called⟩
  · rw [missing] at failed
    cases failed
    trivial
  · rw [called] at failed
    exact fitsLayout_of_call layout failed

/-- A module whose entry point `main` writes the number that a private variable holds, then sets
that variable to one. -/
def flagged : Module where
  header := .ofBound 12 0
  instructions := [⟨5, 15, [4, 1, 0x6E69616D, 0, 2]⟩, ⟨11, 71, [2, 30, 0]⟩, ⟨15, 19, [3]⟩,
    ⟨17, 33, [4, 3]⟩, ⟨20, 22, [5, 32]⟩, ⟨23, 32, [6, 6, 5]⟩, ⟨27, 32, [7, 3, 5]⟩,
    ⟨31, 43, [5, 8, 0x3F800000]⟩, ⟨35, 59, [6, 9, 6]⟩, ⟨39, 59, [7, 2, 3]⟩,
    ⟨43, 54, [3, 1, 0, 4]⟩, ⟨48, 248, [10]⟩, ⟨50, 61, [5, 11, 9]⟩, ⟨54, 62, [2, 11]⟩,
    ⟨57, 62, [9, 8]⟩, ⟨60, 253, []⟩, ⟨61, 56, []⟩]
  metadata := {}
  instructionCount := 17

/-- The table of a module with private state is laid out after its entry point was called. -/
theorem laid_out_flagged : ∃ machine, ofModule {} flagged = .ok machine ∧
    (machine.callEntryPoint {} "main").machine.table.Layout := by
  have evaluated : (ofModule {} flagged).toOption.any (fun _ => true) = true := by decide +kernel
  obtain ⟨machine, set_up, -⟩ := exists_of_any evaluated
  have reachable : Reachable flagged (machine.callEntryPoint {} "main").machine :=
    .callEntryPoint (.setUp set_up) {} "main"
  exact ⟨machine, set_up, reachable.laid_out.1⟩

end Machine

end ShaderMachine
