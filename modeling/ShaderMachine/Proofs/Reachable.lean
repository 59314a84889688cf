import ShaderMachine.Proofs.ExecutionSteps
import ShaderMachine.Proofs.MachineFrame

/-! # Reachable machines

A machine is reached from a module by setting it up, binding inputs and calling functions, whether
that succeeds or not. Nothing but executed instructions changes its table after it was set up.

* **`Machine.Reachable`** — the machines that setting up, binding and calling lead to.
* **`Machine.call_changes`** — what a call does to a table.
* **`Machine.Reachable.exists_setUp`** — how the table of a reachable machine came about. -/

namespace ShaderMachine.Machine

variable {configuration : Configuration} {machine next : Machine}

/-! ## Setting up, binding and calling -/

/-- A machine that was set up has the table that the pass over its module led to. -/
theorem ofModule_inv {loaded : Module} (set_up : ofModule configuration loaded = .ok machine) :
    ∃ setup, Setup.run configuration loaded = .ok setup ∧ machine =
      ⟨loaded, setup.table, .empty, setup.nameAllocations, setup.unsupported⟩ := by
  obtain ⟨setup, passed, rfl⟩ := exists_of_map set_up
  exact ⟨setup, passed, rfl⟩

/-- Binding an input changes nothing but the slots. -/
theorem bind_inv {location : Word} {data : Bytes} (bound : machine.bind location data = .ok next) :
    ∃ slots, machine.slots.bind location data = .ok slots ∧ next = { machine with slots } := by
  obtain ⟨slots, stored, rfl⟩ := exists_of_map bound
  exact ⟨slots, stored, rfl⟩

/-- A call changes a table as executed instructions may. -/
theorem call_changes (configuration : Configuration) (machine : Machine) (id : Id) :
    machine.table.Changes (machine.call configuration id).machine.table := by
  refine call_preserves (P := fun other => machine.table.Changes other.table)
    (fun _ _ changes => changes) (fun start stop _ other instruction _ changes => ?_) .refl
  exact changes.tail (step_change configuration other instruction).1

/-- Calling an entry point calls its function, if it is found. -/
theorem callEntryPoint_cases (configuration : Configuration) (machine : Machine) (name : String) :
    machine.callEntryPoint configuration name = ⟨machine, .error (.entryPointNotFound name)⟩ ∨
      ∃ id, machine.table.entryPoint? name = some id ∧
        machine.callEntryPoint configuration name = machine.call configuration id := by
  unfold callEntryPoint
  cases machine.table.entryPoint? name with
  | none => exact Or.inl rfl
  | some id => exact Or.inr ⟨id, rfl, rfl⟩

/-- What calls of functions lead to, calls of entry points do. -/
theorem callEntryPoint_preserves {P : Machine → Prop} {name : String} (holds : P machine)
    (called : ∀ id, P (machine.call configuration id).machine) :
    P (machine.callEntryPoint configuration name).machine := by
  rcases callEntryPoint_cases configuration machine name with missing | ⟨id, -, entered⟩
  · rw [missing]
    exact holds
  · rw [entered]
    exact called id

/-! ## Reachable machines -/

/-- The machines that a module leads to: it is set up, then inputs are bound and functions and
entry points are called in any order, whether that succeeds or not. -/
inductive Reachable (loaded : Module) : Machine → Prop
  /-- The machine is set up. -/
  | setUp {configuration : Configuration} {machine : Machine}
      (set_up : ofModule configuration loaded = .ok machine) : Reachable loaded machine
  /-- An input is bound. -/
  | bind {machine next : Machine} {location : Word} {data : Bytes}
      (reachable : Reachable loaded machine) (bound : machine.bind location data = .ok next) :
      Reachable loaded next
  /-- A function is called. -/
  | call {machine : Machine} (reachable : Reachable loaded machine)
      (configuration : Configuration) (id : Id) :
      Reachable loaded (machine.call configuration id).machine
  /-- An entry point is called. -/
  | callEntryPoint {machine : Machine} (reachable : Reachable loaded machine)
      (configuration : Configuration) (name : String) :
      Reachable loaded (machine.callEntryPoint configuration name).machine

/-- A reachable machine has the module that it was set up from, and its table came from the first
one by executed instructions. -/
theorem Reachable.exists_setUp {loaded : Module} (reachable : Reachable loaded machine) :
    machine.loaded = loaded ∧ ∃ configuration setup, Setup.run configuration loaded = .ok setup ∧
      setup.table.Changes machine.table := by
  have called (configuration : Configuration) (machine : Machine) (id : Id)
      (before : machine.loaded = loaded ∧ ∃ configuration setup,
        Setup.run configuration loaded = .ok setup ∧ setup.table.Changes machine.table) :
      (machine.call configuration id).machine.loaded = loaded ∧ ∃ first setup,
        Setup.run first loaded = .ok setup ∧
          setup.table.Changes (machine.call configuration id).machine.table := by
    obtain ⟨loaded_eq, first, setup, passed, changes⟩ := before
    exact ⟨(frame_call configuration machine id).loaded.trans loaded_eq, first, setup, passed,
      changes.trans (call_changes configuration machine id)⟩
  -- Binding leaves the table alone, and calls lead on from it, whether they succeed or not.
  induction reachable with
  | @setUp configuration machine set_up =>
      obtain ⟨setup, passed, rfl⟩ := ofModule_inv set_up
      exact ⟨rfl, configuration, setup, passed, .refl⟩
  | bind _ bound hyp =>
      obtain ⟨slots, -, rfl⟩ := bind_inv bound
      exact hyp
  | @call machine _ configuration id hyp => exact called configuration machine id hyp
  | @callEntryPoint machine _ configuration name hyp =>
      exact callEntryPoint_preserves (P := fun other => other.loaded = loaded ∧
          ∃ configuration setup, Setup.run configuration loaded = .ok setup ∧
            setup.table.Changes other.table)
        hyp fun id => called configuration machine id hyp

end ShaderMachine.Machine
