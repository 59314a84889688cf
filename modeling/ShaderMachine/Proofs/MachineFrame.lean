import ShaderMachine.Proofs.Outcomes

/-! # What calls leave alone

Whatever a call does, the module, the bound inputs and what the machine counted when it was set up
stay as they are.

* **`Machine.Frame`** — two machines agree on all that.
* **`Machine.run_preserves`** and **`Machine.call_preserves`** — what instructions preserve, runs
  and calls do.
* **`Machine.frame_call`** — a call leaves it alone. -/

namespace ShaderMachine.Machine

/-- Whether one machine has the module, the inputs and the counts of another one. -/
structure Frame (machine next : Machine) : Prop where
  /-- The modules are the same. -/
  loaded : next.loaded = machine.loaded
  /-- The inputs are the same. -/
  inputs : next.slots.inputs = machine.slots.inputs
  /-- The names were counted the same way. -/
  nameAllocations : next.nameAllocations = machine.nameAllocations
  /-- The unsupported instructions were counted the same way. -/
  setupUnsupported : next.setupUnsupported = machine.setupUnsupported

namespace Frame

variable {machine next last : Machine}

/-- A machine agrees with itself. -/
theorem refl (machine : Machine) : machine.Frame machine :=
  ⟨rfl, rfl, rfl, rfl⟩

/-- Machines that agree one after the other agree. -/
theorem trans (frame : machine.Frame next) (more : next.Frame last) : machine.Frame last :=
  ⟨more.loaded.trans frame.loaded, more.inputs.trans frame.inputs,
    more.nameAllocations.trans frame.nameAllocations,
    more.setupUnsupported.trans frame.setupUnsupported⟩

end Frame

variable {configuration : Configuration} {instruction : Instruction}

/-- Writing an output leaves the inputs alone. -/
theorem inputs_write {slots written : Slots} {location : Word} {data : Bytes}
    (write : slots.write location data = .ok written) : written.inputs = slots.inputs := by
  unfold Slots.write at write
  split at write
  · cases write
    rfl
  · cases write

/-- Carrying out an effect leaves the rest alone. -/
theorem frame_commit (machine : Machine) (effect : Effect) :
    machine.Frame (machine.commit effect).machine := by
  have ends := machine.commitEnds effect
  generalize machine.commit effect = outcome at ends ⊢
  cases ends with
  | nothing => exact .refl machine
  | assigned replaced => exact ⟨rfl, rfl, rfl, rfl⟩
  | unassigned replaced => exact .refl machine
  | stored ends =>
      cases ends with
      | refused attempt => exact ⟨rfl, rfl, rfl, rfl⟩
      | written attempt place => exact ⟨rfl, rfl, rfl, rfl⟩
      | output attempt place write => exact ⟨rfl, inputs_write write, rfl, rfl⟩
      | misplaced attempt place write => exact ⟨rfl, rfl, rfl, rfl⟩

/-- Executing an instruction leaves the rest alone. -/
theorem frame_step (configuration : Configuration) (machine : Machine)
    (instruction : Instruction) :
    machine.Frame (machine.step configuration instruction).machine := by
  rcases machine.step_machine_cases configuration instruction with
    same | ⟨handler, effect, cursor, -, -, committed⟩
  · rw [same]
    exact .refl machine
  · rw [committed]
    exact machine.frame_commit effect

/-! ## Runs and calls -/

/-- What every instruction preserves, however it ends, a run over instructions preserves. -/
theorem run_preserves {P : Machine → Prop} {instructions : List Instruction}
    (steps : ∀ machine, ∀ instruction ∈ instructions, P machine →
      P (machine.step configuration instruction).machine)
    (executed unsupported : Nat) {machine : Machine} (holds : P machine) :
    P (machine.run configuration executed unsupported instructions).machine := by
  have ends := machine.runEnds configuration executed unsupported instructions
  generalize machine.run configuration executed unsupported instructions = outcome at ends ⊢
  induction ends with
  | completed => exact holds
  | limited reached => exact holds
  | failed below stepped =>
      have kept := steps _ _ List.mem_cons_self holds
      rw [stepped] at kept
      exact kept
  | continued below stepped ends hyp =>
      have kept := steps _ _ List.mem_cons_self holds
      rw [stepped] at kept
      exact hyp (fun other later mem => steps other later (List.mem_cons_of_mem _ mem)) kept

/-- A run that fails is cut off, or one of its instructions fails. -/
theorem exists_of_run_error {instructions : List Instruction} {executed unsupported : Nat}
    {machine : Machine} {error : MachineError}
    (failed : (machine.run configuration executed unsupported instructions).result = .error error) :
    error = .executionLimitExceeded configuration.maxInstructions ∨
      ∃ other : Machine, ∃ instruction ∈ instructions,
        (other.step configuration instruction).result = .error error := by
  have ends := machine.runEnds configuration executed unsupported instructions
  generalize machine.run configuration executed unsupported instructions = outcome at ends failed
  induction ends with
  | completed => cases failed
  | limited reached =>
      cases failed
      exact Or.inl rfl
  | failed below stepped =>
      cases failed
      exact Or.inr ⟨_, _, List.mem_cons_self, congrArg Outcome.result stepped⟩
  | continued below stepped ends hyp =>
      rcases hyp failed with limit | ⟨other, later, mem, fails⟩
      · exact Or.inl limit
      · exact Or.inr ⟨other, later, List.mem_cons_of_mem _ mem, fails⟩

/-- The instructions between two places are ones of the module. -/
theorem mem_instructions_of_mem_body {machine : Machine} {start stop : Nat}
    (mem : instruction ∈ machine.body start stop) : instruction ∈ machine.loaded.instructions :=
  (List.dropWhile_sublist _).mem ((List.takeWhile_sublist _).mem mem)

/-- What every instruction of the body preserves, and what the outputs do not matter to, a call
preserves. -/
theorem call_preserves {P : Machine → Prop} {machine : Machine} {id : Id}
    (outputs : ∀ machine outputs, P machine → P (machine.withOutputs outputs))
    (steps : ∀ start stop, machine.bodyBounds id = .ok (start, stop) →
      ∀ other, ∀ instruction ∈ machine.body start stop, P other →
        P (other.step configuration instruction).machine)
    (holds : P machine) : P (machine.call configuration id).machine := by
  have ends := machine.callEnds configuration id
  generalize machine.call configuration id = outcome at ends ⊢
  have kept {start stop : Nat} {next : Machine} {result : Except MachineError (Nat × Nat)}
      (bounds : machine.bodyBounds id = .ok (start, stop))
      (ran : (machine.withOutputs Slots.noOutputs).run configuration 0 0
        (machine.body start stop) = ⟨next, result⟩) : P next := by
    have kept := run_preserves (steps start stop bounds) 0 0 (outputs machine Slots.noOutputs holds)
    rw [ran] at kept
    exact kept
  cases ends with
  | unbound bounds => exact holds
  | completed bounds ran => exact kept bounds ran
  | failed bounds ran => exact outputs _ _ (kept bounds ran)

/-- A call leaves the rest alone. -/
theorem frame_call (configuration : Configuration) (machine : Machine) (id : Id) :
    machine.Frame (machine.call configuration id).machine := by
  refine call_preserves (fun other outputs frame => ?_)
    (fun start stop _ other instruction _ frame => ?_) (.refl machine)
  · exact ⟨frame.loaded, frame.inputs, frame.nameAllocations, frame.setupUnsupported⟩
  · exact frame.trans (frame_step configuration other instruction)

end ShaderMachine.Machine
