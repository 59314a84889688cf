import ShaderMachine.Proofs.CorrespondingRuns

/-! # Sessions

A machine is used by binding inputs and calling functions and entry points, one after the other. A
session in which all of that succeeds goes the same way on a machine that corresponds, but for the
unknown instructions that bodies have there.

* **`Machine.Task`** — an input to be bound, or a function or an entry point to be called.
* **`Machine.performAll`** — a session, with what it reports.
* **`Machine.Corresponds.performAll`** — the same session on a machine that corresponds. -/

namespace ShaderMachine

/-! ## Tasks -/

/-- What a machine is asked for. -/
inductive Machine.Task where
  /-- To bind data at an input location. -/
  | bind (location : Word) (data : Bytes)
  /-- To call a function. -/
  | call (id : Id)
  /-- To call the entry point of a name. -/
  | enter (name : String)

/-- What is seen of a machine after a task. -/
structure Machine.Report where
  /-- What the call reports, if the task was one. -/
  summary : Option Summary
  /-- What stands at the output locations. -/
  outputs : Outputs

/-- A report in which calls execute some more instructions, all of which are skipped. -/
def Machine.Report.lengthened (report : Machine.Report) (more : Id → Nat) : Machine.Report :=
  { report with
    summary := report.summary.map fun summary => summary.lengthened (more summary.function) }

/-- What an attempted call reports, with the machine afterwards, if it completes. -/
def Outcome.report (outcome : Outcome Summary) : Except MachineError (Machine.Report × Machine) :=
  outcome.result.map fun summary =>
    (⟨some summary, outcome.machine.slots.outputs⟩, outcome.machine)

namespace Machine

/-- Perform a task. -/
def perform (configuration : Configuration) (machine : Machine) :
    Task → Except MachineError (Report × Machine)
  | .bind location data => (machine.bind location data).map fun next =>
      (⟨none, next.slots.outputs⟩, next)
  | .call id => (machine.call configuration id).report
  | .enter name => (machine.callEntryPoint configuration name).report

/-- Perform tasks one after the other, all of which must succeed. -/
def performAll (configuration : Configuration) (machine : Machine) :
    List Task → Except MachineError (List Report × Machine)
  | [] => .ok ([], machine)
  | task :: tasks => do
      let (report, next) ← machine.perform configuration task
      let (reports, last) ← next.performAll configuration tasks
      return (report :: reports, last)

variable {configuration configuration' : Configuration} {machine next : Machine} {task : Task}
  {report : Report}

/-- An attempted call that completes is reported. -/
theorem report_inv {outcome : Outcome Summary} (reported : outcome.report = .ok (report, next)) :
    ∃ summary, outcome = ⟨next, .ok summary⟩ ∧ report = ⟨some summary, next.slots.outputs⟩ := by
  obtain ⟨machine, result⟩ := outcome
  cases result with
  | error error => cases reported
  | ok summary =>
      cases reported
      exact ⟨summary, rfl, rfl⟩

/-- A task that succeeds binds an input, or calls a function. -/
theorem perform_cases (performed : machine.perform configuration task = .ok (report, next)) :
    (∃ location data, task = .bind location data ∧ machine.bind location data = .ok next ∧
      report = ⟨none, next.slots.outputs⟩) ∨
    ∃ id summary, (task = .call id ∨ ∃ name, task = .enter name ∧
        machine.table.entryPoint? name = some id) ∧
      machine.call configuration id = ⟨next, .ok summary⟩ ∧
      report = ⟨some summary, next.slots.outputs⟩ := by
  cases task with
  | bind location data =>
      left
      obtain ⟨mid, bound, is⟩ := exists_of_map performed
      cases is
      exact ⟨location, data, rfl, bound, rfl⟩
  | call id =>
      obtain ⟨summary, called, reports⟩ := report_inv performed
      exact Or.inr ⟨id, summary, Or.inl rfl, called, reports⟩
  | enter name =>
      obtain ⟨summary, called, reports⟩ := report_inv performed
      rcases callEntryPoint_cases configuration machine name with missing | ⟨id, found, entered⟩
      · cases missing.symm.trans called
      · exact Or.inr ⟨id, summary, Or.inr ⟨name, rfl, found⟩, entered.symm.trans called, reports⟩

/-- Whether a machine has the module and the counts of another one, and a table that is alike. -/
structure Keeps (machine next : Machine) : Prop where
  /-- The modules are the same. -/
  loaded : next.loaded = machine.loaded
  /-- The names were counted the same way. -/
  nameAllocations : next.nameAllocations = machine.nameAllocations
  /-- The unsupported instructions were counted the same way. -/
  setupUnsupported : next.setupUnsupported = machine.setupUnsupported
  /-- The tables are alike. -/
  alike : machine.table.Alike next.table

/-- A task that succeeds keeps the module, the counts and the table alike. -/
theorem keeps_of_perform (performed : machine.perform configuration task = .ok (report, next)) :
    machine.Keeps next := by
  rcases perform_cases performed with ⟨location, data, -, bound, -⟩ | ⟨id, summary, -, called, -⟩
  · obtain ⟨slots, -, rfl⟩ := bind_inv bound
    exact ⟨rfl, rfl, rfl, .refl _⟩
  · have frame := frame_call configuration machine id
    have changes := call_changes configuration machine id
    rw [called] at frame changes
    exact ⟨frame.loaded, frame.nameAllocations, frame.setupUnsupported, changes.alike⟩

/-- So does a session that succeeds. -/
theorem keeps_of_performAll {tasks : List Task} {reports : List Report} {last : Machine}
    (performed : machine.performAll configuration tasks = .ok (reports, last)) :
    machine.Keeps last := by
  induction tasks generalizing machine reports with
  | nil =>
      cases performed
      exact ⟨rfl, rfl, rfl, .refl _⟩
  | cons task tasks hyp =>
      obtain ⟨⟨report, mid⟩, once, performed⟩ := exists_of_bind performed
      obtain ⟨⟨others, last'⟩, rest, performed⟩ := exists_of_bind performed
      cases performed
      have first := keeps_of_perform once
      have later := hyp rest
      exact ⟨later.loaded.trans first.loaded, later.nameAllocations.trans first.nameAllocations,
        later.setupUnsupported.trans first.setupUnsupported, first.alike.trans later.alike⟩

/-- What holds of the summary of every call that completes holds of those that a session reports. -/
theorem summary_of_performAll {good : Summary → Prop} {tasks : List Task} {reports : List Report}
    {last : Machine} (calls : ∀ {machine next : Machine} {id : Id} {summary : Summary},
      machine.call configuration id = ⟨next, .ok summary⟩ → good summary)
    (performed : machine.performAll configuration tasks = .ok (reports, last)) :
    ∀ report ∈ reports, ∀ summary ∈ report.summary, good summary := by
  induction tasks generalizing machine reports with
  | nil =>
      cases performed
      simp
  | cons task tasks hyp =>
      obtain ⟨⟨report, mid⟩, once, performed⟩ := exists_of_bind performed
      obtain ⟨⟨others, last'⟩, rest, performed⟩ := exists_of_bind performed
      cases performed
      rw [List.forall_mem_cons]
      refine ⟨fun summary reported => ?_, hyp rest⟩
      rcases perform_cases once with ⟨location, data, -, -, rfl⟩ | ⟨id, found, -, called, rfl⟩
      · cases reported
      · cases reported
        exact calls called

/-- Calls execute as many more instructions whatever tasks were performed before. -/
theorem extraAt_eq (extra : Nat → Nat → Nat) {id : Id} (alike : machine.table.Alike next.table) :
    next.extraAt extra id = machine.extraAt extra id := by
  rw [extraAt, extraAt, alike.bodyBounds_eq]

section

variable {places : Places} {loaded loaded' : Module}

/-- A module that is set up is set up with a larger bound, under less strict limits, and with
unknown instructions besides the others, which are counted. -/
theorem corresponds_of_ofModule {extra extra' : Nat} (bound_le : loaded.bound ≤ loaded'.bound)
    (relaxes : configuration.Relaxes configuration')
    (aligned : Aligned places loaded.instructions loaded'.instructions extra extra')
    (lenient : extra' ≠ 0 → configuration'.strict = false)
    (set_up : ofModule configuration loaded = .ok machine) :
    ∃ machine', ofModule configuration' loaded' = .ok machine' ∧ machine'.loaded = loaded' ∧
      machine.Corresponds places machine' ∧
      machine'.setupUnsupported + extra = machine.setupUnsupported + extra' := by
  obtain ⟨setup, passed, rfl⟩ := ofModule_inv set_up
  obtain ⟨setup', passed', setups, counted⟩ :=
    Setup.corresponds_of_run bound_le relaxes aligned lenient passed
  rw [ofModule, passed']
  exact ⟨_, rfl, rfl, ⟨setups.table, rfl, setups.nameAllocations⟩, counted⟩

/-- A machine that is set up has the module that it was set up from. -/
theorem loaded_of_ofModule (set_up : ofModule configuration loaded = .ok machine) :
    machine.loaded = loaded := by
  obtain ⟨setup, -, rfl⟩ := ofModule_inv set_up
  rfl

/-- A machine that is set up has the bound of its module. -/
theorem bound_of_ofModule (set_up : ofModule configuration loaded = .ok machine) :
    machine.table.bound = loaded.bound := by
  obtain ⟨setup, passed, rfl⟩ := ofModule_inv set_up
  exact Setup.bound_of_foldlM (Setup.run_inv passed).1

end

namespace Corresponds

variable {places : Places} {loaded loaded' : Module} {extra : Nat → Nat → Nat}
  {first second : Machine}

/-- A task that succeeds does so on a machine that corresponds. -/
theorem perform (corresponds : first.Corresponds places second)
    (relaxes : configuration.Relaxes configuration') (loaded_eq : first.loaded = loaded)
    (loaded_eq' : second.loaded = loaded') (aligned : loaded.BodiesAlign places extra loaded')
    (lenient : ∀ start stop, extra start stop ≠ 0 → configuration'.strict = false)
    (performed : first.perform configuration task = .ok (report, next))
    (enough : ∀ summary ∈ report.summary,
      summary.executed + first.extraAt extra summary.function ≤ configuration'.maxInstructions) :
    ∃ next', second.perform configuration' task =
        .ok (report.lengthened (first.extraAt extra), next') ∧
      next.Corresponds places next' := by
  rcases perform_cases performed with ⟨location, data, rfl, bound, rfl⟩ |
    ⟨id, summary, asked, called, rfl⟩
  · obtain ⟨slots, stored, rfl⟩ := bind_inv bound
    rw [Machine.perform, Machine.bind, corresponds.slots, stored]
    exact ⟨_, rfl, corresponds.table, rfl, corresponds.nameAllocations⟩
  · -- A call reports its own function, by which its longer body is known.
    have named : summary.function = id := by
      obtain ⟨start, stop, bounds, -⟩ := call_inv called
      rw [summary_of_call bounds (congrArg Outcome.result called)]
    have within := enough summary rfl
    rw [named] at within
    obtain ⟨next', called', nexts⟩ :=
      corresponds.call relaxes loaded_eq loaded_eq' aligned lenient called within
    refine ⟨next', ?_, nexts⟩
    have reported : (second.call configuration' id).report =
        .ok (Report.lengthened ⟨some summary, next.slots.outputs⟩ (first.extraAt extra),
          next') := by
      rw [called', ← nexts.slots, Report.lengthened, Option.map_some, named]
      rfl
    rcases asked with rfl | ⟨name, rfl, found⟩
    · exact reported
    · rw [Machine.perform, callEntryPoint, corresponds.table.entryPoint? found]
      exact reported

/-- A session that succeeds goes the same way on a machine that corresponds. -/
theorem performAll {tasks : List Task} {reports : List Report} {last : Machine}
    (corresponds : first.Corresponds places second)
    (relaxes : configuration.Relaxes configuration') (loaded_eq : first.loaded = loaded)
    (loaded_eq' : second.loaded = loaded') (aligned : loaded.BodiesAlign places extra loaded')
    (lenient : ∀ start stop, extra start stop ≠ 0 → configuration'.strict = false)
    (performed : first.performAll configuration tasks = .ok (reports, last))
    (enough : ∀ report ∈ reports, ∀ summary ∈ report.summary,
      summary.executed + first.extraAt extra summary.function ≤ configuration'.maxInstructions) :
    ∃ last', second.performAll configuration' tasks =
        .ok (reports.map fun report => report.lengthened (first.extraAt extra), last') ∧
      last.Corresponds places last' := by
  induction tasks generalizing first second reports with
  | nil =>
      cases performed
      exact ⟨second, rfl, corresponds⟩
  | cons task tasks hyp =>
      obtain ⟨⟨report, mid⟩, once, performed⟩ := exists_of_bind performed
      obtain ⟨⟨others, last'⟩, rest, performed⟩ := exists_of_bind performed
      cases performed
      rw [List.forall_mem_cons] at enough
      obtain ⟨mid', once', mids⟩ :=
        corresponds.perform relaxes loaded_eq loaded_eq' aligned lenient once enough.1
      -- A task keeps the bodies of all functions, so later calls are longer by the same.
      have keeps := keeps_of_perform once
      have keeps' := keeps_of_perform once'
      have same : mid.extraAt extra = first.extraAt extra := by
        funext id
        exact extraAt_eq extra keeps.alike
      have within := enough.2
      rw [← same] at within
      obtain ⟨last'', rest', lasts⟩ := hyp mids (keeps.loaded.trans loaded_eq)
        (keeps'.loaded.trans loaded_eq') rest within
      refine ⟨last'', ?_, lasts⟩
      rw [Machine.performAll, once', ← same]
      simp only [Bind.bind, Except.bind]
      rw [rest']
      rfl

end Corresponds

end Machine

end ShaderMachine
