import ShaderMachine.Proofs.Sessions

/-! # Less strict limits

The limits of a configuration, and the bound of a module, only ever refuse something. A session that
succeeds goes the same way with a larger bound, with more instructions and decorations admitted, and
without strictness; and a strict machine never skips anything.

* **`Module.withBound`** — a module with another bound.
* **`Machine.executed_of_call`** and **`Machine.unsupported_of_call`** — what a completed call has
  executed is within the limit, and a strict one has skipped nothing.
* **`Machine.session_of_relaxes`** — a session under less strict limits. -/

namespace ShaderMachine

/-- A module with another bound on its IDs. -/
def Module.withBound (loaded : Module) (bound : Word) : Module :=
  { loaded with header := { loaded.header with bound } }

/-! ## What a completed call has counted -/

namespace Machine

variable {configuration configuration' : Configuration} {machine next : Machine}

/-- A run that completes has executed no more than may be. -/
theorem executed_of_run {executed unsupported : Nat} {instructions : List Instruction}
    {answer : Nat × Nat} (within : executed ≤ configuration.maxInstructions)
    (ran : (machine.run configuration executed unsupported instructions).result = .ok answer) :
    answer.1 ≤ configuration.maxInstructions := by
  have ends := machine.runEnds configuration executed unsupported instructions
  generalize machine.run configuration executed unsupported instructions = outcome at ends ran
  induction ends with
  | completed =>
      cases ran
      exact within
  | limited reached => cases ran
  | failed below stepped => cases ran
  | continued below stepped ends hyp => exact hyp below ran

/-- A strict run that completes has skipped nothing. -/
theorem unsupported_of_run {executed unsupported : Nat} {instructions : List Instruction}
    {answer : Nat × Nat} (strict : configuration.strict = true)
    (ran : (machine.run configuration executed unsupported instructions).result = .ok answer) :
    answer.2 = unsupported := by
  have ends := machine.runEnds configuration executed unsupported instructions
  generalize machine.run configuration executed unsupported instructions = outcome at ends ran
  induction ends with
  | completed =>
      cases ran
      rfl
  | limited reached => cases ran
  | failed below stepped => cases ran
  | @continued _ _ _ _ _ _ skipped _ below stepped ends hyp =>
      cases skipped with
      | true => cases strict.symm.trans (lenient_of_step stepped)
      | false => exact hyp ran

/-- The summary of a call that completes counts what its run has counted. -/
theorem exists_run_of_call {id : Id} {summary : Summary}
    (called : machine.call configuration id = ⟨next, .ok summary⟩) :
    ∃ instructions, ((machine.withOutputs Slots.noOutputs).run configuration 0 0
      instructions).result = .ok (summary.executed, summary.unsupported) := by
  have ends := machine.callEnds configuration id
  rw [called] at ends
  cases ends with
  | completed bounds ran => exact ⟨_, congrArg Outcome.result ran⟩

/-- A call that completes has executed no more than may be. -/
theorem executed_of_call {id : Id} {summary : Summary}
    (called : machine.call configuration id = ⟨next, .ok summary⟩) :
    summary.executed ≤ configuration.maxInstructions := by
  obtain ⟨instructions, ran⟩ := exists_run_of_call called
  exact executed_of_run (Nat.zero_le _) ran

/-- A strict call that completes has skipped nothing. -/
theorem unsupported_of_call {id : Id} {summary : Summary} (strict : configuration.strict = true)
    (called : machine.call configuration id = ⟨next, .ok summary⟩) : summary.unsupported = 0 := by
  obtain ⟨instructions, ran⟩ := exists_run_of_call called
  exact unsupported_of_run strict ran

/-- A strict machine that is set up has skipped nothing. -/
theorem setupUnsupported_of_ofModule {loaded : Module} (strict : configuration.strict = true)
    (set_up : ofModule configuration loaded = .ok machine) : machine.setupUnsupported = 0 := by
  obtain ⟨setup, passed, rfl⟩ := ofModule_inv set_up
  exact Setup.unsupported_of_foldlM strict (Setup.run_inv passed).1

/-! ## Sessions -/

/-- Tables that correspond in the same places hold the same below the first bound, and nothing from
there on. -/
theorem get_of_same {first second : Table} (corresponds : first.Corresponds .same second)
    (id : Id) :
    (id < first.bound → second.get id = first.get id) ∧
      (first.bound ≤ id → id < second.bound → second.get id = .ok {}) := by
  have same := (corresponds.records id).eq_of_same
  refine ⟨fun below => ?_, fun above below => ?_⟩
  · rw [Table.get, Table.get, if_pos below,
      if_pos (UInt32.lt_of_lt_of_le below corresponds.bound_le), same]
  · rw [Table.get, if_pos below, same, corresponds.beyond id above]

/-- Instructions correspond to themselves in the same places. -/
theorem aligned_same (instructions : List Instruction) :
    Aligned .same instructions instructions 0 0 :=
  .of_forall₂ (List.forall₂_same.mpr fun _ _ => ⟨rfl, rfl, rfl, rfl⟩)

/-- With another bound, the bodies of functions are the same. -/
theorem bodiesAlign_withBound (loaded : Module) (bound : Word) :
    loaded.BodiesAlign .same (fun _ _ => 0) (loaded.withBound bound) := by
  rintro first second start _ stop _ rfl second_eq rfl rfl
  have body_eq : second.body start stop = first.body start stop := by
    rw [body, body, second_eq]
    rfl
  rw [body_eq]
  exact aligned_same _

/-- If bodies have no more instructions, calls do not execute more. -/
theorem extraAt_zero (machine : Machine) : machine.extraAt (fun _ _ => 0) = fun _ => 0 := by
  funext id
  rw [extraAt]
  split <;> rfl

/-- Reports of calls that do not execute more are the same. -/
theorem map_lengthened_zero (reports : List Report) :
    reports.map (fun report => report.lengthened fun _ => 0) = reports := by
  refine List.map_id'' (fun report => ?_) reports
  cases report
  simp [Report.lengthened, Summary.lengthened]

/-- A session that succeeds goes the same way with a larger bound and under less strict limits: the
same is reported and recorded, and the IDs from the old bound to the new one stand for nothing. If
the limits were strict, nothing is skipped. -/
theorem session_of_relaxes {loaded : Module} {bound : Word} {tasks : List Task}
    {reports : List Report} {last : Machine} (bound_le : loaded.bound ≤ bound)
    (relaxes : configuration.Relaxes configuration')
    (set_up : ofModule configuration loaded = .ok machine)
    (performed : machine.performAll configuration tasks = .ok (reports, last)) :
    ∃ machine' last', ofModule configuration' (loaded.withBound bound) = .ok machine' ∧
      machine'.performAll configuration' tasks = .ok (reports, last') ∧
      (machine'.nameAllocations = machine.nameAllocations ∧
        last'.nameAllocations = last.nameAllocations) ∧
      (machine'.setupUnsupported = machine.setupUnsupported ∧
        last'.setupUnsupported = last.setupUnsupported) ∧
      (∀ id, id < loaded.bound → machine'.table.get id = machine.table.get id ∧
        last'.table.get id = last.table.get id) ∧
      (∀ id, loaded.bound ≤ id → id < bound → machine'.table.get id = .ok {} ∧
        last'.table.get id = .ok {}) ∧
      (configuration.strict = true → machine'.setupUnsupported = 0 ∧
        ∀ report ∈ reports, ∀ summary ∈ report.summary, summary.unsupported = 0) := by
  have bound_le' : loaded.bound ≤ (loaded.withBound bound).bound := bound_le
  obtain ⟨machine', set_up', loaded_eq', machines, unsupported_eq⟩ :=
    corresponds_of_ofModule bound_le' relaxes (aligned_same loaded.instructions)
      (fun more => absurd rfl more) set_up
  -- A call executes what it executed before, which the new limit admits as well.
  have within := summary_of_performAll executed_of_call performed
  obtain ⟨last', performed', lasts⟩ := machines.performAll relaxes (loaded_of_ofModule set_up)
    loaded_eq' (bodiesAlign_withBound loaded bound) (fun _ _ more => absurd rfl more) performed
    fun report reported summary summarized => by
      rw [extraAt_zero]
      exact (within report reported summary summarized).trans relaxes.maxInstructions
  rw [extraAt_zero, map_lengthened_zero] at performed'
  have keeps := keeps_of_performAll performed
  have keeps' := keeps_of_performAll performed'
  have first_bound := bound_of_ofModule set_up
  have first_bound' : machine'.table.bound = bound := bound_of_ofModule set_up'
  have last_bound : last.table.bound = loaded.bound := keeps.alike.bound.symm.trans first_bound
  have last_bound' : last'.table.bound = bound := keeps'.alike.bound.symm.trans first_bound'
  refine ⟨machine', last', set_up', performed', ⟨machines.nameAllocations, lasts.nameAllocations⟩,
    ⟨unsupported_eq, ?_⟩, fun id below => ?_, fun id above below => ?_, fun strict => ⟨?_, ?_⟩⟩
  · rw [keeps'.setupUnsupported, keeps.setupUnsupported]
    exact unsupported_eq
  · exact ⟨(get_of_same machines.table id).1 (by rw [first_bound]; exact below),
      (get_of_same lasts.table id).1 (by rw [last_bound]; exact below)⟩
  · exact ⟨(get_of_same machines.table id).2 (by rw [first_bound]; exact above)
        (by rw [first_bound']; exact below),
      (get_of_same lasts.table id).2 (by rw [last_bound]; exact above)
        (by rw [last_bound']; exact below)⟩
  · rw [← setupUnsupported_of_ofModule strict set_up]
    exact unsupported_eq
  · exact summary_of_performAll (unsupported_of_call strict) performed

/-- The entry point of a module with private state is called twice under the least limits that admit
it, and so under the usual ones and with a larger bound. -/
theorem session_of_relaxes_flagged : ∃ machine reports last,
    ofModule ⟨5, 1, true⟩ flagged = .ok machine ∧
    machine.performAll ⟨5, 1, true⟩ [.enter "main", .enter "main"] = .ok (reports, last) ∧
    ∃ machine' last', ofModule {} (flagged.withBound 20) = .ok machine' ∧
      machine'.performAll {} [.enter "main", .enter "main"] = .ok (reports, last') ∧
      last'.table.get 9 = last.table.get 9 ∧ last'.table.get 15 = .ok {} := by
  have evaluated : (ofModule ⟨5, 1, true⟩ flagged).toOption.any (fun machine =>
      (machine.performAll ⟨5, 1, true⟩ [.enter "main", .enter "main"]).isOk) = true := by
    decide +kernel
  obtain ⟨machine, set_up, completes⟩ := exists_of_any evaluated
  cases performed : machine.performAll ⟨5, 1, true⟩ [.enter "main", .enter "main"] with
  | error error =>
      rw [performed] at completes
      cases completes
  | ok answer =>
      obtain ⟨reports, last⟩ := answer
      have bound_le : flagged.bound ≤ 20 := by decide
      have relaxes : Configuration.Relaxes ⟨5, 1, true⟩ {} := ⟨by decide, by decide, by decide⟩
      obtain ⟨machine', last', set_up', performed', -, -, below, above, -⟩ :=
        session_of_relaxes bound_le relaxes set_up performed
      exact ⟨machine, reports, last, set_up, performed, machine', last', set_up', performed',
        (below 9 (by decide)).2, (above 15 (by decide) (by decide)).2⟩

end Machine

end ShaderMachine
