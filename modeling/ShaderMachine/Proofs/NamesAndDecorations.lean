import ShaderMachine.Proofs.CallOutputs
import ShaderMachine.Proofs.Clauses

/-! # Names and decorations

The name of an ID is the last one that its module gives it, and its decorations are those that its
module gives it, in order. Calls change neither. The machine counts how often a name is given that
differs from the one before, and it refuses one decoration too many.

* **`lastName?`**, **`decorationsOf`**, **`renamings`** — what clauses come to.
* **`Machine.Annotated`** — a machine has the names and decorations that clauses give.
* **`Setup.annotated_of_foldlM`** — accepted instructions lead to those that they give.
* **`Machine.annotations_exact`** — so do all machines that a module leads to. -/

namespace ShaderMachine

/-! ## What clauses come to -/

namespace Clause

/-- The name that is given to an ID, as that of an entry point or as another one. -/
def naming? : Clause → Option (Id × String)
  | name target text | entryPoint target _ text _ => some (target, text)
  | _ => none

/-- The decoration that is given to a certain ID. -/
def decorationFor? (id : Id) : Clause → Option DecorationEntry
  | decoration target entry => if target = id then some entry else none
  | _ => none

end Clause

/-- The last name that is given to an ID. -/
def lastName? (clauses : List Clause) (id : Id) : Option String :=
  (clauses.reverse.filterMap Clause.naming?).lookup id

/-- The decorations that are given to an ID, in order. -/
def decorationsOf (clauses : List Clause) (id : Id) : List DecorationEntry :=
  clauses.filterMap (Clause.decorationFor? id)

/-- Whether a clause gives an ID another name than the last one that it was given before. -/
def Clause.renames (before : List Clause) (clause : Clause) : Bool :=
  clause.naming?.any fun (id, text) => lastName? before id ≠ some text

/-- How many clauses behind given ones give an ID another name than it had just before. -/
def renamings (before : List Clause) : List Clause → Nat
  | [] => 0
  | clause :: rest =>
      (if clause.renames before then 1 else 0) + renamings (before ++ [clause]) rest

section

variable {clauses : List Clause} {clause : Clause} {id : Id}

/-- The last name is that of the last clause if that gives one. -/
theorem lastName?_append :
    lastName? (clauses ++ [clause]) id =
      match clause.naming? with
      | some (target, text) => if id = target then some text else lastName? clauses id
      | none => lastName? clauses id := by
  rw [lastName?, lookup_concat]
  cases clause.naming? <;> rfl

/-- The decorations go on with that of the last clause. -/
theorem decorationsOf_append :
    decorationsOf (clauses ++ [clause]) id =
      decorationsOf clauses id ++ (clause.decorationFor? id).toList :=
  filterMap_concat _ clauses clause

/-- The last clause is counted if it gives another name than those before. -/
theorem renamings_append (before : List Clause) :
    renamings before (clauses ++ [clause]) =
      renamings before clauses + if clause.renames (before ++ clauses) then 1 else 0 := by
  induction clauses generalizing before with
  | nil => simp [renamings]
  | cons first clauses hyp =>
      rw [List.cons_append, renamings, hyp, renamings, List.append_assoc, List.singleton_append,
        Nat.add_assoc]

end

/-- A name that is given twice in a row counts once. -/
example : renamings [] [.name 1 "a", .name 1 "a", .name 1 "b"] = 2 := by decide

/-! ## What declarations do -/

namespace Declaration

/-- The name that a declaration gives. -/
def text? : Declaration → Option String
  | name text | entryPoint _ text _ => some text
  | _ => none

/-- The decoration that a declaration gives. -/
def entry? : Declaration → Option DecorationEntry
  | decoration entry => some entry
  | _ => none

variable {configuration : Configuration} {instruction : Instruction} {id : Id}
  {record changed : Record} {declaration : Declaration}

/-- A declaration gives the record its name and its decoration and keeps the others. -/
theorem annotates_of_apply
    (applied : declaration.apply configuration instruction id record = .ok changed) :
    changed.name = declaration.text?.or record.name ∧
      changed.decorations = record.decorations ++ declaration.entry?.toList := by
  cases applies_of_apply applied with
  | decoration room => exact ⟨rfl, rfl⟩
  | name | functionEnd | definition unset | label unset | entryPoint enters
  | executionMode is_entry | function begins => exact ⟨rfl, (List.append_nil _).symm⟩

/-- A declaration counts as a renaming if it gives another name. -/
theorem renames_eq (record : Record) (declaration : Declaration) :
    declaration.renames record =
      if declaration.text?.any fun text => record.name ≠ some text then 1 else 0 := by
  cases declaration <;> rfl

/-- A plain declaration gives neither a name nor a decoration. -/
theorem IsPlain.annotates_nothing (plain : declaration.IsPlain) :
    declaration.text? = none ∧ declaration.entry? = none := by
  cases declaration with
  | definition given readable => exact ⟨rfl, rfl⟩
  | label | functionEnd => exact ⟨rfl, rfl⟩
  | _ => cases plain

end Declaration

namespace Clause

/-- A clause gives the name that its declaration gives. -/
theorem naming?_eq (clause : Clause) :
    clause.naming? = clause.declaration.text?.map (clause.target, ·) := by
  cases clause <;> rfl

/-- A clause gives an ID the decoration that its declaration gives, if it is about that ID. -/
theorem decorationFor?_eq (clause : Clause) (id : Id) :
    clause.decorationFor? id = if clause.target = id then clause.declaration.entry? else none := by
  cases clause with
  | decoration target entry => rfl
  | _ => exact (ite_self none).symm

end Clause

/-! ## Setups and machines -/

/-- The name of an ID in a table. -/
def Table.name? (table : Table) (id : Id) : Option String :=
  (table.get id).toOption.bind Record.name

/-- The decorations of an ID in a table. -/
def Table.decorations (table : Table) (id : Id) : List DecorationEntry :=
  (table.get id).toOption.elim [] Record.decorations

/-- Whether the names and decorations of a table are those that clauses give, and the names were
counted. -/
structure Annotated (clauses : List Clause) (table : Table) (nameAllocations : Nat) : Prop where
  /-- Every ID has the last name that it is given. -/
  names : ∀ id, table.name? id = lastName? clauses id
  /-- Every ID has the decorations that it is given. -/
  decorations : ∀ id, table.decorations id = decorationsOf clauses id
  /-- Every name that differs from the one before was counted. -/
  renamings : nameAllocations = renamings [] clauses

namespace Setup

variable {configuration : Configuration} {instruction : Instruction} {setup next : Setup}
  {clauses : List Clause}

/-- Whether the names and decorations of a setup are those that clauses give. -/
abbrev Annotated (clauses : List Clause) (setup : Setup) : Prop :=
  ShaderMachine.Annotated clauses setup.table setup.nameAllocations

/-- At first nothing has a name or a decoration. -/
theorem annotated_ofModule (loaded : Module) : Annotated [] (ofModule loaded) := by
  have empty (id : Id) (record : Record) (found : (ofModule loaded).table.get id = .ok record) :
      record = {} := by
    obtain ⟨-, rfl⟩ := Table.get_eq_ok_iff.mp found
    exact Std.TreeMap.getD_emptyc
  refine ⟨fun id => ?_, fun id => ?_, rfl⟩
  · rw [Table.name?]
    cases found : (ofModule loaded).table.get id with
    | error error => rfl
    | ok record => rw [empty id record found]; rfl
  · rw [Table.decorations]
    cases found : (ofModule loaded).table.get id with
    | error error => rfl
    | ok record => rw [empty id record found]; rfl

/-- A clause that is declared adds what it gives. -/
theorem Annotated.clause {clause : Clause} (annotated : Annotated clauses setup)
    (made : setup.declare configuration instruction clause.target clause.declaration = .ok next) :
    Annotated (clauses ++ [clause]) next := by
  obtain ⟨record, changed, found, applied, rfl⟩ := declare_inv made
  -- The record of the target is changed by what the clause names and decorates; others are kept.
  obtain ⟨name_eq, decorations_eq⟩ := Declaration.annotates_of_apply applied
  have name_before := annotated.names clause.target
  have decorations_before := annotated.decorations clause.target
  rw [Table.name?, found] at name_before
  rw [Table.decorations, found] at decorations_before
  refine ⟨fun id => ?_, fun id => ?_, ?_⟩
  · rw [lastName?_append, Clause.naming?_eq]
    by_cases same : id = clause.target
    · subst same
      rw [Table.name?, Table.get_put_self found, ← name_before]
      change changed.name = _
      rw [name_eq]
      cases clause.declaration.text? <;> simp [Except.toOption]
    · rw [Table.name?, Table.get_put_of_ne same]
      have kept := annotated.names id
      rw [Table.name?] at kept
      cases clause.declaration.text? <;> simp [kept, same]
  · rw [decorationsOf_append, Clause.decorationFor?_eq]
    by_cases same : id = clause.target
    · subst same
      rw [Table.decorations, Table.get_put_self found, ← decorations_before, if_pos rfl]
      exact decorations_eq
    · rw [Table.decorations, Table.get_put_of_ne same, if_neg (Ne.symm same)]
      exact (annotated.decorations id).trans (List.append_nil _).symm
  · have renames_eq : clause.renames clauses =
        clause.declaration.text?.any fun text => record.name ≠ some text := by
      have last_eq : lastName? clauses clause.target = record.name := name_before.symm
      rw [Clause.renames, Clause.naming?_eq]
      cases clause.declaration.text? with
      | none => rfl
      | some text => simp [last_eq]
    rw [renamings_append, List.nil_append, renames_eq, ← annotated.renamings]
    exact congrArg _ (Declaration.renames_eq record clause.declaration)

/-- A plain declaration gives no names and decorations. -/
theorem Annotated.plain {id : Id} {declaration : Declaration} (annotated : Annotated clauses setup)
    (plain : declaration.IsPlain)
    (made : setup.declare configuration instruction id declaration = .ok next) :
    Annotated clauses next := by
  obtain ⟨record, changed, found, applied, rfl⟩ := declare_inv made
  obtain ⟨name_eq, decorations_eq⟩ := Declaration.annotates_of_apply applied
  obtain ⟨no_text, no_entry⟩ := plain.annotates_nothing
  rw [no_text, Option.none_or] at name_eq
  rw [no_entry, Option.toList_none, List.append_nil] at decorations_eq
  refine ⟨fun other => ?_, fun other => ?_, ?_⟩
  · rw [← annotated.names other, Table.name?, Table.name?]
    by_cases same : other = id
    · subst same
      rw [Table.get_put_self found, found]
      exact name_eq
    · rw [Table.get_put_of_ne same]
  · rw [← annotated.decorations other, Table.decorations, Table.decorations]
    by_cases same : other = id
    · subst same
      rw [Table.get_put_self found, found]
      exact decorations_eq
    · rw [Table.get_put_of_ne same]
  · rw [← annotated.renamings]
    show setup.nameAllocations + declaration.renames record = setup.nameAllocations
    rw [Declaration.renames_eq, no_text]
    rfl

/-- Which names and decorations a setup has follows the clauses. -/
theorem follows_annotated : FollowsClauses configuration Annotated where
  counts _ annotated := annotated
  adds made annotated := annotated.clause made
  keeps plain made annotated := annotated.plain plain made

/-- Accepted instructions give the names and decorations that they say. -/
theorem annotated_of_foldlM {loaded : Module} {instructions : List Instruction}
    (passed : instructions.foldlM (step configuration) (ofModule loaded) = .ok next) :
    Annotated (instructions.filterMap Instruction.clause?) next :=
  foldlM_clauses follows_annotated passed (annotated_ofModule loaded)

/-- A pass over a module gives the names and decorations that the module says. -/
theorem annotated_of_run {loaded : Module} (passed : run configuration loaded = .ok next) :
    Annotated loaded.clauses next :=
  run_clauses follows_annotated passed (annotated_ofModule loaded)

/-! ## The limit on decorations -/

/-- A declaration leaves no record with more decorations than are admitted. -/
theorem length_decorations_of_declare {id other : Id} {declaration : Declaration}
    (made : setup.declare configuration instruction id declaration = .ok next)
    (few : (setup.table.decorations other).length ≤ configuration.maxDecorations) :
    (next.table.decorations other).length ≤ configuration.maxDecorations := by
  obtain ⟨record, changed, found, applied, rfl⟩ := declare_inv made
  by_cases same : other = id
  · subst same
    rw [Table.decorations, found] at few
    rw [Table.decorations, Table.get_put_self found]
    obtain ⟨-, decorations_eq⟩ := Declaration.annotates_of_apply applied
    show changed.decorations.length ≤ configuration.maxDecorations
    rw [decorations_eq, List.length_append]
    have few : record.decorations.length ≤ configuration.maxDecorations := few
    -- Only a decoration adds one, and it is refused if there is no room.
    cases Declaration.applies_of_apply applied with
    | decoration room => exact room
    | _ => exact few
  · rw [Table.decorations, Table.get_put_of_ne same]
    exact few

/-- That an ID has no more decorations than are admitted follows the clauses. -/
theorem follows_length_decorations (id : Id) :
    FollowsClauses configuration fun _ setup =>
      (setup.table.decorations id).length ≤ configuration.maxDecorations where
  counts _ few := few
  adds made few := length_decorations_of_declare made few
  keeps _ made few := length_decorations_of_declare made few

/-- After a pass over a module no ID has more decorations than are admitted. -/
theorem length_decorations_of_run {loaded : Module} (passed : run configuration loaded = .ok next)
    (id : Id) : (next.table.decorations id).length ≤ configuration.maxDecorations := by
  refine run_clauses (follows_length_decorations id) passed ?_
  rw [(annotated_ofModule loaded).decorations]
  exact Nat.zero_le _

/-- A decoration that can be read is refused if its target has as many as are admitted. -/
theorem step_of_full {target : Id} {entry : DecorationEntry}
    (said : instruction.clause? = some (.decoration target entry))
    (inside : target < setup.table.bound)
    (full : (setup.table.decorations target).length = configuration.maxDecorations) :
    setup.step configuration instruction =
      .error (.tooManyDecorations target configuration.maxDecorations) := by
  obtain ⟨record, found⟩ : ∃ record, setup.table.get target = .ok record :=
    ⟨_, Table.get_eq_ok_iff.mpr ⟨inside, rfl⟩⟩
  have full : record.decorations.length = configuration.maxDecorations := by
    rw [Table.decorations, found] at full
    exact full
  obtain ⟨known, kind, literals, operands_eq, is_entry⟩ := Instruction.clause?_decoration_inv said
  have registered : setupTable.get? instruction.opcode = some decorate :=
    Dispatch.get?_of_known _ known
  -- The operands are read, then the record is found, then there is no room in it.
  let behind : Cursor := ⟨instruction.offset + 1, [kind, target], literals⟩
  obtain ⟨next, read⟩ :
      ∃ next, readDecorationLiterals instruction kind behind = .ok (entry, next) :=
    read_of_decorationOf? instruction is_entry
  have start : instruction.cursor = ⟨instruction.offset + 1, [], target :: kind :: literals⟩ := by
    rw [Instruction.cursor, operands_eq]
    rfl
  have refused : decorate configuration setup instruction instruction.cursor =
      .error (.tooManyDecorations target configuration.maxDecorations) := by
    rw [start, decorate]
    simp only [bind, StateT.bind, OperandReader.readWord_eq, Except.bind]
    simp only [behind] at read
    rw [read]
    simp only [withTable, found, if_pos (Nat.le_of_eq full.symm)]
    rfl
  rw [step, registered]
  simp only [handle, refused]
  rfl

end Setup

namespace Machine

variable {configuration : Configuration}

/-- A call keeps names and decorations. -/
theorem annotated_call {clauses : List Clause} {machine : Machine} (id : Id)
    (annotated : Annotated clauses machine.table machine.nameAllocations) :
    Annotated clauses (machine.call configuration id).machine.table
      (machine.call configuration id).machine.nameAllocations := by
  have same := annotated_of_alike (call_changes configuration machine id).alike
  have counted := (frame_call configuration machine id).nameAllocations
  refine ⟨fun other => ?_, fun other => ?_, counted.trans annotated.renamings⟩
  · rw [← annotated.names other, Table.name?, Table.name?]
    have same := same other
    cases before : machine.table.get other <;>
      cases after : (machine.call configuration id).machine.table.get other <;>
        simp_all [Except.map, Except.toOption]
  · rw [← annotated.decorations other, Table.decorations, Table.decorations]
    have same := same other
    cases before : machine.table.get other <;>
      cases after : (machine.call configuration id).machine.table.get other <;>
        simp_all [Except.map, Except.toOption]

/-- A machine that a module leads to has the names and decorations that the module says. -/
theorem Reachable.annotated {loaded : Module} {machine : Machine}
    (reachable : Reachable loaded machine) :
    Annotated loaded.clauses machine.table machine.nameAllocations := by
  induction reachable with
  | setUp set_up =>
      obtain ⟨setup, passed, rfl⟩ := ofModule_inv set_up
      exact Setup.annotated_of_run passed
  | bind _ bound hyp =>
      obtain ⟨slots, -, rfl⟩ := bind_inv bound
      exact hyp
  | call _ configuration id hyp => exact annotated_call id hyp
  | callEntryPoint _ configuration name hyp =>
      exact callEntryPoint_preserves
        (P := fun other => Annotated loaded.clauses other.table other.nameAllocations) hyp
        fun id => annotated_call id hyp

/-- Setting a machine up ends at a decoration for which there is no room. -/
theorem ofModule_of_full {loaded : Module} {before after : List Instruction}
    {instruction : Instruction} {setup : Setup} {target : Id} {entry : DecorationEntry}
    (split : loaded.instructions = before ++ instruction :: after)
    (passed : before.foldlM (Setup.step configuration) (Setup.ofModule loaded) = .ok setup)
    (said : instruction.clause? = some (.decoration target entry)) (inside : target < loaded.bound)
    (full : (decorationsOf (before.filterMap Instruction.clause?) target).length =
      configuration.maxDecorations) :
    ofModule configuration loaded =
      .error (.tooManyDecorations target configuration.maxDecorations) := by
  rw [← (Setup.annotated_of_foldlM passed).decorations] at full
  have bound_eq : setup.table.bound = loaded.bound := Setup.bound_of_foldlM passed
  rw [← bound_eq] at inside
  have failed : loaded.instructions.foldlM (Setup.step configuration) (Setup.ofModule loaded) =
      .error (.tooManyDecorations target configuration.maxDecorations) := by
    rw [split, List.foldlM_append, passed]
    show (instruction :: after).foldlM (Setup.step configuration) setup = _
    rw [List.foldlM_cons, Setup.step_of_full said inside full]
    rfl
  rw [ofModule, Setup.run, failed]
  rfl

/-- If a module leads to a machine, all of its instructions but the silent ones say something. The
machine has exactly the names and decorations that they give, whatever was called, and counted the
names that differ from the one before. No ID has more decorations than the limit under which a
machine was set up, and the first decoration above the limit makes setting up fail. -/
theorem annotations_exact (loaded : Module) (configuration : Configuration) :
    (∀ machine, Reachable loaded machine →
      (∀ instruction ∈ loaded.instructions,
        instruction.IsSilent ∨ ∃ clause, instruction.clause? = some clause) ∧
      Annotated loaded.clauses machine.table machine.nameAllocations) ∧
    (∀ machine, ofModule configuration loaded = .ok machine →
      ∀ id, (decorationsOf loaded.clauses id).length ≤ configuration.maxDecorations) ∧
    ∀ before instruction after setup target entry,
      loaded.instructions = before ++ instruction :: after →
      before.foldlM (Setup.step configuration) (Setup.ofModule loaded) = .ok setup →
      instruction.clause? = some (.decoration target entry) → target < loaded.bound →
      (decorationsOf (before.filterMap Instruction.clause?) target).length =
        configuration.maxDecorations →
      ofModule configuration loaded =
        .error (.tooManyDecorations target configuration.maxDecorations) := by
  refine ⟨fun machine reachable => ⟨reachable.isSilent_or, reachable.annotated⟩,
    fun machine set_up id => ?_, ?_⟩
  · obtain ⟨setup, passed, -⟩ := ofModule_inv set_up
    rw [← (Setup.annotated_of_run passed).decorations]
    exact Setup.length_decorations_of_run passed id
  · intro before instruction after setup target entry split passed said inside full
    exact ofModule_of_full split passed said inside full

end Machine

end ShaderMachine
