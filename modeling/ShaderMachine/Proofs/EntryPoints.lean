import ShaderMachine.Proofs.Clauses
import ShaderMachine.Proofs.FirstAppearances
import ShaderMachine.Proofs.RepeatedCalls

/-! # Entry points

An entry point is what all declarations of its ID come to, wherever they stand: its stages and names
in the order in which they come first, every ID of their interfaces, and its execution modes in
order. If the module has a function of that ID, the entry point carries it. The entry point of a
name is the least ID that is declared with that name.

* **`entriesOf`**, **`modesOf`**, **`headsOf`** — what clauses say about an entry point.
* **`EntryPointRecord.Gathers`** — an entry point is what clauses say about it.
* **`Setup.gathered_of_run`** — a pass over a module gathers what the module says.
* **`Machine.entryPoints_exact`** — so do all machines that a module leads to, and they find the
  entry points by their names. -/

namespace ShaderMachine

/-! ## What is said about entry points -/

/-- One declaration of an entry point. -/
structure EntryDeclaration where
  /-- The stage. -/
  model : ExecutionModel
  /-- The name. -/
  text : String
  /-- The interface. -/
  interface : List Id
  deriving DecidableEq, Repr

/-- The head of a function. -/
structure FunctionHead where
  /-- The type it returns. -/
  returnType : Id
  /-- Its signature. -/
  functionType : Id
  /-- Its control mask. -/
  control : Word
  deriving DecidableEq, Repr

/-- The head that a function was declared with. -/
def FunctionRecord.head (body : FunctionRecord) : FunctionHead :=
  ⟨body.returnType, body.functionType, body.control⟩

namespace Clause

/-- The declaration of a certain entry point. -/
def entryFor? (id : Id) : Clause → Option EntryDeclaration
  | entryPoint target model text interface =>
      if target = id then some ⟨model, text, interface⟩ else none
  | _ => none

/-- The execution mode of a certain entry point. -/
def modeFor? (id : Id) : Clause → Option (Word × List Word)
  | executionMode target mode literals => if target = id then some (mode, literals) else none
  | _ => none

/-- The head of a certain function. -/
def headFor? (id : Id) : Clause → Option FunctionHead
  | function target returnType functionType control =>
      if target = id then some ⟨returnType, functionType, control⟩ else none
  | _ => none

end Clause

/-- The declarations of an entry point, in order. -/
def entriesOf (clauses : List Clause) (id : Id) : List EntryDeclaration :=
  clauses.filterMap (Clause.entryFor? id)

/-- The execution modes of an entry point, in order. -/
def modesOf (clauses : List Clause) (id : Id) : List (Word × List Word) :=
  clauses.filterMap (Clause.modeFor? id)

/-- The heads of a function, in order. -/
def headsOf (clauses : List Clause) (id : Id) : List FunctionHead :=
  clauses.filterMap (Clause.headFor? id)

section

variable {clauses : List Clause} {clause : Clause} {id : Id}

/-- A clause adds what it says about an entry point. -/
theorem entriesOf_concat :
    entriesOf (clauses ++ [clause]) id = entriesOf clauses id ++ (clause.entryFor? id).toList :=
  filterMap_concat _ clauses clause

/-- A clause adds the execution mode that it gives. -/
theorem modesOf_concat :
    modesOf (clauses ++ [clause]) id = modesOf clauses id ++ (clause.modeFor? id).toList :=
  filterMap_concat _ clauses clause

/-- A clause adds the function that it declares. -/
theorem headsOf_concat :
    headsOf (clauses ++ [clause]) id = headsOf clauses id ++ (clause.headFor? id).toList :=
  filterMap_concat _ clauses clause

/-- A clause about another ID says nothing about this one. -/
theorem Clause.nothing_of_ne (other : clause.target ≠ id) :
    clause.entryFor? id = none ∧ clause.modeFor? id = none ∧ clause.headFor? id = none := by
  cases clause with
  | entryPoint => exact ⟨if_neg other, rfl, rfl⟩
  | executionMode => exact ⟨rfl, if_neg other, rfl⟩
  | function => exact ⟨rfl, rfl, if_neg other⟩
  | _ => exact ⟨rfl, rfl, rfl⟩

end

/-! ## What is gathered -/

/-- Whether an entry point lists what its declarations list. -/
structure EntryPointRecord.Lists (entry : EntryPointRecord) (declared : List EntryDeclaration) :
    Prop where
  /-- The stages, each where it comes first. -/
  models : entry.models = (declared.map EntryDeclaration.model).eraseDups
  /-- The names, each where it comes first. -/
  names : entry.names = (declared.map EntryDeclaration.text).eraseDups
  /-- The IDs of all interfaces. -/
  interface : ∀ other, other ∈ entry.interface ↔
    ∃ declaration ∈ declared, other ∈ declaration.interface

/-- Whether an entry point is what clauses say about it. -/
structure EntryPointRecord.Gathers (entry : EntryPointRecord) (clauses : List Clause) (id : Id) :
    Prop where
  /-- What its declarations list. -/
  lists : entry.Lists (entriesOf clauses id)
  /-- The execution modes. -/
  modes : entry.modes = modesOf clauses id
  /-- The function, if there is one. -/
  function : entry.function.map FunctionRecord.head = (headsOf clauses id).head?

/-- Whether a definition is what clauses say about the entry point or the function of an ID. -/
def Definition.Gathers (clauses : List Clause) (id : Id) : Definition → Prop
  | entryPoint entry => entriesOf clauses id ≠ [] ∧ entry.Gathers clauses id
  | other => entriesOf clauses id = [] ∧ modesOf clauses id = [] ∧
      other.function?.map FunctionRecord.head = (headsOf clauses id).head?

namespace EntryPointRecord

/-- Putting a new element after the others keeps each where it comes first. -/
theorem addNew_eraseDups {α : Type} [DecidableEq α] (elements : List α) (element : α) :
    addNew elements.eraseDups element = (elements ++ [element]).eraseDups := by
  rw [addNew, eraseDups_concat]
  simp only [List.mem_eraseDups]

/-- What is there after new elements were added was there before or is one of them. -/
theorem mem_foldl_addNew {α : Type} [DecidableEq α] {known elements : List α} {element : α} :
    element ∈ elements.foldl addNew known ↔ element ∈ known ∨ element ∈ elements := by
  induction elements generalizing known with
  | nil => simp
  | cons first elements hyp =>
      have added : element ∈ addNew known first ↔ element ∈ known ∨ element = first := by
        rw [addNew]
        split
        · rename_i mem
          exact ⟨.inl, fun either => either.elim id fun same => same ▸ mem⟩
        · simp
      rw [List.foldl_cons, hyp, added, List.mem_cons, or_assoc]

variable {entry : EntryPointRecord} {declared : List EntryDeclaration}

/-- The first declaration is listed. -/
theorem lists_ofDeclaration (model : ExecutionModel) (text : String) (interface : List Id)
    (function : Option FunctionRecord) :
    ({ ofDeclaration model text interface with function } : EntryPointRecord).Lists
      [⟨model, text, interface⟩] :=
  ⟨rfl, rfl, fun other => by simp [ofDeclaration]⟩

/-- A further declaration is listed after the others. -/
theorem Lists.augment (lists : entry.Lists declared) (model : ExecutionModel) (text : String)
    (interface : List Id) :
    (entry.augment model text interface).Lists (declared ++ [⟨model, text, interface⟩]) := by
  refine ⟨?_, ?_, fun other => ?_⟩
  · rw [List.map_append, List.map_singleton, ← addNew_eraseDups, ← lists.models]
    rfl
  · rw [List.map_append, List.map_singleton, ← addNew_eraseDups, ← lists.names]
    rfl
  · rw [EntryPointRecord.augment, mem_foldl_addNew, lists.interface]
    simp [or_and_right, exists_or]

end EntryPointRecord

/-- What is gathered stays gathered when clauses come that say nothing about it. -/
theorem Definition.Gathers.of_unsaid {clauses : List Clause} {clause : Clause} {id : Id}
    {definition : Definition} (gathers : definition.Gathers clauses id)
    (unsaid : clause.entryFor? id = none ∧ clause.modeFor? id = none ∧ clause.headFor? id = none) :
    definition.Gathers (clauses ++ [clause]) id := by
  obtain ⟨no_entry, no_mode, no_head⟩ := unsaid
  have entries_eq : entriesOf (clauses ++ [clause]) id = entriesOf clauses id := by
    rw [entriesOf_concat, no_entry]
    exact List.append_nil _
  have modes_eq : modesOf (clauses ++ [clause]) id = modesOf clauses id := by
    rw [modesOf_concat, no_mode]
    exact List.append_nil _
  have heads_eq : headsOf (clauses ++ [clause]) id = headsOf clauses id := by
    rw [headsOf_concat, no_head]
    exact List.append_nil _
  cases definition with
  | entryPoint entry =>
      obtain ⟨some_entry, lists, modes, function⟩ := gathers
      exact ⟨entries_eq ▸ some_entry, entries_eq ▸ lists, modes_eq ▸ modes, heads_eq ▸ function⟩
  | _ =>
      obtain ⟨no_entries, no_modes, function⟩ := gathers
      exact ⟨entries_eq.trans no_entries, modes_eq.trans no_modes, heads_eq ▸ function⟩

/-! ## One declaration -/

namespace Declaration

variable {configuration : Configuration} {instruction : Instruction} {clauses : List Clause}
  {id : Id} {record changed : Record} {declaration : Declaration}

/-- A declaration of an entry point is gathered. -/
theorem gathers_entryPoint {model : ExecutionModel} {text : String} {interface : List Id}
    (gathers : record.definition.Gathers clauses id)
    (applied : (entryPoint model text interface).apply configuration instruction id record =
      .ok changed) :
    changed.definition.Gathers (clauses ++ [.entryPoint id model text interface]) id := by
  have entries_eq : entriesOf (clauses ++ [.entryPoint id model text interface]) id =
      entriesOf clauses id ++ [⟨model, text, interface⟩] := by
    rw [entriesOf_concat, Clause.entryFor?, if_pos rfl]
    rfl
  have modes_eq : modesOf (clauses ++ [.entryPoint id model text interface]) id =
      modesOf clauses id := modesOf_concat.trans (List.append_nil _)
  have heads_eq : headsOf (clauses ++ [.entryPoint id model text interface]) id =
      headsOf clauses id := headsOf_concat.trans (List.append_nil _)
  -- An ID that was no entry point is one from this clause on, whether it has a function or not.
  have is_first {function : Option FunctionRecord} (no_entries : entriesOf clauses id = [])
      (no_modes : modesOf clauses id = [])
      (head : function.map FunctionRecord.head = (headsOf clauses id).head?) :
      (Definition.entryPoint
        { EntryPointRecord.ofDeclaration model text interface with function }).Gathers
          (clauses ++ [.entryPoint id model text interface]) id := by
    refine ⟨?_, ?_, modes_eq.trans no_modes |>.symm, by rw [heads_eq, head]⟩
    · simp [entries_eq]
    · rw [entries_eq, no_entries]
      exact EntryPointRecord.lists_ofDeclaration model text interface function
  cases applies_of_apply applied with
  | @entryPoint _ _ _ given enters =>
      change given.Gathers _ id
      generalize record.definition = before at enters gathers
      cases enters with
      | first => exact is_first gathers.1 gathers.2.1 gathers.2.2
      | promoted body => exact is_first gathers.1 gathers.2.1 gathers.2.2
      | again entry =>
          refine ⟨by simp [entries_eq], ?_, gathers.2.modes.trans modes_eq.symm, ?_⟩
          · rw [entries_eq]
            exact gathers.2.lists.augment model text interface
          · rw [heads_eq]
            exact gathers.2.function

/-- An execution mode is gathered. -/
theorem gathers_executionMode {mode : Word} {literals : List Word}
    (gathers : record.definition.Gathers clauses id)
    (applied : (executionMode mode literals).apply configuration instruction id record =
      .ok changed) :
    changed.definition.Gathers (clauses ++ [.executionMode id mode literals]) id := by
  have entries_eq : entriesOf (clauses ++ [.executionMode id mode literals]) id =
      entriesOf clauses id := entriesOf_concat.trans (List.append_nil _)
  have heads_eq : headsOf (clauses ++ [.executionMode id mode literals]) id =
      headsOf clauses id := headsOf_concat.trans (List.append_nil _)
  cases applies_of_apply applied with
  | executionMode is_entry =>
      rw [is_entry] at gathers
      obtain ⟨some_entry, lists, modes, function⟩ := gathers
      refine ⟨entries_eq ▸ some_entry, ⟨?_, ?_, ?_⟩⟩
      · rw [entries_eq]
        exact ⟨lists.models, lists.names, lists.interface⟩
      · rw [modesOf_concat, Clause.modeFor?, if_pos rfl, modes]
        rfl
      · rw [heads_eq]
        exact function

/-- The head of a function is gathered. -/
theorem gathers_function {returnType functionType : Id} {control : Word}
    (gathers : record.definition.Gathers clauses id)
    (applied :
      (function returnType functionType control).apply configuration instruction id record =
      .ok changed) :
    changed.definition.Gathers (clauses ++ [.function id returnType functionType control]) id := by
  have entries_eq : entriesOf (clauses ++ [.function id returnType functionType control]) id =
      entriesOf clauses id := entriesOf_concat.trans (List.append_nil _)
  have modes_eq : modesOf (clauses ++ [.function id returnType functionType control]) id =
      modesOf clauses id := modesOf_concat.trans (List.append_nil _)
  have heads_eq (none_yet : none = (headsOf clauses id).head?) :
      headsOf (clauses ++ [.function id returnType functionType control]) id =
        [⟨returnType, functionType, control⟩] := by
    rw [headsOf_concat, Clause.headFor?, if_pos rfl, List.head?_eq_none_iff.mp none_yet.symm]
    rfl
  cases applies_of_apply applied with
  | @function _ _ _ given begins =>
      change given.Gathers _ id
      generalize record.definition = before at begins gathers
      cases begins with
      | first =>
          refine ⟨entries_eq.trans gathers.1, modes_eq.trans gathers.2.1, ?_⟩
          rw [heads_eq gathers.2.2]
          rfl
      -- An entry point gets its function.
      | entered entry bodiless =>
          obtain ⟨some_entry, lists, modes_are, function⟩ := gathers
          rw [bodiless] at function
          refine ⟨entries_eq ▸ some_entry, ⟨?_, modes_are.trans modes_eq.symm, ?_⟩⟩
          · rw [entries_eq]
            exact ⟨lists.models, lists.names, lists.interface⟩
          · rw [heads_eq function]
            rfl

/-- What neither a clause nor a plain declaration says anything about stays as it is. -/
theorem gathers_plain (plain : declaration.IsPlain)
    (gathers : record.definition.Gathers clauses id)
    (applied : declaration.apply configuration instruction id record = .ok changed) :
    changed.definition.Gathers clauses id := by
  cases applies_of_apply applied with
  | @definition given readable unset =>
      rw [unset] at gathers
      cases given with
      | type | constant | var | extendedSet => exact gathers
      | _ => cases readable
  | label unset =>
      rw [unset] at gathers
      exact gathers
  | functionEnd =>
      rw [Record.ended]
      cases is : record.definition with
      | entryPoint entry =>
          rw [is] at gathers
          obtain ⟨some_entry, lists, modes, function⟩ := gathers
          refine ⟨some_entry, ⟨lists.models, lists.names, lists.interface⟩, modes, ?_⟩
          rw [← function]
          cases entry.function <;> rfl
      | _ =>
          rw [is] at gathers
          exact gathers
  | _ => cases plain

/-- What a clause says about its target is gathered. -/
theorem gathers_clause {clause : Clause}
    (gathers : record.definition.Gathers clauses clause.target)
    (applied : clause.declaration.apply configuration instruction clause.target record =
      .ok changed) :
    changed.definition.Gathers (clauses ++ [clause]) clause.target := by
  cases clause with
  | name target text =>
      cases applied
      exact gathers.of_unsaid ⟨rfl, rfl, rfl⟩
  | decoration target entry =>
      cases applies_of_apply applied with
      | decoration room => exact gathers.of_unsaid ⟨rfl, rfl, rfl⟩
  | entryPoint function model text interface => exact gathers_entryPoint gathers applied
  | executionMode target mode literals => exact gathers_executionMode gathers applied
  | function id returnType functionType control => exact gathers_function gathers applied

end Declaration

/-! ## Tables -/

/-- Whether a table holds the entry points and the functions that clauses declare. -/
structure Table.Gathers (table : Table) (clauses : List Clause) : Prop where
  /-- The definitions are what the clauses say. -/
  definitions : ∀ id, (table.records.getD id {}).definition.Gathers clauses id
  /-- The entry points are below the bound. -/
  inside : ∀ id, entriesOf clauses id ≠ [] → id < table.bound

namespace Table.Gathers

variable {table next : Table} {clauses : List Clause} {id : Id}

/-- The definition of an ID that is declared an entry point is that entry point. -/
theorem exists_entry (gathers : table.Gathers clauses) (declared : entriesOf clauses id ≠ []) :
    ∃ record entry, table.get id = .ok record ∧ record.definition = .entryPoint entry ∧
      entry.Gathers clauses id := by
  have said := gathers.definitions id
  cases is : (table.records.getD id {}).definition with
  | entryPoint entry =>
      rw [is] at said
      exact ⟨_, entry, get_eq_ok_iff.mpr ⟨gathers.inside id declared, rfl⟩, is, said.2⟩
  | _ =>
      rw [is] at said
      exact absurd said.1 declared

/-- The IDs that stand for entry points of a name are those that are declared with it. -/
theorem enters_iff (gathers : table.Gathers clauses) {name : String} :
    table.Enters name id ↔ ∃ declared ∈ entriesOf clauses id, declared.text = name := by
  have named {entry : EntryPointRecord} (said : entry.Gathers clauses id) :
      entry.hasName name = true ↔ ∃ declared ∈ entriesOf clauses id, declared.text = name := by
    rw [EntryPointRecord.hasName, List.contains_iff_mem, said.lists.names, List.mem_eraseDups,
      List.mem_map]
  constructor
  · rintro ⟨entry, is_entry, has_name⟩
    have said := gathers.definitions id
    rw [is_entry] at said
    exact (named said.2).mp has_name
  · rintro ⟨declared, mem, text_eq⟩
    obtain ⟨record, entry, found, is_entry, said⟩ :=
      gathers.exists_entry (List.ne_nil_of_mem mem)
    obtain ⟨-, rfl⟩ := get_eq_ok_iff.mp found
    exact ⟨entry, is_entry, (named said).mpr ⟨declared, mem, text_eq⟩⟩

/-- Tables that are alike hold the same entry points and functions. -/
theorem of_alike (gathers : table.Gathers clauses) (alike : table.Alike next) :
    next.Gathers clauses := by
  refine ⟨fun id => ?_, fun id declared => alike.bound ▸ gathers.inside id declared⟩
  have said := gathers.definitions id
  rcases (alike.records id).definition with same | ⟨varies, varies'⟩
  · rw [← same]
    exact said
  · -- What varies is neither an entry point nor a function.
    cases before : (table.records.getD id {}).definition <;> rw [before] at said varies <;>
      cases varies <;>
        cases after : (next.records.getD id {}).definition <;> rw [after] at varies' <;>
          cases varies' <;> exact said

/-- A clause that is declared adds what it says. -/
theorem clause {configuration : Configuration} {instruction : Instruction} {clause : Clause}
    {record changed : Record} (gathers : table.Gathers clauses)
    (found : table.get clause.target = .ok record)
    (applied : clause.declaration.apply configuration instruction clause.target record =
      .ok changed) :
    (table.put clause.target changed).Gathers (clauses ++ [clause]) := by
  obtain ⟨inside, rfl⟩ := get_eq_ok_iff.mp found
  refine ⟨fun id => ?_, fun id declared => ?_⟩
  · rw [getD_put]
    by_cases same : id = clause.target
    · subst same
      rw [if_pos rfl]
      exact Declaration.gathers_clause (gathers.definitions _) applied
    · rw [if_neg same]
      exact (gathers.definitions id).of_unsaid (Clause.nothing_of_ne (Ne.symm same))
  · by_cases same : id = clause.target
    · exact same ▸ inside
    · rw [entriesOf_concat, (Clause.nothing_of_ne (Ne.symm same)).1, Option.toList_none,
        List.append_nil] at declared
      exact gathers.inside id declared

/-- A plain declaration leaves entry points and functions as they are said to be. -/
theorem plain {configuration : Configuration} {instruction : Instruction}
    {declaration : Declaration} {record changed : Record} (gathers : table.Gathers clauses)
    (plain : declaration.IsPlain) (found : table.get id = .ok record)
    (applied : declaration.apply configuration instruction id record = .ok changed) :
    (table.put id changed).Gathers clauses := by
  obtain ⟨inside, rfl⟩ := get_eq_ok_iff.mp found
  refine ⟨fun other => ?_, gathers.inside⟩
  rw [getD_put]
  by_cases same : other = id
  · subst same
    rw [if_pos rfl]
    exact Declaration.gathers_plain plain (gathers.definitions _) applied
  · rw [if_neg same]
    exact gathers.definitions other

end Table.Gathers

/-! ## Machines -/

/-- What a table gathers follows the clauses. -/
theorem Setup.follows_gathers {configuration : Configuration} :
    FollowsClauses configuration fun clauses setup => setup.table.Gathers clauses where
  counts _ gathers := gathers
  adds made gathers := by
    obtain ⟨record, changed, found, applied, rfl⟩ := declare_inv made
    exact gathers.clause found applied
  keeps plain made gathers := by
    obtain ⟨record, changed, found, applied, rfl⟩ := declare_inv made
    exact gathers.plain plain found applied

/-- A pass over a module gathers what the module says about its entry points. -/
theorem Setup.gathered_of_run {configuration : Configuration} {loaded : Module} {setup : Setup}
    (passed : run configuration loaded = .ok setup) : setup.table.Gathers loaded.clauses := by
  refine run_clauses follows_gathers passed ⟨fun id => ?_, fun id declared => absurd rfl declared⟩
  have fresh : (ofModule loaded).table.records.getD id {} = {} := Std.TreeMap.getD_emptyc
  rw [fresh]
  exact ⟨rfl, rfl, rfl⟩

namespace Machine

variable {loaded : Module} {machine : Machine}

/-- A machine that a module leads to has gathered what the module says about its entry points. -/
theorem Reachable.gathered (reachable : Reachable loaded machine) :
    machine.table.Gathers loaded.clauses := by
  obtain ⟨-, configuration, setup, passed, changes⟩ := reachable.exists_setUp
  exact (Setup.gathered_of_run passed).of_alike changes.alike

/-- A call of an entry point reports that it was not found exactly if it was not. -/
theorem callEntryPoint_notFound_iff {configuration : Configuration} {name : String} :
    (machine.callEntryPoint configuration name).result = .error (.entryPointNotFound name) ↔
      machine.table.entryPoint? name = none := by
  unfold callEntryPoint
  cases found : machine.table.entryPoint? name with
  | none => exact iff_of_true rfl rfl
  | some id =>
      refine iff_of_false (fun failed => ?_) nofun
      rcases call_faults failed with (bad | bad | bad) | bad | ⟨table, instruction, -, arises⟩
      · cases bad
      · cases bad
      · cases bad
      · cases bad
      · exact arises

/-- If a module leads to a machine, all of its instructions but the silent ones say something, and
the entry points are what they say, whatever was called. The entry point of a name is the least ID
that is declared with it, and a call by a name reports that there is none exactly if none is
declared with it. What is declared an entry point lists what its declarations list, with its
execution modes and with its function, if the module has one. -/
theorem entryPoints_exact (reachable : Reachable loaded machine) :
    (∀ instruction ∈ loaded.instructions,
      instruction.IsSilent ∨ ∃ clause, instruction.clause? = some clause) ∧
    (∀ name id, machine.table.entryPoint? name = some id ↔
      (∃ declared ∈ entriesOf loaded.clauses id, declared.text = name) ∧
        ∀ other, (∃ declared ∈ entriesOf loaded.clauses other, declared.text = name) → id ≤ other) ∧
    (∀ name, machine.table.entryPoint? name = none ↔
      ¬ ∃ id, ∃ declared ∈ entriesOf loaded.clauses id, declared.text = name) ∧
    (∀ configuration name, (machine.callEntryPoint configuration name).result =
        .error (.entryPointNotFound name) ↔
      ¬ ∃ id, ∃ declared ∈ entriesOf loaded.clauses id, declared.text = name) ∧
    ∀ id, entriesOf loaded.clauses id ≠ [] → ∃ record entry, machine.table.get id = .ok record ∧
      record.definition = .entryPoint entry ∧ entry.Gathers loaded.clauses id := by
  have gathered := reachable.gathered
  have missing (name : String) : machine.table.entryPoint? name = none ↔
      ¬ ∃ id, ∃ declared ∈ entriesOf loaded.clauses id, declared.text = name := by
    rw [Table.entryPoint?_eq_none_iff, not_exists]
    exact forall_congr' fun id => not_congr gathered.enters_iff
  refine ⟨reachable.isSilent_or, fun name id => ?_, missing, fun configuration name => ?_,
    fun id => gathered.exists_entry⟩
  · rw [Table.entryPoint?_eq_some_iff]
    simp only [gathered.enters_iff]
  · rw [callEntryPoint_notFound_iff]
    exact missing name

/-- In a module with private state the entry point `main` is the function of that name, with the
output variable as its interface, also after it was called. -/
theorem entryPoints_exact_flagged : ∃ machine, ofModule {} flagged = .ok machine ∧
    ∃ record entry, (machine.callEntryPoint {} "main").machine.table.get 1 = .ok record ∧
      record.definition = .entryPoint entry ∧ entry.names = ["main"] ∧ entry.modes = [] ∧
      entry.function.map FunctionRecord.head = some ⟨3, 4, 0⟩ := by
  have evaluated : (ofModule {} flagged).toOption.any (fun _ => true) = true := by decide +kernel
  obtain ⟨machine, set_up, -⟩ := exists_of_any evaluated
  have reachable : Reachable flagged (machine.callEntryPoint {} "main").machine :=
    .callEntryPoint (.setUp set_up) {} "main"
  have entries_eq : entriesOf flagged.clauses 1 = [⟨.fragment, "main", [2]⟩] := by decide +kernel
  have modes_eq : modesOf flagged.clauses 1 = [] := by decide +kernel
  have heads_eq : headsOf flagged.clauses 1 = [⟨3, 4, 0⟩] := by decide +kernel
  obtain ⟨-, -, -, -, entries⟩ := entryPoints_exact reachable
  obtain ⟨record, entry, found, is_entry, lists, modes, function⟩ :=
    entries 1 (by rw [entries_eq]; exact List.cons_ne_nil _ _)
  refine ⟨machine, set_up, record, entry, found, is_entry, ?_, modes.trans modes_eq, ?_⟩
  · rw [lists.names, entries_eq]
    decide
  · rw [function, heads_eq]
    rfl

end Machine

end ShaderMachine
