import ShaderMachine.Proofs.Declarations
import ShaderMachine.Proofs.ReachableLayout
import ShaderMachine.Proofs.SameSteps

/-! # The kind of a definition is set once

Once an ID stands for something, it stands for something of that kind. While a module is read, what
an ID stands for stays as it is, but a function may become an entry point, more may be said about an
entry point, and where a body ends is noted. Calls only give values and variables, to IDs that stand
for nothing or for the same kind. An instruction that would do anything else is refused, and says
which kinds are at odds.

* **`Definition.Settles`** and **`Definition.Lasts`** — what an instruction of a module may make of
  a definition, and what many of them may.
* **`Record.Recomputed`** — what a call may make of a record.
* **`Setup.step_redefined`** and **`Machine.step_redefined`** — an instruction that would change a
  kind is refused.
* **`Setup.step_withResult_redefined`** and **`Machine.step_of_assign_redefined`** — so is one that
  reads the ID whose kind it would change.
* **`kinds_set_once`** — all of that together. -/

namespace ShaderMachine

/-! ## While a module is read -/

namespace Definition

/-- Whether a definition stays as it is while a module is read. -/
def IsFixed : Definition → Prop
  | .type _ | .constant _ | .var _ | .label _ | .extendedSet _ => True
  | _ => False

/-- What one instruction of a module may make of a definition. -/
inductive Settles : Definition → Definition → Prop
  /-- It stays as it is. -/
  | same (definition : Definition) : Settles definition definition
  /-- It is the first one. -/
  | first (definition : Definition) : Settles .unset definition
  /-- The body of a function ends. -/
  | ended (body : FunctionRecord) (stop : Nat) :
      Settles (.function body) (.function { body with stop := some stop })
  /-- A function becomes an entry point with that function. -/
  | promoted {body : FunctionRecord} {entry : EntryPointRecord}
      (keeps : entry.function = some body) : Settles (.function body) (.entryPoint entry)
  /-- More is said about an entry point; its function stays, but for where the body ends. -/
  | entry {before after : EntryPointRecord}
      (keeps : ∀ body, before.function = some body →
        ∃ stop, after.function = some { body with stop }) :
      Settles (.entryPoint before) (.entryPoint after)

/-- What instructions of a module may make of a definition, one after the other. -/
structure Lasts (before after : Definition) : Prop where
  /-- The kind stays if it is set, but a function may become an entry point. -/
  kind : before ≠ .unset →
    after.kind = before.kind ∨ before.kind = .function ∧ after.kind = .entryPoint
  /-- Types, values, variables, labels and imported sets stay as they are. -/
  fixed : before.IsFixed → after = before
  /-- A function stays as it is, but for where its body ends. -/
  function : ∀ body, before.function? = some body →
    ∃ stop, after.function? = some { body with stop }

/-- What an instruction makes of a definition lasts. -/
theorem Settles.lasts {before after : Definition} (settles : before.Settles after) :
    before.Lasts after := by
  cases settles with
  | same =>
      exact ⟨fun _ => Or.inl rfl, fun _ => rfl, fun body is_function => ⟨body.stop, is_function⟩⟩
  | first => exact ⟨fun set => absurd rfl set, False.elim, fun _ impossible => by cases impossible⟩
  | ended body stop =>
      refine ⟨fun _ => Or.inl rfl, False.elim, fun other is_function => ?_⟩
      cases is_function
      exact ⟨some stop, rfl⟩
  | @promoted body entry keeps =>
      refine ⟨fun _ => Or.inr ⟨rfl, rfl⟩, False.elim, fun other is_function => ⟨body.stop, ?_⟩⟩
      cases is_function
      exact keeps
  | entry keeps => exact ⟨fun _ => Or.inl rfl, False.elim, keeps⟩

/-- What lasts in what lasts does so. -/
theorem Lasts.trans {before mid after : Definition} (first : before.Lasts mid)
    (second : mid.Lasts after) : before.Lasts after := by
  refine ⟨fun set => ?_, fun fixed => ?_, fun body is_function => ?_⟩
  · have mid_set : mid ≠ .unset := by
      rintro rfl
      rcases first.kind set with kind_eq | ⟨-, kind_eq⟩
      · exact set (Table.kind_eq_unset_iff.mp kind_eq.symm)
      · cases kind_eq
    rcases first.kind set with kind_eq | ⟨was_function, is_entry⟩
    · rw [← kind_eq]
      exact second.kind mid_set
    · rcases second.kind mid_set with kind_eq | ⟨is_function, -⟩
      · exact Or.inr ⟨was_function, kind_eq.trans is_entry⟩
      · cases is_entry.symm.trans is_function
  · obtain rfl := first.fixed fixed
    exact second.fixed fixed
  · obtain ⟨stop, is_function⟩ := first.function body is_function
    obtain ⟨last, is_function⟩ := second.function _ is_function
    exact ⟨last, is_function⟩

end Definition

namespace Declaration

variable {configuration : Configuration} {instruction : Instruction} {id : Id}
  {declaration : Declaration} {record changed : Record}

/-- A declaration makes of a definition what an instruction of a module may. -/
theorem settles_of_apply
    (applied : declaration.apply configuration instruction id record = .ok changed) :
    record.definition.Settles changed.definition := by
  cases applies_of_apply applied with
  | name => exact .same _
  | decoration room => exact .same _
  | definition unset | label unset =>
      rw [unset]
      exact .first _
  | @entryPoint _ _ _ given enters =>
      change record.definition.Settles given
      generalize record.definition = before at enters
      cases enters with
      | first => exact .first _
      | again entry => exact .entry fun body is_function => ⟨body.stop, is_function⟩
      | promoted body => exact .promoted rfl
  | executionMode is_entry =>
      rw [is_entry]
      exact .entry fun body is_function => ⟨body.stop, is_function⟩
  | @function _ _ _ given begins =>
      change record.definition.Settles given
      generalize record.definition = before at begins
      cases begins with
      | first => exact .first _
      | entered entry bodiless =>
          refine .entry fun body is_function => ?_
          cases bodiless.symm.trans is_function
  -- The end of a function changes no kind, only where a function stops.
  | functionEnd =>
      rw [Record.ended]
      cases record.definition with
      | function body => exact .ended body _
      | entryPoint entry =>
          refine .entry fun body is_function => ⟨some instruction.offset, ?_⟩
          simp only [is_function, Option.map_some]
      | _ => exact .same _

end Declaration

namespace Setup

variable {configuration : Configuration} {instruction : Instruction} {setup next : Setup}

/-- An instruction of a module makes of every definition what it may. -/
theorem settles_of_step (stepped : setup.step configuration instruction = .ok next) {id : Id}
    {record : Record} (found : setup.table.get id = .ok record) :
    ∃ after, next.table.get id = .ok after ∧ record.definition.Settles after.definition := by
  rcases step_declares stepped with rfl | ⟨-, rfl⟩ | ⟨changed_id, declaration, made⟩
  · exact ⟨record, found, .same _⟩
  · exact ⟨record, found, .same _⟩
  · obtain ⟨before, changed, found_before, applied, rfl⟩ := declare_inv made
    exact Table.exists_get_put (P := fun before after => before.definition.Settles after.definition)
      found_before found (.same _) fun _ => Declaration.settles_of_apply applied

/-- Definitions last while instructions of a module are read. -/
theorem lasts_of_foldlM {instructions : List Instruction}
    (passed : instructions.foldlM (step configuration) setup = .ok next) {id : Id}
    {record : Record} (found : setup.table.get id = .ok record) :
    ∃ after, next.table.get id = .ok after ∧ record.definition.Lasts after.definition := by
  refine foldlM_preserves (P := fun next => ∃ after, next.table.get id = .ok after ∧
      record.definition.Lasts after.definition)
    (fun before next instruction _ stepped lasts => ?_) passed
    ⟨record, found, (Definition.Settles.same _).lasts⟩
  obtain ⟨mid, found_mid, lasts⟩ := lasts
  obtain ⟨after, found_after, settles⟩ := settles_of_step stepped found_mid
  exact ⟨after, found_after, lasts.trans settles.lasts⟩

/-- A definition that stays as it is does so while instructions of a module are read. -/
theorem definition_of_foldlM {instructions : List Instruction}
    (passed : instructions.foldlM (step configuration) setup = .ok next) {id : Id}
    {record : Record} {definition : Definition} (found : setup.table.get id = .ok record)
    (is : record.definition = definition) (fixed : definition.IsFixed) :
    ∃ after, next.table.get id = .ok after ∧ after.definition = definition := by
  subst is
  obtain ⟨after, found_after, lasts⟩ := lasts_of_foldlM passed found
  exact ⟨after, found_after, lasts.fixed fixed⟩

/-- A type is there from its declaration on. -/
theorem typeOf_of_foldlM {instructions : List Instruction} {id : Id} {type : DataType}
    (passed : instructions.foldlM (step configuration) setup = .ok next)
    (is_type : setup.table.typeOf id = .ok type) : next.table.typeOf id = .ok type := by
  obtain ⟨record, found, is⟩ := Table.typeOf_eq_ok_iff.mp is_type
  exact Table.typeOf_eq_ok_iff.mpr (definition_of_foldlM passed found is trivial)

/-- So is a value. -/
theorem value_of_foldlM {instructions : List Instruction} {id : Id} {value : Value}
    (passed : instructions.foldlM (step configuration) setup = .ok next)
    (is_value : setup.table.value id = .ok value) : next.table.value id = .ok value := by
  obtain ⟨record, found, is⟩ := Table.value_eq_ok_iff.mp is_value
  exact Table.value_eq_ok_iff.mpr (definition_of_foldlM passed found is trivial)

end Setup

/-! ## When functions are called -/

/-- What calls may make of a record. -/
structure Record.Recomputed (before after : Record) : Prop where
  /-- The name stays. -/
  name : after.name = before.name
  /-- The decorations stay. -/
  decorations : after.decorations = before.decorations
  /-- Everything stays unless it stands for nothing, a value or a variable. -/
  fixed : ¬ before.definition.Varies → after = before
  /-- The kind stays if it is set. -/
  kind : before.definition ≠ .unset → after.definition.kind = before.definition.kind
  /-- What is new is a value or a variable. -/
  data : after.definition = before.definition ∨ after.definition.IsData

namespace Record.Recomputed

/-- A record may stay as it is. -/
theorem refl (record : Record) : record.Recomputed record :=
  ⟨rfl, rfl, fun _ => rfl, fun _ => rfl, Or.inl rfl⟩

/-- What calls may make of what they may make of a record, they may make of it. -/
theorem trans {before mid after : Record} (first : before.Recomputed mid)
    (second : mid.Recomputed after) : before.Recomputed after := by
  refine ⟨second.name.trans first.name, second.decorations.trans first.decorations,
    fun fixed => ?_, fun set => ?_, ?_⟩
  · obtain rfl := first.fixed fixed
    exact second.fixed fixed
  · rw [← first.kind set]
    refine second.kind fun unset => set ?_
    rw [← Table.kind_eq_unset_iff, ← first.kind set, unset]
    rfl
  · rcases second.data with same | is_data
    · rw [same]
      exact first.data
    · exact Or.inr is_data

/-- An executed instruction makes of every record what it may. -/
theorem of_change {table next : Table} (change : table.Change next) {id : Id} {record : Record}
    (found : table.get id = .ok record) :
    ∃ after, next.get id = .ok after ∧ record.Recomputed after := by
  -- Only the record that is written to is another one.
  have written {changed_id : Id} {before changed : Record}
      (found_before : table.get changed_id = .ok before) (recomputed : before.Recomputed changed) :
      ∃ after, (table.put changed_id changed).get id = .ok after ∧ record.Recomputed after :=
    Table.exists_get_put found_before found (refl record) fun _ => recomputed
  cases change with
  | keep => exact ⟨record, found, refl _⟩
  | touch found_before => exact written found_before (refl _)
  | @assign changed_id before definition found_before is_data fits kinds =>
      exact written found_before ⟨rfl, rfl, fun fixed => absurd (is_data.varies_before kinds) fixed,
        fun set => (kinds.resolve_left set).symm, Or.inr is_data⟩
  | @store changed_id before contents data found_before is_variable length_eq =>
      have varies : before.definition.Varies := by
        rw [is_variable]
        trivial
      refine written found_before ⟨rfl, rfl, fun fixed => absurd varies fixed, fun _ => ?_,
        Or.inr trivial⟩
      rw [is_variable]
      rfl

/-- Executed instructions make of every record what they may. -/
theorem of_changes {table next : Table} (changes : table.Changes next) {id : Id} {record : Record}
    (found : table.get id = .ok record) :
    ∃ after, next.get id = .ok after ∧ record.Recomputed after := by
  induction changes with
  | refl => exact ⟨record, found, refl _⟩
  | tail _ change hyp =>
      obtain ⟨mid, found_mid, first⟩ := hyp
      obtain ⟨after, found_after, second⟩ := of_change change found_mid
      exact ⟨after, found_after, first.trans second⟩

end Record.Recomputed

/-! ## What is refused -/

/-- Whether an instruction of a module may give an ID a definition of a kind in place of the one
that it has. -/
def Definition.Admits : Definition → DefinitionKind → Prop
  | .unset, _ | .function _, .entryPoint | .entryPoint _, .entryPoint => True
  | .entryPoint entry, .function => entry.function = none
  | _, _ => False

/-- What is at odds with an entry point is not made one. -/
theorem Definition.declareEntryPoint_of_odds {definition : Definition} {id : Id}
    {model : ExecutionModel} {text : String} {interface : List Id}
    (odds : ¬ definition.Admits .entryPoint) :
    Setup.declareEntryPoint id definition model text interface =
      .error (.idRedefined id definition.kind .entryPoint) := by
  cases definition with
  | unset | function | entryPoint => exact absurd trivial odds
  | _ => rfl

/-- What is at odds with a function is not made one. -/
theorem Definition.declareFunction_of_odds {definition : Definition} {id : Id}
    {body : FunctionRecord} (odds : ¬ definition.Admits .function) :
    Setup.declareFunction id definition body =
      .error (.idRedefined id definition.kind .function) := by
  cases definition with
  | unset => exact absurd trivial odds
  | entryPoint entry =>
      obtain ⟨models, names, modes, interface, function⟩ := entry
      cases function with
      | none => exact absurd rfl odds
      | some body => rfl
  | _ => rfl

/-- A table in which an ID stands for nothing yet. -/
def Table.forgetting (table : Table) (id : Id) (record : Record) : Table :=
  table.put id { record with definition := .unset }

/-- A setup in whose table an ID stands for nothing yet. -/
def Setup.forgetting (setup : Setup) (id : Id) (record : Record) : Setup :=
  { setup with table := setup.table.forgetting id record }

/-- A machine in whose table an ID stands for nothing yet. -/
def Machine.forgetting (machine : Machine) (id : Id) (record : Record) : Machine :=
  { machine with table := machine.table.forgetting id record }

/-- Without one definition, a table shows nothing that it does not show with it. -/
theorem Table.shows_forgetting {table : Table} {id : Id} {record : Record}
    (found : table.get id = .ok record) : (table.forgetting id record).Shows table := by
  intro other shown found_other
  rcases get_put_inv found found_other with ⟨rfl, rfl⟩ | ⟨-, same⟩
  · exact ⟨record, found, rfl, False.elim⟩
  · exact ⟨shown, same, rfl, fun _ => rfl⟩

/-- An ID that was forgotten stands for nothing. -/
theorem Table.unset_of_forgetting {table : Table} {id : Id} {record after : Record}
    (found : table.get id = .ok record)
    (found_after : (table.forgetting id record).get id = .ok after) :
    after.definition = .unset := by
  cases found_after.symm.trans (get_put_self found)
  rfl

/-- A declaration that is accepted of an ID without a definition is refused of one with a definition
that is at odds with the kind that it gives. -/
theorem Declaration.redefined_of_apply {configuration : Configuration}
    {instruction instruction' : Instruction} {id other : Id} {declaration : Declaration}
    {record before changed : Record}
    (applied : declaration.apply configuration instruction other before = .ok changed)
    (unset : before.definition = .unset) (given : changed.definition ≠ .unset)
    (odds : ¬ record.definition.Admits changed.definition.kind) :
    declaration.apply configuration instruction' id record =
      .error (.idRedefined id record.definition.kind changed.definition.kind) := by
  obtain ⟨name, decorations, definition⟩ := before
  obtain rfl : definition = .unset := unset
  -- All definitions but those of entry points and functions are refused alike.
  have defined {definition : Definition} (made : record.definition ≠ .unset) :
      record.defined id definition =
        .error (.idRedefined id record.definition.kind definition.kind) :=
    if_neg fun unset => made (Table.isUnset_iff.mp unset)
  have set : record.definition ≠ .unset := by
    intro unset
    rw [unset] at odds
    exact odds trivial
  cases declaration with
  | name text =>
      cases applied
      exact absurd rfl given
  | decoration entry =>
      cases applies_of_apply applied with
      | decoration room => exact absurd rfl given
  | definition =>
      cases applied
      exact defined set
  | label =>
      cases applied
      exact defined set
  | entryPoint model text interface =>
      cases applied
      rw [apply, Definition.declareEntryPoint_of_odds odds]
      rfl
  | executionMode mode literals => cases applied
  | function returnType functionType control =>
      cases applied
      rw [apply, Definition.declareFunction_of_odds odds]
      rfl
  | functionEnd =>
      cases applied
      exact absurd rfl given

/-- An instruction of a module that would give an ID a definition of a kind that is at odds with the
one that it has is refused. -/
theorem Setup.step_redefined {configuration : Configuration} {instruction : Instruction}
    {setup next : Setup} {id : Id} {record after : Record} (found : setup.table.get id = .ok record)
    (stepped : (setup.forgetting id record).step configuration instruction = .ok next)
    (found_after : next.table.get id = .ok after)
    (given : after.definition ≠ .unset)
    (odds : ¬ record.definition.Admits after.definition.kind) :
    setup.step configuration instruction =
      .error (.idRedefined id record.definition.kind after.definition.kind) := by
  have unset {after : Record} : (setup.forgetting id record).table.get id = .ok after →
      after.definition = .unset := Table.unset_of_forgetting found
  have shows : (setup.forgetting id record).table.Shows setup.table := Table.shows_forgetting found
  have open_eq : setup.openFunction = (setup.forgetting id record).openFunction := rfl
  have parallel : Parallel configuration configuration instruction instruction
      (setup.forgetting id record) setup (fun id => id) next
      (setup.step configuration instruction) :=
    step_parallel shows open_eq rfl rfl (fun strict => strict) stepped
  generalize setup.step configuration instruction = result at parallel
  cases parallel with
  | kept | skipped => exact absurd (unset found_after) given
  | declared changed_id declaration made =>
      obtain ⟨before, changed, found_before, applied, rfl⟩ := declare_inv made
      by_cases same : id = changed_id
      · subst same
        cases found_before.symm.trans (Table.get_put_self found)
        cases found_after.symm.trans (Table.get_put_self found_before)
        rw [declare, found]
        simp only [bind, Except.bind]
        rw [Declaration.redefined_of_apply applied rfl given odds]
      · exact absurd (unset ((Table.get_put_of_ne same).symm.trans found_after)) given

/-- An instruction of a module that defines its result is refused if it has another result, which is
at odds with the kind of that definition. -/
theorem Setup.step_withResult_redefined {configuration : Configuration} {instruction : Instruction}
    {setup next : Setup} {fresh id : Id} {before after record : Record}
    (is_result : instruction.result? = some fresh) (found : setup.table.get fresh = .ok before)
    (unset : before.definition = .unset) (stepped : setup.step configuration instruction = .ok next)
    (found_after : next.table.get fresh = .ok after) (given : after.definition ≠ .unset)
    (found_id : setup.table.get id = .ok record)
    (odds : ¬ record.definition.Admits after.definition.kind) :
    setup.step configuration (instruction.withResult id) =
      .error (.idRedefined id record.definition.kind after.definition.kind) := by
  obtain ⟨place, placed⟩ := Instruction.exists_resultPlace is_result
  have same_unset (same : next.table.get fresh = .ok before) : False := by
    cases found_after.symm.trans same
    exact given unset
  have parallel := step_withResult placed stepped id
  generalize setup.step configuration (instruction.withResult id) = result at parallel
  cases parallel with
  | kept | skipped => exact (same_unset found).elim
  | declared changed_id declaration made =>
      obtain ⟨changed_before, changed, found_before, applied, rfl⟩ := declare_inv made
      by_cases same : fresh = changed_id
      · subst same
        cases found_before.symm.trans found
        cases found_after.symm.trans (Table.get_put_self found)
        rw [declare, found_id]
        simp only [bind, Except.bind]
        rw [Declaration.redefined_of_apply applied unset given odds]
      · exact (same_unset ((Table.get_put_of_ne same).trans found)).elim

/-- An effect that would give an ID a definition of another kind than that of the one it has is not
carried out. -/
theorem Machine.commit_redefined {machine next : Machine} {effect : Effect} {id : Id}
    {record after : Record} (found : machine.table.get id = .ok record)
    (committed : (machine.forgetting id record).commit effect = ⟨next, .ok ()⟩)
    (found_after : next.table.get id = .ok after)
    (given : after.definition ≠ .unset) (set : record.definition ≠ .unset)
    (odds : record.definition.kind ≠ after.definition.kind) :
    machine.commit effect =
      ⟨machine, .error (.idRedefined id record.definition.kind after.definition.kind)⟩ := by
  have unset {after : Record} : (machine.forgetting id record).table.get id = .ok after →
      after.definition = .unset := Table.unset_of_forgetting found
  cases effect with
  | nothing =>
      cases committed
      exact absurd (unset found_after) given
  | assign changed_id definition =>
      obtain ⟨before, found_before, -, rfl⟩ := commit_assign_inv committed
      rcases Table.get_put_inv found_before found_after with ⟨rfl, rfl⟩ | ⟨-, kept⟩
      · rw [commit, Table.replace_eq_error found set odds]
      · exact absurd (unset kept) given
  | store pointer object bytes =>
      obtain ⟨before, contents, found_before, is_variable, table_eq, -⟩ := storeBytes_inv committed
      rw [table_eq] at found_after
      -- Nothing is stored through an ID that stands for nothing.
      rcases Table.get_put_inv found_before found_after with ⟨rfl, -⟩ | ⟨-, kept⟩
      · cases (unset found_before).symm.trans is_variable
      · exact absurd (unset kept) given

/-- An executed instruction that would give an ID a definition of another kind than that of the one
it has is refused. -/
theorem Machine.step_redefined {configuration : Configuration} {instruction : Instruction}
    {machine next : Machine} {id : Id} {record after : Record} {skipped : Bool}
    (found : machine.table.get id = .ok record)
    (stepped : (machine.forgetting id record).step configuration instruction =
      ⟨next, .ok skipped⟩) (found_after : next.table.get id = .ok after)
    (given : after.definition ≠ .unset) (set : record.definition ≠ .unset)
    (odds : record.definition.kind ≠ after.definition.kind) :
    machine.step configuration instruction =
      ⟨machine, .error (.idRedefined id record.definition.kind after.definition.kind)⟩ := by
  have unset {after : Record} : (machine.forgetting id record).table.get id = .ok after →
      after.definition = .unset := Table.unset_of_forgetting found
  have shows : (machine.forgetting id record).table.Shows machine.table :=
    Table.shows_forgetting found
  have inputs : (machine.forgetting id record).slots.inputs = machine.slots.inputs := rfl
  have lenient : configuration.strict = true → configuration.strict = true := fun strict => strict
  rcases step_again shows inputs rfl rfl lenient stepped with
    ⟨-, rfl, -⟩ | ⟨-, effect, -, committed, ends⟩
  · exact absurd (unset found_after) given
  · exact ends machine _ (commit_redefined found committed found_after given set odds)

/-- An executed instruction whose effect gives an ID a definition of another kind than that of the
one it has is refused. -/
theorem Machine.step_of_assign_redefined {configuration : Configuration} {instruction : Instruction}
    {machine : Machine} {handler : ExecutionHandler} {cursor : Cursor} {id : Id}
    {definition : Definition} {record : Record}
    (registered : executionTable.get? instruction.opcode = some handler)
    (yielded : handler machine.table machine.slots instruction instruction.cursor =
      .ok (.assign id definition, cursor)) (found : machine.table.get id = .ok record)
    (set : record.definition ≠ .unset) (odds : record.definition.kind ≠ definition.kind) :
    machine.step configuration instruction =
      ⟨machine, .error (.idRedefined id record.definition.kind definition.kind)⟩ := by
  rw [step, registered]
  simp only [handle, yielded, commit, Table.replace_eq_error found set odds]
  rfl

/-! ## All together -/

/-- The kind of a definition is set once. While a module is read, every instruction leaves a
definition as it is, or gives the first one, ends the body of a function, makes an entry point of a
function, or says more about an entry point; so set kinds stay, but for that of such a function, and
types, values, variables, labels and imported sets stay as they are. A call, however it ends, leaves
everything else than values and variables as it is, and gives these to IDs that stand for nothing or
for the same kind. An instruction that would be accepted if an ID stood for nothing yet, and would
give it a definition of a kind that what it stands for does not admit, is refused; so is one that
would be accepted with a result that stands for nothing, and one that is executed and comes to such
a definition, whether or not they read what that ID stands for. -/
theorem kinds_set_once (configuration : Configuration) :
    (∀ (instruction : Instruction) (setup next : Setup),
      setup.step configuration instruction = .ok next →
      ∀ id record, setup.table.get id = .ok record →
        ∃ after, next.table.get id = .ok after ∧ record.definition.Settles after.definition) ∧
    (∀ (instructions : List Instruction) (setup next : Setup),
      instructions.foldlM (Setup.step configuration) setup = .ok next →
      ∀ id record, setup.table.get id = .ok record →
        ∃ after, next.table.get id = .ok after ∧ record.definition.Lasts after.definition) ∧
    (∀ (machine : Machine) (outcome : Outcome Summary),
      (∃ id, outcome = machine.call configuration id) ∨
        (∃ name, outcome = machine.callEntryPoint configuration name) →
      ∀ id record, machine.table.get id = .ok record →
        ∃ after, outcome.machine.table.get id = .ok after ∧ record.Recomputed after) ∧
    (∀ (instruction : Instruction) (setup next : Setup) (id : Id) (record after : Record),
      setup.table.get id = .ok record →
      (setup.forgetting id record).step configuration instruction = .ok next →
      next.table.get id = .ok after → after.definition ≠ .unset →
      ¬ record.definition.Admits after.definition.kind →
        setup.step configuration instruction =
          .error (.idRedefined id record.definition.kind after.definition.kind)) ∧
    (∀ (instruction : Instruction) (setup next : Setup) (fresh id : Id)
      (before after record : Record),
      instruction.result? = some fresh → setup.table.get fresh = .ok before →
      before.definition = .unset → setup.step configuration instruction = .ok next →
      next.table.get fresh = .ok after → after.definition ≠ .unset →
      setup.table.get id = .ok record → ¬ record.definition.Admits after.definition.kind →
        setup.step configuration (instruction.withResult id) =
          .error (.idRedefined id record.definition.kind after.definition.kind)) ∧
    (∀ (instruction : Instruction) (machine next : Machine) (skipped : Bool) (id : Id)
      (record after : Record),
      machine.table.get id = .ok record →
      (machine.forgetting id record).step configuration instruction = ⟨next, .ok skipped⟩ →
      next.table.get id = .ok after → after.definition ≠ .unset → record.definition ≠ .unset →
      record.definition.kind ≠ after.definition.kind →
        machine.step configuration instruction =
          ⟨machine, .error (.idRedefined id record.definition.kind after.definition.kind)⟩) ∧
    ∀ (instruction : Instruction) (machine : Machine) (handler : ExecutionHandler) (cursor : Cursor)
      (id : Id) (definition : Definition) (record : Record),
      executionTable.get? instruction.opcode = some handler →
      handler machine.table machine.slots instruction instruction.cursor =
        .ok (.assign id definition, cursor) →
      machine.table.get id = .ok record → record.definition ≠ .unset →
      record.definition.kind ≠ definition.kind →
        machine.step configuration instruction =
          ⟨machine, .error (.idRedefined id record.definition.kind definition.kind)⟩ := by
  refine ⟨fun instruction setup next stepped id record found =>
      Setup.settles_of_step stepped found,
    fun instructions setup next passed id record found => Setup.lasts_of_foldlM passed found,
    fun machine outcome called id record found => ?_,
    fun instruction setup next id record after found stepped found_after given odds =>
      Setup.step_redefined found stepped found_after given odds,
    fun instruction setup next fresh id before after record is_result found unset stepped
        found_after given found_id odds =>
      Setup.step_withResult_redefined is_result found unset stepped found_after given found_id
        odds,
    fun instruction machine next skipped id record after found stepped found_after given set odds =>
      Machine.step_redefined found stepped found_after given set odds,
    fun instruction machine handler cursor id definition record registered yielded found set odds =>
      Machine.step_of_assign_redefined registered yielded found set odds⟩
  -- A call changes records as executed instructions may, whatever it is called by.
  have calls (called_id : Id) := Record.Recomputed.of_changes
    (Machine.call_changes configuration machine called_id) found
  rcases called with ⟨called_id, rfl⟩ | ⟨name, rfl⟩
  · exact calls called_id
  · exact Machine.callEntryPoint_preserves
      (P := fun other => ∃ after, other.table.get id = .ok after ∧ record.Recomputed after)
      ⟨record, found, .refl record⟩ calls

/-- A type that is declared again is refused, also as a vector of itself; a variable that is loaded
into itself is refused, and an entry point stays as it is when it is called. -/
theorem kinds_set_once_flagged :
    (∃ setup, (Machine.flagged.instructions.take 8).foldlM (Setup.step {})
        (Setup.ofModule Machine.flagged) = .ok setup ∧
      setup.step {} ⟨35, 19, [3]⟩ = .error (.idRedefined 3 .type .type) ∧
      setup.step {} ⟨35, 23, [5, 5, 3]⟩ = .error (.idRedefined 5 .type .type)) ∧
    ∃ machine record, Machine.ofModule {} Machine.flagged = .ok machine ∧
      machine.step {} ⟨62, 61, [5, 9, 9]⟩ = ⟨machine, .error (.idRedefined 9 .var .constant)⟩ ∧
      record.definition.kind = .entryPoint ∧ machine.table.get 1 = .ok record ∧
      (machine.callEntryPoint {} "main").machine.table.get 1 = .ok record := by
  obtain ⟨-, -, calls, forgotten, renamed, -, assigned⟩ := kinds_set_once {}
  have declared : ((Machine.flagged.instructions.take 8).foldlM (Setup.step {})
      (Setup.ofModule Machine.flagged)).toOption.any (fun setup =>
        ((setup.table.get 3).toOption.any fun record =>
          decide (record.definition = .type .void) &&
          ((setup.forgetting 3 record).step {} ⟨35, 19, [3]⟩).toOption.any fun next =>
            (next.table.get 3).toOption.any fun after =>
              decide (after.definition = .type .void)) &&
        ((setup.table.get 5).toOption.any fun record =>
          decide (record.definition = .type (.float 32))) &&
        ((setup.table.get 11).toOption.any fun before => decide (before.definition = .unset)) &&
        (setup.step {} ⟨35, 23, [11, 5, 3]⟩).toOption.any fun next =>
          (next.table.get 11).toOption.any fun after =>
            decide (after.definition.kind = .type)) = true := by
    decide +kernel
  have called : (Machine.ofModule {} Machine.flagged).toOption.any (fun machine =>
      ((machine.table.get 1).toOption.any fun record =>
        decide (record.definition.kind = .entryPoint)) &&
      ((machine.table.get 9).toOption.any fun record => decide (record.definition.kind = .var)) &&
      (Execution.load machine.table machine.slots ⟨62, 61, [5, 9, 9]⟩
        (Instruction.cursor ⟨62, 61, [5, 9, 9]⟩)).toOption.any fun yielded =>
          decide (yielded.1 = .assign 9 (.constant ⟨5, [0, 0, 0, 0]⟩))) = true := by
    decide +kernel
  constructor
  · obtain ⟨setup, passed, declared⟩ := exists_of_any declared
    simp only [Bool.and_eq_true] at declared
    obtain ⟨⟨⟨is_void, is_float⟩, is_unset⟩, accepted⟩ := declared
    refine ⟨setup, passed, ?_, ?_⟩
    · obtain ⟨record, found, is_void⟩ := exists_of_any is_void
      rw [Bool.and_eq_true, decide_eq_true_eq] at is_void
      obtain ⟨next, stepped, given⟩ := exists_of_any is_void.2
      obtain ⟨after, found_after, given⟩ := exists_of_any given
      rw [decide_eq_true_eq] at given
      have redefined := forgotten _ setup next 3 record after found stepped found_after
        (by rw [given]; simp) (by rw [given, is_void.1]; exact id)
      rwa [given, is_void.1] at redefined
    · -- As another result, the vector is accepted.
      obtain ⟨record, found, is_float⟩ := exists_of_any is_float
      obtain ⟨before, found_before, is_unset⟩ := exists_of_any is_unset
      obtain ⟨next, stepped, given⟩ := exists_of_any accepted
      obtain ⟨after, found_after, given⟩ := exists_of_any given
      rw [decide_eq_true_eq] at is_float is_unset given
      have redefined := renamed ⟨35, 23, [11, 5, 3]⟩ setup next 11 5 before after record rfl
        found_before is_unset stepped found_after
        (by rintro unset; rw [unset] at given; cases given) found
        (by rw [given, is_float]; exact id)
      rwa [given, is_float] at redefined
  · obtain ⟨machine, set_up, called⟩ := exists_of_any called
    simp only [Bool.and_eq_true] at called
    obtain ⟨⟨is_entry, is_variable⟩, loaded⟩ := called
    obtain ⟨record, found, is_entry⟩ := exists_of_any is_entry
    obtain ⟨contents, found_contents, is_variable⟩ := exists_of_any is_variable
    obtain ⟨⟨effect, cursor⟩, yielded, is_assignment⟩ := exists_of_any loaded
    rw [decide_eq_true_eq] at is_entry is_variable is_assignment
    obtain rfl : effect = _ := is_assignment
    obtain ⟨after, found_after, recomputed⟩ :=
      calls machine _ (Or.inr ⟨"main", rfl⟩) 1 record found
    have redefined := assigned ⟨62, 61, [5, 9, 9]⟩ machine _ cursor 9 _ contents rfl yielded
      found_contents (by rintro unset; rw [unset] at is_variable; cases is_variable)
      (by rw [is_variable]; decide)
    rw [is_variable] at redefined
    -- Entry points are none of the definitions that calls change.
    have fixed : ¬ record.definition.Varies := by
      cases definition_eq : record.definition with
      | entryPoint entry => exact id
      | _ =>
          rw [definition_eq] at is_entry
          cases is_entry
    rw [recomputed.fixed fixed] at found_after
    exact ⟨machine, record, set_up, redefined, is_entry, found, found_after⟩

end ShaderMachine
