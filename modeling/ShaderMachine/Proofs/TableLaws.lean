import ShaderMachine.Machine.Table
import ShaderMachine.Proofs.Meets

/-! # Laws of the result table

What is read from a table after a record was written, and what the readers of one kind of
definition say.

* **`Table.get_put_self`** and **`Table.get_put_of_ne`** — reading a record after a write.
* **`Table.define_inv`** and **`Table.replace_inv`** — when an ID may be given a definition.
* **`Table.typeOf_eq_ok_iff`** — an ID stands for a type if its record holds that type. -/

namespace ShaderMachine.Table

variable {table next : Table} {id other : Id} {record changed : Record}

/-! ## Reading and writing -/

/-- A record is found if its ID is below the bound. -/
theorem get_eq_ok_iff :
    table.get id = .ok record ↔ id < table.bound ∧ table.records.getD id {} = record := by
  unfold get
  split
  · rename_i below
    rw [Except.ok.injEq]
    exact (and_iff_right below).symm
  · rename_i above
    exact ⟨fun found => (by cases found), fun found => absurd found.1 above⟩

/-- A record that was written is read. -/
theorem get_put_self (found : table.get id = .ok record) :
    (table.put id changed).get id = .ok changed := by
  rw [get_eq_ok_iff] at found ⊢
  refine ⟨found.1, ?_⟩
  rw [put, Std.TreeMap.getD_insert_self]

/-- Writing a record leaves the others as they are. -/
theorem get_put_of_ne (different : other ≠ id) :
    (table.put id changed).get other = table.get other := by
  have compared : compare id other ≠ .eq :=
    fun equal => different (Std.LawfulEqCmp.eq_of_compare equal).symm
  rw [get, get, put, Std.TreeMap.getD_insert, if_neg compared]

/-- What a table holds after a record was written. -/
theorem getD_put :
    (table.put id changed).records.getD other {} =
      if other = id then changed else table.records.getD other {} := by
  rw [put, Std.TreeMap.getD_insert]
  by_cases same : other = id
  · rw [if_pos same, if_pos (same ▸ Std.ReflCmp.compare_self)]
  · rw [if_neg same, if_neg fun equal => same (Std.LawfulEqCmp.eq_of_compare equal).symm]

/-- A record that is read after a write is the written one or was there before. -/
theorem get_put_inv (found : table.get id = .ok record) {present : Record}
    (read : (table.put id changed).get other = .ok present) :
    other = id ∧ present = changed ∨ other ≠ id ∧ table.get other = .ok present := by
  by_cases same : other = id
  · subst same
    rw [get_put_self found] at read
    exact Or.inl ⟨rfl, (Except.ok.inj read).symm⟩
  · rw [get_put_of_ne same] at read
    exact Or.inr ⟨same, read⟩

/-- What holds of records that stay and of one that is written holds of all records. -/
theorem exists_get_put {P : Record → Record → Prop} {before : Record}
    (found_before : table.get other = .ok before) (found : table.get id = .ok record)
    (stays : P record record) (becomes : id = other → P before changed) :
    ∃ after, (table.put other changed).get id = .ok after ∧ P record after := by
  by_cases same : id = other
  · subst same
    cases found.symm.trans found_before
    exact ⟨changed, get_put_self found, becomes rfl⟩
  · exact ⟨record, (get_put_of_ne same).trans found, stays⟩

/-! ## Giving definitions -/

/-- A definition of the unset kind is unset. -/
theorem kind_eq_unset_iff {definition : Definition} :
    definition.kind = .unset ↔ definition = .unset := by
  cases definition <;> simp [Definition.kind]

/-- A record stands for nothing if its definition is unset. -/
theorem isUnset_iff : record.isUnset = true ↔ record.definition = .unset := by
  rw [Record.isUnset, decide_eq_true_eq]
  exact kind_eq_unset_iff

/-- An ID is given a definition if it stands for nothing. -/
theorem define_inv {definition : Definition} (defined : table.define id definition = .ok next) :
    ∃ record, table.get id = .ok record ∧ record.definition = .unset ∧
      next = table.put id { record with definition } := by
  obtain ⟨record, found, defined⟩ := exists_of_bind defined
  split at defined
  · rename_i unset
    cases defined
    exact ⟨record, found, isUnset_iff.mp unset, rfl⟩
  · cases defined

/-- An ID is given another definition if it stands for nothing or for something of the kind. -/
theorem replace_inv {definition : Definition} (replaced : table.replace id definition = .ok next) :
    ∃ record, table.get id = .ok record ∧
      (record.definition = .unset ∨ record.definition.kind = definition.kind) ∧
      next = table.put id { record with definition } := by
  obtain ⟨record, found, replaced⟩ := exists_of_bind replaced
  split at replaced
  · rename_i fitting
    cases replaced
    exact ⟨record, found, fitting.imp_left isUnset_iff.mp, rfl⟩
  · cases replaced

/-- An ID may be given a definition if it stands for nothing or for something of the kind. -/
theorem replace_eq {definition : Definition} (found : table.get id = .ok record)
    (fits : record.definition = .unset ∨ record.definition.kind = definition.kind) :
    table.replace id definition = .ok (table.put id { record with definition }) := by
  rw [replace, found]
  simp only [bind, Except.bind]
  rw [if_pos (fits.imp_left isUnset_iff.mpr)]
  rfl

/-- Otherwise it is not, and the two kinds are reported. -/
theorem replace_eq_error {definition : Definition} (found : table.get id = .ok record)
    (set : record.definition ≠ .unset) (odds : record.definition.kind ≠ definition.kind) :
    table.replace id definition =
      .error (.idRedefined id record.definition.kind definition.kind) := by
  rw [replace, found]
  simp only [bind, Except.bind]
  exact if_neg (not_or.mpr ⟨fun unset => set (isUnset_iff.mp unset), odds⟩)

/-! ## Reading one kind of definition -/

/-- An ID stands for something if its record does. -/
theorem defined_eq_ok_iff {definition : Definition} :
    table.defined id = .ok definition ↔
      definition ≠ .unset ∧ ∃ record, table.get id = .ok record ∧
        record.definition = definition := by
  unfold defined
  cases found : table.get id with
  | error fault => simp [bind, Except.bind]
  | ok record =>
      simp only [bind, Except.bind]
      split
      · rename_i unset
        rw [isUnset_iff] at unset
        constructor
        · intro impossible
          cases impossible
        · rintro ⟨set, present, found', definition_eq⟩
          cases found'
          exact absurd (definition_eq.symm.trans unset) set
      · rename_i set
        rw [isUnset_iff] at set
        constructor
        · rintro ⟨⟩
          exact ⟨set, record, rfl, rfl⟩
        · rintro ⟨-, present, found', rfl⟩
          cases found'
          rfl

/-- An ID stands for a type if its record holds that type. -/
theorem typeOf_eq_ok_iff {type : DataType} :
    table.typeOf id = .ok type ↔
      ∃ record, table.get id = .ok record ∧ record.definition = .type type := by
  have defined : table.defined id = .ok (.type type) ↔ _ := defined_eq_ok_iff
  simp only [ne_eq, reduceCtorEq, not_false_eq_true, true_and] at defined
  rw [← defined, typeOf]
  cases table.defined id with
  | error fault => simp [bind, Except.bind]
  | ok definition => cases definition <;> simp [bind, Except.bind, pure, Except.pure]

/-- An ID stands for a value if its record holds that value. -/
theorem value_eq_ok_iff {value : Value} :
    table.value id = .ok value ↔
      ∃ record, table.get id = .ok record ∧ record.definition = .constant value := by
  have defined : table.defined id = .ok (.constant value) ↔ _ := defined_eq_ok_iff
  simp only [ne_eq, reduceCtorEq, not_false_eq_true, true_and] at defined
  rw [← defined, Table.value]
  cases table.defined id with
  | error fault => simp [bind, Except.bind]
  | ok definition => cases definition <;> simp [bind, Except.bind, pure, Except.pure]

/-- An ID that is given a type stands for it. -/
theorem typeOf_of_define {type : DataType} (defined : table.define id (.type type) = .ok next) :
    next.typeOf id = .ok type := by
  obtain ⟨record, found, -, rfl⟩ := define_inv defined
  exact typeOf_eq_ok_iff.mpr ⟨_, get_put_self found, rfl⟩

/-- An ID that is given a value stands for it. -/
theorem value_of_define {value : Value} (defined : table.define id (.constant value) = .ok next) :
    next.value id = .ok value := by
  obtain ⟨record, found, -, rfl⟩ := define_inv defined
  exact value_eq_ok_iff.mpr ⟨_, get_put_self found, rfl⟩

/-- An ID stands for a variable if its record holds that variable. -/
theorem variableAt_eq_ok_iff {contents : Variable} :
    table.variableAt id = .ok contents ↔
      ∃ record, table.get id = .ok record ∧ record.definition = .var contents := by
  have defined : table.defined id = .ok (.var contents) ↔ _ := defined_eq_ok_iff
  simp only [ne_eq, reduceCtorEq, not_false_eq_true, true_and] at defined
  rw [← defined, Table.variableAt]
  cases table.defined id with
  | error fault => simp [bind, Except.bind]
  | ok definition => cases definition <;> simp [bind, Except.bind, pure, Except.pure]

/-- A type has a size if it is one. -/
theorem sizeOf_eq_ok_iff {size : Nat} :
    table.sizeOf id = .ok size ↔ ∃ type, table.typeOf id = .ok type ∧ type.size = size := by
  unfold sizeOf
  cases table.typeOf id with
  | error fault => simp [Except.map]
  | ok type => simp [Except.map]

/-- What stands for a type has its size. -/
theorem sizeOf_of_typeOf {type : DataType} (is_type : table.typeOf id = .ok type) :
    table.sizeOf id = .ok type.size :=
  sizeOf_eq_ok_iff.mpr ⟨type, is_type, rfl⟩

/-! ## Writing to a variable -/

/-- Writing to a variable leaves the other records as they are. -/
theorem get_changeData_of_ne (table : Table) (change : Variable → Except MachineError Bytes)
    (different : other ≠ id) : (table.changeData id change).1.get other = table.get other := by
  unfold changeData
  split
  · rfl
  · split
    · split
      · rfl
      · exact get_put_of_ne different
    · exact get_put_of_ne different
    · rfl

/-- A write that succeeds changes the data of a variable. -/
theorem changeData_inv {change : Variable → Except MachineError Bytes}
    (changed : table.changeData id change = (next, none)) :
    ∃ record contents data, table.get id = .ok record ∧ record.definition = .var contents ∧
      change contents = .ok data ∧
      next = table.put id { record with definition := .var { contents with data } } := by
  unfold changeData at changed
  split at changed
  · cases changed
  · rename_i record found
    split at changed
    · rename_i contents is_variable
      split at changed
      · cases changed
      · rename_i data is_data
        cases changed
        exact ⟨record, contents, data, found, is_variable, is_data, rfl⟩
    · cases changed
    · cases changed

end ShaderMachine.Table
