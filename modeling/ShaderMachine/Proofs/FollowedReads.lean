import ShaderMachine.Machine.Setup
import ShaderMachine.Proofs.TablesAlike

/-! # Tables that show what another one shows

What a computation reads of a table are types, values, variables and imported sets, each by its ID.
If another table has all of these too, the computation yields the same from it, whatever else the
tables say about their IDs and wherever their bounds are.

* **`Follows`** — a result yields whatever another one yields.
* **`Table.ShowsAt`** — one table shows at an ID what another one shows there.
* **`Table.TypesFollow`** — one table has the types of another one.
* **`follows_evaluateFloats`**, **`follows_loadBytes`**, **`follows_createVariable`** — what
  instructions compute depends on nothing but what they read. -/

namespace ShaderMachine

/-! ## Results that follow others -/

/-- Whether a result yields whatever another one yields. -/
def Follows {ε α : Type} (first second : Except ε α) : Prop :=
  ∀ value, first = .ok value → second = .ok value

namespace Follows

variable {ε α β : Type} {first second : Except ε α} {rest other : α → Except ε β}

/-- A result follows itself. -/
theorem refl (result : Except ε α) : Follows result result :=
  fun _ is => is

/-- A fault is followed by anything. -/
theorem of_error {error : ε} : Follows (.error error) second := by
  intro value is
  cases is

/-- Computations one after the other follow those that they follow one by one. -/
theorem bind (follows : Follows first second) (more : ∀ value, Follows (rest value) (other value)) :
    Follows (first >>= rest) (second >>= other) := by
  intro value is
  obtain ⟨mid, is_mid, is⟩ := exists_of_bind is
  rw [follows mid is_mid]
  exact more mid value is

/-- What is done with a value follows what is done with it. -/
theorem map (follows : Follows first second) (f : α → β) :
    Follows (first.map f) (second.map f) := by
  intro value is
  cases first with
  | error error => cases is
  | ok mid =>
      rw [follows mid rfl]
      exact is

/-- A list of computations follows another one if each of them does. -/
theorem mapM {γ : Type} {f g : γ → Except ε α} {elements : List γ}
    (follows : ∀ element ∈ elements, Follows (f element) (g element)) :
    Follows (elements.mapM f) (elements.mapM g) := by
  induction elements with
  | nil => exact refl _
  | cons element elements hyp =>
      rw [List.mapM_cons, List.mapM_cons]
      refine (follows element List.mem_cons_self).bind fun value => ?_
      refine (hyp fun other mem => follows other (List.mem_cons_of_mem element mem)).bind
        fun values => ?_
      exact refl _

end Follows

/-! ## What is shown at an ID -/

/-- Whether a definition is one that computations read: a type, a value, a variable or an imported
set. -/
def Definition.IsReadable : Definition → Prop
  | .type _ | .constant _ | .var _ | .extendedSet _ => True
  | _ => False

/-- Whether one table shows at an ID what another one shows there: it has a record with the same
decorations, and with the same definition if that is readable. -/
def Table.ShowsAt (table next : Table) (id : Id) : Prop :=
  ∀ record, table.get id = .ok record → ∃ other, next.get id = .ok other ∧
    other.decorations = record.decorations ∧
    (record.definition.IsReadable → other.definition = record.definition)

/-- Whether one table has the types of another one. -/
def Table.TypesFollow (table next : Table) : Prop :=
  ∀ id, Follows (table.typeOf id) (next.typeOf id)

namespace Table.ShowsAt

variable {table next : Table} {id : Id}

/-- The same record shows the same. -/
theorem of_eq (same : table.get id = next.get id) : table.ShowsAt next id :=
  fun record found => ⟨record, same.symm.trans found, rfl, fun _ => rfl⟩

/-- A readable definition is found in the other table too. -/
theorem get {record : Record} (shows : table.ShowsAt next id) (found : table.get id = .ok record)
    (readable : record.definition.IsReadable) :
    ∃ other, next.get id = .ok other ∧ other.definition = record.definition := by
  obtain ⟨other, found', -, same⟩ := shows record found
  exact ⟨other, found', same readable⟩

/-- A shown ID stands for the same type. -/
theorem follows_typeOf (shows : table.ShowsAt next id) :
    Follows (table.typeOf id) (next.typeOf id) := by
  intro type is
  obtain ⟨record, found, definition_eq⟩ := typeOf_eq_ok_iff.mp is
  obtain ⟨other, found', same⟩ := shows.get found (by
    rw [definition_eq]
    trivial)
  exact typeOf_eq_ok_iff.mpr ⟨other, found', same.trans definition_eq⟩

/-- A shown ID stands for the same value. -/
theorem follows_value (shows : table.ShowsAt next id) :
    Follows (table.value id) (next.value id) := by
  intro value is
  obtain ⟨record, found, definition_eq⟩ := value_eq_ok_iff.mp is
  obtain ⟨other, found', same⟩ := shows.get found (by
    rw [definition_eq]
    trivial)
  exact value_eq_ok_iff.mpr ⟨other, found', same.trans definition_eq⟩

/-- A shown ID stands for the same variable. -/
theorem follows_variableAt (shows : table.ShowsAt next id) :
    Follows (table.variableAt id) (next.variableAt id) := by
  intro contents is
  obtain ⟨record, found, definition_eq⟩ := variableAt_eq_ok_iff.mp is
  obtain ⟨other, found', same⟩ := shows.get found (by
    rw [definition_eq]
    trivial)
  exact variableAt_eq_ok_iff.mpr ⟨other, found', same.trans definition_eq⟩

/-- A shown ID stands for the same imported set. -/
theorem follows_extendedSet (shows : table.ShowsAt next id) :
    Follows (Execution.extendedSet table id) (Execution.extendedSet next id) := by
  intro set is
  obtain ⟨record, found, is⟩ := exists_of_bind is
  split at is
  · rename_i imported definition_eq
    obtain ⟨other, found', same⟩ := shows.get found (by
      rw [definition_eq]
      trivial)
    cases is
    rw [Execution.extendedSet, found']
    simp only [bind, Except.bind, same, definition_eq, pure, Except.pure]
  · cases is
  · cases is

end Table.ShowsAt

/-! ## Types -/

/-- Tables that are alike have the same types. -/
theorem Table.Alike.typesFollow {table next : Table} (alike : table.Alike next) :
    table.TypesFollow next :=
  fun _ _ => alike.typeOf

namespace Table.TypesFollow

variable {table next : Table}

/-- Types have the same sizes. -/
theorem follows_sizeOf (types : table.TypesFollow next) (id : Id) :
    Follows (table.sizeOf id) (next.sizeOf id) :=
  (types id).map DataType.size

/-- Types have floats of the same widths. -/
theorem follows_floatWidth (types : table.TypesFollow next) (id : Id) :
    Follows (table.floatWidth id) (next.floatWidth id) := by
  refine (types id).bind fun type => ?_
  cases type with
  | vector members =>
      cases members with
      | nil => exact .refl _
      | cons member members => exact (types member.type).bind fun _ => .refl _
  | _ => exact .refl _

/-- Types are of the same kinds. -/
theorem follows_expectKind (types : table.TypesFollow next) (id : Id) (kind : DataKind) :
    Follows (table.expectKind id kind) (next.expectKind id kind) :=
  (types id).bind fun _ => .refl _

/-- Constants of a type have the same sizes. -/
theorem follows_scalarConstantSize (types : table.TypesFollow next) (id : Id) :
    Follows (Setup.scalarConstantSize table id) (Setup.scalarConstantSize next id) :=
  (types id).bind fun _ => .refl _

/-- Repeated members are the same. -/
theorem follows_repeatedMembers (types : table.TypesFollow next) (id : Id) (count : Word) :
    Follows (Setup.repeatedMembers table id count) (Setup.repeatedMembers next id count) :=
  (types.follows_sizeOf id).map _

/-- The same values are accepted. -/
theorem follows_finishValue (types : table.TypesFollow next) (result resultType : Id)
    (bytes : Option Bytes) :
    Follows (finishValue table result resultType bytes)
      (finishValue next result resultType bytes) := by
  cases bytes with
  | none => exact .refl _
  | some bytes => exact (types.follows_sizeOf resultType).bind fun size => .refl _

/-- Composites have the same parts. -/
theorem follows_memberPart (types : table.TypesFollow next) (composite : Id) (part : Part)
    (index : Word) :
    Follows (memberPart table composite part index) (memberPart next composite part index) :=
  (types part.type).bind fun _ => .refl _

/-- So they have along paths. -/
theorem follows_foldlM (types : table.TypesFollow next) (composite : Id) (indices : List Word)
    (part : Part) :
    Follows (indices.foldlM (memberPart table composite) part)
      (indices.foldlM (memberPart next composite) part) := by
  induction indices generalizing part with
  | nil => exact .refl _
  | cons index indices hyp =>
      rw [List.foldlM_cons, List.foldlM_cons]
      exact (types.follows_memberPart composite part index).bind hyp

end Table.TypesFollow

/-! ## Computations -/

section

variable {table next : Table} {slots others : Slots} {id id' : Id}

/-- An integer constant has the same value. -/
theorem follows_integerConstant (types : table.TypesFollow next) (shows : table.ShowsAt next id) :
    Follows (table.integerConstant id) (next.integerConstant id) :=
  shows.follows_value.bind fun value => (types value.type).bind fun _ => .refl _

/-- A composite depends on its constituents. -/
theorem follows_foldComposite (types : table.TypesFollow next) {result result' : Id} (type : Id)
    {constituents : List Id} (shows : ∀ id ∈ constituents, table.ShowsAt next id) :
    Follows (foldComposite table result type constituents)
      (foldComposite next result' type constituents) := by
  refine (types.follows_sizeOf type).bind fun size => ?_
  refine (Follows.mapM fun id mem => (shows id mem).follows_value).bind fun values => ?_
  dsimp only
  split
  · exact .refl _
  · exact .of_error

/-- A part depends on its composite. -/
theorem follows_extractComposite (types : table.TypesFollow next) {composite : Id}
    (shows : table.ShowsAt next composite) (indices : List Word) :
    Follows (extractComposite table composite indices)
      (extractComposite next composite indices) := by
  refine shows.follows_value.bind fun value => ?_
  exact (types.follows_foldlM composite indices _).bind fun _ => .refl _

/-- A float computation depends on its operands. -/
theorem follows_evaluateFloats (types : table.TypesFollow next) (operation : FloatOperation)
    (resultType result : Id) {operands : List Id}
    (shows : ∀ id ∈ operands, table.ShowsAt next id) :
    Follows (evaluateFloats table operation resultType result operands)
      (evaluateFloats next operation resultType result operands) := by
  refine (types.follows_floatWidth resultType).bind fun width => ?_
  refine (Follows.mapM fun id mem => (shows id mem).follows_value).bind fun values => ?_
  refine (Follows.refl _).bind fun bytes => ?_
  exact types.follows_finishValue result resultType bytes

/-- Slots with the same inputs hold the same at an input location. -/
theorem input_eq (inputs : slots.inputs = others.inputs) : slots.input = others.input := by
  funext location
  rw [Slots.input, Slots.input, inputs]

/-- A load depends on its variable and on the inputs. -/
theorem follows_loadBytes (types : table.TypesFollow next) (inputs : slots.inputs = others.inputs)
    (resultType : Id) {pointer : Id} (shows : table.ShowsAt next pointer) :
    Follows (loadBytes table slots resultType pointer)
      (loadBytes next others resultType pointer) := by
  refine (types.follows_sizeOf resultType).bind fun size => ?_
  refine shows.follows_variableAt.bind fun contents => ?_
  split
  · -- The location is a decoration of the variable, and the inputs are the same.
    intro bytes is
    obtain ⟨record, found, is⟩ := exists_of_bind is
    obtain ⟨other, found', decorations_eq, -⟩ := shows record found
    have location_eq : other.location? = record.location? := by
      rw [Record.location?, Record.location?, Record.decoration?, Record.decoration?,
        decorations_eq]
    rw [← location_eq, input_eq inputs] at is
    rw [found']
    exact is
  · exact .refl _

/-- A new variable depends on its initializer. -/
theorem follows_createVariable (types : table.TypesFollow next) (type : Id)
    (storage : StorageClass) {initializer : Option Id}
    (shows : ∀ id ∈ initializer, table.ShowsAt next id) :
    Follows (createVariable table type id storage initializer)
      (createVariable next type id' storage initializer) := by
  refine (types type).bind fun data => ?_
  cases data with
  | pointer pointerStorage pointee =>
      simp only
      split
      · refine (types.follows_sizeOf pointee).bind fun size => .bind ?_ fun _ => .refl _
        cases initializer with
        | none => exact .refl _
        | some id => exact (shows id rfl).follows_value.bind fun value => .refl _
      · exact .of_error
  | _ => exact .refl _

end

end ShaderMachine
