import Mathlib.Data.List.Forall2
import ShaderMachine.Proofs.NumberedNames

/-! # Statements under other names

What statements are encoded as does not depend on what their IDs are called, as long as numbers stay
what they are: the numbering follows the order in which names come first, and all else that the
encoder knows is known by number. Nor does it depend on the lines that the statements stand on.

* **`IsRenaming`** — the renamings of IDs that keep numbers and tell the other names apart.
* **`Agree`** — computations that both fail or have results that go together.
* **`Statement.Matches`** — statements that are the same but for their names and lines.
* **`Encoder.agree_encode`** — one such statement is encoded like the other.
* **`agree_encodeStatements`** — so are all statements of a text. -/

namespace ShaderMachine

/-! ## Renamings -/

/-- Whether some names are renamed such that numbers are kept and all other names become other names
again, which differ where these do. -/
structure IsRenaming (rename : String → String) (names : List String) : Prop where
  /-- Numbers are kept. -/
  numeric : ∀ name ∈ names, isNumericName name = true → rename name = name
  /-- Other names become no numbers. -/
  free : ∀ name ∈ names, isNumericName name = false → isNumericName (rename name) = false
  /-- Different names stay different. -/
  injective : ∀ first ∈ names, ∀ second ∈ names, isNumericName first = false →
    isNumericName second = false → rename first = rename second → first = second

namespace IsRenaming

variable {rename : String → String} {names : List String}

/-- Names may stay as they are. -/
theorem refl (names : List String) : IsRenaming id names :=
  ⟨fun _ _ _ => rfl, fun _ _ free => free, fun _ _ _ _ _ _ same => same⟩

/-- Names stay numbers or none. -/
theorem isNumericName_eq (renames : IsRenaming rename names) {name : String} (mem : name ∈ names) :
    isNumericName (rename name) = isNumericName name := by
  cases is_numeric : isNumericName name with
  | true => rw [renames.numeric name mem is_numeric, is_numeric]
  | false => exact renames.free name mem is_numeric

/-- No two names become one. -/
theorem injOn (renames : IsRenaming rename names) :
    ∀ first ∈ names, ∀ second ∈ names, rename first = rename second → first = second := by
  intro first first_mem second second_mem same
  have kinds := congrArg isNumericName same
  rw [renames.isNumericName_eq first_mem, renames.isNumericName_eq second_mem] at kinds
  cases is_numeric : isNumericName first with
  | true =>
      rw [renames.numeric first first_mem is_numeric,
        renames.numeric second second_mem (kinds ▸ is_numeric)] at same
      exact same
  | false =>
      exact renames.injective first first_mem second second_mem is_numeric (kinds ▸ is_numeric) same

/-- A name is refused under both names. -/
theorem isRefusedName_iff (renames : IsRenaming rename names) {name : String}
    (mem : name ∈ names) : IsRefusedName (rename name) ↔ IsRefusedName name := by
  cases is_numeric : isNumericName name with
  | true => rw [renames.numeric name mem is_numeric]
  | false =>
      have kept := renames.free name mem is_numeric
      simp [IsRefusedName, is_numeric, kept]

/-- Fewer names are renamed in the same way. -/
theorem mono (renames : IsRenaming rename names) {fewer : List String} (subset : fewer ⊆ names) :
    IsRenaming rename fewer where
  numeric name mem := renames.numeric name (subset mem)
  free name mem := renames.free name (subset mem)
  injective first first_mem second second_mem :=
    renames.injective first (subset first_mem) second (subset second_mem)

end IsRenaming

/-! ## Numbers under other names -/

namespace IdNumbers

variable {rename : String → String} {names : List String}

/-- Names are selected by whether they are numbers before or after they are renamed. -/
theorem filter_map_rename (renames : IsRenaming rename names) (p : Bool → Bool) :
    (names.map rename).filter (fun name => p (isNumericName name)) =
      (names.filter fun name => p (isNumericName name)).map rename := by
  rw [List.filter_map]
  congr 1
  refine List.filter_congr fun name mem => ?_
  rw [Function.comp_apply, renames.isNumericName_eq mem]

/-- Numbers are given as before. -/
theorem numbered_map (renames : IsRenaming rename names) :
    numbered (names.map rename) = numbered names := by
  have kept : (names.filter isNumericName).map rename = names.filter isNumericName := by
    conv_rhs => rw [← List.map_id (names.filter isNumericName)]
    refine List.map_congr_left fun name mem => ?_
    obtain ⟨mem, is_numeric⟩ := List.mem_filter.mp mem
    exact renames.numeric name mem is_numeric
  have filtered := filter_map_rename renames id
  simp only [id_eq] at filtered
  rw [numbered, filtered, kept]
  rfl

/-- The names that are no numbers are the same under other names. -/
theorem filter_free_map (renames : IsRenaming rename names) :
    (names.map rename).filter (not ∘ isNumericName) =
      (names.filter (not ∘ isNumericName)).map rename :=
  filter_map_rename renames not

/-- The bound that names need is the one that they need under other names. -/
theorem needed_map (renames : IsRenaming rename names) :
    needed (names.map rename) = needed names := by
  rw [needed, needed, numbered_map renames, filter_free_map renames, List.length_map]

/-- Names are given the numbers that they are given under other names. -/
theorem mem_assigned_map (renames : IsRenaming rename names) {name : String} {number : ℕ}
    (mem : (name, number) ∈ assigned names) :
    (rename name, number) ∈ assigned (names.map rename) := by
  rw [assigned, numbered_map renames, filter_free_map renames]
  rcases List.mem_append.mp mem with mem | mem
  · obtain ⟨name_mem, is_numeric, -⟩ := mem_numbered_iff.mp mem
    rw [renames.numeric name name_mem is_numeric]
    exact List.mem_append_left _ mem
  · refine List.mem_append_right _ ?_
    rw [List.mem_zipIdx_iff_le_and_getElem?_sub] at mem ⊢
    refine ⟨mem.1, ?_⟩
    rw [List.getElem?_map, mem.2]
    rfl

/-- Names have the numbers that they have under other names, as long as they are not refused. -/
theorem get?_ofNames_map (renames : IsRenaming rename names)
    (kept : ∀ name ∈ names, ¬ IsRefusedName name) {name : String} (mem : name ∈ names) :
    (ofNames (names.map rename).eraseDups).get? (rename name) =
      (ofNames names.eraseDups).get? name := by
  have subset : names.eraseDups ⊆ names := fun _ => List.mem_eraseDups.mp
  rw [← map_eraseDups renames.injOn]
  obtain ⟨number, given⟩ := exists_mem_assigned kept mem
  have nodup : (names.eraseDups.map rename).Nodup := by
    rw [map_eraseDups renames.injOn]
    exact nodup_eraseDups _
  rw [get?_ofNames (nodup_eraseDups names) given,
    get?_ofNames nodup (mem_assigned_map (renames.mono subset) given)]

end IdNumbers

/-! ## Computations that agree -/

/-- Whether two computations both fail, or have results that go together. -/
def Agree {ε α β : Type} (together : α → β → Prop) : Except ε α → Except ε β → Prop
  | .ok first, .ok second => together first second
  | .error _, .error _ => True
  | _, _ => False

namespace Agree

variable {ε α α' β β' : Type} {together : α → α' → Prop} {after : β → β' → Prop}
  {first : Except ε α} {second : Except ε α'}

/-- Computations agree if they agree in their first steps and go on alike. -/
theorem bind (agree : Agree together first second) {next : α → Except ε β}
    {next' : α' → Except ε β'}
    (later : ∀ value value', together value value' → Agree after (next value) (next' value')) :
    Agree after (first >>= next) (second >>= next') := by
  cases first with
  | error error =>
      cases second with
      | error error' => trivial
      | ok value' => exact agree.elim
  | ok value =>
      cases second with
      | error error' => exact agree.elim
      | ok value' => exact later value value' agree

/-- What becomes of results that go together goes together. -/
theorem map (agree : Agree together first second) {change : α → β} {change' : α' → β'}
    (later : ∀ value value', together value value' → after (change value) (change' value')) :
    Agree after (first.map change) (second.map change') := by
  cases first with
  | error error =>
      cases second with
      | error error' => trivial
      | ok value' => exact agree.elim
  | ok value =>
      cases second with
      | error error' => exact agree.elim
      | ok value' => exact later value value' agree

/-- A result of the first computation goes together with one of the second. -/
theorem exists_second (agree : Agree together first second) {value : α} (is : first = .ok value) :
    ∃ value', second = .ok value' ∧ together value value' := by
  subst is
  cases second with
  | error error => exact agree.elim
  | ok value' => exact ⟨value', rfl, agree⟩

/-- A result of the second computation goes together with one of the first. -/
theorem exists_first (agree : Agree together first second) {value' : α'}
    (is : second = .ok value') :
    ∃ value, first = .ok value ∧ together value value' := by
  subst is
  cases first with
  | error error => exact agree.elim
  | ok value => exact ⟨value, rfl, agree⟩

/-- Computations whose results go together only where they are equal have the same results. -/
theorem eq_ok_iff {first second : Except ε α} (agree : Agree Eq first second) {value : α} :
    second = .ok value ↔ first = .ok value := by
  constructor
  · intro is
    obtain ⟨_, first_eq, rfl⟩ := agree.exists_first is
    exact first_eq
  · intro is
    obtain ⟨_, second_eq, rfl⟩ := agree.exists_second is
    exact second_eq

/-- Computations that have the same results agree. -/
theorem of_eq_ok_iff {first second : Except ε α}
    (same : ∀ value, first = .ok value ↔ second = .ok value) : Agree Eq first second := by
  cases first with
  | ok value =>
      rw [(same value).mp rfl]
      exact rfl
  | error error =>
      cases second with
      | error error' => trivial
      | ok value =>
          have impossible := (same value).mpr rfl
          cases impossible

/-- Loops agree if each step does. -/
theorem foldlM {γ : Type} {step : α → γ → Except ε α} {step' : α' → γ → Except ε α'}
    (steps : ∀ state state' element, together state state' →
      Agree together (step state element) (step' state' element))
    (elements : List γ) {state : α} {state' : α'} (start : together state state') :
    Agree together (elements.foldlM step state) (elements.foldlM step' state') := by
  induction elements generalizing state state' with
  | nil => exact start
  | cons element elements hyp =>
      rw [List.foldlM_cons, List.foldlM_cons]
      exact (steps state state' element start).bind fun _ _ => hyp

/-- Elements that go together come to results that go together, if each does. -/
theorem mapM {elements : List α} {elements' : List α'} {f : α → Except ε β} {f' : α' → Except ε β'}
    (each : ∀ element element', together element element' → Agree after (f element) (f' element'))
    (all : List.Forall₂ together elements elements') :
    Agree (List.Forall₂ after) (elements.mapM f) (elements'.mapM f') := by
  induction all with
  | nil => exact .nil
  | cons head tail hyp =>
      rw [List.mapM_cons, List.mapM_cons]
      exact (each _ _ head).bind fun value _ first => hyp.bind fun values _ rest => .cons first rest

/-- Elements that go together come to the same results, if each does. -/
theorem mapM_eq {elements : List α} {elements' : List α'} {f : α → Except ε β}
    {f' : α' → Except ε β}
    (each : ∀ element element', together element element' → Agree Eq (f element) (f' element'))
    (all : List.Forall₂ together elements elements') :
    Agree Eq (elements.mapM f) (elements'.mapM f') := by
  have results := mapM each all
  rwa [List.forall₂_eq_eq_eq] at results

end Agree

/-! ## Statements that match -/

section

variable (rename : String → String) (names : List String)

/-- Whether two operands are the same, or IDs under both names. -/
inductive Operand.Matches : Operand → Operand → Prop
  /-- An ID. -/
  | id {name : String} (mem : name ∈ names) : Matches (.id name) (.id (rename name))
  /-- Any other operand. -/
  | other {operand : Operand} (no_id : operand.idName? = none) : Matches operand operand

/-- Whether two statements are the same but for their lines and the names of their IDs. -/
structure Statement.Matches (first second : Statement) : Prop where
  /-- The name of the result is renamed. -/
  result : Option.Rel (fun name name' => name ∈ names ∧ name' = rename name)
    first.result second.result
  /-- The opcode is the same. -/
  opcode : second.opcode = first.opcode
  /-- So are the operands but for their names. -/
  operands : List.Forall₂ (Operand.Matches rename names) first.operands second.operands

/-- Whether two encoders know the same under different names. -/
structure Encoder.Matches (first second : Encoder) : Prop where
  /-- The numbers are the same. -/
  ids : ∀ name ∈ names, second.ids.get? (rename name) = first.ids.get? name
  /-- So are the scalar types. -/
  scalars : second.scalars = first.scalars

/-- Whether two statements have come equally far. -/
structure Encoder.Progress.Matches (first second : Encoder.Progress) : Prop where
  /-- The same words were encoded. -/
  words : second.words = first.words
  /-- The operands that are left are the same but for their names. -/
  operands : List.Forall₂ (Operand.Matches rename names) first.operands second.operands
  /-- The result type is the same. -/
  resultType : second.resultType = first.resultType

end

section

variable {rename : String → String} {names : List String} {operand operand' : Operand}

/-- Operands that match are the same integer, or none. -/
theorem agree_integerWord? (line line' : ℕ) (matching : operand.Matches rename names operand') :
    Option.Rel (Agree Eq) (integerWord? line operand) (integerWord? line' operand') := by
  cases matching with
  | id mem => exact .none
  | other no_id =>
      unfold integerWord?
      cases operand with
      | integer value =>
          dsimp only
          split
          · exact .some rfl
          · exact .some trivial
      | bits value =>
          dsimp only
          split
          · exact .some rfl
          · exact .some trivial
      | _ => exact .none

/-- Operands that match are the same word where an integer is wanted, or an error. -/
theorem agree_singleWord (line line' : ℕ) (matching : operand.Matches rename names operand')
    (fault fault' : AssemblyError) :
    Agree Eq
      (match integerWord? line operand with
        | some word => word.map fun word => [word]
        | none => .error fault)
      (match integerWord? line' operand' with
        | some word => word.map fun word => [word]
        | none => .error fault') := by
  have words := agree_integerWord? line line' matching
  generalize integerWord? line operand = word at words ⊢
  generalize integerWord? line' operand' = word' at words ⊢
  cases words with
  | none => trivial
  | some agree => exact agree.map fun word _ same => same ▸ rfl

/-- Operands that match are the same constant of a type, or an error. -/
theorem agree_constantWords (line line' : ℕ) (matching : operand.Matches rename names operand')
    (scalar : Option Scalar) :
    Agree Eq (constantWords line scalar operand) (constantWords line' scalar operand') := by
  have single := agree_singleWord line line' matching (.invalidLiteral line operand .notNumber)
    (.invalidLiteral line' operand' .notNumber)
  unfold constantWords
  cases matching with
  | id mem => trivial
  | other no_id =>
      dsimp only
      split
      case h_12 => exact single
      all_goals first
        | exact rfl
        | trivial
        | split <;> first | exact rfl | trivial

namespace Encoder

variable {encoder encoder' : Encoder}

/-- An ID has the same number under both names. -/
theorem agree_idWord (encoders : encoder.Matches rename names encoder') {name : String}
    (mem : name ∈ names) :
    Agree Eq (encoder.idWord line name) (encoder'.idWord line' (rename name)) := by
  rw [idWord, idWord, encoders.ids name mem]
  cases encoder.ids.get? name with
  | none => trivial
  | some id => exact rfl

/-- Operands that match are the same named value or integer, or an error. -/
theorem agree_nameOrInteger (matching : operand.Matches rename names operand')
    (kind : OperandKind) (table : String) (valueOf : String → Option Word) :
    Agree Eq (nameOrInteger line kind table valueOf operand)
      (nameOrInteger line' kind table valueOf operand') := by
  have single := agree_singleWord line line' matching (.unexpectedOperand line kind operand)
    (.unexpectedOperand line' kind operand')
  unfold nameOrInteger
  cases matching with
  | id mem => exact single
  | other no_id =>
      split
      · split
        · exact rfl
        · trivial
      · exact single

/-- Operands that match are encoded alike. -/
theorem agree_operandWords (encoders : encoder.Matches rename names encoder')
    (matching : operand.Matches rename names operand') (resultType : Option Id)
    (kind : OperandKind) :
    Agree Eq (encoder.operandWords line resultType kind operand)
      (encoder'.operandWords line' resultType kind operand') := by
  have single := agree_singleWord line line' matching (.unexpectedOperand line kind operand)
    (.unexpectedOperand line' kind operand')
  have named {name : String} (mem : name ∈ names) :
      Agree Eq ((encoder.idWord line name).map fun id => [id])
        ((encoder'.idWord line' (rename name)).map fun id => [id]) :=
    (agree_idWord encoders mem).map fun id _ same => same ▸ rfl
  have constant := agree_constantWords line line' matching
    (resultType.bind fun id => encoder.scalars[id]?)
  unfold operandWords
  rw [encoders.scalars]
  cases kind with
  | integer => exact single
  | extended => exact agree_nameOrInteger matching _ _ _
  | enumerant family => exact agree_nameOrInteger matching _ _ _
  | constant => exact constant
  | _ =>
      cases matching with
      | id mem => first | exact named mem | trivial
      | other no_id =>
          cases operand <;> first | exact rfl | trivial

variable {statement statement' : Statement} {progress progress' : Progress}

/-- Without a result for its place, the next operand is encoded there. -/
theorem fixedStep_eq {kind : OperandKind} (no_result : kind = .result → statement.result = none) :
    encoder.fixedStep statement progress kind =
      match progress.operands with
      | [] => .error (.missingOperand statement.line statement.opcode kind)
      | operand :: rest => do
          let words ← encoder.operandWords statement.line progress.resultType kind operand
          let resultType := if kind = .resultType then words.getLast? else progress.resultType
          return ⟨progress.words ++ words, rest, resultType⟩ := by
  unfold fixedStep
  split
  · rename_i result
    rw [no_result rfl] at result
    cases result
  · rename_i none_left _
    rw [none_left]
  · rename_i some_left _
    rw [some_left]

/-- An operand that is always there is encoded alike. -/
theorem agree_fixedStep (encoders : encoder.Matches rename names encoder')
    (statements : statement.Matches rename names statement')
    (reached : progress.Matches rename names progress') (kind : OperandKind) :
    Agree (Progress.Matches rename names) (encoder.fixedStep statement progress kind)
      (encoder'.fixedStep statement' progress' kind) := by
  obtain ⟨words, operands, resultType⟩ := progress
  obtain ⟨words', operands', resultType'⟩ := progress'
  obtain ⟨rfl, left, rfl⟩ := reached
  have results := statements.result
  -- A result that is named is looked up; anything else is the next operand, if there is one.
  by_cases given : kind = .result ∧ statement.result ≠ none
  · obtain ⟨rfl, given⟩ := given
    unfold fixedStep
    generalize statement.result = result at results given ⊢
    generalize statement'.result = result' at results ⊢
    cases results with
    | none => exact absurd rfl given
    | some renamed =>
        obtain ⟨mem, rfl⟩ := renamed
        exact (agree_idWord encoders mem).bind fun id _ same => ⟨same ▸ rfl, left, rfl⟩
  · rw [not_and, not_not] at given
    have given' : kind = .result → statement'.result = none := by
      intro is_result
      rw [given is_result] at results
      cases h : statement'.result with
      | none => rfl
      | some name =>
          rw [h] at results
          cases results
    rw [fixedStep_eq given, fixedStep_eq given']
    cases left with
    | nil => trivial
    | cons first rest =>
        refine (agree_operandWords encoders first _ kind).bind fun words _ same => ?_
        obtain rfl := same
        exact ⟨rfl, rest, rfl⟩

/-- An operand that may be there is encoded alike. -/
theorem agree_optionalStep (encoders : encoder.Matches rename names encoder')
    (reached : progress.Matches rename names progress') (kind : OperandKind) :
    Agree (Progress.Matches rename names) (encoder.optionalStep statement progress kind)
      (encoder'.optionalStep statement' progress' kind) := by
  obtain ⟨words, operands, resultType⟩ := progress
  obtain ⟨words', operands', resultType'⟩ := progress'
  obtain ⟨rfl, left, rfl⟩ := reached
  unfold optionalStep
  cases left with
  | nil => exact ⟨rfl, .nil, rfl⟩
  | cons first rest =>
      exact (agree_operandWords encoders first resultType' kind).bind
        fun words _ same => ⟨same ▸ rfl, rest, rfl⟩

/-- Operands that are left are encoded alike. -/
theorem agree_variadicStep (encoders : encoder.Matches rename names encoder')
    (reached : progress.Matches rename names progress') (kind : Option OperandKind) :
    Agree (Progress.Matches rename names) (encoder.variadicStep statement progress kind)
      (encoder'.variadicStep statement' progress' kind) := by
  obtain ⟨words, operands, resultType⟩ := progress
  obtain ⟨words', operands', resultType'⟩ := progress'
  obtain ⟨rfl, left, rfl⟩ := reached
  cases kind with
  | none => exact ⟨rfl, left, rfl⟩
  | some kind =>
      have parts : Agree Eq (operands.mapM (encoder.operandWords statement.line resultType' kind))
          (operands'.mapM (encoder'.operandWords statement'.line resultType' kind)) :=
        Agree.mapM_eq (fun _ _ matching => agree_operandWords encoders matching resultType' kind)
          left
      refine parts.bind fun words _ same => ?_
      obtain rfl := same
      exact ⟨rfl, .nil, rfl⟩

/-- Statements that match have the same operand words, or both have none. -/
theorem agree_bodyWords (encoders : encoder.Matches rename names encoder')
    (statements : statement.Matches rename names statement') :
    Agree Eq (encoder.bodyWords statement) (encoder'.bodyWords statement') := by
  have start : Progress.Matches rename names ⟨[], statement.operands, none⟩
      ⟨[], statement'.operands, none⟩ := ⟨rfl, statements.operands, rfl⟩
  unfold bodyWords
  rw [statements.opcode]
  refine (Agree.foldlM (fun _ _ kind reached => agree_fixedStep encoders statements reached kind)
    statement.opcode.layout.fixed start).bind fun _ _ reached => ?_
  refine (Agree.foldlM (fun _ _ kind reached => agree_optionalStep encoders reached kind)
    statement.opcode.layout.optional reached).bind fun _ _ reached => ?_
  refine (agree_variadicStep encoders reached _).bind fun progress progress' reached => ?_
  obtain ⟨words_eq, left, -⟩ := reached
  generalize progress.operands = operands at left ⊢
  generalize progress'.operands = operands' at left ⊢
  cases left with
  | nil => exact words_eq.symm
  | cons => trivial

/-- Statements that match have the same words, or both have none. -/
theorem agree_encode (encoders : encoder.Matches rename names encoder')
    (statements : statement.Matches rename names statement') :
    Agree Eq (encoder.encode statement) (encoder'.encode statement') := by
  -- With the words of the bodies the same, so are the headers and the check of the length.
  have encoded : Agree Eq
      (do
        let body ← encoder.bodyWords statement
        let count := body.length + 1
        if count < 65536 then
          return InstructionHeader.toWord ⟨statement.opcode.number, UInt16.ofNat count⟩ :: body
        else
          .error (.instructionTooLong statement.line statement.opcode count))
      (do
        let body ← encoder'.bodyWords statement'
        let count := body.length + 1
        if count < 65536 then
          return InstructionHeader.toWord ⟨statement'.opcode.number, UInt16.ofNat count⟩ :: body
        else
          .error (.instructionTooLong statement'.line statement'.opcode count)) := by
    refine (agree_bodyWords encoders statements).bind fun body _ same => ?_
    rw [← same, statements.opcode]
    dsimp only
    split
    · exact rfl
    · trivial
  have results := statements.result
  unfold encode
  rw [statements.opcode] at encoded ⊢
  generalize statement.result = result at results ⊢
  generalize statement'.result = result' at results ⊢
  cases results with
  | none =>
      cases statement.opcode.layout.hasResult with
      | true => trivial
      | false => exact encoded
  | some =>
      cases statement.opcode.layout.hasResult with
      | true => exact encoded
      | false => trivial

/-- Statements that match, in order, have the same words, or both fail. -/
theorem agree_encodeFrom {statements statements' : List Statement}
    (matching : List.Forall₂ (Statement.Matches rename names) statements statements')
    (encoders : encoder.Matches rename names encoder') (written : List (List Word)) :
    Agree Eq (encoder.encodeFrom written statements) (encoder'.encodeFrom written statements') := by
  induction matching generalizing encoder encoder' written with
  | nil => exact rfl
  | @cons statement statement' statements statements' head tail hyp =>
      have agree := agree_encode encoders head
      unfold encodeFrom
      generalize encoder.encode statement = words at agree ⊢
      generalize encoder'.encode statement' = words' at agree ⊢
      cases words with
      | error error =>
          cases words' with
          | error error' => trivial
          | ok words' => exact agree.elim
      | ok words =>
          cases words' with
          | error error' => exact agree.elim
          | ok words' =>
              obtain rfl : words = words' := agree
              have noted : (encoder.note statement words).Matches rename names
                  (encoder'.note statement' words) :=
                ⟨encoders.ids, by rw [note, note, encoders.scalars, head.opcode]⟩
              exact hyp noted (words :: written)

end Encoder

/-! ## Texts that match -/

variable {statements statements' : List Statement}

/-- Names of IDs in operands that match are renamed. -/
theorem idNames_operands {operands operands' : List Operand}
    (matching : List.Forall₂ (Operand.Matches rename names) operands operands') :
    operands'.filterMap Operand.idName? = (operands.filterMap Operand.idName?).map rename := by
  induction matching with
  | nil => rfl
  | cons head tail hyp =>
      cases head with
      | id mem => simp [Operand.idName?, hyp]
      | other no_id => rw [List.filterMap_cons_none no_id, List.filterMap_cons_none no_id, hyp]

/-- Statements that match mention the same IDs under both names. -/
theorem mentionedNames_eq_map
    (matching : List.Forall₂ (Statement.Matches rename names) statements statements') :
    mentionedNames statements' = (mentionedNames statements).map rename := by
  induction matching with
  | nil => rfl
  | @cons statement statement' statements statements' head tail hyp =>
      have own : statement'.idNames = statement.idNames.map rename := by
        rw [Statement.idNames, Statement.idNames, idNames_operands head.operands, List.map_append]
        congr 1
        have results := head.result
        generalize statement.result = result at results ⊢
        generalize statement'.result = result' at results ⊢
        cases results with
        | none => rfl
        | some renamed => rw [renamed.2, Option.toList_some, Option.toList_some, List.map_singleton]
      rw [mentionedNames, mentionedNames, List.flatMap_cons, List.flatMap_cons, List.map_append,
        own]
      exact congrArg _ hyp

/-- Texts that match have encoders that know the same, with the same bound, or both have none. -/
theorem agree_ofStatements (renames : IsRenaming rename (mentionedNames statements))
    (matching : List.Forall₂ (Statement.Matches rename names) statements statements') :
    Agree (fun encoder encoder' : Encoder =>
        encoder.Matches rename (mentionedNames statements) encoder' ∧
          encoder'.ids.bound = encoder.ids.bound)
      (Encoder.ofStatements statements) (Encoder.ofStatements statements') := by
  have names_eq := mentionedNames_eq_map matching
  -- As many names are numbered freely, so the bounds that they need are the same, too.
  have needed_eq : IdNumbers.needed (mentionedNames statements').eraseDups =
      IdNumbers.needed (mentionedNames statements).eraseDups := by
    rw [names_eq, ← map_eraseDups renames.injOn]
    exact IdNumbers.needed_map (renames.mono fun _ => List.mem_eraseDups.mp)
  have good_iff : (∀ name ∈ mentionedNames statements', ¬ IsRefusedName name) ∧
      IdNumbers.needed (mentionedNames statements').eraseDups < UInt32.size ↔
        (∀ name ∈ mentionedNames statements, ¬ IsRefusedName name) ∧
          IdNumbers.needed (mentionedNames statements).eraseDups < UInt32.size := by
    rw [needed_eq, names_eq, List.forall_mem_map]
    exact and_congr_left' (forall₂_congr fun name mem => not_congr (renames.isRefusedName_iff mem))
  by_cases good : (∀ name ∈ mentionedNames statements, ¬ IsRefusedName name) ∧
      IdNumbers.needed (mentionedNames statements).eraseDups < UInt32.size
  · have started := IdNumbers.counted_iff.mpr ⟨good, rfl⟩
    have started' := IdNumbers.counted_iff.mpr ⟨good_iff.mpr good, rfl⟩
    rw [Encoder.ofStatements, Encoder.ofStatements, started, started']
    refine ⟨⟨fun name mem => ?_, rfl⟩, ?_⟩
    · rw [names_eq]
      exact IdNumbers.get?_ofNames_map renames good.1 mem
    · change (IdNumbers.ofNames _).bound = (IdNumbers.ofNames _).bound
      rw [IdNumbers.bound_ofNames, IdNumbers.bound_ofNames, needed_eq]
  · have failed {texts : List Statement}
        (bad : ¬ ((∀ name ∈ mentionedNames texts, ¬ IsRefusedName name) ∧
          IdNumbers.needed (mentionedNames texts).eraseDups < UInt32.size)) :
        ∃ error, Encoder.ofStatements texts = .error error := by
      unfold Encoder.ofStatements
      cases started : IdNumbers.counted texts with
      | error error => exact ⟨error, rfl⟩
      | ok numbers => exact absurd (IdNumbers.counted_iff.mp started).1 bad
    obtain ⟨error, error_eq⟩ := failed good
    obtain ⟨error', error_eq'⟩ := failed (mt good_iff.mp good)
    rw [error_eq, error_eq']
    trivial

/-- Texts that match have the same bound and the same words, or both fail. -/
theorem agree_encodeStatements (renames : IsRenaming rename (mentionedNames statements))
    (matching : List.Forall₂ (Statement.Matches rename (mentionedNames statements)) statements
      statements') :
    Agree Eq (encodeStatements statements) (encodeStatements statements') := by
  unfold encodeStatements
  refine (agree_ofStatements renames matching).bind fun encoder encoder' known => ?_
  obtain ⟨encoders, bound_eq⟩ := known
  refine (Encoder.agree_encodeFrom matching encoders []).bind fun words _ same => ?_
  rw [bound_eq, ← same]
  exact rfl

end

/-! ## Renamed statements -/

/-- An operand with its ID renamed. -/
def Operand.renamed (rename : String → String) : Operand → Operand
  | id name => id (rename name)
  | operand => operand

/-- A statement with its IDs renamed. -/
def Statement.renamed (rename : String → String) (statement : Statement) : Statement :=
  { statement with
    result := statement.result.map rename
    operands := statement.operands.map (Operand.renamed rename) }

section

variable {rename : String → String} {names : List String}

/-- A renamed operand is the same but for its name. -/
theorem Operand.matches_renamed {operand : Operand}
    (among : ∀ name, operand.idName? = some name → name ∈ names) :
    operand.Matches rename names (operand.renamed rename) := by
  cases operand with
  | id name => exact .id (among name rfl)
  | _ => exact .other rfl

/-- A renamed statement is the same but for its names. -/
theorem Statement.matches_renamed {statement : Statement} (among : statement.idNames ⊆ names) :
    statement.Matches rename names (statement.renamed rename) where
  result := by
    have result_mem : ∀ name, statement.result = some name → name ∈ names := fun name is =>
      among (List.mem_append_left _ (by simp [is]))
    unfold renamed
    dsimp only
    generalize statement.result = result at result_mem ⊢
    cases result with
    | none => exact .none
    | some name => exact .some ⟨result_mem name rfl, rfl⟩
  opcode := rfl
  operands := by
    unfold renamed
    rw [List.forall₂_map_right_iff, List.forall₂_same]
    refine fun operand mem => Operand.matches_renamed fun name is => among ?_
    exact List.mem_append_right _ (List.mem_filterMap.mpr ⟨operand, mem, is⟩)

/-- Renamed statements are the same but for their names. -/
theorem forall₂_matches_renamed {statements : List Statement}
    (among : mentionedNames statements ⊆ names) :
    List.Forall₂ (Statement.Matches rename names) statements
      (statements.map (Statement.renamed rename)) := by
  rw [List.forall₂_map_right_iff, List.forall₂_same]
  refine fun statement mem => Statement.matches_renamed fun name mentioned => among ?_
  exact List.mem_flatMap.mpr ⟨statement, mem, mentioned⟩

end

end ShaderMachine
