import Mathlib.Tactic.SplitIfs
import ShaderMachine.Assembly.Ids
import ShaderMachine.Proofs.DecimalText
import ShaderMachine.Proofs.FirstAppearances

/-! # Numeric IDs keep their numbers

A text in which every ID is written as a number that an ID may have is numbered without any change,
and the bound found for it is one that modules may have.

* **`IsIdName`** — a name stands for a number that an ID may have.
* **`IdNumbers.Keeps`** — IDs have the numbers that their names stand for.
* **`IdNumbers.counted_eq_ok_iff`** — when the IDs of a text can be counted.
* **`IdNumbers.counted_of_idNames`** — numeric names are numbered by themselves. -/

namespace ShaderMachine

/-! ## Numeric names -/

/-- Whether an ID is one that numeric names may stand for. -/
def IsNumericId (id : Id) : Prop :=
  0 < id ∧ id < maxBound

instance (id : Id) : Decidable (IsNumericId id) :=
  inferInstanceAs (Decidable (0 < id ∧ id < maxBound))

/-- Whether a name stands for a number that an ID may have. -/
def IsIdName (name : String) : Prop :=
  ∃ id : Id, name = toString id ∧ IsNumericId id

/-- Whether IDs have the numbers that their names stand for. -/
def IdNumbers.Keeps (numbers : IdNumbers) (names : List String) : Prop :=
  ∀ id : Id, toString id ∈ names → numbers.get? (toString id) = some id

/-- Names that are kept are kept among fewer names. -/
theorem IdNumbers.Keeps.mono {numbers : IdNumbers} {names more : List String}
    (keeps : numbers.Keeps more) (subset : names ⊆ more) : numbers.Keeps names :=
  fun id mem => keeps id (subset mem)

/-- The name of an ID is the digits of its number. -/
theorem toList_toString_id (id : Id) : (toString id).toList = Nat.toDigits 10 id.toNat :=
  Nat.toList_repr

/-- IDs of the same name are the same. -/
theorem toString_id_inj {first second : Id} (same : toString first = toString second) :
    first = second := by
  have digits := congrArg String.toList same
  rw [toList_toString_id, toList_toString_id] at digits
  have numbers := congrArg digitsValue digits
  rw [digitsValue_toDigits, digitsValue_toDigits] at numbers
  exact UInt32.toNat_inj.mp numbers

/-- The number of a numeric name is found. -/
theorem numericId?_toString {id : Id} (numeric : IsNumericId id) :
    numericId? (toString id) = some id.toNat := by
  obtain ⟨positive, small⟩ := numeric
  have positive' : 0 < id.toNat := UInt32.lt_iff_toNat_lt.mp positive
  have small' : id.toNat < maxBound.toNat := UInt32.lt_iff_toNat_lt.mp small
  rw [numericId?, toList_toString_id, readDigits?_toDigits, Option.filter_some, if_pos]
  simp [positive', small']

/-- A name that stands for the number of an ID is numeric. -/
theorem isNumericName_toString (id : Id) : isNumericName (toString id) = true := by
  rw [isNumericName, toList_toString_id, List.all_eq_true]
  exact fun _ => isDigit_of_mem_digits

/-! ## Names without repetition -/

/-- Names without repetition are the names in order of first appearance. -/
theorem distinct_eq_eraseDups (names : List String) : distinct names = names.eraseDups := by
  have state_eq (names : List String) :
      let state := names.foldl
        (fun state name =>
          if state.1.contains name then state else (state.1.insert name, name :: state.2))
        ((∅ : Std.HashSet String), ([] : List String))
      (∀ name, name ∈ state.1 ↔ name ∈ names) ∧ state.2.reverse = names.eraseDups := by
    induction names using List.reverseRecOn with
    | nil => simp
    | append_singleton names last hyp =>
        rw [List.foldl_append, List.foldl_cons, List.foldl_nil, eraseDups_concat]
        revert hyp
        generalize names.foldl _ _ = state
        obtain ⟨seen, kept⟩ := state
        rintro ⟨seen_iff, kept_eq⟩
        have contains_iff : seen.contains last = true ↔ last ∈ names :=
          Std.HashSet.mem_iff_contains.symm.trans (seen_iff last)
        by_cases known : last ∈ names
        · simp only [contains_iff.mpr known, if_true, if_pos known]
          refine ⟨fun name => (seen_iff name).trans ?_, kept_eq⟩
          rw [List.mem_append, List.mem_singleton]
          exact ⟨Or.inl, fun either => either.elim id fun same => same ▸ known⟩
        · simp only [mt contains_iff.mp known, Bool.false_eq_true, if_false, if_neg known]
          refine ⟨fun name => ?_, by rw [List.reverse_cons, kept_eq]⟩
          rw [Std.HashSet.mem_insert, seen_iff, beq_iff_eq, List.mem_append, List.mem_singleton,
            or_comm, eq_comm]
  exact (state_eq names).2

/-- Leaving out repetitions keeps every name. -/
theorem mem_distinct {names : List String} {name : String} :
    name ∈ distinct names ↔ name ∈ names := by
  rw [distinct_eq_eraseDups, List.mem_eraseDups]

/-! ## The numbering -/

namespace IdNumbers

/-- A table of pairs gives a name its number, if the pairs of the name agree on it. -/
theorem getElem?_foldl_insert {pairs : List (String × ℕ)} {name : String} {number : ℕ}
    (agree : ∀ pair ∈ pairs, pair.1 = name → pair.2 = number) {table : Std.HashMap String Id}
    (found : name ∈ pairs.map Prod.fst ∨ table[name]? = some (UInt32.ofNat number)) :
    (pairs.foldl (fun table pair => table.insert pair.1 (UInt32.ofNat pair.2)) table)[name]? =
      some (UInt32.ofNat number) := by
  induction pairs generalizing table with
  | nil => simpa using found
  | cons pair pairs hyp =>
      rw [List.forall_mem_cons] at agree
      rw [List.foldl_cons]
      apply hyp agree.2
      -- A later pair of the same name has the same number.
      by_cases same : pair.1 = name
      · right
        rw [same, agree.1 same, Std.HashMap.getElem?_insert_self]
      · rw [List.map_cons, List.mem_cons] at found
        rcases found with (equal | mem) | known
        · exact absurd equal.symm same
        · exact Or.inl mem
        · right
          rw [Std.HashMap.getElem?_insert, if_neg (by simpa using same), known]

/-- The largest of numbers is what they are all at most. -/
theorem foldl_max_le_iff {pairs : List (String × ℕ)} {bound start : ℕ} :
    pairs.foldl (fun largest pair => max largest pair.2) start ≤ bound ↔
      start ≤ bound ∧ ∀ pair ∈ pairs, pair.2 ≤ bound := by
  induction pairs generalizing start with
  | nil => simp
  | cons pair pairs hyp => rw [List.foldl_cons, hyp, max_le_iff, List.forall_mem_cons, and_assoc]

/-- The largest of numbers below a bound is below it. -/
theorem foldl_max_lt {pairs : List (String × ℕ)} {bound start : ℕ} (start_lt : start < bound)
    (all : ∀ pair ∈ pairs, pair.2 < bound) :
    pairs.foldl (fun largest pair => max largest pair.2) start < bound :=
  Nat.lt_of_le_pred (Nat.zero_lt_of_lt start_lt) <|
    foldl_max_le_iff.mpr
      ⟨Nat.le_pred_of_lt start_lt, fun pair mem => Nat.le_pred_of_lt (all pair mem)⟩

/-- A number that a name stands for is one that an ID may have. -/
theorem range_of_numericId? {name : String} {number : ℕ} (numeric : numericId? name = some number) :
    0 < number ∧ number < maxBound.toNat := by
  rw [numericId?, Option.filter_eq_some_iff] at numeric
  have range := numeric.2
  rw [Bool.and_eq_true, decide_eq_true_eq, decide_eq_true_eq] at range
  exact range

/-- The numbers of numeric names are ones that IDs may have. -/
theorem range_of_mem_numbered {names : List String} {pair : String × ℕ}
    (mem : pair ∈ numbered names) : 0 < pair.2 ∧ pair.2 < maxBound.toNat := by
  obtain ⟨name, -, is⟩ := List.mem_filterMap.mp mem
  obtain ⟨number, numeric, rfl⟩ := Option.map_eq_some_iff.mp is
  exact range_of_numericId? numeric

/-- The bound is the one that names need, as far as a word can hold it. -/
theorem bound_ofNames (names : List String) :
    (ofNames names).bound = UInt32.ofNat (needed names) := by
  rw [ofNames, List.partition_eq_filter_filter]
  rfl

/-- The IDs of a text are counted if they are numbered and a word holds the bound that they need. -/
theorem counted_eq_ok_iff {statements : List Statement} {numbers : IdNumbers} :
    counted statements = .ok numbers ↔ ofStatements statements = .ok numbers ∧
      needed (distinct (statements.flatMap Statement.idNames)) < UInt32.size := by
  rw [counted]
  cases ofStatements statements with
  | error error => exact ⟨nofun, nofun⟩
  | ok found =>
      by_cases fits : needed (distinct (statements.flatMap Statement.idNames)) < UInt32.size
      · simp [bind, Except.bind, fits, pure, Except.pure]
      · simp [bind, Except.bind, fits]

section

variable {names : List String} (named : ∀ name ∈ names, IsIdName name)

include named

/-- Names that stand for numbers of IDs are all numeric. -/
theorem isNumericName_of_isIdName : ∀ name ∈ names, isNumericName name = true := by
  intro name mem
  obtain ⟨id, rfl, -⟩ := named name mem
  exact isNumericName_toString id

/-- Names that stand for numbers of IDs need a bound that modules may have. -/
theorem needed_le_of_isIdName : needed names ≤ maxBound.toNat := by
  have no_others : names.filter (not ∘ isNumericName) = [] := by
    rw [List.filter_eq_nil_iff]
    intro name mem
    simp [isNumericName_of_isIdName named name mem]
  have largest_lt : (numbered names).foldl (fun largest pair => max largest pair.2) 0 <
      maxBound.toNat :=
    foldl_max_lt (by decide) fun _ mem => (range_of_mem_numbered mem).2
  rw [needed, no_others]
  exact largest_lt

/-- Names that stand for numbers of IDs are numbered by themselves. -/
theorem keeps_ofNames : (ofNames names).Keeps names := by
  have numeric := isNumericName_of_isIdName named
  -- No name is left to be numbered freely.
  have parts : names.partition isNumericName = (names, []) := by
    rw [List.partition_eq_filter_filter, List.filter_eq_self.mpr numeric]
    simpa using numeric
  set numbered := names.filterMap fun name => (numericId? name).map fun number => (name, number)
    with numbered_eq
  have fits : ∀ pair ∈ numbered, numericId? pair.1 = some pair.2 := by
    intro pair mem
    rw [numbered_eq, List.mem_filterMap] at mem
    obtain ⟨name, -, mem⟩ := mem
    obtain ⟨number, number_eq, rfl⟩ := Option.map_eq_some_iff.mp mem
    exact number_eq
  intro id mem
  obtain ⟨id', same, numeric⟩ := named _ mem
  obtain rfl := toString_id_inj same
  have number := numericId?_toString numeric
  have pair_mem : toString id ∈ numbered.map Prod.fst := by
    refine List.mem_map.mpr ⟨(toString id, id.toNat), ?_, rfl⟩
    rw [numbered_eq, List.mem_filterMap]
    exact ⟨toString id, mem, by rw [number]; rfl⟩
  rw [get?, ofNames]
  simp only [parts, ← numbered_eq, List.zipIdx_nil, List.append_nil]
  have agree (pair) (pair_mem : pair ∈ numbered) (is : pair.1 = toString id) :
      pair.2 = id.toNat := by
    have given := fits pair pair_mem
    rw [is, number] at given
    exact (Option.some.inj given).symm
  rw [getElem?_foldl_insert agree (Or.inl pair_mem), UInt32.ofNat_toNat]

end

/-- A text whose IDs are all numeric is numbered by these numbers, up to a bound that modules may
have. -/
theorem counted_of_idNames {statements : List Statement}
    (named : ∀ statement ∈ statements, ∀ name ∈ statement.idNames, IsIdName name) :
    ∃ numbers, counted statements = .ok numbers ∧
      numbers.Keeps (statements.flatMap Statement.idNames) ∧ numbers.bound ≠ 0 ∧
      numbers.bound ≤ maxBound := by
  have all_valid : firstInvalid? statements = none := by
    rw [firstInvalid?, List.findSome?_eq_none_iff]
    intro statement mem
    rw [Option.map_eq_none_iff, List.find?_eq_none]
    intro name name_mem
    obtain ⟨id, rfl, numeric⟩ := named statement mem name name_mem
    simp [numericId?_toString numeric]
  set names := distinct (statements.flatMap Statement.idNames) with names_eq
  have all_named : ∀ name ∈ names, IsIdName name := by
    intro name mem
    rw [names_eq, mem_distinct, List.mem_flatMap] at mem
    obtain ⟨statement, statement_mem, mem⟩ := mem
    exact named statement statement_mem name mem
  have small := needed_le_of_isIdName all_named
  have fits : needed names < UInt32.size := Nat.lt_of_le_of_lt small (by decide)
  have bound_eq : (ofNames names).bound.toNat = needed names := by
    rw [bound_ofNames, UInt32.toNat_ofNat_of_lt' fits]
  have started : ofStatements statements = .ok (ofNames names) := by
    rw [ofStatements, all_valid]
  refine ⟨_, counted_eq_ok_iff.mpr ⟨started, fits⟩,
    (keeps_ofNames all_named).mono fun name mem => mem_distinct.mpr mem, ?_, ?_⟩
  · intro zero
    rw [zero, UInt32.toNat_zero, needed] at bound_eq
    omega
  · rwa [UInt32.le_iff_toNat_le, bound_eq]

end IdNumbers

end ShaderMachine
