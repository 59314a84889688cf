import ShaderMachine.Proofs.AssembledModules

/-! # How IDs are numbered

The IDs of a text are numbered unless some name is a number that no ID may have; the first such
name is the error. Where they are numbered, a name that is a number keeps it. The other names follow
the largest of these numbers, in order of first appearance, and the bound follows the last of all
numbers.

* **`mentions`** — the IDs that a text mentions, in order.
* **`IsRefusedName`** — the names that are numbers of no ID.
* **`IdNumbers.Numbers`** — what the numbers of names are.
* **`IdNumbers.ofNames_numbers`** — names that are not refused are numbered so.
* **`IdNumbers.ofStatements_exact`** — when the IDs of a text are numbered, and how. -/

namespace ShaderMachine

/-! ## Names -/

/-- The IDs that a text mentions, each with its line: the result of a statement before its operands,
and the statements in order. -/
def mentions (statements : List Statement) : List (ℕ × String) :=
  statements.flatMap fun statement =>
    statement.idNames.map fun name => (statement.line, name)

/-- The names of the IDs that a text mentions. -/
def mentionedNames (statements : List Statement) : List String :=
  statements.flatMap Statement.idNames

/-- Whether a name is a number that no ID may have: zero, or not below the bound that modules may
have. A name without any digit counts as zero. -/
def IsRefusedName (name : String) : Prop :=
  isNumericName name = true ∧
    (digitsValue name.toList = 0 ∨ maxBound.toNat ≤ digitsValue name.toList)

instance (name : String) : Decidable (IsRefusedName name) :=
  inferInstanceAs (Decidable (_ ∧ (_ ∨ _)))

/-- The largest number among names, or zero. -/
def largestNumber (names : List String) : ℕ :=
  ((names.filter isNumericName).map fun name => digitsValue name.toList).foldl max 0

/-- The names that are no numbers, in order of first appearance. -/
def freeNames (names : List String) : List String :=
  (names.filter (!isNumericName ·)).eraseDups

section

variable {name : String} {names : List String} {statements : List Statement}

/-- A number that is not refused is the number of an ID. -/
theorem numericId?_of_kept (numeric : isNumericName name = true) (kept : ¬ IsRefusedName name) :
    numericId? name = some (digitsValue name.toList) := by
  rw [IsRefusedName, not_and_or, not_or, Nat.not_le] at kept
  obtain ⟨nonzero, small⟩ := kept.resolve_left (not_not_intro numeric)
  have digits : name.toList ≠ [] := by
    intro empty
    exact nonzero (congrArg digitsValue empty)
  have all_digits : ¬ name.toList.any (!·.isDigit) = true := by
    rw [List.any_eq_true]
    rintro ⟨c, mem, other⟩
    exact absurd (List.all_eq_true.mp numeric c mem) (Bool.not_eq_true _ ▸ by simpa using other)
  rw [numericId?, readDigits?, if_neg (by simpa [digits] using all_digits), Option.filter_some,
    if_pos]
  simpa [small] using Nat.pos_of_ne_zero nonzero

/-- A name is refused if it is numeric and no ID has its number. -/
theorem isRefusedName_iff :
    IsRefusedName name ↔ (isNumericName name && (numericId? name).isNone) = true := by
  rw [Bool.and_eq_true, Option.isNone_iff_eq_none]
  constructor
  · intro refused
    refine ⟨refused.1, Option.eq_none_iff_forall_not_mem.mpr fun number found => ?_⟩
    have range := IdNumbers.range_of_numericId? found
    rw [Option.mem_def, numericId?, Option.filter_eq_some_iff, readDigits?] at found
    obtain rfl : digitsValue name.toList = number := by
      have read := found.1
      split at read
      · cases read
      · exact Option.some.inj read
    rcases refused.2 with zero | large <;> omega
  · rintro ⟨numeric, unread⟩
    by_contra kept
    rw [numericId?_of_kept numeric kept] at unread
    cases unread

/-- A name is mentioned if it is mentioned on some line. -/
theorem mem_mentionedNames :
    name ∈ mentionedNames statements ↔ ∃ line, (line, name) ∈ mentions statements := by
  simp only [mentionedNames, mentions, List.mem_flatMap, List.mem_map, Prod.mk.injEq]
  constructor
  · rintro ⟨statement, mem, mentioned⟩
    exact ⟨_, statement, mem, name, mentioned, rfl, rfl⟩
  · rintro ⟨line, statement, mem, name, mentioned, -, rfl⟩
    exact ⟨statement, mem, mentioned⟩

/-- A free name is one of the names and no number. -/
theorem mem_freeNames : name ∈ freeNames names ↔ name ∈ names ∧ isNumericName name = false := by
  rw [freeNames, List.mem_eraseDups, List.mem_filter, Bool.not_eq_true']

/-- No number among names is above the largest. -/
theorem largestNumber_le_iff {bound : ℕ} :
    largestNumber names ≤ bound ↔
      ∀ name ∈ names, isNumericName name = true → digitsValue name.toList ≤ bound := by
  have folded (numbers : List ℕ) (start : ℕ) :
      numbers.foldl max start ≤ bound ↔ start ≤ bound ∧ ∀ number ∈ numbers, number ≤ bound := by
    induction numbers generalizing start with
    | nil => simp
    | cons number numbers hyp =>
        rw [List.foldl_cons, hyp, max_le_iff, List.forall_mem_cons, and_assoc]
  rw [largestNumber, folded, and_iff_right (Nat.zero_le _), List.forall_mem_map]
  simp only [List.mem_filter, and_imp]

end

namespace IdNumbers

/-! ## Errors -/

/-- The first number of a text that no ID may have is the first mention that is refused. -/
theorem firstInvalid?_eq (statements : List Statement) :
    firstInvalid? statements =
      (mentions statements).find? fun mention => decide (IsRefusedName mention.2) := by
  rw [firstInvalid?, mentions, List.find?_flatMap]
  congr 1
  funext statement
  rw [List.find?_map]
  congr 2
  funext name
  rw [Function.comp_apply, Bool.eq_iff_iff, decide_eq_true_iff, isRefusedName_iff]

/-- The error of a text is the first mention that is refused. -/
theorem ofStatements_eq_error_iff {statements : List Statement} {error : AssemblyError} :
    ofStatements statements = .error error ↔
      ∃ before line name after, mentions statements = before ++ (line, name) :: after ∧
        (∀ mention ∈ before, ¬ IsRefusedName mention.2) ∧ IsRefusedName name ∧
        error = .invalidId line name := by
  rw [ofStatements, firstInvalid?_eq]
  constructor
  · intro failed
    split at failed
    · rename_i line name found
      cases failed
      obtain ⟨refused, before, after, split, kept⟩ := List.find?_eq_some_iff_append.mp found
      refine ⟨before, line, name, after, split, ?_, of_decide_eq_true refused, rfl⟩
      simpa using kept
    · cases failed
  · rintro ⟨before, line, name, after, split, kept, refused, rfl⟩
    have found : (mentions statements).find? (fun mention => decide (IsRefusedName mention.2)) =
        some (line, name) :=
      List.find?_eq_some_iff_append.mpr
        ⟨decide_eq_true refused, before, after, split, by simpa using kept⟩
    rw [found]

/-- The IDs of a text are numbered if no mention is refused. -/
theorem ofStatements_eq_ok_iff {statements : List Statement} {numbers : IdNumbers} :
    ofStatements statements = .ok numbers ↔
      (∀ name ∈ mentionedNames statements, ¬ IsRefusedName name) ∧
        numbers = ofNames (mentionedNames statements).eraseDups := by
  have unfound_iff :
      (mentions statements).find? (fun mention => decide (IsRefusedName mention.2)) = none ↔
        ∀ name ∈ mentionedNames statements, ¬ IsRefusedName name := by
    rw [List.find?_eq_none]
    constructor
    · intro kept name mem
      obtain ⟨line, mentioned⟩ := mem_mentionedNames.mp mem
      simpa using kept _ mentioned
    · rintro kept ⟨line, name⟩ mentioned
      simpa using kept name (mem_mentionedNames.mpr ⟨line, mentioned⟩)
  rw [ofStatements, firstInvalid?_eq, ← unfound_iff, distinct_eq_eraseDups]
  cases (mentions statements).find? fun mention => decide (IsRefusedName mention.2) with
  | some mention => simp
  | none =>
      simp only [Except.ok.injEq, true_and]
      exact eq_comm

/-! ## Numbers -/

/-- What the numbers of names are. -/
structure Numbers (numbers : IdNumbers) (names : List String) : Prop where
  /-- Only names that are mentioned have a number. -/
  mentioned : ∀ name id, numbers.get? name = some id → name ∈ names
  /-- All that are mentioned have a number from one on, below the bound. -/
  range : ∀ name ∈ names, ∃ id, numbers.get? name = some id ∧ 1 ≤ id ∧ id < numbers.bound
  /-- A number stands for itself. -/
  numeric : ∀ name ∈ names, isNumericName name = true →
    ∃ id, numbers.get? name = some id ∧ id.toNat = digitsValue name.toList
  /-- The other names follow the largest number, in order of first appearance. -/
  free : ∀ position name, (freeNames names)[position]? = some name →
    ∃ id, numbers.get? name = some id ∧ id.toNat = largestNumber names + 1 + position
  /-- A name that is no number shares its number with no other name. -/
  apart : ∀ first ∈ names, ∀ second ∈ names, isNumericName first = false → first ≠ second →
    numbers.get? first ≠ numbers.get? second
  /-- Without any name the bound is one. -/
  bound_nil : names = [] → numbers.bound = 1
  /-- The bound is one above the number of some name, which is therefore the largest. -/
  bound_cons : names ≠ [] →
    ∃ name ∈ names, ∃ id, numbers.get? name = some id ∧ numbers.bound.toNat = id.toNat + 1

/-- The numbers that names are given, by name. -/
def assigned (names : List String) : List (String × ℕ) :=
  numbered names ++ (names.filter (not ∘ isNumericName)).zipIdx
    ((numbered names).foldl (fun largest pair => max largest pair.2) 0 + 1)

section

variable {name : String} {names : List String} {number : ℕ}

/-- The numbers of numeric names are those that they stand for. -/
theorem mem_numbered_iff : (name, number) ∈ numbered names ↔
    name ∈ names ∧ isNumericName name = true ∧ numericId? name = some number := by
  simp only [numbered, List.mem_filterMap, List.mem_filter, Option.map_eq_some_iff, Prod.mk.injEq]
  constructor
  · rintro ⟨name, ⟨mem, numeric⟩, number, found, rfl, rfl⟩
    exact ⟨mem, numeric, found⟩
  · rintro ⟨mem, numeric, found⟩
    exact ⟨name, ⟨mem, numeric⟩, number, found, rfl, rfl⟩

/-- No name is given two numbers. -/
theorem assigned_unique (nodup : names.Nodup) {other : ℕ} (mem : (name, number) ∈ assigned names)
    (other_mem : (name, other) ∈ assigned names) : other = number := by
  have free_iff {number start : ℕ}
      (mem : (name, number) ∈ (names.filter (not ∘ isNumericName)).zipIdx start) :
      isNumericName name = false := by
    simpa using (List.mem_filter.mp (List.fst_mem_of_mem_zipIdx mem)).2
  rw [assigned, List.mem_append, mem_numbered_iff] at mem other_mem
  rcases mem with ⟨-, numeric, found⟩ | mem
  · rcases other_mem with ⟨-, -, other_found⟩ | other_mem
    · exact Option.some.inj (other_found.symm.trans found)
    · exact absurd ((free_iff other_mem).symm.trans numeric) Bool.false_ne_true
  · rcases other_mem with ⟨-, numeric, -⟩ | other_mem
    · exact absurd ((free_iff mem).symm.trans numeric) Bool.false_ne_true
    · -- Both numbers say where the name stands, and it stands in one place.
      rw [List.mem_zipIdx_iff_le_and_getElem?_sub] at mem other_mem
      obtain ⟨start_le, found⟩ := mem
      obtain ⟨start_le', found'⟩ := other_mem
      have same := (List.getElem?_inj (List.getElem?_eq_some_iff.mp found).1 (nodup.filter _)).mp
        (found.trans found'.symm)
      omega

/-- Every name has the number that it is given. -/
theorem get?_ofNames (nodup : names.Nodup) (mem : (name, number) ∈ assigned names) :
    (ofNames names).get? name = some (UInt32.ofNat number) := by
  rw [get?, ofNames, List.partition_eq_filter_filter]
  change ((assigned names).foldl _ _)[name]? = _
  refine getElem?_foldl_insert ?_ (.inl (List.mem_map_of_mem mem))
  rintro ⟨_, other⟩ other_mem rfl
  exact assigned_unique nodup mem other_mem

/-- Whoever has a number was given it. -/
theorem exists_assigned {id : Id} (found : (ofNames names).get? name = some id) :
    ∃ number, (name, number) ∈ assigned names ∧ id = UInt32.ofNat number := by
  rw [get?, ofNames, List.partition_eq_filter_filter] at found
  exact (exists_of_foldl_insert found).resolve_right (by simp)

/-- The largest number among names that are not refused is the largest that is given to a number. -/
theorem foldl_numbered (kept : ∀ name ∈ names, ¬ IsRefusedName name) :
    (numbered names.eraseDups).foldl (fun largest pair => max largest pair.2) 0 =
      largestNumber names := by
  refine eq_of_forall_ge_iff fun bound => ?_
  rw [foldl_max_le_iff, largestNumber_le_iff, and_iff_right (Nat.zero_le _)]
  constructor
  · intro all name mem numeric
    exact all (name, _) (mem_numbered_iff.mpr
      ⟨List.mem_eraseDups.mpr mem, numeric, numericId?_of_kept numeric (kept name mem)⟩)
  · rintro all ⟨name, number⟩ mem
    obtain ⟨mem, numeric, found⟩ := mem_numbered_iff.mp mem
    rw [List.mem_eraseDups] at mem
    rw [numericId?_of_kept numeric (kept name mem)] at found
    exact Option.some.inj found ▸ all name mem numeric

/-- A name is given the number that it is, or else the one after the largest number that its place
among the free names says. -/
theorem mem_assigned_iff (kept : ∀ name ∈ names, ¬ IsRefusedName name) :
    (name, number) ∈ assigned names.eraseDups ↔
      (name ∈ names ∧ isNumericName name = true ∧ number = digitsValue name.toList) ∨
      ∃ position, (freeNames names)[position]? = some name ∧
        number = largestNumber names + 1 + position := by
  rw [assigned, List.mem_append, mem_numbered_iff, List.mem_eraseDups, foldl_numbered kept,
    filter_eraseDups]
  refine or_congr ?_ ?_
  · refine and_congr_right fun mem => and_congr_right fun numeric => ?_
    rw [numericId?_of_kept numeric (kept name mem), Option.some.injEq, eq_comm]
  · rw [List.mem_zipIdx_iff_le_and_getElem?_sub]
    change _ ∧ (freeNames names)[_]? = _ ↔ _
    constructor
    · rintro ⟨above, found⟩
      exact ⟨_, found, (Nat.add_sub_of_le above).symm⟩
    · rintro ⟨position, found, rfl⟩
      refine ⟨Nat.le_add_right _ _, ?_⟩
      rwa [Nat.add_sub_cancel_left]

/-- The bound of names that are not refused. -/
theorem needed_eraseDups (kept : ∀ name ∈ names, ¬ IsRefusedName name) :
    needed names.eraseDups = largestNumber names + 1 + (freeNames names).length := by
  rw [needed, foldl_numbered kept, filter_eraseDups]
  rfl

/-- If all names are numbers, one of them is the largest. -/
theorem exists_largest (some_name : names ≠ [])
    (numeric : ∀ name ∈ names, isNumericName name = true) :
    ∃ name ∈ names, digitsValue name.toList = largestNumber names := by
  by_contra unreached
  push Not at unreached
  have below (name : String) (mem : name ∈ names) : digitsValue name.toList < largestNumber names :=
    Nat.lt_of_le_of_ne (largestNumber_le_iff.mp (Nat.le_refl _) name mem (numeric name mem))
      (unreached name mem)
  -- Then the largest number is below itself.
  obtain ⟨name, mem⟩ := List.exists_mem_of_ne_nil names some_name
  have positive := Nat.zero_lt_of_lt (below name mem)
  have smaller : largestNumber names ≤ largestNumber names - 1 :=
    largestNumber_le_iff.mpr fun name mem _ => Nat.le_pred_of_lt (below name mem)
  omega

/-- A name that is no number has a place among the free names. -/
theorem exists_place (mem : name ∈ names) (is_free : isNumericName name = false) :
    ∃ position : ℕ, (freeNames names)[position]? = some name :=
  List.mem_iff_getElem?.mp (mem_freeNames.mpr ⟨mem, is_free⟩)

/-- Every name is given a number. -/
theorem exists_mem_assigned (kept : ∀ name ∈ names, ¬ IsRefusedName name) (mem : name ∈ names) :
    ∃ number, (name, number) ∈ assigned names.eraseDups := by
  cases is_numeric : isNumericName name with
  | true => exact ⟨_, (mem_assigned_iff kept).mpr (.inl ⟨mem, is_numeric, rfl⟩)⟩
  | false =>
      obtain ⟨position, found⟩ := exists_place mem is_numeric
      exact ⟨_, (mem_assigned_iff kept).mpr (.inr ⟨position, found, rfl⟩)⟩

/-- The bound follows all numbers that are given. -/
theorem toNat_bound_ofNames (few : names.eraseDups.length < 2 ^ 31)
    (kept : ∀ name ∈ names, ¬ IsRefusedName name) :
    (ofNames names.eraseDups).bound.toNat =
      largestNumber names + 1 + (freeNames names).length := by
  rw [bound_ofNames, UInt32.toNat_ofNat_of_lt' (needed_lt few), needed_eraseDups kept]

/-- A name has the number that it is given. -/
theorem exists_get?_ofNames (few : names.eraseDups.length < 2 ^ 31)
    (mem : (name, number) ∈ assigned names.eraseDups)
    (small : number ≤ needed names.eraseDups) :
    ∃ id, (ofNames names.eraseDups).get? name = some id ∧ id.toNat = number :=
  ⟨_, get?_ofNames (nodup_eraseDups names) mem,
    UInt32.toNat_ofNat_of_lt' (Nat.lt_of_le_of_lt small (needed_lt few))⟩

/-- A number stands for itself. -/
theorem exists_get?_numeric (few : names.eraseDups.length < 2 ^ 31)
    (kept : ∀ name ∈ names, ¬ IsRefusedName name) (mem : name ∈ names)
    (numeric : isNumericName name = true) :
    ∃ id, (ofNames names.eraseDups).get? name = some id ∧ id.toNat = digitsValue name.toList := by
  have le := largestNumber_le_iff.mp (Nat.le_refl _) name mem numeric
  have needed_eq := needed_eraseDups kept
  exact exists_get?_ofNames few ((mem_assigned_iff kept).mpr (.inl ⟨mem, numeric, rfl⟩)) (by omega)

/-- The free names follow the largest number. -/
theorem exists_get?_free (few : names.eraseDups.length < 2 ^ 31)
    (kept : ∀ name ∈ names, ¬ IsRefusedName name) {position : ℕ}
    (found : (freeNames names)[position]? = some name) :
    ∃ id, (ofNames names.eraseDups).get? name = some id ∧
      id.toNat = largestNumber names + 1 + position := by
  have below := (List.getElem?_eq_some_iff.mp found).1
  have needed_eq := needed_eraseDups kept
  exact exists_get?_ofNames few ((mem_assigned_iff kept).mpr (.inr ⟨position, found, rfl⟩))
    (by omega)

/-- A name that is no number shares its number with no other name. -/
theorem get?_ofNames_ne (few : names.eraseDups.length < 2 ^ 31)
    (kept : ∀ name ∈ names, ¬ IsRefusedName name) {other : String} (mem : name ∈ names)
    (other_mem : other ∈ names) (is_free : isNumericName name = false) (differ : name ≠ other) :
    (ofNames names.eraseDups).get? name ≠ (ofNames names.eraseDups).get? other := by
  intro same
  obtain ⟨position, found⟩ := exists_place mem is_free
  obtain ⟨id, id_eq, toNat_eq⟩ := exists_get?_free few kept found
  rw [id_eq] at same
  cases is_numeric : isNumericName other with
  | true =>
      obtain ⟨id', id_eq', toNat_eq'⟩ := exists_get?_numeric few kept other_mem is_numeric
      obtain rfl := Option.some.inj (same.trans id_eq')
      have le := largestNumber_le_iff.mp (Nat.le_refl _) other other_mem is_numeric
      omega
  | false =>
      obtain ⟨position', found'⟩ := exists_place other_mem is_numeric
      obtain ⟨id', id_eq', toNat_eq'⟩ := exists_get?_free few kept found'
      obtain rfl := Option.some.inj (same.trans id_eq')
      obtain rfl : position = position' := by omega
      exact differ (Option.some.inj (found.symm.trans found'))

/-- The bound is reached by the last free name, or by the largest number if no name is free. -/
theorem exists_last (few : names.eraseDups.length < 2 ^ 31)
    (kept : ∀ name ∈ names, ¬ IsRefusedName name) (some_name : names ≠ []) :
    ∃ name ∈ names, ∃ id, (ofNames names.eraseDups).get? name = some id ∧
      (ofNames names.eraseDups).bound.toNat = id.toNat + 1 := by
  have bound_eq := toNat_bound_ofNames few kept
  by_cases none_free : freeNames names = []
  · have numeric (name : String) (mem : name ∈ names) : isNumericName name = true := by
      by_contra is_free
      rw [Bool.not_eq_true] at is_free
      exact List.not_mem_nil (none_free ▸ mem_freeNames.mpr ⟨mem, is_free⟩)
    obtain ⟨name, mem, is_largest⟩ := exists_largest some_name numeric
    obtain ⟨id, found, toNat_eq⟩ := exists_get?_numeric few kept mem (numeric name mem)
    refine ⟨name, mem, id, found, ?_⟩
    rw [bound_eq, none_free, List.length_nil, toNat_eq, is_largest]
  · have positive := List.length_pos_iff.mpr none_free
    obtain ⟨id, found, toNat_eq⟩ := exists_get?_free few kept
      (List.getElem?_eq_getElem (Nat.sub_one_lt_of_lt positive))
    refine ⟨_, (mem_freeNames.mp (List.getElem_mem _)).1, id, found, ?_⟩
    omega

/-- Names that are not refused and not too many have the numbers that they should have. -/
theorem ofNames_numbers (few : names.eraseDups.length < 2 ^ 31)
    (kept : ∀ name ∈ names, ¬ IsRefusedName name) :
    (ofNames names.eraseDups).Numbers names := by
  constructor
  case mentioned =>
    intro name id found
    obtain ⟨number, mem, -⟩ := exists_assigned found
    rcases (mem_assigned_iff kept).mp mem with ⟨mem, -⟩ | ⟨position, found, -⟩
    · exact mem
    · exact (mem_freeNames.mp (List.mem_of_getElem? found)).1
  case range =>
    intro name mem
    -- Numeric names keep their numbers, and the others get free ones in order.
    have numbered : ∃ id, (ofNames names.eraseDups).get? name = some id := by
      cases is_numeric : isNumericName name with
      | true => exact (exists_get?_numeric few kept mem is_numeric).imp fun _ => And.left
      | false =>
          obtain ⟨position, found⟩ := exists_place mem is_numeric
          exact (exists_get?_free few kept found).imp fun _ => And.left
    obtain ⟨id, found⟩ := numbered
    have range := (isBounded_ofNames (needed_lt few)).2 name id found
    exact ⟨id, found, UInt32.le_iff_toNat_le.mpr (UInt32.lt_iff_toNat_lt.mp range.1), range.2⟩
  case numeric => exact fun name => exists_get?_numeric few kept
  case free => exact fun position name => exists_get?_free few kept
  case apart =>
    intro first first_mem second second_mem
    exact get?_ofNames_ne few kept first_mem second_mem
  case bound_nil =>
    rintro rfl
    exact UInt32.toNat_inj.mp (toNat_bound_ofNames few kept)
  case bound_cons => exact exists_last few kept

end

/-- The IDs of a text fail to be numbered exactly if a name is refused, and the first such mention
is the error. Otherwise they are numbered as they should be, if they are fewer than half of what a
word can count. -/
theorem ofStatements_exact (statements : List Statement) :
    ((∃ error, ofStatements statements = .error error) ↔
      ∃ name ∈ mentionedNames statements, IsRefusedName name) ∧
    (∀ error, ofStatements statements = .error error ↔
      ∃ before line name after, mentions statements = before ++ (line, name) :: after ∧
        (∀ mention ∈ before, ¬ IsRefusedName mention.2) ∧ IsRefusedName name ∧
        error = .invalidId line name) ∧
    ((mentionedNames statements).eraseDups.length < 2 ^ 31 →
      (∀ name ∈ mentionedNames statements, ¬ IsRefusedName name) →
      ∃ numbers, ofStatements statements = .ok numbers ∧
        numbers.Numbers (mentionedNames statements)) := by
  refine ⟨⟨?fails, ?refused⟩, fun error => ofStatements_eq_error_iff, fun few kept => ?numbered⟩
  case fails =>
    rintro ⟨error, failed⟩
    obtain ⟨before, line, name, after, split, -, refused, -⟩ := ofStatements_eq_error_iff.mp failed
    refine ⟨name, mem_mentionedNames.mpr ⟨line, ?_⟩, refused⟩
    rw [split]
    exact List.mem_append_right _ List.mem_cons_self
  case refused =>
    rintro ⟨name, mem, refused⟩
    cases started : ofStatements statements with
    | error error => exact ⟨error, rfl⟩
    | ok numbers => exact absurd refused ((ofStatements_eq_ok_iff.mp started).1 name mem)
  case numbered =>
    exact ⟨_, ofStatements_eq_ok_iff.mpr ⟨kept, rfl⟩, ofNames_numbers few kept⟩

/-- A type that is named `7` pushes the names around it to eight and nine. -/
theorem ofStatements_mixed :
    ∃ numbers, ofStatements [⟨1, some "void", .typeVoid, []⟩, ⟨2, some "7", .typeBool, []⟩,
        ⟨3, some "fn", .typeFunction, [.id "void"]⟩] = .ok numbers ∧
      (numbers.get? "void").map UInt32.toNat = some 8 ∧
      (numbers.get? "7").map UInt32.toNat = some 7 ∧
      (numbers.get? "fn").map UInt32.toNat = some 9 := by
  obtain ⟨numbers, started, numbered⟩ := (ofStatements_exact [⟨1, some "void", .typeVoid, []⟩,
    ⟨2, some "7", .typeBool, []⟩, ⟨3, some "fn", .typeFunction, [.id "void"]⟩]).2.2
      (by decide) (by decide)
  obtain ⟨void, void_eq, void_toNat⟩ := numbered.free 0 "void" (by decide)
  obtain ⟨seven, seven_eq, seven_toNat⟩ := numbered.numeric "7" (by decide) (by decide)
  obtain ⟨fn, fn_eq, fn_toNat⟩ := numbered.free 1 "fn" (by decide)
  refine ⟨numbers, started, ?_, ?_, ?_⟩
  · rw [void_eq, Option.map_some, void_toNat]
    decide
  · rw [seven_eq, Option.map_some, seven_toNat]
    decide
  · rw [fn_eq, Option.map_some, fn_toNat]
    decide

end IdNumbers

/-- The IDs of a text are counted if no mention is refused and a word holds the bound that they
need. -/
theorem IdNumbers.counted_iff {statements : List Statement} {numbers : IdNumbers} :
    counted statements = .ok numbers ↔
      ((∀ name ∈ mentionedNames statements, ¬ IsRefusedName name) ∧
        needed (mentionedNames statements).eraseDups < UInt32.size) ∧
        numbers = ofNames (mentionedNames statements).eraseDups := by
  rw [counted_eq_ok_iff, ofStatements_eq_ok_iff, distinct_eq_eraseDups, and_right_comm]
  rfl

/-- An ID that a text mentions has a number. -/
theorem Encoder.exists_number {statements : List Statement} {encoder : Encoder} {name : String}
    (started : ofStatements statements = .ok encoder) (mem : name ∈ mentionedNames statements) :
    ∃ id, encoder.ids.get? name = some id := by
  obtain ⟨⟨kept, -⟩, ids_eq⟩ := IdNumbers.counted_iff.mp (ofStatements_inv started).1
  obtain ⟨number, given⟩ := IdNumbers.exists_mem_assigned kept mem
  rw [ids_eq]
  exact ⟨_, IdNumbers.get?_ofNames (nodup_eraseDups _) given⟩

end ShaderMachine
