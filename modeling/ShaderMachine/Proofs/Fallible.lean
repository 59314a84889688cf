/-! # Computations that may fail

A computation that may fail is taken apart along its steps: what a later step yields was computed
from what the steps before it have yielded, and an error is that of the first step that fails.

* **`exists_of_bind`**, **`exists_of_map`** — a computation that yields a value did so in each of
  its steps.
* **`error_of_bind`** — a computation that fails did so in one of its steps.
* **`exists_of_foldlM_error`** — the first element at which a computation along a list fails. -/

namespace ShaderMachine

variable {ε α β : Type}

/-! ## Steps of computations -/

/-- Two computations one after the other yield a value if both of them do. -/
theorem exists_of_bind {first : Except ε α} {rest : α → Except ε β} {value : β}
    (is : first >>= rest = .ok value) : ∃ mid, first = .ok mid ∧ rest mid = .ok value := by
  cases first with
  | error error => cases is
  | ok mid => exact ⟨mid, rfl, is⟩

/-- What a result was changed to comes from a result. -/
theorem exists_of_map {computed : Except ε α} {change : α → β} {value : β}
    (is : computed.map change = .ok value) :
    ∃ original, computed = .ok original ∧ change original = value := by
  cases computed with
  | error error => cases is
  | ok original => exact ⟨original, rfl, Except.ok.inj is⟩

/-- What a computation with other errors yields it yields with its own ones. -/
theorem ok_of_mapError {ε' : Type} {computed : Except ε α} {change : ε → ε'} {value : α}
    (is : computed.mapError change = .ok value) : computed = .ok value := by
  cases computed with
  | error error => cases is
  | ok other => exact congrArg Except.ok (Except.ok.inj is)

/-- The error of a computation with other errors is made of its own one. -/
theorem exists_of_mapError {ε' : Type} {computed : Except ε α} {change : ε → ε'} {error : ε'}
    (failed : computed.mapError change = .error error) :
    ∃ cause, computed = .error cause ∧ change cause = error := by
  cases computed with
  | error cause => exact ⟨cause, rfl, Except.error.inj failed⟩
  | ok other => cases failed

/-- Two computations one after the other fail if the first one does, or the second one behind it. -/
theorem error_of_bind {first : Except ε α} {rest : α → Except ε β} {error : ε}
    (failed : first >>= rest = .error error) :
    first = .error error ∨ ∃ mid, first = .ok mid ∧ rest mid = .error error := by
  cases first with
  | error other => exact .inl (congrArg Except.error (Except.error.inj failed))
  | ok mid => exact .inr ⟨mid, rfl, failed⟩

/-- Computations that yield the same both yield it, or both fail. -/
theorem both_ok_or_error {first second : Except ε α}
    (to_second : ∀ value, first = .ok value → second = .ok value)
    (to_first : ∀ value, second = .ok value → first = .ok value) :
    (∃ value, first = .ok value ∧ second = .ok value) ∨
      ∃ error error', first = .error error ∧ second = .error error' := by
  cases first with
  | ok value => exact .inl ⟨value, rfl, to_second value rfl⟩
  | error error =>
      cases second with
      | ok value => cases to_first value rfl
      | error error' => exact .inr ⟨error, error', rfl, rfl⟩

/-- A computation that succeeds yields something. -/
theorem exists_of_isOk {computed : Except ε α} (succeeds : computed.isOk = true) :
    ∃ value, computed = .ok value := by
  cases computed with
  | error error => cases succeeds
  | ok value => exact ⟨value, rfl⟩

/-- A computation that is evaluated to something good yields it. -/
theorem exists_of_any {computed : Except ε α} {good : α → Bool}
    (evaluated : computed.toOption.any good = true) :
    ∃ value, computed = .ok value ∧ good value = true := by
  cases computed with
  | error error => cases evaluated
  | ok value => exact ⟨value, rfl, evaluated⟩

/-- What was found is what is there. -/
theorem toOption_eq_some_iff {found : Except ε β} {result : β} :
    found.toOption = some result ↔ found = .ok result := by
  cases found <;> simp [Except.toOption]

/-! ## Computations along lists -/

/-- All are found if each of them is. -/
theorem mapM_toOption (find : α → Except ε β) (all : List α) :
    all.mapM (fun one => (find one).toOption) = (all.mapM find).toOption := by
  induction all with
  | nil => rfl
  | cons one all hyp =>
      rw [List.mapM_cons, List.mapM_cons, hyp]
      cases find one <;> cases all.mapM find <;> rfl

/-- What a computation over a list yields it yields for an element of the list. -/
theorem exists_of_mapM {f : α → Except ε β} {elements : List α} {values : List β}
    (is : elements.mapM f = .ok values) :
    ∀ value ∈ values, ∃ element ∈ elements, f element = .ok value := by
  induction elements generalizing values with
  | nil =>
      cases is
      simp
  | cons first elements hyp =>
      rw [List.mapM_cons] at is
      obtain ⟨value, first_eq, is⟩ := exists_of_bind is
      obtain ⟨others, rest_eq, is⟩ := exists_of_bind is
      cases is
      rw [List.forall_mem_cons]
      refine ⟨⟨first, List.mem_cons_self, first_eq⟩, fun other mem => ?_⟩
      obtain ⟨element, element_mem, element_eq⟩ := hyp rest_eq other mem
      exact ⟨element, List.mem_cons_of_mem _ element_mem, element_eq⟩

/-- A computation over a list yields something for each element of the list. -/
theorem exists_of_mem_mapM {f : α → Except ε β} {elements : List α}
    {values : List β} (is : elements.mapM f = .ok values) :
    ∀ element ∈ elements, ∃ value ∈ values, f element = .ok value := by
  induction elements generalizing values with
  | nil => simp
  | cons first elements hyp =>
      rw [List.mapM_cons] at is
      obtain ⟨value, first_eq, is⟩ := exists_of_bind is
      obtain ⟨others, rest_eq, is⟩ := exists_of_bind is
      cases is
      rw [List.forall_mem_cons]
      refine ⟨⟨value, List.mem_cons_self, first_eq⟩, fun element mem => ?_⟩
      obtain ⟨other, other_mem, other_eq⟩ := hyp rest_eq element mem
      exact ⟨other, List.mem_cons_of_mem _ other_mem, other_eq⟩

/-- A computation along a list that fails does so at an element, after those before it. -/
theorem exists_of_foldlM_error {f : β → α → Except ε β} {elements : List α} {start : β}
    {error : ε} (failed : elements.foldlM f start = .error error) :
    ∃ before element after mid, elements = before ++ element :: after ∧
      before.foldlM f start = .ok mid ∧ f mid element = .error error := by
  induction elements generalizing start with
  | nil => cases failed
  | cons first elements hyp =>
      rw [List.foldlM_cons] at failed
      cases stepped : f start first with
      | error fault =>
          rw [stepped] at failed
          cases failed
          exact ⟨[], first, elements, start, rfl, rfl, stepped⟩
      | ok next =>
          rw [stepped] at failed
          obtain ⟨before, element, after, mid, rfl, passed, fails⟩ := hyp failed
          refine ⟨first :: before, element, after, mid, rfl, ?_, fails⟩
          rw [List.foldlM_cons, stepped]
          exact passed

end ShaderMachine
