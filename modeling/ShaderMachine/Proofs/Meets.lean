import ShaderMachine.Machine.OperandReader
import ShaderMachine.Proofs.Fallible

/-! # Results that are as wanted

A result with faults meets a condition on values and one on faults if whichever it is meets its
own. A reading of operands does so if its result does wherever it starts; what is left to read
does not matter. Readings are taken apart step by step.

* **`Meets`** — a result with faults is as wanted.
* **`OperandReader.Meets`** — so is the result of a reading, wherever it starts.
* **`OperandReader.Meets.bind`** — one reading after the other. -/

namespace ShaderMachine

variable {α β : Type} {good : α → Prop} {best : β → Prop} {fault : MachineError → Prop}

/-- Whether a result is a wanted value or an admitted fault. -/
def Meets (result : Except MachineError α) (good : α → Prop) (fault : MachineError → Prop) : Prop :=
  match result with
  | .ok value => good value
  | .error error => fault error

namespace Meets

variable {result : Except MachineError α}

/-- A result meets what holds of its value and of its fault. -/
theorem of_cases (wanted : ∀ value, result = .ok value → good value)
    (admitted : ∀ error, result = .error error → fault error) : Meets result good fault := by
  cases result with
  | ok value => exact wanted value rfl
  | error error => exact admitted error rfl

/-- The value of a result that is as wanted is a wanted one. -/
theorem value (meets : Meets result good fault) {value : α} (is : result = .ok value) :
    good value := by
  subst is
  exact meets

/-- The fault of a result that is as wanted is an admitted one. -/
theorem error (meets : Meets result good fault) {error : MachineError}
    (is : result = .error error) :
    fault error := by
  subst is
  exact meets

/-- Less may be wanted. -/
theorem imp {better : α → Prop} {worse : MachineError → Prop} (meets : Meets result good fault)
    (wanted : ∀ value, good value → better value) (admitted : ∀ error, fault error → worse error) :
    Meets result better worse :=
  of_cases (fun value is => wanted value (meets.value is))
    (fun error is => admitted error (meets.error is))

/-- One computation after the other. -/
theorem bind {rest : α → Except MachineError β} (first : Meets result good fault)
    (after : ∀ value, result = .ok value → good value → Meets (rest value) best fault) :
    Meets (result >>= rest) best fault := by
  cases result with
  | ok value => exact after value rfl first
  | error error => exact first

end Meets

namespace OperandReader

/-- Whether a reading ends in a wanted value or an admitted fault wherever it starts. -/
def Meets (reader : OperandReader α) (good : α → Prop) (fault : MachineError → Prop) : Prop :=
  ∀ cursor, ShaderMachine.Meets (reader cursor) (fun answer => good answer.1) fault

variable {reader : OperandReader α} {instruction : Instruction}

/-- Nothing is read. -/
theorem meets_pure {value : α} (wanted : good value) :
    (pure value : OperandReader α).Meets good fault :=
  fun _ => wanted

/-- The reading ends in a malformation. -/
theorem meets_malformed {reason : Malformation}
    (admitted : fault (.binary (instruction.malformed reason))) :
    (malformed instruction reason : OperandReader α).Meets good fault :=
  fun _ => admitted

/-- After a malformation nothing is read. -/
theorem meets_malformed_bind {reason : Malformation} {rest : α → OperandReader β}
    (admitted : fault (.binary (instruction.malformed reason))) :
    (malformed instruction reason >>= rest).Meets best fault :=
  fun _ => admitted

/-- The reading ends in a fault. -/
theorem meets_throw {error : MachineError} (admitted : fault error) :
    (throw error : OperandReader α).Meets good fault :=
  fun _ => admitted

/-- What does not read operands. -/
theorem meets_compute {result : Except MachineError α}
    (meets : ShaderMachine.Meets result good fault) :
    (compute result).Meets good fault := by
  intro cursor
  cases result with
  | ok value => exact meets
  | error error => exact meets

/-- Less may be wanted of a reading. -/
theorem Meets.imp {better : α → Prop} {worse : MachineError → Prop}
    (meets : reader.Meets good fault) (wanted : ∀ value, good value → better value)
    (admitted : ∀ error, fault error → worse error) : reader.Meets better worse :=
  fun cursor => (meets cursor).imp (fun answer => wanted answer.1) admitted

/-- One reading after the other. -/
theorem Meets.bind {rest : α → OperandReader β} (first : reader.Meets good fault)
    (after : ∀ value, good value → (rest value).Meets best fault) :
    (reader >>= rest).Meets best fault := by
  intro cursor
  exact (first cursor).bind fun answer _ wanted => after answer.1 wanted answer.2

/-- A word, then the rest. -/
theorem Meets.word {rest : Word → OperandReader β}
    (missing : fault (.binary (instruction.malformed .missingOperand)))
    (after : ∀ word, (rest word).Meets best fault) :
    (readWord instruction >>= rest).Meets best fault := by
  have first : (readWord instruction).Meets (fun _ => True) fault := by
    intro cursor
    rw [readWord]
    cases cursor.word with
    | ok answer => trivial
    | error error => exact missing
  exact first.bind fun word _ => after word

/-- A word if one is left, then the rest. -/
theorem Meets.optional {rest : Option Word → OperandReader β}
    (after : ∀ word, (rest word).Meets best fault) : (readOptional >>= rest).Meets best fault := by
  have first : readOptional.Meets (fun _ => True) fault := fun _ => trivial
  exact first.bind fun word _ => after word

/-- A string, then the rest. -/
theorem Meets.string {rest : String → OperandReader β}
    (unreadable : ∀ error, fault (.binary error)) (after : ∀ text, (rest text).Meets best fault) :
    (readString >>= rest).Meets best fault := by
  have first : readString.Meets (fun _ => True) fault := by
    intro cursor
    rw [readString]
    split
    · trivial
    · exact unreadable _
  exact first.bind fun text _ => after text

/-- A number of words, then the rest. -/
theorem Meets.counted {count : Nat} {rest : List Word → OperandReader β}
    (missing : fault (.binary (instruction.malformed .missingOperand)))
    (after : ∀ words, words.length = count → (rest words).Meets best fault) :
    (readWords instruction count >>= rest).Meets best fault := by
  have first : (readWords instruction count).Meets (fun words => words.length = count) fault := by
    intro cursor
    rw [readWords]
    split
    · rename_i words next taken
      rw [Cursor.take] at taken
      split at taken
      · cases taken
      · rename_i enough
        cases taken
        exact List.length_take_of_le (Nat.le_of_not_lt enough)
    · exact missing
  exact first.bind fun words length_eq => after words length_eq

/-- All words that are left, then the rest. -/
theorem Meets.words {rest : List Word → OperandReader β}
    (after : ∀ words, (rest words).Meets best fault) : (readRest >>= rest).Meets best fault := by
  have first : readRest.Meets (fun _ => True) fault := fun _ => trivial
  exact first.bind fun words _ => after words

/-- All words that are left are passed over, then the rest. -/
theorem Meets.drained {rest : Unit → OperandReader β} (after : (rest ()).Meets best fault) :
    (drain >>= rest).Meets best fault := by
  have first : drain.Meets (fun _ => True) fault := fun _ => trivial
  exact first.bind fun _ _ => after

/-- Something that does not read operands, then the rest. -/
theorem Meets.computed {result : Except MachineError α} {rest : α → OperandReader β}
    (admitted : ∀ error, result = .error error → fault error)
    (after : ∀ value, result = .ok value → (rest value).Meets best fault) :
    (compute result >>= rest).Meets best fault := by
  have first : (compute result).Meets (fun value => result = .ok value) fault :=
    meets_compute (.of_cases (fun _ is => is) admitted)
  exact first.bind after

/-! ## Readings that succeed -/

section

variable {cursor next : Cursor} {answer : β × Cursor}

/-- A word that was read stood ahead. -/
theorem exists_word {rest : Word → OperandReader β}
    (read : (readWord instruction >>= rest) cursor = .ok answer) :
    ∃ word next, cursor.ahead = word :: next.ahead ∧ rest word next = .ok answer := by
  obtain ⟨⟨word, next⟩, first, read⟩ := exists_of_bind read
  refine ⟨word, next, ?_, read⟩
  rw [readWord, Cursor.word] at first
  split at first
  · rename_i found
    cases first
    split at found
    · cases found
    · rename_i ahead_eq
      cases found
      exact ahead_eq
  · cases first

/-- A word that may be read is the next one ahead, if there is one. -/
theorem exists_optional {rest : Option Word → OperandReader β}
    (read : (readOptional >>= rest) cursor = .ok answer) :
    ∃ next, rest cursor.ahead.head? next = .ok answer := by
  obtain ⟨base, behind, ahead⟩ := cursor
  cases ahead with
  | nil => exact ⟨_, read⟩
  | cons word ahead => exact ⟨_, read⟩

/-- Words that were counted off are the next ones ahead. -/
theorem exists_counted {count : Nat} {rest : List Word → OperandReader β}
    (read : (readWords instruction count >>= rest) cursor = .ok answer) :
    ∃ next, rest (cursor.ahead.take count) next = .ok answer := by
  obtain ⟨⟨words, next⟩, first, read⟩ := exists_of_bind read
  rw [readWords, Cursor.take] at first
  split at first
  · rename_i taken
    cases first
    split at taken
    · cases taken
    · cases taken
      exact ⟨_, read⟩
  · cases first

/-- Words that are read to the end are all words ahead. -/
theorem exists_words {rest : List Word → OperandReader β}
    (read : (readRest >>= rest) cursor = .ok answer) :
    ∃ next, rest cursor.ahead next = .ok answer :=
  ⟨_, read⟩

/-- What does not read operands succeeded. -/
theorem exists_computed {result : Except MachineError α} {rest : α → OperandReader β}
    (read : (compute result >>= rest) cursor = .ok answer) :
    ∃ value, result = .ok value ∧ rest value cursor = .ok answer := by
  obtain ⟨⟨value, next⟩, first, read⟩ := exists_of_bind read
  cases result with
  | error error => cases first
  | ok found =>
      cases first
      exact ⟨value, rfl, read⟩

/-- What does not read operands succeeded and did not move. -/
theorem of_computed {result : Except MachineError α} {value : α}
    (read : compute result cursor = .ok (value, next)) : result = .ok value ∧ next = cursor := by
  cases result with
  | error error => cases read
  | ok found =>
      cases read
      exact ⟨rfl, rfl⟩

end

end OperandReader

end ShaderMachine
