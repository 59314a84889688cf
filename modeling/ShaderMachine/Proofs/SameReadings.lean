import ShaderMachine.Proofs.FollowedReads

/-! # Reading the same operands again

A handler that reads its operands and succeeds does the same when it reads them again, at another
place and from another table, if that table shows what the first one shows. What it yields may be
given to something that fails the second time; then it has still read the same.

* **`Table.Shows`** — a table shows all that another one shows.
* **`OperandReader.Leads`** — a reading that succeeds has another one end in what goes with it.
* **`OperandReader.Repeats`** — the other one yields the same.
* **`OperandReader.LeadsFrom`** — the other one finds another word at a place.
* **`handler_repeats`** — the handlers of executed instructions do. -/

namespace ShaderMachine

/-- Whether a table shows all that another one shows. -/
def Table.Shows (table next : Table) : Prop :=
  ∀ id, table.ShowsAt next id

/-- A table that shows all that another one shows has its types. -/
theorem Table.Shows.typesFollow {table next : Table} (shows : table.Shows next) :
    table.TypesFollow next :=
  fun id => (shows id).follows_typeOf

namespace OperandReader

variable {α β γ : Type}

/-- Whether a reading that yields something has another one, from the same words ahead, end in a
result that goes with it; a value leaves the same words ahead. -/
def Leads (reader : OperandReader α) (other : OperandReader β)
    (goes : α → Except MachineError β → Prop) : Prop :=
  ∀ cursor cursor' value last, cursor.ahead = cursor'.ahead →
    reader cursor = .ok (value, last) → ∃ result last',
      other cursor' = result.map (fun value => (value, last')) ∧ last'.ahead = last.ahead ∧
        goes value result

/-- Whether a reading that yields something has another one yield the same. -/
abbrev Repeats (reader other : OperandReader α) : Prop :=
  reader.Leads other fun value result => result = .ok value

variable {goes : α → Except MachineError β → Prop} {reader : OperandReader α}
  {other : OperandReader β} {instruction instruction' : Instruction}

/-- Nothing is read. -/
theorem leads_pure {value : α} {value' : β} (together : goes value (.ok value')) :
    (pure value : OperandReader α).Leads (pure value') goes := by
  intro cursor cursor' answer last ahead_eq read
  cases read
  exact ⟨.ok value', cursor', rfl, ahead_eq.symm, together⟩

/-- A reading that fails leads anywhere. -/
theorem leads_throw {error : MachineError} : (throw error : OperandReader α).Leads other goes := by
  intro cursor cursor' value last _ read
  cases read

/-- A malformed instruction leads anywhere. -/
theorem leads_malformed {reason : Malformation} :
    (malformed instruction reason : OperandReader α).Leads other goes :=
  leads_throw

/-- After a malformation nothing is read. -/
theorem leads_malformed_bind {reason : Malformation} {rest : γ → OperandReader α} :
    (malformed instruction reason >>= rest).Leads other goes := by
  intro cursor cursor' value last _ read
  cases read

/-- What does not read operands. -/
theorem leads_compute {computed : Except MachineError α} {computed' : Except MachineError β}
    (together : ∀ value, computed = .ok value → goes value computed') :
    (compute computed).Leads (compute computed') goes := by
  intro cursor cursor' value last ahead_eq read
  obtain ⟨is, rfl⟩ := of_computed read
  exact ⟨computed', cursor', rfl, ahead_eq.symm, together value is⟩

/-- A reading that is repeated, then the rest. -/
theorem Leads.bind {first second : OperandReader γ} {rest : γ → OperandReader α}
    {rest' : γ → OperandReader β} (repeats : first.Repeats second)
    (after : ∀ value, (rest value).Leads (rest' value) goes) :
    (first >>= rest).Leads (second >>= rest') goes := by
  intro cursor cursor' value last ahead_eq read
  obtain ⟨⟨mid, between⟩, is_mid, read⟩ := exists_of_bind read
  obtain ⟨result, between', is_mid', ahead_eq', rfl⟩ :=
    repeats cursor cursor' mid between ahead_eq is_mid
  obtain ⟨result, last', read', ahead_eq'', together⟩ :=
    after mid between between' value last ahead_eq'.symm read
  refine ⟨result, last', ?_, ahead_eq'', together⟩
  change (second cursor' >>= fun answer => rest' answer.1 answer.2) = _
  rw [is_mid']
  exact read'

/-- What yields the same from the same words ahead is repeated. -/
theorem repeats_of_ahead {first second : OperandReader α}
    (same : ∀ base behind base' behind' ahead value last,
      first ⟨base, behind, ahead⟩ = .ok (value, last) → ∃ last',
        second ⟨base', behind', ahead⟩ = .ok (value, last') ∧ last'.ahead = last.ahead) :
    first.Repeats second := by
  rintro ⟨base, behind, ahead⟩ ⟨base', behind', ahead'⟩ value last ahead_eq read
  obtain rfl : ahead = ahead' := ahead_eq
  obtain ⟨last', read', ahead_eq'⟩ := same base behind base' behind' ahead value last read
  exact ⟨.ok value, last', read', ahead_eq', rfl⟩

/-- A word is read again. -/
theorem repeats_word : (readWord instruction).Repeats (readWord instruction') := by
  refine repeats_of_ahead fun base behind base' behind' ahead value last read => ?_
  cases ahead with
  | nil => cases read
  | cons word ahead =>
      cases read
      exact ⟨⟨base', _ :: behind', ahead⟩, rfl, rfl⟩

/-- A word that may be there is read again. -/
theorem repeats_optional : readOptional.Repeats readOptional := by
  refine repeats_of_ahead fun base behind base' behind' ahead value last read => ?_
  cases ahead with
  | nil =>
      cases read
      exact ⟨⟨base', behind', []⟩, rfl, rfl⟩
  | cons word ahead =>
      cases read
      exact ⟨⟨base', _ :: behind', ahead⟩, rfl, rfl⟩

/-- All words that are left are read again. -/
theorem repeats_words : readRest.Repeats readRest := by
  refine repeats_of_ahead fun base behind base' behind' ahead value last read => ?_
  cases read
  exact ⟨_, rfl, rfl⟩

/-- All words that are left are passed over again. -/
theorem repeats_drain : drain.Repeats drain := by
  refine repeats_of_ahead fun base behind base' behind' ahead value last read => ?_
  cases read
  exact ⟨_, rfl, rfl⟩

/-- A number of words is read again. -/
theorem repeats_counted (count : Nat) :
    (readWords instruction count).Repeats (readWords instruction' count) := by
  refine repeats_of_ahead fun base behind base' behind' ahead value last read => ?_
  rw [readWords, Cursor.take] at read
  by_cases short : Cursor.remaining ⟨base, behind, ahead⟩ < count
  · rw [if_pos short] at read
    cases read
  · rw [if_neg short] at read
    cases read
    have enough : ¬ Cursor.remaining ⟨base', behind', ahead⟩ < count := short
    rw [readWords, Cursor.take, if_neg enough]
    exact ⟨_, rfl, rfl⟩

/-- A string is read again. -/
theorem repeats_string : readString.Repeats readString := by
  refine repeats_of_ahead fun base behind base' behind' ahead value last read => ?_
  simp only [readString, Cursor.literalString] at read ⊢
  cases terminated : readTerminated [] ahead with
  | none =>
      rw [terminated] at read
      cases read
  | some found =>
      rw [terminated] at read
      simp only at read ⊢
      cases is_text : textOfBytes? found.1 with
      | none =>
          rw [is_text] at read
          cases read
      | some text' =>
          rw [is_text] at read
          cases read
          exact ⟨_, rfl, rfl⟩

/-- What does not read operands is computed again, from what follows it. -/
theorem repeats_compute {computed computed' : Except MachineError α}
    (follows : Follows computed computed') : (compute computed).Repeats (compute computed') :=
  leads_compute follows

/-- A word, then the rest. -/
theorem Leads.word {rest : Word → OperandReader α} {rest' : Word → OperandReader β}
    (after : ∀ word, (rest word).Leads (rest' word) goes) :
    (readWord instruction >>= rest).Leads (readWord instruction' >>= rest') goes :=
  .bind repeats_word after

/-- A word if one is left, then the rest. -/
theorem Leads.optional {rest : Option Word → OperandReader α}
    {rest' : Option Word → OperandReader β} (after : ∀ word, (rest word).Leads (rest' word) goes) :
    (readOptional >>= rest).Leads (readOptional >>= rest') goes :=
  .bind repeats_optional after

/-- A string, then the rest. -/
theorem Leads.string {rest : String → OperandReader α} {rest' : String → OperandReader β}
    (after : ∀ text, (rest text).Leads (rest' text) goes) :
    (readString >>= rest).Leads (readString >>= rest') goes :=
  .bind repeats_string after

/-- All words that are left, then the rest. -/
theorem Leads.words {rest : List Word → OperandReader α} {rest' : List Word → OperandReader β}
    (after : ∀ words, (rest words).Leads (rest' words) goes) :
    (readRest >>= rest).Leads (readRest >>= rest') goes :=
  .bind repeats_words after

/-- Whether a reading that yields something has another one end in a result that goes with it, if
the other one finds the same words ahead, but for the one at a place, for which it finds another
one. -/
def LeadsFrom (reader : OperandReader α) (other : OperandReader β)
    (goes : α → Except MachineError β → Prop) (place : Nat) (rename : Word → Word) : Prop :=
  ∀ cursor cursor' value last, cursor'.ahead = cursor.ahead.modify place rename →
    reader cursor = .ok (value, last) → ∃ result last',
      other cursor' = result.map (fun value => (value, last')) ∧ last'.ahead = last.ahead ∧
        goes value result

section

variable {place : Nat} {rename : Word → Word}

/-- If the word is no other one, the words ahead are the same. -/
theorem LeadsFrom.leads (leads : reader.LeadsFrom other goes place fun word => word) :
    reader.Leads other goes := by
  intro cursor cursor' value last ahead_eq read
  refine leads cursor cursor' value last ?_ read
  rw [← ahead_eq]
  exact (List.modify_id place cursor.ahead).symm

/-- The other word is read, then the rest, which is the same. -/
theorem LeadsFrom.here {rest : Word → OperandReader α} {rest' : Word → OperandReader β}
    (after : ∀ word, (rest word).Leads (rest' (rename word)) goes) :
    (readWord instruction >>= rest).LeadsFrom (readWord instruction' >>= rest') goes 0 rename := by
  rintro ⟨base, behind, ahead⟩ ⟨base', behind', ahead'⟩ value last ahead_eq read
  cases ahead with
  | nil => cases read
  | cons word ahead =>
      obtain rfl : ahead' = rename word :: ahead := ahead_eq
      exact after word ⟨base, word :: behind, ahead⟩ ⟨base', rename word :: behind', ahead⟩ value
        last rfl read

/-- A word is read, then the rest, of which a word is another one. -/
theorem LeadsFrom.next {rest : Word → OperandReader α} {rest' : Word → OperandReader β}
    (after : ∀ word, (rest word).LeadsFrom (rest' word) goes place rename) :
    (readWord instruction >>= rest).LeadsFrom (readWord instruction' >>= rest') goes (place + 1)
      rename := by
  rintro ⟨base, behind, ahead⟩ ⟨base', behind', ahead'⟩ value last ahead_eq read
  cases ahead with
  | nil => cases read
  | cons word ahead =>
      obtain rfl : ahead' = word :: ahead.modify place rename := ahead_eq
      exact after word ⟨base, word :: behind, ahead⟩ ⟨base', word :: behind', _⟩ value last rfl read

/-- All words are passed over, whatever they are. -/
theorem LeadsFrom.drained {rest : Unit → OperandReader α} {rest' : Unit → OperandReader β}
    (after : (rest ()).Leads (rest' ()) goes) :
    (drain >>= rest).LeadsFrom (drain >>= rest') goes place rename := by
  intro cursor cursor' value last _ read
  exact after cursor.drained cursor'.drained value last rfl read

end

/-- Something that does not read operands, then the rest. -/
theorem Leads.computed {computed computed' : Except MachineError γ} {rest : γ → OperandReader α}
    {rest' : γ → OperandReader β} (follows : Follows computed computed')
    (after : ∀ value, (rest value).Leads (rest' value) goes) :
    (compute computed >>= rest).Leads (compute computed' >>= rest') goes :=
  .bind (repeats_compute follows) after

end OperandReader

/-! ## Executed instructions -/

namespace Execution

open OperandReader

variable {table next : Table} {slots others : Slots} {instruction instruction' : Instruction}

/-- A storage class that is known is known again. -/
theorem repeats_storageOfWord (word : Word) :
    (storageOfWord instruction word).Repeats (storageOfWord instruction' word) := by
  unfold storageOfWord
  split
  · exact leads_pure rfl
  · exact leads_malformed

/-- Some IDs are read again. -/
theorem repeats_readIds (arity : Nat) :
    (readIds instruction arity).Repeats (readIds instruction' arity) := by
  induction arity with
  | zero => exact leads_pure rfl
  | succ arity hyp => exact .word fun id => .bind hyp fun ids => leads_pure rfl

section

variable (shows : table.Shows next)

include shows

/-- The same variable is created. -/
theorem repeats_readVariable :
    (readVariable table instruction).Repeats (readVariable next instruction') := by
  refine .word fun type => .word fun id => .word fun storageWord => .optional fun initializer => ?_
  refine .bind (repeats_storageOfWord storageWord) fun storage => ?_
  refine .computed ?_ fun contents => leads_pure rfl
  exact follows_createVariable shows.typesFollow type storage fun id _ => shows id

/-- The same is loaded. -/
theorem repeats_load (inputs : slots.inputs = others.inputs) :
    (load table slots instruction).Repeats (load next others instruction') := by
  refine .word fun resultType => .word fun result => .word fun pointer => .optional fun _ => ?_
  refine repeats_compute (Follows.bind ?_ fun bytes => ?_)
  · exact follows_loadBytes shows.typesFollow inputs resultType (shows pointer)
  · exact shows.typesFollow.follows_finishValue result resultType (some bytes)

/-- The same is stored. -/
theorem repeats_store :
    (store table slots instruction).Repeats (store next others instruction') := by
  refine .word fun pointer => .word fun object => .optional fun _ => ?_
  exact .computed (shows object).follows_value fun value => leads_pure rfl

/-- The same composite is built. -/
theorem repeats_compositeConstruct : (compositeConstruct table slots instruction).Repeats
    (compositeConstruct next others instruction') := by
  refine .word fun resultType => .word fun result => .words fun constituents => ?_
  refine repeats_compute (Follows.bind ?_ fun bytes => ?_)
  · exact follows_foldComposite shows.typesFollow resultType fun id _ => shows id
  · exact shows.typesFollow.follows_finishValue result resultType (some bytes)

/-- The same part is taken out of a composite. -/
theorem repeats_compositeExtract : (compositeExtract table slots instruction).Repeats
    (compositeExtract next others instruction') := by
  refine .word fun resultType => .word fun result => .word fun composite => .words fun indices => ?_
  refine repeats_compute (Follows.bind ?_ fun bytes => ?_)
  · exact follows_extractComposite shows.typesFollow (shows composite) indices
  · exact shows.typesFollow.follows_finishValue result resultType (some bytes)

/-- A float instruction computes the same. -/
theorem repeats_floats (operation : FloatOperation) (arity : Nat) :
    (floats operation arity table slots instruction).Repeats
      (floats operation arity next others instruction') := by
  refine .word fun resultType => .word fun result =>
    .bind (repeats_readIds arity) fun operands => ?_
  exact repeats_compute
    (follows_evaluateFloats shows.typesFollow operation resultType result fun id _ => shows id)

/-- An extended instruction computes the same. -/
theorem repeats_extInst :
    (extInst table slots instruction).Repeats (extInst next others instruction') := by
  refine .word fun resultType => .word fun result => .word fun setId => .word fun number => ?_
  refine .computed (shows setId).follows_extendedSet fun set => ?_
  split
  · rename_i known _
    refine .bind (repeats_readIds known.arity) fun operands => ?_
    exact repeats_compute (follows_evaluateFloats shows.typesFollow known.operation resultType
      result fun id _ => shows id)
  · exact leads_throw

end

end Execution

open Execution OperandReader in
/-- A handler that yields an effect yields the same from a table that shows what the first one
shows. -/
theorem handler_repeats {table next : Table} {slots others : Slots}
    {instruction : Instruction} (instruction' : Instruction) {handler : ExecutionHandler}
    (shows : table.Shows next) (inputs : slots.inputs = others.inputs)
    (registered : executionTable.get? instruction.opcode = some handler) :
    (handler table slots instruction).Repeats (handler next others instruction') := by
  obtain ⟨opcode, known, registered⟩ := Option.bind_eq_some_iff.mp registered
  -- Every handler that is registered reads the table and the inputs alone.
  cases opcode with
  | nop | line | noLine | functionParameter =>
      cases registered
      exact .bind repeats_drain fun _ => leads_pure rfl
  | label =>
      cases registered
      exact .word fun _ => leads_pure rfl
  | returnVoid =>
      cases registered
      exact leads_pure rfl
  | variableDecl =>
      cases registered
      exact .bind (repeats_readVariable shows) fun answer => leads_pure rfl
  | load =>
      cases registered
      exact repeats_load shows inputs
  | store =>
      cases registered
      exact repeats_store shows
  | compositeConstruct =>
      cases registered
      exact repeats_compositeConstruct shows
  | compositeExtract =>
      cases registered
      exact repeats_compositeExtract shows
  | fNegate | fAdd | fSub | fMul | fDiv | vectorTimesScalar | dot =>
      cases registered
      exact repeats_floats shows _ _
  | extInst =>
      cases registered
      exact repeats_extInst shows
  | _ => cases registered

end ShaderMachine
