import ShaderMachine.Proofs.LaneCode

/-! # Composite float instructions

Some float instructions do what several others do one after the other. They give the same bytes as
these, although the others write every value in between and read it again.

* **`Table.Expands`** — composite instructions, and the code that does the same.
* **`Machine.expansions_exact`** — a composite instruction gives what this code gives. -/

namespace ShaderMachine

/-! ## Composite instructions -/

/-- The composite float instructions, and code that computes what they do: every result between has
a type of the right size, is read again before another one takes its place, and takes the place of
no operand that is read later. -/
inductive Table.Expands (table : Table) (α : Type) [Lane α] : FloatLine → List FloatLine → Prop
  /-- A vector times a scalar is its product with copies of the scalar. -/
  | vectorTimesScalar {type result vector scalar scratch splat : Id} {count : Nat}
      (positive : 0 < count) (size : table.sizeOf type = .ok (count * Lane.byteCount α))
      (same : table.sizeOf scratch = table.sizeOf type) (apart : splat ≠ vector) :
      Expands table α ⟨.core .vectorTimesScalar, type, result, [vector, scalar]⟩
        [⟨.construct, scratch, splat, List.replicate count scalar⟩,
          ⟨.core .fMul, type, result, [vector, splat]⟩]
  /-- A value is moved into an interval from below, then from above. -/
  | fClamp {type result x low high scratch t : Id}
      (same : table.sizeOf scratch = table.sizeOf type) (apart : t ≠ high) :
      Expands table α ⟨.extended .fClamp, type, result, [x, low, high]⟩
        [⟨.extended .fMax, scratch, t, [x, low]⟩, ⟨.extended .fMin, type, result, [t, high]⟩]
  /-- A blend is the sum of one value times what is left of the weight and the other times it. -/
  | fMix {type result x y a one scratch₁ scratch₂ scratch₃ t₁ t₂ t₃ : Id} {count : Nat}
      (size : table.sizeOf type = .ok (count * Lane.byteCount α))
      (same₁ : table.sizeOf scratch₁ = table.sizeOf type)
      (same₂ : table.sizeOf scratch₂ = table.sizeOf type)
      (same₃ : table.sizeOf scratch₃ = table.sizeOf type)
      (ones : Holds table.value? one (List.replicate count (Lane.one : α)))
      (apart₁ : t₁ ∉ [x, y, a]) (apart₂ : t₂ ∉ [y, a, t₃]) :
      Expands table α ⟨.extended .fMix, type, result, [x, y, a]⟩
        [⟨.core .fSub, scratch₁, t₁, [one, a]⟩, ⟨.core .fMul, scratch₂, t₂, [x, t₁]⟩,
          ⟨.core .fMul, scratch₃, t₃, [y, a]⟩, ⟨.core .fAdd, type, result, [t₂, t₃]⟩]
  /-- What is above the floor is the difference to the floor. -/
  | fract {type result x scratch t : Id}
      (same : table.sizeOf scratch = table.sizeOf type) (apart : t ≠ x) :
      Expands table α ⟨.extended .fract, type, result, [x]⟩
        [⟨.extended .floor, scratch, t, [x]⟩, ⟨.core .fSub, type, result, [x, t]⟩]
  /-- An inverse square root is one over the square root. -/
  | inverseSqrt {type result x one scratch t : Id} {count : Nat}
      (size : table.sizeOf type = .ok (count * Lane.byteCount α))
      (same : table.sizeOf scratch = table.sizeOf type)
      (ones : Holds table.value? one (List.replicate count (Lane.one : α))) (apart : t ≠ one) :
      Expands table α ⟨.extended .inverseSqrt, type, result, [x]⟩
        [⟨.extended .sqrt, scratch, t, [x]⟩, ⟨.core .fDiv, type, result, [one, t]⟩]
  /-- A length is the square root of the dot product of a vector with itself. -/
  | length {type result x scratch t : Id} (same : table.sizeOf scratch = table.sizeOf type) :
      Expands table α ⟨.extended .length, type, result, [x]⟩
        [⟨.core .dot, scratch, t, [x, x]⟩, ⟨.extended .sqrt, type, result, [t]⟩]
  /-- A distance is the length of the difference. -/
  | distance {type result p q scratch t : Id}
      (size : ∀ value, table.value p = .ok value → table.sizeOf scratch = .ok value.bytes.length) :
      Expands table α ⟨.extended .distance, type, result, [p, q]⟩
        [⟨.core .fSub, scratch, t, [p, q]⟩, ⟨.extended .length, type, result, [t]⟩]
  /-- A vector is brought to length one by its quotients by copies of its length. -/
  | normalize {type result x scratch splatScratch t splat : Id} {count : Nat}
      (positive : 0 < count) (size : table.sizeOf type = .ok (count * Lane.byteCount α))
      (one_lane : table.sizeOf scratch = .ok (Lane.byteCount α))
      (same : table.sizeOf splatScratch = table.sizeOf type) (apart : t ≠ x) (apart' : splat ≠ x) :
      Expands table α ⟨.extended .normalize, type, result, [x]⟩
        [⟨.extended .length, scratch, t, [x]⟩,
          ⟨.construct, splatScratch, splat, List.replicate count t⟩,
          ⟨.core .fDiv, type, result, [x, splat]⟩]

/-- The form of instructions of a name, if they are float instructions. -/
def FloatName.form? : FloatName → Option FloatForm
  | construct => none
  | core opcode => opcode.floatForm?
  | extended known => some known.form

/-- What comes of the operands of a float instruction is computed in its form. -/
theorem FloatName.exists_hasForm {name : FloatName} {form : FloatForm}
    (is_form : name.form? = some form) : ∃ operation : FloatOperation,
      (∀ (α : Type) [Lane α], name.run α = operation.run α) ∧ operation.HasForm form := by
  cases name with
  | construct => cases is_form
  | core opcode =>
      obtain ⟨operation, is_operation, has_form, -⟩ := Opcode.exists_hasForm is_form
      refine ⟨operation, fun α _ => funext fun operands => ?_, has_form⟩
      simp only [run, is_operation]
  | extended known =>
      cases is_form
      exact ⟨known.operation, fun _ _ => rfl, known.hasForm⟩

namespace Table.Expands

variable {table : Table} {α : Type} [Lane α] {composite : FloatLine} {expansion : List FloatLine}
  (expands : table.Expands α composite expansion)

include expands

/-- The last line gives the result of the composite one. -/
theorem exists_last : ∃ last, expansion.getLast? = some last ∧ last.type = composite.type ∧
    last.result = composite.result := by
  cases expands <;> exact ⟨_, rfl, rfl, rfl⟩

/-- The last line gives the same value. -/
theorem finalValue?_eq (lossless : Lane.IsLossless α) :
    finalValue? α table.size? table.value? expansion =
      composite.value? α table.size? table.value? := by
  have same_size {type other : Id} (same : table.sizeOf other = table.sizeOf type) :
      table.size? other = table.size? type := congrArg Except.toOption same
  have some_size {type : Id} {size : Nat} (is_size : table.sizeOf type = .ok size) :
      table.size? type = some size := congrArg Except.toOption is_size
  cases expands with
  | vectorTimesScalar positive size same apart =>
      exact finalValue?_scale lossless positive (same_size same) (some_size size) apart.symm
  | fClamp same apart => exact finalValue?_clamp lossless (same_size same) apart.symm
  | fMix size same₁ same₂ same₃ ones apart₁ apart₂ =>
      exact finalValue?_mix lossless (same_size same₁) (same_size same₂) (same_size same₃)
        (some_size size) ones apart₁ apart₂
  | fract same apart => exact finalValue?_fract lossless (same_size same) apart.symm
  | inverseSqrt size same ones apart =>
      exact finalValue?_inverseSqrt lossless (same_size same) (some_size size) ones apart.symm
  | length same => exact finalValue?_length lossless (same_size same)
  | distance size =>
      refine finalValue?_distance lossless fun value is_value => some_size (size value ?_)
      exact toOption_eq_some_iff.mp is_value
  | normalize positive size one_lane same apart apart' =>
      exact finalValue?_normalize lossless positive (some_size one_lane) (same_size same)
        (some_size size) apart.symm apart'.symm

end Table.Expands

namespace Machine

variable {machine : Machine} {width : Word} {α : Type} [Lane α]

/-- A composite float instruction yields the very bytes that its primitive ones yield one after the
other, with floats of 32 and of 64 bits, if all types in between are such of floats of that width
and all results may be given values. If its operands fit, and what comes of them has the size of its
type, then it does yield some. -/
theorem expansions_exact (configuration : Configuration) (lanes : LanesOf width α)
    {composite : FloatLine} {expansion : List FloatLine}
    (expands : machine.table.Expands α composite expansion)
    (widths : ∀ line ∈ expansion, machine.table.floatWidth line.type = .ok width)
    (places : ∀ line ∈ expansion, machine.table.MayHold line.result)
    {instruction : Instruction} {instructions : List Instruction}
    (written : machine.table.Writes instruction composite)
    (code : List.Forall₂ machine.table.Writes instructions expansion) :
    (∀ value, machine.Yields configuration instruction composite.result value ↔
      machine.YieldsAtLast configuration composite.result value instructions) ∧
    ∀ form size, composite.name.form? = some form →
      machine.table.Accepts form composite.type composite.operands size →
      machine.table.sizeOf composite.type = .ok size →
      ∃ value, machine.Yields configuration instruction composite.result value ∧
        machine.YieldsAtLast configuration composite.result value instructions := by
  obtain ⟨last, is_last, type_eq, result_eq⟩ := expands.exists_last
  have mem := List.mem_of_getLast? is_last
  have is_width : machine.table.floatWidth composite.type = .ok width := type_eq ▸ widths last mem
  have place : machine.table.MayHold composite.result := result_eq ▸ places last mem
  -- A composite instruction and the code of its expansion yield what their lines compute.
  have yields_iff (value : Value) :
      machine.Yields configuration instruction composite.result value ↔
        composite.value? α machine.table.size? machine.table.value? = some value := by
    rw [← yieldsAtLast_singleton]
    exact yieldsAtLast_iff lanes (.cons written .nil) (List.forall_mem_singleton.mpr is_width)
      (List.forall_mem_singleton.mpr place) rfl
  have last_iff (value : Value) :
      machine.YieldsAtLast configuration composite.result value instructions ↔
        composite.value? α machine.table.size? machine.table.value? = some value := by
    rw [← result_eq, yieldsAtLast_iff lanes code widths places is_last,
      expands.finalValue?_eq lanes.isLossless]
  refine ⟨fun value => (yields_iff value).trans (last_iff value).symm, ?_⟩
  -- Where the form of the composite accepts its operands, that is something.
  intro form size is_form accepts has_size
  obtain ⟨operation, run_eq, has_form⟩ := FloatName.exists_hasForm is_form
  have computed : ∃ bytes, floatBytes machine.table operation composite.type composite.result
      composite.operands = .ok bytes ∧ bytes.length = size := (floatBytes_iff has_form).mpr accepts
  obtain ⟨bytes, made, rfl⟩ := computed
  have given : composite.value? α machine.table.size? machine.table.value? =
      some ⟨composite.type, bytes⟩ := FloatLine.value?_eq_some_iff.mpr
    ⟨rfl, (floatBytes_eq_ok_iff lanes is_width (run_eq α)).mp made,
      toOption_eq_some_iff.mpr has_size⟩
  exact ⟨_, (yields_iff _).mpr given, (last_iff _).mpr given⟩

/-- A module with vectors of two doubles: ones, and two others to be blended by a third. -/
def blending : Module where
  header := .ofBound 14 0
  instructions := [⟨5, 11, [9, 0x4C534C47, 0x6474732E, 0x3035342E, 0]⟩, ⟨11, 22, [1, 64]⟩,
    ⟨14, 23, [2, 1, 2]⟩, ⟨18, 43, [1, 3, 0, 0x3FF00000]⟩, ⟨23, 43, [1, 4, 0, 0x3FE00000]⟩,
    ⟨28, 44, [2, 5, 3, 3]⟩, ⟨33, 44, [2, 6, 3, 4]⟩, ⟨38, 44, [2, 7, 4, 3]⟩, ⟨43, 44, [2, 8, 4, 4]⟩]
  metadata := {}
  instructionCount := 9

/-- The vectors are blended at once, and by a difference, two products and a sum. -/
theorem expansions_exact_blending : ∃ machine value, Attained blending machine ∧
    machine.Yields {} ⟨48, 12, [2, 10, 9, 46, 6, 7, 8]⟩ 10 value ∧
    machine.YieldsAtLast {} 10 value [⟨48, 131, [2, 11, 5, 8]⟩, ⟨53, 133, [2, 12, 6, 11]⟩,
      ⟨58, 133, [2, 13, 7, 8]⟩, ⟨63, 129, [2, 10, 12, 13]⟩] := by
  have evaluated : ((ofModule {} blending).toOption.any fun machine =>
      machine.table.floatWidth 2 = .ok 64 && machine.table.sizeOf 2 = .ok 16 &&
      machine.table.value 5 = .ok ⟨2, encodeLanes [(Lane.one : Double), Lane.one]⟩ &&
      (([6, 7, 8].mapM machine.table.value).toOption.any
        fun values => lengthsOf values = [16, 16, 16]) &&
      (Execution.extendedSet machine.table 9).toOption.any (· = .glsl) &&
      [10, 11, 12, 13].all fun id => machine.table.get id = .ok {}) = true := by decide +kernel
  obtain ⟨machine, set_up, evaluated⟩ := exists_of_any evaluated
  simp only [Bool.and_eq_true, decide_eq_true_eq] at evaluated
  obtain ⟨⟨⟨⟨⟨is_width, has_size⟩, is_ones⟩, vectors⟩, imported⟩, fresh⟩ := evaluated
  obtain ⟨values, read, lengths_eq⟩ := exists_of_any vectors
  obtain ⟨set, is_set, is_glsl⟩ := exists_of_any imported
  rw [decide_eq_true_eq] at lengths_eq is_glsl
  subst is_glsl
  -- Everything that the general theorem asks for was evaluated above.
  have place (id : Id) (mem : id ∈ [10, 11, 12, 13]) : machine.table.MayHold id :=
    ⟨_, of_decide_eq_true (List.all_eq_true.mp fresh id mem), .inl rfl⟩
  have ones : Holds machine.table.value? 5 (List.replicate 2 (Lane.one : Double)) := by
    rw [Holds, Table.value?, is_ones]
    rfl
  have size : machine.table.sizeOf 2 = .ok (2 * Lane.byteCount Double) := has_size
  have written : machine.table.Writes ⟨48, 12, [2, 10, 9, 46, 6, 7, 8]⟩
      ⟨.extended .fMix, 2, 10, [6, 7, 8]⟩ := .extended (by decide) is_set rfl rfl
  have subtracts : Opcode.ofNumber? 131 = some .fSub := by decide
  have multiplies : Opcode.ofNumber? 133 = some .fMul := by decide
  have adds : Opcode.ofNumber? 129 = some .fAdd := by decide
  have expands : machine.table.Expands Double ⟨.extended .fMix, 2, 10, [6, 7, 8]⟩
      [⟨.core .fSub, 2, 11, [5, 8]⟩, ⟨.core .fMul, 2, 12, [6, 11]⟩, ⟨.core .fMul, 2, 13, [7, 8]⟩,
        ⟨.core .fAdd, 2, 10, [12, 13]⟩] :=
    .fMix size rfl rfl rfl ones (by decide) (by decide)
  have code : List.Forall₂ machine.table.Writes
      [⟨48, 131, [2, 11, 5, 8]⟩, ⟨53, 133, [2, 12, 6, 11]⟩, ⟨58, 133, [2, 13, 7, 8]⟩,
        ⟨63, 129, [2, 10, 12, 13]⟩] _ :=
    .cons (.core subtracts rfl rfl rfl) (.cons (.core multiplies rfl rfl rfl)
      (.cons (.core multiplies rfl rfl rfl) (.cons (.core adds rfl rfl rfl) .nil)))
  have accepts : machine.table.Accepts (.lanewise 3) 2 [6, 7, 8] 16 := by
    refine ⟨8, values, .inr ⟨is_width, rfl⟩, read, ?_, ?_⟩
    · rw [lengths_eq, FloatForm.fits_of_combined (.inl rfl)]
      exact ⟨rfl, by simp, by decide⟩
    · rw [lengths_eq]
      rfl
  obtain ⟨value, yields, at_last⟩ := (expansions_exact {} .double expands (by simp [is_width])
    (by simp [place]) written code).2 _ 16 rfl accepts has_size
  exact ⟨machine, value, .reachable (.setUp set_up), yields, at_last⟩

end Machine

end ShaderMachine
