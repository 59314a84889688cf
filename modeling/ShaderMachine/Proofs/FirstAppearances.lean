import Mathlib.Data.List.Induction
import Mathlib.Data.List.Nodup

/-! # Lists in order of first appearance

A list without its repetitions, each element where it appears first. What is known of such lists
comes from what one more element at the end does to them.

* **`eraseDups_concat`** — one more element is kept if it is new.
* **`nodup_eraseDups`**, **`filter_eraseDups`** and **`map_eraseDups`** — what repetitions have no
  part in. -/

namespace ShaderMachine

variable {α β : Type} [DecidableEq α] [DecidableEq β]

/-- One more element at the end is kept unless it has appeared before. -/
theorem eraseDups_concat (elements : List α) (element : α) :
    (elements ++ [element]).eraseDups =
      if element ∈ elements then elements.eraseDups else elements.eraseDups ++ [element] := by
  rw [List.eraseDups_append]
  split
  · rename_i known
    simp [List.removeAll, known]
  · rename_i new
    simp [List.removeAll, new, List.eraseDups_cons]

/-- No element appears twice. -/
theorem nodup_eraseDups (elements : List α) : elements.eraseDups.Nodup := by
  induction elements using List.reverseRecOn with
  | nil => exact List.nodup_nil
  | append_singleton elements element hyp =>
      rw [eraseDups_concat]
      split
      · exact hyp
      · rename_i new
        rw [← List.concat_eq_append]
        exact hyp.concat (mt List.mem_eraseDups.mp new)

/-- Elements may be selected before or after repetitions are left out. -/
theorem filter_eraseDups (p : α → Bool) (elements : List α) :
    elements.eraseDups.filter p = (elements.filter p).eraseDups := by
  induction elements using List.reverseRecOn with
  | nil => rfl
  | append_singleton elements element hyp =>
      rw [eraseDups_concat, List.filter_append]
      by_cases selected : p element = true
      · have same_place : element ∈ elements.filter p ↔ element ∈ elements := by
          rw [List.mem_filter, and_iff_left selected]
        rw [List.filter_cons_of_pos selected, List.filter_nil, eraseDups_concat]
        by_cases known : element ∈ elements
        · rw [if_pos known, if_pos (same_place.mpr known), hyp]
        · rw [if_neg known, if_neg (mt same_place.mp known), List.filter_append, hyp,
            List.filter_cons_of_pos selected, List.filter_nil]
      · rw [List.filter_cons_of_neg selected, List.filter_nil, List.append_nil, ← hyp]
        split
        · rfl
        · rw [List.filter_append, List.filter_cons_of_neg selected, List.filter_nil,
            List.append_nil]

/-- Repetitions stay repetitions, and come from no other elements, where different elements are
renamed differently. -/
theorem map_eraseDups {f : α → β} {elements : List α}
    (injective : ∀ first ∈ elements, ∀ second ∈ elements, f first = f second → first = second) :
    elements.eraseDups.map f = (elements.map f).eraseDups := by
  induction elements using List.reverseRecOn with
  | nil => rfl
  | append_singleton elements element hyp =>
      have among : ∀ first ∈ elements, first ∈ elements ++ [element] := fun _ mem =>
        List.mem_append_left _ mem
      have last : element ∈ elements ++ [element] :=
        List.mem_append_right _ List.mem_cons_self
      have same_place : f element ∈ elements.map f ↔ element ∈ elements := by
        refine ⟨fun mem => ?_, List.mem_map_of_mem⟩
        obtain ⟨other, other_mem, same⟩ := List.mem_map.mp mem
        exact injective other (among other other_mem) element last same ▸ other_mem
      have earlier := hyp fun first first_mem second second_mem =>
        injective first (among first first_mem) second (among second second_mem)
      rw [List.map_append, List.map_singleton, eraseDups_concat, eraseDups_concat]
      by_cases known : element ∈ elements
      · rw [if_pos known, if_pos (same_place.mpr known), earlier]
      · rw [if_neg known, if_neg (mt same_place.mp known), List.map_append, earlier,
          List.map_singleton]

end ShaderMachine
