import Mathlib

/-!
# The trimmed fields of a separated list

A list is split at every separator and each part loses the blanks on both sides. Blanks around the
whole list are blanks around a field (`fields_trim`), so trimming before the split changes nothing,
and what stands before a separator adds fields in front and leaves the others (`fields_append`).
-/

namespace Separated

variable {α : Type*} (blank : α → Bool)

/-- A list without the blanks on both sides. -/
def trim (s : List α) : List α := (s.dropWhile blank).rdropWhile blank

@[simp] theorem trim_nil : trim blank ([] : List α) = [] := rfl

variable {blank}

theorem trim_cons {a : α} (h : blank a) (s : List α) : trim blank (a :: s) = trim blank s := by
  rw [trim, List.dropWhile_cons_of_pos h, trim]

theorem trim_concat {a : α} (h : blank a) (s : List α) : trim blank (s ++ [a]) = trim blank s := by
  rw [trim, List.dropWhile_append]
  split
  · rename_i hs
    rw [List.isEmpty_iff] at hs
    simp [trim, hs, List.dropWhile_cons_of_pos h]
  · rw [List.rdropWhile_concat_pos _ _ _ h, trim]

variable [DecidableEq α] (blank) (sep : α)

/-- The parts between separators, trimmed. -/
def fields (s : List α) : List (List α) := (s.splitOn sep).map (trim blank)

@[simp] theorem fields_nil : fields blank sep [] = [[]] := rfl

theorem fields_append (s t : List α) :
    fields blank sep (s ++ sep :: t) = fields blank sep s ++ fields blank sep t := by
  rw [fields, List.splitOn_append_cons_self, List.map_append, fields, fields]

variable {blank sep}

theorem fields_of_notMem {s : List α} (h : sep ∉ s) : fields blank sep s = [trim blank s] := by
  rw [fields, List.splitOn_eq_singleton h, List.map_singleton]

section Blanks

variable (hsep : ¬ blank sep)
include hsep

theorem fields_cons_blank {a : α} (ha : blank a) (s : List α) :
    fields blank sep (a :: s) = fields blank sep s := by
  have hne : sep ≠ a := fun h => hsep (h ▸ ha)
  by_cases hs : sep ∈ s
  · obtain ⟨pre, suf, rfl, hpre⟩ := List.eq_append_cons_of_mem hs
    rw [← List.cons_append, fields_append, fields_append, fields_of_notMem hpre,
      fields_of_notMem (List.not_mem_cons_of_ne_of_not_mem hne hpre), trim_cons ha]
  · rw [fields_of_notMem hs, fields_of_notMem (List.not_mem_cons_of_ne_of_not_mem hne hs),
      trim_cons ha]

theorem fields_concat_blank {a : α} (ha : blank a) (s : List α) :
    fields blank sep (s ++ [a]) = fields blank sep s := by
  have hne : sep ≠ a := fun h => hsep (h ▸ ha)
  by_cases hs : sep ∈ s
  · obtain ⟨pre, suf, rfl⟩ := List.append_of_mem hs
    rw [List.append_assoc, List.cons_append, fields_append, fields_append,
      fields_concat_blank ha suf]
  · rw [fields_of_notMem hs, fields_of_notMem (by simp [hs, hne]), trim_concat ha]
termination_by s.length

theorem fields_dropWhile (s : List α) :
    fields blank sep (s.dropWhile blank) = fields blank sep s := by
  induction s with
  | nil => rfl
  | cons a s ih =>
    by_cases ha : blank a
    · rw [List.dropWhile_cons_of_pos ha, ih, fields_cons_blank hsep ha]
    · rw [List.dropWhile_cons_of_neg ha]

theorem fields_rdropWhile (s : List α) :
    fields blank sep (s.rdropWhile blank) = fields blank sep s := by
  induction s using List.reverseRecOn with
  | nil => rfl
  | append_singleton s a ih =>
    by_cases ha : blank a
    · rw [List.rdropWhile_concat_pos _ _ _ ha, ih, fields_concat_blank hsep ha]
    · rw [List.rdropWhile_concat_neg _ _ _ ha]

/-- Trimming the whole before the split changes no field. -/
theorem fields_trim (s : List α) : fields blank sep (trim blank s) = fields blank sep s := by
  rw [trim, fields_rdropWhile hsep, fields_dropWhile hsep]

end Blanks

end Separated
