import Mathlib

/-!
# Stable sorting of views

`ORDER BY` with ties in the order of the rows is an insertion sort. Under a total preorder it
commutes with a selection (`filter_insertionSort`), and a list sorts to a sublist of what a longer
one sorts to (`insertionSort_sublist`): an element is inserted before the same others whether or not
more of them are there.
-/

namespace StableOrder

variable {α : Type*} {r : α → α → Prop} [DecidableRel r]

/-- An element goes to the front of a list it comes before. -/
theorem orderedInsert_eq_cons {a : α} : ∀ {s : List α}, (∀ b ∈ s, r a b) →
    s.orderedInsert r a = a :: s
  | [], _ => rfl
  | b :: s, h => by rw [List.orderedInsert_cons, if_pos (h b List.mem_cons_self)]

/-- A selection that keeps what another does, and more. -/
theorem filterMap_sublist {β : Type*} {f g : β → Option α}
    (h : ∀ b a, f b = some a → g b = some a) :
    ∀ l : List β, (l.filterMap f).Sublist (l.filterMap g)
  | [] => .refl _
  | b :: l => by
    have ih := filterMap_sublist h l
    rcases hf : f b with _ | a
    · rw [List.filterMap_cons_none hf]
      exact ih.trans ((List.sublist_cons_self b l).filterMap g)
    · rw [List.filterMap_cons_some hf, List.filterMap_cons_some (h b a hf)]
      exact ih.cons_cons a

section Transitive

variable [IsTrans α r]

theorem filter_orderedInsert (p : α → Bool) (a : α) : ∀ {s : List α}, s.Pairwise r →
    (s.orderedInsert r a).filter p =
      if p a then (s.filter p).orderedInsert r a else s.filter p
  | [], _ => by
    by_cases ha : p a = true <;> simp [ha]
  | b :: s, hs => by
    obtain ⟨hb, hs⟩ := List.pairwise_cons.1 hs
    rw [List.orderedInsert_cons]
    split_ifs with hab ha ha
    · have hfront : ∀ c ∈ (b :: s).filter p, r a c := by
        intro c hc
        rcases List.mem_cons.1 (List.mem_of_mem_filter hc) with rfl | hc
        · exact hab
        · exact trans_of r hab (hb c hc)
      rw [orderedInsert_eq_cons hfront, List.filter_cons_of_pos ha]
    · rw [List.filter_cons_of_neg ha]
    · have ih := filter_orderedInsert p a hs
      rw [if_pos ha] at ih
      by_cases hp : p b = true
      · rw [List.filter_cons_of_pos hp, List.filter_cons_of_pos hp, ih, List.orderedInsert_cons,
          if_neg hab]
      · rw [List.filter_cons_of_neg hp, List.filter_cons_of_neg hp, ih]
    · have ih := filter_orderedInsert p a hs
      rw [if_neg ha] at ih
      by_cases hp : p b = true
      · rw [List.filter_cons_of_pos hp, List.filter_cons_of_pos hp, ih]
      · rw [List.filter_cons_of_neg hp, List.filter_cons_of_neg hp, ih]

variable [Std.Total r]

/-- A selection of the sorted rows is the selected rows, sorted. -/
theorem filter_insertionSort (p : α → Bool) : ∀ l : List α,
    (l.insertionSort r).filter p = (l.filter p).insertionSort r
  | [] => rfl
  | a :: l => by
    rw [List.insertionSort_cons, filter_orderedInsert p a (List.pairwise_insertionSort r l),
      filter_insertionSort p l]
    by_cases ha : p a = true
    · rw [if_pos ha, List.filter_cons_of_pos ha, List.insertionSort_cons]
    · rw [if_neg ha, List.filter_cons_of_neg ha]

/-- Rows that come to be among others stay in their order. -/
theorem insertionSort_sublist {l l' : List α} (h : l.Sublist l') :
    (l.insertionSort r).Sublist (l'.insertionSort r) := by
  induction h with
  | slnil => exact .refl _
  | @cons l l' a h ih =>
    rw [List.insertionSort_cons]
    exact ih.trans (List.sublist_orderedInsert a _)
  | @cons_cons l l' a h ih =>
    rw [List.insertionSort_cons, List.insertionSort_cons]
    exact ih.orderedInsert_sublist a (List.pairwise_insertionSort r l')

end Transitive

end StableOrder
