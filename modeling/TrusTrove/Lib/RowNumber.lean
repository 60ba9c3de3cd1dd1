import Mathlib

/-!
# Numbered rows of a partition

`ROW_NUMBER() OVER (PARTITION BY … ORDER BY …)`: the rows of each part are numbered from one in the
order of a sort key. Where no two rows have one sort key, the rows numbered past one are those that
are not the least of their part (`numbered_past_one_iff`).
-/

namespace Sql

variable {ρ κ β : Type} [DecidableEq κ] [LinearOrder β]

/-- The rows of one part, in the order of the sort key. -/
def sortedPart (part : ρ → κ) (sortKey : ρ → β) (rows : List ρ) (k : κ) : List ρ :=
  (rows.filter (part · = k)).insertionSort fun a b => sortKey a ≤ sortKey b

/-- Each row with its number in its part. -/
def rowNumbers (part : ρ → κ) (sortKey : ρ → β) (rows : List ρ) : List (ρ × ℕ) :=
  (rows.map part).dedup.flatMap fun k => (sortedPart part sortKey rows k).zipIdx 1

variable {part : ρ → κ} {sortKey : ρ → β} {rows : List ρ}

theorem mem_sortedPart {k : κ} {a : ρ} :
    a ∈ sortedPart part sortKey rows k ↔ a ∈ rows ∧ part a = k := by
  simp [sortedPart]

theorem mem_rowNumbers {a : ρ} {n : ℕ} :
    (a, n) ∈ rowNumbers part sortKey rows ↔
      (a, n) ∈ (sortedPart part sortKey rows (part a)).zipIdx 1 := by
  simp only [rowNumbers, List.mem_flatMap, List.mem_dedup, List.mem_map]
  constructor
  · rintro ⟨k, -, h⟩
    obtain ⟨-, rfl⟩ := mem_sortedPart.1 (List.fst_mem_of_mem_zipIdx h)
    exact h
  · intro h
    have hmem := (mem_sortedPart.1 (List.fst_mem_of_mem_zipIdx h)).1
    exact ⟨part a, ⟨a, hmem, rfl⟩, h⟩

/-- A row is numbered past one exactly when another of its part comes before it. -/
theorem numbered_past_one_iff (hnd : rows.Nodup)
    (hinj : ∀ a ∈ rows, ∀ b ∈ rows, sortKey a = sortKey b → a = b) {a : ρ} (ha : a ∈ rows) :
    (∃ n, 1 < n ∧ (a, n) ∈ rowNumbers part sortKey rows) ↔
      ∃ b ∈ rows, part b = part a ∧ sortKey b < sortKey a := by
  have hsorted : (sortedPart part sortKey rows (part a)).Pairwise
      fun a b => sortKey a ≤ sortKey b :=
    List.pairwise_insertionSort _ _
  have hnodup : (sortedPart part sortKey rows (part a)).Nodup :=
    (List.perm_insertionSort _ _).nodup_iff.2 (hnd.filter _)
  have hmem : a ∈ sortedPart part sortKey rows (part a) := mem_sortedPart.2 ⟨ha, rfl⟩
  simp only [mem_rowNumbers]
  rcases hpart : sortedPart part sortKey rows (part a) with _ | ⟨c, rest⟩
  · rw [hpart] at hmem
    cases hmem
  rw [hpart] at hsorted hnodup
  obtain ⟨hc, hcpart⟩ := mem_sortedPart.1 (hpart ▸ List.mem_cons_self : c ∈ sortedPart part sortKey
    rows (part a))
  obtain ⟨hle, -⟩ := List.pairwise_cons.1 hsorted
  obtain ⟨hnot, -⟩ := List.nodup_cons.1 hnodup
  have hrest : (∃ n, 1 < n ∧ (a, n) ∈ (c :: rest).zipIdx 1) ↔ a ∈ rest := by
    rw [List.zipIdx_cons]
    constructor
    · rintro ⟨n, hn, h⟩
      rcases List.mem_cons.1 h with h | h
      · simp only [Prod.mk.injEq] at h
        omega
      · exact List.fst_mem_of_mem_zipIdx h
    · intro h
      obtain ⟨i, hi⟩ := List.mem_iff_getElem?.1 h
      refine ⟨2 + i, by omega, List.mem_cons_of_mem _ ?_⟩
      exact List.mk_add_mem_zipIdx_iff_getElem?.2 hi
  rw [hrest]
  constructor
  · intro h
    have hne : c ≠ a := fun hca => hnot (hca ▸ h)
    exact ⟨c, hc, hcpart, lt_of_le_of_ne (hle a h) fun heq => hne (hinj c hc a ha heq)⟩
  · rintro ⟨b, hb, hbpart, hlt⟩
    rw [hpart] at hmem
    rcases List.mem_cons.1 hmem with rfl | h
    · have hb' := hpart ▸ mem_sortedPart.2 ⟨hb, hbpart⟩
      rcases List.mem_cons.1 hb' with rfl | hb'
      · exact absurd hlt (lt_irrefl _)
      · exact absurd (hle b hb') (not_le.2 hlt)
    · exact h

end Sql
