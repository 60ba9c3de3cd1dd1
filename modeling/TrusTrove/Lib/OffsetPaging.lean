import Mathlib

/-!
# Pages by offset

A page is a window of the sorted rows, so a row is on it exactly when its rank, the number of rows
before it, is in the window (`mem_page_iff`). Rows that arrive push a rank up and never down. So a
walk that asks for page after page while rows arrive meets a row once its rank has come within the
pages asked for (`exists_page`), and a rank that ends up past them, though it moved by at most a
page, was past them all along (`beyond_of_le_add`).
-/

namespace Paging

variable {α : Type*} (r : α → α → Prop) [DecidableRel r]

/-- `ORDER BY r LIMIT limit OFFSET offset` -/
def page (rows : List α) (offset limit : ℕ) : List α :=
  ((rows.insertionSort r).drop offset).take limit

/-- The number of rows before one: those that it does not come before. -/
def rank (rows : List α) (a : α) : ℕ := rows.countP fun b => ¬ r a b

theorem rank_append (rows new : List α) (a : α) :
    rank r (rows ++ new) a = rank r rows a + rank r new a := List.countP_append

theorem rank_le_length (rows : List α) (a : α) : rank r rows a ≤ rows.length :=
  List.countP_le_length

variable {r} {rows : List α} {a : α}

/-- In sorted rows a row's place is its rank. -/
theorem getElem?_eq_some_iff_rank [Std.Refl r] : ∀ {rows : List α} {i : ℕ},
    rows.Pairwise r → rows.Pairwise (fun a b => ¬ r b a) → a ∈ rows →
      (rows[i]? = some a ↔ i = rank r rows a)
  | b :: rows, i, hs, hstrict, ha => by
    obtain ⟨hb, hs⟩ := List.pairwise_cons.mp hs
    obtain ⟨hnb, hstrict⟩ := List.pairwise_cons.mp hstrict
    have hself : r a a := refl_of r a
    rcases List.mem_cons.mp ha with rfl | ha
    · have hzero : rank r (a :: rows) a = 0 := by
        simp only [rank, List.countP_eq_zero, decide_eq_true_eq, not_not, List.forall_mem_cons]
        exact ⟨hself, hb⟩
      rw [hzero]
      constructor
      · intro h
        rcases i with _ | i
        · rfl
        · exact absurd hself (hnb a (List.mem_of_getElem? h))
      · rintro rfl
        rfl
    · have hsucc : rank r (b :: rows) a = rank r rows a + 1 := by
        simp [rank, hnb a ha]
      rw [hsucc]
      rcases i with _ | i
      · simp only [List.getElem?_cons_zero, Option.some.injEq]
        constructor
        · rintro rfl
          exact absurd hself (hnb b ha)
        · omega
      · rw [List.getElem?_cons_succ, getElem?_eq_some_iff_rank hs hstrict ha]
        omega

/-- Of rows no two of which share a place in the order, a page holds those with their rank in its
window. -/
theorem mem_page_iff [Std.Total r] [IsTrans α r]
    (hstrict : rows.Pairwise fun a b => ¬ (r a b ∧ r b a)) {offset limit : ℕ} :
    a ∈ page r rows offset limit ↔
      a ∈ rows ∧ offset ≤ rank r rows a ∧ rank r rows a < offset + limit := by
  have hrefl : Std.Refl r := ⟨fun a => (Std.Total.total a a).elim id id⟩
  have hperm := List.perm_insertionSort r rows
  have hs := List.pairwise_insertionSort r rows
  have hsorted : (rows.insertionSort r).Pairwise fun a b => ¬ r b a := by
    have hstrict := (hperm.pairwise_iff fun {a b} h hba => h hba.symm).2 hstrict
    exact hs.imp₂ (fun a b hab h hba => h ⟨hab, hba⟩) hstrict
  have hrank : rank r (rows.insertionSort r) a = rank r rows a := hperm.countP_eq _
  constructor
  · intro h
    obtain ⟨i, hi⟩ := List.mem_iff_getElem?.1 h
    rw [page, List.getElem?_take] at hi
    split_ifs at hi with hlt
    rw [List.getElem?_drop] at hi
    have hmem := List.mem_of_getElem? hi
    have := (getElem?_eq_some_iff_rank hs hsorted hmem).1 hi
    exact ⟨hperm.mem_iff.1 hmem, by omega, by omega⟩
  · rintro ⟨hmem, hle, hlt⟩
    have hi := (getElem?_eq_some_iff_rank hs hsorted (hperm.mem_iff.2 hmem)).2 hrank.symm
    refine List.mem_iff_getElem?.2 ⟨rank r rows a - offset, ?_⟩
    rw [page, List.getElem?_take, if_pos (by omega), List.getElem?_drop]
    rwa [Nat.add_sub_cancel' hle]

theorem page_eq_nil_iff {offset limit : ℕ} (hlimit : 0 < limit) :
    page r rows offset limit = [] ↔ rows.length ≤ offset := by
  rw [page, List.take_eq_nil_iff, List.drop_eq_nil_iff, List.length_insertionSort]
  omega

/-- The first pages, one after the other, are the first rows. -/
theorem flatten_pages (rows : List α) (limit : ℕ) : ∀ n : ℕ,
    ((List.range n).map fun k => page r rows (limit * k) limit).flatten
      = (rows.insertionSort r).take (limit * n)
  | 0 => by simp
  | n + 1 => by
    rw [List.range_succ, List.map_append, List.flatten_append, flatten_pages rows limit n]
    simp [page, Nat.mul_succ, List.take_add]

section Walk

variable {f : ℕ → ℕ} {limit last : ℕ}

/-- A rank that comes within the pages asked for is in the window of one of them. -/
theorem exists_page (hf : Monotone f) :
    ∀ {last : ℕ}, f last < limit * (last + 1) →
      ∃ p ≤ last, limit * p ≤ f p ∧ f p < limit * (p + 1)
  | 0, h => ⟨0, le_rfl, by simp, h⟩
  | last + 1, h => by
    rcases Nat.lt_or_ge (f last) (limit * (last + 1)) with hlt | hge
    · obtain ⟨p, hp, hpage⟩ := exists_page hf hlt
      exact ⟨p, hp.trans (Nat.le_succ last), hpage⟩
    · exact ⟨last + 1, le_rfl, hge.trans (hf (Nat.le_succ last)), h⟩

/-- A rank that ends up past the pages asked for, having moved by a page at most, never was within
them. -/
theorem beyond_of_le_add (hmoved : ∀ p ≤ last, f last ≤ f p + limit)
    (h : limit * (last + 1) ≤ f last) {p : ℕ} (hp : p ≤ last) : limit * (p + 1) ≤ f p := by
  rcases hp.eq_or_lt with rfl | hlt
  · exact h
  · have hstep : limit * (p + 1) + limit ≤ limit * (last + 1) := by
      calc limit * (p + 1) + limit = limit * (p + 1 + 1) := by ring
        _ ≤ limit * (last + 1) := Nat.mul_le_mul_left _ (by omega)
    have := hmoved p hp
    omega

end Walk

end Paging
