import Mathlib

/-!
# Sliding windows

Instants logged in the order they happen, and how many of them fall into an interval of a fixed
length. A log that admits an instant only while fewer than `n` of the last window are in it has at
most `n` in every half-open interval of that length (`length_within_append_le`).
-/

namespace SlidingWindow

variable {τ : Type*} [AddCommGroup τ] [LinearOrder τ]

/-- The instants in the half-open interval of length `w` from `s`. -/
def within (w s : τ) (ts : List τ) : List τ := ts.filter fun t => s ≤ t ∧ t < s + w

/-- The instants less than `w` before `now`. -/
def recent (w now : τ) (ts : List τ) : List τ := ts.filter fun t => now - w < t

variable {w s now now' t : τ} {ts us : List τ}

theorem recent_append : recent w now (ts ++ us) = recent w now ts ++ recent w now us :=
  List.filter_append ..

theorem recent_eq_nil (h : ∀ t ∈ ts, t ≤ now - w) : recent w now ts = [] := by
  simpa [recent, List.filter_eq_nil_iff] using h

variable [IsOrderedAddMonoid τ]

/-- What is recent later was recent before. -/
theorem recent_recent (h : now ≤ now') : recent w now' (recent w now ts) = recent w now' ts := by
  unfold recent
  rw [List.filter_filter]
  apply List.filter_congr
  intro t _
  have hlt : now' - w < t → now - w < t := (sub_le_sub_right h w).trans_lt
  simpa using hlt

theorem recent_mono (h : now ≤ now') (hrec : recent w now ts = recent w now us) :
    recent w now' ts = recent w now' us := by
  rw [← recent_recent h, hrec, recent_recent h]

/-- Every instant of an interval that ends with `t` in it is recent at `t`. -/
theorem length_within_le_recent (ht : t < s + w) :
    (within w s ts).length ≤ (recent w t ts).length := by
  refine (List.monotone_filter_right ts fun u hu => ?_).length_le
  simp only [decide_eq_true_eq] at hu ⊢
  rw [sub_lt_iff_lt_add]
  exact ht.trans_le (add_le_add_left hu.1 w)

/-- Logging `t` keeps every interval within `n` if fewer than `n` instants were recent. -/
theorem length_within_append_le {n : ℕ} (hb : ∀ s, (within w s ts).length ≤ n)
    (hrec : (recent w t ts).length < n) : (within w s (ts ++ [t])).length ≤ n := by
  unfold within at *
  rw [List.filter_append, List.length_append]
  by_cases ht : s ≤ t ∧ t < s + w
  · have hle : (within w s ts).length ≤ (recent w t ts).length := length_within_le_recent ht.2
    unfold within at hle
    rw [List.filter_cons_of_pos (by simpa using ht), List.filter_nil, List.length_singleton]
    omega
  · rw [List.filter_cons_of_neg (by simpa using ht), List.filter_nil]
    exact hb s

end SlidingWindow
