import TrusTrove.Lib.Table

/-!
# Aggregates over keyed tables

`COUNT`, `SUM` and `AVG` with a `FILTER` over the rows of a table. A count does not go down while
every counted row is still there under its key and still counted (`count_le_count`), and it is the
number of things of an abstract map when each counted row is the image of one of them
(`count_eq_ncard`). An average lies between the bounds of its terms, and so does what it rounds to.
-/

namespace Sql

/-- `::INTEGER` of a `NUMERIC`: to the nearest, halves away from zero. -/
def roundNumeric (q : ℚ) : ℤ := if 0 ≤ q then ⌊q + 1 / 2⌋ else ⌈q - 1 / 2⌉

theorem le_roundNumeric {a : ℤ} {q : ℚ} (h : a ≤ q) : a ≤ roundNumeric q := by
  unfold roundNumeric
  split_ifs with hq
  · rw [Int.le_floor]
    linarith
  · have hle : (a : ℚ) - 1 / 2 ≤ q - 1 / 2 := by linarith
    have hceil : (a : ℚ) - 1 / 2 ≤ ⌈q - 1 / 2⌉ := hle.trans (Int.le_ceil _)
    have hlt : (a : ℚ) - 1 < ⌈q - 1 / 2⌉ := by linarith
    have : a - 1 < ⌈q - 1 / 2⌉ := by exact_mod_cast hlt
    omega

theorem roundNumeric_le {b : ℤ} {q : ℚ} (h : q ≤ b) : roundNumeric q ≤ b := by
  unfold roundNumeric
  split_ifs with hq
  · have hfloor : (⌊q + 1 / 2⌋ : ℚ) ≤ b + 1 / 2 := (Int.floor_le _).trans (by linarith)
    have hlt : (⌊q + 1 / 2⌋ : ℚ) < b + 1 := by linarith
    have : ⌊q + 1 / 2⌋ < b + 1 := by exact_mod_cast hlt
    omega
  · rw [Int.ceil_le]
    linarith

namespace Table

variable {ρ κ : Type} {key : ρ → κ}

/-- `COUNT(*) FILTER (WHERE p)` -/
def count (t : Table ρ key) (p : ρ → Bool) : ℕ := t.rows.countP p

/-- `COALESCE(SUM(f) FILTER (WHERE p), 0)` -/
def sum {M : Type} [AddMonoid M] (t : Table ρ key) (p : ρ → Bool) (f : ρ → M) : M :=
  ((t.rows.filter p).map f).sum

/-- `AVG(f) FILTER (WHERE p)`: `NULL` without a row. -/
def avg (t : Table ρ key) (p : ρ → Bool) (f : ρ → ℚ) : Option ℚ :=
  if t.count p = 0 then none else some (t.sum p f / t.count p)

section Rows

variable {t : Table ρ key} {p q : ρ → Bool}

theorem count_mono (h : ∀ r ∈ t.rows, p r = true → q r = true) : t.count p ≤ t.count q :=
  List.countP_mono_left h

theorem count_congr (h : ∀ r ∈ t.rows, p r = q r) : t.count p = t.count q :=
  List.countP_congr fun r hr => by rw [h r hr]

/-- Rows counted twice over are none. -/
theorem count_add (h : ∀ r ∈ t.rows, ¬(p r = true ∧ q r = true)) :
    t.count p + t.count q = t.count fun r => p r || q r := by
  unfold count
  generalize t.rows = rows at h
  induction rows with
  | nil => rfl
  | cons r rows ih =>
    have hr := h r List.mem_cons_self
    have ih := ih fun x hx => h x (List.mem_cons_of_mem r hx)
    rcases hp : p r <;> rcases hq : q r <;> simp [hp, hq] at hr ⊢ <;> omega

theorem avg_isSome {f : ρ → ℚ} : (t.avg p f).isSome ↔ 0 < t.count p := by
  unfold avg
  split_ifs with h
  · simp [h]
  · simpa using Nat.pos_of_ne_zero h

section Order

variable {M : Type} [AddCommMonoid M] [PartialOrder M] [IsOrderedAddMonoid M] {f g : ρ → M}

theorem sum_nonneg (h : ∀ r ∈ t.rows, p r = true → 0 ≤ f r) : 0 ≤ t.sum p f := by
  refine List.sum_nonneg fun x hx => ?_
  obtain ⟨r, hr, rfl⟩ := List.mem_map.1 hx
  obtain ⟨hr, hp⟩ := List.mem_filter.1 hr
  exact h r hr hp

theorem sum_le_sum (h : ∀ r ∈ t.rows, p r = true → f r ≤ g r) :
    t.sum p f ≤ t.sum p g :=
  List.sum_le_sum fun r hr => h r (List.mem_filter.1 hr).1 (List.mem_filter.1 hr).2

end Order

theorem sum_const (c : ℚ) : t.sum p (fun _ => c) = t.count p * c := by
  simp [sum, count, List.countP_eq_length_filter]

theorem avg_mem_Icc {f : ρ → ℚ} {a b x : ℚ} (h : ∀ r ∈ t.rows, p r = true → a ≤ f r ∧ f r ≤ b)
    (hx : t.avg p f = some x) : a ≤ x ∧ x ≤ b := by
  unfold avg at hx
  split_ifs at hx with hzero
  obtain rfl := Option.some.inj hx
  have hpos : (0 : ℚ) < t.count p := by exact_mod_cast Nat.pos_of_ne_zero hzero
  have hlow := sum_le_sum fun r hr hp => (h r hr hp).1
  have hhigh := sum_le_sum fun r hr hp => (h r hr hp).2
  rw [sum_const] at hlow hhigh
  constructor
  · rw [le_div_iff₀ hpos]
    linarith
  · rw [div_le_iff₀ hpos]
    linarith

end Rows

section Keys

variable [DecidableEq κ] {t u : Table ρ key} {p q : ρ → Bool}

omit [DecidableEq κ] in
theorem nodup_filter_keys (t : Table ρ key) (p : ρ → Bool) : ((t.rows.filter p).map key).Nodup :=
  t.nodup.sublist (List.filter_sublist.map key)

theorem mem_filter_keys {k : κ} :
    k ∈ (t.rows.filter p).map key ↔ ∃ r, t.find? k = some r ∧ p r = true := by
  constructor
  · intro h
    obtain ⟨r, hr, rfl⟩ := List.mem_map.1 h
    obtain ⟨hr, hp⟩ := List.mem_filter.1 hr
    exact ⟨r, find?_of_mem hr, hp⟩
  · rintro ⟨r, hr, hp⟩
    exact List.mem_map.2 ⟨r, List.mem_filter.2 ⟨mem_of_find? hr, hp⟩, key_of_find? hr⟩

omit [DecidableEq κ] in
theorem count_eq_length_keys (t : Table ρ key) (p : ρ → Bool) :
    t.count p = ((t.rows.filter p).map key).length := by
  rw [List.length_map, ← List.countP_eq_length_filter]
  rfl

/-- Rows that stay, and stay counted, are counted. -/
theorem count_le_count (h : ∀ k r, t.find? k = some r → p r = true →
      ∃ r', u.find? k = some r' ∧ q r' = true) :
    t.count p ≤ u.count q := by
  rw [count_eq_length_keys, count_eq_length_keys]
  refine (List.subperm_of_subset (nodup_filter_keys t p) fun k hk => ?_).length_le
  obtain ⟨r, hr, hp⟩ := mem_filter_keys.1 hk
  exact mem_filter_keys.2 (h k r hr hp)

section Image

variable {ι : Type} {S : Set ι} {name : ι → κ}

/-- The keys of the counted rows are the names of the things. -/
theorem image_eq_keys (h : ∀ k, (∃ r, t.find? k = some r ∧ p r = true) ↔ ∃ i ∈ S, name i = k) :
    name '' S = ((t.rows.filter p).map key).toFinset := by
  ext k
  rw [List.coe_toFinset, Set.mem_ofPred_eq, mem_filter_keys, h]
  rfl

/-- The counted rows are the images of things, one of each. -/
theorem count_eq_ncard (hname : Function.Injective name)
    (h : ∀ k, (∃ r, t.find? k = some r ∧ p r = true) ↔ ∃ i ∈ S, name i = k) :
    t.count p = S.ncard := by
  rw [← Set.ncard_image_of_injective S hname, image_eq_keys h, Set.ncard_coe_finset,
    List.toFinset_card_of_nodup (nodup_filter_keys t p), count_eq_length_keys]

/-- The sum over the counted rows is the sum over the things. -/
theorem sum_eq_finsum {M : Type} [AddCommMonoid M] {f : ρ → M} {g : ι → M}
    (hname : Function.Injective name)
    (h : ∀ k, (∃ r, t.find? k = some r ∧ p r = true) ↔ ∃ i ∈ S, name i = k)
    (hg : ∀ i ∈ S, ∀ r, t.find? (name i) = some r → f r = g i) :
    t.sum p f = ∑ᶠ i ∈ S, g i := by
  have hvalue : ∀ r ∈ t.rows.filter p, f r = ((t.find? (key r)).map f).getD 0 := by
    intro r hr
    rw [find?_of_mem (List.mem_filter.1 hr).1]
    rfl
  calc t.sum p f
      = (((t.rows.filter p).map key).map fun k => ((t.find? k).map f).getD 0).sum := by
        rw [sum, List.map_map]
        exact congrArg List.sum (List.map_congr_left hvalue)
    _ = ∑ k ∈ ((t.rows.filter p).map key).toFinset, ((t.find? k).map f).getD 0 :=
        (List.sum_toFinset _ (nodup_filter_keys t p)).symm
    _ = ∑ᶠ k ∈ name '' S, ((t.find? k).map f).getD 0 := by
        rw [image_eq_keys h, finsum_mem_coe_finset]
    _ = ∑ᶠ i ∈ S, ((t.find? (name i)).map f).getD 0 :=
        finsum_mem_image hname.injOn
    _ = ∑ᶠ i ∈ S, g i := by
        refine finsum_mem_congr rfl fun i hi => ?_
        obtain ⟨r, hr, -⟩ := (h (name i)).2 ⟨i, hi, rfl⟩
        rw [hr]
        exact hg i hi r hr

end Image

end Keys

end Table

end Sql
