import TrusTrove.RateHeaders
import TrusTrove.Proofs.RateLimit

/-!
# What the headers of the rate limit promise

`RemainingAttempts` counts as `Allow` does, and when nothing is left its `resetAt` is the first
instant `Allow` grants again. `Retry-After` is the time to that instant cut down to whole seconds: a
client that waits so long is a fraction of a second early, unless the answer took that fraction to
reach it.
-/

namespace TrusTrove

open SlidingWindow

namespace Double

theorem abs_lt_of_unit {n : ℤ} {q : ℚ} (hn : |n| < 2 ^ 52) (hlo : (n : ℚ) ≤ q) (hhi : q ≤ n + 1) :
    |q| < 2 ^ 53 := by
  have hn' : |(n : ℚ)| < 2 ^ 52 := by exact_mod_cast hn
  obtain ⟨hnlo, hnhi⟩ := abs_lt.1 hn'
  have hdouble : (2 : ℚ) ^ 53 = 2 ^ 52 + 2 ^ 52 := by norm_num
  have hone : (1 : ℚ) ≤ 2 ^ 52 := by norm_num
  rw [abs_lt]
  constructor <;> linarith

/-- Rounding does not leave the unit interval between two integers a number is in. -/
theorem ofRat_mem_unit {n : ℤ} {q : ℚ} (hn : |n| < 2 ^ 52) (hlo : (n : ℚ) ≤ q) (hhi : q ≤ n + 1) :
    ∃ x : ℚ, ofRat q = finite x ∧ (n : ℚ) ≤ x ∧ x ≤ n + 1 := by
  have hq := abs_lt_of_unit hn hlo hhi
  have hlog : Int.log 2 |q| < 53 := by
    rcases eq_or_ne q 0 with rfl | hne
    · simp
    · exact (Int.lt_zpow_iff_log_lt (by norm_num) (abs_pos.2 hne)).1 (by exact_mod_cast hq)
  obtain ⟨k, hk⟩ : ∃ k : ℕ, Max.max (Int.log 2 |q| - 52) (-1074) = -(k : ℤ) :=
    ⟨(Max.max (Int.log 2 |q| - 52) (-1074)).natAbs, by omega⟩
  have hscale : q / 2 ^ (-(k : ℤ)) = q * 2 ^ k := by
    rw [zpow_neg, zpow_natCast, div_inv_eq_mul]
  have hpow : (0 : ℚ) < 2 ^ k := by positivity
  have hroundlo : n * 2 ^ k ≤ roundEven (q * 2 ^ k) := by
    refine le_roundEven ?_
    push_cast
    exact mul_le_mul_of_nonneg_right hlo hpow.le
  have hroundhi : roundEven (q * 2 ^ k) ≤ (n + 1) * 2 ^ k := by
    refine roundEven_le ?_
    push_cast
    exact mul_le_mul_of_nonneg_right hhi hpow.le
  have hx : (roundEven (q * 2 ^ k) : ℚ) * 2 ^ (-(k : ℤ)) = roundEven (q * 2 ^ k) / 2 ^ k := by
    rw [zpow_neg, zpow_natCast, div_eq_mul_inv]
  have hlo' : (n : ℚ) ≤ roundEven (q * 2 ^ k) / 2 ^ k := by
    rw [le_div_iff₀ hpow]
    exact_mod_cast hroundlo
  have hhi' : (roundEven (q * 2 ^ k) : ℚ) / 2 ^ k ≤ n + 1 := by
    rw [div_le_iff₀ hpow]
    exact_mod_cast hroundhi
  have hbound : |(roundEven (q * 2 ^ k) : ℚ) / 2 ^ k| < 2 ^ 1024 :=
    (abs_lt_of_unit hn hlo' hhi').trans (pow_lt_pow_right₀ one_lt_two (by norm_num))
  refine ⟨roundEven (q * 2 ^ k) / 2 ^ k, ?_, hlo', hhi'⟩
  simp only [ofRat, hk, hscale, hx, if_pos hbound]

theorem roundEven_le_add_half (q : ℚ) : (roundEven q : ℚ) ≤ q + 1 / 2 := by
  have hfloor := Int.floor_le q
  unfold roundEven
  split_ifs with h₁ h₂ h₃
  · linarith
  · push_cast
    linarith
  · linarith
  · push_cast
    linarith

/-- A number below `2 ^ m` is rounded up by at most half a unit in its last place. -/
theorem ofRat_le_add {q x : ℚ} {m : ℤ} (hm : -1021 ≤ m) (hq : |q| < 2 ^ m)
    (hx : ofRat q = finite x) : x ≤ q + 2 ^ (m - 54) := by
  have hlog : q ≠ 0 → Int.log 2 |q| < m := fun hne =>
    (Int.lt_zpow_iff_log_lt (by norm_num) (abs_pos.2 hne)).1 (by exact_mod_cast hq)
  rcases eq_or_ne q 0 with rfl | hne
  · have hzero := ofRat_intCast (n := 0) (by norm_num)
    rw [Int.cast_zero, hx] at hzero
    rw [finite.inj hzero]
    positivity
  · obtain ⟨e, he⟩ : ∃ e, e = Max.max (Int.log 2 |q| - 52) (-1074) := ⟨_, rfl⟩
    have hle : e ≤ m - 53 := by
      have := hlog hne
      omega
    have hvalue : x = roundEven (q / 2 ^ e) * 2 ^ e := by
      simp only [ofRat, ← he] at hx
      split_ifs at hx
      exact (finite.inj hx).symm
    have hscale : (0 : ℚ) < 2 ^ e := zpow_pos (by norm_num) e
    have hunit : (2 : ℚ) ^ e ≤ 2 ^ (m - 53) := zpow_le_zpow_right₀ (by norm_num) hle
    have hhalf : (2 : ℚ) ^ (m - 53) = 2 * 2 ^ (m - 54) := by
      rw [← zpow_one_add₀ two_ne_zero]
      congr 1
      ring
    calc x = roundEven (q / 2 ^ e) * 2 ^ e := hvalue
      _ ≤ (q / 2 ^ e + 1 / 2) * 2 ^ e :=
        mul_le_mul_of_nonneg_right (roundEven_le_add_half _) hscale.le
      _ = q + 2 ^ e / 2 := by
        field_simp
      _ ≤ q + 2 ^ (m - 54) := by linarith

end Double

section Seconds

/-- The seconds of a duration are rounded to the next whole number. -/
def RoundsUp (d : ℤ) : Prop := durationSeconds d = .finite (d / 10 ^ 9 + 1 : ℤ)

/-- The sum of the two doubles is rounded within the second the fraction is in. -/
theorem durationSeconds_mem {d m : ℤ} (hwhole : |d.tdiv (10 ^ 9)| + |m| < 2 ^ 51)
    (hlo : m * 10 ^ 9 ≤ d.tmod (10 ^ 9)) (hhi : d.tmod (10 ^ 9) ≤ (m + 1) * 10 ^ 9) :
    ∃ x : ℚ, durationSeconds d = .finite x ∧ ((d.tdiv (10 ^ 9) + m : ℤ) : ℚ) ≤ x
      ∧ x ≤ (d.tdiv (10 ^ 9) + m : ℤ) + 1 := by
  unfold durationSeconds
  generalize d.tdiv (10 ^ 9) = sec at *
  generalize d.tmod (10 ^ 9) = nsec at *
  have hsum := abs_add_le sec m
  have hsec := abs_nonneg sec
  have hm := abs_nonneg m
  have hlo' : (m : ℚ) ≤ (nsec : ℚ) / 10 ^ 9 := by
    rw [le_div_iff₀ (by norm_num)]
    exact_mod_cast hlo
  have hhi' : (nsec : ℚ) / 10 ^ 9 ≤ m + 1 := by
    rw [div_le_iff₀ (by norm_num)]
    exact_mod_cast hhi
  obtain ⟨frac, hfrac, hfraclo, hfrachi⟩ := Double.ofRat_mem_unit (n := m) (by omega) hlo' hhi'
  obtain ⟨x, hx, hxlo, hxhi⟩ := Double.ofRat_mem_unit (n := sec + m) (q := sec + frac) (by omega)
    (by push_cast; linarith) (by push_cast; linarith)
  simp only [Double.ofRat_intCast (n := sec) (by omega), hfrac]
  exact ⟨x, hx, hxlo, hxhi⟩

/-- The whole seconds of a positive duration, or one more when they are rounded up. -/
theorem truncate_durationSeconds {d : ℤ} (h0 : 0 < d) (hd : d < 2 ^ 63) :
    (durationSeconds d).truncate = d / 10 ^ 9 ∧ ¬ RoundsUp d
      ∨ (durationSeconds d).truncate = d / 10 ^ 9 + 1 ∧ RoundsUp d := by
  have hdiv : d.tdiv (10 ^ 9) = d / 10 ^ 9 := Int.tdiv_eq_ediv_of_nonneg h0.le
  have hmod : d.tmod (10 ^ 9) = d % 10 ^ 9 := Int.tmod_eq_emod_of_nonneg h0.le
  obtain ⟨x, hx, hlo, hhi⟩ := durationSeconds_mem (d := d) (m := 0)
    (by rw [hdiv, abs_of_nonneg (by omega)]; simp; omega) (by omega) (by omega)
  rw [hdiv, add_zero] at hlo hhi
  have hx0 : 0 ≤ x := le_trans (by exact_mod_cast Int.ediv_nonneg h0.le (by norm_num)) hlo
  rw [RoundsUp, hx, Double.truncate, if_pos hx0]
  rcases hhi.eq_or_lt with heq | hlt
  · right
    have hcast : x = ((d / 10 ^ 9 + 1 : ℤ) : ℚ) := by
      rw [heq]
      push_cast
      rfl
    rw [hcast, Int.floor_intCast]
    exact ⟨rfl, rfl⟩
  · left
    refine ⟨Int.floor_eq_iff.2 ⟨hlo, hlt⟩, fun hup => ?_⟩
    have hcast := Double.finite.inj hup
    push_cast at hcast
    exact absurd hcast hlt.ne

/-- Below `2 ^ 23` seconds the fraction of a second is too far from the next for that. -/
theorem not_roundsUp {d : ℤ} (h0 : 0 < d) (hd : d < 2 ^ 23 * 10 ^ 9) : ¬ RoundsUp d := by
  have hdiv : d.tdiv (10 ^ 9) = d / 10 ^ 9 := Int.tdiv_eq_ediv_of_nonneg h0.le
  have hmod : d.tmod (10 ^ 9) = d % 10 ^ 9 := Int.tmod_eq_emod_of_nonneg h0.le
  intro hup
  unfold RoundsUp durationSeconds at hup
  rw [hdiv, hmod] at hup
  have hsec : 0 ≤ d / 10 ^ 9 ∧ d / 10 ^ 9 + 1 ≤ 2 ^ 23 := by omega
  have hnsec : 0 ≤ d % 10 ^ 9 ∧ d % 10 ^ 9 ≤ 10 ^ 9 - 1 := by omega
  generalize d / 10 ^ 9 = sec at *
  generalize d % 10 ^ 9 = nsec at *
  have hpart : (nsec : ℚ) / 10 ^ 9 ≤ 1 - 1 / 10 ^ 9 := by
    rw [div_le_iff₀ (by norm_num)]
    have : (nsec : ℚ) ≤ 10 ^ 9 - 1 := by exact_mod_cast hnsec.2
    linarith
  have hpart0 : (0 : ℚ) ≤ (nsec : ℚ) / 10 ^ 9 :=
    div_nonneg (by exact_mod_cast hnsec.1) (by norm_num)
  obtain ⟨frac, hfrac, hfrac0, -⟩ := Double.ofRat_mem_unit (n := 0) (q := (nsec : ℚ) / 10 ^ 9)
    (by norm_num) (by exact_mod_cast hpart0) (by push_cast; linarith)
  have hfracle : frac ≤ (nsec : ℚ) / 10 ^ 9 + 2 ^ (-54 : ℤ) :=
    Double.ofRat_le_add (m := 0) (by norm_num)
      (by rw [abs_of_nonneg hpart0, zpow_zero]; linarith) hfrac
  have htiny : (2 : ℚ) ^ (-54 : ℤ) < 1 / 10 ^ 9 := by norm_num
  have hsec' : (0 : ℚ) ≤ sec ∧ (sec : ℚ) + 1 ≤ 2 ^ (23 : ℤ) := by
    constructor
    · exact_mod_cast hsec.1
    · exact_mod_cast hsec.2
  push_cast at hfrac0
  have hsum : |(sec : ℚ) + frac| < 2 ^ (23 : ℤ) := by
    rw [abs_of_nonneg (by linarith)]
    linarith
  simp only [Double.ofRat_intCast (n := sec) (by rw [abs_of_nonneg hsec.1]; omega), hfrac] at hup
  have hle := Double.ofRat_le_add (by norm_num) hsum hup
  push_cast at hle
  norm_num at hle hfracle hpart
  linarith

end Seconds

section Earliest

variable {now t : ℤ} {valid : List ℤ}

theorem earliest_le (now : ℤ) : ∀ valid : List ℤ,
    earliest now valid ≤ now ∧ ∀ t ∈ valid, earliest now valid ≤ t
  | [] => ⟨le_rfl, by simp⟩
  | u :: valid => by
    obtain ⟨hnow, hle⟩ := earliest_le (if u < now then u else now) valid
    rw [earliest, List.foldl_cons]
    rw [earliest] at hnow hle
    have hmin : (if u < now then u else now) ≤ now ∧ (if u < now then u else now) ≤ u := by
      split_ifs <;> omega
    refine ⟨hnow.trans hmin.1, fun t ht => ?_⟩
    rcases List.mem_cons.1 ht with rfl | ht
    · exact hnow.trans hmin.2
    · exact hle t ht

theorem earliest_cases (now : ℤ) : ∀ valid : List ℤ,
    earliest now valid = now ∨ earliest now valid ∈ valid
  | [] => .inl rfl
  | u :: valid => by
    rw [earliest, List.foldl_cons]
    rcases earliest_cases (if u < now then u else now) valid with heq | hmem
    · rw [earliest] at heq
      rw [heq]
      split_ifs with h
      · exact .inr (by simp)
      · exact .inl rfl
    · rw [earliest] at hmem
      exact .inr (List.mem_cons_of_mem _ hmem)

theorem earliest_mem (hne : valid ≠ []) (hle : ∀ t ∈ valid, t ≤ now) :
    earliest now valid ∈ valid := by
  rcases earliest_cases now valid with heq | hmem
  · obtain ⟨t, ht⟩ := List.exists_mem_of_ne_nil valid hne
    have hge := (earliest_le now valid).2 t ht
    rw [heq] at hge ⊢
    rw [le_antisymm hge (hle t ht)]
    exact ht
  · exact hmem

theorem earliest_eq_of_le {now' : ℤ} (hne : valid ≠ []) (hle : ∀ t ∈ valid, t ≤ now)
    (hnow : now ≤ now') : earliest now' valid = earliest now valid := by
  have hmem := earliest_mem hne hle
  have hmem' := earliest_mem hne fun t ht => (hle t ht).trans hnow
  exact le_antisymm ((earliest_le now' valid).2 _ hmem) ((earliest_le now valid).2 _ hmem')

end Earliest

namespace InvoiceRateLimiter

variable {rl : InvoiceRateLimiter} {clientAddr : String} {now t : ℤ}

theorem allow_limit (rl : InvoiceRateLimiter) (addr : String) (now : ℤ) :
    (rl.allow addr now).2.limit = rl.limit := by
  rw [allow_snd]
  rfl

theorem allow_window (rl : InvoiceRateLimiter) (addr : String) (now : ℤ) :
    (rl.allow addr now).2.window = rl.window := by
  rw [allow_snd]
  rfl

theorem allow_attempts (rl : InvoiceRateLimiter) (addr : String) (now : ℤ) :
    (rl.allow addr now).2.attempts addr = recent rl.window now (rl.attempts addr)
      ++ if (rl.allow addr now).1 then [now] else [] := by
  rw [allow_snd, attempts_setBucket, if_pos rfl]

/-- `RemainingAttempts` counts as `Allow` does. -/
theorem remainingAttempts_pos_iff (rl : InvoiceRateLimiter) (addr : String) (now : ℤ) :
    0 < (rl.remainingAttempts addr now).1 ↔ (rl.allow addr now).1 = true := by
  rw [allow_fst]
  unfold remainingAttempts attempts recent
  cases rl.clients addr with
  | none => simp
  | some bucket =>
    simp only [Option.elim_some]
    split_ifs <;> omega

theorem remainingAttempts_snd (h : recent rl.window now (rl.attempts clientAddr) ≠ []) :
    (rl.remainingAttempts clientAddr now).2
      = earliest now (recent rl.window now (rl.attempts clientAddr)) + rl.window := by
  unfold remainingAttempts
  unfold attempts recent at *
  cases hc : rl.clients clientAddr with
  | none => simp [hc] at h
  | some bucket => simp

/-- A client that has spent its limit is granted again once its earliest attempt leaves the
window. -/
theorem allow_iff_of_full (hfull : ((rl.attempts clientAddr).length : ℤ) = rl.limit)
    (hne : rl.attempts clientAddr ≠ []) (hle : ∀ t ∈ rl.attempts clientAddr, t ≤ now) (s : ℤ) :
    (rl.allow clientAddr s).1 = true ↔ earliest now (rl.attempts clientAddr) + rl.window ≤ s := by
  rw [allow_fst, ← hfull, Nat.cast_lt, recent, List.length_filter_lt_length_iff_exists]
  simp only [decide_eq_true_eq, not_lt]
  constructor
  · rintro ⟨t, ht, hout⟩
    have := (earliest_le now _).2 t ht
    omega
  · intro h
    exact ⟨_, earliest_mem hne hle, by omega⟩

end InvoiceRateLimiter

/-- The limiter after a client's calls of `Allow`. -/
def allowRun (clientAddr : String) (times : List ℤ) (rl : InvoiceRateLimiter) :
    InvoiceRateLimiter :=
  times.foldl (fun rl t => (rl.allow clientAddr t).2) rl

/-- What holds of the client's bucket after calls up to `now`. -/
structure WithinLimit (rl : InvoiceRateLimiter) (clientAddr : String) (now : ℤ) : Prop where
  limit_pos : 1 ≤ rl.limit
  window_pos : 0 < rl.window
  length_le : ((rl.attempts clientAddr).length : ℤ) ≤ rl.limit
  attempts_le : ∀ t ∈ rl.attempts clientAddr, t ≤ now

namespace WithinLimit

variable {rl : InvoiceRateLimiter} {clientAddr : String} {now t : ℤ}

theorem later (h : WithinLimit rl clientAddr now) (hle : now ≤ t) : WithinLimit rl clientAddr t :=
  ⟨h.limit_pos, h.window_pos, h.length_le, fun u hu => (h.attempts_le u hu).trans hle⟩

theorem allow (h : WithinLimit rl clientAddr now) (hle : now ≤ t) :
    WithinLimit (rl.allow clientAddr t).2 clientAddr t := by
  have hfst := InvoiceRateLimiter.allow_fst rl clientAddr t
  have hrec : (recent rl.window t (rl.attempts clientAddr)).length
      ≤ (rl.attempts clientAddr).length := List.length_filter_le ..
  have hlen := h.length_le
  refine ⟨?_, ?_, ?_, fun u hu => ?_⟩
  · rw [InvoiceRateLimiter.allow_limit]
    exact h.limit_pos
  · rw [InvoiceRateLimiter.allow_window]
    exact h.window_pos
  · rw [InvoiceRateLimiter.allow_attempts, InvoiceRateLimiter.allow_limit, List.length_append]
    split_ifs with hok
    · have := hfst.1 hok
      simp
      omega
    · simp
      omega
  · rw [InvoiceRateLimiter.allow_attempts] at hu
    rcases List.mem_append.1 hu with hold | hnew
    · exact (h.attempts_le u (List.mem_of_mem_filter hold)).trans hle
    · split_ifs at hnew
      · exact (List.mem_singleton.1 hnew).le
      · cases hnew

theorem run : ∀ {times : List ℤ} {rl : InvoiceRateLimiter} {now t : ℤ},
    WithinLimit rl clientAddr now → (∀ u ∈ times, now ≤ u) → times.Pairwise (· ≤ ·) →
    now ≤ t → (∀ u ∈ times, u ≤ t) → WithinLimit (allowRun clientAddr times rl) clientAddr t
  | [], _, _, _, h, _, _, hnow, _ => h.later hnow
  | u :: times, rl, now, t, h, hfrom, hsorted, _, hto => by
    rw [List.pairwise_cons] at hsorted
    change WithinLimit (allowRun clientAddr times (rl.allow clientAddr u).2) clientAddr t
    exact run (h.allow (hfrom u (by simp))) hsorted.1 hsorted.2 (hto u (by simp))
      fun v hv => hto v (by simp [hv])

/-- When nothing is left, the bucket holds as many attempts as the limit, all in the window. -/
theorem full (h : WithinLimit rl clientAddr now)
    (hspent : rl.limit ≤ (recent rl.window now (rl.attempts clientAddr)).length) :
    recent rl.window now (rl.attempts clientAddr) = rl.attempts clientAddr
      ∧ ((rl.attempts clientAddr).length : ℤ) = rl.limit ∧ rl.attempts clientAddr ≠ [] := by
  have hlen := h.length_le
  have hrec : (recent rl.window now (rl.attempts clientAddr)).length
      ≤ (rl.attempts clientAddr).length := List.length_filter_le ..
  have hlimit := h.limit_pos
  refine ⟨List.filter_sublist.eq_of_length (by unfold recent at *; omega), by omega, fun hnil => ?_⟩
  rw [hnil] at hspent
  simp [recent] at hspent
  omega

/-- When nothing is left, `resetAt` is the first instant at which `Allow` grants again. -/
theorem resetAt_isLeast (h : WithinLimit rl clientAddr now)
    (hzero : (rl.remainingAttempts clientAddr now).1 = 0) :
    IsLeast {s | now ≤ s ∧ (rl.allow clientAddr s).1 = true}
      (rl.remainingAttempts clientAddr now).2 := by
  have hspent : rl.limit ≤ (recent rl.window now (rl.attempts clientAddr)).length := by
    by_contra hlt
    have hpos := (InvoiceRateLimiter.remainingAttempts_pos_iff rl clientAddr now).2
      ((InvoiceRateLimiter.allow_fst rl clientAddr now).2 (not_le.1 hlt))
    omega
  obtain ⟨hrecent, hfull, hne⟩ := h.full hspent
  have hallow := InvoiceRateLimiter.allow_iff_of_full hfull hne h.attempts_le
  have hin : now - rl.window < earliest now (rl.attempts clientAddr) := by
    have hmem : earliest now (rl.attempts clientAddr)
        ∈ recent rl.window now (rl.attempts clientAddr) := by
      rw [hrecent]
      exact earliest_mem hne h.attempts_le
    simpa using (List.mem_filter.1 hmem).2
  rw [InvoiceRateLimiter.remainingAttempts_snd (by rwa [hrecent]), hrecent]
  refine ⟨⟨by omega, (hallow _).2 le_rfl⟩, fun s hs => (hallow s).1 hs.2⟩

end WithinLimit

section Reached

theorem allowRun_window (clientAddr : String) : ∀ (times : List ℤ) (rl : InvoiceRateLimiter),
    (allowRun clientAddr times rl).window = rl.window
  | [], _ => rfl
  | t :: times, rl =>
    (allowRun_window clientAddr times (rl.allow clientAddr t).2).trans
      (InvoiceRateLimiter.allow_window ..)

theorem new_withinLimit (limit window : ℤ) (clientAddr : String) (now : ℤ) :
    WithinLimit (newInvoiceRateLimiterWithConfig limit window) clientAddr now := by
  have hlimit : 1 ≤ (newInvoiceRateLimiterWithConfig limit window).limit := by
    unfold newInvoiceRateLimiterWithConfig invoiceRateLimit
    simp only []
    split_ifs <;> omega
  refine ⟨hlimit, ?_, ?_, by simp [InvoiceRateLimiter.attempts, newInvoiceRateLimiterWithConfig]⟩
  · unfold newInvoiceRateLimiterWithConfig invoiceRateLimitWindow
    simp only []
    split_ifs <;> omega
  · simp only [InvoiceRateLimiter.attempts, newInvoiceRateLimiterWithConfig, Option.elim_none,
      List.length_nil, Nat.cast_zero] at hlimit ⊢
    omega

theorem reached_withinLimit (limit window : ℤ) (clientAddr : String) {times : List ℤ} {now : ℤ}
    (hsorted : times.Pairwise (· ≤ ·)) (hle : ∀ t ∈ times, t ≤ now) :
    WithinLimit (allowRun clientAddr times (newInvoiceRateLimiterWithConfig limit window))
      clientAddr now := by
  cases times with
  | nil => exact new_withinLimit limit window clientAddr now
  | cons t times =>
    refine WithinLimit.run (new_withinLimit limit window clientAddr t) ?_ hsorted
      (hle t (by simp)) hle
    exact List.forall_mem_cons.2 ⟨le_rfl, (List.pairwise_cons.1 hsorted).1⟩

end Reached

section Retry

/-- A request that is refused and made again after the seconds it was told to wait, counted from
when the answer is received, is granted. -/
def RetryAdmitted (rl : InvoiceRateLimiter) (clientAddr : String) (q : RequestTimes)
    (received : ℤ) : Prop :=
  ∀ response headers retryAfter rl',
    invoiceRateLimitMiddleware rl clientAddr q = (.refused response (some headers), rl') →
    headers.retryAfter = some retryAfter →
    (rl'.allow clientAddr (received + retryAfter * 10 ^ 9)).1 = true

/-- When the earliest attempt that `Allow` counts leaves the window. -/
def expiry (rl : InvoiceRateLimiter) (clientAddr : String) (q : RequestTimes) : ℤ :=
  earliest q.allowed (recent rl.window q.allowed (rl.attempts clientAddr)) + rl.window

/-- The attempt has left the window when the answer is made, or the fraction of a second that is cut
off passes before the answer is received, or the seconds are rounded up. -/
def RetryInTime (rl : InvoiceRateLimiter) (clientAddr : String) (q : RequestTimes)
    (received : ℤ) : Prop :=
  expiry rl clientAddr q ≤ q.answered
    ∨ (expiry rl clientAddr q - q.answered) % 10 ^ 9 ≤ received - q.answered
    ∨ RoundsUp (expiry rl clientAddr q - q.answered)

theorem retryInTime_iff_of_short {rl : InvoiceRateLimiter} {clientAddr : String} {q : RequestTimes}
    {received : ℤ} (hwindow : rl.window < 2 ^ 23 * 10 ^ 9) (hanswered : q.allowed ≤ q.answered) :
    RetryInTime rl clientAddr q received ↔ expiry rl clientAddr q ≤ q.answered
      ∨ (expiry rl clientAddr q - q.answered) % 10 ^ 9 ≤ received - q.answered := by
  refine or_congr_right' fun hheld => or_iff_left ?_
  have hle := (earliest_le q.allowed (recent rl.window q.allowed (rl.attempts clientAddr))).1
  have hexpiry : expiry rl clientAddr q
      = earliest q.allowed (recent rl.window q.allowed (rl.attempts clientAddr)) + rl.window := rfl
  exact not_roundsUp (by omega) (by omega)

theorem retryAfterSeconds_nonneg (resetAt now : ℤ) : 0 ≤ retryAfterSeconds resetAt now := by
  unfold retryAfterSeconds
  simp only []
  split_ifs <;> omega

/-- Waiting the whole seconds of what is left is enough exactly when the rest passes meanwhile. -/
theorem enough_iff {resetAt now received : ℤ} (hreceived : now ≤ received)
    (hd : resetAt - now < 2 ^ 63) :
    resetAt ≤ received + retryAfterSeconds resetAt now * 10 ^ 9 ↔
      resetAt ≤ now ∨ (resetAt - now) % 10 ^ 9 ≤ received - now ∨ RoundsUp (resetAt - now) := by
  rcases le_or_gt resetAt now with hpast | hfuture
  · have := retryAfterSeconds_nonneg resetAt now
    exact ⟨fun _ => .inl hpast, fun _ => by nlinarith⟩
  · have hsub : timeSub resetAt now = resetAt - now := by
      unfold timeSub maxDuration
      omega
    have hdiv := Int.mul_ediv_add_emod (resetAt - now) (10 ^ 9)
    have hquot : 0 ≤ (resetAt - now) / 10 ^ 9 := Int.ediv_nonneg (by omega) (by norm_num)
    unfold retryAfterSeconds
    rw [hsub]
    rcases truncate_durationSeconds (d := resetAt - now) (by omega) hd with
      ⟨htrunc, hup⟩ | ⟨htrunc, hup⟩
    · simp only [htrunc, hup, or_false, not_lt.2 hquot, if_false]
      constructor
      · intro h
        right
        omega
      · rintro (h | h) <;> omega
    · simp only [htrunc, hup, or_true, iff_true]
      rw [if_neg (by omega)]
      omega

variable {rl : InvoiceRateLimiter} {clientAddr : String} {q : RequestTimes} {received : ℤ}

/-- The limiter after a refusal, asked again after the seconds the refusal names. -/
theorem retryAdmitted_of_refused (haddr : clientAddr ≠ "")
    (hno : (rl.allow clientAddr q.allowed).1 = false) :
    RetryAdmitted rl clientAddr q received ↔
      ((rl.allow clientAddr q.allowed).2.allow clientAddr (received + retryAfterSeconds
        ((rl.allow clientAddr q.allowed).2.remainingAttempts clientAddr q.recounted).2 q.answered
          * 10 ^ 9)).1 = true := by
  unfold RetryAdmitted invoiceRateLimitMiddleware
  rcases hr : rl.allow clientAddr q.allowed with ⟨ok, rl'⟩
  obtain rfl : ok = false := by
    rw [hr] at hno
    exact hno
  simp only [haddr, if_false]
  constructor
  · intro h
    exact h _ _ _ _ rfl rfl
  · intro h response headers retryAfter rl'' hrun hretry
    simp only [Prod.mk.injEq, RateLimitAnswer.refused.injEq, Option.some.injEq] at hrun
    obtain ⟨⟨-, rfl⟩, rfl⟩ := hrun
    obtain rfl := Option.some.inj hretry
    exact h

section Refused

variable (h : WithinLimit rl clientAddr q.allowed)
  (hspent : rl.limit ≤ (recent rl.window q.allowed (rl.attempts clientAddr)).length)
include h hspent

theorem refused_attempts :
    (rl.allow clientAddr q.allowed).2.attempts clientAddr = rl.attempts clientAddr := by
  have hno : (rl.allow clientAddr q.allowed).1 ≠ true := fun hok =>
    not_lt.2 hspent ((InvoiceRateLimiter.allow_fst ..).1 hok)
  rw [InvoiceRateLimiter.allow_attempts, (h.full hspent).1, if_neg hno, List.append_nil]

theorem expiry_eq :
    expiry rl clientAddr q = earliest q.allowed (rl.attempts clientAddr) + rl.window := by
  rw [expiry, (h.full hspent).1]

/-- After the refusal the client is granted again at the expiry of its earliest attempt. -/
theorem refused_allow_iff (s : ℤ) :
    ((rl.allow clientAddr q.allowed).2.allow clientAddr s).1 = true
      ↔ expiry rl clientAddr q ≤ s := by
  obtain ⟨-, hfull, hne⟩ := h.full hspent
  have hattempts := refused_attempts h hspent
  have hlimit := InvoiceRateLimiter.allow_limit rl clientAddr q.allowed
  have hafter : ((rl.allow clientAddr q.allowed).2.allow clientAddr s).1 = true
      ↔ earliest q.allowed ((rl.allow clientAddr q.allowed).2.attempts clientAddr)
        + (rl.allow clientAddr q.allowed).2.window ≤ s := by
    refine InvoiceRateLimiter.allow_iff_of_full ?_ ?_ ?_ s
    · rw [hattempts, hlimit, hfull]
    · rwa [hattempts]
    · rw [hattempts]
      exact h.attempts_le
  rw [hafter, hattempts, InvoiceRateLimiter.allow_window, expiry_eq h hspent]

/-- Until then the second `RemainingAttempts` names that instant. -/
theorem refused_resetAt (hrecounted : q.allowed ≤ q.recounted)
    (hheld : q.recounted < expiry rl clientAddr q) :
    ((rl.allow clientAddr q.allowed).2.remainingAttempts clientAddr q.recounted).2
      = expiry rl clientAddr q := by
  obtain ⟨-, -, hne⟩ := h.full hspent
  rw [expiry_eq h hspent] at hheld ⊢
  have hstill : recent (rl.allow clientAddr q.allowed).2.window q.recounted
      ((rl.allow clientAddr q.allowed).2.attempts clientAddr) = rl.attempts clientAddr := by
    rw [refused_attempts h hspent, InvoiceRateLimiter.allow_window]
    refine List.filter_eq_self.2 fun t ht => ?_
    have := (earliest_le q.allowed (rl.attempts clientAddr)).2 t ht
    rw [decide_eq_true_eq]
    omega
  rw [InvoiceRateLimiter.remainingAttempts_snd (by rwa [hstill]), hstill,
    InvoiceRateLimiter.allow_window, earliest_eq_of_le hne h.attempts_le hrecounted]

theorem expiry_le : expiry rl clientAddr q ≤ q.allowed + rl.window := by
  have := (earliest_le q.allowed (rl.attempts clientAddr)).1
  rw [expiry_eq h hspent]
  omega

end Refused

/-- A request that is granted, or names no client, is not refused. -/
theorem retryAdmitted_of_allowed
    (hok : clientAddr = "" ∨ (rl.allow clientAddr q.allowed).1 = true) :
    RetryAdmitted rl clientAddr q received := by
  intro response headers retryAfter rl' hrun
  unfold invoiceRateLimitMiddleware at hrun
  rcases hok with haddr | hok
  · simp [haddr] at hrun
  · rcases hr : rl.allow clientAddr q.allowed with ⟨ok, rl''⟩
    obtain rfl : ok = true := by
      rw [hr] at hok
      exact hok
    by_cases haddr : clientAddr = ""
    · simp [haddr] at hrun
    · simp [haddr, hr] at hrun

theorem retryAdmitted_iff (h : WithinLimit rl clientAddr q.allowed) (hwindow : rl.window < 2 ^ 63)
    (hrecounted : q.allowed ≤ q.recounted) (hanswered : q.recounted ≤ q.answered)
    (hreceived : q.answered ≤ received) :
    RetryAdmitted rl clientAddr q received ↔
      (clientAddr ≠ "" → rl.limit ≤ (recent rl.window q.allowed (rl.attempts clientAddr)).length →
        RetryInTime rl clientAddr q received) := by
  by_cases haddr : clientAddr = ""
  · exact ⟨fun _ hne => absurd haddr hne, fun _ => retryAdmitted_of_allowed (.inl haddr)⟩
  by_cases hspent : rl.limit ≤ (recent rl.window q.allowed (rl.attempts clientAddr)).length
  · have hno : (rl.allow clientAddr q.allowed).1 = false := by
      rw [Bool.eq_false_iff, ne_eq, InvoiceRateLimiter.allow_fst]
      exact not_lt.2 hspent
    rw [retryAdmitted_of_refused haddr hno, refused_allow_iff h hspent]
    simp only [haddr, hspent, ne_eq, not_false_eq_true, forall_true_left]
    have hnonneg := retryAfterSeconds_nonneg
      ((rl.allow clientAddr q.allowed).2.remainingAttempts clientAddr q.recounted).2 q.answered
    rcases le_or_gt (expiry rl clientAddr q) q.recounted with hgone | hheld
    · exact ⟨fun _ => .inl (hgone.trans hanswered), fun _ => by nlinarith⟩
    · have hle := expiry_le h hspent
      rw [refused_resetAt h hspent hrecounted hheld, enough_iff hreceived (by omega)]
      rfl
  · have hok := (InvoiceRateLimiter.allow_fst rl clientAddr q.allowed).2 (not_le.1 hspent)
    exact ⟨fun _ _ hspent' => absurd hspent' hspent,
      fun _ => retryAdmitted_of_allowed (.inr hok)⟩

end Retry

/-- After any calls of a client, what is left and when the window resets are as `Allow` has it, and
a refused request made again after `Retry-After` is granted exactly when the fraction of a second
that the header leaves out passes meanwhile. -/
theorem rate_headers_iff (limit window : ℤ) (hwindow : window < 2 ^ 63) (clientAddr : String)
    (times : List ℤ) (hsorted : times.Pairwise (· ≤ ·)) (q : RequestTimes) (received : ℤ)
    (hcounted : ∀ t ∈ times, t ≤ q.counted) (hallowed : q.counted ≤ q.allowed)
    (hrecounted : q.allowed ≤ q.recounted) (hanswered : q.recounted ≤ q.answered)
    (hreceived : q.answered ≤ received) :
    let rl := allowRun clientAddr times (newInvoiceRateLimiterWithConfig limit window)
    ((∀ now, 0 < (rl.remainingAttempts clientAddr now).1 ↔ (rl.allow clientAddr now).1 = true)
      ∧ (∀ now, (∀ t ∈ times, t ≤ now) → (rl.remainingAttempts clientAddr now).1 = 0 →
        IsLeast {s | now ≤ s ∧ (rl.allow clientAddr s).1 = true}
          (rl.remainingAttempts clientAddr now).2)
      ∧ RetryAdmitted rl clientAddr q received)
    ↔ (clientAddr ≠ "" →
        rl.limit ≤ (recent rl.window q.allowed (rl.attempts clientAddr)).length →
        RetryInTime rl clientAddr q received) := by
  intro rl
  have hlimit : ∀ {now}, (∀ t ∈ times, t ≤ now) → WithinLimit rl clientAddr now := fun hle =>
    reached_withinLimit limit window clientAddr hsorted hle
  have hwin : rl.window < 2 ^ 63 := by
    rw [show rl.window = (newInvoiceRateLimiterWithConfig limit window).window from
      allowRun_window clientAddr times _]
    unfold newInvoiceRateLimiterWithConfig invoiceRateLimitWindow
    simp only []
    split_ifs <;> omega
  rw [← retryAdmitted_iff (hlimit fun t ht => (hcounted t ht).trans hallowed) hwin hrecounted
    hanswered hreceived]
  constructor
  · exact fun h => h.2.2
  · intro h
    exact ⟨InvoiceRateLimiter.remainingAttempts_pos_iff rl clientAddr,
      fun now hle => (hlimit hle).resetAt_isLeast, h⟩

section Recorded

def minutes (m : ℤ) : ℤ := m * 60 * 10 ^ 9

/-- Five attempts within an hour, the client never idle for as long as `evictStale` allows. -/
def fiveAttempts : List ℤ := [minutes 0, minutes 15, minutes 30, minutes 45, minutes 58]

/-- The API's limiter after them. -/
def spentLimiter : InvoiceRateLimiter := allowRun "GISSUER" fiveAttempts newInvoiceRateLimiter

/-- The instant of a sixth, which has half a second more than 59 to wait. -/
def sixthAttempt : ℤ := minutes 59 + 500000000

def sixthRequest : RequestTimes := ⟨sixthAttempt, sixthAttempt, sixthAttempt, sixthAttempt⟩

/-- The attempts and the retry, with the background task every ten minutes. -/
def attemptsCleaned : List LimiterCall :=
  [.allow "GISSUER" (minutes 0), .evictStale (minutes 10), .allow "GISSUER" (minutes 15),
    .evictStale (minutes 20), .allow "GISSUER" (minutes 30), .evictStale (minutes 30),
    .evictStale (minutes 40), .allow "GISSUER" (minutes 45), .evictStale (minutes 50),
    .allow "GISSUER" (minutes 58), .allow "GISSUER" sixthAttempt,
    .allow "GISSUER" (sixthAttempt + 59 * 10 ^ 9)]

/-- It is told to wait 59 seconds and is refused again after them, also if the background task
runs. -/
theorem retry_refused :
    (∃ response headers rl,
      invoiceRateLimitMiddleware spentLimiter "GISSUER" sixthRequest
        = (.refused response (some headers), rl)
      ∧ response.code = 429 ∧ headers.retryAfter = some 59
      ∧ (rl.allow "GISSUER" (sixthAttempt + 59 * 10 ^ 9)).1 = false)
    ∧ granted "GISSUER" attemptsCleaned newInvoiceRateLimiter = fiveAttempts := by
  refine ⟨⟨_, _, _, rfl, rfl, ?_, ?_⟩, ?_⟩ <;> decide +kernel

/-- If the answer takes another half second, it is granted. -/
theorem rate_headers_iff_slow :
    RetryAdmitted spentLimiter "GISSUER" sixthRequest (sixthAttempt + 500000000) :=
  ((rate_headers_iff invoiceRateLimit invoiceRateLimitWindow (by decide) "GISSUER" fiveAttempts
    (by decide) sixthRequest (sixthAttempt + 500000000) (by decide) (by decide) (by decide)
    (by decide) (by decide)).2 fun _ _ => .inr (.inl (by decide +kernel))).2.2

end Recorded

end TrusTrove
