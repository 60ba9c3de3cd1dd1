import TrusTrove.RateLimiter

/-!
# The rate limit over any sequence of calls

While a client keeps its bucket, the bucket holds every grant of the last window, so `Allow` counts
them all. `evictStale` deletes a bucket by how long its client has been away and not by the window.
A grant in it is then more than two cleanup intervals old: with a window no longer than that nothing
that counts is forgotten, and with a longer one the client starts afresh inside its window
(`rate_limited_iff`).
-/

namespace TrusTrove

open SlidingWindow

namespace InvoiceRateLimiter

variable {rl : InvoiceRateLimiter} {addr clientAddr : String}

theorem attempts_setBucket (bucket : ClientBucket) :
    (rl.setBucket addr bucket).attempts clientAddr =
      if clientAddr = addr then bucket.attempts else rl.attempts clientAddr := by
  unfold attempts setBucket
  by_cases h : clientAddr = addr
  · subst h
    simp
  · simp [h]

theorem evictStale_cases (rl : InvoiceRateLimiter) (clientAddr : String) (now : ℤ) :
    (rl.evictStale now).clients clientAddr = rl.clients clientAddr
      ∨ (rl.evictStale now).clients clientAddr = none
        ∧ ∃ bucket, rl.clients clientAddr = some bucket
          ∧ bucket.lastSeen < now - 2 * cleanupInterval := by
  simp only [evictStale]
  rcases rl.clients clientAddr with _ | bucket
  · exact .inl rfl
  · by_cases hold : bucket.lastSeen < now - 2 * cleanupInterval
    · exact .inr ⟨by simp [Option.filter, hold], bucket, rfl, hold⟩
    · exact .inl (by simp [Option.filter, hold])

theorem allow_fst (rl : InvoiceRateLimiter) (addr : String) (now : ℤ) :
    (rl.allow addr now).1 = true
      ↔ ((recent rl.window now (rl.attempts addr)).length : ℤ) < rl.limit := by
  unfold allow recent
  simp only []
  split_ifs with h
  · simpa using h
  · simpa using h

theorem allow_snd (rl : InvoiceRateLimiter) (addr : String) (now : ℤ) :
    (rl.allow addr now).2 = rl.setBucket addr
      ⟨recent rl.window now (rl.attempts addr)
        ++ if (rl.allow addr now).1 then [now] else [], now⟩ := by
  unfold allow recent
  simp only []
  by_cases h : rl.limit ≤ ((rl.attempts addr).filter fun t => now - rl.window < t).length
  · simp [if_pos h]
  · simp [if_neg h]

end InvoiceRateLimiter

/-- What the limiter remembers of a client's `grants` at `now`. -/
structure Remembers (rl : InvoiceRateLimiter) (clientAddr : String) (grants : List ℤ) (now : ℤ) :
    Prop where
  within_limit : ∀ s, ((within rl.window s grants).length : ℤ) ≤ rl.limit
  kept : recent rl.window now grants = recent rl.window now (rl.attempts clientAddr)
  seen : ∀ bucket, rl.clients clientAddr = some bucket →
    bucket.lastSeen ≤ now ∧ ∀ t ∈ bucket.attempts, t ≤ bucket.lastSeen

namespace Remembers

variable {rl : InvoiceRateLimiter} {addr clientAddr : String} {grants : List ℤ} {now now' : ℤ}

theorem attempts_le (h : Remembers rl clientAddr grants now) :
    ∀ t ∈ rl.attempts clientAddr, t ≤ now := by
  unfold InvoiceRateLimiter.attempts
  rcases hb : rl.clients clientAddr with _ | bucket
  · simp
  · obtain ⟨hlast, hle⟩ := h.seen bucket hb
    exact fun t ht => (hle t ht).trans hlast

theorem later (h : Remembers rl clientAddr grants now) (hle : now ≤ now') :
    Remembers rl clientAddr grants now' := by
  refine ⟨h.within_limit, recent_mono hle h.kept, fun bucket hb => ?_⟩
  obtain ⟨hlast, hseen⟩ := h.seen bucket hb
  exact ⟨hlast.trans hle, hseen⟩

theorem allow_other (h : Remembers rl clientAddr grants now) (hne : clientAddr ≠ addr) :
    Remembers (rl.allow addr now).2 clientAddr grants now := by
  rw [InvoiceRateLimiter.allow_snd]
  refine ⟨h.within_limit, ?_, fun bucket hb => h.seen bucket ?_⟩
  · rw [InvoiceRateLimiter.attempts_setBucket, if_neg hne]
    exact h.kept
  · simpa [InvoiceRateLimiter.setBucket, hne] using hb

/-- A grant is counted against all those that `Allow` found in the window. -/
theorem allow_self (h : Remembers rl clientAddr grants now) :
    Remembers (rl.allow clientAddr now).2 clientAddr
      (grants ++ if (rl.allow clientAddr now).1 then [now] else []) now := by
  have hfst := InvoiceRateLimiter.allow_fst rl clientAddr now
  rw [InvoiceRateLimiter.allow_snd]
  refine ⟨fun s => ?_, ?_, fun bucket hb => ?_⟩
  · simp only [InvoiceRateLimiter.setBucket]
    split_ifs with hok
    · have hlt := hfst.1 hok
      rw [← h.kept] at hlt
      have hle : (within rl.window s (grants ++ [now])).length ≤ rl.limit.toNat := by
        refine length_within_append_le (fun s => ?_) (by omega)
        have := h.within_limit s
        omega
      omega
    · rw [List.append_nil]
      exact h.within_limit s
  · rw [InvoiceRateLimiter.attempts_setBucket, if_pos rfl]
    simp only [InvoiceRateLimiter.setBucket, recent_append, recent_recent le_rfl, h.kept]
  · simp only [InvoiceRateLimiter.setBucket, Function.update_self, Option.some.injEq] at hb
    subst hb
    refine ⟨le_rfl, fun t ht => ?_⟩
    rcases List.mem_append.1 ht with hold | hnew
    · exact h.attempts_le t (List.mem_of_mem_filter hold)
    · split_ifs at hnew
      · exact (List.mem_singleton.1 hnew).le
      · cases hnew

/-- An evicted bucket holds nothing of a window that has passed while its client was away. -/
theorem evictStale (h : Remembers rl clientAddr grants now)
    (hwindow : rl.window ≤ 2 * cleanupInterval + 1) :
    Remembers (rl.evictStale now) clientAddr grants now := by
  rcases InvoiceRateLimiter.evictStale_cases rl clientAddr now with
    hsame | ⟨hnone, bucket, hb, hold⟩
  · refine ⟨h.within_limit, ?_, fun bucket hb => h.seen bucket (hsame ▸ hb)⟩
    unfold InvoiceRateLimiter.attempts
    rw [hsame]
    exact h.kept
  · refine ⟨h.within_limit, ?_, fun b hb' => by rw [hnone] at hb'; cases hb'⟩
    have hgone : recent rl.window now (rl.attempts clientAddr) = [] := by
      refine recent_eq_nil fun t ht => ?_
      unfold InvoiceRateLimiter.attempts at ht
      rw [hb] at ht
      have := (h.seen bucket hb).2 t ht
      omega
    simp only [InvoiceRateLimiter.attempts, hnone]
    exact h.kept.trans hgone

end Remembers

section Run

variable {clientAddr : String}

theorem granted_remembered : ∀ (calls : List LimiterCall) (rl : InvoiceRateLimiter)
    (grants : List ℤ) (now : ℤ), rl.window ≤ 2 * cleanupInterval + 1 →
    Remembers rl clientAddr grants now → (∀ call ∈ calls, now ≤ call.time) →
    calls.Pairwise (fun a b => a.time ≤ b.time) →
    ∀ s, ((within rl.window s (grants ++ granted clientAddr calls rl)).length : ℤ) ≤ rl.limit
  | [], rl, grants, now, _, h, _, _, s => by
    simpa [granted] using h.within_limit s
  | .evictStale now' :: calls, rl, grants, now, hwindow, h, hle, hsorted, s => by
    rw [List.pairwise_cons] at hsorted
    have hnow : now ≤ now' := hle (.evictStale now') (by simp)
    exact granted_remembered calls (rl.evictStale now') grants now' hwindow
      ((h.later hnow).evictStale hwindow) hsorted.1 hsorted.2 s
  | .allow addr now' :: calls, rl, grants, now, hwindow, h, hle, hsorted, s => by
    rw [List.pairwise_cons] at hsorted
    have hnow : now ≤ now' := hle (.allow addr now') (by simp)
    have hwin : (rl.allow addr now').2.window = rl.window := by
      rw [InvoiceRateLimiter.allow_snd]
      rfl
    have hlim : (rl.allow addr now').2.limit = rl.limit := by
      rw [InvoiceRateLimiter.allow_snd]
      rfl
    have hnext := granted_remembered calls (rl.allow addr now').2
    rw [hwin, hlim] at hnext
    simp only [granted]
    by_cases hself : addr = clientAddr
    · subst hself
      rw [← List.append_assoc]
      simpa using hnext _ now' hwindow (h.later hnow).allow_self hsorted.1 hsorted.2 s
    · simpa [hself] using hnext grants now' hwindow ((h.later hnow).allow_other (Ne.symm hself))
        hsorted.1 hsorted.2 s

end Run

/-- In every interval of length `window`, each client is granted at most `limit` calls. -/
def RateLimited (limit window : ℤ) (calls : List LimiterCall) : Prop :=
  ∀ clientAddr s, ((within window s
    (granted clientAddr calls (newInvoiceRateLimiterWithConfig limit window))).length : ℤ) ≤ limit

section Evicted

/-- A client that spends its limit at once, stays away until its bucket is evicted, and asks
again. -/
def afterEviction (limit : ℕ) : List LimiterCall :=
  List.replicate limit (.allow "client" 0)
    ++ [.evictStale (cleanupInterval + 1), .evictStale (2 * cleanupInterval + 1),
      .allow "client" (2 * cleanupInterval + 1)]

theorem afterEviction_sorted (limit : ℕ) :
    (afterEviction limit).Pairwise fun a b => a.time ≤ b.time := by
  unfold afterEviction
  rw [List.pairwise_append]
  refine ⟨List.pairwise_replicate.2 (.inr le_rfl), ?_, ?_⟩
  · simp [LimiterCall.time, cleanupInterval]
  · intro a ha b hb
    rw [List.eq_of_mem_replicate ha]
    simp only [List.mem_cons, List.not_mem_nil, or_false] at hb
    rcases hb with rfl | rfl | rfl <;> simp [LimiterCall.time, cleanupInterval]

theorem granted_burst (calls : List LimiterCall) : ∀ (n k : ℕ) (rl : InvoiceRateLimiter),
    0 < rl.window → (k + n + 1 : ℤ) ≤ rl.limit → rl.attempts "client" = List.replicate k 0 →
    ∃ rl', granted "client" (List.replicate (n + 1) (.allow "client" 0) ++ calls) rl
        = List.replicate (n + 1) 0 ++ granted "client" calls rl'
      ∧ rl'.limit = rl.limit ∧ rl'.clients "client" = some ⟨List.replicate (k + n + 1) 0, 0⟩
  | n, k, rl, hwindow, hlimit, hk => by
    have hrecent : recent rl.window 0 (rl.attempts "client") = List.replicate k 0 := by
      simp [recent, hk, hwindow]
    have hok : (rl.allow "client" 0).1 = true := by
      rw [InvoiceRateLimiter.allow_fst, hrecent, List.length_replicate]
      omega
    have hnext : (rl.allow "client" 0).2
        = rl.setBucket "client" ⟨List.replicate (k + 1) 0, 0⟩ := by
      rw [InvoiceRateLimiter.allow_snd, hrecent, hok, List.replicate_succ']
      rfl
    rw [List.replicate_succ, List.cons_append]
    simp only [granted, hok, hnext]
    cases n with
    | zero => exact ⟨_, rfl, rfl, by simp [InvoiceRateLimiter.setBucket]⟩
    | succ n =>
      obtain ⟨rl', hgranted, hlim, hclient⟩ := granted_burst calls n (k + 1)
        (rl.setBucket "client" ⟨List.replicate (k + 1) 0, 0⟩) hwindow
        (by simp only [InvoiceRateLimiter.setBucket]; push_cast at hlimit ⊢; omega)
        (by simp [InvoiceRateLimiter.attempts_setBucket])
      refine ⟨rl', ?_, hlim, ?_⟩
      · rw [hgranted]
        rfl
      · rw [hclient]
        congr 3
        omega

theorem granted_afterEviction (limit : ℕ) (window : ℤ) (hwindow : 0 < window) :
    granted "client" (afterEviction (limit + 1))
      (newInvoiceRateLimiterWithConfig (limit + 1) window)
      = List.replicate (limit + 1) 0 ++ [2 * cleanupInterval + 1] := by
  have hnew : newInvoiceRateLimiterWithConfig (limit + 1) window
      = ⟨fun _ => none, limit + 1, window⟩ := by
    unfold newInvoiceRateLimiterWithConfig
    rw [if_neg (by omega), if_neg (by omega)]
  obtain ⟨rl, hgranted, hlim, hclient⟩ := granted_burst
    [.evictStale (cleanupInterval + 1), .evictStale (2 * cleanupInterval + 1),
      .allow "client" (2 * cleanupInterval + 1)] limit 0 ⟨fun _ => none, limit + 1, window⟩ hwindow
    (by simp) rfl
  rw [hnew, afterEviction, hgranted]
  simp only [granted]
  have hgone : ((rl.evictStale (cleanupInterval + 1)).evictStale (2 * cleanupInterval + 1)).attempts
      "client" = [] := by
    simp [InvoiceRateLimiter.attempts, InvoiceRateLimiter.evictStale, hclient, Option.filter,
      cleanupInterval]
  have hok : (((rl.evictStale (cleanupInterval + 1)).evictStale (2 * cleanupInterval + 1)).allow
      "client" (2 * cleanupInterval + 1)).1 = true := by
    rw [InvoiceRateLimiter.allow_fst, hgone]
    simp only [InvoiceRateLimiter.evictStale, hlim, recent, List.filter_nil, List.length_nil]
    omega
  simp [hok]

end Evicted

/-- Every sequence of calls in the order of time is limited exactly when the window is no longer
than the time after which an idle bucket is evicted. -/
theorem rate_limited_iff (limit window : ℤ) (hlimit : 1 ≤ limit) (hwindow : 0 < window) :
    (∀ calls : List LimiterCall, calls.Pairwise (fun a b => a.time ≤ b.time) →
      RateLimited limit window calls) ↔ window ≤ 2 * cleanupInterval + 1 := by
  constructor
  · intro h
    by_contra hlong
    obtain ⟨n, rfl⟩ : ∃ n : ℕ, limit = n + 1 := ⟨(limit - 1).toNat, by omega⟩
    have hle := h (afterEviction (n + 1)) (afterEviction_sorted _) "client" 0
    rw [granted_afterEviction n window hwindow] at hle
    have hall : within window 0 (List.replicate (n + 1) 0 ++ [2 * cleanupInterval + 1])
        = List.replicate (n + 1) 0 ++ [2 * cleanupInterval + 1] := by
      refine List.filter_eq_self.2 fun t ht => ?_
      rw [decide_eq_true_eq]
      have hcleanup : (0 : ℤ) ≤ cleanupInterval := by decide
      rcases List.mem_append.1 ht with hburst | hlast
      · rw [List.eq_of_mem_replicate hburst]
        omega
      · rw [List.mem_singleton.1 hlast]
        omega
    rw [hall, List.length_append, List.length_replicate, List.length_singleton] at hle
    push_cast at hle
    omega
  · intro hshort calls hsorted clientAddr s
    have hnew : newInvoiceRateLimiterWithConfig limit window = ⟨fun _ => none, limit, window⟩ := by
      unfold newInvoiceRateLimiterWithConfig
      rw [if_neg (by omega), if_neg (by omega)]
    rw [hnew]
    rcases calls with _ | ⟨call, calls⟩
    · simp only [granted, within, List.filter_nil, List.length_nil]
      omega
    · have hstart : Remembers ⟨fun _ => none, limit, window⟩ clientAddr [] call.time :=
        ⟨fun s => by simp only [within, List.filter_nil, List.length_nil]; omega, rfl,
          fun _ hb => by cases hb⟩
      refine granted_remembered (call :: calls) _ [] call.time hshort hstart ?_ hsorted s
      exact List.forall_mem_cons.2 ⟨le_rfl, (List.pairwise_cons.1 hsorted).1⟩

/-- Five calls in the first minute, the clean-up of the first half hour, and a sixth call. -/
def sixthCall : List LimiterCall :=
  [.allow "GISSUER" 0, .allow "GISSUER" (10 * 10 ^ 9), .allow "GISSUER" (20 * 10 ^ 9),
    .allow "GISSUER" (30 * 10 ^ 9), .allow "GISSUER" (40 * 10 ^ 9), .evictStale (10 * 60 * 10 ^ 9),
    .evictStale (20 * 60 * 10 ^ 9), .evictStale (30 * 60 * 10 ^ 9),
    .allow "GISSUER" (31 * 60 * 10 ^ 9)]

/-- With the window as long as the interval of the clean-up, the sequence is limited. -/
theorem rate_limited_ten_minutes :
    1 ≤ invoiceRateLimit ∧ 0 < cleanupInterval
      ∧ (sixthCall.Pairwise fun a b => a.time ≤ b.time)
      ∧ RateLimited invoiceRateLimit cleanupInterval sixthCall := by
  have hsorted : sixthCall.Pairwise fun a b => a.time ≤ b.time := by decide +kernel
  exact ⟨by decide, by decide, hsorted,
    (rate_limited_iff invoiceRateLimit cleanupInterval (by decide) (by decide)).2 (by decide)
      sixthCall hsorted⟩

/-- The limiter of the API grants six calls of its five in an hour. -/
theorem rate_limited_evicted :
    (sixthCall.Pairwise fun a b => a.time ≤ b.time)
      ∧ (within invoiceRateLimitWindow 0 (granted "GISSUER" sixthCall newInvoiceRateLimiter)).length
        = 6
      ∧ ¬ RateLimited invoiceRateLimit invoiceRateLimitWindow sixthCall := by
  have hsix : (within invoiceRateLimitWindow 0
      (granted "GISSUER" sixthCall newInvoiceRateLimiter)).length = 6 := by decide +kernel
  refine ⟨by decide +kernel, hsix, fun h => ?_⟩
  have hle := h "GISSUER" 0
  rw [show newInvoiceRateLimiterWithConfig invoiceRateLimit invoiceRateLimitWindow
    = newInvoiceRateLimiter from rfl, hsix] at hle
  exact absurd hle (by decide)

end TrusTrove
