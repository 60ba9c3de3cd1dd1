import Mathlib

/-!
# Jobs on a bounded pool

Jobs taken in order by a pool of slots: the next job starts on the slot that is free first. With `c`
slots and no job longer than `d`, job `i` starts within `i / c` rounds of `d` (`started_le`), and
where every job takes exactly `d` it starts no earlier (`started_uniform`).
-/

namespace BoundedPool

variable {J : Type*}

/-- A job, with when it started and when it ended. -/
structure Ran (J : Type*) where
  job : J
  started : ℤ
  finished : ℤ

/-- The jobs as the pool runs them. `slots` are the times at which its slots are free, soonest
first. -/
def run (duration : J → ℕ) : List ℤ → List J → List (Ran J)
  | _, [] => []
  | [], _ :: _ => []
  | free :: slots, job :: jobs =>
    ⟨job, free, free + duration job⟩
      :: run duration (slots.orderedInsert (· ≤ ·) (free + duration job)) jobs

section Jobs

variable (duration : J → ℕ)

theorem run_length : ∀ (jobs : List J) (slots : List ℤ), slots ≠ [] →
    (run duration slots jobs).length = jobs.length
  | [], _, _ => by simp [run]
  | job :: jobs, free :: slots, _ => by
    rw [run, List.length_cons, List.length_cons, run_length jobs]
    exact List.ne_nil_of_length_pos (by simp [List.orderedInsert_length])
  | _ :: _, [], h => absurd rfl h

theorem run_jobs : ∀ (jobs : List J) (slots : List ℤ), slots ≠ [] →
    (run duration slots jobs).map (·.job) = jobs
  | [], _, _ => by simp [run]
  | job :: jobs, free :: slots, _ => by
    rw [run, List.map_cons, run_jobs jobs]
    exact List.ne_nil_of_length_pos (by simp [List.orderedInsert_length])
  | _ :: _, [], h => absurd rfl h

theorem le_started {t : ℤ} : ∀ (jobs : List J) (slots : List ℤ), (∀ s ∈ slots, t ≤ s) →
    ∀ r ∈ run duration slots jobs, t ≤ r.started
  | [], _, _, r, hr => by simp [run] at hr
  | _ :: _, [], _, r, hr => by simp [run] at hr
  | job :: jobs, free :: slots, h, r, hr => by
    have hfree := h free List.mem_cons_self
    rw [run] at hr
    rcases List.mem_cons.1 hr with rfl | hr
    · exact hfree
    · refine le_started jobs _ (fun s hs => ?_) r hr
      rcases (List.mem_orderedInsert _).1 hs with rfl | hs
      · omega
      · exact h s (List.mem_cons_of_mem _ hs)

end Jobs

section Upper

/-- Of `c` slots that have taken `k` jobs, few are busy past `q` rounds from `t`. -/
def Busy (t d : ℤ) (c k : ℕ) (slots : List ℤ) : Prop :=
  ∀ q : ℕ, slots.countP (fun s => t + q * d < s) ≤ k - q * c

variable {t d : ℤ} {c k : ℕ} {free : ℤ} {slots : List ℤ}

theorem Busy.start (hd : 0 ≤ d) : Busy t d c 0 (List.replicate c t) := by
  intro q
  have hq : 0 ≤ q * d := by positivity
  rw [List.countP_replicate]
  simp [hq.not_gt]

theorem countP_insert (p : ℤ → Bool) (x : ℤ) (slots : List ℤ) :
    (slots.orderedInsert (· ≤ ·) x).countP p = slots.countP p + if p x then 1 else 0 := by
  rw [(List.perm_orderedInsert _ x slots).countP_eq, List.countP_cons]

/-- A slot that is busy past a round leaves none free in the round before. -/
theorem countP_of_lt {x : ℤ} (hsorted : (free :: slots).Pairwise (· ≤ ·)) (hx : x < free) :
    (free :: slots).countP (fun s => x < s) = slots.length + 1 := by
  rw [List.pairwise_cons] at hsorted
  rw [List.countP_eq_length.2, List.length_cons]
  intro s hs
  rcases List.mem_cons.1 hs with rfl | hs
  · simpa using hx
  · simpa using hx.trans_le (hsorted.1 s hs)

theorem Busy.next {n : ℕ} (h : Busy t d c k (free :: slots))
    (hsorted : (free :: slots).Pairwise (· ≤ ·)) (hc : slots.length + 1 = c) (hn : n ≤ d) :
    Busy t d c (k + 1) (slots.orderedInsert (· ≤ ·) (free + n)) := by
  intro q
  have hq := h q
  rw [List.countP_cons] at hq
  rw [countP_insert]
  by_cases hnew : t + q * d < free + n
  · rw [if_pos (by simpa using hnew)]
    by_cases hold : t + q * d < free
    · rw [if_pos (by simpa using hold)] at hq
      omega
    · rw [if_neg (by simpa using hold)] at hq
      rcases q with _ | p
      · simp at hq ⊢
        omega
      · have hp := h p
        rw [countP_of_lt hsorted (by push_cast at hnew; linarith), hc] at hp
        have hmul : (p + 1) * c = p * c + c := by ring
        omega
  · rw [if_neg (by simpa using hnew)]
    omega

theorem Busy.free_le (h : Busy t d c k (free :: slots))
    (hsorted : (free :: slots).Pairwise (· ≤ ·)) (hc : slots.length + 1 = c) :
    free ≤ t + (k / c : ℕ) * d := by
  by_contra hlt
  have hcount := h (k / c)
  rw [countP_of_lt hsorted (not_le.1 hlt), hc] at hcount
  have hmod : k - k / c * c = k % c := by
    have := Nat.div_add_mod' k c
    omega
  have := Nat.mod_lt k (show 0 < c by omega)
  omega

theorem run_started_le {duration : J → ℕ} : ∀ (jobs : List J) (slots : List ℤ) (k : ℕ),
    Busy t d c k slots → slots.Pairwise (· ≤ ·) → slots.length = c →
    (∀ job ∈ jobs, (duration job : ℤ) ≤ d) →
    ∀ i r, (run duration slots jobs)[i]? = some r → r.started ≤ t + ((k + i) / c : ℕ) * d
  | [], _, _, _, _, _, _, i, r, hr => by simp [run] at hr
  | _ :: _, [], _, _, _, _, _, i, r, hr => by simp [run] at hr
  | job :: jobs, free :: slots, k, h, hsorted, hc, hd, i, r, hr => by
    rw [run] at hr
    rw [List.length_cons] at hc
    rcases i with _ | i
    · rw [List.getElem?_cons_zero, Option.some.injEq] at hr
      subst hr
      exact h.free_le hsorted hc
    · rw [List.getElem?_cons_succ] at hr
      have hnext := run_started_le jobs _ (k + 1)
        (h.next hsorted hc (hd job List.mem_cons_self))
        ((List.pairwise_cons.1 hsorted).2.orderedInsert _ _)
        (by rw [List.orderedInsert_length]; exact hc)
        (fun job' hjob' => hd job' (List.mem_cons_of_mem _ hjob')) i r hr
      rwa [show k + 1 + i = k + (i + 1) by omega] at hnext

theorem run_finished {duration : J → ℕ} : ∀ (jobs : List J) (slots : List ℤ) (r : Ran J),
    r ∈ run duration slots jobs → r.job ∈ jobs ∧ r.finished = r.started + duration r.job
  | [], _, r, hr => by simp [run] at hr
  | _ :: _, [], r, hr => by simp [run] at hr
  | job :: jobs, free :: slots, r, hr => by
    rw [run] at hr
    rcases List.mem_cons.1 hr with rfl | hr
    · exact ⟨List.mem_cons_self, rfl⟩
    · obtain ⟨hjob, hfin⟩ := run_finished jobs _ r hr
      exact ⟨List.mem_cons_of_mem _ hjob, hfin⟩

/-- With `c` slots free at `t`, the jobs are done within `⌈n / c⌉` rounds. -/
theorem finished_le {duration : J → ℕ} {jobs : List J} (hd : 0 ≤ d)
    (hdur : ∀ job ∈ jobs, (duration job : ℤ) ≤ d) (hc : 0 < c) {r : Ran J}
    (hr : r ∈ run duration (List.replicate c t) jobs) :
    r.finished ≤ t + ((jobs.length + c - 1) / c : ℕ) * d := by
  obtain ⟨i, hi⟩ := List.getElem?_of_mem hr
  have hlt : i < jobs.length := by
    have hne : List.replicate c t ≠ [] := by simp; omega
    rw [← run_length duration jobs _ hne]
    exact (List.getElem?_eq_some_iff.1 hi).1
  have hstart := run_started_le jobs _ 0 (Busy.start hd) (List.pairwise_replicate.2 (.inr le_rfl))
    (by simp) hdur i r hi
  obtain ⟨hjob, hfin⟩ := run_finished jobs _ r hr
  have hrounds : ((0 + i) / c : ℕ) + 1 ≤ (jobs.length + c - 1) / c := by
    rw [Nat.le_div_iff_mul_le hc, add_mul, one_mul]
    have := Nat.div_mul_le_self (0 + i) c
    omega
  have hle : (((0 + i) / c : ℕ) + 1 : ℤ) * d ≤ ((jobs.length + c - 1) / c : ℕ) * d := by
    refine mul_le_mul_of_nonneg_right ?_ hd
    exact_mod_cast hrounds
  have := hdur r.job hjob
  linarith

end Upper

section Uniform

variable {x d : ℤ}

theorem insert_uniform (hd : 0 < d) (b : ℕ) : ∀ a : ℕ,
    (List.replicate a x ++ List.replicate b (x + d)).orderedInsert (· ≤ ·) (x + d)
      = List.replicate a x ++ List.replicate (b + 1) (x + d)
  | 0 => by
    rcases b with _ | b
    · rfl
    · simp [List.replicate_succ]
  | a + 1 => by
    rw [List.replicate_succ, List.cons_append, List.orderedInsert_cons, if_neg (by omega),
      insert_uniform hd b a]
    rfl

/-- Where every job takes `d`, the slots move on round by round. -/
theorem run_started_uniform {duration : J → ℕ} (hd : 0 < d) : ∀ (jobs : List J) (x : ℤ) (a b : ℕ),
    (∀ job ∈ jobs, (duration job : ℤ) = d) → ∀ i r,
    (run duration (List.replicate (a + 1) x ++ List.replicate b (x + d)) jobs)[i]? = some r →
    r.started = x + ((b + i) / (a + 1 + b) : ℕ) * d
  | [], _, _, _, _, i, r, hr => by simp [run] at hr
  | job :: jobs, x, a, b, hdur, i, r, hr => by
    rw [List.replicate_succ, List.cons_append, run, hdur job List.mem_cons_self,
      insert_uniform hd b a] at hr
    have hjobs := fun job' hjob' => hdur job' (List.mem_cons_of_mem _ hjob')
    rcases i with _ | i
    · rw [List.getElem?_cons_zero, Option.some.injEq] at hr
      subst hr
      rw [Nat.div_eq_of_lt (by omega)]
      simp
    · rw [List.getElem?_cons_succ] at hr
      rcases a with _ | a
      · have hnext := run_started_uniform hd jobs (x + d) b 0 hjobs i r (by simpa using hr)
        rw [hnext, show b + (i + 1) = i + (0 + 1 + b) by omega, Nat.add_div_right _ (by omega),
          Nat.zero_add i, show b + 1 + 0 = 0 + 1 + b by omega, Nat.cast_succ]
        ring
      · rw [run_started_uniform hd jobs x a (b + 1) hjobs i r hr]
        rw [show b + 1 + i = b + (i + 1) by omega, show a + 1 + (b + 1) = a + 1 + 1 + b by omega]

/-- The last of the jobs then ends after `⌈n / c⌉` full rounds. -/
theorem exists_finished_uniform (duration : J → ℕ) {jobs : List J} (t : ℤ) {c : ℕ} (hd : 0 < d)
    (hdur : ∀ job ∈ jobs, (duration job : ℤ) = d) (hc : 0 < c) (hjobs : jobs ≠ []) :
    ∃ r ∈ run duration (List.replicate c t) jobs,
      r.finished = t + ((jobs.length + c - 1) / c : ℕ) * d := by
  have hlen : (run duration (List.replicate c t) jobs).length = jobs.length :=
    run_length duration jobs _ (by simp; omega)
  have hpos := List.length_pos_iff.2 hjobs
  obtain ⟨r, hr⟩ : ∃ r, (run duration (List.replicate c t) jobs)[jobs.length - 1]? = some r :=
    ⟨_, List.getElem?_eq_getElem (by omega)⟩
  refine ⟨r, List.mem_of_getElem? hr, ?_⟩
  obtain ⟨hjob, hfin⟩ := run_finished jobs _ r (List.mem_of_getElem? hr)
  obtain ⟨a, rfl⟩ : ∃ a, c = a + 1 := ⟨c - 1, by omega⟩
  have hstart := run_started_uniform hd jobs t a 0 hdur (jobs.length - 1) r (by simpa using hr)
  rw [hfin, hstart, hdur r.job hjob, Nat.zero_add, Nat.add_zero,
    show jobs.length + (a + 1) - 1 = (jobs.length - 1) + (a + 1) by omega,
    Nat.add_div_right _ (by omega), Nat.cast_succ]
  ring

end Uniform

end BoundedPool
