import TrusTrove.Proofs.Claim
import TrusTrove.Proofs.Settled

/-!
# The retry budget of a delivery

One worker, so that the snapshot an attempt is made on agrees with the row until its outcome is
recorded: the two places that count attempts then count the same. While the row is pending, its
`attempts` is the number of failures recorded, and it is not due before the last of them is
`10s * 2^n` ago. The failure that makes `m` settles it, as a `2xx` does.
-/

namespace TrusTrove

open Sql

variable {cfg : WorkerConfig} {k : String × String}

/-- A recorded outcome: the attempt, how it ended, and when the worker saw that it had. -/
structure Outcome where
  attempt : Attempt
  result : AttemptResult
  answeredAt : ℤ

/-- The outcomes recorded on a row, in order. -/
def outcomes (cfg : WorkerConfig) (k : String × String) : List FleetStep → Fleet → List Outcome
  | [], _ => []
  | .record i result answeredAt written :: steps, f =>
    ((f.attempts[i]?.filter fun a => a.delivery.key = k).map
      fun a => ⟨a, result, answeredAt⟩).toList
      ++ outcomes cfg k steps ((FleetStep.record i result answeredAt written).apply cfg f)
  | step :: steps, f => outcomes cfg k steps (step.apply cfg f)

/-- The attempts under way on a row. -/
def Fleet.held (f : Fleet) (k : String × String) : List Attempt :=
  f.attempts.filter fun a => a.delivery.key = k

/-- The step is one of the worker, whose statements succeed, or of the listener. -/
def FleetStep.OneWorker (worker : ℕ) : FleetStep → Prop
  | claim w _ _ _ _ _ => w = worker
  | record _ _ _ written => written = true
  | die _ => False
  | enqueue _ => True

/-- `handleFailure` decides on the snapshot as `MarkDeliveryRetry` would on the row. -/
def FleetStep.Decides (k : String × String) (f : Fleet) : FleetStep → Prop
  | record i _ _ _ => ∀ a r, f.attempts[i]? = some a → a.delivery.key = k →
      f.deliveries.find? k = some r →
      (a.delivery.maxAttempts ≤ a.delivery.attempts + 1 ↔ r.maxAttempts ≤ r.attempts + 1)
  | _ => True

section Outcome

theorem backoffDelay_eq {n : ℕ} (hn : n < 30) : backoffDelay n = 10 * 10 ^ 9 * 2 ^ n := by
  unfold backoffDelay
  interval_cases n <;> decide

/-- What an attempt that was not acknowledged sets. -/
theorem attemptDelivery_failed (d : WebhookDelivery) {result : AttemptResult} (now : ℤ)
    (h : result.acknowledged = false) :
    ∃ statusCode errMsg, attemptDelivery d result now = handleFailure d statusCode errMsg now := by
  cases result with
  | unsafeURL => exact ⟨_, _, rfl⟩
  | buildFailed err => exact ⟨_, _, rfl⟩
  | httpFailed err => exact ⟨_, _, rfl⟩
  | response statusCode body =>
    simp only [AttemptResult.acknowledged, Bool.and_eq_false_iff, decide_eq_false_iff_not] at h
    have hnot : ¬(200 ≤ statusCode ∧ statusCode < 300) := by omega
    simp only [attemptDelivery, if_neg hnot]
    exact ⟨_, _, rfl⟩

theorem attemptDelivery_maxAttempts (d : WebhookDelivery) (result : AttemptResult) (now : ℤ)
    (r : WebhookDelivery) : (attemptDelivery d result now r).maxAttempts = r.maxAttempts := by
  cases hack : result.acknowledged with
  | true =>
    cases result with
    | response statusCode body =>
      simp only [AttemptResult.acknowledged, Bool.and_eq_true, decide_eq_true_eq] at hack
      simp [attemptDelivery, hack, markDeliverySuccess]
    | _ => cases hack
  | false =>
    obtain ⟨statusCode, errMsg, heq⟩ := attemptDelivery_failed d now hack
    rw [heq]
    unfold handleFailure
    split_ifs <;> rfl

/-- A failure with attempts left is counted, and the next attempt is put off. -/
theorem attemptDelivery_retried {d r : WebhookDelivery} {result : AttemptResult} (now : ℤ)
    (h : result.acknowledged = false) (hd : ¬ d.maxAttempts ≤ d.attempts + 1)
    (hr : ¬ r.maxAttempts ≤ r.attempts + 1) :
    (attemptDelivery d result now r).attempts = r.attempts + 1
      ∧ (attemptDelivery d result now r).nextAttemptAt = now + backoffDelay (d.attempts + 1) := by
  obtain ⟨statusCode, errMsg, heq⟩ := attemptDelivery_failed d now h
  rw [heq]
  unfold handleFailure
  rw [if_neg hd]
  exact ⟨rfl, if_neg hr⟩

end Outcome

section Held

variable {f : Fleet}

theorem mem_held {a : Attempt} : a ∈ f.held k ↔ a ∈ f.attempts ∧ a.delivery.key = k := by
  simp [Fleet.held]

/-- What is left of the attempts on a row when one attempt has been recorded. -/
theorem held_eraseIdx {i : ℕ} {a : Attempt} (hi : f.attempts[i]? = some a) :
    ((f.attempts.eraseIdx i).filter fun a => a.delivery.key = k).length
      + (if a.delivery.key = k then 1 else 0) = (f.held k).length := by
  obtain ⟨hlt, rfl⟩ := List.getElem?_eq_some_iff.1 hi
  have hperm := ((List.getElem_cons_eraseIdx_perm hlt).filter
    fun a : Attempt => a.delivery.key = k).length_eq
  unfold Fleet.held
  rw [← hperm, List.filter_cons]
  split_ifs with hk <;> simp_all

theorem length_filter_key_le {l : List Attempt} (h : (l.map (·.delivery.key)).Nodup)
    (k : String × String) : (l.filter fun a => a.delivery.key = k).length ≤ 1 := by
  have hcount := List.nodup_iff_count_le_one.1 h k
  rw [List.count, List.countP_map, List.countP_eq_length_filter] at hcount
  simpa [Function.comp_def, beq_eq_decide] using hcount

end Held

section Invariant

/-- The row has failed `n` times, and the next attempt starts no earlier than its backoff. -/
def PutOff (outs : List Outcome) (t : ℤ) : Prop :=
  ∀ o, outs.getLast? = some o → o.answeredAt + 10 * 10 ^ 9 * 2 ^ outs.length ≤ t

/-- How the row stands after the outcomes. -/
def Stands (m : ℕ) (outs : List Outcome) (held : List Attempt) (r : WebhookDelivery) : Prop :=
  match r.status with
  | .pending => (∀ o ∈ outs, o.result.acknowledged = false) ∧ outs.length < m
      ∧ r.attempts = outs.length ∧ PutOff outs r.nextAttemptAt
      ∧ ∀ a ∈ held, a.delivery.attempts = outs.length ∧ a.delivery.maxAttempts = m
        ∧ PutOff outs a.started
  | .delivered => held = [] ∧ outs.length ≤ m ∧ ∃ fails o, outs = fails ++ [o]
      ∧ o.result.acknowledged = true ∧ ∀ o ∈ fails, o.result.acknowledged = false
  | .deadLetter => held = [] ∧ outs.length = m ∧ ∀ o ∈ outs, o.result.acknowledged = false

/-- The invariant of one worker's runs. -/
structure Budget (worker : ℕ) (k : String × String) (m : ℕ) (outs : List Outcome) (f : Fleet) :
    Prop where
  own : ∀ a ∈ f.attempts, a.worker = worker
  single : (f.held k).length ≤ 1
  spaced : ∀ n o o', outs[n]? = some o → outs[n + 1]? = some o' →
    o.answeredAt + 10 * 10 ^ 9 * 2 ^ (n + 1) ≤ o'.attempt.started
  row : ∃ r, f.deliveries.find? k = some r ∧ r.maxAttempts = m ∧ Stands m outs (f.held k) r

variable {worker m : ℕ} {outs : List Outcome} {f : Fleet}

theorem PutOff.mono {t t' : ℤ} (h : PutOff outs t) (hle : t ≤ t') : PutOff outs t' :=
  fun o ho => (h o ho).trans hle

theorem Stands.pending {held : List Attempt} {r : WebhookDelivery} (h : Stands m outs held r)
    {a : Attempt} (ha : a ∈ held) : r.status = .pending := by
  unfold Stands at h
  split at h
  · assumption
  · rw [h.1] at ha
    cases ha
  · rw [h.1] at ha
    cases ha

theorem Stands.sub {held held' : List Attempt} {r : WebhookDelivery} (h : Stands m outs held r)
    (hsub : ∀ a ∈ held', a ∈ held) : Stands m outs held' r := by
  have hnil : held = [] → held' = [] := by
    rintro rfl
    exact List.eq_nil_iff_forall_not_mem.2 fun a ha => by simpa using hsub a ha
  unfold Stands at h ⊢
  split at h
  · obtain ⟨hfail, hlt, hatt, hput, hheld⟩ := h
    exact ⟨hfail, hlt, hatt, hput, fun a ha => hheld a (hsub a ha)⟩
  · exact ⟨hnil h.1, h.2⟩
  · exact ⟨hnil h.1, h.2⟩

/-- What a claim leaves of a row, and what it makes of it. -/
theorem Stands.claimed {held : List Attempt} {r : WebhookDelivery} {lockedUntil : ℤ}
    (h : Stands m outs held r) {held' : List Attempt}
    (hheld : ∀ a ∈ held', a.delivery.attempts = r.attempts ∧ a.delivery.maxAttempts = m
      ∧ r.status = .pending ∧ r.nextAttemptAt ≤ a.started) :
    Stands m outs held' r ∧ Stands m outs held' (r.lock lockedUntil) := by
  have hnil : r.status ≠ .pending → held' = [] := by
    intro hne
    rcases held' with _ | ⟨a, rest⟩
    · rfl
    · exact absurd (hheld a List.mem_cons_self).2.2.1 hne
  have hstands : Stands m outs held' r := by
    unfold Stands at h ⊢
    split at h
    · obtain ⟨hfail, hlt, hatt, hput, -⟩ := h
      refine ⟨hfail, hlt, hatt, hput, fun a ha => ?_⟩
      obtain ⟨haa, ham, -, hdue⟩ := hheld a ha
      exact ⟨haa.trans hatt, ham, hput.mono hdue⟩
    · rename_i hs
      exact ⟨hnil (by simp [hs]), h.2⟩
    · rename_i hs
      exact ⟨hnil (by simp [hs]), h.2⟩
  exact ⟨hstands, hstands⟩

theorem Budget.claim (h : Budget worker k m outs f) (hc : 0 < cfg.concurrency)
    {subs : List WebhookSubscription} {now startedAt : ℤ} {locked : WebhookDelivery → Bool}
    {duration : WebhookDelivery → ℕ}
    (hordered : (FleetStep.claim worker subs now startedAt locked duration).Ordered f) :
    Budget worker k m outs
      ((FleetStep.claim worker subs now startedAt locked duration).apply cfg f) := by
  obtain ⟨-, hstart, hold⟩ := hordered
  have hidle : f.attempts = [] := by
    rcases hatt : f.attempts with _ | ⟨a, rest⟩
    · rfl
    · have hmem : a ∈ f.attempts := hatt ▸ List.mem_cons_self
      exact absurd (h.own a hmem) (hold a hmem).2
  rcases hclaim : claimPendingDeliveries subs cfg.batchSize cfg.lockDuration now locked f.deliveries
    with e | ⟨claimed, t⟩
  · simp only [FleetStep.apply, hclaim]
    exact ⟨h.own, h.single, h.spaced, h.row⟩
  obtain ⟨u, hclaims⟩ : ∃ u, Claims subs now u f.deliveries t claimed :=
    ⟨_, (claimPendingDeliveries_ok hclaim).1⟩
  simp only [FleetStep.apply, hclaim, hidle, List.nil_append]
  obtain ⟨r, hr, hm, hstands⟩ := h.row
  have hheld : ∀ a ∈ (deliverBatch cfg worker startedAt duration claimed).filter
      (fun a => a.delivery.key = k), a.delivery.attempts = r.attempts ∧ a.delivery.maxAttempts = m
        ∧ r.status = .pending ∧ r.nextAttemptAt ≤ a.started := by
    intro a ha
    rw [List.mem_filter, decide_eq_true_eq] at ha
    obtain ⟨-, hjob, hafter, -⟩ := mem_deliverBatch ha.1
    obtain ⟨r', hr', hcan, hd⟩ := hclaims.taken a.delivery hjob
    rw [ha.2, hr, Option.some.injEq] at hr'
    subst hr'
    simp only [WebhookDelivery.claimable, Bool.and_eq_true, decide_eq_true_eq] at hcan
    rw [hd]
    exact ⟨rfl, hm, hcan.1.1.1, (hcan.1.1.2.trans hstart).trans hafter⟩
  refine ⟨fun a ha => (mem_deliverBatch ha).1, ?_, h.spaced, ?_⟩
  · refine length_filter_key_le ?_ k
    rw [deliverBatch_keys hc]
    exact hclaims.nodup
  · obtain ⟨hsame, hlocked⟩ := hstands.claimed hheld
    by_cases hk : k ∈ claimed.map (·.key)
    · exact ⟨r.lock u, by rw [hclaims.found, hr, Option.map_some, if_pos hk], hm, hlocked⟩
    · exact ⟨r, by rw [hclaims.not_claimed hk, hr], hm, hsame⟩

theorem Stands.recorded {a : Attempt} {held : List Attempt} {r : WebhookDelivery}
    (hm30 : m ≤ 30) (h : Stands m outs held r) (ha : a ∈ held) (hm : r.maxAttempts = m)
    (result : AttemptResult) (answeredAt : ℤ) :
    Stands m (outs ++ [⟨a, result, answeredAt⟩]) []
      (attemptDelivery a.delivery result answeredAt r) := by
  have hpending := h.pending ha
  unfold Stands at h
  rw [hpending] at h
  obtain ⟨hfail, hlt, hatt, -, hheld⟩ := h
  obtain ⟨haa, ham, -⟩ := hheld a ha
  have hstatus := attemptDelivery_status (r := r) a.delivery result answeredAt
  have hall : result.acknowledged = false →
      ∀ o ∈ outs ++ [⟨a, result, answeredAt⟩], o.result.acknowledged = false := by
    intro hack o ho
    rcases List.mem_append.1 ho with hold | hnew
    · exact hfail o hold
    · rw [List.mem_singleton.1 hnew]
      exact hack
  unfold Stands
  rw [hstatus]
  cases hack : result.acknowledged with
  | true =>
    rw [if_pos rfl]
    refine ⟨rfl, by simpa using hlt, outs, _, rfl, hack, hfail⟩
  | false =>
    rw [if_neg Bool.false_ne_true]
    by_cases hlast : m ≤ outs.length + 1
    · rw [if_pos (.inl (by omega))]
      exact ⟨rfl, by simp; omega, hall hack⟩
    · rw [if_neg (by omega)]
      obtain ⟨hcount, hnext⟩ := attemptDelivery_retried (d := a.delivery) (r := r) answeredAt hack
        (by omega) (by omega)
      refine ⟨hall hack, by simp; omega, by rw [hcount, hatt]; simp, ?_, by simp⟩
      intro o ho
      rw [List.getLast?_concat, Option.some.injEq] at ho
      subst ho
      rw [hnext, backoffDelay_eq (by omega), haa]
      simp

theorem Budget.spaced_concat (h : Budget worker k m outs f) {o₁ : Outcome}
    (hput : PutOff outs o₁.attempt.started) : ∀ n o o', (outs ++ [o₁])[n]? = some o →
    (outs ++ [o₁])[n + 1]? = some o' →
    o.answeredAt + 10 * 10 ^ 9 * 2 ^ (n + 1) ≤ o'.attempt.started := by
  intro n o o' ho ho'
  by_cases hn : n + 1 < outs.length
  · rw [List.getElem?_append_left (by omega)] at ho ho'
    exact h.spaced n o o' ho ho'
  · have hlen : n + 1 = outs.length := by
      have hlt := (List.getElem?_eq_some_iff.1 ho').1
      rw [List.length_append, List.length_singleton] at hlt
      omega
    rw [List.getElem?_append_left (by omega)] at ho
    rw [hlen, List.getElem?_concat_length, Option.some.injEq] at ho'
    subst ho'
    rw [hlen]
    refine hput o ?_
    rw [List.getLast?_eq_getElem?, ← hlen, Nat.add_sub_cancel]
    exact ho

/-- Recording an attempt on the row: the snapshot and the row agree on the decision. -/
theorem Budget.record_self (h : Budget worker k m outs f) (hm30 : m ≤ 30) {i : ℕ} {a : Attempt}
    (hi : f.attempts[i]? = some a) (hk : a.delivery.key = k) (result : AttemptResult)
    (answeredAt : ℤ) :
    Budget worker k m (outs ++ [⟨a, result, answeredAt⟩])
        ((FleetStep.record i result answeredAt true).apply cfg f)
      ∧ (FleetStep.record i result answeredAt true).Decides k f := by
  obtain ⟨r, hr, hm, hstands⟩ := h.row
  have ha : a ∈ f.held k := mem_held.2 ⟨List.mem_of_getElem? hi, hk⟩
  have hpending := hstands.pending ha
  have hnone : (f.attempts.eraseIdx i).filter (fun a => a.delivery.key = k) = [] := by
    have hcount := held_eraseIdx (k := k) hi
    have hsingle := h.single
    rw [if_pos hk] at hcount
    exact List.length_eq_zero_iff.1 (by omega)
  have hrecorded := hstands.recorded hm30 ha hm result answeredAt
  unfold Stands at hstands
  rw [hpending] at hstands
  obtain ⟨-, -, hatt, -, hheld⟩ := hstands
  obtain ⟨haa, ham, hput⟩ := hheld a ha
  refine ⟨?_, fun a' r' ha' _ hr' => ?_⟩
  · simp only [FleetStep.apply, hi, if_true]
    refine ⟨fun b hb => h.own b (List.mem_of_mem_eraseIdx hb), ?_, h.spaced_concat hput, ?_⟩
    · unfold Fleet.held
      simp [hnone]
    · refine ⟨attemptDelivery a.delivery result answeredAt r, ?_, ?_, ?_⟩
      · rw [Table.find?_update, if_pos hk.symm, hk, hr]
        rfl
      · rw [attemptDelivery_maxAttempts, hm]
      · unfold Fleet.held
        simp only [hnone]
        exact hrecorded
  · rw [hi, Option.some.injEq] at ha'
    rw [hr, Option.some.injEq] at hr'
    subst ha' hr'
    omega

theorem Budget.record_other (h : Budget worker k m outs f) {i : ℕ} {a : Attempt}
    (hi : f.attempts[i]? = some a) (hk : a.delivery.key ≠ k) (result : AttemptResult)
    (answeredAt : ℤ) :
    Budget worker k m outs ((FleetStep.record i result answeredAt true).apply cfg f) := by
  obtain ⟨r, hr, hm, hstands⟩ := h.row
  simp only [FleetStep.apply, hi, if_true]
  refine ⟨fun b hb => h.own b (List.mem_of_mem_eraseIdx hb), ?_, h.spaced, r, ?_, hm, ?_⟩
  · have hcount := held_eraseIdx (k := k) hi
    have hsingle := h.single
    rw [if_neg hk] at hcount
    unfold Fleet.held
    simp only []
    omega
  · rw [Table.find?_update, if_neg (Ne.symm hk), hr]
  · refine hstands.sub fun b hb => ?_
    rw [mem_held] at hb ⊢
    exact ⟨List.mem_of_mem_eraseIdx hb.1, hb.2⟩

theorem Budget.enqueue (h : Budget worker k m outs f) (d : WebhookDelivery) :
    Budget worker k m outs ((FleetStep.enqueue d).apply cfg f) := by
  obtain ⟨r, hr, hm, hstands⟩ := h.row
  refine ⟨h.own, h.single, h.spaced, r, ?_, hm, hstands⟩
  simp only [FleetStep.apply]
  rw [Table.find?_insertNew, hr]
  split_ifs <;> rfl

end Invariant

section Run

variable {worker m : ℕ}

theorem fleetRun_budget (hc : 0 < cfg.concurrency) (hm30 : m ≤ 30) :
    ∀ (steps : List FleetStep) (f : Fleet) (outs : List Outcome), Budget worker k m outs f →
    EachStep cfg (fun f step => step.Ordered f) steps f →
    EachStep cfg (fun _ step => step.OneWorker worker) steps f →
    Budget worker k m (outs ++ outcomes cfg k steps f) (fleetRun cfg steps f)
      ∧ EachStep cfg (fun f step => step.Decides k f) steps f
  | [], f, outs, h, _, _ => ⟨by simpa [outcomes, fleetRun] using h, trivial⟩
  | .claim w subs now startedAt locked duration :: steps, f, outs, h, hordered, hone => by
    obtain rfl : worker = w := hone.1.symm
    obtain ⟨hrun, hdecides⟩ := fleetRun_budget hc hm30 steps _ outs (h.claim hc hordered.1)
      hordered.2 hone.2
    exact ⟨hrun, trivial, hdecides⟩
  | .enqueue d :: steps, f, outs, h, hordered, hone => by
    obtain ⟨hrun, hdecides⟩ := fleetRun_budget hc hm30 steps _ outs (h.enqueue d) hordered.2 hone.2
    exact ⟨hrun, trivial, hdecides⟩
  | .die w :: steps, f, outs, h, hordered, hone => hone.1.elim
  | .record i result answeredAt written :: steps, f, outs, h, hordered, hone => by
    obtain rfl : written = true := hone.1
    rw [outcomes]
    rcases hi : f.attempts[i]? with _ | a
    · have hsame : (FleetStep.record i result answeredAt true).apply cfg f = f := by
        simp only [FleetStep.apply, hi]
      obtain ⟨hrun, hdecides⟩ := fleetRun_budget hc hm30 steps _ outs (hsame.symm ▸ h)
        hordered.2 hone.2
      exact ⟨hrun, fun a r ha => (by rw [hi] at ha; cases ha), hdecides⟩
    by_cases hk : a.delivery.key = k
    · obtain ⟨hnext, hagree⟩ := h.record_self hm30 hi hk result answeredAt
      obtain ⟨hrun, hdecides⟩ := fleetRun_budget hc hm30 steps _ _ hnext hordered.2 hone.2
      refine ⟨?_, hagree, hdecides⟩
      simpa [hk, fleetRun, Option.filter] using hrun
    · obtain ⟨hrun, hdecides⟩ := fleetRun_budget hc hm30 steps _ outs
        (h.record_other hi hk result answeredAt) hordered.2 hone.2
      refine ⟨?_, fun a' r ha' hk' => ?_, hdecides⟩
      · simpa [hk, fleetRun, Option.filter] using hrun
      · rw [hi, Option.some.injEq] at ha'
        exact absurd (ha' ▸ hk') hk

end Run

section Reading

variable {m : ℕ} {outs : List Outcome} {held : List Attempt} {r : WebhookDelivery}

theorem Stands.status (h : Stands m outs held r) :
    r.status = if outs.any (·.result.acknowledged) then .delivered
      else if outs.length = m then .deadLetter else .pending := by
  have hnone : (∀ o ∈ outs, o.result.acknowledged = false) →
      outs.any (·.result.acknowledged) = false := by
    intro hfail
    simpa using hfail
  unfold Stands at h
  split at h
  · rename_i hs
    rw [hs, hnone h.1, if_neg Bool.false_ne_true, if_neg (by omega)]
  · rename_i hs
    obtain ⟨-, -, fails, o, rfl, hack, -⟩ := h
    rw [hs, if_pos (by simp [hack])]
  · rename_i hs
    rw [hs, hnone h.2.2, if_neg Bool.false_ne_true, if_pos h.2.1]

theorem Stands.length_le (h : Stands m outs held r) (hsingle : held.length ≤ 1) :
    outs.length + held.length ≤ m := by
  unfold Stands at h
  split at h
  · omega
  · rw [h.1, List.length_nil]
    omega
  · rw [h.1, List.length_nil]
    omega

/-- A `2xx` is the last outcome of its row. -/
theorem Stands.acknowledged (h : Stands m outs held r) {n : ℕ} {o : Outcome}
    (ho : outs[n]? = some o)
    (hack : o.result.acknowledged = true) : n + 1 = outs.length ∧ held = [] := by
  have hmem := List.mem_of_getElem? ho
  unfold Stands at h
  split at h
  · rw [h.1 o hmem] at hack
    cases hack
  · obtain ⟨hnil, -, fails, o', rfl, -, hfail⟩ := h
    refine ⟨?_, hnil⟩
    by_contra hne
    have hlt := (List.getElem?_eq_some_iff.1 ho).1
    rw [List.length_append, List.length_singleton] at hlt hne
    rw [List.getElem?_append_left (by omega)] at ho
    rw [hfail o (List.mem_of_getElem? ho)] at hack
    cases hack
  · rw [h.2.2 o hmem] at hack
    cases hack

theorem Stands.put_off (h : Stands m outs held r) {a : Attempt} (ha : a ∈ held) :
    PutOff outs a.started := by
  have hpending := h.pending ha
  unfold Stands at h
  rw [hpending] at h
  exact (h.2.2.2.2 a ha).2.2

end Reading

/-- With one worker whose statements succeed, a delivery of at most `m` attempts: it is attempted at
most `m` times; it is delivered once an attempt was acknowledged, dead-lettered once `m` have
failed, and pending otherwise; nothing follows an acknowledgement; the decision on the snapshot is
that of the statement on the row; and the attempt after the `n`-th failure starts `10s * 2^n` after
it or later. -/
theorem retry_budget (cfg : WorkerConfig) {worker m : ℕ} (hm : 1 ≤ m) (hm30 : m ≤ 30) {f : Fleet}
    {r : WebhookDelivery} (hidle : ∀ a ∈ f.attempts, a.worker = worker ∧ a.delivery.key ≠ k)
    (hr : f.deliveries.find? k = some r) (hpending : r.status = .pending) (hnew : r.attempts = 0)
    (hmax : r.maxAttempts = m) {steps : List FleetStep}
    (hordered : EachStep (newDeliveryWorker cfg) (fun f step => step.Ordered f) steps f)
    (hone : EachStep (newDeliveryWorker cfg) (fun _ step => step.OneWorker worker) steps f) :
    let outs := outcomes (newDeliveryWorker cfg) k steps f
    let f' := fleetRun (newDeliveryWorker cfg) steps f
    outs.length + (f'.held k).length ≤ m
      ∧ (∃ r', f'.deliveries.find? k = some r'
        ∧ r'.status = if outs.any (·.result.acknowledged) then .delivered
          else if outs.length = m then .deadLetter else .pending)
      ∧ (∀ n o, outs[n]? = some o → o.result.acknowledged = true →
        n + 1 = outs.length ∧ f'.held k = [])
      ∧ EachStep (newDeliveryWorker cfg) (fun f step => step.Decides k f) steps f
      ∧ ∀ n o a, outs[n]? = some o → (outs.map (·.attempt) ++ f'.held k)[n + 1]? = some a →
        o.answeredAt + 10 * 10 ^ 9 * 2 ^ (n + 1) ≤ a.started := by
  intro outs f'
  have hc : 0 < (newDeliveryWorker cfg).concurrency := by
    unfold newDeliveryWorker
    simp only [defaultConcurrency]
    split_ifs <;> omega
  have hheld : f.held k = [] := by
    refine List.filter_eq_nil_iff.2 fun a ha => ?_
    simpa using (hidle a ha).2
  have hstart : Budget worker k m [] f := by
    refine ⟨fun a ha => (hidle a ha).1, by simp [hheld], by simp, r, hr, hmax, ?_⟩
    unfold Stands
    rw [hpending, hheld]
    exact ⟨by simp, hm, hnew, by simp [PutOff], by simp⟩
  obtain ⟨hrun, hdecides⟩ := fleetRun_budget hc hm30 steps f [] hstart hordered hone
  rw [List.nil_append] at hrun
  obtain ⟨r', hr', -, hstands⟩ := hrun.row
  refine ⟨hstands.length_le hrun.single, ⟨r', hr', hstands.status⟩,
    fun n o ho hack => hstands.acknowledged ho hack, hdecides, fun n o a ho ha => ?_⟩
  by_cases hn : n + 1 < outs.length
  · rw [List.getElem?_append_left (by simpa using hn), List.getElem?_map] at ha
    obtain ⟨o', ho', rfl⟩ := Option.map_eq_some_iff.1 ha
    exact hrun.spaced n o o' ho ho'
  · have hlt := (List.getElem?_eq_some_iff.1 ho).1
    have hlen : n + 1 = outs.length := by omega
    rw [List.getElem?_append_right (by simp; omega)] at ha
    rw [hlen]
    refine hstands.put_off (List.mem_of_getElem? ha) o ?_
    rw [List.getLast?_eq_getElem?]
    show outs[outs.length - 1]? = some o
    rwa [show outs.length - 1 = n by omega]

/-- A delivery that fails once, and its retry at the first poll when it is due. -/
def oneRetry : List FleetStep :=
  [.claim 1 [⟨"sub-1", ["pool.deposit"], true⟩] 0 0 (fun _ => false) fun _ => 10 ^ 9,
    .record 0 (.response 503 "busy") (10 ^ 9) true,
    .claim 1 [⟨"sub-1", ["pool.deposit"], true⟩] (20 * 10 ^ 9) (20 * 10 ^ 9) (fun _ => false)
      fun _ => 10 ^ 9,
    .claim 1 [⟨"sub-1", ["pool.deposit"], true⟩] (25 * 10 ^ 9) (25 * 10 ^ 9) (fun _ => false)
      fun _ => 10 ^ 9,
    .record 0 (.response 200 "ok") (26 * 10 ^ 9) true]

def oneDelivery : Fleet := ⟨0, Table.empty.insertNew enqueuedDelivery, []⟩

theorem record_ordered {f : Fleet} (h : f.attempts.length ≤ 1) (result : AttemptResult)
    (answeredAt : ℤ) (written : Bool) :
    (FleetStep.record 0 result answeredAt written).Ordered f := by
  intro a ha b hb
  rcases hatt : f.attempts with _ | ⟨a', rest⟩
  · rw [hatt] at hb
    cases hb
  · rw [hatt, List.length_cons] at h
    obtain rfl : rest = [] := List.length_eq_zero_iff.1 (by omega)
    rw [hatt] at ha hb
    rw [List.mem_singleton.1 hb, ← Option.some.inj ha]

/-- The retry is not made at 20s but at 25s, and settles the delivery. -/
theorem retry_budget_one_retry :
    (outcomes (newDeliveryWorker defaultWorkerConfig) ("sub-1", "e1") oneRetry oneDelivery).map
        (fun o => (o.attempt.started, o.result.acknowledged)) = [(0, false), (25 * 10 ^ 9, true)]
      ∧ ∃ r, (fleetRun
        (newDeliveryWorker defaultWorkerConfig) oneRetry oneDelivery).deliveries.find?
          ("sub-1", "e1") = some r
        ∧ r.status = if (outcomes (newDeliveryWorker defaultWorkerConfig) ("sub-1", "e1") oneRetry
            oneDelivery).any (·.result.acknowledged) then .delivered
          else if (outcomes (newDeliveryWorker defaultWorkerConfig) ("sub-1", "e1") oneRetry
            oneDelivery).length = 5 then .deadLetter else .pending := by
  have hordered : EachStep (newDeliveryWorker defaultWorkerConfig)
      (fun f step => step.Ordered f) oneRetry oneDelivery := by
    refine ⟨⟨by decide, le_rfl, by decide +kernel⟩, ?_,
      ⟨by decide +kernel, le_rfl, by decide +kernel⟩,
      ⟨by decide +kernel, le_rfl, by decide +kernel⟩, ?_, trivial⟩
    · refine record_ordered ?_ _ _ _
      decide +kernel
    · refine record_ordered ?_ _ _ _
      decide +kernel
  exact ⟨by decide +kernel,
    (retry_budget defaultWorkerConfig (by decide) (by decide) (by decide) rfl
    rfl rfl rfl hordered ⟨rfl, rfl, rfl, rfl, rfl, trivial⟩).2.1⟩

end TrusTrove
