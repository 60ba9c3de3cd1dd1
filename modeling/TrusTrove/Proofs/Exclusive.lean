import TrusTrove.Proofs.Claim

/-!
# No two workers attempt one row

A batch is stamped once and attempted in rounds, so its last attempt ends up to `⌈n / Concurrency⌉`
timeouts after the first started (`withinLock_iff`). With the default configuration that is within
the stamp for 48 rows, and not for 49. While every batch is done before its stamp expires, a row
with an attempt under way is locked until that attempt has ended, so no claim takes it
(`fleetRun_exclusive`).
-/

namespace TrusTrove

open Sql

variable {cfg : WorkerConfig}

section Batch

/-- Every attempt of the batch ends before the stamp of a claim at `now` expires, however long the
attempts take up to the timeout. -/
def WithinLock (cfg : WorkerConfig) (now startedAt : ℤ) (batch : List WebhookDelivery) : Prop :=
  ∀ worker (duration : WebhookDelivery → ℕ), (∀ d ∈ batch, (duration d : ℤ) ≤ cfg.httpTimeout) →
    ∀ a ∈ deliverBatch cfg worker startedAt duration batch, a.finished ≤ now + cfg.lockDuration

/-- The rounds in which the pool attempts `n` deliveries. -/
def rounds (cfg : WorkerConfig) (n : ℕ) : ℕ :=
  (n + cfg.concurrency.toNat - 1) / cfg.concurrency.toNat

theorem withinLock_iff {now startedAt : ℤ} {batch : List WebhookDelivery} (hc : 0 < cfg.concurrency)
    (ht : 0 < cfg.httpTimeout) :
    WithinLock cfg now startedAt batch
      ↔ batch = [] ∨ startedAt - now + rounds cfg batch.length * cfg.httpTimeout
        ≤ cfg.lockDuration := by
  have hslots : 0 < cfg.concurrency.toNat := by omega
  constructor
  · intro h
    by_cases hbatch : batch = []
    · exact .inl hbatch
    obtain ⟨r, hr, hfin⟩ := BoundedPool.exists_finished_uniform (fun _ => cfg.httpTimeout.toNat)
      startedAt ht (fun _ _ => Int.toNat_of_nonneg ht.le) hslots hbatch
    have hle := h 0 (fun _ => cfg.httpTimeout.toNat) (fun _ _ => (Int.toNat_of_nonneg ht.le).le) _
      (List.mem_map_of_mem hr)
    simp only [hfin] at hle
    exact .inr (by unfold rounds; linarith)
  · rintro (rfl | hle) worker duration hdur a ha
    · simp [deliverBatch, BoundedPool.run] at ha
    · obtain ⟨r, hr, rfl⟩ := List.mem_map.1 ha
      have hfin := BoundedPool.finished_le ht.le hdur hslots hr
      unfold rounds at hle
      simp only []
      linarith

end Batch

section Run

/-- No row has two attempts under way. -/
def Exclusive (f : Fleet) : Prop := (f.attempts.map (·.delivery.key)).Nodup

/-- The batch a claim takes is done before its stamp expires. -/
def FleetStep.InTime (cfg : WorkerConfig) (f : Fleet) : FleetStep → Prop
  | claim _ subs now startedAt locked _ => ∀ claimed t,
      claimPendingDeliveries subs cfg.batchSize cfg.lockDuration now locked f.deliveries
        = .ok (claimed, t) →
      claimed = [] ∨ startedAt - now + rounds cfg claimed.length * cfg.httpTimeout
        ≤ cfg.lockDuration
  | _ => True

/-- Every attempt under way is still to end, on a row that is locked until then. -/
structure Held (f : Fleet) : Prop where
  exclusive : Exclusive f
  pending : ∀ a ∈ f.attempts, f.clock ≤ a.finished
  locked : ∀ a ∈ f.attempts, ∃ r u, f.deliveries.find? a.delivery.key = some r
    ∧ r.lockedUntil = some u ∧ a.finished ≤ u

variable {f : Fleet}

theorem Held.claim (h : Held f) (hc : 0 < cfg.concurrency) (ht : 0 < cfg.httpTimeout)
    (hlock : 0 < cfg.lockDuration) {worker : ℕ} {subs : List WebhookSubscription}
    {now startedAt : ℤ}
    {locked : WebhookDelivery → Bool} {duration : WebhookDelivery → ℕ}
    (hallowed : (FleetStep.claim worker subs now startedAt locked duration).Allowed cfg f)
    (htime : (FleetStep.claim worker subs now startedAt locked duration).InTime cfg f) :
    Held ((FleetStep.claim worker subs now startedAt locked duration).apply cfg f) := by
  obtain ⟨⟨-, hstart, hold⟩, hdur⟩ := hallowed
  rcases hclaim : claimPendingDeliveries subs cfg.batchSize cfg.lockDuration now locked f.deliveries
    with e | ⟨claimed, t⟩
  · simp only [FleetStep.apply, hclaim]
    exact ⟨h.exclusive, fun a ha => (hold a ha).1, h.locked⟩
  obtain ⟨hclaims, -⟩ := claimPendingDeliveries_ok hclaim
  rw [if_neg hlock.not_ge] at hclaims
  have hwithin :=
    (withinLock_iff hc ht).2 (htime claimed t hclaim) worker duration fun d _ => hdur d
  have hdisjoint : ∀ a ∈ f.attempts, a.delivery.key ∉ claimed.map (·.key) := by
    intro a ha
    obtain ⟨r, u, hr, hu, hle⟩ := h.locked a ha
    exact hclaims.unlocked hr hu ((hold a ha).1.trans hle)
  simp only [FleetStep.apply, hclaim]
  refine ⟨?_, fun a ha => ?_, fun a ha => ?_⟩
  · unfold Exclusive
    rw [List.map_append, deliverBatch_keys hc, List.nodup_append]
    refine ⟨h.exclusive, hclaims.nodup, fun k hk k' hk' heq => ?_⟩
    obtain ⟨a, ha, rfl⟩ := List.mem_map.1 hk
    exact hdisjoint a ha (heq ▸ hk')
  · rcases List.mem_append.1 ha with hmem | hmem
    · exact (hold a hmem).1
    · obtain ⟨-, -, hafter, hends⟩ := mem_deliverBatch hmem
      exact (hstart.trans hafter).trans hends
  · rcases List.mem_append.1 ha with hmem | hmem
    · obtain ⟨r, u, hr, hu, hle⟩ := h.locked a hmem
      exact ⟨r, u, by rw [hclaims.not_claimed (hdisjoint a hmem), hr], hu, hle⟩
    · obtain ⟨-, hjob, -⟩ := mem_deliverBatch hmem
      obtain ⟨r, hr, -, -⟩ := hclaims.taken a.delivery hjob
      refine ⟨r.lock (now + cfg.lockDuration), _, ?_, rfl, hwithin a hmem⟩
      rw [hclaims.found, hr, Option.map_some, if_pos (List.mem_map_of_mem hjob)]

theorem Held.record (h : Held f) {i : ℕ} {result : AttemptResult} {answeredAt : ℤ} {written : Bool}
    (hallowed : (FleetStep.record i result answeredAt written).Allowed cfg f) :
    Held ((FleetStep.record i result answeredAt written).apply cfg f) := by
  rcases hi : f.attempts[i]? with _ | a
  · simp only [FleetStep.apply, hi]
    exact h
  simp only [FleetStep.apply, hi]
  have hsub : ∀ b ∈ f.attempts.eraseIdx i, b ∈ f.attempts := fun _ => List.mem_of_mem_eraseIdx
  obtain ⟨hlt, rfl⟩ := List.getElem?_eq_some_iff.1 hi
  have hother : ∀ b ∈ f.attempts.eraseIdx i, b.delivery.key ≠ f.attempts[i].delivery.key := by
    have hnodup := ((List.getElem_cons_eraseIdx_perm hlt).map
      fun a : Attempt => a.delivery.key).nodup_iff.2 h.exclusive
    rw [List.map_cons, List.nodup_cons] at hnodup
    exact fun b hb heq => hnodup.1 (heq ▸ List.mem_map_of_mem hb)
  refine ⟨h.exclusive.sublist ((List.eraseIdx_sublist _ _).map _), ?_, fun b hb => ?_⟩
  · exact fun b hb => hallowed.1 _ hi b (hsub b hb)
  · obtain ⟨r, u, hr, hu, hle⟩ := h.locked b (hsub b hb)
    refine ⟨r, u, ?_, hu, hle⟩
    split_ifs
    · rw [Table.find?_update, if_neg (hother b hb), hr]
    · exact hr

/-- One step of the fleet keeps every row to one attempt. -/
theorem Held.step (h : Held f) (hc : 0 < cfg.concurrency) (ht : 0 < cfg.httpTimeout)
    (hlock : 0 < cfg.lockDuration) (step : FleetStep) (hallowed : step.Allowed cfg f)
    (htime : step.InTime cfg f) : Held (step.apply cfg f) := by
  cases step with
  | claim worker subs now startedAt locked duration => exact h.claim hc ht hlock hallowed htime
  | record i result answeredAt written => exact h.record hallowed
  | die worker =>
    have hsub : ∀ a ∈ f.attempts.filter (·.worker ≠ worker), a ∈ f.attempts :=
      fun _ => List.mem_of_mem_filter
    exact ⟨h.exclusive.sublist (List.filter_sublist.map _), fun a ha => h.pending a (hsub a ha),
      fun a ha => h.locked a (hsub a ha)⟩
  | enqueue d =>
    refine ⟨h.exclusive, h.pending, fun a ha => ?_⟩
    obtain ⟨r, u, hr, hu, hle⟩ := h.locked a ha
    refine ⟨r, u, ?_, hu, hle⟩
    simp only [FleetStep.apply]
    rw [Table.find?_insertNew, hr]
    split_ifs <;> rfl

theorem fleetRun_held (hc : 0 < cfg.concurrency) (ht : 0 < cfg.httpTimeout)
    (hlock : 0 < cfg.lockDuration) : ∀ (steps : List FleetStep) (f : Fleet), Held f →
    EachStep cfg (fun f step => step.Allowed cfg f) steps f →
    EachStep cfg (fun f step => step.InTime cfg f) steps f → Held (fleetRun cfg steps f)
  | [], _, h, _, _ => h
  | step :: steps, f, h, hallowed, htime =>
    fleetRun_held hc ht hlock steps (step.apply cfg f)
      (h.step hc ht hlock step hallowed.1 htime.1) hallowed.2 htime.2

end Run

/-- With the default configuration: every attempt of a batch ends before the stamp of its claim
expires, whatever the attempts take, exactly when the delay before the first attempt and a timeout
for each round of eight fit into the sixty seconds of the stamp; and in every run of any number of
workers whose batches all do, no row ever has two attempts under way. -/
theorem default_batches_exclusive (now startedAt : ℤ) (batch : List WebhookDelivery)
    (steps : List FleetStep) (f : Fleet) :
    (now ≤ startedAt → (batch.length : ℤ) ≤ (newDeliveryWorker defaultWorkerConfig).batchSize →
      (WithinLock (newDeliveryWorker defaultWorkerConfig) now startedAt batch
        ↔ batch = [] ∨ startedAt - now + ((batch.length + 7) / 8 : ℕ) * (10 * 10 ^ 9)
          ≤ 60 * 10 ^ 9))
      ∧ (f.attempts = [] →
        EachStep (newDeliveryWorker defaultWorkerConfig)
          (fun f step => step.Allowed (newDeliveryWorker defaultWorkerConfig) f) steps f →
        EachStep (newDeliveryWorker defaultWorkerConfig)
          (fun f step => step.InTime (newDeliveryWorker defaultWorkerConfig) f) steps f →
        Exclusive (fleetRun (newDeliveryWorker defaultWorkerConfig) steps f)) := by
  refine ⟨fun _ _ => withinLock_iff (by decide) (by decide), fun hf hallowed htime => ?_⟩
  have hstart : Held f := by
    refine ⟨?_, ?_, ?_⟩ <;> simp [Exclusive, hf]
  exact (fleetRun_held (by decide) (by decide) (by decide) steps f hstart hallowed htime).exclusive

/-- A queue of `n` deliveries of one subscription. -/
def backlog (n : ℕ) : List WebhookDelivery :=
  (List.range n).map fun i => newDelivery "sub-1" "pool.deposit" (Nat.repr i)
    ⟨schemaVersion, .poolDeposit, Nat.repr i, 1767225600, 101, "", .generic []⟩ 0

def backlogFleet (n : ℕ) : Fleet :=
  ⟨0, (backlog n).foldl (fun t d => t.insertNew d) Table.empty, []⟩

def backlogSubs : List WebhookSubscription := [⟨"sub-1", ["pool.deposit"], true⟩]

/-- Worker 1 claims everything at once, to endpoints that take the whole timeout to answer. When its
sixth round has been recorded, worker 2 claims. -/
def slowRounds (recorded : ℕ) : List FleetStep :=
  .claim 1 backlogSubs 0 0 (fun _ => false) (fun _ => 10 * 10 ^ 9)
    :: List.replicate recorded (.record 0 (.response 200 "ok") 0 true)
    ++ [.claim 2 backlogSubs (60 * 10 ^ 9 + 1) (60 * 10 ^ 9 + 1) (fun _ => false)
      (fun _ => 10 * 10 ^ 9)]

theorem inTime_of_length {worker : ℕ} {subs : List WebhookSubscription} {now startedAt : ℤ}
    {locked : WebhookDelivery → Bool} {duration : WebhookDelivery → ℕ} {f : Fleet} {n : ℕ}
    (hn : (claimPendingDeliveries subs cfg.batchSize cfg.lockDuration now locked
      f.deliveries).toOption.map
      (·.1.length) = some n)
    (hle : startedAt - now + rounds cfg n * cfg.httpTimeout ≤ cfg.lockDuration) :
    (FleetStep.claim worker subs now startedAt locked duration).InTime cfg f := by
  intro claimed t h
  rw [h] at hn
  obtain rfl : claimed.length = n := by simpa [Except.toOption] using hn
  exact .inr hle

/-- The attempt that is recorded next is the first to end. -/
def recordsInOrder (cfg : WorkerConfig) : ℕ → Fleet → Bool
  | 0, _ => true
  | n + 1, f => f.attempts.head?.all (fun a => f.attempts.all fun b => a.finished ≤ b.finished)
    && recordsInOrder cfg n ((FleetStep.record 0 (.response 200 "ok") 0 true).apply cfg f)

theorem records_allowed (rest : List FleetStep) :
    ∀ (n : ℕ) (f : Fleet), recordsInOrder cfg n f = true →
    EachStep cfg (fun f step => step.Allowed cfg f) rest
      (fleetRun cfg (List.replicate n (.record 0 (.response 200 "ok") 0 true)) f) →
    EachStep cfg (fun f step => step.Allowed cfg f)
      (List.replicate n (.record 0 (.response 200 "ok") 0 true) ++ rest) f
  | 0, _, _, hrest => hrest
  | n + 1, f, h, hrest => by
    rw [recordsInOrder, Bool.and_eq_true] at h
    refine ⟨⟨fun a ha b hb => ?_, trivial⟩, records_allowed rest n _ h.2 hrest⟩
    rw [← List.head?_eq_getElem?] at ha
    have hfirst : ∀ b ∈ f.attempts, a.finished ≤ b.finished := by simpa [ha] using h.1
    exact hfirst b hb

/-- A batch of 48 is within its stamp, and a run of two workers on two rows keeps them apart. -/
theorem default_batches_exclusive_two :
    WithinLock (newDeliveryWorker defaultWorkerConfig) 0 0 (backlog 48)
      ∧ Exclusive (fleetRun (newDeliveryWorker defaultWorkerConfig) (slowRounds 2)
        (backlogFleet 2)) := by
  obtain ⟨hbatch, hrun⟩ :=
    default_batches_exclusive 0 0 (backlog 48) (slowRounds 2) (backlogFleet 2)
  refine ⟨(hbatch le_rfl (by decide)).2 (by decide), hrun rfl ?_ ?_⟩
  · have hdur : ((10 * 10 ^ 9 : ℕ) : ℤ) ≤ (newDeliveryWorker defaultWorkerConfig).httpTimeout := by
      decide
    refine ⟨⟨⟨le_rfl, le_rfl, fun a ha => (by cases ha)⟩, fun _ => hdur⟩, ?_⟩
    refine records_allowed _ 2 _ (by decide +kernel) ⟨⟨⟨?_, le_rfl, ?_⟩, fun _ => hdur⟩, trivial⟩
    · decide +kernel
    · decide +kernel
  · exact ⟨inTime_of_length (n := 2) (by decide +kernel) (by decide), trivial, trivial,
      inTime_of_length (n := 0) (by decide +kernel) (by decide), trivial⟩

/-- Of 49 rows the last is attempted past the stamp, and a second worker attempts it as well. -/
theorem default_batches_overlap :
    (backlog 49).length ≤ 50
      ∧ ¬ WithinLock (newDeliveryWorker defaultWorkerConfig) 0 0 (backlog 49)
      ∧ EachStep (newDeliveryWorker defaultWorkerConfig)
        (fun f step => step.Allowed (newDeliveryWorker defaultWorkerConfig) f) (slowRounds 48)
        (backlogFleet 49)
      ∧ (fleetRun (newDeliveryWorker defaultWorkerConfig) (slowRounds 48)
        (backlogFleet 49)).attempts.map
          (fun a => (a.worker, a.delivery.key, a.started, a.finished)) =
        [(1, ("sub-1", "48"), 60 * 10 ^ 9, 70 * 10 ^ 9),
          (2, ("sub-1", "48"), 60 * 10 ^ 9 + 1, 70 * 10 ^ 9 + 1)] := by
  refine ⟨by decide, ?_, ?_, by decide +kernel⟩
  · rw [withinLock_iff (by decide) (by decide)]
    decide +kernel
  · have hdur : ((10 * 10 ^ 9 : ℕ) : ℤ) ≤ (newDeliveryWorker defaultWorkerConfig).httpTimeout := by
      decide
    refine ⟨⟨⟨le_rfl, le_rfl, fun a ha => (by cases ha)⟩, fun _ => hdur⟩, ?_⟩
    refine records_allowed _ 48 _ (by decide +kernel) ⟨⟨⟨?_, le_rfl, ?_⟩, fun _ => hdur⟩, trivial⟩
    · decide +kernel
    · decide +kernel

end TrusTrove
