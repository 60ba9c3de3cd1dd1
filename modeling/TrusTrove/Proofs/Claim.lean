import TrusTrove.WorkerFleet

/-!
# What a claim takes

Everything the workers' proofs need of `ClaimPendingDeliveries`: the snapshots it returns are of
claimable rows, no two of one row, and it changes nothing but the stamp of those rows. The batch is
then attempted once, each delivery after the batch was started.
-/

namespace TrusTrove

open Sql

/-- The effect of a claim at `now` that stamps `lockedUntil`. -/
structure Claims (subs : List WebhookSubscription) (now lockedUntil : ℤ) (t t' : Deliveries)
    (claimed : List WebhookDelivery) : Prop where
  taken : ∀ d ∈ claimed, ∃ r, t.find? d.key = some r ∧ r.claimable subs now = true
    ∧ d = r.lock lockedUntil
  nodup : (claimed.map (·.key)).Nodup
  found : ∀ k, t'.find? k =
    (t.find? k).map fun r => if k ∈ claimed.map (·.key) then r.lock lockedUntil else r

variable {subs : List WebhookSubscription} {limit lockFor now lockedUntil : ℤ}
  {locked : WebhookDelivery → Bool} {t t' : Deliveries} {claimed : List WebhookDelivery}

theorem mem_claimableDeliveries {n : ℕ} {r : WebhookDelivery}
    (h : r ∈ claimableDeliveries subs n now locked t) :
    r ∈ t.rows ∧ r.claimable subs now = true := by
  unfold claimableDeliveries at h
  have hmem := (List.mem_insertionSort _).1 (List.mem_of_mem_take h)
  rw [List.mem_filter, Bool.and_eq_true] at hmem
  exact ⟨hmem.1, hmem.2.1⟩

theorem claimableDeliveries_nodup (n : ℕ) :
    ((claimableDeliveries subs n now locked t).map (·.key)).Nodup := by
  unfold claimableDeliveries
  have hfilter : ((t.rows.filter fun d => d.claimable subs now && !locked d).map (·.key)).Nodup :=
    t.nodup.sublist (List.filter_sublist.map _)
  have hsort := ((List.perm_insertionSort (fun a b : WebhookDelivery =>
    a.nextAttemptAt ≤ b.nextAttemptAt) _).map (·.key)).nodup_iff.2 hfilter
  exact hsort.sublist ((List.take_sublist _ _).map _)

theorem map_lock_key (lockedUntil : ℤ) (ds : List WebhookDelivery) :
    (ds.map (·.lock lockedUntil)).map (·.key) = ds.map (·.key) := by
  rw [List.map_map]
  rfl

theorem claimPendingDeliveries_ok
    (h : claimPendingDeliveries subs limit lockFor now locked t = .ok (claimed, t')) :
    Claims subs now (now + if lockFor ≤ 0 then defaultClaimLockTTL else lockFor) t t' claimed
      ∧ (claimed.length : ℤ) ≤ limit := by
  unfold claimPendingDeliveries at h
  by_cases hlimit : limit ≤ 0
  · rw [if_pos hlimit] at h
    cases h
  rw [if_neg hlimit, Except.ok.injEq, Prod.mk.injEq] at h
  obtain ⟨rfl, rfl⟩ := h
  refine ⟨⟨fun d hd => ?_, ?_, fun k => ?_⟩, ?_⟩
  · obtain ⟨r, hr, rfl⟩ := List.mem_map.1 hd
    obtain ⟨hrow, hclaim⟩ := mem_claimableDeliveries hr
    exact ⟨r, Table.find?_of_mem hrow, hclaim, rfl⟩
  · rw [map_lock_key]
    exact claimableDeliveries_nodup _
  · rw [Table.find?_updateWhere, map_lock_key]
    refine Option.map_congr fun r hr => ?_
    rw [Table.key_of_find? hr]
    simp
  · rw [List.length_map]
    have : (claimableDeliveries subs limit.toNat now locked t).length ≤ limit.toNat := by
      unfold claimableDeliveries
      exact List.length_take_le _ _
    omega

theorem Claims.not_claimed (h : Claims subs now lockedUntil t t' claimed) {k : String × String}
    (hk : k ∉ claimed.map (·.key)) : t'.find? k = t.find? k := by
  rw [h.found]
  simp [hk]

theorem Claims.unlocked (h : Claims subs now lockedUntil t t' claimed) {k : String × String}
    {r : WebhookDelivery} {u : ℤ} (hr : t.find? k = some r) (hu : r.lockedUntil = some u)
    (hnow : now ≤ u) : k ∉ claimed.map (·.key) := by
  intro hk
  obtain ⟨d, hd, rfl⟩ := List.mem_map.1 hk
  obtain ⟨r', hr', hclaim, -⟩ := h.taken d hd
  rw [hr, Option.some.injEq] at hr'
  subst hr'
  simp only [WebhookDelivery.claimable, hu, Option.all_some, Bool.and_eq_true,
    decide_eq_true_eq] at hclaim
  omega

section Batch

variable {cfg : WorkerConfig}

theorem deliverBatch_keys (hc : 0 < cfg.concurrency) (worker : ℕ) (startedAt : ℤ)
    (duration : WebhookDelivery → ℕ) (batch : List WebhookDelivery) :
    (deliverBatch cfg worker startedAt duration batch).map (·.delivery.key) =
      batch.map (·.key) := by
  have hne : List.replicate cfg.concurrency.toNat startedAt ≠ [] := by
    simp
    omega
  unfold deliverBatch
  rw [List.map_map]
  conv_rhs => rw [← BoundedPool.run_jobs duration batch _ hne, List.map_map]
  rfl

theorem mem_deliverBatch {worker : ℕ} {startedAt : ℤ} {duration : WebhookDelivery → ℕ}
    {batch : List WebhookDelivery} {a : Attempt}
    (ha : a ∈ deliverBatch cfg worker startedAt duration batch) :
    a.worker = worker ∧ a.delivery ∈ batch ∧ startedAt ≤ a.started ∧ a.started ≤ a.finished := by
  obtain ⟨r, hr, rfl⟩ := List.mem_map.1 ha
  obtain ⟨hjob, hfin⟩ := BoundedPool.run_finished batch _ r hr
  have hstart := BoundedPool.le_started duration batch _
    (fun s hs => (List.eq_of_mem_replicate hs).ge) r hr
  exact ⟨rfl, hjob, hstart, by simp only []; omega⟩

end Batch

end TrusTrove
