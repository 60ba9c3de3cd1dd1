import TrusTrove.DeliveryWorker

/-!
# Settled deliveries

A claim only takes pending rows, but the statement that records an outcome does not look at the
row's status. An attempt whose claim has expired can therefore still write to a row another attempt
has settled. A run leaves every settled row settled exactly when each such late outcome agrees with
the status it finds (`settled_absorbing_iff`).
-/

namespace TrusTrove

open Sql

/-- The step records no outcome on the row that disagrees with a settled status: on a delivered row,
no failure; on a dead-lettered one, no acknowledgement, and no retry while attempts are left. -/
def DeliveryStep.Agrees (k : String × String) (q : DeliveryQueue) : DeliveryStep → Prop
  | finish i result _ true => ∀ d r, q.inFlight[i]? = some d → d.key = k →
      q.deliveries.find? k = some r →
      (r.status = .delivered → result.acknowledged = true)
        ∧ (r.status = .deadLetter → result.acknowledged = false
          ∧ (d.maxAttempts ≤ d.attempts + 1 ∨ r.maxAttempts ≤ r.attempts + 1))
  | _ => True

section Step

variable {k : String × String} {q : DeliveryQueue} {r : WebhookDelivery}

theorem handleFailure_status (d : WebhookDelivery) (statusCode : Option ℤ)
    (errMsg : String) (now : ℤ) :
    (handleFailure d statusCode errMsg now r).status =
      if d.maxAttempts ≤ d.attempts + 1 ∨ r.maxAttempts ≤ r.attempts + 1 then .deadLetter
      else .pending := by
  unfold handleFailure
  by_cases hd : d.maxAttempts ≤ d.attempts + 1
  · rw [if_pos hd, if_pos (.inl hd)]
    rfl
  · simp [hd, markDeliveryRetry]

theorem attemptDelivery_status (d : WebhookDelivery) (result : AttemptResult) (now : ℤ) :
    (attemptDelivery d result now r).status =
      if result.acknowledged then .delivered
      else if d.maxAttempts ≤ d.attempts + 1 ∨ r.maxAttempts ≤ r.attempts + 1 then .deadLetter
      else .pending := by
  cases result with
  | unsafeURL => exact handleFailure_status ..
  | buildFailed err => exact handleFailure_status ..
  | httpFailed err => exact handleFailure_status ..
  | response statusCode body =>
    by_cases hack : 200 ≤ statusCode ∧ statusCode < 300
    · simp [attemptDelivery, AttemptResult.acknowledged, hack, markDeliverySuccess]
    · simp only [attemptDelivery, AttemptResult.acknowledged, if_neg hack, handleFailure_status]
      simp [hack]

theorem claim_status {subs : List WebhookSubscription} {limit lockFor now : ℤ}
    {locked : WebhookDelivery → Bool} (hr : q.deliveries.find? k = some r) :
    ∃ r', ((DeliveryStep.claim subs limit lockFor now locked).apply q).deliveries.find? k = some r'
      ∧ r'.status = r.status := by
  by_cases hlimit : limit ≤ 0
  · simp only [DeliveryStep.apply, claimPendingDeliveries, if_pos hlimit]
    exact ⟨r, hr, rfl⟩
  · simp only [DeliveryStep.apply, claimPendingDeliveries, if_neg hlimit]
    rw [Table.find?_updateWhere, hr]
    refine ⟨_, rfl, ?_⟩
    rw [apply_ite WebhookDelivery.status]
    exact ite_self _

theorem attemptDelivery_keeps_iff {d : WebhookDelivery} {result : AttemptResult} {now : ℤ}
    (hs : r.status ≠ .pending) :
    (attemptDelivery d result now r).status = r.status
      ↔ (r.status = .delivered → result.acknowledged = true)
        ∧ (r.status = .deadLetter → result.acknowledged = false
          ∧ (d.maxAttempts ≤ d.attempts + 1 ∨ r.maxAttempts ≤ r.attempts + 1)) := by
  rw [attemptDelivery_status]
  cases hst : r.status with
  | pending => exact absurd hst hs
  | delivered =>
    cases result.acknowledged with
    | true => simp
    | false =>
      simp only [Bool.false_eq_true, if_false, reduceCtorEq, forall_const, false_and]
      split_ifs <;> simp
  | deadLetter =>
    cases result.acknowledged with
    | true => simp
    | false =>
      simp only [Bool.false_eq_true, if_false, reduceCtorEq, false_imp_iff, true_and, forall_const]
      split_ifs with hlast <;> simp [hlast]

theorem step_keeps_iff (hr : q.deliveries.find? k = some r) (hs : r.status ≠ .pending)
    (step : DeliveryStep) :
    (∃ r', (step.apply q).deliveries.find? k = some r' ∧ r'.status = r.status)
      ↔ step.Agrees k q := by
  cases step with
  | claim subs limit lockFor now locked => exact iff_of_true (claim_status hr) trivial
  | abandon i => exact iff_of_true ⟨r, hr, rfl⟩ trivial
  | finish i result now written =>
    rcases hd : q.inFlight[i]? with _ | d
    · simp only [DeliveryStep.apply, hd]
      refine iff_of_true ⟨r, hr, rfl⟩ ?_
      cases written <;> simp [DeliveryStep.Agrees, hd]
    · cases written with
      | false =>
        simp only [DeliveryStep.apply, hd]
        exact iff_of_true ⟨r, hr, rfl⟩ trivial
      | true =>
        simp only [DeliveryStep.apply, hd, if_true, Table.find?_update, DeliveryStep.Agrees]
        by_cases hk : k = d.key
        · subst hk
          simp only [if_true, hr, Option.map_some, Option.some.injEq, exists_eq_left',
            attemptDelivery_keeps_iff hs]
          refine ⟨fun h d' r' hd' _ hr' => ?_, fun h => h d r rfl rfl rfl⟩
          subst hd' hr'
          exact h
        · rw [if_neg hk]
          exact iff_of_true ⟨r, hr, rfl⟩ fun d' _ hd' hk' =>
            absurd (Option.some.inj hd' ▸ hk'.symm) hk

end Step

section Run

variable {k : String × String} {q : DeliveryQueue}

theorem deliveryRun_append (pre post : List DeliveryStep) (q : DeliveryQueue) :
    deliveryRun (pre ++ post) q = deliveryRun post (deliveryRun pre q) := List.foldl_append ..

/-- Once the row is settled, it stays so to the end of any part of the run. -/
def SettledAbsorbing (steps : List DeliveryStep) (q : DeliveryQueue) (k : String × String) : Prop :=
  ∀ pre mid post, steps = pre ++ mid ++ post →
    ∀ r, (deliveryRun pre q).deliveries.find? k = some r → r.status ≠ .pending →
      ∃ r', (deliveryRun (pre ++ mid) q).deliveries.find? k = some r' ∧ r'.status = r.status

theorem deliveryRun_keeps : ∀ (steps : List DeliveryStep) (q : DeliveryQueue) (r : WebhookDelivery),
    (∀ pre step post, steps = pre ++ step :: post → step.Agrees k (deliveryRun pre q)) →
    q.deliveries.find? k = some r → r.status ≠ .pending →
    ∃ r', (deliveryRun steps q).deliveries.find? k = some r' ∧ r'.status = r.status
  | [], q, r, _, hr, _ => ⟨r, hr, rfl⟩
  | step :: steps, q, r, hagree, hr, hs => by
    obtain ⟨r₁, hr₁, hs₁⟩ := (step_keeps_iff hr hs step).2 (hagree [] step steps rfl)
    obtain ⟨r₂, hr₂, hs₂⟩ := deliveryRun_keeps steps (step.apply q) r₁
      (fun pre x post h => hagree (step :: pre) x post (by rw [h]; rfl)) hr₁ (hs₁ ▸ hs)
    exact ⟨r₂, hr₂, hs₂.trans hs₁⟩

end Run

/-- Over any interleaving of claims, expiries and outcomes, a settled row never changes its status
exactly when every outcome recorded on it agrees with the status it finds. -/
theorem settled_absorbing_iff (steps : List DeliveryStep) (q : DeliveryQueue)
    (k : String × String) :
    SettledAbsorbing steps q k
      ↔ ∀ pre step post, steps = pre ++ step :: post → step.Agrees k (deliveryRun pre q) := by
  constructor
  · intro h pre step post hsteps
    have hstep : ∀ r, (deliveryRun pre q).deliveries.find? k = some r → r.status ≠ .pending →
        step.Agrees k (deliveryRun pre q) := by
      intro r hr hs
      have hkeeps := h pre [step] post (by simp [hsteps]) r hr hs
      rw [deliveryRun_append] at hkeeps
      exact (step_keeps_iff hr hs step).1 hkeeps
    match step, hstep with
    | .claim .., _ => trivial
    | .abandon .., _ => trivial
    | .finish _ _ _ false, _ => trivial
    | .finish i result now true, hstep =>
      intro d r hd hk hr
      by_cases hs : r.status = .pending
      · simp [hs]
      · exact hstep r hr hs d r hd hk hr
  · intro hagree pre mid post hsteps r hr hs
    rw [deliveryRun_append]
    refine deliveryRun_keeps mid _ r (fun pre' step post' hmid => ?_) hr hs
    rw [← deliveryRun_append]
    exact hagree (pre ++ pre') step (post' ++ post) (by simp [hsteps, hmid])

/-- A delivery that was just enqueued. -/
def enqueuedDelivery : WebhookDelivery :=
  newDelivery "sub-1" "pool.deposit" "e1" ⟨schemaVersion, .poolDeposit, "e1", 1767225600, 101, "",
    .generic []⟩ 0

/-- Two workers claim the row, the second once the claim of the first has expired. The second is
acknowledged, then the first times out. -/
def lateFailure : List DeliveryStep :=
  [.claim [⟨"sub-1", ["pool.deposit"], true⟩] 50 (60 * 10 ^ 9) (5 * 10 ^ 9) fun _ => false,
    .claim [⟨"sub-1", ["pool.deposit"], true⟩] 50 (60 * 10 ^ 9) (66 * 10 ^ 9) fun _ => false,
    .finish 1 (.response 200 "ok") (67 * 10 ^ 9) true,
    .finish 0 (.httpFailed "context deadline exceeded") (75 * 10 ^ 9) true]

/-- The acknowledged delivery is back in the queue. -/
theorem settled_absorbing_late_failure :
    let q : DeliveryQueue := ⟨Table.empty.insertNew enqueuedDelivery, []⟩
    ((deliveryRun (lateFailure.take 3) q).deliveries.find? ("sub-1", "e1")).map (·.status) =
        some .delivered
      ∧ ((deliveryRun lateFailure q).deliveries.find? ("sub-1", "e1")).map (·.status) =
          some .pending
      ∧ ¬ SettledAbsorbing lateFailure q ("sub-1", "e1") := by
  intro q
  have hsettled : ((deliveryRun (lateFailure.take 3) q).deliveries.find? ("sub-1", "e1")).map
      (·.status) = some .delivered := by decide +kernel
  have hback : ((deliveryRun lateFailure q).deliveries.find? ("sub-1", "e1")).map (·.status) =
      some .pending := by decide +kernel
  refine ⟨hsettled, hback, fun h => ?_⟩
  obtain ⟨r, hr, hs⟩ := Option.map_eq_some_iff.1 hsettled
  obtain ⟨r', hr', hs'⟩ :=
    h (lateFailure.take 3) (lateFailure.drop 3) [] (by simp) r hr (by simp [hs])
  rw [List.take_append_drop] at hr'
  rw [hr', Option.map_some, hs', hs] at hback
  cases hback

end TrusTrove
