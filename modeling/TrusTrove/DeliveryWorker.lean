import TrusTrove.Queries

/-!
# The webhook delivery queue

The statements of `db/webhooks.go` on `webhook_deliveries` and what `webhooks/worker.go` makes of an
attempt. A claim returns a snapshot of each row it stamps; the attempt is made on the snapshot, and
the statement that records its outcome finds the row by its id alone. Times are in nanoseconds. The
serial id of a row is its key, `(subscription_id, event_id)`.
-/

namespace TrusTrove

open Sql

/-- `webhook_deliveries`. -/
abbrev Deliveries := Table WebhookDelivery WebhookDelivery.key

def defaultClaimLockTTL : ℤ := 60 * 10 ^ 9

/-- The `WHERE` clause of the claim, over the subscriptions it joins. -/
def WebhookDelivery.claimable (subs : List WebhookSubscription) (now : ℤ) (d : WebhookDelivery) :
    Bool :=
  d.status = .pending && d.nextAttemptAt ≤ now && d.lockedUntil.all (· < now)
    && subs.any fun sub => sub.id = d.subscriptionID && sub.active

/-- The rows a claim selects. `locked` are those `SKIP LOCKED` passes over. -/
def claimableDeliveries (subs : List WebhookSubscription) (limit : ℕ) (now : ℤ)
    (locked : WebhookDelivery → Bool) (t : Deliveries) : List WebhookDelivery :=
  ((t.rows.filter fun d => d.claimable subs now && !locked d).insertionSort
    fun a b => a.nextAttemptAt ≤ b.nextAttemptAt).take limit

/-- What a claim sets. -/
def WebhookDelivery.lock (lockedUntil : ℤ) (d : WebhookDelivery) : WebhookDelivery :=
  { d with lockedUntil := some lockedUntil }

theorem WebhookDelivery.lock_key (lockedUntil : ℤ) (d : WebhookDelivery) :
    (d.lock lockedUntil).key = d.key := rfl

/-- `ClaimPendingDeliveries`: the snapshots it returns, and the queue after it. -/
def claimPendingDeliveries (subs : List WebhookSubscription) (limit lockFor now : ℤ)
    (locked : WebhookDelivery → Bool) (t : Deliveries) :
    Except GoError (List WebhookDelivery × Deliveries) :=
  if limit ≤ 0 then
    .error (.new ("db: claim pending deliveries: limit must be positive, got " ++ toString limit))
  else
    let lockedUntil := now + if lockFor ≤ 0 then defaultClaimLockTTL else lockFor
    let claimed := claimableDeliveries subs limit.toNat now locked t
    .ok (claimed.map (·.lock lockedUntil),
      t.updateWhere (fun d => (claimed.map (·.key)).contains d.key) (·.lock lockedUntil)
        (WebhookDelivery.lock_key lockedUntil))

/-- What `MarkDeliverySuccess` sets. -/
def markDeliverySuccess (statusCode : ℤ) (response : String) (r : WebhookDelivery) :
    WebhookDelivery :=
  { r with
    status := .delivered, lastStatus := some statusCode, lastResponse := some response
    lastError := none, attempts := r.attempts + 1, lockedUntil := none }

/-- What `MarkDeliveryRetry` sets. -/
def markDeliveryRetry (nextAttemptAt : ℤ) (statusCode : Option ℤ) (errorMsg : String)
    (r : WebhookDelivery) : WebhookDelivery :=
  { r with
    status := if r.maxAttempts ≤ r.attempts + 1 then .deadLetter else .pending
    lastStatus := statusCode, lastError := some errorMsg
    nextAttemptAt := if r.maxAttempts ≤ r.attempts + 1 then r.nextAttemptAt else nextAttemptAt
    attempts := r.attempts + 1, lockedUntil := none }

/-- What `MarkDeliveryDeadLetter` sets. -/
def markDeliveryDeadLetter (errorMsg : String) (r : WebhookDelivery) : WebhookDelivery :=
  { r with status := .deadLetter, lastError := some errorMsg, lockedUntil := none }

/-- `backoffBase * 2^nextAttempt`, a 64-bit duration. -/
def backoffDelay (nextAttempt : ℕ) : ℤ := (10 * 10 ^ 9 * 2 ^ nextAttempt : ℤ).bmod (2 ^ 64)

/-- `handleFailure`, as what its statement sets. -/
def handleFailure (d : WebhookDelivery) (statusCode : Option ℤ) (errMsg : String) (now : ℤ) :
    WebhookDelivery → WebhookDelivery :=
  if d.maxAttempts ≤ d.attempts + 1 then markDeliveryDeadLetter errMsg
  else markDeliveryRetry (now + backoffDelay (d.attempts + 1)) statusCode errMsg

/-- How an attempt ends. The body of a response is what the limited reader returns of it. -/
inductive AttemptResult
  | unsafeURL
  | buildFailed (err : String)
  | httpFailed (err : String)
  | response (statusCode : ℕ) (body : String)
  deriving DecidableEq, Repr

/-- The endpoint answered with a `2xx`. -/
def AttemptResult.acknowledged : AttemptResult → Bool
  | response statusCode _ => 200 ≤ statusCode && statusCode < 300
  | _ => false

/-- `attemptDelivery`, as what its statement sets. -/
def attemptDelivery (d : WebhookDelivery) (result : AttemptResult) (now : ℤ) :
    WebhookDelivery → WebhookDelivery :=
  match result with
  | .unsafeURL =>
    handleFailure d none "unsafe endpoint url: host resolves to a private or loopback address" now
  | .buildFailed err => handleFailure d none ("build request: " ++ err) now
  | .httpFailed err => handleFailure d none ("http: " ++ err) now
  | .response statusCode body =>
    if 200 ≤ statusCode ∧ statusCode < 300 then markDeliverySuccess statusCode body
    else handleFailure d (some statusCode) ("non-2xx response: " ++ toString statusCode) now

theorem handleFailure_key (d : WebhookDelivery) (statusCode : Option ℤ) (errMsg : String) (now : ℤ)
    (r : WebhookDelivery) : (handleFailure d statusCode errMsg now r).key = r.key := by
  unfold handleFailure
  split_ifs <;> rfl

theorem attemptDelivery_key (d : WebhookDelivery) (result : AttemptResult) (now : ℤ)
    (r : WebhookDelivery) : (attemptDelivery d result now r).key = r.key := by
  unfold attemptDelivery
  split
  · exact handleFailure_key ..
  · exact handleFailure_key ..
  · exact handleFailure_key ..
  · split_ifs
    · rfl
    · exact handleFailure_key ..

/-- The queue, with the snapshots that workers hold of claimed rows. -/
structure DeliveryQueue where
  deliveries : Deliveries
  inFlight : List WebhookDelivery

/-- One step of some worker: it claims a batch, one of its attempts ends and its outcome is recorded
or the statement fails, or it dies or is stopped before that. The steps of different workers
interleave, and a lock expires as the times of the claims pass it. -/
inductive DeliveryStep
  | claim (subs : List WebhookSubscription) (limit lockFor now : ℤ)
      (locked : WebhookDelivery → Bool)
  | finish (i : ℕ) (result : AttemptResult) (now : ℤ) (written : Bool)
  | abandon (i : ℕ)

def DeliveryStep.apply : DeliveryStep → DeliveryQueue → DeliveryQueue
  | claim subs limit lockFor now locked, q =>
    match claimPendingDeliveries subs limit lockFor now locked q.deliveries with
    | .error _ => q
    | .ok (claimed, t) => ⟨t, q.inFlight ++ claimed⟩
  | finish i result now written, q =>
    match q.inFlight[i]? with
    | none => q
    | some d =>
      { deliveries :=
          if written then q.deliveries.update d.key (fun _ => true) (attemptDelivery d result now)
            (attemptDelivery_key d result now)
          else q.deliveries
        inFlight := q.inFlight.eraseIdx i }
  | abandon i, q => { q with inFlight := q.inFlight.eraseIdx i }

/-- The queue after any interleaving. -/
def deliveryRun (steps : List DeliveryStep) (q : DeliveryQueue) : DeliveryQueue :=
  steps.foldl (fun q step => step.apply q) q

end TrusTrove
