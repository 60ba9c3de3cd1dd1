import TrusTrove.DeliveryWorker
import TrusTrove.Lib.BoundedPool

/-!
# Several workers on one queue

`processBatch` in time: a worker claims a batch with one stamp, `deliverBatch` attempts it from a
bounded pool, and the worker claims again once the whole batch is done. Any number of workers share
the queue. Times and durations are in nanoseconds.
-/

namespace TrusTrove

open Sql

structure WorkerConfig where
  pollInterval : ℤ
  batchSize : ℤ
  httpTimeout : ℤ
  maxAttempts : ℤ
  concurrency : ℤ
  lockDuration : ℤ
  deriving DecidableEq, Repr

def defaultConcurrency : ℤ := 8

def defaultLockDuration : ℤ := 60 * 10 ^ 9

def defaultWorkerConfig : WorkerConfig where
  pollInterval := 5 * 10 ^ 9
  batchSize := 50
  httpTimeout := 10 * 10 ^ 9
  maxAttempts := 5
  concurrency := defaultConcurrency
  lockDuration := defaultLockDuration

/-- `NewDeliveryWorker`: the configuration it runs with. -/
def newDeliveryWorker (cfg : WorkerConfig) : WorkerConfig :=
  { cfg with
    concurrency := if cfg.concurrency ≤ 0 then defaultConcurrency else cfg.concurrency
    lockDuration := if cfg.lockDuration ≤ 0 then defaultLockDuration else cfg.lockDuration }

/-- An attempt under way: the snapshot it is made on, when it starts and when its outcome is
recorded. -/
structure Attempt where
  worker : ℕ
  delivery : WebhookDelivery
  started : ℤ
  finished : ℤ
  deriving DecidableEq, Repr

/-- `deliverBatch` from `startedAt` on: each delivery takes a slot for as long as its attempt
lasts. -/
def deliverBatch (cfg : WorkerConfig) (worker : ℕ) (startedAt : ℤ) (duration : WebhookDelivery → ℕ)
    (deliveries : List WebhookDelivery) : List Attempt :=
  (BoundedPool.run duration (List.replicate cfg.concurrency.toNat startedAt) deliveries).map
    fun r =>
    ⟨worker, r.job, r.started, r.finished⟩

/-- The queue at a time, and the attempts that claimed batches have under way or before them. -/
structure Fleet where
  clock : ℤ
  deliveries : Deliveries
  attempts : List Attempt

/-- One step: a worker claims a batch, the outcome of an attempt is recorded or the statement fails,
a process dies, or the listener enqueues a delivery. -/
inductive FleetStep
  | claim (worker : ℕ) (subs : List WebhookSubscription) (now startedAt : ℤ)
      (locked : WebhookDelivery → Bool) (duration : WebhookDelivery → ℕ)
  | record (i : ℕ) (result : AttemptResult) (answeredAt : ℤ) (written : Bool)
  | die (worker : ℕ)
  | enqueue (d : WebhookDelivery)

variable (cfg : WorkerConfig)

def FleetStep.apply : FleetStep → Fleet → Fleet
  | claim worker subs now startedAt locked duration, f =>
    match claimPendingDeliveries subs cfg.batchSize cfg.lockDuration now locked f.deliveries with
    | .error _ => { f with clock := now }
    | .ok (claimed, t) =>
      ⟨now, t, f.attempts ++ deliverBatch cfg worker startedAt duration claimed⟩
  | record i result answeredAt written, f =>
    match f.attempts[i]? with
    | none => f
    | some a =>
      { clock := a.finished
        deliveries :=
          if written then f.deliveries.update a.delivery.key (fun _ => true)
            (attemptDelivery a.delivery result answeredAt) (attemptDelivery_key _ result answeredAt)
          else f.deliveries
        attempts := f.attempts.eraseIdx i }
  | die worker, f => { f with attempts := f.attempts.filter (·.worker ≠ worker) }
  | enqueue d, f => { f with deliveries := f.deliveries.insertNew d }

/-- The order of the steps: time does not go back, an outcome is recorded when its attempt ends, and
a worker claims only once its batch is done. -/
def FleetStep.Ordered (f : Fleet) : FleetStep → Prop
  | claim worker _ now startedAt _ _ => f.clock ≤ now ∧ now ≤ startedAt
      ∧ ∀ a ∈ f.attempts, now ≤ a.finished ∧ a.worker ≠ worker
  | record i _ _ _ => ∀ a, f.attempts[i]? = some a → ∀ b ∈ f.attempts, a.finished ≤ b.finished
  | die _ => True
  | enqueue _ => True

/-- What a step may be: in order, and an attempt lasts no longer than the timeout. -/
def FleetStep.Allowed (f : Fleet) (step : FleetStep) : Prop :=
  step.Ordered f ∧ match step with
    | claim _ _ _ _ _ duration => ∀ d, (duration d : ℤ) ≤ cfg.httpTimeout
    | _ => True

/-- The fleet after any steps. -/
def fleetRun (steps : List FleetStep) (f : Fleet) : Fleet :=
  steps.foldl (fun f step => step.apply cfg f) f

/-- The property holds of each step in the state it is taken in. -/
def EachStep (p : Fleet → FleetStep → Prop) : List FleetStep → Fleet → Prop
  | [], _ => True
  | step :: steps, f => p f step ∧ EachStep p steps (step.apply cfg f)

end TrusTrove
