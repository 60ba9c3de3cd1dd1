import TrusTrove.WorkerFleet

/-!
# The worker and its context

`Start`, `processBatch` and `deliverBatch` step by step, for a worker whose context may be cancelled
at any moment. The send loop looks at the context before each delivery and then waits for a slot;
the request of an attempt carries the context and ends with an error once it is cancelled, while the
outcome is recorded with a context of its own. When the loop has returned a new worker may be
started; a process that is killed drops what it had in hand.
-/

namespace TrusTrove

open Sql

/-- How a request ended and when. `aborted` tells an attempt the cancellation cut off from one the
endpoint decided. -/
structure Answer where
  result : AttemptResult
  answeredAt : ℤ
  aborted : Bool
  deriving DecidableEq, Repr

/-- A goroutine of `deliverBatch`. -/
structure Running where
  delivery : WebhookDelivery
  answer : Option Answer
  deriving DecidableEq, Repr

/-- The queue and one worker: the deliveries the loop has not reached, the one it waits to send, and
those being attempted. -/
structure WorkerProcess where
  deliveries : Deliveries
  cancelled : Bool
  todo : List WebhookDelivery
  sending : Option WebhookDelivery
  running : List Running

/-- Nothing is in hand: `processBatch` has returned. -/
def WorkerProcess.idle (w : WorkerProcess) : Bool :=
  w.todo.isEmpty && w.sending.isNone && w.running.isEmpty

/-- The result depends on the request, and so on its context. -/
def AttemptResult.requested : AttemptResult → Bool
  | httpFailed _ => true
  | response _ _ => true
  | _ => false

/-- What the attempt sees of what the endpoint does, under a context that may be cancelled. -/
def answerFor (cancelled : Bool) (result : AttemptResult) (now : ℤ) : Answer :=
  if cancelled && result.requested then ⟨.httpFailed "context canceled", now, true⟩
  else ⟨result, now, false⟩

/-- One step of the worker, of an endpoint, or of whoever stops and starts workers. A claim whose
context is cancelled while it runs may be `lost`: its rows are stamped, but not returned. -/
inductive LoopStep
  | claim (subs : List WebhookSubscription) (now : ℤ) (locked : WebhookDelivery → Bool)
      (lost : Bool)
  | reach
  | send
  | answer (i : ℕ) (result : AttemptResult) (now : ℤ)
  | record (i : ℕ) (written : Bool)
  | cancel
  | restart
  | kill

variable (cfg : WorkerConfig)

def LoopStep.apply : LoopStep → WorkerProcess → WorkerProcess
  | claim subs now locked lost, w =>
    if !w.idle || w.cancelled then w else
    match claimPendingDeliveries subs cfg.batchSize cfg.lockDuration now locked w.deliveries with
    | .error _ => w
    | .ok (claimed, t) => { w with deliveries := t, todo := if lost then [] else claimed }
  | reach, w =>
    match w.sending, w.todo with
    | none, d :: rest =>
      if w.cancelled then { w with todo := [] } else { w with todo := rest, sending := some d }
    | _, _ => w
  | send, w =>
    match w.sending with
    | some d =>
      if (w.running.length : ℤ) < cfg.concurrency then
        { w with sending := none, running := w.running ++ [⟨d, none⟩] }
      else w
    | none => w
  | answer i result now, w =>
    match w.running[i]? with
    | some ⟨d, none⟩ =>
      { w with running := w.running.set i ⟨d, some (answerFor w.cancelled result now)⟩ }
    | _ => w
  | record i written, w =>
    match w.running[i]? with
    | some ⟨d, some a⟩ =>
      { w with
        deliveries :=
          if written then w.deliveries.update d.key (fun _ => true)
            (attemptDelivery d a.result a.answeredAt) (attemptDelivery_key d a.result a.answeredAt)
          else w.deliveries
        running := w.running.eraseIdx i }
    | _ => w
  | cancel, w => { w with cancelled := true }
  | restart, w => if w.idle then { w with cancelled := false } else w
  | kill, w => { w with cancelled := false, todo := [], sending := none, running := [] }

/-- The queue and the worker after any steps. -/
def loopRun (steps : List LoopStep) (w : WorkerProcess) : WorkerProcess :=
  steps.foldl (fun w step => step.apply cfg w) w

/-- The attempt whose outcome the step writes to the row. -/
def LoopStep.recorded (k : String × String) (w : WorkerProcess) : LoopStep → Option Answer
  | record i true =>
    match w.running[i]? with
    | some ⟨d, some a⟩ => if d.key = k then some a else none
    | _ => none
  | _ => none

/-- The outcomes written to the row in a run. -/
def recordedAnswers (k : String × String) : List LoopStep → WorkerProcess → List Answer
  | [], _ => []
  | step :: steps, w => (step.recorded k w).toList ++ recordedAnswers k steps (step.apply cfg w)

/-- The failures among them that the cancellation did not cause. -/
def genuineFailures (answers : List Answer) : ℕ :=
  answers.countP fun a => !a.aborted && !a.result.acknowledged

end TrusTrove
