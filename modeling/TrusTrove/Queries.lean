import TrusTrove.Database

/-!
# The statements of package `db`

Each writer of `db/queries.go` and `db/webhooks.go` the listener uses, as a program of the
statements it issues. An `UPDATE` of `invoices` is guarded by the row's status; `updateInvoice`
tells a missing row from a guard that did not hold by reading the status afterwards. Parameters are
encoded before any row is matched.
-/

namespace TrusTrove

open Sql

/-- The error of a statement that fails for a reason outside the modelled tables. -/
def driverError : GoError := .new "sql: statement failed"

/-- The error of a value its column does not admit. -/
def constraintError : GoError := .new "sql: value violates a column constraint"

/-- The value of a `NUMERIC` parameter: a decimal numeral. -/
def numeric (s : String) : Option ℤ :=
  if s.toList ≠ [] ∧ s.toList.all Char.isDigit then some (Nat.ofDigitChars 10 s.toList 0) else none

theorem numeric_repr (n : ℕ) : numeric (Nat.repr n) = some (n : ℤ) := by
  have hdigit : ∀ c ∈ Nat.toDigits 10 n, c.isDigit = true := fun c hc =>
    Nat.isDigit_of_mem_toDigits (by omega) (by omega) hc
  simpa [numeric] using hdigit

/-- The value of an `INTEGER` parameter. -/
def int4 (n : ℤ) : Bool := decide (-2 ^ 31 ≤ n) && decide (n < 2 ^ 31)

/-- A statement refused for a parameter that its column's type cannot hold, whatever rows it would
match. -/
def refuseParameter {α : Type} (ctx : String) : DbProg α :=
  (Prog.onTx driverError fun _ => .error constraintError).mapError (.wrap ctx)

/-- `UPDATE invoices SET … WHERE id = $ AND …`: the number of rows affected. -/
def execUpdate (id : String) (guard : DbInvoice → Bool) (set : DbInvoice → Option DbInvoice)
    (hset : ∀ r, ((set r).getD r).id = r.id) (w : Tables) : Except GoError (ℕ × Tables) :=
  match w.invoices.find? id with
  | none => .ok (0, w)
  | some r =>
    if guard r then
      if ((set r).any DbInvoice.fits) then
        .ok (1, { w with invoices := w.invoices.update id guard (fun r => (set r).getD r) hset })
      else .error constraintError
    else .ok (0, w)

def updateInvoice (id operation targetStatus : String) (guard : DbInvoice → Bool)
    (set : DbInvoice → Option DbInvoice) (hset : ∀ r, ((set r).getD r).id = r.id) :
    DbProg Unit := do
  let rows ← (Prog.onTx driverError (execUpdate id guard set hset)).mapError
    (.wrap ("queries: " ++ operation))
  if 0 < rows then pure ()
  else
    let current ← (Prog.onTx driverError fun w =>
        .ok ((w.invoices.find? id).map (·.status), w)).mapError
      (.wrap ("queries: " ++ operation ++ ": inspect invoice after update"))
    match current with
    | none =>
      Prog.fail ⟨"queries: " ++ operation ++ ": " ++ GoError.errInvoiceNotFound.msg ++ ": " ++ id,
        some .invoiceNotFound⟩
    | some status =>
      Prog.fail ⟨"queries: " ++ operation ++ ": " ++ GoError.errInvalidInvoiceTransition.msg
        ++ ": invoice " ++ id ++ " is \"" ++ status.toString ++ "\", cannot transition to \""
        ++ targetStatus ++ "\"", some .invalidInvoiceTransition⟩

/-- `InsertInvoice`: whether a row was inserted. -/
def insertInvoice (inv : DbInvoice) : DbProg Bool :=
  (Prog.onTx driverError fun w =>
    if inv.fits then
      .ok ((w.invoices.find? inv.id).isNone, { w with invoices := w.invoices.insertNew inv })
    else .error constraintError).mapError (.wrap "queries: insert invoice")

def getInvoiceByID (id : String) : DbProg (Option DbInvoice) :=
  (Prog.onTx driverError fun w => .ok (w.invoices.find? id, w)).mapError
    (.wrap "queries: get invoice by id")

def updateInvoiceListed (id : String) (status : InvoiceStatus) (discountBps : ℤ) : DbProg Unit :=
  if int4 discountBps then
    updateInvoice id "update invoice listed" "Listed" (·.status = .created)
      (fun r => some { r with status, discountBps }) fun _ => rfl
  else refuseParameter "queries: update invoice listed"

def updateInvoiceFunded (id : String) (status : InvoiceStatus) (fundedAmount : String)
    (fundedAt : ℤ) : DbProg Unit :=
  match numeric fundedAmount with
  | none => refuseParameter "queries: update invoice funded"
  | some amount => updateInvoice id "update invoice funded" "Funded" (·.status = .listed)
      (fun r => some { r with status, fundedAmount := amount, fundedAt := some fundedAt })
        fun _ => rfl

def updateInvoiceShipped (id : String) (status : InvoiceStatus) (shippedAt : ℤ) : DbProg Unit :=
  updateInvoice id "update invoice shipped" "Active" (·.status = .funded)
    (fun r => some { r with status, shippedAt := some shippedAt, issuerConfirmed := true })
    fun _ => rfl

def updateInvoiceDeliveryConfirmed (id : String) (status : InvoiceStatus) (buyerConfirmedAt : ℤ) :
    DbProg Unit :=
  updateInvoice id "update invoice delivery confirmed" "Confirmed" (·.status = .active)
    (fun r => some { r with
      status, buyerConfirmed := true, buyerConfirmedAt := some buyerConfirmedAt })
    fun _ => rfl

def updateInvoiceRepaid (id : String) (status : InvoiceStatus) (repaidAt : ℤ) : DbProg Unit :=
  updateInvoice id "update invoice repaid" "Repaid" (·.status = .confirmed)
    (fun r => some { r with status, repaidAt := some repaidAt }) fun _ => rfl

/-- `status IN ('Funded', 'Active', 'Confirmed')`. -/
def DbInvoice.deployed (inv : DbInvoice) : Bool :=
  inv.status = .funded || inv.status = .active || inv.status = .confirmed

theorem setStatus_id (status : String) (r : DbInvoice) :
    (((InvoiceStatus.ofString? status).map fun st => { r with status := st }).getD r).id
      = r.id := by
  cases InvoiceStatus.ofString? status <;> rfl

/-- `UpdateInvoiceStatus`, whose status is any text; the `CHECK` on `status` refuses those that name
no status. -/
def updateInvoiceStatus (id status : String) : DbProg Unit :=
  updateInvoice id "update invoice status" "Defaulted" DbInvoice.deployed
    (fun r => (InvoiceStatus.ofString? status).map fun st => { r with status := st })
    (setStatus_id status)

def updateInvoiceAttestation (invoiceID agentID evidenceHash : String)
    (riskScoreBps attestedAt : ℤ) :
    DbProg Unit :=
  if int4 riskScoreBps then do
    let rows ← (Prog.onTx driverError (execUpdate invoiceID (fun _ => true)
        (fun r => some { r with
          attestationAgentID := some agentID, riskScoreBps := some riskScoreBps,
          evidenceHash := some evidenceHash, attestedAt := some attestedAt })
        fun _ => rfl)).mapError (.wrap "queries: update invoice attestation")
    if rows = 0 then
      Prog.fail ⟨"queries: update invoice attestation: " ++ GoError.errInvoiceNotFound.msg ++ ": "
        ++ invoiceID, some .invoiceNotFound⟩
    else pure ()
  else refuseParameter "queries: update invoice attestation"

def logEvent (row : EventLog) : DbProg Unit :=
  (Prog.onTx driverError fun w =>
    if row.fits then .ok ((), { w with eventsLog := w.eventsLog.insertNew row })
    else .error constraintError).mapError (.wrap "queries: log event")

/-- `UpdatePoolStats`, with `insertPoolSnapshotHistory`: two statements on the pool. -/
def updatePoolStats (stats : DbPoolStats) : DbProg Unit := do
  (Prog.onPool driverError fun p =>
    if stats.fits then .ok ((), { p with poolSnapshot := stats })
    else .error constraintError).mapError (.wrap "queries: update pool stats")
  (Prog.onPool driverError fun p =>
    .ok ((), { p with poolSnapshotHistory := p.poolSnapshotHistory ++ [stats] })).mapError
    (.wrap "queries: insert pool snapshot history")

/-- `ListActiveWebhookSubscriptionsForEvent`: a read through the pool. -/
def listActiveWebhookSubscriptionsForEvent (eventType : String) :
    DbProg (List WebhookSubscription) :=
  (Prog.onPool driverError fun p => .ok
    (p.subscriptions.filter fun sub => sub.active && sub.eventTypes.contains eventType, p)).mapError
    (.wrap "db: list webhook subscriptions")

/-- The row `CreateWebhookDelivery` inserts: `max_attempts` and `status` take their defaults, and
`next_attempt_at` the time of the insert, in nanoseconds. -/
def newDelivery (subscriptionID eventType eventID : String) (payload : WebhookEnvelope) (now : ℤ) :
    WebhookDelivery where
  subscriptionID := subscriptionID
  eventType := eventType
  eventID := eventID
  payload := payload
  attempts := 0
  maxAttempts := 5
  nextAttemptAt := now
  lockedUntil := none
  lastStatus := none
  lastResponse := none
  lastError := none
  status := .pending

def createWebhookDelivery (d : WebhookDelivery) : DbProg Unit :=
  (Prog.onTx driverError fun w =>
    .ok ((), { w with deliveries := w.deliveries.insertNew d })).mapError
    (.wrap "db: create webhook delivery")

/-- `AreEventsProcessed`: one read through the pool for the whole page. -/
def areEventsProcessed (ids : List String) (O : ℕ → Bool) (s : Db) :
    Except GoError (List String) × Db :=
  if ids = [] then (.ok [], s)
  else if O s.tick then
    (.error (.wrap "queries: check processed events" driverError),
      { s with tick := s.tick + 1, failed := true })
  else (.ok (ids.filter s.tables.logged), { s with tick := s.tick + 1 })

/-- `GetLatestProcessedLedger`: `COALESCE(MAX(ledger), 0)` of `events_log`. -/
def latestProcessedLedger (t : Tables) : ℤ := ((t.eventsLog.rows.map (·.ledger)).max?).getD 0

/-- `GetCheckpoint`: 0 without a row. -/
def getCheckpoint (p : Shared) : ℤ := p.checkpoint.getD 0

/-- `UpsertCheckpoint`, under `indexer_checkpoint_value_check`. -/
def upsertCheckpoint (ledger : ℤ) (O : ℕ → Bool) (s : Db) : Db :=
  if O s.tick || ledger < 0 then { s with tick := s.tick + 1, failed := true }
  else { s with shared := { s.shared with checkpoint := some ledger }, tick := s.tick + 1 }

end TrusTrove
