import TrusTrove.Lib.Table
import TrusTrove.Lib.Transaction
import TrusTrove.Payload

/-!
# The indexer's tables

The rows of `db/migrations`, with the domains their `CHECK` constraints and column types admit.
`Tables` are those the listener writes in an event's transaction, `Shared` those it reaches through
the pool.
-/

namespace TrusTrove

/-- `invoices.status`, one of the values `invoices_status_check` admits. -/
inductive InvoiceStatus
  | created
  | listed
  | funded
  | active
  | confirmed
  | repaid
  | defaulted
  deriving DecidableEq, Repr

namespace InvoiceStatus

/-- The text of the column. -/
def toString : InvoiceStatus → String
  | created => "Created"
  | listed => "Listed"
  | funded => "Funded"
  | active => "Active"
  | confirmed => "Confirmed"
  | repaid => "Repaid"
  | defaulted => "Defaulted"

/-- The status a text names, if the `CHECK` admits it. -/
def ofString? : String → Option InvoiceStatus
  | "Created" => some created
  | "Listed" => some listed
  | "Funded" => some funded
  | "Active" => some active
  | "Confirmed" => some confirmed
  | "Repaid" => some repaid
  | "Defaulted" => some defaulted
  | _ => none

theorem ofString?_toString (s : InvoiceStatus) : ofString? s.toString = some s := by
  cases s <;> rfl

end InvoiceStatus

/-- A row of `invoices`. Go carries the two `NUMERIC` columns as decimal strings. -/
structure DbInvoice where
  id : String
  issuer : String
  buyer : String
  faceValue : ℤ
  discountBps : ℤ
  fundedAmount : ℤ
  dueDate : ℤ
  status : InvoiceStatus
  createdAt : ℤ
  fundedAt : Option ℤ
  shippedAt : Option ℤ
  issuerConfirmed : Bool
  buyerConfirmed : Bool
  buyerConfirmedAt : Option ℤ
  repaidAt : Option ℤ
  attestationAgentID : Option String
  riskScoreBps : Option ℤ
  evidenceHash : Option String
  attestedAt : Option ℤ
  deriving DecidableEq, Repr

/-- The column widths and the `CHECK` constraints of `invoices`, that on `status` apart. -/
def DbInvoice.fits (inv : DbInvoice) : Bool :=
  inv.id.length ≤ 64 && inv.issuer.length ≤ 56 && inv.buyer.length ≤ 56
    && (0 ≤ inv.discountBps && inv.discountBps ≤ 5000)
    && inv.riskScoreBps.all (fun s => 0 ≤ s && s ≤ 10000)
    && 0 ≤ inv.faceValue
    && (0 ≤ inv.fundedAmount && inv.fundedAmount ≤ inv.faceValue)
    && inv.evidenceHash.all (·.length ≤ 64)

/-- `events_log.data`: a map of strings, or the raw value of a stale event. -/
inductive LogData
  | fields (m : StringMap String)
  | raw (value : String)
  deriving DecidableEq, Repr

/-- A row of `events_log`, its serial id apart. -/
structure EventLog where
  eventID : String
  contractID : String
  ledger : ℤ
  ledgerClosedAt : ℤ
  eventType : String
  data : LogData
  deriving DecidableEq, Repr

/-- The column widths of `events_log`. -/
def EventLog.fits (row : EventLog) : Bool :=
  row.eventID.length ≤ 128 && row.contractID.length ≤ 56 && row.eventType.length ≤ 50

/-- A row of `webhook_subscriptions`: the columns the fan-out reads. -/
structure WebhookSubscription where
  id : String
  eventTypes : List String
  active : Bool
  deriving DecidableEq, Repr

/-- `webhook_deliveries.status`. -/
inductive DeliveryStatus
  | pending
  | delivered
  | deadLetter
  deriving DecidableEq, Repr

/-- A row of `webhook_deliveries`, its serial id apart. -/
structure WebhookDelivery where
  subscriptionID : String
  eventType : String
  eventID : String
  payload : WebhookEnvelope
  attempts : ℕ
  maxAttempts : ℕ
  nextAttemptAt : ℤ
  lockedUntil : Option ℤ
  lastStatus : Option ℤ
  lastResponse : Option String
  lastError : Option String
  status : DeliveryStatus
  deriving DecidableEq, Repr

/-- `UNIQUE (subscription_id, event_id)`. -/
def WebhookDelivery.key (d : WebhookDelivery) : String × String := (d.subscriptionID, d.eventID)

/-- A row of `pool_snapshots`, and of its history. -/
structure DbPoolStats where
  totalDeposits : ℤ
  totalFunded : ℤ
  availableLiquidity : ℤ
  utilizationRateBps : ℤ
  totalYieldDistributed : ℤ
  activeInvoiceCount : ℤ
  totalShares : ℤ
  deriving DecidableEq, Repr

/-- `pool_snapshots_utilization_rate_bps_check`. -/
def DbPoolStats.fits (stats : DbPoolStats) : Bool :=
  0 ≤ stats.utilizationRateBps && stats.utilizationRateBps ≤ 10000

/-- The tables written in an event's transaction. -/
structure Tables where
  invoices : Sql.Table DbInvoice DbInvoice.id
  eventsLog : Sql.Table EventLog EventLog.eventID
  deliveries : Sql.Table WebhookDelivery WebhookDelivery.key

/-- The tables reached through the pool. `checkpoint` is the `latest_processed_ledger` row of
`indexer_checkpoint`; the history of snapshots is oldest first. -/
structure Shared where
  subscriptions : List WebhookSubscription
  poolSnapshot : DbPoolStats
  poolSnapshotHistory : List DbPoolStats
  checkpoint : Option ℤ

/-- The database between transactions. -/
abbrev Db := Sql.Store Tables Shared

/-- Code that issues statements on the database. -/
abbrev DbProg := Sql.Prog Tables Shared GoError

namespace Tables

/-- The event is in `events_log`. -/
def logged (t : Tables) (eventID : String) : Bool := (t.eventsLog.find? eventID).isSome

/-- The tables of a fresh database. -/
def empty : Tables := ⟨.empty, .empty, .empty⟩

end Tables

end TrusTrove
