import TrusTrove.Queries
import TrusTrove.Lib.Aggregate
import TrusTrove.Lib.StableOrder

/-!
# The public reads of package `db`

What `db/queries.go` computes for the public endpoints: the feed of events, the aggregates of the
protocol and the history of a party. Each is one statement. A row of `events_log` has no serial id
here: ids are given out in the order of the rows.
-/

namespace TrusTrove

open Sql

section Feed

/-- `data ->> key` -/
def LogData.text (key : String) : LogData → Option String
  | .fields m => m.get? key
  | .raw _ => none

/-- A row `GetRecentEvents` scans. -/
structure FeedEvent where
  event : EventLog
  invoiceIssuer : String
  deriving DecidableEq, Repr

/-- `i.id = e.data ->> 'invoice_id'` -/
def referredInvoice (w : Tables) (row : EventLog) : Option DbInvoice :=
  (row.data.text "invoice_id").bind w.invoices.find?

/-- `ORDER BY e.ledger_closed_at DESC` -/
def closedLater (a b : FeedEvent) : Prop := b.event.ledgerClosedAt ≤ a.event.ledgerClosedAt

instance : DecidableRel closedLater := fun _ _ => inferInstanceAs (Decidable (_ ≤ _))

/-- Rows in the order of their ids, by `ORDER BY e.ledger_closed_at DESC, e.id DESC`. -/
def orderFeed (rows : List FeedEvent) : List FeedEvent := rows.reverse.insertionSort closedLater

/-- `events_log e LEFT JOIN invoices i`, with `COALESCE(i.issuer, '')`. -/
def leftJoinInvoices (w : Tables) : List FeedEvent :=
  w.eventsLog.rows.map fun row => ⟨row, ((referredInvoice w row).map (·.issuer)).getD ""⟩

/-- The row joined with its invoice, if that is the issuer's. -/
def joinIssuer (w : Tables) (issuer : String) (row : EventLog) : Option FeedEvent :=
  ((referredInvoice w row).filter (·.issuer = issuer)).map fun inv => ⟨row, inv.issuer⟩

/-- `events_log e JOIN invoices i … WHERE i.issuer = issuer` -/
def joinIssuerInvoices (w : Tables) (issuer : String) : List FeedEvent :=
  w.eventsLog.rows.filterMap (joinIssuer w issuer)

/-- The rows of the statement, its `LIMIT` apart. -/
def feed (w : Tables) (issuer : String) : List FeedEvent :=
  orderFeed (if issuer = "" then leftJoinInvoices w else joinIssuerInvoices w issuer)

/-- `GetRecentEvents` -/
def getRecentEvents (limit : ℤ) (issuer : String) : DbProg (List FeedEvent) :=
  (Prog.onTx driverError fun w =>
    if limit < 0 then .error (.new "ERROR: LIMIT must not be negative (SQLSTATE 2201W)")
    else .ok ((feed w issuer).take limit.toNat, w)).mapError (.wrap "queries: get recent events")

end Feed

section Aggregates

structure ProtocolStats where
  totalUSDCFinanced : ℤ
  activeInvoiceCount : ℕ
  totalInvoices : ℕ
  totalRepaid : ℕ
  totalDefaulted : ℕ
  averageYieldBps : ℤ
  poolUtilizationBps : ℤ
  registeredIssuers : ℕ
  deriving DecidableEq, Repr

/-- `status IN ('Funded', 'Active', 'Confirmed', 'Repaid')` -/
def DbInvoice.financed (inv : DbInvoice) : Bool := inv.deployed || inv.status = .repaid

/-- The address of an `issuer_registered` row, if it has one. -/
def registeredAddress (row : EventLog) : Option String :=
  if row.eventType = "issuer_registered" ∧ (row.data.text "address").getD "" ≠ "" then
    row.data.text "address"
  else none

/-- What `getProtocolStats` selects. -/
def protocolStats (w : Tables) (p : Shared) : ProtocolStats where
  totalUSDCFinanced := w.invoices.sum DbInvoice.financed (·.fundedAmount)
  activeInvoiceCount := w.invoices.count DbInvoice.deployed
  totalInvoices := w.invoices.count fun _ => true
  totalRepaid := w.invoices.count (·.status = .repaid)
  totalDefaulted := w.invoices.count (·.status = .defaulted)
  averageYieldBps := roundNumeric ((w.invoices.avg DbInvoice.financed (·.discountBps)).getD 0)
  poolUtilizationBps := p.poolSnapshot.utilizationRateBps
  registeredIssuers := (w.eventsLog.rows.filterMap registeredAddress).toFinset.card

/-- `getProtocolStats` on the pool. -/
def getProtocolStats (O : ℕ → Bool) (s : Db) : Except GoError ProtocolStats × Db :=
  if O s.tick then
    (.error (.wrap "queries: get protocol stats" driverError),
      { s with tick := s.tick + 1, failed := true })
  else (.ok (protocolStats s.tables s.shared), { s with tick := s.tick + 1 })

/-- `GetPoolStats`: the one row of `pool_snapshots`. -/
def getPoolStats : DbProg DbPoolStats :=
  (Prog.onPool driverError fun p => .ok (p.poolSnapshot, p)).mapError
    (.wrap "queries: get pool stats")

structure PartyHistory where
  address : String
  totalInvoices : ℕ
  repaidInvoices : ℕ
  defaultedInvoices : ℕ
  lateInvoices : ℕ
  averageDaysLate : Option ℚ
  deriving DecidableEq

/-- `issuer = address OR buyer = address` -/
def DbInvoice.involves (address : String) (inv : DbInvoice) : Bool :=
  inv.issuer = address || inv.buyer = address

/-- `due_date < now AND status NOT IN ('Repaid', 'Defaulted', 'Cancelled')` -/
def DbInvoice.late (now : ℤ) (inv : DbInvoice) : Bool :=
  inv.dueDate < now && !(["Repaid", "Defaulted", "Cancelled"].contains inv.status.toString)

/-- `GREATEST(repaid_at - due_date, 0) / 86400.0` of a row whose `repaid_at` is set. -/
def DbInvoice.daysLate (inv : DbInvoice) : ℚ :=
  (max ((inv.repaidAt.getD 0) - inv.dueDate) 0 : ℤ) / 86400

/-- `repaid_at - due_date` is a bigint. -/
def DbInvoice.delayFits (inv : DbInvoice) : Bool :=
  -2 ^ 63 ≤ (inv.repaidAt.getD 0) - inv.dueDate && (inv.repaidAt.getD 0) - inv.dueDate < 2 ^ 63

/-- What `GetPartyHistory` selects. -/
def partyHistory (w : Tables) (address : String) (now : ℤ) : PartyHistory where
  address
  totalInvoices := w.invoices.count (·.involves address)
  repaidInvoices := w.invoices.count fun r => r.involves address && r.status = .repaid
  defaultedInvoices := w.invoices.count fun r => r.involves address && r.status = .defaulted
  lateInvoices := w.invoices.count fun r => r.involves address && r.late now
  averageDaysLate :=
    w.invoices.avg (fun r => r.involves address && (r.status = .repaid && r.repaidAt.isSome))
      DbInvoice.daysLate

/-- The delays `GetPartyHistory` averages are bigints. -/
def delaysFit (w : Tables) (address : String) : Bool :=
  w.invoices.rows.all fun r =>
    !(r.involves address && (r.status = .repaid && r.repaidAt.isSome)) || r.delayFits

/-- `GetPartyHistory` -/
def getPartyHistory (address : String) (now : ℤ) : DbProg PartyHistory :=
  (Prog.onTx driverError fun w =>
    if delaysFit w address then .ok (partyHistory w address now, w)
    else .error (.new "ERROR: bigint out of range (SQLSTATE 22003)")).mapError
      (.wrap "queries: get party history")

end Aggregates

end TrusTrove
