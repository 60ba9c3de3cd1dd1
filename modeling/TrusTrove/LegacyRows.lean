import TrusTrove.Lib.RowNumber
import TrusTrove.Lib.Table

/-!
# The migrations that repair legacy rows

`012_add_integrity_constraints.sql`: the cleanup of `invoices`, `pool_snapshots` and
`indexer_checkpoint`, statement by statement, and the `CHECK` constraints added after it.
`013_unique_webhook_delivery_per_event.sql`: the `DELETE` of duplicate deliveries. The columns
neither reads are kept as they are in `rest`.
-/

namespace TrusTrove

section Integrity

/-- A row of `invoices` as the schema before admits it, with finite numerics. -/
structure LegacyInvoice (ρ : Type) where
  id : String
  status : String
  discountBps : ℤ
  riskScoreBps : Option ℤ
  faceValue : ℚ
  fundedAmount : ℚ
  rest : ρ
  deriving DecidableEq, Repr

structure LegacyPoolSnapshot (ρ : Type) where
  id : ℤ
  utilizationRateBps : ℤ
  rest : ρ
  deriving DecidableEq, Repr

/-- A row of `indexer_checkpoint`. -/
structure LegacyCheckpoint where
  key : String
  value : ℤ
  deriving DecidableEq, Repr

structure LegacyTables (ρ π : Type) where
  invoices : Sql.Table (LegacyInvoice ρ) LegacyInvoice.id
  poolSnapshots : Sql.Table (LegacyPoolSnapshot π) LegacyPoolSnapshot.id
  indexerCheckpoint : Sql.Table LegacyCheckpoint LegacyCheckpoint.key

/-- The statuses `invoices_status_check` admits. -/
def invoiceStatuses : List String :=
  ["Created", "Listed", "Funded", "Active", "Confirmed", "Repaid", "Defaulted"]

/-- `CASE lower(status) …`; `lower` is that of the database's locale. -/
def normalizeStatus (lower : String → String) (status : String) : String :=
  match lower status with
  | "created" => "Created"
  | "listed" => "Listed"
  | "funded" => "Funded"
  | "shipped" => "Active"
  | "active" => "Active"
  | "confirmed" => "Confirmed"
  | "repaid" => "Repaid"
  | "defaulted" => "Defaulted"
  | _ => "Created"

variable {ρ π : Type}

def cleanupInvoices (lower : String → String)
    (t : Sql.Table (LegacyInvoice ρ) LegacyInvoice.id) :
    Sql.Table (LegacyInvoice ρ) LegacyInvoice.id :=
  let t := t.updateWhere (fun r => !invoiceStatuses.contains r.status)
    (fun r => { r with status := normalizeStatus lower r.status }) fun _ => rfl
  let t := t.updateWhere (fun r => r.discountBps < 0 || 5000 < r.discountBps)
    (fun r => { r with discountBps := 0 }) fun _ => rfl
  let t := t.updateWhere (fun r => r.riskScoreBps.any fun score => score < 0 || 10000 < score)
    (fun r => { r with riskScoreBps := none }) fun _ => rfl
  let t := t.updateWhere (fun r => r.faceValue < 0)
    (fun r => { r with faceValue := 0 }) fun _ => rfl
  let t := t.updateWhere (fun r => r.faceValue < r.fundedAmount)
    (fun r => { r with fundedAmount := r.faceValue }) fun _ => rfl
  t.updateWhere (fun r => r.fundedAmount < 0)
    (fun r => { r with fundedAmount := 0 }) fun _ => rfl

def cleanupPoolSnapshots (t : Sql.Table (LegacyPoolSnapshot π) LegacyPoolSnapshot.id) :
    Sql.Table (LegacyPoolSnapshot π) LegacyPoolSnapshot.id :=
  let t := t.deleteWhere fun r => r.id ≠ 1
  t.updateWhere (fun r => r.utilizationRateBps < 0 || 10000 < r.utilizationRateBps)
    (fun r => { r with utilizationRateBps := 0 }) fun _ => rfl

def cleanupIndexerCheckpoint (t : Sql.Table LegacyCheckpoint LegacyCheckpoint.key) :
    Sql.Table LegacyCheckpoint LegacyCheckpoint.key :=
  t.updateWhere (fun r => r.value < 0) (fun r => { r with value := 0 }) fun _ => rfl

/-- The cleanup statements of the migration. -/
def cleanupLegacyRows (lower : String → String) (t : LegacyTables ρ π) : LegacyTables ρ π :=
  ⟨cleanupInvoices lower t.invoices, cleanupPoolSnapshots t.poolSnapshots,
    cleanupIndexerCheckpoint t.indexerCheckpoint⟩

/-- The constraints added to `invoices`. -/
def LegacyInvoice.checks (r : LegacyInvoice ρ) : Bool :=
  invoiceStatuses.contains r.status
    && (0 ≤ r.discountBps && r.discountBps ≤ 5000)
    && r.riskScoreBps.all (fun score => 0 ≤ score && score ≤ 10000)
    && 0 ≤ r.faceValue
    && (0 ≤ r.fundedAmount && r.fundedAmount ≤ r.faceValue)

/-- The constraints added to `pool_snapshots`. -/
def LegacyPoolSnapshot.checks (r : LegacyPoolSnapshot π) : Bool :=
  r.id = 1 && (0 ≤ r.utilizationRateBps && r.utilizationRateBps ≤ 10000)

/-- `indexer_checkpoint_value_check` -/
def LegacyCheckpoint.checks (r : LegacyCheckpoint) : Bool := 0 ≤ r.value

end Integrity

section Deliveries

/-- A row of `webhook_deliveries` before its `UNIQUE` constraint. -/
structure LegacyDelivery (ρ : Type) where
  id : ℤ
  subscriptionID : String
  eventID : String
  status : String
  attempts : ℤ
  rest : ρ
  deriving DecidableEq, Repr

namespace LegacyDelivery

variable {ρ : Type}

/-- `PARTITION BY subscription_id, event_id` -/
def event (r : LegacyDelivery ρ) : String × String := (r.subscriptionID, r.eventID)

/-- `CASE status WHEN 'delivered' THEN 0 WHEN 'dead_letter' THEN 1 ELSE 2 END` -/
def rank (r : LegacyDelivery ρ) : ℕ :=
  match r.status with
  | "delivered" => 0
  | "dead_letter" => 1
  | _ => 2

/-- `ORDER BY CASE … END, attempts DESC, id` -/
def sortKey (r : LegacyDelivery ρ) : ℕ ×ₗ ℤᵒᵈ ×ₗ ℤ :=
  toLex (r.rank, toLex (OrderDual.toDual r.attempts, r.id))

end LegacyDelivery

variable {ρ : Type}

/-- The query `ranked_deliveries`: ids with their `duplicate_number`. -/
def rankedDeliveries (rows : List (LegacyDelivery ρ)) : List (ℤ × ℕ) :=
  (Sql.rowNumbers LegacyDelivery.event LegacyDelivery.sortKey rows).map fun e => (e.1.id, e.2)

/-- `DELETE FROM webhook_deliveries USING ranked_deliveries WHERE …` -/
def deleteDuplicates (t : Sql.Table (LegacyDelivery ρ) LegacyDelivery.id) :
    Sql.Table (LegacyDelivery ρ) LegacyDelivery.id :=
  t.deleteWhere fun r => (rankedDeliveries t.rows).any fun e => r.id = e.1 && 1 < e.2

end Deliveries

end TrusTrove
