import TrusTrove.Xdr

/-!
# Webhook payloads

The public event types, the envelope a subscriber receives (`webhooks/payload.go`), and the untyped
map the listener hands to the dispatcher. An envelope stands for its JSON text.
-/

namespace TrusTrove

/-- `webhooks.EventType`: a string type, with the ten types of `payload.go` and any other text. -/
inductive EventType
  | invoiceCreated
  | invoiceFunded
  | invoiceRepaid
  | invoiceDefaulted
  | invoiceListed
  | invoiceShipped
  | invoiceConfirmed
  | poolDeposit
  | poolWithdrawal
  | poolYieldDistributed
  | other (name : String)
  deriving DecidableEq, Repr

namespace EventType

/-- `string(eventType)`. -/
def toString : EventType → String
  | invoiceCreated => "invoice.created"
  | invoiceFunded => "invoice.funded"
  | invoiceRepaid => "invoice.repaid"
  | invoiceDefaulted => "invoice.defaulted"
  | invoiceListed => "invoice.listed"
  | invoiceShipped => "invoice.shipped"
  | invoiceConfirmed => "invoice.confirmed"
  | poolDeposit => "pool.deposit"
  | poolWithdrawal => "pool.withdrawal"
  | poolYieldDistributed => "pool.yield_distributed"
  | other name => name

/-- `EventType(name)`. -/
def ofString : String → EventType
  | "invoice.created" => invoiceCreated
  | "invoice.funded" => invoiceFunded
  | "invoice.repaid" => invoiceRepaid
  | "invoice.defaulted" => invoiceDefaulted
  | "invoice.listed" => invoiceListed
  | "invoice.shipped" => invoiceShipped
  | "invoice.confirmed" => invoiceConfirmed
  | "pool.deposit" => poolDeposit
  | "pool.withdrawal" => poolWithdrawal
  | "pool.yield_distributed" => poolYieldDistributed
  | name => other name

end EventType

def allEventTypes : List EventType :=
  [.invoiceCreated, .invoiceFunded, .invoiceRepaid, .invoiceDefaulted, .invoiceListed,
    .invoiceShipped, .invoiceConfirmed, .poolDeposit, .poolWithdrawal, .poolYieldDistributed]

/-- A value of the listener's `map[string]interface{}`, with its Go type. -/
inductive GoVal
  | str (s : String)
  | int (n : ℤ)
  | int32 (n : ℤ)
  | int64 (n : ℤ)
  | int64Ptr (n : Option ℤ)
  deriving DecidableEq, Repr

/-- A map with string keys, each key at most once. -/
abbrev StringMap (α : Type) := List (String × α)

/-- `m[k]`. -/
def StringMap.get? {α : Type} (m : StringMap α) (k : String) : Option α := m.lookup k

/-- `m[k] = v`. -/
def StringMap.set {α : Type} (m : StringMap α) (k : String) (v : α) : StringMap α :=
  (k, v) :: m.filter (·.1 ≠ k)

/-- `map[string]interface{}`. -/
abbrev GoMap := StringMap GoVal

structure InvoiceEventData where
  invoiceID : String
  issuer : String
  buyer : String
  faceValue : String
  discountBps : ℤ
  fundedAmount : String
  dueDate : ℤ
  status : String
  createdAt : ℤ
  fundedAt : Option ℤ
  shippedAt : Option ℤ
  buyerConfirmedAt : Option ℤ
  repaidAt : Option ℤ
  deriving DecidableEq, Repr

structure PoolEventData where
  account : String
  amount : String
  shares : String
  newBalance : String
  yieldAmount : String
  totalShares : String
  deriving DecidableEq, Repr

/-- The `data` of an envelope. -/
inductive EnvelopeData
  | invoice (data : InvoiceEventData)
  | pool (data : PoolEventData)
  | generic (data : GoMap)
  deriving DecidableEq, Repr

def schemaVersion : String := "1.0"

structure WebhookEnvelope where
  schemaVersion : String
  eventType : EventType
  eventID : String
  occurredAt : ℤ
  ledger : ℕ
  contractID : String
  data : EnvelopeData
  deriving DecidableEq, Repr

end TrusTrove
