import TrusTrove.Queries

/-!
# The webhook dispatcher

`webhook/dispatcher.go`: the internal event name is mapped to a public type, the listener's map is
read into an envelope, and one delivery row is written for each active subscription to the type. The
`get…` functions recover a value of the map by its Go type, with a zero value for any other.
-/

namespace TrusTrove

open Sql

def mapInternalEventType : String → EventType
  | "create" | "InvoiceCreated" => .invoiceCreated
  | "list_for_financing" | "InvoiceListed" => .invoiceListed
  | "fund_invoice" | "InvoiceFunded" => .invoiceFunded
  | "mark_shipped" | "InvoiceShipped" => .invoiceShipped
  | "confirm_delivery" | "DeliveryConfirmed" => .invoiceConfirmed
  | "repay" | "InvoiceRepaid" => .invoiceRepaid
  | "trigger_default" | "InvoiceDefaulted" | "invoice_defaulted" | "handle_default" =>
    .invoiceDefaulted
  | "deposit" | "PoolDeposit" | "lp_deposited" => .poolDeposit
  | "withdraw" | "PoolWithdrawal" | "lp_withdrawn" => .poolWithdrawal
  | "yield_distribution" | "PoolYieldDistributed" | "receive_repayment" | "repayment_received" =>
    .poolYieldDistributed
  | internal => EventType.ofString internal

def getString (data : GoMap) (key : String) : String :=
  match StringMap.get? data key with
  | some (.str s) => s
  | _ => ""

def getInt (data : GoMap) (key : String) : ℤ :=
  match StringMap.get? data key with
  | some (.int n) => n
  | _ => 0

def getInt64 (data : GoMap) (key : String) : ℤ :=
  match StringMap.get? data key with
  | some (.int64 n) => n
  | some (.int n) => n
  | _ => 0

def getInt64Ptr (data : GoMap) (key : String) : Option ℤ :=
  match StringMap.get? data key with
  | some (.int64Ptr p) => p
  | some (.int64 n) => some n
  | some (.int n) => some n
  | _ => none

/-- The `ledger` of an envelope: an `int` or `int32` converted to `uint32`. -/
def getLedger (data : GoMap) : ℕ :=
  match StringMap.get? data "ledger" with
  | some (.int n) => (n % 2 ^ 32).toNat
  | some (.int32 n) => (n % 2 ^ 32).toNat
  | _ => 0

/-- The `InvoiceEventData` of an invoice envelope. -/
def invoiceEventData (data : GoMap) : InvoiceEventData where
  invoiceID := getString data "invoice_id"
  issuer := getString data "issuer"
  buyer := getString data "buyer"
  faceValue := getString data "face_value"
  discountBps := getInt data "discount_bps"
  fundedAmount := getString data "funded_amount"
  dueDate := getInt64 data "due_date"
  status := getString data "status"
  createdAt := getInt64 data "created_at"
  fundedAt := getInt64Ptr data "funded_at"
  shippedAt := getInt64Ptr data "shipped_at"
  buyerConfirmedAt := getInt64Ptr data "buyer_confirmed_at"
  repaidAt := getInt64Ptr data "repaid_at"

/-- The `PoolEventData` of a pool envelope. -/
def poolEventData (data : GoMap) : PoolEventData where
  account := getString data "account"
  amount := getString data "amount"
  shares := getString data "shares"
  newBalance := getString data "new_balance"
  yieldAmount := getString data "yield_amount"
  totalShares := getString data "total_shares"

/-- `BuildEnvelope`, at the clock reading `now` in nanoseconds. -/
def buildEnvelope (now : ℕ) (eventType : String) (data : GoMap) : WebhookEnvelope :=
  let eventID := getString data "event_id"
  let publicEventType := mapInternalEventType eventType
  { schemaVersion
    eventType := publicEventType
    eventID := if eventID = "" then "evt_" ++ Nat.repr now else eventID
    occurredAt := match StringMap.get? data "ledger_closed_at" with
      | some (.int64 t) => t
      | _ => (now / 10 ^ 9 : ℕ)
    ledger := getLedger data
    contractID := getString data "contract_id"
    data := match publicEventType with
      | .invoiceCreated | .invoiceFunded | .invoiceRepaid | .invoiceDefaulted | .invoiceListed
      | .invoiceShipped | .invoiceConfirmed => .invoice (invoiceEventData data)
      | .poolDeposit | .poolWithdrawal | .poolYieldDistributed => .pool (poolEventData data)
      | .other _ => .generic data }

/-- `json.Marshal` of a time in UTC takes the years 0 to 9999. -/
def marshalsTime (t : ℤ) : Bool := decide (-62167219200 ≤ t) && decide (t ≤ 253402300799)

/-- `json.Marshal` of an envelope; the column holds the envelope that the text is of. -/
def marshalEnvelope (envelope : WebhookEnvelope) : Except GoError WebhookEnvelope :=
  if marshalsTime envelope.occurredAt then .ok envelope
  else .error (.new ("json: error calling MarshalJSON for type time.Time: "
    ++ "Time.MarshalJSON: year outside of range [0,9999]"))

/-- The loop of `EnqueueDeliveries`: one row per subscription. -/
def createDeliveries (envelope : WebhookEnvelope) (now : ℤ) : List WebhookSubscription → DbProg Unit
  | [] => pure ()
  | sub :: subs => do
    (createWebhookDelivery
      (newDelivery sub.id envelope.eventType.toString envelope.eventID envelope now)).mapError
      (.wrap ("webhook: create delivery for subscription " ++ sub.id))
    createDeliveries envelope now subs

def enqueueDeliveries (now : ℕ) (eventType : String) (data : GoMap) : DbProg Unit := do
  let publicEventType := mapInternalEventType eventType
  if publicEventType ∈ allEventTypes then
    let subs ← (listActiveWebhookSubscriptionsForEvent publicEventType.toString).mapError
      (.wrap "webhook: list subscriptions")
    if subs = [] then pure ()
    else
      let envelope ← Prog.ofExcept
        ((marshalEnvelope (buildEnvelope now eventType data)).mapError
          (.wrap "webhook: marshal envelope"))
      createDeliveries envelope now subs
  else Prog.fail (.new ("webhook: unsupported event type " ++ publicEventType.toString))

end TrusTrove
