import TrusTrove.Dispatcher

/-!
# The event handlers

`listener/handlers.go`. `handleEvent` runs one contract event in one transaction: the handler its
name selects, the `events_log` row that marks it processed, and the delivery rows. A handler that
finds the invoice in another status is stale: the event is logged without a fan-out. An event whose
name the switch does not know is skipped before any row is written.

`stats` is the pool contract's answer to `get_stats`, and `now` the clock in nanoseconds.
-/

namespace TrusTrove

open Sql

structure SorobanEvent where
  id : String
  contractID : String
  ledger : ℤ
  ledgerClosedAt : String
  topic : List String
  value : String
  deriving DecidableEq, Repr

/-- The part of `config.Config` the listener reads. -/
structure Config where
  serverSeed : String
  registryContractID : String
  invoiceContractID : String
  poolContractID : String
  escrowContractID : String
  indexerConfirmationDepth : ℤ
  deriving DecidableEq, Repr

def getServerKeypair (sdk : Sdk) (seed : String) : Except GoError String :=
  if seed.toList.all (·.isWhitespace) then .error (.new "empty server seed") else sdk.parseFull seed

/-- A listener that runs: `Start` refuses a seed that does not parse. `dispatcher` says whether the
production dispatcher is wired. -/
structure EventListener where
  sdk : Sdk
  cfg : Config
  dispatcher : Bool
  seed_valid : ∃ kp, getServerKeypair sdk cfg.serverSeed = .ok kp

/-- The cases of `handleEvent`'s switch. -/
inductive EventKind
  | created
  | listed
  | funded
  | shipped
  | deliveryConfirmed
  | repaid
  | defaulted
  | attestation
  | registration
  | poolDeposit
  | poolWithdrawal
  | poolYieldDistributed
  | poolDefault
  deriving DecidableEq, Repr

/-- The case an event's name selects; none is the default branch. -/
def eventKind : String → Option EventKind
  | "create" | "InvoiceCreated" => some .created
  | "list_for_financing" | "InvoiceListed" => some .listed
  | "fund_invoice" | "InvoiceFunded" => some .funded
  | "mark_shipped" | "InvoiceShipped" => some .shipped
  | "confirm_delivery" | "DeliveryConfirmed" => some .deliveryConfirmed
  | "repay" | "InvoiceRepaid" => some .repaid
  | "trigger_default" | "InvoiceDefaulted" => some .defaulted
  | "submit_attestation" | "AttestationSubmitted" => some .attestation
  | "issuer_registered" | "buyer_registered" => some .registration
  | "deposit" | "lp_deposited" => some .poolDeposit
  | "withdraw" | "lp_withdrawn" => some .poolWithdrawal
  | "receive_repayment" | "repayment_received" | "yield_distribution" => some .poolYieldDistributed
  | "handle_default" | "invoice_defaulted" => some .poolDefault
  | _ => none

section PoolStats

/-- A U128 entry of `get_stats`. -/
def statU128 (v : ScVal) (key : String) : ℤ :=
  ((getMapVal v key).bind fun val => numeric (parseU128 val)).getD 0

/-- A U32 entry of `get_stats`. -/
def statU32 (v : ScVal) (key : String) : ℤ := ((getMapVal v key).map parseU32).getD 0

def poolStatsOf (v : ScVal) : DbPoolStats where
  totalDeposits := statU128 v "total_deposits"
  totalFunded := statU128 v "total_funded"
  availableLiquidity := statU128 v "available_liquidity"
  utilizationRateBps := statU32 v "utilization_rate_bps"
  totalYieldDistributed := statU128 v "total_yield_distributed"
  activeInvoiceCount := statU32 v "active_invoice_count"
  totalShares := statU128 v "total_shares"

/-- `SyncPoolStats`. -/
def syncPoolStatsFromChain (stats : Except GoError ScVal) : DbProg Unit := do
  let v ← Prog.ofExcept (stats.mapError (.wrap "sync pool stats: read contract"))
  (updatePoolStats (poolStatsOf v)).mapError (.wrap "sync pool stats: database update")

/-- The listener's `syncPoolStats`: a failure is logged, not returned. -/
def syncPoolStats (stats : Except GoError ScVal) : DbProg Unit := do
  let _ ← (syncPoolStatsFromChain stats).attempt
  pure ()

end PoolStats

section Handlers

variable (sdk : Sdk) (stats : Except GoError ScVal)

/-- The value in `topic[1]` of a `kind` event that must have one. -/
def topicVal (event : SorobanEvent) (kind ctx : String) : Except GoError ScVal :=
  match event.topic with
  | _ :: t :: _ => (sdk.unmarshalBase64 t).mapError (.wrap ctx)
  | _ => .error (.new ("invalid topic length for " ++ kind ++ " event"))

/-- The invoice id in `topic[1]`. -/
def topicInvoiceID (event : SorobanEvent) (kind : String) : Except GoError String :=
  (topicVal sdk event kind "parse topic invoice_id").map parseBytes

/-- The decoded value of an event. -/
def eventValue (event : SorobanEvent) (ctx : String) : Except GoError ScVal :=
  (sdk.unmarshalBase64 event.value).mapError (.wrap ctx)

def handleInvoiceCreated (event : SorobanEvent) (ledgerClosedAt : ℤ) : DbProg Unit := do
  let val ← Prog.ofExcept (eventValue sdk event "parse value")
  let id := ((getMapVal val "id").map parseBytes).getD ""
  let issuer := ((getMapVal val "issuer").map (parseAddress sdk)).getD ""
  let buyer := ((getMapVal val "buyer").map (parseAddress sdk)).getD ""
  let faceValue := ((getMapVal val "face_value").map parseU128).getD "0"
  let dueDate := ((getMapVal val "due_date").map parseU64).getD 0
  if id = "" || issuer = "" || buyer = "" then
    Prog.fail (.new ("event value missing required invoice fields: id=" ++ id
      ++ ", issuer=" ++ issuer ++ ", buyer=" ++ buyer))
  else
    match numeric faceValue with
    | none => refuseParameter "queries: insert invoice"
    | some amount =>
      let _ ← insertInvoice
        { id, issuer, buyer, faceValue := amount, discountBps := 0, fundedAmount := 0, dueDate
          status := .created, createdAt := ledgerClosedAt, fundedAt := none, shippedAt := none
          issuerConfirmed := false, buyerConfirmed := false, buyerConfirmedAt := none
          repaidAt := none, attestationAgentID := none, riskScoreBps := none, evidenceHash := none
          attestedAt := none }
      pure ()

def handleInvoiceListed (event : SorobanEvent) : DbProg Unit := do
  let invoiceID ← Prog.ofExcept (topicInvoiceID sdk event "list")
  let val ← Prog.ofExcept (eventValue sdk event "parse value")
  updateInvoiceListed invoiceID .listed (parseU32 val)

def handleInvoiceFunded (event : SorobanEvent) (ledgerClosedAt : ℤ) : DbProg Unit := do
  let invoiceID ← Prog.ofExcept (topicInvoiceID sdk event "funded")
  let val ← Prog.ofExcept (eventValue sdk event "parse value")
  updateInvoiceFunded invoiceID .funded (parseU128 val) ledgerClosedAt
  syncPoolStats stats

def handleInvoiceShipped (event : SorobanEvent) (ledgerClosedAt : ℤ) : DbProg Unit := do
  let invoiceID ← Prog.ofExcept (topicInvoiceID sdk event "shipped")
  updateInvoiceShipped invoiceID .active ledgerClosedAt

def handleDeliveryConfirmed (event : SorobanEvent) (ledgerClosedAt : ℤ) : DbProg Unit := do
  let invoiceID ← Prog.ofExcept (topicInvoiceID sdk event "confirmed")
  updateInvoiceDeliveryConfirmed invoiceID .confirmed ledgerClosedAt

def handleInvoiceRepaid (event : SorobanEvent) (ledgerClosedAt : ℤ) : DbProg Unit := do
  let invoiceID ← Prog.ofExcept (topicInvoiceID sdk event "repaid")
  updateInvoiceRepaid invoiceID .repaid ledgerClosedAt
  syncPoolStats stats

def handleInvoiceDefaulted (event : SorobanEvent) : DbProg Unit := do
  let invoiceID ← Prog.ofExcept (topicInvoiceID sdk event "default")
  updateInvoiceStatus invoiceID "Defaulted"
  syncPoolStats stats

/-- `topic[2]`, if it is a symbol. -/
def agentIDOf (event : SorobanEvent) : String :=
  match event.topic with
  | _ :: _ :: t :: _ =>
    match sdk.unmarshalBase64 t with
    | .ok (.symbol s) => s
    | _ => ""
  | _ => ""

def handleAttestationSubmitted (event : SorobanEvent) (ledgerClosedAt : ℤ) : DbProg Unit := do
  let invoiceID ← Prog.ofExcept (topicInvoiceID sdk event "attestation")
  let riskScoreBps := match sdk.unmarshalBase64 event.value with
    | .ok val => parseU32 val
    | .error _ => 0
  updateInvoiceAttestation invoiceID (agentIDOf sdk event) "" riskScoreBps ledgerClosedAt

def handleRegistrationEvent (event : SorobanEvent) (ledgerClosedAt : ℤ) (eventName : String) :
    DbProg Unit := do
  let val ← Prog.ofExcept (topicVal sdk event "registration" "parse registration address topic")
  let address := parseAddress sdk val
  if address = "" then
    Prog.fail (.new "registration event value: topic address is not a valid address")
  else
    logEvent ⟨event.id, event.contractID, event.ledger, ledgerClosedAt, eventName,
      .fields [("address", address)]⟩

def parseU128Pair : ScVal → String × String
  | .vec (some elems) =>
    ((elems.head?.map parseU128).getD "", ((elems.tail.head?).map parseU128).getD "")
  | val => (parseU128 val, "")

/-- `parsePoolLPEvent`: the account, the amount and the shares. -/
def parsePoolLPEvent (event : SorobanEvent) (kind : String) :
    Except GoError (String × String × String) := do
  let addrVal ← topicVal sdk event ("pool " ++ kind) ("parse pool " ++ kind ++ " lp topic")
  let account := parseAddress sdk addrVal
  if account = "" then
    .error (.new ("pool " ++ kind ++ " event: topic lp address is not a valid address"))
  else
    let val ← eventValue sdk event ("parse pool " ++ kind ++ " value")
    .ok (account, parseU128Pair val)

/-- `handlePoolDeposit` and `handlePoolWithdrawal`: what they put in `logData`. -/
def handlePoolLP (event : SorobanEvent) (kind : String) : Except GoError (StringMap String) := do
  let (account, amount, shares) ← parsePoolLPEvent sdk event kind
  .ok [("account", account), ("amount", amount), ("shares", shares)]

def handlePoolYieldDistributed (event : SorobanEvent) : Except GoError (StringMap String) := do
  let val ← eventValue sdk event "parse pool yield value"
  .ok [("amount", (parseU128Pair val).1), ("yield_amount", (parseU128Pair val).2)]

def handlePoolDefault (event : SorobanEvent) : Except GoError (StringMap String) := do
  let val ← eventValue sdk event "parse pool default value"
  .ok [("amount", (parseU128Pair val).1)]

/-- The handler of a case, with what it puts in `logData`. -/
def runHandler (event : SorobanEvent) (ledgerClosedAt : ℤ) (eventName : String) :
    EventKind → DbProg (StringMap String)
  | .created => do handleInvoiceCreated sdk event ledgerClosedAt; pure []
  | .listed => do handleInvoiceListed sdk event; pure []
  | .funded => do handleInvoiceFunded sdk stats event ledgerClosedAt; pure []
  | .shipped => do handleInvoiceShipped sdk event ledgerClosedAt; pure []
  | .deliveryConfirmed => do handleDeliveryConfirmed sdk event ledgerClosedAt; pure []
  | .repaid => do handleInvoiceRepaid sdk stats event ledgerClosedAt; pure []
  | .defaulted => do handleInvoiceDefaulted sdk stats event; pure []
  | .attestation => do handleAttestationSubmitted sdk event ledgerClosedAt; pure []
  | .registration => do handleRegistrationEvent sdk event ledgerClosedAt eventName; pure []
  | .poolDeposit => Prog.ofExcept (handlePoolLP sdk event "deposit")
  | .poolWithdrawal => Prog.ofExcept (handlePoolLP sdk event "withdraw")
  | .poolYieldDistributed => Prog.ofExcept (handlePoolYieldDistributed sdk event)
  | .poolDefault => Prog.ofExcept (handlePoolDefault sdk event)

/-- `logData` after the switch: the invoice id of `topic[1]`, or for a creation the id and the two
parties of the value. -/
def extractLogData (event : SorobanEvent) (kind : EventKind) (logData : StringMap String) :
    StringMap String :=
  if kind = .created then
    match sdk.unmarshalBase64 event.value with
    | .error _ => logData
    | .ok val =>
      let put (m : StringMap String) (field key : String) (parse : ScVal → String) :=
        match getMapVal val field with
        | some v => m.set key (parse v)
        | none => m
      put (put (put logData "id" "invoice_id" parseBytes) "issuer" "issuer" (parseAddress sdk))
        "buyer" "buyer" (parseAddress sdk)
  else
    match event.topic with
    | _ :: t :: _ =>
      match sdk.unmarshalBase64 t with
      | .ok v => if parseBytes v = "" then logData else logData.set "invoice_id" (parseBytes v)
      | .error _ => logData
    | _ => logData

def addInvoiceFields (data : GoMap) (inv : DbInvoice) : GoMap :=
  [("issuer", GoVal.str inv.issuer), ("buyer", .str inv.buyer),
    ("face_value", .str (Int.repr inv.faceValue)), ("discount_bps", .int inv.discountBps),
    ("funded_amount", .str (Int.repr inv.fundedAmount)), ("due_date", .int64 inv.dueDate),
    ("status", .str inv.status.toString), ("created_at", .int64 inv.createdAt),
    ("funded_at", .int64Ptr inv.fundedAt), ("shipped_at", .int64Ptr inv.shippedAt),
    ("buyer_confirmed_at", .int64Ptr inv.buyerConfirmedAt),
    ("repaid_at", .int64Ptr inv.repaidAt)].foldl (fun m kv => StringMap.set m kv.1 kv.2) data

/-- The part of the dispatch data that does not depend on the database. -/
def dispatchBase (event : SorobanEvent) (ledgerClosedAt : ℤ) (logData : StringMap String) : GoMap :=
  [("event_id", GoVal.str event.id), ("ledger", .int32 event.ledger),
    ("contract_id", .str event.contractID), ("ledger_closed_at", .int64 ledgerClosedAt)].foldl
      (fun m kv => StringMap.set m kv.1 kv.2) (logData.map fun kv => (kv.1, GoVal.str kv.2))

/-- `webhookDispatchData`: a failed read of the invoice is logged, not returned. -/
def webhookDispatchData (event : SorobanEvent) (ledgerClosedAt : ℤ) (logData : StringMap String) :
    DbProg GoMap := do
  let data := dispatchBase event ledgerClosedAt logData
  let invoiceID := getString data "invoice_id"
  if invoiceID = "" then pure data
  else
    match ← (getInvoiceByID invoiceID).attempt with
    | .ok (some invoice) => pure (addInvoiceFields data invoice)
    | _ => pure data

end Handlers

section HandleEvent

variable (L : EventListener) (stats : Except GoError ScVal) (now : ℕ)

/-- The name of an event: the symbol in `topic[0]`. -/
def eventName (event : SorobanEvent) : Except GoError String :=
  match event.topic with
  | [] => .error (.new "event topic is empty")
  | t :: _ =>
    match L.sdk.unmarshalBase64 t with
    | .error e => .error (.wrap "parse first topic" e)
    | .ok (.symbol s) => .ok s
    | .ok _ => .error (.new "first topic is not a symbol")

/-- The close time of the event's ledger, or the clock when it does not parse. -/
def closedAt (event : SorobanEvent) : ℤ :=
  ((if event.ledgerClosedAt = "" then none else L.sdk.parseRFC3339 event.ledgerClosedAt)).getD
    (now / 10 ^ 9 : ℕ)

/-- The `events_log` row of an event. -/
def logRow (event : SorobanEvent) (eventName : String) (data : LogData) : EventLog :=
  ⟨event.id, event.contractID, event.ledger, closedAt L now event, eventName, data⟩

/-- The end of an event whose handler returned: its `events_log` row and its delivery rows. -/
def eventTail (event : SorobanEvent) (eventName : String) (kind : EventKind)
    (logData : StringMap String) : DbProg Unit := do
  let logData := extractLogData L.sdk event kind logData
  (logEvent (logRow L now event eventName (.fields logData))).mapError (.wrap "log event")
  if L.dispatcher then
    let data ← webhookDispatchData event (closedAt L now event) logData
    (enqueueDeliveries now eventName data).mapError (.wrap "enqueue webhook deliveries")
  else pure ()

/-- What follows a handler: a stale transition is logged with the event's raw value, any other error
fails the event. -/
def afterHandler (event : SorobanEvent) (eventName : String) (kind : EventKind) :
    Except GoError (StringMap String) → DbProg Unit
  | .error e =>
    if e.is .invalidInvoiceTransition then
      logEvent (logRow L now event eventName (.raw event.value))
    else Prog.fail (.wrap ("handler for " ++ eventName ++ " failed") e)
  | .ok logData => eventTail L now event eventName kind logData

/-- The body of the transaction. -/
def eventBody (event : SorobanEvent) (eventName : String) : DbProg Unit :=
  match eventKind eventName with
  | none => pure ()
  | some .registration =>
    handleRegistrationEvent L.sdk event (closedAt L now event) eventName
  | some kind => do
    let r ← (runHandler L.sdk stats event (closedAt L now event) eventName kind).attempt
    afterHandler L now event eventName kind r

def handleEvent (O : ℕ → Bool) (s : Db) (event : SorobanEvent) : Except GoError Unit × Db :=
  match eventName L event with
  | .error e => (.error e, s)
  | .ok name =>
    match getServerKeypair L.sdk L.cfg.serverSeed with
    | .error e => (.error (.wrap "get server keypair" e), s)
    | .ok _ =>
      withTx (.wrap "db: begin transaction" driverError)
        (.wrap "db: commit transaction" driverError)
        (eventBody L stats now event name) O s

end HandleEvent

end TrusTrove
