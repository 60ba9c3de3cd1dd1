import TrusTrove.AuthToken
import TrusTrove.Lib.Interaction
import TrusTrove.Netguard

/-!
# Webhook subscriptions

The endpoints of `api/handlers_webhooks.go` behind `AuthMiddleware`, over `webhook_subscriptions`
and the deliveries that reference it, and what the delivery workers claim. A request is let through,
and then its one statement runs; requests, listener and workers interleave.
-/

namespace TrusTrove

open Sql

section Tables

/-- A row of `webhook_subscriptions`. -/
structure SubscriptionRow where
  id : String
  userAddress : String
  targetURL : String
  eventTypes : List String
  signingSecret : String
  active : Bool
  createdAt : ℤ
  deriving DecidableEq, Repr

/-- The columns the fan-out and the claims read. -/
def SubscriptionRow.subscription (row : SubscriptionRow) : WebhookSubscription :=
  ⟨row.id, row.eventTypes, row.active⟩

/-- `WebhookSubscription` of package `api`. -/
structure ApiSubscription where
  id : String
  userAddress : String
  url : String
  secret : String
  eventTypes : List String
  createdAt : ℤ
  deriving DecidableEq, Repr

def SubscriptionRow.scan (row : SubscriptionRow) : ApiSubscription :=
  ⟨row.id, row.userAddress, row.targetURL, row.signingSecret, row.eventTypes, row.createdAt⟩

/-- A subscription as a query that does not select its secret scans it. -/
def ApiSubscription.withoutSecret (sub : ApiSubscription) : ApiSubscription :=
  { sub with secret := "" }

structure WebhookTables where
  subscriptions : Table SubscriptionRow SubscriptionRow.id
  deliveries : Deliveries

/-- `createWebhookSub`. `id` and `now` are what the defaults of the columns give. -/
def createWebhookSub (userAddr u secret : String) (eventTypes : List String) (id : String) (now : ℤ)
    (fails : Bool) (t : WebhookTables) : Except GoError ApiSubscription × WebhookTables :=
  if fails then (.error driverError, t)
  else if 56 < userAddr.length then (.error constraintError, t)
  else
    let row : SubscriptionRow := ⟨id, userAddr, u, eventTypes, secret, true, now⟩
    (.ok row.scan, { t with subscriptions := t.subscriptions.insertNew row })

/-- `ORDER BY created_at DESC`. Rows with the same time are in the order of the table. -/
def newestSubscriptions (subs : List ApiSubscription) : List ApiSubscription :=
  subs.insertionSort fun a b => b.createdAt ≤ a.createdAt

/-- `getWebhookSubs` -/
def getWebhookSubs (userAddr : String) (fails : Bool) (t : WebhookTables) :
    Except GoError (List ApiSubscription) :=
  if fails then .error driverError
  else
    .ok ((newestSubscriptions ((t.subscriptions.rows.map SubscriptionRow.scan).filter fun sub =>
      sub.userAddress = userAddr)).map ApiSubscription.withoutSecret)

/-- `deleteWebhookSub`, and `ON DELETE CASCADE`. -/
def deleteWebhookSub (id userAddr : String) (fails : Bool) (t : WebhookTables) :
    Except GoError ℕ × WebhookTables :=
  let hit : SubscriptionRow → Bool := fun row => row.id = id && row.userAddress = userAddr
  if fails then (.error driverError, t)
  else
    let gone := (t.subscriptions.rows.filter hit).map (·.id)
    (.ok gone.length,
      { subscriptions := t.subscriptions.deleteWhere hit
        deliveries := t.deliveries.deleteWhere fun d => gone.contains d.subscriptionID })

/-- `CreateWebhookDelivery`. A delivery references its subscription. -/
def WebhookTables.createWebhookDelivery (d : WebhookDelivery) (t : WebhookTables) :
    WebhookTables :=
  match t.subscriptions.find? d.subscriptionID with
  | none => t
  | some _ => { t with deliveries := t.deliveries.insertNew d }

/-- A claimed delivery, with the columns of its subscription the claim returns. -/
structure ClaimedDelivery where
  delivery : WebhookDelivery
  endpointURL : String
  endpointSecret : String
  deriving DecidableEq, Repr

/-- `ClaimPendingDeliveries`, with the subscriptions it joins. -/
def claimDeliveries (limit lockFor now : ℤ) (locked : WebhookDelivery → Bool) (t : WebhookTables) :
    List ClaimedDelivery × WebhookTables :=
  match claimPendingDeliveries (t.subscriptions.rows.map SubscriptionRow.subscription) limit lockFor
      now locked t.deliveries with
  | .error _ => ([], t)
  | .ok (claimed, deliveries) =>
    (claimed.filterMap fun d => (t.subscriptions.find? d.subscriptionID).map fun row =>
        ⟨d, row.targetURL, row.signingSecret⟩,
      { t with deliveries := deliveries })

end Tables

section Handlers

structure CreateWebhookRequest where
  url : String
  eventTypes : List String
  deriving DecidableEq, Repr

/-- A request of a webhook route. Its body is what `decodeJSONBody` makes of it. -/
inductive WebhookRequest
  | create (body : Except BodyError CreateWebhookRequest)
  | get
  | delete (idStr : String)

/-- What a handler answers. -/
inductive WebhookResponse
  | error (r : Response)
  | created (sub : ApiSubscription)
  | data (subs : List ApiSubscription)
  | deleted (id : String)
  deriving DecidableEq, Repr

/-- What a handler meets: the network, `generateSecret`, the defaults of a new row and whether the
statement fails. -/
structure WebhookEnv where
  net : Network
  secret : Except GoError String
  id : String
  now : ℤ
  fails : Bool

def handleCreateWebhook (env : WebhookEnv) (userAddr : String)
    (body : Except BodyError CreateWebhookRequest) (t : WebhookTables) :
    WebhookResponse × WebhookTables :=
  match body with
  | .error e => (.error e.response, t)
  | .ok req =>
    if req.url = "" then (.error (httpError "url is required" 400), t)
    else if req.eventTypes.length = 0 then (.error (httpError "event_types is required" 400), t)
    else if env.net.isSafeURL (.guard 0) req.url = false then
      (.error (httpError "invalid or unsafe url" 400), t)
    else
      match env.secret with
      | .error _ => (.error (httpError "failed to generate secret" 500), t)
      | .ok secret =>
        match createWebhookSub userAddr req.url secret req.eventTypes env.id env.now env.fails t
          with
        | (.error _, t) => (.error (httpError "failed to create webhook subscription" 500), t)
        | (.ok sub, t) => (.created sub, t)

def handleGetWebhooks (env : WebhookEnv) (userAddr : String) (t : WebhookTables) :
    WebhookResponse × WebhookTables :=
  match getWebhookSubs userAddr env.fails t with
  | .error _ => (.error (httpError "failed to query webhooks" 500), t)
  | .ok subs => (.data subs, t)

/-- `parseUUID` is `uuid.Parse`. -/
def handleDeleteWebhook (parseUUID : String → Option String) (env : WebhookEnv) (userAddr : String)
    (idStr : String) (t : WebhookTables) : WebhookResponse × WebhookTables :=
  match parseUUID idStr with
  | none => (.error (httpError "invalid id" 400), t)
  | some id =>
    match deleteWebhookSub id userAddr env.fails t with
    | (.error _, t) => (.error (httpError "failed to delete webhook" 500), t)
    | (.ok affected, t) =>
      if affected = 0 then (.error (httpError "webhook not found" 404), t) else (.deleted id, t)

def WebhookRequest.handle (parseUUID : String → Option String) (env : WebhookEnv)
    (userAddr : String) : WebhookRequest → WebhookTables → WebhookResponse × WebhookTables
  | create body => handleCreateWebhook env userAddr body
  | get => handleGetWebhooks env userAddr
  | delete idStr => handleDeleteWebhook parseUUID env userAddr idStr

end Handlers

/-- What is seen of the subscriptions from outside. -/
inductive WebhookEvent
  | answered (userAddr : String) (response : WebhookResponse)
  | claimed (d : ClaimedDelivery)
  deriving DecidableEq, Repr

/-- The API and the tables, the requests let through, and what has been answered and claimed. -/
structure WebhookWorld (Hash : Type) where
  api : ApiWorld Hash
  tables : WebhookTables
  calls : List (String × WebhookRequest)
  log : List WebhookEvent

def WebhookWorld.init (Hash : Type) (clock : ℤ) : WebhookWorld Hash :=
  ⟨.init Hash clock, ⟨.empty, .empty⟩, [], []⟩

/-- A step of the API, of a webhook request, of the listener or of a delivery worker. -/
inductive WebhookStep (Hash : Type)
  | api (step : ApiStep Hash)
  | request (authHeader : String) (now : ℤ) (req : WebhookRequest)
  | serve (i : ℕ) (env : WebhookEnv)
  | enqueue (d : WebhookDelivery)
  | claim (limit lockFor now : ℤ) (locked : WebhookDelivery → Bool)
  | record (d : WebhookDelivery) (result : AttemptResult) (now : ℤ)

section Step

variable {Hash Signature : Type} (K : Txnbuild Hash Signature) (J : Jwt) (C : ApiConfig)
  (parseUUID : String → Option String)

def WebhookStep.apply : WebhookStep Hash → WebhookWorld Hash → WebhookWorld Hash
  | api step, w => { w with api := step.apply K J C w.api }
  | request authHeader now req, w =>
    let api := (ApiStep.authenticate authHeader now).apply K J C w.api
    match authMiddleware J C.jwtSecret authHeader now with
    | .error _ => { w with api := api }
    | .ok userAddr => { w with api := api, calls := w.calls ++ [(userAddr, req)] }
  | serve i env, w =>
    match w.calls[i]? with
    | none => w
    | some (userAddr, req) =>
      let r := req.handle parseUUID env userAddr w.tables
      { w with
        tables := r.2, calls := w.calls.eraseIdx i
        log := w.log ++ [.answered userAddr r.1] }
  | enqueue d, w => { w with tables := w.tables.createWebhookDelivery d }
  | claim limit lockFor now locked, w =>
    let r := claimDeliveries limit lockFor now locked w.tables
    { w with tables := r.2, log := w.log ++ r.1.map .claimed }
  | record d result now, w =>
    { w with tables := { w.tables with
        deliveries := w.tables.deliveries.update d.key (fun _ => true)
          (attemptDelivery d result now) (attemptDelivery_key d result now) } }

/-- What a step may be, as for the API. The id of a new row is a new one. -/
def WebhookStep.Allowed (w : WebhookWorld Hash) : WebhookStep Hash → Prop
  | api step => step.Allowed K J C w.api
  | request authHeader now _ => (ApiStep.authenticate authHeader now).Allowed K J C w.api
  | serve _ env => ∀ userAddr sub, .answered userAddr (.created sub) ∈ w.log → sub.id ≠ env.id
  | _ => True

inductive WebhookReachable : WebhookWorld Hash → Prop
  | init (clock : ℤ) (h : 0 ≤ clock) : WebhookReachable (.init Hash clock)
  | step {w : WebhookWorld Hash} (step : WebhookStep Hash) (hw : WebhookReachable w)
      (h : step.Allowed K J C w) : WebhookReachable (step.apply K J C parseUUID w)

end Step

end TrusTrove
