import TrusTrove.InvoiceParser
import TrusTrove.JsJson

/-!
# The notifications of the web app

`hooks/useNotifications.ts` and `types/notifications.ts` of `apps/web`. The history of a wallet is
one text in `localStorage`, its preferences another; the steps are those of a page that stays open,
each on the storage the earlier ones left.
-/

namespace TrusTrove

open Sql

section Events

/-- An `EventLog` of the web app, with the fields its notifications are made of. -/
structure RecentEvent where
  id : Double
  ledgerClosedAt : Double
  eventType : String
  data : List (String × Js)

def getEventDataString (event : RecentEvent) (key : String) : Option String :=
  match Js.get event.data key with
  | .string s => some s
  | _ => none

def typeMap : List (String × String) :=
  [("InvoiceCreated", "Invoice Created"), ("create", "Invoice Created"),
    ("InvoiceListed", "Invoice Listed"), ("list_for_financing", "Invoice Listed"),
    ("InvoiceFunded", "Invoice Funded"), ("fund_invoice", "Invoice Funded"),
    ("InvoiceShipped", "Invoice Shipped"), ("mark_shipped", "Invoice Shipped"),
    ("DeliveryConfirmed", "Delivery Confirmed"), ("confirm_delivery", "Delivery Confirmed"),
    ("InvoiceRepaid", "Invoice Repaid"), ("repay", "Invoice Repaid"),
    ("InvoiceDefaulted", "Invoice Defaulted"), ("trigger_default", "Invoice Defaulted")]

/-- The functions every object inherits. -/
def inheritedFunctions : List String :=
  ["constructor", "hasOwnProperty", "isPrototypeOf", "propertyIsEnumerable", "toLocaleString",
    "toString", "valueOf", "__defineGetter__", "__defineSetter__", "__lookupGetter__",
    "__lookupSetter__"]

/-- `typeMap[event_type] || event_type` -/
def notificationType (eventType : String) : Js :=
  match typeMap.lookup eventType with
  | some type => .string type
  | none =>
    -- the lookup finds what the literal inherits, too
    if inheritedFunctions.contains eventType then .undefined
    else if eventType = "__proto__" then .object []
    else .string eventType

def notificationMessage (eventType invShort : String) : String :=
  match eventType with
  | "InvoiceCreated" | "create" => "New invoice " ++ invShort ++ " issued on-chain"
  | "InvoiceListed" | "list_for_financing" => invShort ++ " listed for financing"
  | "InvoiceFunded" | "fund_invoice" => invShort ++ " fully funded"
  | "InvoiceShipped" | "mark_shipped" => invShort ++ " marked as shipped"
  | "DeliveryConfirmed" | "confirm_delivery" => "Buyer confirmed delivery for " ++ invShort
  | "InvoiceRepaid" | "repay" => invShort ++ " repaid"
  | "InvoiceDefaulted" | "trigger_default" => invShort ++ " defaulted"
  | _ => if invShort = "" then "Event occurred" else invShort

/-- A notification: an object with an id and a type, and what else storage has of it. -/
abbrev NotificationEvent := List (String × Js)

def NotificationEvent.id (n : NotificationEvent) : String := (Js.get n "id").toString

def mapEventToNotification (event : RecentEvent) : NotificationEvent :=
  let invId := (getEventDataString event "invoice_id").getD ""
  let invShort :=
    if invId = "" then "" else "INV#" ++ String.ofList (invId.toList.take 4) ++ "..."
  [("id", .string event.id.toString), ("type", notificationType event.eventType),
    ("invoiceId", .string invId),
    ("message", .string (notificationMessage event.eventType invShort)),
    ("timestamp", .number event.ledgerClosedAt), ("read", .boolean false)]

/-- The events a role sees of the invoices it can see. -/
def lpEventTypes : List String :=
  ["InvoiceListed", "list_for_financing", "InvoiceFunded", "fund_invoice", "InvoiceRepaid", "repay",
    "InvoiceDefaulted", "trigger_default"]

def relevantInvoiceIds (address : String) (role : Option String) (invoices : List Invoice) :
    List String :=
  (invoices.filter fun inv =>
    inv.issuer = address || inv.buyer = address || role = some "lp").map (·.id)

def relevantEvents (address : String) (role : Option String) (invoices : List Invoice)
    (events : List RecentEvent) : List RecentEvent :=
  let ids := relevantInvoiceIds address role invoices
  events.filter fun e =>
    match getEventDataString e "invoice_id" with
    | none => false
    | some invId =>
      if invId = "" then false
      else if role = some "lp" && ids.contains invId then lpEventTypes.contains e.eventType
      else ids.contains invId

end Events

section Storage

def notificationHistoryKey (address : String) : String := "trusttrove_notifs_" ++ address

def prefsStorageKey (address : String) : String := "trusttrove_prefs_" ++ address

/-- The object of a value that `isNotificationEvent` accepts. -/
def notificationEvent? : Js → Option NotificationEvent
  | .object members =>
    match Js.get members "id", Js.get members "type" with
    | .string _, .string _ => some members
    | _, _ => none
  | _ => none

structure StoredNotifications where
  items : List NotificationEvent
  canPersist : Bool
  hasStored : Bool

def readStoredNotifications (raw : Option String) : StoredNotifications :=
  match raw with
  | none => ⟨[], true, false⟩
  | some raw =>
    match JSON.parse raw with
    | some (.array parsed) =>
      let items := parsed.filterMap notificationEvent?
      ⟨items, items.length = parsed.length, true⟩
    | _ => ⟨[], false, true⟩

/-- The `Map` of the notifications by id. -/
abbrev NotifMap := Table NotificationEvent NotificationEvent.id

def mergeNotification (notifMap : NotifMap) (n : NotificationEvent) : NotifMap :=
  match notifMap.find? n.id with
  | none => notifMap.upsert n
  | some existing => notifMap.upsert (Js.spreadWith n "read" (Js.get existing "read"))

def mergeNotifications (saved mapped : List NotificationEvent) : NotifMap :=
  mapped.foldl mergeNotification (saved.foldl Table.upsert Table.empty)

def readPrefs (p : Option String) : Js :=
  match p with
  | none | some "" => .object []
  | some text => (JSON.parse text).getD (.object [])

/-- `prefs[key]`. A number, a string and a boolean have no member that is `false`. -/
def prefOf (prefs : Js) (key : String) : Except Thrown Js :=
  match prefs with
  | .undefined | .null =>
    .error (.typeError ("Cannot read properties of null (reading '" ++ key ++ "')"))
  | .object members => .ok (Js.get members key)
  | .array elems =>
    .ok (((elems.zipIdx.find? fun e => Nat.repr e.2 = key).map (·.1)).getD .undefined)
  | _ => .ok .undefined

/-- The notifications shown: none of a type that is switched off, the newest first. -/
def shownNotifications (prefs : Js) (all : List NotificationEvent) :
    Except Thrown (List NotificationEvent) := do
  let shown ← all.filterM fun n => do
    match ← prefOf prefs (Js.get n "type").toString with
    | .boolean false => return false
    | _ => return true
  let timestamp (n : NotificationEvent) : Double := (Js.get n "timestamp").toNumber
  return shown.mergeSort fun a b => !Double.lt (timestamp a) (timestamp b)

/-- `localStorage`: the text under each key. -/
abbrev LocalStorage := String → Option String

/-- `localStorage.setItem(key, JSON.stringify(items))` in a `try`. -/
def writeNotifications (storage : LocalStorage) (key : String) (items : List NotificationEvent) :
    LocalStorage :=
  match JSON.stringify (.array (items.map .object)) with
  | .ok text => Function.update storage key (some text)
  | .error _ => storage

end Storage

/-- The storage, and the list that is shown. -/
structure NotificationState where
  storage : LocalStorage
  notifications : List NotificationEvent

namespace NotificationState

/-- The effect of `useNotifications`. It throws before it writes where the preferences are
`null`. -/
def refresh (address : String) (role : Option String) (events : List RecentEvent)
    (invoices : List Invoice) (s : NotificationState) : NotificationState :=
  if address = "" then { s with notifications := [] }
  else
    let mappedNotifs := (relevantEvents address role invoices events).map mapEventToNotification
    let storageKey := notificationHistoryKey address
    let stored := readStoredNotifications (s.storage storageKey)
    let allNotifs := (mergeNotifications stored.items mappedNotifs).rows
    match shownNotifications (readPrefs (s.storage (prefsStorageKey address))) allNotifs with
    | .error _ => s
    | .ok combined =>
      { storage :=
          if stored.canPersist then writeNotifications s.storage storageKey allNotifs else s.storage
        notifications := combined }

def markAllAsRead (address : String) (s : NotificationState) : NotificationState :=
  if address = "" then s
  else
    let storageKey := notificationHistoryKey address
    let stored := readStoredNotifications (s.storage storageKey)
    let read (n : NotificationEvent) : NotificationEvent := Js.spreadWith n "read" (.boolean true)
    { storage :=
        if !stored.hasStored || !stored.canPersist then s.storage
        else writeNotifications s.storage storageKey (stored.items.map read)
      notifications := s.notifications.map read }

end NotificationState

/-- A step of the page. A wallet that is not connected has the empty address. -/
inductive NotificationStep
  | refresh (address : String) (role : Option String) (events : List RecentEvent)
      (invoices : List Invoice)
  | setPrefs (address : String) (prefs : Option String)
  | markAllAsRead (address : String)

def NotificationState.step (s : NotificationState) : NotificationStep → NotificationState
  | .refresh address role events invoices => s.refresh address role events invoices
  | .setPrefs address prefs =>
    { s with storage := Function.update s.storage (prefsStorageKey address) prefs }
  | .markAllAsRead address => s.markAllAsRead address

def NotificationState.run (s : NotificationState) (steps : List NotificationStep) :
    NotificationState :=
  steps.foldl NotificationState.step s

end TrusTrove
