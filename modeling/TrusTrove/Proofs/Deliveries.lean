import TrusTrove.Proofs.Mirror
import TrusTrove.Proofs.Rollback

/-!
# What a committed event delivers

The listener writes the columns of an invoice into an untyped map and the dispatcher reads them back
by key and Go type; the two agree on every column (`invoiceEventData_addInvoiceFields`). So an
applied event that commits adds one delivery for each active subscription to its public type and no
other, and the payload of an invoice event shows the row as the event left it
(`handleEvent_delivers`).
-/

namespace TrusTrove

open Sql

section Data

/-- The columns of a row as `InvoiceEventData` shows them. -/
def DbInvoice.eventData (inv : DbInvoice) : InvoiceEventData where
  invoiceID := inv.id
  issuer := inv.issuer
  buyer := inv.buyer
  faceValue := Int.repr inv.faceValue
  discountBps := inv.discountBps
  fundedAmount := Int.repr inv.fundedAmount
  dueDate := inv.dueDate
  status := inv.status.toString
  createdAt := inv.createdAt
  fundedAt := inv.fundedAt
  shippedAt := inv.shippedAt
  buyerConfirmedAt := inv.buyerConfirmedAt
  repaidAt := inv.repaidAt

/-- Each column is read under the key and the Go type it was written with. -/
theorem invoiceEventData_addInvoiceFields (data : GoMap) (inv : DbInvoice) :
    invoiceEventData (addInvoiceFields data inv) =
      { inv.eventData with invoiceID := getString data "invoice_id" } := by
  simp [invoiceEventData, DbInvoice.eventData, addInvoiceFields, getString, getInt, getInt64,
    getInt64Ptr, StringMap.get?_set]

/-- `Stamped`, with the ledger and the contract. -/
structure Labelled (event : SorobanEvent) (t : ℤ) (data : GoMap) : Prop where
  stamped : Stamped event t data
  ledger : StringMap.get? data "ledger" = some (.int32 event.ledger)
  contractID : StringMap.get? data "contract_id" = some (.str event.contractID)

theorem dispatchBase_labelled (event : SorobanEvent) (t : ℤ) (logData : StringMap String) :
    Labelled event t (dispatchBase event t logData) := by
  refine ⟨dispatchBase_stamped event t logData, ?_, ?_⟩ <;> simp [dispatchBase, StringMap.get?_set]

theorem addInvoiceFields_labelled {event : SorobanEvent} {t : ℤ} {data : GoMap}
    (h : Labelled event t data) (inv : DbInvoice) :
    Labelled event t (addInvoiceFields data inv) := by
  refine ⟨addInvoiceFields_stamped h.stamped inv, ?_, ?_⟩
  · simpa [addInvoiceFields, StringMap.get?_set] using h.ledger
  · simpa [addInvoiceFields, StringMap.get?_set] using h.contractID

theorem get?_map_str (logData : StringMap String) (k : String) :
    StringMap.get? (logData.map fun kv => (kv.1, GoVal.str kv.2)) k =
      (StringMap.get? logData k).map GoVal.str := by
  unfold StringMap.get?
  induction logData with
  | nil => rfl
  | cons kv logData ih =>
    rw [List.map_cons, List.lookup, List.lookup]
    split
    · rfl
    · exact ih

theorem dispatchBase_getString (event : SorobanEvent) (t : ℤ) (logData : StringMap String)
    {k : String}
    (hk : k ∉ ["event_id", "ledger", "contract_id", "ledger_closed_at"]) :
    getString (dispatchBase event t logData) k = (StringMap.get? logData k).getD "" := by
  simp only [List.mem_cons, List.not_mem_nil, or_false, not_or] at hk
  simp only [getString, dispatchBase, List.foldl_cons, List.foldl_nil, StringMap.get?_set,
    get?_map_str, hk, if_false]
  rcases StringMap.get? logData k with _ | v <;> rfl

/-- The invoice an event names: in its value if it is a creation, else in `topic[1]`. -/
def eventInvoiceID (sdk : Sdk) (event : SorobanEvent) (kind : EventKind) : String :=
  if kind = .created then
    match sdk.unmarshalBase64 event.value with
    | .ok val => ((getMapVal val "id").map parseBytes).getD ""
    | .error _ => ""
  else
    match event.topic with
    | _ :: t :: _ =>
      match sdk.unmarshalBase64 t with
      | .ok v => parseBytes v
      | .error _ => ""
    | _ => ""

theorem extractLogData_invoiceID (sdk : Sdk) (event : SorobanEvent) (kind : EventKind)
    {logData : StringMap String} (h : StringMap.get? logData "invoice_id" = none) :
    (StringMap.get? (extractLogData sdk event kind logData) "invoice_id").getD "" =
      eventInvoiceID sdk event kind := by
  unfold extractLogData eventInvoiceID
  split_ifs with hkind
  · rcases sdk.unmarshalBase64 event.value with e | val
    · simp [h]
    · simp only []
      rcases getMapVal val "id" with _ | id <;> rcases getMapVal val "issuer" with _ | issuer <;>
        rcases getMapVal val "buyer" with _ | buyer <;> simp [StringMap.get?_set, h]
  · rcases event.topic with _ | ⟨t₀, _ | ⟨t, rest⟩⟩
    · simp [h]
    · simp [h]
    · simp only []
      rcases sdk.unmarshalBase64 t with e | v
      · simp [h]
      · simp only []
        split_ifs with hv
        · simp [h, hv]
        · simp [StringMap.get?_set]

theorem extractLogData_status (sdk : Sdk) (event : SorobanEvent) (kind : EventKind)
    (logData : StringMap String) : StringMap.get? (extractLogData sdk event kind logData) "status" =
      StringMap.get? logData "status" := by
  unfold extractLogData
  split_ifs with hkind
  · rcases sdk.unmarshalBase64 event.value with e | val
    · rfl
    · simp only []
      rcases getMapVal val "id" with _ | id <;> rcases getMapVal val "issuer" with _ | issuer <;>
        rcases getMapVal val "buyer" with _ | buyer <;> simp [StringMap.get?_set]
  · rcases event.topic with _ | ⟨t₀, _ | ⟨t, rest⟩⟩
    · rfl
    · rfl
    · simp only []
      rcases sdk.unmarshalBase64 t with e | v
      · rfl
      · simp only []
        split_ifs
        · rfl
        · simp [StringMap.get?_set]

/-- The keys the handlers of pool events put in `logData`. -/
def poolKeys : List String := ["account", "amount", "shares", "yield_amount"]

theorem get?_of_keys {data : StringMap String} (hdata : data.map (·.1) ⊆ poolKeys) {k : String}
    (hk : k ∉ poolKeys) : StringMap.get? data k = none := by
  rw [StringMap.get?, List.lookup_eq_none_iff]
  intro kv hkv
  have hmem : kv.1 ∈ poolKeys := hdata (List.mem_map_of_mem hkv)
  rw [bne_iff_ne]
  rintro rfl
  exact hk hmem

theorem handlePoolLP_keys {sdk : Sdk} {event : SorobanEvent} {kind : String}
    {data : StringMap String} (h : handlePoolLP sdk event kind = .ok data) :
    data.map (·.1) ⊆ poolKeys := by
  unfold handlePoolLP at h
  rcases hlp : parsePoolLPEvent sdk event kind with e | ⟨account, amount, shares⟩ <;> rw [hlp] at h
  · cases h
  · cases h
    simp [poolKeys]

/-- A handler puts nothing in `logData` but what it reads of a pool event; the invoice is put there
by what follows the handler. -/
theorem runHandler_keys {sdk : Sdk} {stats : Except GoError ScVal} {event : SorobanEvent} {t : ℤ}
    {name : String} {kind : EventKind} {O : ℕ → Bool} {c c' : Conn Tables Shared}
    {data : StringMap String} (h : runHandler sdk stats event t name kind O c = (.ok data, c')) :
    data.map (·.1) ⊆ poolKeys := by
  have hpure : ∀ {m : DbProg Unit},
      (m >>= fun _ => pure ([] : StringMap String)) O c = (.ok data, c') →
      data.map (·.1) ⊆ poolKeys := by
    intro m hm
    obtain ⟨_, c₁, -, h₁⟩ := bind_ok hm
    cases h₁
    simp
  have hvalue : ∀ {ctx : String} {f : ScVal → StringMap String},
      (∀ val, (f val).map (·.1) ⊆ poolKeys) →
      (eventValue sdk event ctx >>= fun val => .ok (f val)) = .ok data →
      data.map (·.1) ⊆ poolKeys := by
    intro ctx f hf hval
    rcases hv : eventValue sdk event ctx with e | val <;> rw [hv] at hval
    · cases hval
    · cases hval
      exact hf val
  cases kind <;> simp only [runHandler, ofExcept_run, Prod.mk.injEq] at h
  case poolDeposit => exact handlePoolLP_keys h.1
  case poolWithdrawal => exact handlePoolLP_keys h.1
  case poolYieldDistributed => exact hvalue (fun _ => by simp [poolKeys]) h.1
  case poolDefault => exact hvalue (fun _ => by simp [poolKeys]) h.1
  all_goals exact hpure h

end Data

section Tail

variable {O : ℕ → Bool} {c c' : Conn Tables Shared}

/-- The delivery a fan-out to the subscriptions has under a key. -/
def fanOut (envelope : WebhookEnvelope) (now : ℤ) (subs : List WebhookSubscription)
    (k : String × String) : Option WebhookDelivery :=
  if k.2 = envelope.eventID ∧ k.1 ∈ subs.map (·.id) then
    some (newDelivery k.1 envelope.eventType.toString envelope.eventID envelope now)
  else none

theorem newDelivery_key (sub eventType eventID : String) (payload : WebhookEnvelope) (now : ℤ) :
    (newDelivery sub eventType eventID payload now).key = (sub, eventID) := rfl

theorem fanOut_cons (envelope : WebhookEnvelope) (now : ℤ) (sub : WebhookSubscription)
    (subs : List WebhookSubscription) (k : String × String) :
    fanOut envelope now (sub :: subs) k =
      if (sub.id, envelope.eventID) = k then
        some (newDelivery sub.id envelope.eventType.toString envelope.eventID envelope now)
      else fanOut envelope now subs k := by
  split_ifs with hk
  · subst hk
    simp [fanOut]
  · have hne : k.2 = envelope.eventID → k.1 ≠ sub.id := by
      intro h₂ h₁
      exact hk (Prod.ext h₁.symm h₂.symm)
    have hiff : (k.2 = envelope.eventID ∧ k.1 ∈ (sub :: subs).map (·.id)) ↔
        (k.2 = envelope.eventID ∧ k.1 ∈ subs.map (·.id)) := by
      refine and_congr_right fun h₂ => ?_
      rw [List.map_cons, List.mem_cons]
      exact or_iff_right (hne h₂)
    simp only [fanOut, hiff]

theorem createDeliveries_find? {envelope : WebhookEnvelope} {now : ℤ} :
    ∀ (subs : List WebhookSubscription) {c : Conn Tables Shared},
      createDeliveries envelope now subs O c = (.ok (), c') →
      ∀ k, c'.work.deliveries.find? k = (c.work.deliveries.find? k).or (fanOut envelope now subs k)
  | [], c, h, k => by
    cases h
    simp [fanOut]
  | sub :: subs, c, h, k => by
    unfold createDeliveries at h
    obtain ⟨⟨⟩, c₁, hrow, hrest⟩ := bind_ok h
    rw [createDeliveries_find? subs hrest k]
    obtain ⟨w, hw, rfl⟩ := onTx_ok (mapError_ok (mapError_ok hrow))
    cases hw
    show (Table.find? (Table.insertNew _ _) k).or _ = _
    rw [Table.find?_insertNew, fanOut_cons, newDelivery_key]
    split_ifs <;> cases c.work.deliveries.find? k <;> rfl

theorem enqueueDeliveries_find? {now : ℕ} {name : String} {data : GoMap}
    (h : enqueueDeliveries now name data O c = (.ok (), c')) (k : String × String) :
    c'.work.deliveries.find? k = (c.work.deliveries.find? k).or
      (fanOut (buildEnvelope now name data) now
        (subscribers c.shared.subscriptions (mapInternalEventType name)) k) := by
  unfold enqueueDeliveries at h
  split_ifs at h with hsup
  · obtain ⟨subs, c₁, hlist, hrest⟩ := bind_ok h
    obtain ⟨p, hp, rfl⟩ := onPool_ok (mapError_ok (mapError_ok hlist))
    obtain ⟨rfl, rfl⟩ := Prod.mk.inj (Except.ok.inj hp)
    split_ifs at hrest with hnone
    · cases hrest
      have hsubs : subscribers c.shared.subscriptions (mapInternalEventType name) = [] := hnone
      simp [hsubs, fanOut]
    · obtain ⟨envelope, henv, hrows⟩ := ofExcept_bind_ok hrest
      obtain rfl := marshalEnvelope_ok (mapError_eq_ok.1 henv)
      exact createDeliveries_find? _ hrows k
  · cases h

theorem logEvent_frame (row : EventLog) (O : ℕ → Bool) (c : Conn Tables Shared) :
    (logEvent row O c).2.work.invoices = c.work.invoices
      ∧ (logEvent row O c).2.work.deliveries = c.work.deliveries
      ∧ (logEvent row O c).2.shared = c.shared := by
  have htail : Respects (TailWrites row.eventID) Eq (logEvent row) := logEvent_writes rfl
  have hhandler : Respects (HandlerWrites row.eventID) Eq (logEvent row) :=
    logEvent_handlerWrites rfl
  exact ⟨TailWrites.invoices (htail O c).1, HandlerWrites.deliveries (hhandler O c).1,
    (htail O c).2.symm⟩

/-- What `webhookDispatchData` returns from a table of invoices it can read. -/
def dispatchData (event : SorobanEvent) (t : ℤ) (logData : StringMap String)
    (invoices : Table DbInvoice DbInvoice.id) : GoMap :=
  let data := dispatchBase event t logData
  let invoiceID := getString data "invoice_id"
  if invoiceID = "" then data
  else ((invoices.find? invoiceID).map (addInvoiceFields data)).getD data

theorem webhookDispatchData_ok {event : SorobanEvent} {t : ℤ} {logData : StringMap String}
    {data : GoMap} (h : webhookDispatchData event t logData O c = (.ok data, c'))
    (hc : c'.aborted = false) : data = dispatchData event t logData c.work.invoices := by
  unfold webhookDispatchData at h
  unfold dispatchData
  simp only [] at h ⊢
  split_ifs at h ⊢ with hid
  · cases h
    rfl
  · obtain ⟨r, c₁, hread, hrest⟩ := bind_ok h
    rw [attempt_run, getInvoiceByID, mapError_run] at hread
    rcases onTx_cases driverError (fun w : Tables => (.ok (w.invoices.find?
        (getString (dispatchBase event t logData) "invoice_id"), w) :
        Except GoError (Option DbInvoice × Tables))) O c with
      ⟨e, c₂, hrun, -, -, hab, -⟩ | ⟨a, w, hw, -, -, hrun⟩
    · rw [hrun] at hread
      cases hread
      cases hrest
      simp [hab] at hc
    · rw [hrun] at hread
      cases hw
      cases hread
      rcases hinv :
        c.work.invoices.find? (getString (dispatchBase event t logData) "invoice_id") with
        _ | inv <;> rw [hinv] at hrest
      · cases hrest
        rfl
      · cases hrest
        rfl

end Tail

section Event

variable {L : EventListener} {stats : Except GoError ScVal} {now : ℕ} {event : SorobanEvent}
  {name : String} {kind : EventKind} {logData : StringMap String} {O : ℕ → Bool}
  {c c' : Conn Tables Shared} {s : Db}

/-- The envelope of an event whose transaction leaves these tables. -/
def eventEnvelope (L : EventListener) (now : ℕ) (event : SorobanEvent) (name : String)
    (kind : EventKind) (logData : StringMap String) (w : Tables) : WebhookEnvelope :=
  buildEnvelope now name
    (dispatchData event (closedAt L now event) (extractLogData L.sdk event kind logData) w.invoices)

theorem eventTail_delivers (hdisp : L.dispatcher = true)
    (h : eventTail L now event name kind logData O c = (.ok (), c')) (hc' : c'.aborted = false)
    (k : String × String) :
    c'.work.deliveries.find? k = (c.work.deliveries.find? k).or
      (fanOut (eventEnvelope L now event name kind logData c.work) now
        (subscribers c.shared.subscriptions (mapInternalEventType name)) k) := by
  unfold eventTail at h
  obtain ⟨⟨⟩, c₁, hlog, h⟩ := bind_ok h
  rw [if_pos hdisp] at h
  obtain ⟨data, c₂, hdata, henq⟩ := bind_ok h
  have henq' := mapError_ok henq
  obtain ⟨hinv₁, hdel₁, hshared₁⟩ := logEvent_frame
    (logRow L now event name (.fields (extractLogData L.sdk event kind logData))) O c
  rw [mapError_ok hlog] at hinv₁ hdel₁ hshared₁
  have hread : Respects Eq Eq (webhookDispatchData event (closedAt L now event)
      (extractLogData L.sdk event kind logData)) := webhookDispatchData_writes event _ _
  obtain ⟨hwork₂, hshared₂⟩ := hread O c₁
  rw [hdata] at hwork₂ hshared₂
  have hunaborted : c₂.aborted = false := by
    have hstamped := webhookDispatchData_stamped event _ _ O c₁ data (congrArg Prod.fst hdata)
    have hmirror :=
      (enqueueDeliveries_mirrors (.inl rfl : now = now ∨ Timeless L event) name hstamped)
      O c₂ () (congrArg Prod.fst henq') (by rw [henq']; exact hc')
    exact hmirror.1
  have hdispatch := webhookDispatchData_ok hdata hunaborted
  rw [hinv₁] at hdispatch
  rw [enqueueDeliveries_find? henq' k, hdispatch, ← hwork₂, ← hshared₂, hshared₁, hdel₁]
  rfl

/-- An applied event that commits adds to the deliveries its fan-out to the subscribers of its
public type, with the invoices as it leaves them. -/
theorem handleEvent_delivers (hdisp : L.dispatcher = true) (hname : eventName L event = .ok name)
    (hkind : eventKind name = some kind) (hreg : kind ≠ .registration)
    (hrun : runHandler L.sdk stats event (closedAt L now event) name kind O
      ⟨s.tables, s.shared, false, s.tick + 1, s.failed⟩ = (.ok logData, c))
    (hok : (handleEvent L stats now O s event).1 = .ok ()) :
    (handleEvent L stats now O s event).2.tables.invoices = c.work.invoices
      ∧ ∀ k, (handleEvent L stats now O s event).2.tables.deliveries.find? k =
        (s.tables.deliveries.find? k).or
          (fanOut (eventEnvelope L now event name kind logData
              (handleEvent L stats now O s event).2.tables) now
            (subscribers s.shared.subscriptions (mapInternalEventType name)) k) := by
  rw [handleEvent_eq hname] at hok ⊢
  obtain ⟨c', hbody, hc', hout⟩ := withTx_ok hok
  rw [hout]
  have hattempt : (runHandler L.sdk stats event (closedAt L now event) name kind).attempt O
      ⟨s.tables, s.shared, false, s.tick + 1, s.failed⟩ = (.ok (.ok logData), c) := by
    rw [attempt_run, hrun]
  rw [eventBody_handler hkind hreg, bind_run_ok _ hattempt] at hbody
  change eventTail L now event name kind logData O c = (.ok (), c') at hbody
  obtain ⟨hwrites, hsnap⟩ := runHandler_writes L.sdk stats event (closedAt L now event) name kind O
    ⟨s.tables, s.shared, false, s.tick + 1, s.failed⟩
  rw [hrun] at hwrites hsnap
  have hinv : c'.work.invoices = c.work.invoices := by
    have htail : Respects (TailWrites event.id) Eq (eventTail L now event name kind logData) :=
      eventTail_writes L now event name kind logData
    have := (htail O c).1
    rw [hbody] at this
    exact TailWrites.invoices this
  refine ⟨hinv, fun k => ?_⟩
  have hdel := eventTail_delivers hdisp hbody hc' k
  rw [hwrites.deliveries, hsnap.1] at hdel
  simp only [eventEnvelope, hinv] at hdel ⊢
  exact hdel

end Event

section Faithful

variable {L : EventListener} {now : ℕ} {event : SorobanEvent} {name : String} {kind : EventKind}
  {logData : StringMap String} {w : Tables}

/-- The types whose `data` is an invoice. -/
def EventType.isInvoice : EventType → Bool
  | invoiceCreated | invoiceFunded | invoiceRepaid | invoiceDefaulted | invoiceListed
  | invoiceShipped | invoiceConfirmed => true
  | _ => false

/-- The id an event is delivered under: its own, or one taken from the clock if it has none. -/
def deliveryID (now : ℕ) (event : SorobanEvent) : String :=
  if event.id = "" then "evt_" ++ Nat.repr now else event.id

/-- A payload shows the event and, where it is about an invoice of the tables, every column of its
row. -/
structure Faithful (L : EventListener) (now : ℕ) (event : SorobanEvent) (name : String)
    (kind : EventKind) (w : Tables) (payload : WebhookEnvelope) : Prop where
  eventType : payload.eventType = mapInternalEventType name
  eventID : payload.eventID = deliveryID now event
  ledger : (payload.ledger : ℤ) = event.ledger % 2 ^ 32
  contractID : payload.contractID = event.contractID
  occurredAt : payload.occurredAt = closedAt L now event
  invoice : payload.eventType.isInvoice = true → ∃ d, payload.data = .invoice d
    ∧ d.invoiceID = eventInvoiceID L.sdk event kind
    ∧ (eventInvoiceID L.sdk event kind ≠ "" → ∀ inv,
      w.invoices.find? (eventInvoiceID L.sdk event kind) = some inv → d = inv.eventData)

theorem dispatchData_labelled (event : SorobanEvent) (t : ℤ) (logData : StringMap String)
    (invoices : Table DbInvoice DbInvoice.id) :
    Labelled event t (dispatchData event t logData invoices) := by
  have hbase := dispatchBase_labelled event t logData
  unfold dispatchData
  simp only []
  split_ifs
  · exact hbase
  · rcases invoices.find? (getString (dispatchBase event t logData) "invoice_id") with _ | inv
    · exact hbase
    · exact addInvoiceFields_labelled hbase inv

/-- The invoice of the dispatch data: the id the event names, and the columns of its row. -/
theorem dispatchData_invoice (event : SorobanEvent) (t : ℤ)
    (invoices : Table DbInvoice DbInvoice.id)
    {logData : StringMap String} {id : String}
    (hid : (StringMap.get? logData "invoice_id").getD "" = id) :
    (invoiceEventData (dispatchData event t logData invoices)).invoiceID = id
      ∧ (id ≠ "" → ∀ inv, invoices.find? id = some inv →
        invoiceEventData (dispatchData event t logData invoices) = inv.eventData) := by
  have hbase : getString (dispatchBase event t logData) "invoice_id" = id :=
    (dispatchBase_getString event t logData (by decide)).trans hid
  unfold dispatchData
  simp only [hbase]
  split_ifs with hempty
  · exact ⟨hbase, fun h => absurd hempty h⟩
  · rcases hinv : invoices.find? id with _ | inv
    · exact ⟨hbase, fun _ inv h => by cases h⟩
    · rw [Option.map_some, Option.getD_some, invoiceEventData_addInvoiceFields, hbase]
      refine ⟨rfl, fun _ inv' h => ?_⟩
      obtain rfl := Option.some.inj h
      rw [← Table.key_of_find? hinv]
      rfl

theorem dispatchData_unindexed (event : SorobanEvent) (t : ℤ)
    {invoices : Table DbInvoice DbInvoice.id}
    {logData : StringMap String} (hstatus : StringMap.get? logData "status" = none)
    (hnone : (StringMap.get? logData "invoice_id").getD "" = ""
      ∨ invoices.find? ((StringMap.get? logData "invoice_id").getD "") = none) :
    (invoiceEventData (dispatchData event t logData invoices)).status = "" := by
  have hid : getString (dispatchBase event t logData) "invoice_id" =
      (StringMap.get? logData "invoice_id").getD "" :=
        dispatchBase_getString event t logData (by decide)
  have hbase : dispatchData event t logData invoices = dispatchBase event t logData := by
    unfold dispatchData
    simp only [hid]
    rcases hnone with hid | hid
    · rw [if_pos hid]
    · rw [hid]
      split_ifs <;> rfl
  rw [hbase]
  exact (dispatchBase_getString event t logData (by decide)).trans (by rw [hstatus]; rfl)

theorem eventEnvelope_faithful (hdata : logData.map (·.1) ⊆ poolKeys) :
    Faithful L now event name kind w (eventEnvelope L now event name kind logData w) := by
  have hlabel := dispatchData_labelled event (closedAt L now event)
    (extractLogData L.sdk event kind logData) w.invoices
  have hinvoice := dispatchData_invoice event (closedAt L now event) w.invoices
    (extractLogData_invoiceID L.sdk event kind (get?_of_keys hdata (by decide)))
  unfold eventEnvelope
  generalize dispatchData event (closedAt L now event) (extractLogData L.sdk event kind logData)
    w.invoices = data at hlabel hinvoice
  obtain ⟨⟨hid, hclosed⟩, hledger, hcontract⟩ := hlabel
  refine ⟨rfl, ?_, ?_, ?_, ?_, fun htype => ?_⟩
  · simp [buildEnvelope, getString, hid, deliveryID]
  · simp only [buildEnvelope, getLedger, hledger]
    exact Int.toNat_of_nonneg (Int.emod_nonneg _ (by norm_num))
  · simp [buildEnvelope, getString, hcontract]
  · simp [buildEnvelope, hclosed]
  · refine ⟨invoiceEventData data, ?_, hinvoice⟩
    change (mapInternalEventType name).isInvoice = true at htype
    simp only [buildEnvelope]
    split <;> simp_all [EventType.isInvoice]

theorem registration_unsupported (hkind : eventKind name = some .registration) :
    mapInternalEventType name ∉ allEventTypes := by
  unfold eventKind at hkind
  split at hkind <;> cases hkind <;> decide

theorem mem_subscribers {subs : List WebhookSubscription} {eventType : EventType} {id : String} :
    id ∈ (subscribers subs eventType).map (·.id) ↔
      ∃ sub ∈ subs, sub.id = id ∧ sub.active = true ∧ eventType.toString ∈ sub.eventTypes := by
  simp only [subscribers, List.mem_map, List.mem_filter, Bool.and_eq_true, List.contains_iff_mem]
  constructor
  · rintro ⟨sub, ⟨hsub, hactive, htype⟩, rfl⟩
    exact ⟨sub, hsub, rfl, hactive, htype⟩
  · rintro ⟨sub, hsub, rfl, hactive, htype⟩
    exact ⟨sub, ⟨hsub, hactive, htype⟩, rfl⟩

end Faithful

/-- An applied event of a supported type that commits, delivered under its id for the first time,
adds one pending delivery for each active subscription that lists its public type and changes no
other, with a payload that shows the event and the row of its invoice as the event left it. -/
theorem fanout_complete_and_faithful (L : EventListener) (hdisp : L.dispatcher = true)
    (stats : Except GoError ScVal) (now : ℕ) (O : ℕ → Bool) (s : Db) {event : SorobanEvent}
    {name : String} {kind : EventKind} (hname : eventName L event = .ok name)
    (hkind : eventKind name = some kind) (hsup : mapInternalEventType name ∈ allEventTypes)
    {logData : StringMap String} {c : Conn Tables Shared}
    (hrun : runHandler L.sdk stats event (closedAt L now event) name kind O
      ⟨s.tables, s.shared, false, s.tick + 1, s.failed⟩ = (.ok logData, c))
    (hok : (handleEvent L stats now O s event).1 = .ok ())
    (hfirst : ∀ sub, s.tables.deliveries.find? (sub, deliveryID now event) = none) :
    let out := (handleEvent L stats now O s event).2
    ∃ payload, Faithful L now event name kind out.tables payload
      ∧ ∀ sub eventID, out.tables.deliveries.find? (sub, eventID) =
        if eventID = deliveryID now event ∧ ∃ r ∈ s.shared.subscriptions, r.id = sub
            ∧ r.active = true ∧ (mapInternalEventType name).toString ∈ r.eventTypes then
          some (newDelivery sub (mapInternalEventType name).toString (deliveryID now event) payload
            now)
        else s.tables.deliveries.find? (sub, eventID) := by
  intro out
  have hreg : kind ≠ .registration := by
    rintro rfl
    exact registration_unsupported hkind hsup
  have hfaith : Faithful L now event name kind (handleEvent L stats now O s event).2.tables
      (eventEnvelope L now event name kind logData (handleEvent L stats now O s event).2.tables) :=
    eventEnvelope_faithful (runHandler_keys hrun)
  refine ⟨_, hfaith, fun sub eventID => ?_⟩
  obtain ⟨-, hdel⟩ := handleEvent_delivers hdisp hname hkind hreg hrun hok
  rw [hdel (sub, eventID)]
  simp only [fanOut, mem_subscribers, hfaith.eventID, hfaith.eventType]
  split_ifs with hsub
  · rw [hsub.1, hfirst sub, Option.none_or]
  · rw [Option.or_none]

/-- The recorded invoice, with a subscription to its listing, one that is switched off and one to
another type. -/
def subscribedDb : Db :=
  { dbOf recordedInvoice with shared := { freshDb.shared with
      subscriptions := [⟨"s1", ["invoice.listed"], true⟩, ⟨"s2", ["invoice.listed"], false⟩,
        ⟨"s3", ["invoice.funded"], true⟩] } }

/-- A listing without an id is delivered under one taken from the clock, and one with a negative
ledger under the ledger it is congruent to. -/
theorem fanout_renames_event :
    let L := recordedListener 3
    let anonymous := { recordedListing with id := "" }
    let early := { recordedListing with ledger := -1 }
    let delivered := fun ev =>
      let out := handleEvent L (.ok .other) 7 noFaults subscribedDb ev
      (out.1, out.2.tables.deliveries.rows.map fun d =>
        (d.subscriptionID, d.payload.eventID, d.payload.ledger))
    delivered anonymous = (.ok (), [("s1", "evt_7", 101)])
      ∧ delivered early = (.ok (), [("s1", "e1", 4294967295)]) := by
  decide +kernel

theorem fanout_complete_recorded :
    let out := (handleEvent (recordedListener 3)
      (.ok .other) 7 noFaults subscribedDb recordedListing).2
    ∃ payload, Faithful
      (recordedListener 3) 7 recordedListing "list_for_financing" .listed out.tables
        payload
      ∧ out.tables.deliveries.find? ("s1", "e1") =
        some (newDelivery "s1" "invoice.listed" "e1" payload 7)
      ∧ out.tables.deliveries.find? ("s2", "e1") = none
      ∧ out.tables.deliveries.find? ("s3", "e1") = none := by
  intro out
  have hrun : (runHandler (recordedListener 3).sdk (.ok .other) recordedListing
      (closedAt (recordedListener 3) 7 recordedListing) "list_for_financing" .listed noFaults
      ⟨subscribedDb.tables, subscribedDb.shared, false, 1, false⟩).1 = .ok [] := by decide +kernel
  obtain ⟨payload, hfaith, hrows⟩ :=
    fanout_complete_and_faithful (recordedListener 3) rfl (.ok .other) 7 noFaults subscribedDb
      (by decide +kernel : eventName (recordedListener 3) recordedListing
        = .ok "list_for_financing")
      rfl (by decide) (Prod.ext hrun rfl) (by decide +kernel) fun _ => rfl
  refine ⟨payload, hfaith, ?_, ?_, ?_⟩ <;> rw [hrows] <;> rfl

end TrusTrove
