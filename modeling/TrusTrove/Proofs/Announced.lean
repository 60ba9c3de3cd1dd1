import TrusTrove.Proofs.Deliveries

/-!
# What a lifecycle webhook announces

A public type announces the status its invoice has come to, and the payload shows the status of the
row when the event commits. The handlers that move the row leave it in the announced status. Two
events reach the fan-out without moving it: a creation of an invoice that is already there, and the
pool's own default event, which goes out as `invoice.defaulted` and updates no row. So a payload
tells the truth exactly when the event is neither of these, or the row is already in the announced
status (`webhooks_tell_truth`).
-/

namespace TrusTrove

open Sql

/-- The status a public type announces. -/
def EventType.announces : EventType → Option InvoiceStatus
  | invoiceCreated => some .created
  | invoiceListed => some .listed
  | invoiceFunded => some .funded
  | invoiceShipped => some .active
  | invoiceConfirmed => some .confirmed
  | invoiceRepaid => some .repaid
  | invoiceDefaulted => some .defaulted
  | _ => none

/-- The status the event of a case announces. -/
def EventKind.announces : EventKind → Option InvoiceStatus
  | created => some .created
  | listed => some .listed
  | funded => some .funded
  | shipped => some .active
  | deliveryConfirmed => some .confirmed
  | repaid => some .repaid
  | defaulted | poolDefault => some .defaulted
  | _ => none

theorem mapInternalEventType_announces {name : String} {kind : EventKind}
    (hkind : eventKind name = some kind) :
    (mapInternalEventType name).announces = kind.announces := by
  unfold eventKind at hkind
  split at hkind <;> cases hkind <;> rfl

/-- The event moves its invoice to the status it announces, or finds it there: a creation finds no
row, or one still `Created`, and a default reported by the pool a row already `Defaulted`. -/
def InStep (sdk : Sdk) (event : SorobanEvent) (w : Tables) : EventKind → Prop
  | .created =>
    ∀ r, w.invoices.find? (eventInvoiceID sdk event .created) = some r → r.status = .created
  | .poolDefault =>
    ∀ r, w.invoices.find? (eventInvoiceID sdk event .poolDefault) = some r → r.status = .defaulted
  | _ => True

section Handlers

variable {sdk : Sdk} {stats : Except GoError ScVal} {event : SorobanEvent} {t : ℤ} {O : ℕ → Bool}
  {c c' : Conn Tables Shared} {kind : EventKind}

theorem topicInvoiceID_ok {ctx id : String} (h : topicInvoiceID sdk event ctx = .ok id)
    (hkind : kind ≠ .created) : eventInvoiceID sdk event kind = id := by
  unfold topicInvoiceID topicVal at h
  rw [eventInvoiceID, if_neg hkind]
  rcases htopic : event.topic with _ | ⟨t₀, _ | ⟨t, rest⟩⟩ <;> rw [htopic] at h
  · cases h
  · cases h
  · rcases hv : sdk.unmarshalBase64 t with e | v <;> simp only [hv] at h ⊢ <;> cases h
    rfl

theorem then_sync_ok {m : DbProg Unit}
    (h : (m >>= fun _ => syncPoolStats stats) O c = (.ok (), c')) :
    ∃ c₁, m O c = (.ok (), c₁) ∧ c'.work = c₁.work := by
  obtain ⟨⟨⟩, c₁, hm, hsync⟩ := bind_ok h
  have hwork := ((syncPoolStats_writes stats : Respects Eq _ _) O c₁).1
  rw [hsync] at hwork
  exact ⟨c₁, hm, hwork.symm⟩

/-- The row of an invoice its handler moves is left in the status `set` gives it. -/
theorem updateInvoice_status {id operation target : String} {guard : DbInvoice → Bool}
    {set : DbInvoice → Option DbInvoice} {hset : ∀ r, ((set r).getD r).id = r.id}
    {st : InvoiceStatus}
    (hst : ∀ r r', set r = some r' → r'.status = st)
    (h : updateInvoice id operation target guard set hset O c = (.ok (), c')) {inv : DbInvoice}
    (hinv : c'.work.invoices.find? id = some inv) : inv.status = st := by
  obtain ⟨r, r', -, -, hr', -, hrow⟩ := updateInvoice_ok h
  obtain rfl : r' = inv := Option.some.inj (hrow.symm.trans hinv)
  exact hst r r' hr'

theorem insertInvoice_ok {inv : DbInvoice} {b : Bool} (h : insertInvoice inv O c = (.ok b, c')) :
    c'.work.invoices = c.work.invoices.insertNew inv := by
  obtain ⟨w, hw, rfl⟩ := onTx_ok (mapError_ok h)
  split_ifs at hw
  cases hw
  rfl

/-- A creation leaves the row that was there, or a `Created` one. -/
theorem handleInvoiceCreated_ok (h : handleInvoiceCreated sdk event t O c = (.ok (), c')) :
    ∃ row : DbInvoice, row.status = .created
      ∧ c'.work.invoices.find? (eventInvoiceID sdk event .created) =
        (c.work.invoices.find? (eventInvoiceID sdk event .created)).or (some row) := by
  unfold handleInvoiceCreated at h
  obtain ⟨val, hval, h⟩ := ofExcept_bind_ok h
  have hid : eventInvoiceID sdk event .created = ((getMapVal val "id").map parseBytes).getD "" := by
    unfold eventValue at hval
    rcases hv : sdk.unmarshalBase64 event.value with e | v <;> rw [hv] at hval <;> cases hval
    simp [eventInvoiceID, hv]
  simp only [] at h
  split_ifs at h
  · cases h
  · rcases hnum : numeric (((getMapVal val "face_value").map parseU128).getD "0") with
      _ | amount <;>
      simp only [hnum] at h
    · exact absurd (congrArg Prod.fst h) (refuseParameter_fails _ _)
    · obtain ⟨b, c₁, hins, hpure⟩ := bind_ok h
      cases hpure
      rw [insertInvoice_ok hins, Table.find?_insertNew, hid, if_pos rfl]
      exact ⟨_, rfl, rfl⟩

/-- A handler that returns leaves its invoice in the announced status exactly when the event is in
step. -/
theorem runHandler_announces {name : String} {logData : StringMap String} {st : InvoiceStatus}
    {inv : DbInvoice} (h : runHandler sdk stats event t name kind O c = (.ok logData, c'))
    (hst : kind.announces = some st)
    (hinv : c'.work.invoices.find? (eventInvoiceID sdk event kind) = some inv) :
    inv.status = st ↔ InStep sdk event c.work kind := by
  cases kind <;> cases hst <;> simp only [runHandler] at h
  case poolDefault =>
    rw [ofExcept_run, Prod.mk.injEq] at h
    obtain ⟨-, rfl⟩ := h
    rw [InStep, hinv]
    simp
  all_goals
    obtain ⟨⟨⟩, c₁, hrun, hpure⟩ := bind_ok h
    cases hpure
  case created =>
    obtain ⟨row, hrow, hfind⟩ := handleInvoiceCreated_ok hrun
    rw [hfind] at hinv
    rw [InStep]
    rcases hold : c.work.invoices.find? (eventInvoiceID sdk event .created) with _ | r
    · rw [hold, Option.none_or, Option.some.injEq] at hinv
      simp [← hinv, hrow]
    · rw [hold, Option.some_or, Option.some.injEq] at hinv
      simp [hinv]
  all_goals
    refine iff_of_true ?_ trivial
    obtain ⟨id, hid, hrun⟩ := ofExcept_bind_ok hrun
    rw [topicInvoiceID_ok hid (by decide)] at hinv
  case listed =>
    obtain ⟨val, -, hrun⟩ := ofExcept_bind_ok hrun
    exact updateInvoice_status (by rintro r _ ⟨⟩; rfl) (updateInvoiceListed_ok hrun) hinv
  case funded =>
    obtain ⟨val, -, hrun⟩ := ofExcept_bind_ok hrun
    obtain ⟨c₂, hup, hwork⟩ := then_sync_ok hrun
    rw [hwork] at hinv
    rcases hnum : numeric (parseU128 val) with _ | amount
    · simp only [updateInvoiceFunded, hnum] at hup
      exact absurd (congrArg Prod.fst hup) (refuseParameter_fails _ _)
    · rw [updateInvoiceFunded_eq hnum] at hup
      exact updateInvoice_status (by rintro r _ ⟨⟩; rfl) hup hinv
  case shipped => exact updateInvoice_status (by rintro r _ ⟨⟩; rfl) hrun hinv
  case deliveryConfirmed => exact updateInvoice_status (by rintro r _ ⟨⟩; rfl) hrun hinv
  case repaid =>
    obtain ⟨c₂, hup, hwork⟩ := then_sync_ok hrun
    rw [hwork] at hinv
    exact updateInvoice_status (by rintro r _ ⟨⟩; rfl) hup hinv
  case defaulted =>
    obtain ⟨c₂, hup, hwork⟩ := then_sync_ok hrun
    rw [hwork] at hinv
    exact updateInvoice_status (by rintro r _ ⟨⟩; rfl) hup hinv

end Handlers

section Payload

variable {L : EventListener} {stats : Except GoError ScVal} {now : ℕ} {event : SorobanEvent}
  {name : String} {kind : EventKind} {logData : StringMap String} {O : ℕ → Bool} {s : Db}
  {d : WebhookDelivery} {w : Tables}

/-- An invoice payload shows no status, or that of the row of the invoice the event names. -/
theorem eventEnvelope_status (hkeys : logData.map (·.1) ⊆ poolKeys) {data : InvoiceEventData}
    (hdata : (eventEnvelope L now event name kind logData w).data = .invoice data) :
    data.status = "" ∨ ∃ inv, w.invoices.find? (eventInvoiceID L.sdk event kind) = some inv
      ∧ data.status = inv.status.toString := by
  have hid := extractLogData_invoiceID L.sdk event kind (get?_of_keys hkeys (by decide))
  have hstatus : StringMap.get? (extractLogData L.sdk event kind logData) "status" = none :=
    (extractLogData_status L.sdk event kind logData).trans (get?_of_keys hkeys (by decide))
  obtain rfl : invoiceEventData (dispatchData event (closedAt L now event)
      (extractLogData L.sdk event kind logData) w.invoices) = data := by
    simp only [eventEnvelope, buildEnvelope] at hdata
    split at hdata <;> first | exact EnvelopeData.invoice.inj hdata | cases hdata
  by_cases hempty : eventInvoiceID L.sdk event kind = ""
  · exact .inl (dispatchData_unindexed event _ hstatus (.inl (hid.trans hempty)))
  · rcases hinv : w.invoices.find? (eventInvoiceID L.sdk event kind) with _ | inv
    · rw [← hid] at hinv
      exact .inl (dispatchData_unindexed event _ hstatus (.inr hinv))
    · refine .inr ⟨inv, rfl, ?_⟩
      rw [(dispatchData_invoice event (closedAt L now event) w.invoices hid).2 hempty inv hinv]
      rfl

/-- A transaction that returns has made no delivery, or its handler returned and the fan-out ran. -/
theorem eventBody_delivers {c c' : Conn Tables Shared}
    (h : eventBody L stats now event name O c = (.ok (), c')) :
    c'.work.deliveries = c.work.deliveries
      ∨ L.dispatcher = true ∧ ∃ kind logData c₁, eventKind name = some kind ∧ kind ≠ .registration
        ∧ runHandler L.sdk stats event (closedAt L now event) name kind O c =
            (.ok logData, c₁) := by
  rcases hkind : eventKind name with _ | kind
  · simp only [eventBody, hkind] at h
    cases h
    exact .inl rfl
  by_cases hreg : kind = .registration
  · subst hreg
    rw [eventBody_registration hkind] at h
    have hwrites : Respects (HandlerWrites event.id) Eq
      (handleRegistrationEvent L.sdk event (closedAt L now event) name) :=
        handleRegistrationEvent_writes _ _ _ _
    have := (hwrites O c).1
    rw [h] at this
    exact .inl (HandlerWrites.deliveries this)
  · rw [eventBody_handler hkind hreg] at h
    obtain ⟨r, c₁, hr, hafter⟩ := bind_ok h
    rw [attempt_run] at hr
    cases hr
    have hwrites := ((runHandler_writes L.sdk stats event (closedAt L now event) name kind) O c).1
    rcases hrun : runHandler L.sdk stats event (closedAt L now event) name kind O c with
      ⟨e | logData, c₁⟩ <;> rw [hrun] at hafter hwrites
    · refine .inl ?_
      simp only [afterHandler] at hafter
      split_ifs at hafter
      · have hrow := (logEvent_frame (logRow L now event name (.raw event.value)) O c₁).2.1
        rw [hafter] at hrow
        exact hrow.trans hwrites.deliveries
      · cases hafter
    · by_cases hdisp : L.dispatcher = true
      · exact .inr ⟨hdisp, kind, logData, c₁, rfl, hreg, hrun⟩
      · refine .inl ?_
        simp only [afterHandler, eventTail, if_neg hdisp] at hafter
        obtain ⟨⟨⟩, c₂, hlog, hpure⟩ := bind_ok hafter
        cases hpure
        have hrow := (logEvent_frame
          (logRow L now event name (.fields (extractLogData L.sdk event kind logData))) O c₁).2.1
        rw [mapError_ok hlog] at hrow
        exact hrow.trans hwrites.deliveries

/-- A new delivery is of an event whose handler returned, with the envelope of the tables it
left. -/
theorem handleEvent_new_delivery
    (hd : d ∈ (handleEvent L stats now O s event).2.tables.deliveries.rows)
    (hnew : d ∉ s.tables.deliveries.rows) :
    ∃ name kind logData c, eventName L event = .ok name ∧ eventKind name = some kind
      ∧ runHandler L.sdk stats event (closedAt L now event) name kind O
        ⟨s.tables, s.shared, false, s.tick + 1, s.failed⟩ = (.ok logData, c)
      ∧ (handleEvent L stats now O s event).2.tables.invoices = c.work.invoices
      ∧ d.payload = eventEnvelope L now event name kind logData
        (handleEvent L stats now O s event).2.tables := by
  rcases hok : (handleEvent L stats now O s event).1 with e | ⟨⟩
  · rw [handleEvent_error hok] at hd
    exact absurd hd hnew
  rcases hname : eventName L event with e | name
  · simp [handleEvent, hname] at hok
  have hbody := hok
  rw [handleEvent_eq hname] at hbody
  obtain ⟨c', hrun', -, hout⟩ := withTx_ok hbody
  rw [← handleEvent_eq hname] at hout
  rcases eventBody_delivers hrun' with hsame | ⟨hdisp, kind, logData, c, hkind, hreg, hrun⟩
  · rw [hout] at hd
    simp only [hsame] at hd
    exact absurd hd hnew
  · obtain ⟨hinv, hdel⟩ := handleEvent_delivers hdisp hname hkind hreg hrun hok
    refine ⟨name, kind, logData, c, rfl, hkind, hrun, hinv, ?_⟩
    have hfind := hdel d.key
    rw [Table.find?_of_mem hd] at hfind
    rcases hold : s.tables.deliveries.find? d.key with _ | d'
    · rw [hold, Option.none_or, fanOut] at hfind
      split_ifs at hfind
      rw [Option.some.inj hfind]
      rfl
    · rw [hold, Option.some_or, Option.some.injEq] at hfind
      rw [hfind] at hnew
      exact absurd (Table.mem_of_find? hold) hnew

/-- The payload shows the status its type announces. -/
def WebhookDelivery.TellsTruth (d : WebhookDelivery) : Prop := ∀ data st,
  d.payload.data = .invoice data → d.payload.eventType.announces = some st →
    data.status = st.toString

/-- The payload was built without a row of `invoices`. -/
def WebhookDelivery.Blank (d : WebhookDelivery) : Prop :=
  ∃ data, d.payload.data = .invoice data ∧ data.status = ""

/-- The payload is about an invoice that has a row. -/
def WebhookDelivery.Indexed (d : WebhookDelivery) (w : Tables) : Prop :=
  ∃ data, d.payload.data = .invoice data ∧ data.invoiceID ≠ ""
    ∧ (w.invoices.find? data.invoiceID).isSome

/-- The event is `InStep`, if the switch knows it. -/
def EventInStep (L : EventListener) (event : SorobanEvent) (w : Tables) : Prop := ∀ name kind,
  eventName L event = .ok name → eventKind name = some kind → InStep L.sdk event w kind

theorem InvoiceStatus.toString_inj {a b : InvoiceStatus} (h : a.toString = b.toString) : a = b := by
  have := congrArg InvoiceStatus.ofString? h
  simpa only [InvoiceStatus.ofString?_toString, Option.some.injEq] using this

theorem buildEnvelope_isInvoice {data : GoMap} {invoice : InvoiceEventData}
    (h : (buildEnvelope now name data).data = .invoice invoice) :
    (buildEnvelope now name data).eventType.isInvoice = true := by
  simp only [buildEnvelope] at h ⊢
  split at h <;> rename_i htype <;> first | (rw [htype]; rfl) | cases h

theorem isInvoice_of_announces {eventType : EventType} {st : InvoiceStatus}
    (h : eventType.announces = some st) : eventType.isInvoice = true := by
  cases eventType <;> first | rfl | cases h

theorem eventInStep_iff (hname : eventName L event = .ok name)
    (hkind : eventKind name = some kind) :
    EventInStep L event w ↔ InStep L.sdk event w kind := by
  refine ⟨fun h => h name kind hname hkind, fun h name' kind' hname' hkind' => ?_⟩
  obtain rfl : name = name' := Except.ok.inj (hname.symm.trans hname')
  obtain rfl : kind = kind' := Option.some.inj (hkind.symm.trans hkind')
  exact h

/-- A new delivery was built without a row, or tells the truth exactly when its event is in step. -/
theorem handleEvent_truth (hd : d ∈ (handleEvent L stats now O s event).2.tables.deliveries.rows)
    (hnew : d ∉ s.tables.deliveries.rows) :
    d.Blank ∨ (d.TellsTruth ↔ EventInStep L event s.tables) := by
  obtain ⟨name, kind, logData, c, hname, hkind, hrun, hinv, hpay⟩ :=
    handleEvent_new_delivery hd hnew
  rw [eventInStep_iff hname hkind]
  have htype : d.payload.eventType.announces = kind.announces := by
    rw [hpay]
    exact mapInternalEventType_announces hkind
  rcases hst : kind.announces with _ | st
  · refine .inr (iff_of_true ?_ ?_)
    · intro data st _ hann
      rw [htype, hst] at hann
      cases hann
    · cases kind <;> trivial
  · have hfaith : Faithful L now event name kind (handleEvent L stats now O s event).2.tables
        d.payload := hpay ▸ eventEnvelope_faithful (runHandler_keys hrun)
    obtain ⟨data, hdata, -⟩ := hfaith.invoice (isInvoice_of_announces (htype.trans hst))
    have htells : d.TellsTruth ↔ data.status = st.toString := by
      constructor
      · intro h
        exact h data st hdata (htype.trans hst)
      · intro h data' st' hdata' hst'
        obtain rfl : data = data' := EnvelopeData.invoice.inj (hdata.symm.trans hdata')
        obtain rfl : st = st' := Option.some.inj ((htype.trans hst).symm.trans hst')
        exact h
    rcases eventEnvelope_status (runHandler_keys hrun) (hpay ▸ hdata) with
      hblank | ⟨inv, hrow, hstatus⟩
    · exact .inl ⟨data, hdata, hblank⟩
    · refine .inr ?_
      rw [hinv] at hrow
      rw [htells, hstatus, ← runHandler_announces hrun hst hrow]
      exact ⟨InvoiceStatus.toString_inj, congrArg InvoiceStatus.toString⟩

theorem handleEvent_indexed (hd : d ∈ (handleEvent L stats now O s event).2.tables.deliveries.rows)
    (hnew : d ∉ s.tables.deliveries.rows)
    (hidx : d.Indexed (handleEvent L stats now O s event).2.tables) : ¬ d.Blank := by
  obtain ⟨name, kind, logData, c, -, -, hrun, -, hpay⟩ := handleEvent_new_delivery hd hnew
  obtain ⟨data, hdata, hid, hsome⟩ := hidx
  rintro ⟨data', hdata', hblank⟩
  obtain rfl : data = data' := EnvelopeData.invoice.inj (hdata.symm.trans hdata')
  have hfaith : Faithful L now event name kind (handleEvent L stats now O s event).2.tables
      d.payload := hpay ▸ eventEnvelope_faithful (runHandler_keys hrun)
  have hlife : d.payload.eventType.isInvoice = true := by
    rw [hpay] at hdata ⊢
    exact buildEnvelope_isInvoice hdata
  obtain ⟨data', hdata', hname, hrow⟩ := hfaith.invoice hlife
  obtain rfl : data = data' := EnvelopeData.invoice.inj (hdata.symm.trans hdata')
  obtain ⟨inv, hinv⟩ := Option.isSome_iff_exists.1 hsome
  rw [hname] at hid hinv
  rw [hrow hid inv hinv] at hblank
  cases hinv : inv.status <;> simp [DbInvoice.eventData, hinv, InvoiceStatus.toString] at hblank

end Payload

section Run

variable (L : EventListener)

/-- Each call of a run finds its event in step. -/
def RunInStep (calls : List HandleCall) (s : Db) : Prop := ∀ pre call post,
  calls = pre ++ call :: post → EventInStep L call.event (handleRun L pre s).tables

theorem handleRun_truth : ∀ (calls : List HandleCall) (s : Db),
    (∀ d ∈ s.tables.deliveries.rows, d.Blank ∨ d.TellsTruth) → RunInStep L calls s →
      ∀ d ∈ (handleRun L calls s).tables.deliveries.rows, d.Blank ∨ d.TellsTruth
  | [], s, hs, _, d, hd => hs d hd
  | c :: calls, s, hs, hrun, d, hd => by
    refine handleRun_truth calls _ (fun d hd => ?_) (fun pre call post h => ?_) d hd
    · by_cases hold : d ∈ s.tables.deliveries.rows
      · exact hs d hold
      · rcases handleEvent_truth hd hold with hblank | htells
        · exact .inl hblank
        · exact .inr (htells.2 (hrun [] c calls rfl))
    · exact hrun (c :: pre) call post (by rw [h]; rfl)

end Run

/-- From any database and after any calls, a delivery a further call makes about an invoice that has
a row tells the truth exactly when the call finds its event in step; and in a run all of whose calls
do, every delivery of the state reached tells the truth, but those made without a row. -/
theorem webhooks_tell_truth (L : EventListener) (s : Db) :
    (∀ calls call, ∀ d ∈ (handleRun L (calls ++ [call]) s).tables.deliveries.rows,
        d ∉ (handleRun L calls s).tables.deliveries.rows →
        d.Indexed (handleRun L (calls ++ [call]) s).tables →
        (d.TellsTruth ↔ EventInStep L call.event (handleRun L calls s).tables))
      ∧ ((∀ d ∈ s.tables.deliveries.rows, d.Blank ∨ d.TellsTruth) → ∀ calls, RunInStep L calls s →
        ∀ d ∈ (handleRun L calls s).tables.deliveries.rows, d.Blank ∨ d.TellsTruth) := by
  refine ⟨fun calls call d hd hnew hidx => ?_, fun hs calls => handleRun_truth L calls s hs⟩
  rw [handleRun_append] at hd hidx
  exact (handleEvent_truth hd hnew).resolve_left (handleEvent_indexed hd hnew hidx)

/-- A listener of the recorded events and of the pool's default event. -/
def poolListener : EventListener :=
  { recordedListener 3 with
    sdk := { recordedSdk with
      unmarshalBase64 := fun t =>
        if t = "AAAADwAAABFpbnZvaWNlX2RlZmF1bHRlZAAAAA==" then .ok (.symbol "invoice_defaulted")
        else recordedSdk.unmarshalBase64 t }
    seed_valid := recordedSeed_exists }

/-- A migrated database with one subscription. -/
def announcedDb : Db :=
  { freshDb with shared := { freshDb.shared with
      subscriptions :=
        [⟨"s1", ["invoice.created", "invoice.listed", "invoice.defaulted"], true⟩] } }

/-- A call on a recorded event. -/
def recordedCall (id name value : String) : HandleCall :=
  ⟨recordedEvent id name [] value, 0, .ok (.map none), noFaults⟩

/-- A creation and a listing. -/
def listingCalls : List HandleCall :=
  [recordedCall "e1" "AAAADwAAAAZjcmVhdGUAAA==" recordedCreation,
    recordedCall "e2" "AAAADwAAABJsaXN0X2Zvcl9maW5hbmNpbmcAAA==" "AAAAAwAAAPo="]

/-- After the listing, the creation again, the funding and the pool's default event:
`invoice.created` goes out with the status `Listed` and `invoice.defaulted` with the status
`Funded`. -/
theorem webhooks_show_stale_status :
    let run := handleRun poolListener (listingCalls ++
      [recordedCall "e3" "AAAADwAAAAZjcmVhdGUAAA==" recordedCreation,
        recordedCall "e4" "AAAADwAAAAxmdW5kX2ludm9pY2U=" "AAAACQAAAAAAAAAAAAAAAAAAA4Q=",
        recordedCall "e5" "AAAADwAAABFpbnZvaWNlX2RlZmF1bHRlZAAAAA=="
          "AAAACQAAAAAAAAAAAAAAAAAAA4Q="])
      announcedDb
    run.tables.deliveries.rows.map (fun d => (d.eventID, d.payload.eventType,
        match d.payload.data with
        | .invoice data => data.status
        | _ => "")) =
      [("e1", .invoiceCreated, "Created"), ("e2", .invoiceListed, "Listed"),
        ("e3", .invoiceCreated, "Listed"), ("e5", .invoiceDefaulted, "Funded")] := by
  decide +kernel

theorem listingCalls_inStep : RunInStep poolListener listingCalls announcedDb := by
  intro pre call post h
  rcases pre with _ | ⟨a, _ | ⟨b, pre⟩⟩
  · obtain ⟨rfl, -⟩ := List.cons.inj h
    refine (eventInStep_iff (by decide +kernel : eventName poolListener _ = .ok "create") rfl).2 ?_
    intro r hr
    cases hr
  · obtain ⟨rfl, htail⟩ := List.cons.inj h
    obtain ⟨rfl, -⟩ := List.cons.inj htail
    exact (eventInStep_iff (by decide +kernel : eventName poolListener _ = .ok "list_for_financing")
      rfl).2 trivial
  · have := congrArg List.length h
    simp [listingCalls] at this

theorem webhooks_tell_truth_listing :
    let run := handleRun poolListener listingCalls announcedDb
    run.tables.deliveries.rows.length = 2
      ∧ ∀ d ∈ run.tables.deliveries.rows, d.Blank ∨ d.TellsTruth := by
  have hempty : ∀ d ∈ announcedDb.tables.deliveries.rows, d.Blank ∨ d.TellsTruth := by
    simp [announcedDb, freshDb, Tables.empty, Table.empty]
  exact ⟨by decide +kernel, (webhooks_tell_truth poolListener announcedDb).2 hempty listingCalls
    listingCalls_inStep⟩

end TrusTrove
