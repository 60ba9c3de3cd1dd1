import TrusTrove.Handlers

/-!
# What an event may write

`InvoiceStep` lists the row updates the listener's statements make, `TableWrite` the writes of one
statement on an event's transaction. Every statement of `eventBody` is such a write, whatever fails
before it (`eventBody_writes`), so a property of the tables is kept by every event once each write
keeps it.
-/

namespace TrusTrove

open Sql Relation

/-- One update of a row, under the status it is guarded by. -/
inductive InvoiceStep : DbInvoice → DbInvoice → Prop
  | listed (r : DbInvoice) (d : ℤ) : r.status = .created →
      InvoiceStep r { r with status := .listed, discountBps := d }
  | funded (r : DbInvoice) (amount t : ℤ) : r.status = .listed →
      InvoiceStep r { r with status := .funded, fundedAmount := amount, fundedAt := some t }
  | shipped (r : DbInvoice) (t : ℤ) : r.status = .funded →
      InvoiceStep r { r with status := .active, shippedAt := some t, issuerConfirmed := true }
  | confirmed (r : DbInvoice) (t : ℤ) : r.status = .active →
      InvoiceStep r
        { r with status := .confirmed, buyerConfirmed := true, buyerConfirmedAt := some t }
  | repaid (r : DbInvoice) (t : ℤ) : r.status = .confirmed →
      InvoiceStep r { r with status := .repaid, repaidAt := some t }
  | defaulted (r : DbInvoice) : r.deployed = true →
      InvoiceStep r { r with status := .defaulted }
  | attested (r : DbInvoice) (agent hash : String) (score t : ℤ) :
      InvoiceStep r { r with
        attestationAgentID := some agent, riskScoreBps := some score, evidenceHash := some hash
        attestedAt := some t }

/-- A row as `handleInvoiceCreated` inserts it. -/
structure DbInvoice.Initial (inv : DbInvoice) : Prop where
  status : inv.status = .created
  discountBps : inv.discountBps = 0
  fundedAmount : inv.fundedAmount = 0
  fundedAt : inv.fundedAt = none
  shippedAt : inv.shippedAt = none
  issuerConfirmed : inv.issuerConfirmed = false
  buyerConfirmed : inv.buyerConfirmed = false
  buyerConfirmedAt : inv.buyerConfirmedAt = none
  repaidAt : inv.repaidAt = none

/-- The write of one statement after the handler: on `events_log` or `webhook_deliveries`. -/
inductive TailWrite (eventID : String) : Tables → Tables → Prop
  | log (w : Tables) (row : EventLog) : row.eventID = eventID → row.fits = true →
      TailWrite eventID w { w with eventsLog := w.eventsLog.insertNew row }
  | deliver (w : Tables) (d : WebhookDelivery) :
      TailWrite eventID w { w with deliveries := w.deliveries.insertNew d }

/-- The write of one statement on the event's transaction. -/
inductive TableWrite (eventID : String) : Tables → Tables → Prop
  | tail {w w' : Tables} : TailWrite eventID w w' → TableWrite eventID w w'
  | create (w : Tables) (inv : DbInvoice) : inv.fits = true → inv.Initial →
      TableWrite eventID w { w with invoices := w.invoices.insertNew inv }
  | move (w : Tables) (t : Table DbInvoice DbInvoice.id) (id : String) (r r' : DbInvoice) :
      w.invoices.find? id = some r → InvoiceStep r r' → r'.fits = true →
      (∀ k, t.find? k = if k = id then some r' else w.invoices.find? k) →
      TableWrite eventID w { w with invoices := t }

/-- The pool's tables, the snapshots apart, are as they were. -/
def SnapshotOnly (p p' : Shared) : Prop :=
  p'.subscriptions = p.subscriptions ∧ p'.checkpoint = p.checkpoint

instance : Std.Refl SnapshotOnly := ⟨fun _ => ⟨rfl, rfl⟩⟩

instance : IsTrans Shared SnapshotOnly :=
  ⟨fun _ _ _ h h' => ⟨h'.1.trans h.1, h'.2.trans h.2⟩⟩

/-- Any number of writes. -/
abbrev TableWrites (eventID : String) : Tables → Tables → Prop := ReflTransGen (TableWrite eventID)

/-- Any number of writes after the handler. -/
abbrev TailWrites (eventID : String) : Tables → Tables → Prop := ReflTransGen (TailWrite eventID)

/-- Any number of writes that make no delivery. -/
abbrev HandlerWrites (eventID : String) : Tables → Tables → Prop :=
  ReflTransGen fun w w' => TableWrite eventID w w' ∧ w'.deliveries = w.deliveries

theorem HandlerWrites.writes (ev : String) : HandlerWrites ev ≤ TableWrites ev :=
  ReflTransGen.mono fun _ _ h => h.1

theorem HandlerWrites.deliveries {ev : String} {w w' : Tables} (h : HandlerWrites ev w w') :
    w'.deliveries = w.deliveries := by
  induction h with
  | refl => rfl
  | tail _ hw ih => exact hw.2.trans ih

theorem TailWrites.writes (ev : String) : TailWrites ev ≤ TableWrites ev :=
  ReflTransGen.mono fun _ _ => TableWrite.tail

theorem TailWrites.invoices {ev : String} {w w' : Tables} (h : TailWrites ev w w') :
    w'.invoices = w.invoices := by
  induction h with
  | refl => rfl
  | tail _ hw ih => cases hw <;> exact ih

theorem logged_insertNew {w : Tables} {row : EventLog} {id : String} :
    ({ w with eventsLog := w.eventsLog.insertNew row } : Tables).logged id =
      (row.eventID = id ∨ w.logged id) := by
  simp only [Tables.logged, Table.find?_insertNew]
  split_ifs with h <;> simp [h]

/-- A logged event stays logged, and no other than the event itself is added. -/
theorem TableWrites.logged {ev : String} {w w' : Tables} (h : TableWrites ev w w') (id : String) :
    (w.logged id = true → w'.logged id = true)
      ∧ (w'.logged id = true → id = ev ∨ w.logged id = true) := by
  induction h with
  | refl => exact ⟨fun h => h, .inr⟩
  | tail _ hw ih =>
    cases hw with
    | tail hw =>
      cases hw with
      | log row hrow _ =>
        rw [logged_insertNew]
        refine ⟨fun h => .inr (ih.1 h), ?_⟩
        rintro (h | h)
        · exact .inl (h.symm.trans hrow)
        · exact ih.2 h
      | deliver d => exact ih
    | create inv _ _ => exact ih
    | move t id r r' _ _ _ _ => exact ih

section Update

variable {Q : Shared → Shared → Prop} [Std.Refl Q] [IsTrans Shared Q]

variable {ev id : String} {guard : DbInvoice → Bool} {set : DbInvoice → Option DbInvoice}
  {hset : ∀ r, ((set r).getD r).id = r.id}

/-- An `UPDATE` affects no row, or the one with the id, under the guard. -/
theorem execUpdate_ok {w w' : Tables} {n : ℕ}
    (h : execUpdate id guard set hset w = .ok (n, w')) :
    (n = 0 ∧ w' = w ∧ ∀ r, w.invoices.find? id = some r → guard r = false)
      ∨ n = 1 ∧ ∃ r r', w.invoices.find? id = some r ∧ guard r = true ∧ set r = some r'
        ∧ r'.fits = true ∧ ∃ t : Table DbInvoice DbInvoice.id, w' = { w with invoices := t }
        ∧ ∀ k, t.find? k = if k = id then some r' else w.invoices.find? k := by
  unfold execUpdate at h
  split at h
  · rename_i hn
    cases h
    exact .inl ⟨rfl, rfl, fun r hr => by rw [hn] at hr; cases hr⟩
  · rename_i r hr
    split_ifs at h with hg hfit
    · cases h
      obtain ⟨r', hr', hfits⟩ : ∃ r', set r = some r' ∧ r'.fits = true := by
        simpa [Option.any_eq_true] using hfit
      refine .inr ⟨rfl, r, r', hr, hg, hr', hfits, _, rfl, fun k => ?_⟩
      rw [Table.find?_update]
      split_ifs
      · simp [hr, hg, hr']
      · rfl
    · cases h
      refine .inl ⟨rfl, rfl, fun r₁ hr₁ => ?_⟩
      rw [hr, Option.some.injEq] at hr₁
      subst hr₁
      simpa using hg

theorem execUpdate_write (hstep : ∀ r r', guard r = true → set r = some r' → InvoiceStep r r')
    {w w' : Tables} {n : ℕ} (h : execUpdate id guard set hset w = .ok (n, w')) :
    HandlerWrites ev w w' := by
  rcases execUpdate_ok h with ⟨-, rfl, -⟩ | ⟨-, r, r', hr, hg, hr', hfits, t, rfl, ht⟩
  · exact .refl
  · exact .single ⟨.move w t id r r' hr (hstep r r' hg hr') hfits ht, rfl⟩

/-- Whatever relation the `UPDATE` respects, `updateInvoice` does. -/
theorem updateInvoice_respects {operation target : String} {R : Tables → Tables → Prop}
    [Std.Refl R] [IsTrans Tables R]
    (hexec : ∀ w n w', execUpdate id guard set hset w = .ok (n, w') → R w w') :
    Respects R Q (updateInvoice id operation target guard set hset) := by
  unfold updateInvoice
  refine .bind (.mapError _ (.onTx _ hexec)) fun rows => ?_
  split_ifs
  · exact .pure _
  · refine .bind (.mapError _ (.onTx _ fun w a w' h => ?_)) fun current => ?_
    · cases h
      exact refl_of R w
    · cases current <;> exact .fail _

theorem updateInvoice_writes {operation target : String}
    (hstep : ∀ r r', guard r = true → set r = some r' → InvoiceStep r r') :
    Respects (HandlerWrites ev) Q (updateInvoice id operation target guard set hset) :=
  updateInvoice_respects fun _ _ _ h => execUpdate_write hstep h

theorem updateInvoice_run {operation target : String} {O : ℕ → Bool} {c : Conn Tables Shared}
    {r r' : DbInvoice} (hO : O c.tick = false) (hc : c.aborted = false)
    (hr : c.work.invoices.find? id = some r) (hg : guard r = true) (hr' : set r = some r')
    (hfits : r'.fits = true) :
    updateInvoice id operation target guard set hset O c = (.ok (), { c with
      work := { c.work with
        invoices := c.work.invoices.update id guard (fun r => (set r).getD r) hset }
      tick := c.tick + 1 }) := by
  have hexec : execUpdate id guard set hset c.work = .ok (1, { c.work with
      invoices := c.work.invoices.update id guard (fun r => (set r).getD r) hset }) := by
    simp [execUpdate, hr, hg, hr', hfits]
  unfold updateInvoice
  refine (bind_run_ok _ (a := 1) ?_).trans rfl
  rw [mapError_run, onTx_run driverError hO hc hexec]
  rfl

/-- An update that returns has found its row, was admitted and has written it. -/
theorem updateInvoice_ok {operation target : String} {O : ℕ → Bool} {c c' : Conn Tables Shared}
    (h : updateInvoice id operation target guard set hset O c = (.ok (), c')) :
    ∃ r r', c.work.invoices.find? id = some r ∧ guard r = true ∧ set r = some r' ∧ r'.fits = true
      ∧ c'.work.invoices.find? id = some r' := by
  unfold updateInvoice at h
  obtain ⟨rows, c₁, hexec, hrest⟩ := bind_ok h
  obtain ⟨w, hw, rfl⟩ := onTx_ok (mapError_ok hexec)
  rcases execUpdate_ok hw with ⟨rfl, -⟩ | ⟨rfl, r, r', hr, hg, hr', hfits, t, rfl, ht⟩
  · rw [if_neg (lt_irrefl 0)] at hrest
    obtain ⟨current, c₂, -, hfail⟩ := bind_ok hrest
    rcases current with _ | status <;> cases hfail
  · cases hrest
    exact ⟨r, r', hr, hg, hr', hfits, by simp [ht]⟩

end Update

section Handlers

variable {Q : Shared → Shared → Prop} [Std.Refl Q] [IsTrans Shared Q]

variable {ev : String} (sdk : Sdk) (stats : Except GoError ScVal) (event : SorobanEvent) (t : ℤ)

omit [IsTrans Shared Q] in
theorem refuseParameter_writes {α : Type} (ctx : String) :
    Respects (HandlerWrites ev) Q (refuseParameter ctx : DbProg α) :=
  .mapError _ (.onTx _ fun w a w' h => by cases h)

theorem updateInvoiceListed_writes (id : String) (d : ℤ) :
    Respects (HandlerWrites ev) Q (updateInvoiceListed id .listed d) := by
  unfold updateInvoiceListed
  split_ifs
  · refine updateInvoice_writes fun r r' hg hr => ?_
    cases hr
    exact .listed r d (by simpa using hg)
  · exact refuseParameter_writes _

theorem updateInvoiceFunded_eq {id amount : String} {n t : ℤ} (h : numeric amount = some n) :
    updateInvoiceFunded id .funded amount t =
      updateInvoice id "update invoice funded" "Funded" (·.status = .listed)
        (fun r => some { r with status := .funded, fundedAmount := n, fundedAt := some t })
        fun _ => rfl := by
  unfold updateInvoiceFunded
  rw [h]

theorem updateInvoiceFunded_writes (id amount : String) :
    Respects (HandlerWrites ev) Q (updateInvoiceFunded id .funded amount t) := by
  unfold updateInvoiceFunded
  split
  · exact refuseParameter_writes _
  · rename_i a _
    refine updateInvoice_writes fun r r' hg hr => ?_
    cases hr
    exact .funded r a t (by simpa using hg)

theorem updateInvoiceShipped_writes (id : String) :
    Respects (HandlerWrites ev) Q (updateInvoiceShipped id .active t) := by
  refine updateInvoice_writes fun r r' hg hr => ?_
  cases hr
  exact .shipped r t (by simpa using hg)

theorem updateInvoiceDeliveryConfirmed_writes (id : String) :
    Respects (HandlerWrites ev) Q (updateInvoiceDeliveryConfirmed id .confirmed t) := by
  refine updateInvoice_writes fun r r' hg hr => ?_
  cases hr
  exact .confirmed r t (by simpa using hg)

theorem updateInvoiceRepaid_writes (id : String) :
    Respects (HandlerWrites ev) Q (updateInvoiceRepaid id .repaid t) := by
  refine updateInvoice_writes fun r r' hg hr => ?_
  cases hr
  exact .repaid r t (by simpa using hg)

theorem updateInvoiceDefaulted_writes (id : String) :
    Respects (HandlerWrites ev) Q (updateInvoiceStatus id "Defaulted") := by
  refine updateInvoice_writes fun r r' hg hr => ?_
  cases hr
  exact .defaulted r hg

theorem updateInvoiceAttestation_writes (id agent hash : String) (score : ℤ) :
    Respects (HandlerWrites ev) Q (updateInvoiceAttestation id agent hash score t) := by
  unfold updateInvoiceAttestation
  split_ifs
  · refine .bind (.mapError _ (.onTx _ fun w n w' h => ?_)) fun rows => ?_
    · refine execUpdate_write (fun r r' _ hr => ?_) h
      cases hr
      exact .attested r agent hash score t
    · split_ifs
      · exact .fail _
      · exact .pure _
  · exact refuseParameter_writes _

omit [IsTrans Shared Q] in
theorem insertInvoice_writes {inv : DbInvoice} (hinv : inv.Initial) :
    Respects (HandlerWrites ev) Q (insertInvoice inv) := by
  refine .mapError _ (.onTx _ fun w a w' h => ?_)
  split_ifs at h with hfits
  cases h
  exact .single ⟨.create w inv hfits hinv, rfl⟩

omit [IsTrans Shared Q] in
theorem logEvent_respects {row : EventLog} {R : Tables → Tables → Prop} [Std.Refl R]
    (hR : ∀ w, row.fits = true → R w { w with eventsLog := w.eventsLog.insertNew row }) :
    Respects R Q (logEvent row) := by
  refine .mapError _ (.onTx _ fun w a w' h => ?_)
  split_ifs at h with hfits
  cases h
  exact hR w hfits

omit [IsTrans Shared Q] in
theorem logEvent_writes {row : EventLog} (hrow : row.eventID = ev) :
    Respects (TailWrites ev) Q (logEvent row) :=
  logEvent_respects fun w hfits => .single (.log w row hrow hfits)

omit [IsTrans Shared Q] in
theorem logEvent_handlerWrites {row : EventLog} (hrow : row.eventID = ev) :
    Respects (HandlerWrites ev) Q (logEvent row) :=
  logEvent_respects fun w hfits => .single ⟨.tail (.log w row hrow hfits), rfl⟩

theorem syncPoolStats_writes {R : Tables → Tables → Prop} [Std.Refl R] [IsTrans Tables R] :
    Respects R SnapshotOnly (syncPoolStats stats) := by
  refine .bind (.attempt (.bind (.ofExcept _) fun v => .mapError _ ?_)) fun _ => .pure _
  refine .bind (.mapError _ (.onPool _ fun p a p' h => ?_)) fun _ =>
    .mapError _ (.onPool _ fun p a p' h => ?_)
  · split_ifs at h
    cases h
    exact ⟨rfl, rfl⟩
  · cases h
    exact ⟨rfl, rfl⟩

theorem handleInvoiceCreated_writes :
    Respects (HandlerWrites ev) Q (handleInvoiceCreated sdk event t) := by
  unfold handleInvoiceCreated
  refine .bind (.ofExcept _) fun val => ?_
  simp only []
  split_ifs
  · exact .fail _
  · split
    · exact refuseParameter_writes _
    · exact .bind (insertInvoice_writes ⟨rfl, rfl, rfl, rfl, rfl, rfl, rfl, rfl, rfl⟩)
        fun _ => .pure _

theorem handleRegistrationEvent_writes (name : String) :
    Respects (HandlerWrites event.id) Q (handleRegistrationEvent sdk event t name) := by
  unfold handleRegistrationEvent
  refine .bind (.ofExcept _) fun val => ?_
  simp only []
  split_ifs
  · exact .fail _
  · exact logEvent_handlerWrites rfl

/-- The cases whose handler refreshes the pool statistics. -/
def EventKind.syncsPool : EventKind → Bool
  | .funded | .repaid | .defaulted => true
  | _ => false

/-- Whatever relation a refresh of the pool statistics respects, the handlers do. -/
theorem runHandler_respects (name : String) (kind : EventKind)
    (hsync : kind.syncsPool = true → Respects (HandlerWrites event.id) Q (syncPoolStats stats)) :
    Respects (HandlerWrites event.id) Q (runHandler sdk stats event t name kind) := by
  cases kind <;> simp only [runHandler]
  case created => exact .bind (handleInvoiceCreated_writes sdk event t) fun _ => .pure _
  case listed =>
    refine .bind (.bind (.ofExcept _) fun id => .bind (.ofExcept _) fun val => ?_) fun _ => .pure _
    exact updateInvoiceListed_writes id _
  case funded =>
    refine .bind (.bind (.ofExcept _) fun id => .bind (.ofExcept _) fun val => ?_) fun _ => .pure _
    exact .bind (updateInvoiceFunded_writes t id _) fun _ => hsync rfl
  case shipped =>
    exact .bind (.bind (.ofExcept _) (updateInvoiceShipped_writes t)) fun _ => .pure _
  case deliveryConfirmed =>
    exact .bind (.bind (.ofExcept _) (updateInvoiceDeliveryConfirmed_writes t)) fun _ => .pure _
  case repaid =>
    refine .bind (.bind (.ofExcept _) fun id => ?_) fun _ => .pure _
    exact .bind (updateInvoiceRepaid_writes t id) fun _ => hsync rfl
  case defaulted =>
    refine .bind (.bind (.ofExcept _) fun id => ?_) fun _ => .pure _
    exact .bind (updateInvoiceDefaulted_writes id) fun _ => hsync rfl
  case attestation =>
    exact .bind (.bind (.ofExcept _) fun id => updateInvoiceAttestation_writes t id _ _ _)
      fun _ => .pure _
  case registration =>
    exact .bind (handleRegistrationEvent_writes sdk event t name) fun _ => .pure _
  all_goals exact .ofExcept _

theorem runHandler_writes (name : String) (kind : EventKind) :
    Respects (HandlerWrites event.id) SnapshotOnly (runHandler sdk stats event t name kind) :=
  runHandler_respects sdk stats event t name kind fun _ => syncPoolStats_writes stats

end Handlers

section Event

variable {Q : Shared → Shared → Prop} [Std.Refl Q] [IsTrans Shared Q]

variable {ev : String} (L : EventListener) (stats : Except GoError ScVal) (now : ℕ)
  (event : SorobanEvent)

theorem createDeliveries_writes (envelope : WebhookEnvelope) (t : ℤ) :
    ∀ subs : List WebhookSubscription, Respects (TailWrites ev) Q (createDeliveries envelope t subs)
  | [] => .pure _
  | sub :: subs => by
    refine .bind (.mapError _ (.mapError _ (.onTx _ fun w a w' h => ?_))) fun _ =>
      createDeliveries_writes envelope t subs
    cases h
    exact .single (.deliver w _)

theorem enqueueDeliveries_writes (name : String) (data : GoMap) :
    Respects (TailWrites ev) Q (enqueueDeliveries now name data) := by
  unfold enqueueDeliveries
  simp only []
  split_ifs
  · refine .bind (.mapError _ (.mapError _ (.onPool _ fun p a p' h => ?_))) fun subs => ?_
    · cases h
      exact refl_of Q p
    split_ifs
    · exact .pure _
    · exact .bind (.ofExcept _) fun envelope => createDeliveries_writes _ _ subs
  · exact .fail _

omit [IsTrans Shared Q] in
theorem getInvoiceByID_writes {R : Tables → Tables → Prop} [Std.Refl R] (id : String) :
    Respects R Q (getInvoiceByID id) := by
  refine .mapError _ (.onTx _ fun w a w' h => ?_)
  cases h
  exact refl_of R w

theorem webhookDispatchData_writes {R : Tables → Tables → Prop} [Std.Refl R] [IsTrans Tables R]
    (t : ℤ) (logData : StringMap String) : Respects R Q (webhookDispatchData event t logData) := by
  unfold webhookDispatchData
  simp only []
  split_ifs
  · exact .pure _
  · refine .bind (.attempt (getInvoiceByID_writes _)) fun r => ?_
    split <;> exact .pure _

theorem eventTail_writes (name : String) (kind : EventKind) (logData : StringMap String) :
    Respects (TailWrites event.id) Q (eventTail L now event name kind logData) := by
  unfold eventTail
  refine .bind (.mapError _ (logEvent_writes rfl)) fun _ => ?_
  split_ifs
  · exact .bind (webhookDispatchData_writes event _ _) fun data =>
      .mapError _ (enqueueDeliveries_writes now name data)
  · exact .pure _

theorem afterHandler_writes (name : String) (kind : EventKind) :
    ∀ r : Except GoError (StringMap String),
      Respects (TailWrites event.id) Q (afterHandler L now event name kind r)
  | .error e => by
    simp only [afterHandler]
    split_ifs
    · exact logEvent_writes rfl
    · exact .fail _
  | .ok logData => eventTail_writes L now event name kind logData

/-- Whatever relation the handlers respect, the transaction does. -/
theorem eventBody_respects (name : String)
    (hhandler : ∀ kind, eventKind name = some kind →
      Respects (HandlerWrites event.id) Q
        (runHandler L.sdk stats event (closedAt L now event) name kind)) :
    Respects (TableWrites event.id) Q (eventBody L stats now event name) := by
  unfold eventBody
  split
  · exact .pure _
  · exact .mono (HandlerWrites.writes _) (handleRegistrationEvent_writes _ _ _ _)
  · rename_i kind _ hkind
    exact .bind (.attempt (.mono (HandlerWrites.writes _) (hhandler kind hkind))) fun r =>
      .mono (TailWrites.writes _) (afterHandler_writes L now event name _ r)

theorem eventBody_writes (name : String) :
    Respects (TableWrites event.id) SnapshotOnly (eventBody L stats now event name) :=
  eventBody_respects L stats now event name fun _ _ => runHandler_writes _ _ _ _ _ _

/-- Handling an event, successfully or not, makes a number of the writes. -/
theorem handleEvent_writes (O : ℕ → Bool) (s : Db) :
    TableWrites event.id s.tables (handleEvent L stats now O s event).2.tables
      ∧ SnapshotOnly s.shared (handleEvent L stats now O s event).2.shared := by
  unfold handleEvent
  split
  · exact ⟨.refl, rfl, rfl⟩
  · split
    · exact ⟨.refl, rfl, rfl⟩
    · exact (eventBody_writes L stats now event _).withTx _ _ O s

end Event

end TrusTrove
