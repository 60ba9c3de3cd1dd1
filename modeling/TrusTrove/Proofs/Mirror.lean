import TrusTrove.Proofs.Event

/-!
# Committed events do not show the faults

An event that `handleEvent` returns from leaves what it leaves when no statement fails, at any other
clock reading and under any other answer of the pool contract (`handleEvent_mirrored`): a statement
that fails on the transaction prevents its commit, what fails on the pool is the snapshot, and of
the clock a row shows only when a delivery is due.
-/

namespace TrusTrove

open Sql

section Contents

/-- A delivery, the time it is due apart. -/
def WebhookDelivery.undated (d : WebhookDelivery) : WebhookDelivery := { d with nextAttemptAt := 0 }

/-- What the tables hold, the times deliveries are due apart. -/
def Tables.contents (w : Tables) :
    Table DbInvoice DbInvoice.id × Table EventLog EventLog.eventID × List WebhookDelivery :=
  (w.invoices, w.eventsLog, w.deliveries.rows.map WebhookDelivery.undated)

theorem contents_eq {w w' : Tables} (h : w'.contents = w.contents) :
    w' = { w with deliveries := w'.deliveries }
      ∧ w'.deliveries.rows.map WebhookDelivery.undated =
        w.deliveries.rows.map WebhookDelivery.undated := by
  simp only [Tables.contents, Prod.mk.injEq] at h
  obtain ⟨hinv, hlog, hdel⟩ := h
  refine ⟨?_, hdel⟩
  rw [← hinv, ← hlog]

/-- The same delivery, due at another time, changes the contents alike. -/
theorem contents_deliver {w w' : Tables} (h : w'.contents = w.contents) {d d' : WebhookDelivery}
    (hd : d'.undated = d.undated) :
    ({ w' with deliveries := w'.deliveries.insertNew d' } : Tables).contents =
      ({ w with deliveries := w.deliveries.insertNew d } : Tables).contents := by
  obtain ⟨hw, hdel⟩ := contents_eq h
  have hcomp : WebhookDelivery.key ∘ WebhookDelivery.undated = WebhookDelivery.key := rfl
  have hkey : d'.undated.key = d.undated.key := congrArg WebhookDelivery.key hd
  change d'.key = d.key at hkey
  have hkeys : w'.deliveries.rows.map WebhookDelivery.key =
      w.deliveries.rows.map WebhookDelivery.key := by
    have := congrArg (List.map WebhookDelivery.key) hdel
    simpa only [List.map_map, hcomp] using this
  rw [hw]
  simp only [Tables.contents, Prod.mk.injEq, true_and, Table.insertNew, hkey, hkeys]
  split_ifs
  · exact hdel
  · simp only [List.map_append, List.map_cons, List.map_nil, hd, hdel]

/-- A statement that neither reads nor writes the deliveries. -/
def Oblivious {α : Type} (f : Tables → Except GoError (α × Tables)) : Prop := ∀ w d,
  f { w with deliveries := d } = (f w).map fun r => (r.1, { r.2 with deliveries := d })

variable {α ν : Type} {v : Shared → ν}

theorem Oblivious.mirrors {f : Tables → Except GoError (α × Tables)} (hf : Oblivious f)
    (e : GoError) : Mirrors Tables.contents v (Prog.onTx e f) (Prog.onTx e f) := by
  refine .onTx e fun w w' hw a x hx => ?_
  obtain ⟨hw', hdel⟩ := contents_eq hw
  have hsame := hf w w.deliveries
  have hother := hf w w'.deliveries
  rw [hx] at hsame hother
  rw [← hw'] at hother
  have hxd : x = { x with deliveries := w.deliveries } := by
    simpa [hx, Except.map] using hsame
  refine ⟨_, hother, ?_⟩
  rw [hxd]
  simp only [Tables.contents, hdel]

theorem execUpdate_oblivious (id : String) (guard : DbInvoice → Bool)
    (set : DbInvoice → Option DbInvoice) (hset : ∀ r, ((set r).getD r).id = r.id) :
    Oblivious (execUpdate id guard set hset) := by
  intro w d
  unfold execUpdate
  simp only []
  split
  · rfl
  · split_ifs <;> rfl

theorem select_oblivious (f : Table DbInvoice DbInvoice.id → α) :
    Oblivious fun w => .ok (f w.invoices, w) := fun _ _ => rfl

theorem insertInvoice_mirrors (inv : DbInvoice) :
    Mirrors Tables.contents v (insertInvoice inv) (insertInvoice inv) := by
  refine .mapError _ (Oblivious.mirrors (fun w d => ?_) _)
  split_ifs <;> rfl

theorem logEvent_mirrors (row : EventLog) :
    Mirrors Tables.contents v (logEvent row) (logEvent row) := by
  refine .mapError _ (Oblivious.mirrors (fun w d => ?_) _)
  split_ifs <;> rfl

theorem refuseParameter_mirrors (ctx : String) :
    Mirrors Tables.contents v (refuseParameter ctx : DbProg α) (refuseParameter ctx) :=
  .mapError _ (Oblivious.mirrors (fun _ _ => rfl) _)

theorem getInvoiceByID_mirrors (id : String) :
    Mirrors Tables.contents v (getInvoiceByID id) (getInvoiceByID id) :=
  .mapError _ (Oblivious.mirrors (select_oblivious fun t => t.find? id) _)

theorem updateInvoice_mirrors (id operation target : String) (guard : DbInvoice → Bool)
    (set : DbInvoice → Option DbInvoice) (hset : ∀ r, ((set r).getD r).id = r.id) :
    Mirrors Tables.contents v (updateInvoice id operation target guard set hset)
      (updateInvoice id operation target guard set hset) := by
  unfold updateInvoice
  refine .bind (.mapError _ ((execUpdate_oblivious id guard set hset).mirrors _)) fun rows => ?_
  split_ifs
  · exact .pure _
  · refine .bind (.mapError _ ((select_oblivious fun t => (t.find? id).map (·.status)).mirrors _))
      fun current => ?_
    cases current <;> exact .fail _

theorem createWebhookDelivery_mirrors {d d' : WebhookDelivery} (hd : d'.undated = d.undated) :
    Mirrors Tables.contents v (createWebhookDelivery d) (createWebhookDelivery d') := by
  refine .mapError _ (.onTx _ fun w w' hw a x hx => ?_)
  cases hx
  exact ⟨_, rfl, contents_deliver hw hd⟩

end Contents

section Handlers

variable (sdk : Sdk) (stats stats' : Except GoError ScVal) (event : SorobanEvent) (t : ℤ)
  (name : String)

theorem updateInvoiceListed_mirrors (id : String) (discountBps : ℤ) :
    Mirrors Tables.contents Shared.subscriptions (updateInvoiceListed id .listed discountBps)
      (updateInvoiceListed id .listed discountBps) := by
  unfold updateInvoiceListed
  split_ifs
  · exact updateInvoice_mirrors _ _ _ _ _ _
  · exact refuseParameter_mirrors _

theorem updateInvoiceFunded_mirrors (id amount : String) :
    Mirrors Tables.contents Shared.subscriptions (updateInvoiceFunded id .funded amount t)
      (updateInvoiceFunded id .funded amount t) := by
  unfold updateInvoiceFunded
  split
  · exact refuseParameter_mirrors _
  · exact updateInvoice_mirrors _ _ _ _ _ _

theorem updateInvoiceAttestation_mirrors (id agent hash : String) (score : ℤ) :
    Mirrors Tables.contents Shared.subscriptions (updateInvoiceAttestation id agent hash score t)
      (updateInvoiceAttestation id agent hash score t) := by
  unfold updateInvoiceAttestation
  split_ifs
  · refine .bind (.mapError _ ((execUpdate_oblivious _ _ _ _).mirrors _)) fun rows => ?_
    split_ifs
    · exact .fail _
    · exact .pure _
  · exact refuseParameter_mirrors _

theorem syncPoolStatsFromChain_poolOnly :
    PoolOnly Shared.subscriptions (syncPoolStatsFromChain stats) := by
  refine .bind (.ofExcept _) fun v => .mapError _ (.bind (.mapError _ (.onPool _ ?_)) fun _ =>
    .mapError _ (.onPool _ ?_))
  · intro p a p' h
    split_ifs at h
    cases h
    rfl
  · intro p a p' h
    cases h
    rfl

/-- The pool snapshot is written through the pool, and its errors are dropped. -/
theorem syncPoolStats_mirrors :
    Mirrors Tables.contents Shared.subscriptions (syncPoolStats stats) (syncPoolStats stats') :=
  .dropped (syncPoolStatsFromChain_poolOnly stats) (syncPoolStatsFromChain_poolOnly stats')

theorem handleInvoiceCreated_mirrors :
    Mirrors Tables.contents Shared.subscriptions (handleInvoiceCreated sdk event t)
      (handleInvoiceCreated sdk event t) := by
  unfold handleInvoiceCreated
  refine .bind (.ofExcept _) fun val => ?_
  simp only []
  split_ifs
  · exact .fail _
  · split
    · exact refuseParameter_mirrors _
    · exact .bind (insertInvoice_mirrors _) fun _ => .pure _

theorem handleRegistrationEvent_mirrors :
    Mirrors Tables.contents Shared.subscriptions (handleRegistrationEvent sdk event t name)
      (handleRegistrationEvent sdk event t name) := by
  unfold handleRegistrationEvent
  refine .bind (.ofExcept _) fun val => ?_
  simp only []
  split_ifs
  · exact .fail _
  · exact logEvent_mirrors _

/-- A handler that did not abort its transaction did what it does without faults. -/
theorem runHandler_mirrors (kind : EventKind) :
    Mirrors Tables.contents Shared.subscriptions (runHandler sdk stats event t name kind)
      (runHandler sdk stats' event t name kind) := by
  have hsync := fun _ : Unit => syncPoolStats_mirrors stats stats'
  have hupdate := fun id => @updateInvoice_mirrors _ Shared.subscriptions id
  cases kind <;> simp only [runHandler]
  case created => exact .bind (handleInvoiceCreated_mirrors sdk event t) fun _ => .pure _
  case listed =>
    exact .bind (.bind (.ofExcept _) fun id => .bind (.ofExcept _) fun val =>
      updateInvoiceListed_mirrors id _) fun _ => .pure _
  case funded =>
    refine .bind (.bind (.ofExcept _) fun id => .bind (.ofExcept _) fun val => ?_) fun _ => .pure _
    exact .bind (updateInvoiceFunded_mirrors t id _) hsync
  case shipped => exact .bind (.bind (.ofExcept _) fun id => hupdate id _ _ _ _ _) fun _ => .pure _
  case deliveryConfirmed =>
    exact .bind (.bind (.ofExcept _) fun id => hupdate id _ _ _ _ _) fun _ => .pure _
  case repaid =>
    exact .bind (.bind (.ofExcept _) fun id => .bind (hupdate id _ _ _ _ _) hsync) fun _ => .pure _
  case defaulted =>
    exact .bind (.bind (.ofExcept _) fun id => .bind (hupdate id _ _ _ _ _) hsync) fun _ => .pure _
  case attestation =>
    exact .bind (.bind (.ofExcept _) fun id => updateInvoiceAttestation_mirrors t id _ _ _)
      fun _ => .pure _
  case registration =>
    exact .bind (handleRegistrationEvent_mirrors sdk event t name) fun _ => .pure _
  all_goals exact .ofExcept _

theorem webhookDispatchData_mirrors (logData : StringMap String) :
    Mirrors Tables.contents Shared.subscriptions (webhookDispatchData event t logData)
      (webhookDispatchData event t logData) := by
  unfold webhookDispatchData
  simp only []
  split_ifs
  · exact .pure _
  · refine .bind (.attempt (getInvoiceByID_mirrors _)) fun r => ?_
    split <;> exact .pure _

end Handlers

section Clock

theorem StringMap.get?_set {α : Type} (m : StringMap α) (k k' : String) (a : α) :
    (m.set k a).get? k' = if k' = k then some a else m.get? k' := by
  have hfilter : k' ≠ k → List.lookup k' (m.filter (·.1 ≠ k)) = List.lookup k' m := by
    intro hk
    induction m with
    | nil => rfl
    | cons kv m ih =>
      rw [List.filter_cons]
      split_ifs with hx
      · rw [List.lookup, List.lookup, ih]
      · have hne : (k' == kv.1) = false := by
          have hkv : kv.1 = k := by simpa using hx
          simp [hkv, hk]
        rw [List.lookup, hne]
        exact ih
  unfold StringMap.set StringMap.get?
  split_ifs with h
  · simp [List.lookup, h]
  · have hne : (k' == k) = false := by simp [h]
    rw [List.lookup, hne]
    exact hfilter h

/-- Data that carries the event's id and the close time of its ledger. -/
def Stamped (event : SorobanEvent) (t : ℤ) (data : GoMap) : Prop :=
  StringMap.get? data "event_id" = some (.str event.id)
    ∧ StringMap.get? data "ledger_closed_at" = some (.int64 t)

theorem dispatchBase_stamped (event : SorobanEvent) (t : ℤ) (logData : StringMap String) :
    Stamped event t (dispatchBase event t logData) := by
  simp [Stamped, dispatchBase, StringMap.get?_set]

theorem addInvoiceFields_stamped {event : SorobanEvent} {t : ℤ} {data : GoMap}
    (h : Stamped event t data) (inv : DbInvoice) : Stamped event t (addInvoiceFields data inv) := by
  simpa [Stamped, addInvoiceFields, StringMap.get?_set] using h

theorem webhookDispatchData_stamped (event : SorobanEvent) (t : ℤ) (logData : StringMap String)
    (O : ℕ → Bool) (c : Conn Tables Shared) (data : GoMap)
    (h : (webhookDispatchData event t logData O c).1 = .ok data) : Stamped event t data := by
  have hbase := dispatchBase_stamped event t logData
  unfold webhookDispatchData at h
  by_cases hid : getString (dispatchBase event t logData) "invoice_id" = ""
  · rw [if_pos hid] at h
    cases h
    exact hbase
  · rw [if_neg hid] at h
    obtain ⟨r, c₁, -, h₁⟩ := bind_ok (Prod.ext h rfl)
    have h₂ := congrArg Prod.fst h₁
    rcases r with e | _ | inv
    · cases h₂
      exact hbase
    · cases h₂
      exact hbase
    · cases h₂
      exact addInvoiceFields_stamped hbase inv

/-- Nothing of the event is taken from the clock. -/
def Timeless (L : EventListener) (event : SorobanEvent) : Prop :=
  event.id ≠ "" ∧ event.ledgerClosedAt ≠ "" ∧ (L.sdk.parseRFC3339 event.ledgerClosedAt).isSome

variable {L : EventListener} {event : SorobanEvent} {now now' : ℕ}

theorem closedAt_congr (h : now' = now ∨ Timeless L event) :
    closedAt L now' event = closedAt L now event := by
  rcases h with rfl | ⟨-, hne, hsome⟩
  · rfl
  · obtain ⟨t, ht⟩ := Option.isSome_iff_exists.1 hsome
    simp only [closedAt, hne, if_false, ht, Option.getD_some]

theorem buildEnvelope_congr (h : now' = now ∨ Timeless L event) (name : String) {t : ℤ}
    {data : GoMap}
    (hdata : Stamped event t data) :
    buildEnvelope now' name data = buildEnvelope now name data := by
  rcases h with rfl | ⟨hid, -⟩
  · rfl
  · have hstr : getString data "event_id" = event.id := by simp [getString, hdata.1]
    simp only [buildEnvelope, hstr, hid, if_false, hdata.2]

theorem createDeliveries_mirrors {ν : Type} {v : Shared → ν} (envelope : WebhookEnvelope)
    (t t' : ℤ) : ∀ subs : List WebhookSubscription,
      Mirrors Tables.contents v (createDeliveries envelope t subs)
        (createDeliveries envelope t' subs)
  | [] => .pure _
  | _ :: subs => .bind (.mapError _ (createWebhookDelivery_mirrors rfl)) fun _ =>
      createDeliveries_mirrors envelope t t' subs

theorem enqueueDeliveries_mirrors (h : now' = now ∨ Timeless L event) (name : String) {t : ℤ}
    {data : GoMap} (hdata : Stamped event t data) :
    MirrorsOk Tables.contents Shared.subscriptions (enqueueDeliveries now name data)
      (enqueueDeliveries now' name data) := by
  unfold enqueueDeliveries
  rw [buildEnvelope_congr h name hdata]
  simp only []
  split_ifs
  · refine .bind (P := fun _ => True)
      (.mapError _ (.mapError _ (.onPool _ fun p p' hp a q hq => ?_)))
      (fun _ _ _ _ => trivial) fun subs _ => ?_
    · simp only [Except.ok.injEq, Prod.mk.injEq] at hq
      exact ⟨p', by rw [← hq.1, hp], by rw [← hq.2, hp]⟩
    · split_ifs
      · exact (Mirrors.pure _).toOk
      · exact (Mirrors.bind (.ofExcept _) fun envelope =>
          createDeliveries_mirrors _ _ _ subs).toOk
  · exact (Mirrors.fail _).toOk

theorem afterHandler_mirrors (h : now' = now ∨ Timeless L event) (name : String)
    (kind : EventKind) :
    ∀ r : Except GoError (StringMap String),
      MirrorsOk Tables.contents Shared.subscriptions (afterHandler L now event name kind r)
        (afterHandler L now' event name kind r)
  | .error e => by
    simp only [afterHandler, logRow, closedAt_congr h]
    split_ifs
    · exact (logEvent_mirrors _).toOk
    · exact (Mirrors.fail _).toOk
  | .ok logData => by
    simp only [afterHandler, eventTail, logRow, closedAt_congr h]
    refine .bind (P := fun _ => True) (Mirrors.mapError _ (logEvent_mirrors _)).toOk
      (fun _ _ _ _ => trivial) fun _ _ => ?_
    split_ifs
    · exact .bind (webhookDispatchData_mirrors event _ _).toOk
        (webhookDispatchData_stamped event _ _) fun data hdata =>
          .mapError _ (enqueueDeliveries_mirrors h name hdata)
    · exact (Mirrors.pure _).toOk

theorem eventBody_mirrors (h : now' = now ∨ Timeless L event) (stats stats' : Except GoError ScVal)
    (name : String) :
    MirrorsOk Tables.contents Shared.subscriptions (eventBody L stats now event name)
      (eventBody L stats' now' event name) := by
  unfold eventBody
  rw [closedAt_congr h]
  split
  · exact (Mirrors.pure _).toOk
  · exact (handleRegistrationEvent_mirrors _ _ _ _).toOk
  · exact .bind (P := fun _ => True) (Mirrors.attempt (runHandler_mirrors _ _ _ _ _ _ _)).toOk
      (fun _ _ _ _ => trivial) fun r _ => afterHandler_mirrors h name _ r

/-- An event that returns leaves what it leaves when no statement fails, at any other time. -/
theorem handleEvent_mirrored {stats : Except GoError ScVal} {O : ℕ → Bool} {s s' : Db}
    (hok : (handleEvent L stats now O s event).1 = .ok ()) (h : now' = now ∨ Timeless L event)
    (stats' : Except GoError ScVal) (ht : s'.tables.contents = s.tables.contents)
    (hs : s'.shared.subscriptions = s.shared.subscriptions) :
    (handleEvent L stats' now' noFaults s' event).1 = .ok ()
      ∧ (handleEvent L stats' now' noFaults s' event).2.tables.contents =
        (handleEvent L stats now O s event).2.tables.contents
      ∧ (handleEvent L stats' now' noFaults s' event).2.shared.subscriptions =
        (handleEvent L stats now O s event).2.shared.subscriptions := by
  rcases hname : eventName L event with e | name
  · simp [handleEvent, hname] at hok
  · rw [handleEvent_eq hname] at hok ⊢
    rw [handleEvent_eq hname]
    exact (eventBody_mirrors h stats stats' name).withTx hok ht hs

end Clock

end TrusTrove
