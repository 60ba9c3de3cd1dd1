import TrusTrove.Contract
import TrusTrove.Proofs.Mirror
import TrusTrove.Proofs.InvoiceRow

/-!
# The `invoices` table refines the contract

`Refines` relates the contract's invoices to their rows. A transition's event, delivered for the
first time, finds its row in the status the contract left and moves it as the contract did
(`Refines.first`); delivered again it finds the row past the guard and changes nothing
(`Refines.again`). So after any delivery of a run of the contract, in order and with any
repetitions, each row shows its invoice (`delivered_refines`).
-/

namespace TrusTrove

open Sql

section Hex

theorem digitChar_injective : ∀ a < 16, ∀ b < 16, Nat.digitChar a = Nat.digitChar b → a = b := by
  decide

theorem hexByte_injective {a b : UInt8} (h : hexByte a = hexByte b) : a = b := by
  have ha : a.toNat < 256 := a.toNat_lt
  have hb : b.toNat < 256 := b.toNat_lt
  simp only [hexByte, List.cons.injEq, and_true] at h
  have h₁ := digitChar_injective _ (by omega) _ (by omega) h.1
  have h₂ := digitChar_injective _ (by omega) _ (by omega) h.2
  exact UInt8.toNat_inj.1 (by omega)

theorem flatMap_hexByte_injective :
    ∀ {a b : List UInt8}, a.flatMap hexByte = b.flatMap hexByte → a = b
  | [], [], _ => rfl
  | [], _ :: _, h => by simp [hexByte] at h
  | _ :: _, [], h => by simp [hexByte] at h
  | x :: a, y :: b, h => by
    rw [List.flatMap_cons, List.flatMap_cons] at h
    obtain ⟨hxy, hab⟩ := List.append_inj h rfl
    rw [hexByte_injective hxy, flatMap_hexByte_injective hab]

theorem hexEncode_injective {a b : List UInt8} (h : hexEncode a = hexEncode b) : a = b :=
  flatMap_hexByte_injective (String.ofList_injective h)

theorem hexEncode_length (b : List UInt8) : (hexEncode b).length = 2 * b.length := by
  rw [hexEncode, String.length_ofList]
  induction b with
  | nil => rfl
  | cons x b ih =>
    rw [List.flatMap_cons, List.length_append, ih]
    simp only [hexByte, List.length_cons, List.length_nil]
    omega

theorem InvoiceID.hex_length (id : InvoiceID) : (hexEncode id.bytes).length = 64 := by
  rw [hexEncode_length, id.bytes_length]

theorem InvoiceID.hex_injective {id id' : InvoiceID}
    (h : hexEncode id.bytes = hexEncode id'.bytes) :
    id = id' := by
  cases id
  cases id'
  simpa using hexEncode_injective h

end Hex

section Outcome

variable {α β : Type}

/-- Without faults, the run returns and leaves the row of `id` as `r`, and the other rows as they
were. -/
def Applies (m : DbProg α) (c : Conn Tables Shared) (id : String) (r : DbInvoice) : Prop :=
  ∃ a c', m noFaults c = (.ok a, c') ∧ c'.aborted = false
    ∧ ∀ k, c'.work.invoices.find? k = if k = id then some r else c.work.invoices.find? k

/-- Without faults, the run is refused as stale and leaves the tables as they were. -/
def Stale (m : DbProg α) (c : Conn Tables Shared) : Prop :=
  ∃ e c', m noFaults c = (.error e, c') ∧ e.is .invalidInvoiceTransition = true
    ∧ c'.aborted = false ∧ c'.work = c.work

/-- Without faults, the run returns and leaves the rows as they were. -/
def Quiet (m : DbProg α) : Prop := ∀ c, c.aborted = false →
  ∃ a c', m noFaults c = (.ok a, c') ∧ c'.aborted = false ∧ c'.work.invoices = c.work.invoices

theorem Quiet.of_tail {ev : String} {m : DbProg α} (hruns : Runs m)
    (hm : Respects (TailWrites ev) SnapshotOnly m) : Quiet m := by
  intro c hc
  obtain ⟨a, c', h, hc'⟩ := hruns c hc
  refine ⟨a, c', h, hc', ?_⟩
  have := TailWrites.invoices (hm noFaults c).1
  rwa [h] at this

theorem Quiet.pure (a : α) : Quiet (pure a) := fun c hc => ⟨a, c, rfl, hc, rfl⟩

variable {m : DbProg α} {f : α → DbProg β} {c : Conn Tables Shared} {id : String} {r : DbInvoice}

theorem Applies.bind (hm : Applies m c id r) (hf : ∀ a, Quiet (f a)) :
    Applies (m >>= f) c id r := by
  obtain ⟨a, c₁, h₁, hc₁, hk⟩ := hm
  obtain ⟨b, c₂, h₂, hc₂, hinv⟩ := hf a c₁ hc₁
  refine ⟨b, c₂, (bind_run_ok f h₁).trans h₂, hc₂, fun k => ?_⟩
  rw [hinv]
  exact hk k

theorem Stale.bind (hm : Stale m c) : Stale (m >>= f) c := by
  obtain ⟨e, c₁, h₁, hrest⟩ := hm
  exact ⟨e, c₁, bind_run_error f h₁, hrest⟩

/-- The run applies `r` when the guard holds, and is stale when it does not. -/
def Moves (m : DbProg α) (c : Conn Tables Shared) (id : String) (guard : Bool) (r : DbInvoice) :
    Prop :=
  (guard = true → Applies m c id r) ∧ (guard = false → Stale m c)

theorem Moves.bind {guard : Bool} (hm : Moves m c id guard r) (hf : ∀ a, Quiet (f a)) :
    Moves (m >>= f) c id guard r :=
  ⟨fun hg => (hm.1 hg).bind hf, fun hg => (hm.2 hg).bind⟩

end Outcome

section Update

variable {c : Conn Tables Shared} {id operation target : String} {guard : DbInvoice → Bool}
  {set : DbInvoice → Option DbInvoice} {hset : ∀ r, ((set r).getD r).id = r.id} {r : DbInvoice}

theorem updateInvoice_applies (hc : c.aborted = false) (hr : c.work.invoices.find? id = some r)
    (hg : guard r = true) {r' : DbInvoice} (hr' : set r = some r') (hfits : r'.fits = true) :
    Applies (updateInvoice id operation target guard set hset) c id r' := by
  refine ⟨(), _, updateInvoice_run rfl hc hr hg hr' hfits, hc, fun k => ?_⟩
  rw [Table.find?_update]
  split_ifs
  · simp [hr, hg, hr']
  · rfl

theorem updateInvoice_stale (hc : c.aborted = false) (hr : c.work.invoices.find? id = some r)
    (hg : guard r = false) : Stale (updateInvoice id operation target guard set hset) c := by
  have hexec : execUpdate id guard set hset c.work = .ok (0, c.work) := by
    simp [execUpdate, hr, hg]
  have hupdate : ((Prog.onTx driverError (execUpdate id guard set hset)).mapError
      (.wrap ("queries: " ++ operation)) : DbProg ℕ) noFaults c =
        (.ok 0, { c with tick := c.tick + 1 }) := by
    rw [mapError_run, onTx_run driverError rfl hc hexec]
    rfl
  have hread : ((Prog.onTx driverError fun w : Tables =>
        .ok ((w.invoices.find? id).map (·.status), w)).mapError
      (.wrap ("queries: " ++ operation ++ ": inspect invoice after update")) :
        DbProg (Option InvoiceStatus)) noFaults { c with tick := c.tick + 1 } =
        (.ok (some r.status), { c with tick := c.tick + 2 }) := by
    simp [Prog.onTx, noFaults, hc, hr, Except.mapError]
  unfold updateInvoice Stale
  rw [bind_run_ok _ hupdate]
  simp only [lt_irrefl, if_false]
  rw [bind_run_ok _ hread]
  exact ⟨_, _, rfl, rfl, hc, rfl⟩

theorem updateInvoice_moves (hc : c.aborted = false) (hr : c.work.invoices.find? id = some r)
    {r' : DbInvoice} (hr' : set r = some r') (hfits : guard r = true → r'.fits = true) :
    Moves (updateInvoice id operation target guard set hset) c id (guard r) r' :=
  ⟨fun hg => updateInvoice_applies hc hr hg hr' (hfits hg), updateInvoice_stale hc hr⟩

end Update

namespace ContractOp

/-- The statuses the `UPDATE` for the call's event is guarded by. -/
def guard : ContractOp → DbInvoice → Bool
  | create .., _ => false
  | listForFinancing _, r => r.status = .created
  | fund .., r => r.status = .listed
  | markShipped, r => r.status = .funded
  | confirmDelivery, r => r.status = .active
  | repay, r => r.status = .confirmed
  | triggerDefault, r => r.deployed

/-- What the `UPDATE` for the call's event sets. -/
def setRow (t : ℤ) (r : DbInvoice) : ContractOp → DbInvoice
  | create .. => r
  | listForFinancing d => { r with status := .listed, discountBps := d.toNat }
  | fund hi lo => { r with status := .funded, fundedAmount := u128 hi lo, fundedAt := some t }
  | markShipped => { r with status := .active, shippedAt := some t, issuerConfirmed := true }
  | confirmDelivery =>
    { r with status := .confirmed, buyerConfirmed := true, buyerConfirmedAt := some t }
  | repay => { r with status := .repaid, repaidAt := some t }
  | triggerDefault => { r with status := .defaulted }

/-- The bound the contract has for the argument of a call. -/
def bounded : ContractOp → Bool
  | listForFinancing d => d.toNat ≤ 5000
  | _ => true

end ContractOp

section Handlers

variable {L : EventListener} {e : Emission} {c : Conn Tables Shared} {r : DbInvoice}

theorem syncPoolStats_quiet (stats : Except GoError ScVal) : Quiet (syncPoolStats stats) := by
  intro c hc
  obtain ⟨hw, ha, -⟩ := syncPoolStatsFromChain_poolOnly stats noFaults c
  exact ⟨(), _, rfl, ha.trans hc, congrArg Tables.invoices hw⟩

theorem Emits.topicInvoiceID (h : Emits L e) (hop : e.op.kind ≠ .created) (kind : String) :
    topicInvoiceID L.sdk e.event kind = .ok (hexEncode e.id.bytes) := by
  obtain ⟨t₀, t₁, rest, htopic, hval⟩ := h.topic hop
  simp [TrusTrove.topicInvoiceID, topicVal, htopic, hval, Except.map, Except.mapError, parseBytes]

theorem Emits.eventValue (h : Emits L e) (ctx : String) :
    ∃ val, eventValue L.sdk e.event ctx = .ok val ∧ e.carries val := by
  obtain ⟨val, hval, hcar⟩ := h.value
  exact ⟨val, by simp [TrusTrove.eventValue, hval, Except.mapError], hcar⟩

theorem numeric_parseU128 (hi lo : UInt64) :
    numeric (parseU128 (.u128 hi lo)) = some (u128 hi lo : ℤ) := by
  rw [parseU128]
  exact numeric_repr _

/-- The handler of an existing invoice's event updates the row its guard admits, and is stale on
any other. -/
theorem runHandler_moves (stats : Except GoError ScVal) (name : String) (h : Emits L e)
    (hop : e.op.kind ≠ .created) (hbound : e.op.bounded = true) (hc : c.aborted = false)
    (hr : c.work.invoices.find? (hexEncode e.id.bytes) = some r)
    (hfits : e.op.guard r = true → (e.op.setRow e.closedAt r).fits = true) :
    Moves (runHandler L.sdk stats e.event e.closedAt name e.op.kind) c (hexEncode e.id.bytes)
      (e.op.guard r) (e.op.setRow e.closedAt r) := by
  have htopic := h.topicInvoiceID hop
  have hval := h.eventValue "parse value"
  have hpure := fun _ : Unit => Quiet.pure ([] : StringMap String)
  have hsync := fun _ : Unit => syncPoolStats_quiet stats
  obtain ⟨id, op, t, event⟩ := e
  cases op <;> simp only [ContractOp.guard, ContractOp.setRow, ContractOp.kind] at hfits ⊢
  case create => exact absurd rfl hop
  case listForFinancing d =>
    obtain ⟨val, hv, rfl⟩ := hval
    have hd : d.toNat ≤ 5000 := by simpa [ContractOp.bounded] using hbound
    have hint4 : int4 (d.toNat : ℤ) = true := by
      simp only [int4, Bool.and_eq_true, decide_eq_true_eq]
      omega
    simp only [runHandler, handleInvoiceListed, htopic, hv, ofExcept_ok_bind,
      updateInvoiceListed, parseU32, hint4, if_true]
    refine Moves.bind ?_ hpure
    exact updateInvoice_moves hc hr rfl hfits
  case fund hi lo =>
    obtain ⟨val, hv, rfl⟩ := hval
    simp only [runHandler, handleInvoiceFunded, htopic, hv, ofExcept_ok_bind,
      updateInvoiceFunded_eq (numeric_parseU128 hi lo)]
    refine Moves.bind (Moves.bind ?_ hsync) hpure
    exact updateInvoice_moves hc hr rfl hfits
  case markShipped =>
    simp only [runHandler, handleInvoiceShipped, htopic, ofExcept_ok_bind,
      updateInvoiceShipped]
    refine Moves.bind ?_ hpure
    exact updateInvoice_moves hc hr rfl hfits
  case confirmDelivery =>
    simp only [runHandler, handleDeliveryConfirmed, htopic, ofExcept_ok_bind,
      updateInvoiceDeliveryConfirmed]
    refine Moves.bind ?_ hpure
    exact updateInvoice_moves hc hr rfl hfits
  case repay =>
    simp only [runHandler, handleInvoiceRepaid, htopic, ofExcept_ok_bind,
      updateInvoiceRepaid]
    refine Moves.bind (Moves.bind ?_ hsync) hpure
    exact updateInvoice_moves hc hr rfl hfits
  case triggerDefault =>
    simp only [runHandler, handleInvoiceDefaulted, htopic, ofExcept_ok_bind,
      updateInvoiceStatus]
    refine Moves.bind (Moves.bind ?_ hsync) hpure
    exact updateInvoice_moves hc hr rfl hfits

end Handlers

section Creation

variable {L : EventListener} {c : Conn Tables Shared} {id : InvoiceID} {issuer buyer : Party}
  {hi lo due : UInt64} {t : ℤ} {event : SorobanEvent}

/-- The row of a created invoice. -/
def createdRow (sdk : Sdk) (id : InvoiceID) (issuer buyer : Party) (hi lo due : UInt64) (t : ℤ) :
    DbInvoice where
  id := hexEncode id.bytes
  issuer := parseAddress sdk issuer.val
  buyer := parseAddress sdk buyer.val
  faceValue := u128 hi lo
  discountBps := 0
  fundedAmount := 0
  dueDate := parseU64 (.u64 due)
  status := .created
  createdAt := t
  fundedAt := none
  shippedAt := none
  issuerConfirmed := false
  buyerConfirmed := false
  buyerConfirmedAt := none
  repaidAt := none
  attestationAgentID := none
  riskScoreBps := none
  evidenceHash := none
  attestedAt := none

theorem Party.address_length {sdk : Sdk} (hsdk : StrkeyWidth sdk) (p : Party) :
    (parseAddress sdk p.val).length = 56 := by
  obtain ⟨version, key, hkey⟩ := p
  cases version <;> exact hsdk _ key hkey

theorem createdRow_fits {sdk : Sdk} (hsdk : StrkeyWidth sdk) :
    (createdRow sdk id issuer buyer hi lo due t).fits = true := by
  simp [DbInvoice.fits, createdRow, id.hex_length, issuer.address_length hsdk,
    buyer.address_length hsdk]

theorem ne_empty_of_length {s : String} {n : ℕ} (h : s.length = n + 1) : s ≠ "" := by
  rintro rfl
  simp at h

theorem insertInvoice_applies {inv : DbInvoice} (hc : c.aborted = false) (hfits : inv.fits = true) :
    Applies (insertInvoice inv) c inv.id ((c.work.invoices.find? inv.id).getD inv) := by
  refine ⟨(c.work.invoices.find? inv.id).isNone, { c with
    work := { c.work with invoices := c.work.invoices.insertNew inv }, tick := c.tick + 1 }, ?_, hc,
    fun k => ?_⟩
  · unfold insertInvoice
    rw [mapError_run, onTx_run driverError rfl hc
      (a := (c.work.invoices.find? inv.id).isNone)
      (w := { c.work with invoices := c.work.invoices.insertNew inv }) (by simp [hfits])]
    rfl
  · rw [Table.find?_insertNew]
    by_cases hk : k = inv.id
    · subst hk
      cases c.work.invoices.find? inv.id <;> simp
    · rw [if_neg (Ne.symm hk), if_neg hk]

/-- The handler of a creation inserts its row, and leaves a row that is already there. -/
theorem runHandler_creates (stats : Except GoError ScVal) (name : String) (hsdk : StrkeyWidth L.sdk)
    (h : Emits L ⟨id, .create issuer buyer hi lo due, t, event⟩) (hc : c.aborted = false) :
    Applies (runHandler L.sdk stats event t name .created) c (hexEncode id.bytes)
      ((c.work.invoices.find? (hexEncode id.bytes)).getD
        (createdRow L.sdk id issuer buyer hi lo due t)) := by
  obtain ⟨val, hv, hid, hissuer, hbuyer, hface, hdue⟩ := h.eventValue "parse value"
  obtain ⟨amount, hamount⟩ : ∃ amount, amount = parseU128 (.u128 hi lo) := ⟨_, rfl⟩
  have hnum : numeric amount = some (u128 hi lo : ℤ) := by
    rw [hamount]
    exact numeric_parseU128 hi lo
  have hid' : ((getMapVal val "id").map parseBytes).getD "" = hexEncode id.bytes := by
    rw [hid, Option.map_some, Option.getD_some, parseBytes]
  have hissuer' : ((getMapVal val "issuer").map (parseAddress L.sdk)).getD "" =
      parseAddress L.sdk issuer.val := by
    rw [hissuer, Option.map_some, Option.getD_some]
  have hbuyer' : ((getMapVal val "buyer").map (parseAddress L.sdk)).getD "" =
      parseAddress L.sdk buyer.val := by
    rw [hbuyer, Option.map_some, Option.getD_some]
  have hface' : ((getMapVal val "face_value").map parseU128).getD "0" = amount := by
    rw [hface, Option.map_some, Option.getD_some, hamount]
  have hdue' : ((getMapVal val "due_date").map parseU64).getD 0 = parseU64 (.u64 due) := by
    rw [hdue, Option.map_some, Option.getD_some]
  have h₁ : hexEncode id.bytes ≠ "" := ne_empty_of_length id.hex_length
  have h₂ : parseAddress L.sdk issuer.val ≠ "" := ne_empty_of_length (issuer.address_length hsdk)
  have h₃ : parseAddress L.sdk buyer.val ≠ "" := ne_empty_of_length (buyer.address_length hsdk)
  clear hamount
  simp only [runHandler, handleInvoiceCreated, hv, ofExcept_ok_bind, hid', hissuer', hbuyer',
    hface', hdue', h₁, h₂, h₃, decide_false, Bool.or_self, Bool.false_eq_true, if_false, hnum]
  refine Applies.bind (Applies.bind ?_ fun _ => .pure _) fun _ => .pure _
  exact insertInvoice_applies hc (createdRow_fits hsdk)

end Creation

section Event

variable {L : EventListener} {stats : Except GoError ScVal} {now : ℕ} {event : SorobanEvent}
  {name : String} {kind : EventKind} {s : Db}

theorem eventName_fits (hkind : eventKind name = some kind) : name.length ≤ 50 := by
  unfold eventKind at hkind
  split at hkind <;> first | decide | cases hkind

theorem logEvent_runs {row : EventLog} (hrow : row.fits = true) : Runs (logEvent row) :=
  .mapError _ (.onTx _
    fun w => ⟨(), { w with eventsLog := w.eventsLog.insertNew row }, if_pos hrow⟩)

theorem createDeliveries_runs (envelope : WebhookEnvelope) (t : ℤ) :
    ∀ subs : List WebhookSubscription, Runs (createDeliveries envelope t subs)
  | [] => .pure _
  | _ :: subs => .bind (.mapError _ (.mapError _ (.onTx _ fun _ => ⟨(), _, rfl⟩))) fun _ =>
      createDeliveries_runs envelope t subs

theorem webhookDispatchData_runs (event : SorobanEvent) (t : ℤ) (logData : StringMap String) :
    Runs (webhookDispatchData event t logData) := by
  unfold webhookDispatchData
  simp only []
  split_ifs
  · exact .pure _
  · refine .bind (.attempt (.mapError _ (.onTx _ fun w => ⟨_, _, rfl⟩))) fun r => ?_
    split <;> exact .pure _

theorem enqueueDeliveries_runs (now : ℕ) (hname : mapInternalEventType name ∈ allEventTypes) {t : ℤ}
    {data : GoMap} (hdata : Stamped event t data) (ht : marshalsTime t = true) :
    Runs (enqueueDeliveries now name data) := by
  have henvelope : marshalEnvelope (buildEnvelope now name data)
      = .ok (buildEnvelope now name data) := by
    rw [marshalEnvelope, buildEnvelope_occurredAt hdata, if_pos ht]
  unfold enqueueDeliveries
  simp only [hname, if_true, henvelope, Except.mapError, ofExcept_ok_bind]
  refine .bind (.mapError _ (.mapError _ (.onPool _ fun p => ⟨_, _, rfl⟩))) fun subs => ?_
  split_ifs
  · exact .pure _
  · exact createDeliveries_runs _ _ subs

theorem eventTail_quiet (L : EventListener) (now : ℕ) (hkind : eventKind name = some kind)
    (hreg : kind ≠ .registration) (hatt : kind ≠ .attestation)
    (hyear : marshalsTime (closedAt L now event) = true) (hid : event.id.length ≤ 128)
    (hcid : event.contractID.length ≤ 56)
    (logData : StringMap String) : Quiet (eventTail L now event name kind logData) := by
  have hname := (supported_iff hkind hreg).2 hatt
  have hrow : (logRow L now event name
      (.fields (extractLogData L.sdk event kind logData))).fits = true := by
    simp [EventLog.fits, logRow, hid, hcid, eventName_fits hkind]
  refine .of_tail ?_ (eventTail_writes L now event name kind logData)
  unfold eventTail
  refine .bind (.mapError _ (logEvent_runs hrow)) fun _ => ?_
  split_ifs
  · exact .bind_of (webhookDispatchData_runs event _ _) (webhookDispatchData_stamped event _ _)
      fun data hdata => .mapError _ (enqueueDeliveries_runs now hname hdata hyear)
  · exact .pure _

/-- Without faults, an event whose handler returns is committed with what the handler did. -/
theorem handleEvent_applies (hname : eventName L event = .ok name)
    (hkind : eventKind name = some kind) (hreg : kind ≠ .registration) (hatt : kind ≠ .attestation)
    (hyear : marshalsTime (closedAt L now event) = true) (hid : event.id.length ≤ 128)
    (hcid : event.contractID.length ≤ 56) {id : String} {r : DbInvoice}
    (h : Applies (runHandler L.sdk stats event (closedAt L now event) name kind)
      ⟨s.tables, s.shared, false, s.tick + 1, s.failed⟩ id r) :
    (handleEvent L stats now noFaults s event).1 = .ok ()
      ∧ ∀ k, (handleEvent L stats now noFaults s event).2.tables.invoices.find? k =
        if k = id then some r else s.tables.invoices.find? k := by
  obtain ⟨logData, c₁, hrun, hc₁, hk⟩ := h
  obtain ⟨⟨⟩, c₂, htail, hc₂, hinv⟩ :=
    eventTail_quiet L now hkind hreg hatt hyear hid hcid logData c₁ hc₁
  have hattempt : (runHandler L.sdk stats event (closedAt L now event) name kind).attempt noFaults
      ⟨s.tables, s.shared, false, s.tick + 1, s.failed⟩ = (.ok (.ok logData), c₁) := by
    rw [attempt_run, hrun]
  have hbody : eventBody L stats now event name noFaults
      ⟨s.tables, s.shared, false, s.tick + 1, s.failed⟩ = (.ok (), c₂) := by
    rw [eventBody_handler hkind hreg, bind_run_ok _ hattempt]
    exact htail
  rw [handleEvent_eq hname, withTx_run hbody hc₂]
  refine ⟨rfl, fun k => ?_⟩
  simp only [hinv]
  exact hk k

/-- Without faults, a stale event is committed and leaves the rows as they were. -/
theorem handleEvent_stale (hname : eventName L event = .ok name)
    (hkind : eventKind name = some kind) (hreg : kind ≠ .registration)
    (hid : event.id.length ≤ 128) (hcid : event.contractID.length ≤ 56)
    (h : Stale (runHandler L.sdk stats event (closedAt L now event) name kind)
      ⟨s.tables, s.shared, false, s.tick + 1, s.failed⟩) :
    (handleEvent L stats now noFaults s event).1 = .ok ()
      ∧ (handleEvent L stats now noFaults s event).2.tables.invoices = s.tables.invoices := by
  obtain ⟨e, c₁, hrun, hstale, hc₁, hwork⟩ := h
  have hrow : (logRow L now event name (.raw event.value)).fits = true := by
    simp [EventLog.fits, logRow, hid, hcid, eventName_fits hkind]
  obtain ⟨⟨⟩, c₂, hlog, hc₂, hinv⟩ :=
    Quiet.of_tail (logEvent_runs hrow) (logEvent_writes rfl) c₁ hc₁
  have hattempt : (runHandler L.sdk stats event (closedAt L now event) name kind).attempt noFaults
      ⟨s.tables, s.shared, false, s.tick + 1, s.failed⟩ = (.ok (.error e), c₁) := by
    rw [attempt_run, hrun]
  have hbody : eventBody L stats now event name noFaults
      ⟨s.tables, s.shared, false, s.tick + 1, s.failed⟩ = (.ok (), c₂) := by
    rw [eventBody_handler hkind hreg, bind_run_ok _ hattempt]
    simp only [afterHandler, hstale, if_true]
    exact hlog
  rw [handleEvent_eq hname, withTx_run hbody hc₂]
  refine ⟨rfl, ?_⟩
  simp only [hinv, hwork]

end Event

section Simulation

variable {L : EventListener}

/-- The row of an invoice of the contract. -/
structure Projects (sdk : Sdk) (inv : ContractInvoice) (r : DbInvoice) : Prop where
  status : r.status = inv.status
  issuer : r.issuer = parseAddress sdk inv.issuer.val
  buyer : r.buyer = parseAddress sdk inv.buyer.val
  faceValue : r.faceValue = inv.faceValue
  dueDate : r.dueDate = parseU64 (.u64 inv.dueDate)
  discountBps : r.discountBps = inv.discountBps
  fundedAmount : r.fundedAmount = inv.fundedAmount
  createdAt : r.createdAt = inv.createdAt
  fundedAt : r.fundedAt = inv.fundedAt
  shippedAt : r.shippedAt = inv.shippedAt
  buyerConfirmedAt : r.buyerConfirmedAt = inv.confirmedAt
  repaidAt : r.repaidAt = inv.repaidAt
  fits : r.fits = true

/-- The rows of the contract's invoices are there, and no others of their ids. -/
def Refines (sdk : Sdk) (C : Contract) (w : Tables) : Prop := ∀ id,
  (C id = none → w.invoices.find? (hexEncode id.bytes) = none)
    ∧ ∀ inv, C id = some inv →
      ∃ r, w.invoices.find? (hexEncode id.bytes) = some r ∧ Projects sdk inv r

namespace ContractOp

/-- An invoice that has taken the call, or gone where the call cannot take it. -/
def past : ContractOp → InvoiceStatus → Bool
  | create .., _ => true
  | listForFinancing _, s => s ≠ .created
  | fund .., s => s ≠ .created && s ≠ .listed
  | markShipped, s => s = .active || s = .confirmed || s = .repaid || s = .defaulted
  | confirmDelivery, s => s = .confirmed || s = .repaid || s = .defaulted
  | repay, s => s = .repaid
  | triggerDefault, s => s = .defaulted

theorem guard_of_past {op : ContractOp} {r : DbInvoice} (h : op.past r.status = true) :
    op.guard r = false := by
  cases op <;> cases hs : r.status <;> simp_all [past, guard, DbInvoice.deployed]

/-- A move is a step of the lifecycle, and leaves the invoice past its call. -/
theorem move_edge {op : ContractOp} {t : ℤ} {inv inv' : ContractInvoice}
    (h : op.move t inv = some inv') :
    LifecycleEdge inv.status inv'.status ∧ op.past inv'.status = true := by
  cases op <;> simp only [move, reduceCtorEq, Option.ite_none_right_eq_some, Option.some.injEq] at h
  case listForFinancing d =>
    obtain ⟨⟨hs, -⟩, rfl⟩ := h
    exact ⟨hs ▸ .list, rfl⟩
  case fund hi lo =>
    obtain ⟨⟨hs, -⟩, rfl⟩ := h
    exact ⟨hs ▸ .fund, rfl⟩
  case markShipped =>
    obtain ⟨hs, rfl⟩ := h
    exact ⟨hs ▸ .ship, rfl⟩
  case confirmDelivery =>
    obtain ⟨hs, rfl⟩ := h
    exact ⟨hs ▸ .confirm, rfl⟩
  case repay =>
    obtain ⟨hs, rfl⟩ := h
    exact ⟨hs ▸ .repay, rfl⟩
  case triggerDefault =>
    obtain ⟨hs, rfl⟩ := h
    refine ⟨?_, rfl⟩
    rcases hs with hs | hs | hs <;> rw [hs]
    · exact .defaultFunded
    · exact .defaultActive
    · exact .defaultConfirmed

theorem bounded_of_move {op : ContractOp} {t : ℤ} {inv inv' : ContractInvoice}
    (h : op.move t inv = some inv') : op.bounded = true := by
  cases op <;> simp_all [move, bounded]

theorem past_of_edge {op : ContractOp} {a b : InvoiceStatus} (h : LifecycleEdge a b)
    (ha : op.past a = true) : op.past b = true := by
  cases op <;> cases h <;> simp_all [past]

end ContractOp

theorem fits_listed {r : DbInvoice} (h : r.fits = true) (st : InvoiceStatus) {d : ℕ}
    (hd : d ≤ 5000) :
    ({ r with status := st, discountBps := (d : ℤ) } : DbInvoice).fits = true := by
  simp only [DbInvoice.fits, Bool.and_eq_true, decide_eq_true_eq] at h ⊢
  exact ⟨⟨⟨⟨⟨h.1.1.1.1.1, by omega⟩, h.1.1.1.2⟩, h.1.1.2⟩, h.1.2⟩, h.2⟩

theorem fits_funded {r : DbInvoice} (h : r.fits = true) (st : InvoiceStatus) {a : ℕ}
    (ha : (a : ℤ) ≤ r.faceValue) (t : Option ℤ) :
    ({ r with status := st, fundedAmount := (a : ℤ), fundedAt := t } : DbInvoice).fits = true := by
  simp only [DbInvoice.fits, Bool.and_eq_true, decide_eq_true_eq] at h ⊢
  exact ⟨⟨h.1.1, by omega⟩, h.2⟩

/-- A move of the contract finds the row's guard open and moves the row alike. -/
theorem Projects.move {sdk : Sdk} {op : ContractOp} {t : ℤ} {inv inv' : ContractInvoice}
    {r : DbInvoice} (h : Projects sdk inv r) (hmove : op.move t inv = some inv') :
    op.guard r = true ∧ Projects sdk inv' (op.setRow t r) := by
  cases op <;>
    simp only [ContractOp.move, reduceCtorEq, Option.ite_none_right_eq_some, Option.some.injEq]
      at hmove
  case listForFinancing d =>
    obtain ⟨⟨hs, hd⟩, rfl⟩ := hmove
    exact ⟨by simp [ContractOp.guard, h.status, hs],
      { h with status := rfl, discountBps := rfl, fits := fits_listed h.fits _ hd }⟩
  case fund hi lo =>
    obtain ⟨⟨hs, ha⟩, rfl⟩ := hmove
    have ha' : (u128 hi lo : ℤ) ≤ r.faceValue := by
      rw [h.faceValue]
      exact_mod_cast ha
    exact ⟨by simp [ContractOp.guard, h.status, hs], { h with
      status := rfl, fundedAmount := rfl, fundedAt := rfl, fits := fits_funded h.fits _ ha' _ }⟩
  case markShipped =>
    obtain ⟨hs, rfl⟩ := hmove
    exact ⟨by simp [ContractOp.guard, h.status, hs],
      { h with status := rfl, shippedAt := rfl, fits := h.fits }⟩
  case confirmDelivery =>
    obtain ⟨hs, rfl⟩ := hmove
    exact ⟨by simp [ContractOp.guard, h.status, hs],
      { h with status := rfl, buyerConfirmedAt := rfl, fits := h.fits }⟩
  case repay =>
    obtain ⟨hs, rfl⟩ := hmove
    exact ⟨by simp [ContractOp.guard, h.status, hs],
      { h with status := rfl, repaidAt := rfl, fits := h.fits }⟩
  case triggerDefault =>
    obtain ⟨hs, rfl⟩ := hmove
    exact ⟨DbInvoice.deployed_iff.2 (by rw [h.status]; exact hs),
      { h with status := rfl, fits := h.fits }⟩

theorem createdRow_projects {sdk : Sdk} (hsdk : StrkeyWidth sdk) {id : InvoiceID}
    {issuer buyer : Party} {hi lo due : UInt64} {t : ℤ} :
    Projects sdk ⟨issuer, buyer, u128 hi lo, due, 0, 0, .created, t, none, none, none, none⟩
      (createdRow sdk id issuer buyer hi lo due t) := by
  refine ⟨?_, ?_, ?_, ?_, ?_, ?_, ?_, ?_, ?_, ?_, ?_, ?_, createdRow_fits hsdk⟩ <;>
    simp [createdRow]

theorem Refines.update {sdk : Sdk} {C : Contract} {w w' : Tables} (h : Refines sdk C w)
    {id : InvoiceID} {inv : ContractInvoice} {r : DbInvoice} (hr : Projects sdk inv r)
    (hw : ∀ k, w'.invoices.find? k =
      if k = hexEncode id.bytes then some r else w.invoices.find? k) :
    Refines sdk (Function.update C id (some inv)) w' := by
  intro id'
  by_cases hid : id' = id
  · subst hid
    rw [Function.update_self, hw, if_pos rfl]
    refine ⟨fun hnone => by simp at hnone, fun inv' hinv => ⟨r, rfl, ?_⟩⟩
    obtain rfl : inv = inv' := by simpa using hinv
    exact hr
  · rw [Function.update_of_ne hid, hw, if_neg fun hhex => hid (InvoiceID.hex_injective hhex)]
    exact h id'

theorem Refines.congr {sdk : Sdk} {C : Contract} {w w' : Tables} (h : Refines sdk C w)
    (hw : ∀ k, w'.invoices.find? k = w.invoices.find? k) : Refines sdk C w' := by
  intro id
  rw [hw]
  exact h id

section Delivery

variable {C C' : Contract} {e : Emission} (stats : Except GoError ScVal) (now : ℕ) {s : Db}

theorem Emits.closedAt (h : Emits L e) (now : ℕ) : closedAt L now e.event = e.closedAt := by
  simp [TrusTrove.closedAt, h.closed.1, h.closed.2]

theorem ContractOp.kind_ne (op : ContractOp) :
    op.kind ≠ .registration ∧ op.kind ≠ .attestation := by
  cases op <;> simp [kind]

/-- The handler of the event, on the transaction that would be opened for it. -/
def handlerResult (L : EventListener) (stats : Except GoError ScVal) (now : ℕ) (s : Db)
    (event : SorobanEvent) (name : String) (kind : EventKind) : Except GoError (StringMap String) :=
  (runHandler L.sdk stats event (TrusTrove.closedAt L now event) name kind noFaults
    ⟨s.tables, s.shared, false, s.tick + 1, s.failed⟩).1

/-- The handler of the event is not stale. -/
def Fresh (L : EventListener) (stats : Except GoError ScVal) (now : ℕ) (s : Db) (e : Emission) :
    Prop :=
  ∃ name logData, eventName L e.event = .ok name
    ∧ handlerResult L stats now s e.event name e.op.kind = .ok logData

theorem Refines.applies (h : Refines L.sdk C s.tables) (hemit : Emits L e) {name : String}
    (hname : eventName L e.event = .ok name) (hkind : eventKind name = some e.op.kind)
    {r : DbInvoice} {inv : ContractInvoice} (hr : Projects L.sdk inv r)
    (happ : Applies (runHandler L.sdk stats e.event e.closedAt name e.op.kind)
      ⟨s.tables, s.shared, false, s.tick + 1, s.failed⟩ (hexEncode e.id.bytes) r) :
    Fresh L stats now s e ∧ (handleEvent L stats now noFaults s e.event).1 = .ok ()
      ∧ Refines L.sdk (Function.update C e.id (some inv))
        (handleEvent L stats now noFaults s e.event).2.tables := by
  obtain ⟨hreg, hatt⟩ := e.op.kind_ne
  have hyear := hemit.year
  rw [← hemit.closedAt now] at happ hyear
  obtain ⟨hok, hk⟩ :=
    handleEvent_applies hname hkind hreg hatt hyear hemit.width.1 hemit.width.2 happ
  obtain ⟨logData, c₁, hrun, -⟩ := happ
  exact ⟨⟨name, logData, hname, congrArg Prod.fst hrun⟩, hok, h.update hr hk⟩

/-- The first delivery of a transition's event: its handler is not stale, and the row moves as the
invoice did. -/
theorem Refines.first (hsdk : StrkeyWidth L.sdk) (h : Refines L.sdk C s.tables)
    (hstep : C.step e = some C') (hemit : Emits L e) :
    Fresh L stats now s e ∧ (handleEvent L stats now noFaults s e.event).1 = .ok ()
      ∧ Refines L.sdk C' (handleEvent L stats now noFaults s e.event).2.tables := by
  obtain ⟨name, hname, hkind⟩ := hemit.name
  unfold Contract.step at hstep
  split at hstep
  · rename_i hnone
    obtain ⟨inv, hmade, rfl⟩ := Option.map_eq_some_iff.1 hstep
    obtain ⟨id, op, t, event⟩ := e
    cases op <;> simp only [ContractOp.made, reduceCtorEq, Option.some.injEq] at hmade
    case create issuer buyer hi lo due =>
      subst hmade
      refine h.applies stats now hemit hname hkind ?_ (runHandler_creates stats name hsdk hemit rfl)
      rw [(h id).1 hnone, Option.getD_none]
      exact createdRow_projects hsdk
  · rename_i inv hinv
    obtain ⟨inv', hmove, rfl⟩ := Option.map_eq_some_iff.1 hstep
    obtain ⟨r, hr, hproj⟩ := (h e.id).2 inv hinv
    obtain ⟨hg, hproj'⟩ := hproj.move hmove
    have hop : e.op.kind ≠ .created := by
      intro hc
      cases hop : e.op <;> simp [hop, ContractOp.kind, ContractOp.move] at hc hmove
    exact h.applies stats now hemit hname hkind hproj'
      ((runHandler_moves stats name hemit hop (ContractOp.bounded_of_move hmove) rfl hr
        fun _ => hproj'.fits).1 hg)

/-- A later delivery of the event changes no row. -/
theorem Refines.again (hsdk : StrkeyWidth L.sdk) (h : Refines L.sdk C s.tables) (hemit : Emits L e)
    {inv : ContractInvoice} (hinv : C e.id = some inv) (hpast : e.op.past inv.status = true)
    (hbound : e.op.bounded = true) :
    (handleEvent L stats now noFaults s e.event).1 = .ok ()
      ∧ Refines L.sdk C (handleEvent L stats now noFaults s e.event).2.tables := by
  obtain ⟨name, hname, hkind⟩ := hemit.name
  obtain ⟨r, hr, hproj⟩ := (h e.id).2 inv hinv
  by_cases hop : e.op.kind = .created
  · obtain ⟨id, op, t, event⟩ := e
    cases op <;> simp only [ContractOp.kind, reduceCtorEq] at hop
    case create issuer buyer hi lo due =>
      have happ := runHandler_creates (c := ⟨s.tables, s.shared, false, s.tick + 1, s.failed⟩)
        stats name hsdk hemit rfl
      rw [hr, Option.getD_some] at happ
      obtain ⟨-, hok, hk⟩ := h.applies stats now hemit hname hkind hproj happ
      rw [Function.update_eq_self_iff.2 hinv.symm] at hk
      exact ⟨hok, hk⟩
  · obtain ⟨hreg, -⟩ := e.op.kind_ne
    rw [← hproj.status] at hpast
    have hg := ContractOp.guard_of_past hpast
    have hstale := (runHandler_moves (c := ⟨s.tables, s.shared, false, s.tick + 1, s.failed⟩)
      stats name hemit hop hbound rfl hr fun hg' => by simp [hg] at hg').2 hg
    rw [← hemit.closedAt now] at hstale
    obtain ⟨hok, hinvs⟩ := handleEvent_stale hname hkind hreg hemit.width.1 hemit.width.2 hstale
    exact ⟨hok, h.congr fun k => by rw [hinvs]⟩

end Delivery

/-- The calls deliver the events of a run in order, each for the first time and any number of times
again, without a fault. -/
inductive Delivers : List Emission → List HandleCall → Prop
  | nil : Delivers [] []
  | first {es : List Emission} {calls : List HandleCall} (e : Emission) (call : HandleCall) :
      Delivers es calls → call.event = e.event → call.fails = noFaults →
      Delivers (es ++ [e]) (calls ++ [call])
  | again {es : List Emission} {calls : List HandleCall} (e : Emission) (call : HandleCall) :
      Delivers es calls → e ∈ es → call.event = e.event → call.fails = noFaults →
      Delivers es (calls ++ [call])

theorem Delivers.of_prefix {es : List Emission} {calls pre : List HandleCall}
    (h : Delivers es calls) (hpre : pre <+: calls) : ∃ es', es' <+: es ∧ Delivers es' pre := by
  induction h with
  | nil =>
    obtain rfl := List.prefix_nil.1 hpre
    exact ⟨[], List.prefix_refl _, .nil⟩
  | first e call hd he hf ih =>
    rcases List.prefix_concat_iff.1 hpre with rfl | hpre
    · exact ⟨_, List.prefix_refl _, .first e call hd he hf⟩
    · obtain ⟨es', hes, hd'⟩ := ih hpre
      exact ⟨es', hes.trans (List.prefix_append _ _), hd'⟩
  | again e call hd hmem he hf ih =>
    rcases List.prefix_concat_iff.1 hpre with rfl | hpre
    · exact ⟨_, List.prefix_refl _, .again e call hd hmem he hf⟩
    · exact ih hpre

theorem Contract.run_snoc {es : List Emission} {e : Emission} {C' : Contract}
    (h : Contract.run (es ++ [e]) = some C') :
    ∃ C, Contract.run es = some C ∧ C.step e = some C' := by
  simpa [Contract.run, List.foldlM_append, Option.bind_eq_some_iff] using h

theorem Contract.run_of_prefix {es es' : List Emission} {C : Contract}
    (h : Contract.run es = some C) (hpre : es' <+: es) : ∃ C', Contract.run es' = some C' := by
  obtain ⟨rest, rfl⟩ := hpre
  simp only [Contract.run, List.foldlM_append, Option.bind_eq_bind, Option.bind_eq_some_iff] at h ⊢
  obtain ⟨C', hC', -⟩ := h
  exact ⟨C', hC'⟩

/-- Every invoice an event was emitted for is past that event's call, whose argument was within its
bound. -/
def AllPast (es : List Emission) (C : Contract) : Prop :=
  ∀ e ∈ es, ∃ inv, C e.id = some inv ∧ e.op.past inv.status = true ∧ e.op.bounded = true

theorem AllPast.step {es : List Emission} {C C' : Contract} {e : Emission} (h : AllPast es C)
    (hstep : C.step e = some C') : AllPast (es ++ [e]) C' := by
  unfold Contract.step at hstep
  intro x hx
  split at hstep
  · rename_i hnone
    obtain ⟨inv, hmade, rfl⟩ := Option.map_eq_some_iff.1 hstep
    rcases List.mem_append.1 hx with hx | hx
    · obtain ⟨inv', hinv', hp⟩ := h x hx
      have hne : x.id ≠ e.id := fun hid => by simp [hid, hnone] at hinv'
      exact ⟨inv', by rw [Function.update_of_ne hne]; exact hinv', hp⟩
    · obtain rfl := List.mem_singleton.1 hx
      refine ⟨inv, Function.update_self .., ?_⟩
      cases hop : x.op <;> simp [hop, ContractOp.made] at hmade
      exact ⟨rfl, rfl⟩
  · rename_i inv hinv
    obtain ⟨inv', hmove, rfl⟩ := Option.map_eq_some_iff.1 hstep
    obtain ⟨hedge, hpast⟩ := ContractOp.move_edge hmove
    rcases List.mem_append.1 hx with hx | hx
    · obtain ⟨inv₀, hinv₀, hp⟩ := h x hx
      by_cases hid : x.id = e.id
      · obtain rfl : inv = inv₀ := by simpa [hid, hinv] using hinv₀
        exact ⟨inv', by rw [hid, Function.update_self],
          ContractOp.past_of_edge hedge hp.1, hp.2⟩
      · exact ⟨inv₀, by rw [Function.update_of_ne hid]; exact hinv₀, hp⟩
    · obtain rfl := List.mem_singleton.1 hx
      exact ⟨inv', Function.update_self .., hpast, ContractOp.bounded_of_move hmove⟩

theorem handleRun_snoc (calls : List HandleCall) (call : HandleCall) (s : Db) :
    handleRun L (calls ++ [call]) s =
      (handleEvent L call.stats call.now call.fails (handleRun L calls s) call.event).2 := by
  rw [handleRun_append]
  rfl

theorem delivered_refines (hsdk : StrkeyWidth L.sdk) {s : Db} (hs : s.tables.invoices = Table.empty)
    {es : List Emission} {calls : List HandleCall} (hdel : Delivers es calls) :
    ∀ {C : Contract}, (∀ e ∈ es, Emits L e) → Contract.run es = some C →
      Refines L.sdk C (handleRun L calls s).tables ∧ AllPast es C := by
  induction hdel with
  | nil =>
    intro C _ hrun
    obtain rfl : Contract.init = C := by simpa [Contract.run] using hrun
    refine ⟨fun id => ⟨fun _ => ?_, fun inv hinv => by simp [Contract.init] at hinv⟩,
      by simp [AllPast]⟩
    simp [handleRun, hs]
  | first e call _ he hf ih =>
    intro C' hemit hrun
    obtain ⟨C, hC, hstep⟩ := Contract.run_snoc hrun
    obtain ⟨href, hpast⟩ := ih (fun x hx => hemit x (List.mem_append_left _ hx)) hC
    have hx := hemit e (List.mem_append_right _ List.mem_cons_self)
    rw [handleRun_snoc, he, hf]
    exact ⟨(href.first call.stats call.now hsdk hstep hx).2.2, hpast.step hstep⟩
  | again e call _ hmem he hf ih =>
    intro C hemit hrun
    obtain ⟨href, hpast⟩ := ih hemit hrun
    obtain ⟨inv, hinv, hp, hbound⟩ := hpast e hmem
    rw [handleRun_snoc, he, hf]
    exact ⟨(href.again call.stats call.now hsdk (hemit e hmem) hinv hp hbound).2, hpast⟩

end Simulation

/-- Whatever run of the contract is delivered, in order and with any repetitions, after any part of
the delivery each row shows its invoice as the contract had it, and the next event of the run is
not stale. -/
theorem invoices_refine_contract (L : EventListener) (hsdk : StrkeyWidth L.sdk) {s : Db}
    (hs : s.tables.invoices = Table.empty) {es : List Emission} {C : Contract}
    {calls : List HandleCall} (hrun : Contract.run es = some C) (hemit : ∀ e ∈ es, Emits L e)
    (hdel : Delivers es calls) {pre : List HandleCall} (hpre : pre <+: calls) :
    ∃ es' C', es' <+: es ∧ Delivers es' pre ∧ Contract.run es' = some C'
      ∧ Refines L.sdk C' (handleRun L pre s).tables
      ∧ ∀ e rest, es = es' ++ e :: rest → ∀ stats now, Fresh L stats now (handleRun L pre s) e := by
  obtain ⟨es', hes, hdel'⟩ := hdel.of_prefix hpre
  obtain ⟨C', hC'⟩ := Contract.run_of_prefix hrun hes
  obtain ⟨href, -⟩ := delivered_refines hsdk hs hdel' (fun e he => hemit e (hes.subset he)) hC'
  refine ⟨es', C', hes, hdel', hC', href, fun e rest heq stats now => ?_⟩
  have hmem : e ∈ es := by
    rw [heq]
    exact List.mem_append_right _ List.mem_cons_self
  have hnext : es' ++ [e] <+: es := ⟨rest, by rw [heq]; simp⟩
  obtain ⟨C₁, hC₁⟩ := Contract.run_of_prefix hrun hnext
  obtain ⟨C₂, hC₂, hstep⟩ := Contract.run_snoc hC₁
  obtain rfl : C' = C₂ := by simpa [hC'] using hC₂
  exact (href.first stats now hsdk hstep (hemit e hmem)).1

theorem recordedSdk_strkeyWidth : StrkeyWidth recordedSdk := by
  intro version key _
  simp only [recordedSdk]
  split_ifs <;> decide

/-- The recorded creation and listing, as transitions of the contract. -/
def recordedRun : List Emission :=
  [⟨⟨List.replicate 32 171, rfl⟩, .create ⟨.accountID, List.replicate 32 1, rfl⟩
      ⟨.accountID, List.replicate 32 2, rfl⟩ 0 1000 1800000000, 1767225600,
      recordedEvent "e1" "AAAADwAAAAZjcmVhdGUAAA==" [] recordedCreation⟩,
    ⟨⟨List.replicate 32 171, rfl⟩, .listForFinancing 250, 1767225600,
      recordedEvent "e2" "AAAADwAAABJsaXN0X2Zvcl9maW5hbmNpbmcAAA==" [] "AAAAAwAAAPo="⟩]

theorem recordedSdk_topic {t : String} {val : ScVal} (h : recordedTopics.lookup t = some val) :
    recordedSdk.unmarshalBase64 t = .ok val := by
  simp only [recordedSdk, recordedValues, List.lookup_append, h, Option.some_or]

theorem recordedSdk_creation :
    recordedSdk.unmarshalBase64 recordedCreation = .ok (.map (some
      [(.symbol "buyer", .address (.account (List.replicate 32 2))),
        (.symbol "due_date", .u64 1800000000), (.symbol "face_value", .u128 0 1000),
        (.symbol "id", .bytes (List.replicate 32 171)),
        (.symbol "issuer", .address (.account (List.replicate 32 1)))])) := by
  have h : recordedTopics.lookup recordedCreation = none := by
    rw [List.lookup_eq_none_iff]
    decide +kernel
  simp only [recordedSdk, recordedValues, List.lookup_append, h, Option.none_or, List.lookup,
    BEq.rfl]

theorem recordedRun_emits : ∀ e ∈ recordedRun, Emits (recordedListener 3) e := by
  intro e he
  simp only [recordedRun, List.mem_cons, List.not_mem_nil, or_false] at he
  rcases he with rfl | rfl
  · refine ⟨⟨"create", by decide +kernel, rfl⟩, by decide +kernel, by decide +kernel,
      fun h => absurd rfl h, ?_, by decide +kernel⟩
    simp only [recordedEvent, recordedListener]
    refine ⟨_, recordedSdk_creation, ?_⟩
    simp [Emission.carries, getMapVal, ScVal.sym?, Party.val]
  · refine ⟨⟨"list_for_financing", by decide +kernel, rfl⟩, by decide +kernel, by decide +kernel,
      fun _ => ?_, ?_, by decide +kernel⟩
    · exact ⟨_, recordedTopic, _, rfl, recordedSdk_topic
        (by simp [recordedTopics, recordedTopic, List.lookup])⟩
    · exact ⟨.u32 250, recordedSdk_topic
        (by simp [recordedTopics, recordedTopic, recordedEvent, List.lookup]), rfl⟩

theorem recordedCalls_delivers : Delivers recordedRun recordedCalls :=
  .first _ _ (.again _ _ (.first _ _ .nil rfl rfl) List.mem_cons_self rfl rfl) rfl rfl

theorem recordedCalls_refine :
    ∃ es' C', es' <+: recordedRun ∧ Delivers es' recordedCalls ∧ Contract.run es' = some C'
      ∧ Refines recordedSdk C' (handleRun (recordedListener 3) recordedCalls freshDb).tables := by
  obtain ⟨C, hC⟩ : ∃ C, Contract.run recordedRun = some C := ⟨_, rfl⟩
  obtain ⟨es', C', h₁, h₂, h₃, h₄, -⟩ := invoices_refine_contract (recordedListener 3)
    recordedSdk_strkeyWidth (s := freshDb) rfl hC recordedRun_emits recordedCalls_delivers
    (List.prefix_refl _)
  exact ⟨es', C', h₁, h₂, h₃, h₄⟩

end TrusTrove
