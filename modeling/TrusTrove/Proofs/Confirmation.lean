import TrusTrove.Proofs.Refinement

/-!
# Two-party delivery confirmation

The documented contract keeps the issuer's and the buyer's confirmation apart and confirms a
delivery once it has both. The indexer's handler does not look at who confirmed: the first
`confirm_delivery` event of an active invoice confirms its row and sets the buyer's flag
(`confirm_active`), and every later one is stale (`confirm_settled`). So the row tells what the
contract does before any call, and once both parties have made one.
-/

namespace TrusTrove

open Sql

/-- Who calls `confirm_delivery`. -/
inductive Confirmer
  | issuer
  | buyer
  deriving DecidableEq, Repr

/-- The confirmations the contract has recorded for an invoice. -/
structure Confirmations where
  issuer : Bool
  buyer : Bool
  deriving DecidableEq, Repr

namespace Confirmations

def record (c : Confirmations) : Confirmer → Confirmations
  | .issuer => { c with issuer := true }
  | .buyer => { c with buyer := true }

/-- The invoice is confirmed. -/
def complete (c : Confirmations) : Bool := c.issuer && c.buyer

/-- The confirmations after a sequence of calls. -/
def after (calls : List Confirmer) : Confirmations := calls.foldl record ⟨false, false⟩

theorem foldl_record : ∀ (calls : List Confirmer) (c : Confirmations),
    ((calls.foldl record c).issuer = true ↔ c.issuer = true ∨ .issuer ∈ calls)
      ∧ ((calls.foldl record c).buyer = true ↔ c.buyer = true ∨ .buyer ∈ calls)
  | [], c => by simp
  | .issuer :: calls, c => by
    obtain ⟨h₁, h₂⟩ := foldl_record calls (c.record .issuer)
    simp only [List.foldl_cons, h₁, h₂]
    simp [record]
  | .buyer :: calls, c => by
    obtain ⟨h₁, h₂⟩ := foldl_record calls (c.record .buyer)
    simp only [List.foldl_cons, h₁, h₂]
    simp [record]

theorem complete_after {calls : List Confirmer} :
    (after calls).complete = true ↔ .issuer ∈ calls ∧ .buyer ∈ calls := by
  simp [after, complete, foldl_record calls ⟨false, false⟩]

end Confirmations

/-- A successful call of `confirm_delivery`, and the handling of its event. -/
structure ConfirmCall where
  confirmer : Confirmer
  closedAt : ℤ
  handling : HandleCall

/-- The event of the call is a `confirm_delivery` event of the invoice, handled without a fault. -/
structure ConfirmCall.Of (L : EventListener) (id : InvoiceID) (call : ConfirmCall) : Prop where
  emits : Emits L ⟨id, .confirmDelivery, call.closedAt, call.handling.event⟩
  fails : call.handling.fails = noFaults

section Handling

variable {L : EventListener} {id : InvoiceID} {call : ConfirmCall} {s : Db} {r : DbInvoice}

/-- Without faults, the event confirms an active row and leaves any other. -/
theorem ConfirmCall.Of.handle (h : call.Of L id)
    (hr : s.tables.invoices.find? (hexEncode id.bytes) = some r) (hfits : r.fits = true) :
    (handleRun L [call.handling] s).tables.invoices.find? (hexEncode id.bytes) =
      some (if r.status = .active then ContractOp.setRow call.closedAt r .confirmDelivery
        else r) := by
  obtain ⟨name, hname, hkind⟩ := h.emits.name
  have hmoves := runHandler_moves (c := ⟨s.tables, s.shared, false, s.tick + 1, s.failed⟩)
    call.handling.stats name h.emits (by simp [ContractOp.kind]) rfl rfl hr fun _ => hfits
  have hyear := h.emits.year
  rw [← h.emits.closedAt call.handling.now] at hmoves hyear
  have hrun : handleRun L [call.handling] s = (handleEvent L call.handling.stats call.handling.now
      noFaults s call.handling.event).2 := by
    rw [← h.fails]
    rfl
  rw [hrun]
  by_cases hs : r.status = .active
  · have happ := hmoves.1 (by simp [ContractOp.guard, hs])
    obtain ⟨-, hk⟩ := handleEvent_applies hname hkind (by simp [ContractOp.kind])
      (by simp [ContractOp.kind]) hyear h.emits.width.1 h.emits.width.2 happ
    rw [hk, if_pos rfl, if_pos hs, h.emits.closedAt]
  · have hstale := hmoves.2 (by simp [ContractOp.guard, hs])
    obtain ⟨-, hinv⟩ := handleEvent_stale hname hkind (by simp [ContractOp.kind]) h.emits.width.1
      h.emits.width.2 hstale
    rw [hinv, hr, if_neg hs]

/-- Once the row is not active, no further call moves it. -/
theorem confirm_settled (hfits : r.fits = true) (hs : r.status ≠ .active) :
    ∀ (calls : List ConfirmCall) (s : Db), (∀ call ∈ calls, call.Of L id) →
      s.tables.invoices.find? (hexEncode id.bytes) = some r →
      (handleRun L (calls.map (·.handling)) s).tables.invoices.find? (hexEncode id.bytes) = some r
  | [], s, _, hr => hr
  | call :: calls, s, hcalls, hr => by
    have hone := (hcalls call List.mem_cons_self).handle hr hfits
    rw [if_neg hs] at hone
    rw [List.map_cons, ← List.singleton_append, handleRun_append]
    exact confirm_settled hfits hs calls _ (fun c hc => hcalls c (List.mem_cons_of_mem _ hc)) hone

/-- The first call confirms an active row, whoever makes it. -/
theorem confirm_active (hfits : r.fits = true) (hs : r.status = .active) {first : ConfirmCall}
    {calls : List ConfirmCall} (hcalls : ∀ call ∈ first :: calls, call.Of L id)
    (hr : s.tables.invoices.find? (hexEncode id.bytes) = some r) :
    (handleRun L ((first :: calls).map (·.handling)) s).tables.invoices.find? (hexEncode id.bytes) =
      some (ContractOp.setRow first.closedAt r .confirmDelivery) := by
  have hone := (hcalls first List.mem_cons_self).handle hr hfits
  rw [if_pos hs] at hone
  rw [List.map_cons, ← List.singleton_append, handleRun_append]
  exact confirm_settled (r := ContractOp.setRow first.closedAt r .confirmDelivery) hfits
    (by simp [ContractOp.setRow]) calls _ (fun c hc => hcalls c (List.mem_cons_of_mem _ hc)) hone

end Handling

/-- After the events of any sequence of calls the row tells the contract's confirmations exactly
when no call was made or both parties made one. -/
theorem confirmations_projected_iff (L : EventListener) {id : InvoiceID} (calls : List ConfirmCall)
    (hcalls : ∀ call ∈ calls, call.Of L id) {s : Db} {r : DbInvoice}
    (hr : s.tables.invoices.find? (hexEncode id.bytes) = some r) (hfits : r.fits = true)
    (hactive : r.status = .active) (hbuyer : r.buyerConfirmed = false) :
    let recorded := Confirmations.after (calls.map (·.confirmer))
    (∃ r', (handleRun L (calls.map (·.handling)) s).tables.invoices.find? (hexEncode id.bytes)
      = some r'
        ∧ (r'.status = .confirmed ↔ recorded.complete = true)
        ∧ (r'.buyerConfirmed = true ↔ recorded.buyer = true))
      ↔ calls = [] ∨ .issuer ∈ calls.map (·.confirmer) ∧ .buyer ∈ calls.map (·.confirmer) := by
  intro recorded
  rw [← Confirmations.complete_after]
  cases calls with
  | nil =>
    refine ⟨fun _ => .inl rfl, fun _ => ⟨r, hr, ?_, ?_⟩⟩
    · simp [recorded, hactive, Confirmations.after, Confirmations.complete]
    · simp [recorded, hbuyer, Confirmations.after]
  | cons first rest =>
    have hrow := confirm_active hfits hactive hcalls hr
    constructor
    · rintro ⟨r', hr', hstatus, -⟩
      obtain rfl := Option.some.inj (hrow.symm.trans hr')
      exact .inr (hstatus.1 rfl)
    · rintro (hnil | hboth)
      · cases hnil
      · have hcomplete : recorded.complete = true := hboth
        have hb : recorded.buyer = true := by
          simp only [Confirmations.complete, Bool.and_eq_true] at hcomplete
          exact hcomplete.2
        exact ⟨_, hrow, by simp [ContractOp.setRow, hcomplete], by simp [ContractOp.setRow, hb]⟩

/-- The recorded invoice, shipped. -/
def shippedInvoice : DbInvoice :=
  { recordedInvoice with
    status := .active, discountBps := 250, fundedAmount := 900, fundedAt := some 1767225100,
    shippedAt := some 1767225200 }

/-- A recorded confirmation. -/
def confirmCall (confirmer : Confirmer) (id : String) : ConfirmCall :=
  ⟨confirmer, 1767225600,
    ⟨recordedEvent id "AAAADwAAABBjb25maXJtX2RlbGl2ZXJ5" [] "AAAAAQ==", 0, .ok .other, noFaults⟩⟩

theorem confirmCall_of (confirmer : Confirmer) {id : String} (hid : id.length ≤ 128) :
    (confirmCall confirmer id).Of (recordedListener 3) ⟨List.replicate 32 171, rfl⟩ := by
  refine ⟨⟨⟨"confirm_delivery", ?_, rfl⟩, ⟨?_, ?_⟩, ?_, fun _ => ?_, ?_, hid, ?_⟩, rfl⟩
  · exact (by decide +kernel : eventName (recordedListener 3)
      (recordedEvent "" "AAAADwAAABBjb25maXJtX2RlbGl2ZXJ5" [] "AAAAAQ==") = .ok "confirm_delivery")
  · simp [confirmCall, recordedEvent]
  · simp [confirmCall, recordedEvent, recordedListener, recordedSdk]
  · exact (by decide : marshalsTime 1767225600 = true)
  · exact ⟨_, recordedTopic, _, rfl, recordedSdk_topic
      (by simp [recordedTopics, recordedTopic, List.lookup])⟩
  · exact ⟨.other, recordedSdk_topic
      (by simp [recordedTopics, recordedTopic, confirmCall, recordedEvent, List.lookup]), trivial⟩
  · simp only [confirmCall, recordedEvent]
    decide

/-- The issuer alone confirms: the row is confirmed, by the buyer as well. -/
theorem confirmations_issuer_only :
    let calls := [confirmCall .issuer "e1"]
    let recorded := Confirmations.after (calls.map (·.confirmer))
    (∀ call ∈ calls, call.Of (recordedListener 3) ⟨List.replicate 32 171, rfl⟩)
      ∧ recorded.complete = false ∧ recorded.buyer = false
      ∧ ((handleRun (recordedListener 3) (calls.map (·.handling))
        (dbOf shippedInvoice)).tables.invoices.rows.map
        fun r => (r.id, r.status, r.buyerConfirmed))
          = [(recordedInvoice.id, .confirmed, true)] := by
  refine ⟨?_, rfl, rfl, by decide +kernel⟩
  simp only [List.mem_singleton, forall_eq]
  exact confirmCall_of .issuer (by decide)

theorem confirmations_both :
    let calls := [confirmCall .issuer "e1", confirmCall .issuer "e2", confirmCall .buyer "e3"]
    ∃ r, (handleRun (recordedListener 3) (calls.map (·.handling))
      (dbOf shippedInvoice)).tables.invoices.find?
        (hexEncode (List.replicate 32 171)) = some r
      ∧ r.status = .confirmed ∧ r.buyerConfirmed = true := by
  intro calls
  have hcalls : ∀ call ∈ calls, call.Of (recordedListener 3) ⟨List.replicate 32 171, rfl⟩ := by
    simp only [calls, List.mem_cons, List.not_mem_nil, or_false, forall_eq_or_imp, forall_eq]
    exact ⟨confirmCall_of .issuer (by decide), confirmCall_of .issuer (by decide),
      confirmCall_of .buyer (by decide)⟩
  obtain ⟨r, hr, hs, hb⟩ := (confirmations_projected_iff (recordedListener 3) calls hcalls
    (s := dbOf shippedInvoice) (r := shippedInvoice) (by decide +kernel) (by decide +kernel) rfl
    rfl).2 (.inr (by decide))
  exact ⟨r, hr, hs.2 (by decide), hb.2 (by decide)⟩

end TrusTrove
