import TrusTrove.Api
import TrusTrove.Proofs.Refinement

/-!
# `PATCH /invoices/{id}/status`

The endpoint runs the `UPDATE` written for defaults with the caller's own status and without looking
at the caller: a row whose status is deployed takes any status the `CHECK` admits
(`handlePatchInvoiceStatus_row`), and a row that is not, none. So a request stays within the
lifecycle and the ownership of the row exactly when it is one of those `PatchHonoured` lists.
-/

namespace TrusTrove

open Sql

/-- One step of the indexer: an event handled, or a request served. -/
inductive IndexerStep
  | event (call : HandleCall)
  | patch (req : PatchStatusRequest) (fails : ℕ → Bool)

def IndexerStep.apply (L : EventListener) : IndexerStep → Db → Db
  | event call, s => (handleEvent L call.stats call.now call.fails s call.event).2
  | patch req fails, s => (handlePatchInvoiceStatus req fails s).2

/-- The database after any interleaving of events and requests. -/
def indexerRun (L : EventListener) (steps : List IndexerStep) (s : Db) : Db :=
  steps.foldl (fun s step => step.apply L s) s

/-- A database some interleaving leads to, from one without invoices. -/
def IndexerReachable (L : EventListener) (s : Db) : Prop :=
  ∃ s₀ steps, s₀.tables.invoices = Table.empty ∧ s = indexerRun L steps s₀

/-- Every row of `invoices` is within the constraints of the table. -/
def RowsFit (w : Tables) : Prop := ∀ id r, w.invoices.find? id = some r → r.fits = true

/-- The rows stay within the constraints. -/
def KeepsFit (w w' : Tables) : Prop := RowsFit w → RowsFit w'

instance : Std.Refl KeepsFit := ⟨fun _ h => h⟩

instance : IsTrans Tables KeepsFit := ⟨fun _ _ _ h h' hw => h' (h hw)⟩

section Reachable

theorem TableWrite.keepsFit {ev : String} {w w' : Tables} (h : TableWrite ev w w') :
    KeepsFit w w' := by
  intro hw
  cases h with
  | tail h => cases h <;> exact hw
  | create inv hfits _ =>
    intro id r hr
    rw [Table.find?_insertNew] at hr
    split_ifs at hr with hid
    · rcases hold : w.invoices.find? id with _ | r₀
      · rw [hold, Option.none_or, Option.some.injEq] at hr
        exact hr ▸ hfits
      · rw [hold, Option.some_or, Option.some.injEq] at hr
        exact hw id r (hr ▸ hold)
    · exact hw id r hr
  | move t id r r' _ _ hfits ht =>
    intro k x hx
    rw [ht] at hx
    split_ifs at hx with hk
    · obtain rfl : r' = x := by simpa using hx
      exact hfits
    · exact hw k x hx

theorem TableWrites.keepsFit {ev : String} {w w' : Tables} (h : TableWrites ev w w') :
    KeepsFit w w' := by
  induction h with
  | refl => exact fun hw => hw
  | tail _ hstep ih => exact fun hw => hstep.keepsFit (ih hw)

theorem updateInvoiceStatus_keepsFit (id status : String) :
    Respects KeepsFit SnapshotOnly (updateInvoiceStatus id status) := by
  refine updateInvoice_respects fun w n w' h hw => ?_
  rcases execUpdate_ok h with ⟨-, rfl, -⟩ | ⟨-, r, r', -, -, -, hfits, t, rfl, ht⟩
  · exact hw
  · intro k x hx
    rw [ht] at hx
    split_ifs at hx with hk
    · obtain rfl : r' = x := by simpa using hx
      exact hfits
    · exact hw k x hx

theorem IndexerStep.keepsFit (L : EventListener) (step : IndexerStep) (s : Db) :
    KeepsFit s.tables (step.apply L s).tables := by
  cases step with
  | event call =>
    exact (handleEvent_writes L call.stats call.now call.event call.fails s).1.keepsFit
  | patch req fails =>
    simp only [apply, handlePatchInvoiceStatus]
    split_ifs
    · exact fun h => h
    · split
      · exact fun h => h
      · rename_i status _
        have h := (updateInvoiceStatus_keepsFit req.id status fails
          ⟨s.tables, s.shared, false, s.tick, s.failed⟩).1
        split_ifs
        · exact fun h => h
        · split <;> rename_i heq <;> obtain ⟨-, rfl⟩ := Prod.mk.inj heq <;> exact h

theorem indexerRun_fits (L : EventListener) :
    ∀ (steps : List IndexerStep) (s : Db), RowsFit s.tables → RowsFit (indexerRun L steps s).tables
  | [], _, hs => hs
  | step :: steps, s, hs => indexerRun_fits L steps _ (step.keepsFit L s hs)

theorem IndexerReachable.fits {L : EventListener} {s : Db} (h : IndexerReachable L s) :
    RowsFit s.tables := by
  obtain ⟨s₀, steps, hs₀, rfl⟩ := h
  exact indexerRun_fits L steps s₀ fun id r hr => by simp [hs₀] at hr

end Reachable

section Patch

variable {req : PatchStatusRequest} {status : String} {s : Db} {r : DbInvoice}

/-- The row after the request. -/
def PatchStatusRequest.patched (req : PatchStatusRequest) (status : String) (r : DbInvoice) :
    DbInvoice :=
  if req.id ≠ "" ∧ r.deployed then
    ((InvoiceStatus.ofString? status).map fun st => { r with status := st }).getD r
  else r

theorem updateInvoice_work {c : Conn Tables Shared} {id operation target : String}
    {guard : DbInvoice → Bool} {set : DbInvoice → Option DbInvoice}
    {hset : ∀ r, ((set r).getD r).id = r.id} (hc : c.aborted = false) :
    (updateInvoice id operation target guard set hset noFaults c).2.work =
      match execUpdate id guard set hset c.work with
      | .ok (_, w) => w
      | .error _ => c.work := by
  rcases hexec : execUpdate id guard set hset c.work with e | ⟨n, w⟩
  · have hupdate : ((Prog.onTx driverError (execUpdate id guard set hset)).mapError
        (.wrap ("queries: " ++ operation)) : DbProg ℕ) noFaults c =
          (.error (.wrap ("queries: " ++ operation) e),
            { c with aborted := true, tick := c.tick + 1, failed := true }) := by
      simp [Prog.onTx, noFaults, hc, hexec, Except.mapError]
    unfold updateInvoice
    rw [bind_run_error _ hupdate]
  · have hupdate : ((Prog.onTx driverError (execUpdate id guard set hset)).mapError
        (.wrap ("queries: " ++ operation)) : DbProg ℕ) noFaults c =
          (.ok n, { c with work := w, tick := c.tick + 1 }) := by
      rw [mapError_run, onTx_run driverError rfl hc hexec]
      rfl
    unfold updateInvoice
    rw [bind_run_ok _ hupdate]
    split_ifs
    · rfl
    · rw [bind_run]
      simp only [mapError_run, Prog.onTx, noFaults, hc, Bool.or_self, Bool.false_eq_true, if_false,
        Except.mapError]
      cases w.invoices.find? id <;> rfl

theorem execUpdate_row {id : String} {guard : DbInvoice → Bool} {set : DbInvoice → Option DbInvoice}
    {hset : ∀ r, ((set r).getD r).id = r.id} {w : Tables}
    (hfits : ∀ r, w.invoices.find? id = some r → ∀ r', set r = some r' → r'.fits = true)
    (k : String) :
    (match execUpdate id guard set hset w with
      | .ok (_, w') => w'
      | .error _ => w).invoices.find? k =
      if k = id then (w.invoices.find? k).map fun r => if guard r then (set r).getD r else r
      else w.invoices.find? k := by
  unfold execUpdate
  rcases hr : w.invoices.find? id with _ | r
  · split_ifs with hk
    · simp [hk, hr]
    · rfl
  · simp only []
    by_cases hg : guard r
    · rcases hset' : set r with _ | r'
      · simp only [hg, Option.any_none, Bool.false_eq_true, if_true, if_false]
        split_ifs with hk
        · simp [hk, hr, hg, hset']
        · rfl
      · simp only [hg, Option.any_some, hfits r hr r' hset', if_true]
        rw [Table.find?_update]
        split_ifs with hk
        · simp [hk, hr, hg, hset']
        · rfl
    · simp only [hg, Bool.false_eq_true, if_false]
      split_ifs with hk
      · simp [hk, hr, hg]
      · rfl

theorem handlePatchInvoiceStatus_db (O : ℕ → Bool) (hid : req.id ≠ "")
    (hbody : req.body = .ok status)
    (hst : status ≠ "") :
    (handlePatchInvoiceStatus req O s).2 =
      (autocommit (updateInvoiceStatus req.id status) O s).2 := by
  unfold handlePatchInvoiceStatus
  rw [if_neg hid, hbody]
  simp only [if_neg hst]
  split <;> rename_i heq <;> rw [heq]

theorem handlePatchInvoiceStatus_row (hbody : req.body = .ok status) (hfit : RowsFit s.tables)
    (k : String) :
    (handlePatchInvoiceStatus req noFaults s).2.tables.invoices.find? k =
      if k = req.id then (s.tables.invoices.find? k).map (req.patched status)
      else s.tables.invoices.find? k := by
  have hsame : (∀ r, req.patched status r = r) →
      (if k = req.id then (s.tables.invoices.find? k).map (req.patched status)
      else s.tables.invoices.find? k) = s.tables.invoices.find? k := by
    intro h
    rw [funext h, Option.map_id', ite_self]
  by_cases hid : req.id = ""
  · rw [hsame fun r => by simp [PatchStatusRequest.patched, hid]]
    simp [handlePatchInvoiceStatus, hid]
  by_cases hst : status = ""
  · rw [hsame fun r => by simp [PatchStatusRequest.patched, hst, InvoiceStatus.ofString?]]
    simp [handlePatchInvoiceStatus, hid, hbody, hst]
  rw [handlePatchInvoiceStatus_db noFaults hid hbody hst]
  have hwork : (autocommit (updateInvoiceStatus req.id status) noFaults s).2.tables = _ :=
    updateInvoice_work (c := ⟨s.tables, s.shared, false, s.tick, s.failed⟩) rfl
  rw [hwork, execUpdate_row fun r hr r' hr' => ?_]
  · congr 1
    refine congrArg (fun f => Option.map f _) (funext fun r => ?_)
    simp [PatchStatusRequest.patched, hid]
  · obtain ⟨st, -, rfl⟩ := Option.map_eq_some_iff.1 hr'
    exact hfit _ r hr

/-- An edge of the lifecycle, or the cancellation the endpoint is there for. -/
def PatchEdge (current : InvoiceStatus) (status : String) : Prop :=
  (∃ st, InvoiceStatus.ofString? status = some st ∧ LifecycleEdge current st)
    ∨ current = .created ∧ status = "Cancelled"

/-- The request gets past the guard of the `UPDATE` with another status than the row's. -/
def PatchStatusRequest.Moves (req : PatchStatusRequest) (status : String) (r : DbInvoice) : Prop :=
  req.id ≠ "" ∧ r.deployed = true ∧ ∃ st, InvoiceStatus.ofString? status = some st ∧ st ≠ r.status

/-- The requests on a row that stay within its lifecycle and ownership: one that moves it is its
issuer's and asks for the next status on the way to `Confirmed`, or for a default; and none that
does not move it is its issuer's request for an edge. -/
structure PatchHonoured (req : PatchStatusRequest) (status : String) (r : DbInvoice) : Prop where
  onward : req.Moves status r → req.userAddress = r.issuer
    ∧ (status = "Defaulted" ∨ r.status = .funded ∧ status = "Active"
      ∨ r.status = .active ∧ status = "Confirmed")
  shut : req.userAddress = r.issuer → ¬ (r.status = .created ∧ status = "Listed"
    ∨ r.status = .created ∧ status = "Cancelled" ∨ r.status = .listed ∧ status = "Funded")
  unaddressed : req.id = "" → req.userAddress = r.issuer → ¬ PatchEdge r.status status

theorem ofString?_eq_some {st : InvoiceStatus} (h : InvoiceStatus.ofString? status = some st) :
    status = st.toString := by
  unfold InvoiceStatus.ofString? at h
  split at h <;> cases h <;> rfl

theorem patched_of_moves {st : InvoiceStatus} (h : req.Moves status r)
    (hst : InvoiceStatus.ofString? status = some st) :
    req.patched status r = { r with status := st } := by
  simp [PatchStatusRequest.patched, h.1, h.2.1, hst]

theorem patched_of_not_moves (h : ¬ req.Moves status r) : req.patched status r = r := by
  unfold PatchStatusRequest.patched
  split_ifs with hg
  · rcases hst : InvoiceStatus.ofString? status with _ | st
    · rfl
    · obtain rfl : st = r.status := by
        by_contra hne
        exact h ⟨hg.1, hg.2, st, hst, hne⟩
      rfl
  · rfl

theorem patched_ne_iff : req.patched status r ≠ r ↔ req.Moves status r := by
  refine ⟨fun h => by_contra fun hm => h (patched_of_not_moves hm), fun h heq => ?_⟩
  obtain ⟨st, hst, hne⟩ := h.2.2
  rw [patched_of_moves h hst] at heq
  exact hne (congrArg DbInvoice.status heq)

theorem LifecycleEdge.ne {a b : InvoiceStatus} (h : LifecycleEdge a b) : b ≠ a := by
  cases h <;> simp

/-- From a deployed row, the edges are those onwards and the repayment. -/
theorem onward_iff {st : InvoiceStatus} (hd : r.deployed = true)
    (hst : InvoiceStatus.ofString? status = some st) (hne : st ≠ r.status) :
    (status = "Defaulted" ∨ r.status = .funded ∧ status = "Active"
        ∨ r.status = .active ∧ status = "Confirmed")
      ↔ LifecycleEdge r.status st ∧ st ≠ .repaid := by
  obtain rfl := ofString?_eq_some hst
  constructor
  · intro h
    rcases DbInvoice.deployed_iff.1 hd with hs | hs | hs <;> rw [hs] at h hne ⊢ <;> cases st <;>
      simp [InvoiceStatus.toString] at h hne ⊢ <;> constructor
  · rintro ⟨hedge, hunpaid⟩
    have hs := DbInvoice.deployed_iff.1 hd
    generalize r.status = cur at hedge hs
    cases hedge <;> simp [InvoiceStatus.toString] at hs hunpaid ⊢

/-- From any other row, the edges are those the guard shuts out. -/
theorem shut_iff (hd : r.deployed = false) :
    r.status = .created ∧ status = "Listed" ∨ r.status = .created ∧ status = "Cancelled"
        ∨ r.status = .listed ∧ status = "Funded" ↔ PatchEdge r.status status := by
  constructor
  · rintro (⟨hs, rfl⟩ | ⟨hs, rfl⟩ | ⟨hs, rfl⟩) <;> rw [hs]
    · exact .inl ⟨.listed, rfl, .list⟩
    · exact .inr ⟨rfl, rfl⟩
    · exact .inl ⟨.funded, rfl, .fund⟩
  · rintro (⟨st, hst, hedge⟩ | ⟨hs, rfl⟩)
    · obtain rfl := ofString?_eq_some hst
      generalize hcur : r.status = cur at hedge
      cases hedge <;> simp_all [DbInvoice.deployed, InvoiceStatus.toString]
    · exact .inr (.inl ⟨hs, rfl⟩)

/-- The condition, as what it says of the row the request leaves. -/
theorem patchHonoured_iff :
    PatchHonoured req status r ↔
      (req.patched status r ≠ r ↔ req.userAddress = r.issuer ∧ PatchEdge r.status status)
        ∧ ((req.patched status r).status = .repaid → r.status = .repaid) := by
  rw [patched_ne_iff]
  constructor
  · intro h
    by_cases hm : req.Moves status r
    · obtain ⟨-, hd, st, hst, hne⟩ := id hm
      obtain ⟨howner, hon⟩ := h.onward hm
      obtain ⟨hedge, hunpaid⟩ := (onward_iff hd hst hne).1 hon
      rw [patched_of_moves hm hst]
      exact ⟨⟨fun _ => ⟨howner, .inl ⟨st, hst, hedge⟩⟩, fun _ => hm⟩, fun hr => absurd hr hunpaid⟩
    · rw [patched_of_not_moves hm]
      refine ⟨⟨fun hm' => absurd hm' hm, fun ⟨howner, hedge⟩ => absurd hedge ?_⟩, fun hr => hr⟩
      by_cases hid : req.id = ""
      · exact h.unaddressed hid howner
      · intro hedge
        have hd : r.deployed = false := by
          by_contra hd
          have hd' : r.deployed = true := by simpa using hd
          rcases hedge with ⟨st, hst, hedge⟩ | ⟨hs, -⟩
          · exact hm ⟨hid, hd', st, hst, hedge.ne⟩
          · simp [DbInvoice.deployed, hs] at hd'
        exact h.shut howner ((shut_iff hd).2 hedge)
  · rintro ⟨hiff, hunpaid⟩
    refine ⟨fun hm => ?_, fun howner hshut => ?_, fun hid howner hedge => ?_⟩
    · obtain ⟨-, hd, st, hst, hne⟩ := id hm
      obtain ⟨howner, hedge⟩ := hiff.1 hm
      rw [patched_of_moves hm hst] at hunpaid
      refine ⟨howner, (onward_iff hd hst hne).2 ⟨?_, fun hr => hne (hr.trans (hunpaid hr).symm)⟩⟩
      rcases hedge with ⟨st', hst', hedge⟩ | ⟨hs, -⟩
      · rw [hst, Option.some.injEq] at hst'
        exact hst' ▸ hedge
      · simp [DbInvoice.deployed, hs] at hd
    · have hd : r.deployed = false := by
        rcases hshut with ⟨hs, -⟩ | ⟨hs, -⟩ | ⟨hs, -⟩ <;> simp [DbInvoice.deployed, hs]
      obtain ⟨-, hd', -⟩ := hiff.2 ⟨howner, (shut_iff hd).1 hshut⟩
      simp [hd] at hd'
    · exact (hiff.2 ⟨howner, hedge⟩).1 hid

/-- The request changes the row iff it is its issuer's request for an edge, and leaves every other
row; it moves nothing backwards and marks nothing repaid, and it cancels the issuer's own. -/
structure PatchRespects (req : PatchStatusRequest) (status : String) (w : Tables)
    (out : Response × Db) : Prop where
  others : ∀ k, (k ≠ req.id ∨ w.invoices.find? k = none) →
    out.2.tables.invoices.find? k = w.invoices.find? k
  row : ∀ r, w.invoices.find? req.id = some r → (out.2.tables.invoices.find? req.id ≠ some r
    ↔ req.userAddress = r.issuer ∧ PatchEdge r.status status)
  forward : ∀ r r', w.invoices.find? req.id = some r →
    out.2.tables.invoices.find? req.id = some r' →
    r'.status = r.status ∨ LifecycleEdge r.status r'.status
  unpaid : ∀ r r', w.invoices.find? req.id = some r → out.2.tables.invoices.find? req.id = some r' →
    r'.status = .repaid → r.status = .repaid
  cancels : ∀ r, w.invoices.find? req.id = some r → r.status = .created →
    req.userAddress = r.issuer → status = "Cancelled" → out.1.code = 200

end Patch

/-- On every table events and requests reach, a request respects lifecycle and ownership exactly
when the row it names honours it. -/
theorem handlePatchInvoiceStatus_respects_iff (L : EventListener) {s : Db}
    (hs : IndexerReachable L s)
    {req : PatchStatusRequest} {status : String} (hbody : req.body = .ok status) :
    PatchRespects req status s.tables (handlePatchInvoiceStatus req noFaults s)
      ↔ ∀ r, s.tables.invoices.find? req.id = some r → PatchHonoured req status r := by
  have hfit := hs.fits
  have hrow : ∀ r, s.tables.invoices.find? req.id = some r →
      (handlePatchInvoiceStatus req noFaults s).2.tables.invoices.find? req.id =
        some (req.patched status r) := by
    intro r hr
    rw [handlePatchInvoiceStatus_row hbody hfit, if_pos rfl, hr, Option.map_some]
  constructor
  · intro h r hr
    refine patchHonoured_iff.2 ⟨?_, h.unpaid r _ hr (hrow r hr)⟩
    rw [← h.row r hr, hrow r hr, ne_eq, ne_eq, Option.some.injEq]
  · intro h
    refine ⟨fun k hk => ?_, fun r hr => ?_, fun r r' hr hr' => ?_, fun r r' hr hr' => ?_,
      fun r hr hc howner hst => ?_⟩
    · rw [handlePatchInvoiceStatus_row hbody hfit]
      rcases hk with hk | hk
      · rw [if_neg hk]
      · simp [hk]
    · rw [hrow r hr, ne_eq, Option.some.injEq]
      exact (patchHonoured_iff.1 (h r hr)).1
    · obtain rfl := Option.some.inj ((hrow r hr).symm.trans hr')
      by_cases hm : req.Moves status r
      · obtain ⟨-, hd, st, hst, hne⟩ := id hm
        rw [patched_of_moves hm hst]
        exact .inr ((onward_iff hd hst hne).1 ((h r hr).onward hm).2).1
      · rw [patched_of_not_moves hm]
        exact .inl rfl
    · obtain rfl := Option.some.inj ((hrow r hr).symm.trans hr')
      exact (patchHonoured_iff.1 (h r hr)).2
    · exact absurd (.inr (.inl ⟨hc, hst⟩)) ((h r hr).shut howner)

/-- The recorded calls, and the funding of the invoice after them. -/
def fundedSteps : List IndexerStep :=
  recordedCalls.map .event ++ [.event ⟨recordedEvent "e3" "AAAADwAAAAxmdW5kX2ludm9pY2U=" []
    "AAAACQAAAAAAAAAAAAAAAAAAA4Q=", 0, .ok .other, noFaults⟩]

/-- A request on the recorded invoice. -/
def patchRequest (userAddress status : String) : PatchStatusRequest :=
  ⟨userAddress, "req-1", recordedInvoice.id, .ok status⟩

theorem fundedSteps_row :
    ((indexerRun (recordedListener 3) fundedSteps freshDb).tables.invoices.find?
      recordedInvoice.id).map (fun r => (r.issuer, r.status)) =
        some (recordedInvoice.issuer, .funded) := by
  decide +kernel

theorem fundedSteps_reachable :
    IndexerReachable (recordedListener 3) (indexerRun (recordedListener 3) fundedSteps freshDb) :=
  ⟨freshDb, fundedSteps, rfl, rfl⟩

/-- The created invoice is its issuer's, and a request to cancel it is answered with a 500. -/
theorem createdSteps_cancel :
    ((indexerRun (recordedListener 3) (fundedSteps.take 1) freshDb).tables.invoices.find?
        recordedInvoice.id).map (fun r => (r.issuer, r.status)) =
          some (recordedInvoice.issuer, .created)
      ∧ (handlePatchInvoiceStatus (patchRequest recordedInvoice.issuer "Cancelled") noFaults
        (indexerRun (recordedListener 3) (fundedSteps.take 1) freshDb)).1.code = 500 := by
  decide +kernel

/-- A funded invoice is put back to `Created` by anyone who asks. -/
theorem patch_back_disregards {s : Db} {user : String} (hfit : RowsFit s.tables)
    (hbefore : (s.tables.invoices.find? recordedInvoice.id).map (fun r => (r.issuer, r.status)) =
      some (recordedInvoice.issuer, .funded)) :
    ¬ PatchRespects (patchRequest user "Created") "Created" s.tables
      (handlePatchInvoiceStatus (patchRequest user "Created") noFaults s) := by
  intro h
  obtain ⟨r, hr, hrow⟩ := Option.map_eq_some_iff.1 hbefore
  obtain ⟨-, hs⟩ := Prod.mk.inj hrow
  have hpatched : (patchRequest user "Created").patched "Created" r =
      { r with status := .created } := by
    simp [PatchStatusRequest.patched, patchRequest, recordedInvoice, DbInvoice.deployed, hs,
      InvoiceStatus.ofString?]
  have hid : recordedInvoice.id = (patchRequest user "Created").id := rfl
  have hr' := handlePatchInvoiceStatus_row
    (rfl : (patchRequest user "Created").body = .ok "Created")
    hfit recordedInvoice.id
  rw [if_pos hid, hr, Option.map_some, hpatched] at hr'
  have hforward := h.forward r _ hr hr'
  rw [hs] at hforward
  rcases hforward with heq | hedge
  · cases heq
  · cases hedge

/-- The buyer puts a funded invoice back to `Created`, and the issuer cannot cancel a created
one. -/
theorem handlePatchInvoiceStatus_disregards :
    let L := recordedListener 3
    let back := patchRequest recordedInvoice.buyer "Created"
    let cancel := patchRequest recordedInvoice.issuer "Cancelled"
    let s := indexerRun L fundedSteps freshDb
    let s₁ := indexerRun L (fundedSteps.take 1) freshDb
    ¬ PatchRespects back "Created" s.tables (handlePatchInvoiceStatus back noFaults s)
      ∧ ¬ PatchRespects cancel "Cancelled" s₁.tables
        (handlePatchInvoiceStatus cancel noFaults s₁) := by
  refine ⟨patch_back_disregards fundedSteps_reachable.fits fundedSteps_row, ?_⟩
  obtain ⟨hbefore, hcode⟩ := createdSteps_cancel
  generalize indexerRun (recordedListener 3) (fundedSteps.take 1) freshDb = s at hbefore hcode ⊢
  intro h
  obtain ⟨r, hr, hrow⟩ := Option.map_eq_some_iff.1 hbefore
  obtain ⟨howner, hs⟩ := Prod.mk.inj hrow
  have hok := h.cancels r hr hs howner.symm rfl
  rw [hcode] at hok
  cases hok

theorem handlePatchInvoiceStatus_respects_shipping :
    PatchRespects (patchRequest recordedInvoice.issuer "Active") "Active"
      (indexerRun (recordedListener 3) fundedSteps freshDb).tables
      (handlePatchInvoiceStatus (patchRequest recordedInvoice.issuer "Active") noFaults
        (indexerRun (recordedListener 3) fundedSteps freshDb)) := by
  have hreach := fundedSteps_reachable
  have hbefore := fundedSteps_row
  generalize indexerRun (recordedListener 3) fundedSteps freshDb = s at hreach hbefore ⊢
  refine (handlePatchInvoiceStatus_respects_iff (recordedListener 3) hreach rfl).2 fun r hr => ?_
  obtain ⟨r₀, hr₀, hrow⟩ := Option.map_eq_some_iff.1 hbefore
  obtain ⟨howner, hs⟩ := Prod.mk.inj hrow
  obtain rfl : r₀ = r := Option.some.inj (hr₀.symm.trans hr)
  refine ⟨fun _ => ⟨howner.symm, .inr (.inl ⟨hs, rfl⟩)⟩, fun _ => by simp [hs], fun hid => ?_⟩
  exact absurd hid (by decide)

end TrusTrove
