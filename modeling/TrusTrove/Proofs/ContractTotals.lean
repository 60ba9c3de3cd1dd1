import TrusTrove.Proofs.Aggregates
import TrusTrove.Proofs.Refinement

/-!
# The totals are the contract's

Once a run of the contract has been delivered, the rows of `invoices` are its invoices, one each:
`Refines` finds the row of an invoice, and `Named` the invoice of a row, since only the event of a
creation inserts one. So what `getProtocolStats` counts and sums over rows is counted and summed
over the invoices on the chain.
-/

namespace TrusTrove

open Sql

/-- The invoices of the contract that are as `P` says. -/
def Contract.ids (C : Contract) (P : ContractInvoice → Prop) : Set InvoiceID :=
  {id | ∃ inv, C id = some inv ∧ P inv}

/-- Every row is that of an invoice. -/
def Named (C : Contract) (w : Tables) : Prop := ∀ k r, w.invoices.find? k = some r →
  ∃ id, (C id).isSome ∧ hexEncode id.bytes = k

section Named

variable {L : EventListener} {C C' : Contract} {e : Emission} {s : Db}

theorem Contract.step_isSome (h : C.step e = some C') :
    (C' e.id).isSome ∧ ∀ id, (C id).isSome → (C' id).isSome := by
  unfold Contract.step at h
  split at h
  · obtain ⟨inv, -, rfl⟩ := Option.map_eq_some_iff.1 h
    refine ⟨by simp, fun id hid => ?_⟩
    by_cases heq : id = e.id
    · simp [heq]
    · rwa [Function.update_of_ne heq]
  · obtain ⟨inv, -, rfl⟩ := Option.map_eq_some_iff.1 h
    refine ⟨by simp, fun id hid => ?_⟩
    by_cases heq : id = e.id
    · simp [heq]
    · rwa [Function.update_of_ne heq]

/-- Only a creation inserts a row, under the id it carries. -/
theorem Named.handleEvent (h : Named C s.tables) (hsdk : StrkeyWidth L.sdk) (hemit : Emits L e)
    (hid : (C' e.id).isSome) (hdom : ∀ id, (C id).isSome → (C' id).isSome)
    (stats : Except GoError ScVal) (now : ℕ) :
    Named C' (handleEvent L stats now noFaults s e.event).2.tables := by
  have hkeep : ∀ k r, s.tables.invoices.find? k = some r →
      ∃ id, (C' id).isSome ∧ hexEncode id.bytes = k := by
    intro k r hr
    obtain ⟨id, hsome, hk⟩ := h k r hr
    exact ⟨id, hdom id hsome, hk⟩
  obtain ⟨name, hname, hkind⟩ := hemit.name
  by_cases hop : e.op.kind = .created
  · obtain ⟨hreg, hatt⟩ := e.op.kind_ne
    have hclosed := hemit.closedAt now
    have hyear := hemit.year
    obtain ⟨id, op, t, event⟩ := e
    cases op <;> simp only [ContractOp.kind, reduceCtorEq] at hop
    case create issuer buyer hi lo due =>
      have happ := runHandler_creates (c := ⟨s.tables, s.shared, false, s.tick + 1, s.failed⟩)
        stats name hsdk hemit rfl
      simp only at hclosed hyear
      rw [← hclosed] at happ hyear
      obtain ⟨-, hk⟩ :=
        handleEvent_applies hname hkind hreg hatt hyear hemit.width.1 hemit.width.2 happ
      intro k r hr
      rw [hk] at hr
      split_ifs at hr with heq
      · exact ⟨id, hid, heq.symm⟩
      · exact hkeep k r hr
  · intro k r hr
    rcases handleEvent_kind L stats now e.event noFaults s with
      hsame | ⟨name', kind, hname', hkind', hwrites⟩
    · rw [hsame] at hr
      exact hkeep k r hr
    · obtain rfl : name = name' := Except.ok.inj (hname.symm.trans hname')
      obtain rfl : e.op.kind = kind := Option.some.inj (hkind.symm.trans hkind')
      have hchange := hwrites k
      rw [hr] at hchange
      generalize hold : s.tables.invoices.find? k = old at hchange
      cases hchange with
      | keep => exact hkeep k r hold
      | create _ hc => exact absurd hc hop
      | move r₀ _ _ => exact hkeep k r₀ hold

theorem delivered_named (hsdk : StrkeyWidth L.sdk) (hs : s.tables.invoices = Table.empty)
    {es : List Emission} {calls : List HandleCall} (hdel : Delivers es calls) :
    ∀ {C : Contract}, (∀ e ∈ es, Emits L e) → Contract.run es = some C →
      Named C (handleRun L calls s).tables := by
  induction hdel with
  | nil =>
    intro C _ _ k r hr
    simp [handleRun, hs] at hr
  | first e call _ he hf ih =>
    intro C' hemit hrun
    obtain ⟨C, hC, hstep⟩ := Contract.run_snoc hrun
    obtain ⟨hid, hdom⟩ := Contract.step_isSome hstep
    have hx := hemit e (List.mem_append_right _ List.mem_cons_self)
    rw [handleRun_snoc, he, hf]
    exact (ih (fun x hx => hemit x (List.mem_append_left _ hx)) hC).handleEvent hsdk hx hid hdom _ _
  | again e call hdel hmem he hf ih =>
    intro C hemit hrun
    obtain ⟨inv, hinv, -⟩ := (delivered_refines hsdk hs hdel hemit hrun).2 e hmem
    rw [handleRun_snoc, he, hf]
    exact (ih hemit hrun).handleEvent hsdk (hemit e hmem) (by simp [hinv]) (fun _ h => h) _ _

end Named

section Totals

/-- The capital of the invoice is out: it is funded, and not repaid or defaulted. -/
def ContractInvoice.deployed (inv : ContractInvoice) : Prop :=
  inv.status = .funded ∨ inv.status = .active ∨ inv.status = .confirmed

/-- The invoice was financed, and has not defaulted. -/
def ContractInvoice.financed (inv : ContractInvoice) : Prop :=
  inv.deployed ∨ inv.status = .repaid

/-- What the totals of a contract are. -/
structure ProtocolStats.Reports (a : ProtocolStats) (C : Contract) : Prop where
  invoices : a.totalInvoices = (C.ids fun _ => True).ncard
  active : a.activeInvoiceCount = (C.ids ContractInvoice.deployed).ncard
  repaid : a.totalRepaid = (C.ids fun inv => inv.status = .repaid).ncard
  defaulted : a.totalDefaulted = (C.ids fun inv => inv.status = .defaulted).ncard
  financed : a.totalUSDCFinanced =
    ∑ᶠ id ∈ C.ids ContractInvoice.financed, ((C id).elim 0 fun inv => (inv.fundedAmount : ℤ))
  averageYield : a.averageYieldBps = roundNumeric
    ((∑ᶠ id ∈ C.ids ContractInvoice.financed, ((C id).elim 0 fun inv => (inv.discountBps : ℚ)))
      / (C.ids ContractInvoice.financed).ncard)

theorem InvoiceID.hexEncode_injective :
    Function.Injective fun id : InvoiceID => hexEncode id.bytes :=
  fun _ _ h => InvoiceID.hex_injective h

variable {sdk : Sdk} {C : Contract} {w : Tables} {p : DbInvoice → Bool} {P : ContractInvoice → Prop}

/-- The selected rows are those of the selected invoices. -/
theorem Refines.selected (h : Refines sdk C w) (hn : Named C w)
    (hP : ∀ inv r, Projects sdk inv r → (p r = true ↔ P inv)) (k : String) :
    (∃ r, w.invoices.find? k = some r ∧ p r = true)
      ↔ ∃ id ∈ C.ids P, hexEncode id.bytes = k := by
  constructor
  · rintro ⟨r, hr, hp⟩
    obtain ⟨id, hsome, rfl⟩ := hn k r hr
    obtain ⟨inv, hinv⟩ := Option.isSome_iff_exists.1 hsome
    obtain ⟨r', hr', hproj⟩ := (h id).2 inv hinv
    obtain rfl : r = r' := Option.some.inj (hr.symm.trans hr')
    exact ⟨id, ⟨inv, hinv, (hP inv r hproj).1 hp⟩, rfl⟩
  · rintro ⟨id, ⟨inv, hinv, hinvP⟩, rfl⟩
    obtain ⟨r, hr, hproj⟩ := (h id).2 inv hinv
    exact ⟨r, hr, (hP inv r hproj).2 hinvP⟩

theorem Refines.count_eq (h : Refines sdk C w) (hn : Named C w)
    (hP : ∀ inv r, Projects sdk inv r → (p r = true ↔ P inv)) :
    w.invoices.count p = (C.ids P).ncard :=
  Table.count_eq_ncard InvoiceID.hexEncode_injective (h.selected hn hP)

theorem Refines.sum_eq (h : Refines sdk C w) (hn : Named C w)
    (hP : ∀ inv r, Projects sdk inv r → (p r = true ↔ P inv)) {M : Type} [AddCommMonoid M]
    {f : DbInvoice → M} {g : ContractInvoice → M} (hg : ∀ inv r, Projects sdk inv r → f r = g inv) :
    w.invoices.sum p f = ∑ᶠ id ∈ C.ids P, (C id).elim 0 g := by
  refine Table.sum_eq_finsum InvoiceID.hexEncode_injective (h.selected hn hP) fun id hid r hr => ?_
  obtain ⟨inv, hinv, -⟩ := hid
  obtain ⟨r', hr', hproj⟩ := (h id).2 inv hinv
  obtain rfl : r = r' := Option.some.inj (hr.symm.trans hr')
  rw [hinv]
  exact hg inv r hproj

theorem Projects.deployed_iff {inv : ContractInvoice} {r : DbInvoice} (h : Projects sdk inv r) :
    r.deployed = true ↔ inv.deployed := by
  rw [DbInvoice.deployed_iff, h.status]
  rfl

theorem Projects.financed_iff {inv : ContractInvoice} {r : DbInvoice} (h : Projects sdk inv r) :
    r.financed = true ↔ inv.financed := by
  simp only [DbInvoice.financed, Bool.or_eq_true, decide_eq_true_eq, h.deployed_iff, h.status]
  rfl

theorem Refines.reports (h : Refines sdk C w) (hn : Named C w) (p : Shared) :
    (protocolStats w p).Reports C where
  invoices := h.count_eq hn fun _ _ _ => by simp
  active := h.count_eq hn fun _ _ hr => hr.deployed_iff
  repaid := h.count_eq hn fun _ _ hr => by rw [decide_eq_true_eq, hr.status]
  defaulted := h.count_eq hn fun _ _ hr => by rw [decide_eq_true_eq, hr.status]
  financed := h.sum_eq hn (fun _ _ hr => hr.financed_iff) fun _ _ hr => hr.fundedAmount
  averageYield := by
    have hcount := h.count_eq hn fun _ _ hr => Projects.financed_iff hr
    have hsum := h.sum_eq hn (fun _ _ hr => Projects.financed_iff hr)
      (f := fun r => (r.discountBps : ℚ)) (g := fun inv => (inv.discountBps : ℚ))
      fun _ _ hr => by exact_mod_cast hr.discountBps
    simp only [protocolStats, Table.avg]
    split_ifs with hzero
    · rw [hcount] at hzero
      rw [hzero]
      simp
    · rw [Option.getD_some, hsum, hcount]

end Totals

/-- Whatever run of the contract has been delivered, in order and with any repetitions, an answer of
`GetProtocolStats` counts the contract's invoices by their states, and sums their amounts. -/
theorem protocol_stats_report_contract (L : EventListener) (hsdk : StrkeyWidth L.sdk) {s : Db}
    (hs : s.tables.invoices = Table.empty) {es : List Emission} {C : Contract}
    {calls : List HandleCall} (hrun : Contract.run es = some C) (hemit : ∀ e ∈ es, Emits L e)
    (hdel : Delivers es calls) {O : ℕ → Bool} {a : ProtocolStats}
    (ha : (getProtocolStats O (handleRun L calls s)).1 = .ok a) : a.Reports C := by
  obtain rfl := getProtocolStats_ok ha
  obtain ⟨href, -⟩ := delivered_refines hsdk hs hdel hemit hrun
  exact href.reports (delivered_named hsdk hs hdel hemit hrun) _

theorem protocol_stats_report_contract_recorded :
    ∃ C a, Contract.run recordedRun = some C
      ∧ (getProtocolStats noFaults (handleRun (recordedListener 3) recordedCalls freshDb)).1 = .ok a
      ∧ a.Reports C ∧ (C.ids fun _ => True).ncard = 1 := by
  obtain ⟨C, hC⟩ : ∃ C, Contract.run recordedRun = some C := ⟨_, rfl⟩
  have ha : (getProtocolStats noFaults
    (handleRun (recordedListener 3) recordedCalls freshDb)).1 = .ok (protocolStats _ _) := rfl
  have h := protocol_stats_report_contract (recordedListener 3) recordedSdk_strkeyWidth rfl hC
    recordedRun_emits recordedCalls_delivers ha
  refine ⟨C, _, hC, ha, h, ?_⟩
  rw [← h.invoices, recordedCalls_tables]
  decide +kernel

end TrusTrove
