import TrusTrove.Reads
import TrusTrove.Proofs.Applied

/-!
# The aggregates over a run

Rows stay and move along the lifecycle only, so what a lifetime counter counts of them stays
counted: the totals of `getProtocolStats` and `getPartyHistory` do not go down, whatever events are
handled and whatever fails. A row has been funded exactly when it is deployed, repaid or defaulted
(`DbInvoice.Consistent.funded`), which is how the counters add up.
-/

namespace TrusTrove

open Sql Relation

section Rows

/-- The amounts of a row are within the columns' domains. -/
def InvoicesFit (w : Tables) : Prop := ∀ r ∈ w.invoices.rows, r.fits = true

theorem TableWrites.rowsFit {ev : String} {w w' : Tables} (h : TableWrites ev w w')
    (hw : InvoicesFit w) : InvoicesFit w' := by
  induction h with
  | refl => exact hw
  | tail _ hstep ih =>
    cases hstep with
    | tail hstep => cases hstep <;> exact ih
    | create inv hfits _ =>
      intro r hr
      have hfind := Table.find?_of_mem hr
      rw [Table.find?_insertNew] at hfind
      split_ifs at hfind
      · rcases Option.or_eq_some_iff.1 hfind with hold | ⟨-, hnew⟩
        · exact ih r (Table.mem_of_find? hold)
        · exact Option.some.inj hnew ▸ hfits
      · exact ih r (Table.mem_of_find? hfind)
    | move t id r r' hr hstep hfits ht =>
      intro x hx
      have hfind := Table.find?_of_mem hx
      rw [ht] at hfind
      split_ifs at hfind
      · exact Option.some.inj hfind ▸ hfits
      · exact ih x (Table.mem_of_find? hfind)

theorem handleRun_invoicesFit (L : EventListener) :
    ∀ (calls : List HandleCall) (s : Db), InvoicesFit s.tables →
      InvoicesFit (handleRun L calls s).tables
  | [], _, hs => hs
  | c :: calls, s, hs =>
    handleRun_invoicesFit L calls _
      ((handleEvent_writes L c.stats c.now c.event c.fails s).1.rowsFit hs)

/-- `events_log` is only added to. -/
theorem TableWrites.eventsLog {ev : String} {w w' : Tables} (h : TableWrites ev w w') :
    w.eventsLog.rows <+: w'.eventsLog.rows := by
  induction h with
  | refl => exact List.prefix_refl _
  | tail _ hstep ih =>
    cases hstep with
    | tail hstep =>
      cases hstep with
      | log row _ _ =>
        refine ih.trans ?_
        simp only [Table.insertNew]
        split_ifs
        · exact List.prefix_refl _
        · exact List.prefix_append _ _
      | deliver d => exact ih
    | create inv _ _ => exact ih
    | move t id r r' _ _ _ _ => exact ih

theorem handleRun_eventsLog (L : EventListener) : ∀ (calls : List HandleCall) (s : Db),
    s.tables.eventsLog.rows <+: (handleRun L calls s).tables.eventsLog.rows
  | [], _ => List.prefix_refl _
  | c :: calls, s =>
    (handleEvent_writes L c.stats c.now c.event c.fails s).1.eventsLog.trans
      (handleRun_eventsLog L calls _)

end Rows

section Snapshot

/-- The pool's snapshot stays within the columns' domains. -/
def SnapshotFits (p p' : Shared) : Prop :=
  p.poolSnapshot.fits = true → p'.poolSnapshot.fits = true

instance : Std.Refl SnapshotFits := ⟨fun _ h => h⟩

instance : IsTrans Shared SnapshotFits := ⟨fun _ _ _ h h' hp => h' (h hp)⟩

theorem syncPoolStats_snapshotFits {R : Tables → Tables → Prop} [Std.Refl R] [IsTrans Tables R]
    (stats : Except GoError ScVal) : Respects R SnapshotFits (syncPoolStats stats) := by
  refine .bind (.attempt (.bind (.ofExcept _) fun v => .mapError _ ?_)) fun _ => .pure _
  refine .bind (.mapError _ (.onPool _ fun p a p' h => ?_)) fun _ =>
    .mapError _ (.onPool _ fun p a p' h => ?_)
  · split_ifs at h with hfits
    cases h
    exact fun _ => hfits
  · cases h
    exact fun hp => hp

theorem handleEvent_snapshotFits (L : EventListener) (c : HandleCall) (s : Db) :
    SnapshotFits s.shared (handleEvent L c.stats c.now c.fails s c.event).2.shared := by
  unfold handleEvent
  split
  · exact refl_of SnapshotFits s.shared
  · split
    · exact refl_of SnapshotFits s.shared
    · exact ((eventBody_respects L c.stats c.now c.event _ fun kind _ =>
        runHandler_respects L.sdk c.stats c.event _ _ kind fun _ =>
          syncPoolStats_snapshotFits c.stats).withTx _ _ c.fails s).2

theorem handleRun_snapshotFits (L : EventListener) : ∀ (calls : List HandleCall) (s : Db),
    SnapshotFits s.shared (handleRun L calls s).shared
  | [], s => refl_of SnapshotFits s.shared
  | c :: calls, s =>
    trans_of SnapshotFits (handleEvent_snapshotFits L c s) (handleRun_snapshotFits L calls _)

end Snapshot

section Counters

variable {w w' : Tables}

theorem RowsEvolve.count_le (h : RowsEvolve w w') {p q : DbInvoice → Bool}
    (hp : ∀ r r', r.Evolves r' → p r = true → q r' = true) :
    w.invoices.count p ≤ w'.invoices.count q := by
  refine Table.count_le_count fun k r hr hpr => ?_
  obtain ⟨r', hr', he⟩ := h k r hr
  exact ⟨r', hr', hp r r' he hpr⟩

theorem DbInvoice.Evolves.involves {r r' : DbInvoice} (h : r.Evolves r') (address : String) :
    r'.involves address = r.involves address := by
  simp only [DbInvoice.involves, h.issuer, h.buyer]

theorem DbInvoice.Evolves.settled {r r' : DbInvoice} (h : r.Evolves r') {st : InvoiceStatus}
    (hst : st = .repaid ∨ st = .defaulted) (hr : r.status = st) : r'.status = st := by
  subst hr
  exact lifecycle_terminal h.status hst

theorem DbInvoice.Evolves.funded {r r' : DbInvoice} (h : r.Evolves r')
    (hr : r.fundedAt.isSome = true) : r'.fundedAt.isSome = true := by
  obtain ⟨t, ht⟩ := Option.isSome_iff_exists.1 hr
  rw [h.fundedAt t ht]
  rfl

/-- A row that is funded is deployed, repaid or defaulted, one of them. -/
theorem RowsWf.count_funded (hw : RowsWf w) (q : DbInvoice → Bool) :
    (w.invoices.count fun r => q r && r.deployed)
        + (w.invoices.count fun r => q r && r.status = .repaid)
        + (w.invoices.count fun r => q r && r.status = .defaulted)
      = w.invoices.count fun r => q r && r.fundedAt.isSome := by
  rw [Table.count_add, Table.count_add]
  · refine Table.count_congr fun r hr => ?_
    have hfunded := (hw _ r (Table.find?_of_mem hr)).funded
    rw [Bool.eq_iff_iff]
    simp only [Bool.or_eq_true, Bool.and_eq_true, decide_eq_true_eq, hfunded,
      DbInvoice.deployed_iff]
    tauto
  all_goals
    intro r _
    simp only [Bool.or_eq_true, Bool.and_eq_true, decide_eq_true_eq, DbInvoice.deployed_iff]
    rintro ⟨h, -, h'⟩
    simp [h'] at h

end Counters

section Protocol

/-- The lifetime counters have not gone down. -/
structure ProtocolStats.Advances (a b : ProtocolStats) : Prop where
  invoices : a.totalInvoices ≤ b.totalInvoices
  repaid : a.totalRepaid ≤ b.totalRepaid
  defaulted : a.totalDefaulted ≤ b.totalDefaulted
  funded : a.activeInvoiceCount + a.totalRepaid + a.totalDefaulted ≤
    b.activeInvoiceCount + b.totalRepaid + b.totalDefaulted
  issuers : a.registeredIssuers ≤ b.registeredIssuers

/-- The aggregates agree with each other and with the amounts of the rows. -/
structure ProtocolStats.Consistent (a : ProtocolStats) (w : Tables) : Prop where
  invoices : a.activeInvoiceCount + a.totalRepaid + a.totalDefaulted ≤ a.totalInvoices
  financed_nonneg : 0 ≤ a.totalUSDCFinanced
  financed_le : a.totalUSDCFinanced ≤ w.invoices.sum DbInvoice.financed (·.faceValue)
  yield_nonneg : 0 ≤ a.averageYieldBps
  yield_le : a.averageYieldBps ≤ 5000
  utilization_nonneg : 0 ≤ a.poolUtilizationBps
  utilization_le : a.poolUtilizationBps ≤ 10000

variable {w w' : Tables} {p p' : Shared}

theorem protocolStats_funded (hw : RowsWf w) :
    (protocolStats w p).activeInvoiceCount + (protocolStats w p).totalRepaid
        + (protocolStats w p).totalDefaulted
      = w.invoices.count fun r => r.fundedAt.isSome := by
  have h := hw.count_funded fun _ => true
  simp only [Bool.true_and] at h
  exact h

theorem protocolStats_advances (hw : RowsWf w) (hw' : RowsWf w') (h : RowsEvolve w w')
    (hlog : w.eventsLog.rows <+: w'.eventsLog.rows) :
    (protocolStats w p).Advances (protocolStats w' p') where
  invoices := h.count_le fun _ _ _ hr => hr
  repaid := h.count_le fun r r' he hr => by
    simp only [decide_eq_true_eq] at hr ⊢
    exact he.settled (.inl rfl) hr
  defaulted := h.count_le fun r r' he hr => by
    simp only [decide_eq_true_eq] at hr ⊢
    exact he.settled (.inr rfl) hr
  funded := by
    rw [protocolStats_funded hw, protocolStats_funded hw']
    exact h.count_le fun r r' he hr => he.funded hr
  issuers := by
    simp only [protocolStats]
    refine Finset.card_le_card fun address haddress => ?_
    rw [List.mem_toFinset] at haddress ⊢
    exact (hlog.filterMap registeredAddress).subset haddress

theorem protocolStats_consistent (hw : RowsWf w) (hfit : InvoicesFit w)
    (hp : p.poolSnapshot.fits = true) : (protocolStats w p).Consistent w := by
  have hamounts : ∀ r ∈ w.invoices.rows, 0 ≤ r.fundedAmount ∧ r.fundedAmount ≤ r.faceValue
      ∧ 0 ≤ r.discountBps ∧ r.discountBps ≤ 5000 := by
    intro r hr
    have := hfit r hr
    simp only [DbInvoice.fits, Bool.and_eq_true, decide_eq_true_eq] at this
    omega
  have hyield : (0 : ℚ) ≤ (w.invoices.avg DbInvoice.financed (·.discountBps)).getD 0
      ∧ (w.invoices.avg DbInvoice.financed (·.discountBps)).getD 0 ≤ (5000 : ℚ) := by
    rcases havg : w.invoices.avg DbInvoice.financed (·.discountBps) with _ | x
    · norm_num
    · refine Table.avg_mem_Icc (fun r hr _ => ?_) havg
      obtain ⟨-, -, h₁, h₂⟩ := hamounts r hr
      exact ⟨by exact_mod_cast h₁, by exact_mod_cast h₂⟩
  simp only [DbPoolStats.fits, Bool.and_eq_true, decide_eq_true_eq] at hp
  exact
    { invoices := by
        rw [protocolStats_funded hw]
        exact Table.count_mono fun _ _ _ => rfl
      financed_nonneg := Table.sum_nonneg fun r hr _ => (hamounts r hr).1
      financed_le := Table.sum_le_sum fun r hr _ => (hamounts r hr).2.1
      yield_nonneg := le_roundNumeric (by exact_mod_cast hyield.1)
      yield_le := roundNumeric_le (by exact_mod_cast hyield.2)
      utilization_nonneg := hp.1
      utilization_le := hp.2 }

theorem getProtocolStats_ok {O : ℕ → Bool} {s : Db} {a : ProtocolStats}
    (h : (getProtocolStats O s).1 = .ok a) : a = protocolStats s.tables s.shared := by
  unfold getProtocolStats at h
  split_ifs at h
  exact (Except.ok.inj h).symm

end Protocol

section Party

/-- The settled invoices of a party stay settled, and an overdue one is overdue until it is
settled. -/
structure PartyHistory.Advances (a b : PartyHistory) : Prop where
  invoices : a.totalInvoices ≤ b.totalInvoices
  repaid : a.repaidInvoices ≤ b.repaidInvoices
  defaulted : a.defaultedInvoices ≤ b.defaultedInvoices
  due : a.lateInvoices + a.repaidInvoices + a.defaultedInvoices ≤
    b.lateInvoices + b.repaidInvoices + b.defaultedInvoices

/-- The counts add up, and there is an average exactly when an invoice was repaid. -/
structure PartyHistory.Consistent (a : PartyHistory) : Prop where
  invoices : a.lateInvoices + a.repaidInvoices + a.defaultedInvoices ≤ a.totalInvoices
  average : a.averageDaysLate.isSome ↔ 0 < a.repaidInvoices
  average_nonneg : ∀ x, a.averageDaysLate = some x → 0 ≤ x

variable {w w' : Tables} {address : String} {now now' : ℤ}

theorem DbInvoice.late_iff {r : DbInvoice} :
    r.late now = true ↔ r.dueDate < now ∧ r.status ≠ .repaid ∧ r.status ≠ .defaulted := by
  unfold late
  cases r.status <;> simp [InvoiceStatus.toString]

/-- The invoices a party must answer for at a time: those settled, and those overdue. -/
theorem partyHistory_due :
    (partyHistory w address now).lateInvoices + (partyHistory w address now).repaidInvoices
        + (partyHistory w address now).defaultedInvoices
      = w.invoices.count fun r => r.involves address
          && (r.late now || r.status = .repaid || r.status = .defaulted) := by
  simp only [partyHistory]
  rw [Table.count_add, Table.count_add]
  · refine Table.count_congr fun r _ => ?_
    cases r.involves address <;> simp
  all_goals
    intro r _
    simp only [Bool.or_eq_true, Bool.and_eq_true, decide_eq_true_eq, DbInvoice.late_iff]
    rintro ⟨h, -, h'⟩
    simp [h'] at h

theorem partyHistory_advances (h : RowsEvolve w w') (hnow : now ≤ now') :
    (partyHistory w address now).Advances (partyHistory w' address now') where
  invoices := h.count_le fun r r' he hr => by rw [he.involves, hr]
  repaid := h.count_le fun r r' he hr => by
    simp only [Bool.and_eq_true, decide_eq_true_eq] at hr ⊢
    exact ⟨by rw [he.involves, hr.1], he.settled (.inl rfl) hr.2⟩
  defaulted := h.count_le fun r r' he hr => by
    simp only [Bool.and_eq_true, decide_eq_true_eq] at hr ⊢
    exact ⟨by rw [he.involves, hr.1], he.settled (.inr rfl) hr.2⟩
  due := by
    rw [partyHistory_due, partyHistory_due]
    refine h.count_le fun r r' he hr => ?_
    simp only [Bool.and_eq_true, Bool.or_eq_true, decide_eq_true_eq, DbInvoice.late_iff] at hr ⊢
    obtain ⟨hparty, hr⟩ := hr
    refine ⟨by rw [he.involves, hparty], ?_⟩
    rcases hr with (⟨hdue, -, -⟩ | hr) | hr
    · rw [he.dueDate]
      have : r.dueDate < now' := by omega
      tauto
    · exact .inl (.inr (he.settled (.inl rfl) hr))
    · exact .inr (he.settled (.inr rfl) hr)

theorem partyHistory_consistent (hw : RowsWf w) : (partyHistory w address now).Consistent where
  invoices := by
    rw [partyHistory_due]
    refine Table.count_mono fun r _ hr => ?_
    simp only [Bool.and_eq_true] at hr
    exact hr.1
  average := by
    simp only [partyHistory]
    rw [Table.avg_isSome]
    refine Eq.to_iff (congrArg (0 < ·) (Table.count_congr fun r hr => ?_))
    have hrepaid := (hw _ r (Table.find?_of_mem hr)).repaid
    rw [Bool.eq_iff_iff]
    simp only [Bool.and_eq_true, decide_eq_true_eq, hrepaid]
    tauto
  average_nonneg := by
    intro x hx
    simp only [partyHistory, Table.avg] at hx
    split_ifs at hx
    obtain rfl := Option.some.inj hx
    refine div_nonneg (Table.sum_nonneg fun r _ _ => ?_) (Nat.cast_nonneg _)
    exact div_nonneg (by exact_mod_cast le_max_right _ _) (by norm_num)

theorem getPartyHistory_ok {O : ℕ → Bool} {s : Db} {a : PartyHistory}
    (h : (autocommit (getPartyHistory address now) O s).1 = .ok a) :
    a = partyHistory s.tables address now := by
  obtain ⟨w, hw, -⟩ := onTx_ok (mapError_ok (Prod.ext h rfl))
  split_ifs at hw
  cases hw
  rfl

theorem getPartyHistory_answers {s : Db} (h : delaysFit s.tables address = true) :
    (autocommit (getPartyHistory address now) noFaults s).1 =
      .ok (partyHistory s.tables address now) := by
  have hrun (f : Tables → Except GoError (PartyHistory × Tables))
      (hf : f s.tables = .ok (partyHistory s.tables address now, s.tables)) :
      (Prog.onTx driverError f noFaults ⟨s.tables, s.shared, false, s.tick, s.failed⟩).1
        = .ok (partyHistory s.tables address now) :=
    congrArg Prod.fst (onTx_run driverError rfl rfl hf)
  exact mapError_eq_ok.2 (hrun _ (if_pos h))

end Party

theorem handleRun_rowsWf (L : EventListener) (pre post : List HandleCall) {s : Db}
    (hs : s.tables.invoices = Table.empty) : RowsWf (handleRun L pre s).tables
      ∧ RowsWf (handleRun L (pre ++ post) s).tables
      ∧ RowsEvolve (handleRun L pre s).tables (handleRun L (pre ++ post) s).tables := by
  have hempty : RowsWf s.tables := by
    intro id r hr
    simp [hs] at hr
  obtain ⟨hpre, -⟩ := handleRun_rows L pre s hempty
  rw [handleRun_append]
  exact ⟨hpre, handleRun_rows L post _ hpre⟩

/-- Whatever events are handled, in whatever order and with any of their statements failing, every
answer of `GetProtocolStats` is consistent, and its lifetime counters are not below those of any
earlier answer. -/
theorem protocol_stats_over_runs (L : EventListener) (pre post : List HandleCall) (s : Db)
    (hs : s.tables.invoices = Table.empty) (hp : s.shared.poolSnapshot.fits = true)
    {O O' : ℕ → Bool} {a b : ProtocolStats}
    (ha : (getProtocolStats O (handleRun L pre s)).1 = .ok a)
    (hb : (getProtocolStats O' (handleRun L (pre ++ post) s)).1 = .ok b) :
    a.Advances b ∧ b.Consistent (handleRun L (pre ++ post) s).tables := by
  have hfit : InvoicesFit s.tables := by
    intro r hr
    simp [hs, Table.empty] at hr
  obtain ⟨hpre, hpost, hev⟩ := handleRun_rowsWf L pre post hs
  have hlog := handleRun_eventsLog L post (handleRun L pre s)
  rw [← handleRun_append] at hlog
  have hrows := handleRun_invoicesFit L (pre ++ post) s hfit
  have hsnap := handleRun_snapshotFits L (pre ++ post) s hp
  obtain rfl := getProtocolStats_ok ha
  obtain rfl := getProtocolStats_ok hb
  exact ⟨protocolStats_advances hpre hpost hev hlog, protocolStats_consistent hpost hrows hsnap⟩

theorem protocol_stats_over_runs_recorded :
    ∃ a b, (getProtocolStats noFaults (handleRun (recordedListener 3) [] freshDb)).1 = .ok a
      ∧ (getProtocolStats noFaults (handleRun (recordedListener 3) recordedCalls freshDb)).1 = .ok b
      ∧ a.Advances b ∧ b.totalInvoices = 1 := by
  have ha : (getProtocolStats noFaults (handleRun (recordedListener 3) [] freshDb)).1 = .ok _ := rfl
  have hb : (getProtocolStats noFaults
    (handleRun (recordedListener 3) ([] ++ recordedCalls) freshDb)).1
      = .ok (protocolStats _ _) := rfl
  refine ⟨_, _, ha, hb, (protocol_stats_over_runs (recordedListener 3) [] recordedCalls freshDb rfl
    (by decide) ha hb).1, ?_⟩
  rw [List.nil_append, recordedCalls_tables]
  decide +kernel

/-- Whatever events are handled, every answer of `GetPartyHistory` about an address is consistent,
and no later one has fewer of its invoices repaid, defaulted or due. -/
theorem party_history_over_runs (L : EventListener) (pre post : List HandleCall) (s : Db)
    (hs : s.tables.invoices = Table.empty) (address : String) {now now' : ℤ} (hnow : now ≤ now')
    {O O' : ℕ → Bool} {a b : PartyHistory}
    (ha : (autocommit (getPartyHistory address now) O (handleRun L pre s)).1 = .ok a)
    (hb : (autocommit (getPartyHistory address now') O' (handleRun L (pre ++ post) s)).1 = .ok b) :
    a.Advances b ∧ b.Consistent := by
  obtain ⟨-, hpost, hev⟩ := handleRun_rowsWf L pre post hs
  obtain rfl := getPartyHistory_ok ha
  obtain rfl := getPartyHistory_ok hb
  exact ⟨partyHistory_advances hev hnow, partyHistory_consistent hpost⟩

/-- The issuer of the recorded creation. -/
def recordedIssuer : String := "GAAQCAIBAEAQCAIBAEAQCAIBAEAQCAIBAEAQCAIBAEAQCAIBAEAQDZ7H"

theorem party_history_over_runs_recorded :
    ∃ a b, (autocommit (getPartyHistory recordedIssuer 0) noFaults
        (handleRun (recordedListener 3) [] freshDb)).1 = .ok a
      ∧ (autocommit (getPartyHistory recordedIssuer 2000000000) noFaults
        (handleRun (recordedListener 3) recordedCalls freshDb)).1 = .ok b
      ∧ a.Advances b ∧ b.lateInvoices = 1 := by
  have ha : (autocommit (getPartyHistory recordedIssuer 0) noFaults
    (handleRun (recordedListener 3) [] freshDb)).1 = .ok _ := rfl
  have hb : (autocommit (getPartyHistory recordedIssuer 2000000000) noFaults
      (handleRun (recordedListener 3) ([] ++ recordedCalls) freshDb)).1
        = .ok (partyHistory recordedTables recordedIssuer 2000000000) := by
    rw [List.nil_append, ← recordedCalls_tables]
    refine getPartyHistory_answers ?_
    rw [recordedCalls_tables]
    decide +kernel
  refine ⟨_, _, ha, hb, (party_history_over_runs (recordedListener 3) [] recordedCalls freshDb rfl
    recordedIssuer (by decide) ha hb).1, ?_⟩
  decide +kernel

end TrusTrove
