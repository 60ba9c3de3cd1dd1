import TrusTrove.LegacyRows

/-!
# Legacy rows after the migrations

Each cleanup statement of 012 establishes one constraint and keeps those before it; the funded
amount is held against a face value that is repaired already. A row that meets the constraints is
passed over by every statement. The `DELETE` of 013 leaves of each event of a subscription the least
row in the order of its ranking.
-/

namespace TrusTrove

open Sql

variable {ρ π : Type}

section Integrity

namespace LegacyInvoice

/-- `invoices_status_check`, and the two constraints on rates with it. -/
def RatesOk (r : LegacyInvoice ρ) : Prop :=
  invoiceStatuses.contains r.status = true ∧ (0 ≤ r.discountBps ∧ r.discountBps ≤ 5000) ∧
    ∀ score ∈ r.riskScoreBps, 0 ≤ score ∧ score ≤ 10000

theorem checks_iff {r : LegacyInvoice ρ} : r.checks = true ↔
    r.RatesOk ∧ 0 ≤ r.faceValue ∧ 0 ≤ r.fundedAmount ∧ r.fundedAmount ≤ r.faceValue := by
  simp [checks, RatesOk, Option.all_eq_true, and_assoc]

end LegacyInvoice

variable (lower : String → String)

theorem normalizeStatus_mem (status : String) :
    invoiceStatuses.contains (normalizeStatus lower status) = true := by
  unfold normalizeStatus
  split <;> rfl

theorem cleanupInvoices_checks (t : Table (LegacyInvoice ρ) LegacyInvoice.id) :
    ∀ r ∈ (cleanupInvoices lower t).rows, r.checks = true := by
  unfold cleanupInvoices
  refine Table.forall_updateWhere
    (Q := fun r => r.RatesOk ∧ 0 ≤ r.faceValue ∧ r.fundedAmount ≤ r.faceValue) ?_ ?_ ?_
  · refine Table.forall_updateWhere (Q := fun r => r.RatesOk ∧ 0 ≤ r.faceValue) ?_ ?_ ?_
    · refine Table.forall_updateWhere (Q := LegacyInvoice.RatesOk) ?_ ?_ ?_
      · refine Table.forall_updateWhere (Q := fun r => invoiceStatuses.contains r.status = true ∧
          0 ≤ r.discountBps ∧ r.discountBps ≤ 5000) ?_ ?_ ?_
        · refine Table.forall_updateWhere
            (Q := fun r => invoiceStatuses.contains r.status = true) ?_ ?_ ?_
          · refine Table.forall_updateWhere (Q := fun _ => True) (fun _ _ => trivial) ?_ ?_
            · exact fun r _ _ => normalizeStatus_mem lower r.status
            · exact fun r _ hp => by simpa using hp
          · exact fun r hr _ => ⟨hr, by norm_num⟩
          · exact fun r hr hp => ⟨hr, by simpa using hp⟩
        · exact fun r hr _ => ⟨hr.1, hr.2, by simp⟩
        · refine fun r hr hp => ⟨hr.1, hr.2, fun score hscore => ?_⟩
          rw [Option.mem_def] at hscore
          simpa [hscore] using hp
      · exact fun r hr _ => ⟨hr, le_rfl⟩
      · exact fun r hr hp => ⟨hr, by simpa using hp⟩
    · exact fun r hr _ => ⟨hr.1, hr.2, le_rfl⟩
    · exact fun r hr hp => ⟨hr.1, hr.2, by simpa using hp⟩
  · exact fun r hr _ => LegacyInvoice.checks_iff.2 ⟨hr.1, hr.2.1, le_rfl, hr.2.1⟩
  · exact fun r hr hp => LegacyInvoice.checks_iff.2 ⟨hr.1, hr.2.1, by simpa using hp, hr.2.2⟩

/-- No statement on `invoices` applies to a row that meets the constraints. -/
theorem cleanup_guards {r : LegacyInvoice ρ} (h : r.checks = true) :
    (!invoiceStatuses.contains r.status) = false ∧
      (decide (r.discountBps < 0) || decide (5000 < r.discountBps)) = false ∧
      (r.riskScoreBps.any fun score => decide (score < 0) || decide (10000 < score)) = false ∧
      decide (r.faceValue < 0) = false ∧ decide (r.faceValue < r.fundedAmount) = false ∧
      decide (r.fundedAmount < 0) = false := by
  obtain ⟨⟨hstatus, hdiscount, hrisk⟩, hface, hfunded, hle⟩ := LegacyInvoice.checks_iff.1 h
  refine ⟨by rw [hstatus]; rfl, by simpa using hdiscount, ?_, by simpa using hface,
    by simpa using hle, by simpa using hfunded⟩
  cases hr : r.riskScoreBps with
  | none => rfl
  | some score => simpa using hrisk score hr

theorem mem_cleanupInvoices {t : Table (LegacyInvoice ρ) LegacyInvoice.id} {r : LegacyInvoice ρ}
    (hr : r ∈ t.rows) (h : r.checks = true) : r ∈ (cleanupInvoices lower t).rows := by
  obtain ⟨hstatus, hdiscount, hrisk, hface, hle, hfunded⟩ := cleanup_guards h
  unfold cleanupInvoices
  refine Table.mem_updateWhere ?_ hfunded
  refine Table.mem_updateWhere ?_ hle
  refine Table.mem_updateWhere ?_ hface
  refine Table.mem_updateWhere ?_ hrisk
  refine Table.mem_updateWhere ?_ hdiscount
  exact Table.mem_updateWhere hr hstatus

theorem cleanupInvoices_eq_self {t : Table (LegacyInvoice ρ) LegacyInvoice.id}
    (h : ∀ r ∈ t.rows, r.checks = true) : cleanupInvoices lower t = t := by
  have hguards := fun r hr => cleanup_guards (h r hr)
  unfold cleanupInvoices
  dsimp only
  rw [Table.updateWhere_eq_self fun r hr => (hguards r hr).1,
    Table.updateWhere_eq_self fun r hr => (hguards r hr).2.1,
    Table.updateWhere_eq_self fun r hr => (hguards r hr).2.2.1,
    Table.updateWhere_eq_self fun r hr => (hguards r hr).2.2.2.1,
    Table.updateWhere_eq_self fun r hr => (hguards r hr).2.2.2.2.1,
    Table.updateWhere_eq_self fun r hr => (hguards r hr).2.2.2.2.2]

theorem cleanupPoolSnapshots_checks (t : Table (LegacyPoolSnapshot π) LegacyPoolSnapshot.id) :
    ∀ r ∈ (cleanupPoolSnapshots t).rows, r.checks = true := by
  unfold cleanupPoolSnapshots
  refine Table.forall_updateWhere (Q := fun r => r.id = 1) (fun r hr => ?_) (fun r hr _ => ?_)
    fun r hr hp => ?_
  · simpa using (Table.mem_deleteWhere.1 hr).2
  · simp [LegacyPoolSnapshot.checks, hr]
  · simpa [LegacyPoolSnapshot.checks, hr] using hp

theorem poolSnapshot_guards {r : LegacyPoolSnapshot π} (h : r.checks = true) :
    decide (r.id ≠ 1) = false ∧
      (decide (r.utilizationRateBps < 0) || decide (10000 < r.utilizationRateBps)) = false := by
  simpa [LegacyPoolSnapshot.checks] using h

theorem mem_cleanupPoolSnapshots {t : Table (LegacyPoolSnapshot π) LegacyPoolSnapshot.id}
    {r : LegacyPoolSnapshot π} (hr : r ∈ t.rows) (h : r.checks = true) :
    r ∈ (cleanupPoolSnapshots t).rows := by
  obtain ⟨hid, hrate⟩ := poolSnapshot_guards h
  unfold cleanupPoolSnapshots
  exact Table.mem_updateWhere (Table.mem_deleteWhere.2 ⟨hr, hid⟩) hrate

theorem cleanupPoolSnapshots_eq_self {t : Table (LegacyPoolSnapshot π) LegacyPoolSnapshot.id}
    (h : ∀ r ∈ t.rows, r.checks = true) : cleanupPoolSnapshots t = t := by
  have hguards := fun r hr => poolSnapshot_guards (h r hr)
  unfold cleanupPoolSnapshots
  dsimp only
  rw [Table.deleteWhere_eq_self fun r hr => (hguards r hr).1,
    Table.updateWhere_eq_self fun r hr => (hguards r hr).2]

theorem cleanupIndexerCheckpoint_checks (t : Table LegacyCheckpoint LegacyCheckpoint.key) :
    ∀ r ∈ (cleanupIndexerCheckpoint t).rows, r.checks = true :=
  Table.forall_updateWhere (Q := fun _ => True) (fun _ _ => trivial) (fun _ _ _ => rfl)
    fun r _ hp => by simpa [LegacyCheckpoint.checks] using hp

theorem mem_cleanupIndexerCheckpoint {t : Table LegacyCheckpoint LegacyCheckpoint.key}
    {r : LegacyCheckpoint} (hr : r ∈ t.rows) (h : r.checks = true) :
    r ∈ (cleanupIndexerCheckpoint t).rows := by
  unfold cleanupIndexerCheckpoint
  exact Table.mem_updateWhere hr (by simpa [LegacyCheckpoint.checks] using h)

/-- After the cleanup every row meets the constraints, the rows that met them are there as they
were, and a second cleanup changes nothing. -/
theorem cleanupLegacyRows_repairs (t : LegacyTables ρ π) :
    ((∀ r ∈ (cleanupLegacyRows lower t).invoices.rows, r.checks = true) ∧
      (∀ r ∈ (cleanupLegacyRows lower t).poolSnapshots.rows, r.checks = true) ∧
      ∀ r ∈ (cleanupLegacyRows lower t).indexerCheckpoint.rows, r.checks = true) ∧
    ((∀ r ∈ t.invoices.rows, r.checks = true → r ∈ (cleanupLegacyRows lower t).invoices.rows) ∧
      (∀ r ∈ t.poolSnapshots.rows, r.checks = true →
        r ∈ (cleanupLegacyRows lower t).poolSnapshots.rows) ∧
      ∀ r ∈ t.indexerCheckpoint.rows, r.checks = true →
        r ∈ (cleanupLegacyRows lower t).indexerCheckpoint.rows) ∧
    cleanupLegacyRows lower (cleanupLegacyRows lower t) = cleanupLegacyRows lower t := by
  have hinvoices := cleanupInvoices_checks lower t.invoices
  have hpool := cleanupPoolSnapshots_checks t.poolSnapshots
  have hcheckpoint := cleanupIndexerCheckpoint_checks t.indexerCheckpoint
  refine ⟨⟨hinvoices, hpool, hcheckpoint⟩, ⟨fun r => mem_cleanupInvoices lower,
    fun r => mem_cleanupPoolSnapshots, fun r => mem_cleanupIndexerCheckpoint⟩, ?_⟩
  have hsame : cleanupIndexerCheckpoint (cleanupIndexerCheckpoint t.indexerCheckpoint)
      = cleanupIndexerCheckpoint t.indexerCheckpoint :=
    Table.updateWhere_eq_self fun r hr => by
      simpa [LegacyCheckpoint.checks] using hcheckpoint r hr
  unfold cleanupLegacyRows
  rw [cleanupInvoices_eq_self lower hinvoices, cleanupPoolSnapshots_eq_self hpool, hsame]

end Integrity

section Deliveries

namespace LegacyDelivery

theorem sortKey_lt_iff {a b : LegacyDelivery ρ} : a.sortKey < b.sortKey ↔
    a.rank < b.rank ∨ a.rank = b.rank ∧
      (b.attempts < a.attempts ∨ b.attempts = a.attempts ∧ a.id < b.id) := by
  simp [sortKey, Prod.Lex.toLex_lt_toLex, eq_comm]

theorem rank_eq_zero {r : LegacyDelivery ρ} : r.rank = 0 ↔ r.status = "delivered" := by
  unfold rank
  split <;> simp_all

theorem rank_eq_one {r : LegacyDelivery ρ} : r.rank = 1 ↔ r.status = "dead_letter" := by
  unfold rank
  split <;> simp_all

end LegacyDelivery

open LegacyDelivery

variable (t : Table (LegacyDelivery ρ) LegacyDelivery.id)

theorem sortKey_inj {a b : LegacyDelivery ρ} (ha : a ∈ t.rows) (hb : b ∈ t.rows)
    (h : a.sortKey = b.sortKey) : a = b := by
  refine List.inj_on_of_nodup_map t.nodup ha hb ?_
  have := congrArg (fun k => (ofLex (ofLex k).2).2) h
  simpa [sortKey] using this

/-- The rows that stay are those no row of their event comes before. -/
theorem mem_deleteDuplicates {r : LegacyDelivery ρ} : r ∈ (deleteDuplicates t).rows ↔
    r ∈ t.rows ∧ ∀ b ∈ t.rows, b.event = r.event → r.sortKey ≤ b.sortKey := by
  rw [deleteDuplicates, Table.mem_deleteWhere]
  refine and_congr_right fun hr => ?_
  have hnumbered : (∃ n, 1 < n ∧ (r, n) ∈ rowNumbers event sortKey t.rows) ↔
      ∃ b ∈ t.rows, b.event = r.event ∧ b.sortKey < r.sortKey :=
    numbered_past_one_iff (List.Nodup.of_map _ t.nodup) (fun a ha b hb => sortKey_inj t ha hb) hr
  have hany : ((rankedDeliveries t.rows).any fun e => decide (r.id = e.1) && decide (1 < e.2)) =
      true ↔ ∃ n, 1 < n ∧ (r, n) ∈ rowNumbers event sortKey t.rows := by
    simp only [rankedDeliveries, List.any_map, List.any_eq_true, Function.comp_apply,
      Bool.and_eq_true, decide_eq_true_eq]
    constructor
    · rintro ⟨⟨a, n⟩, hmem, hida, hn⟩
      have ha : a ∈ t.rows :=
        (mem_sortedPart.1 (List.fst_mem_of_mem_zipIdx (mem_rowNumbers.1 hmem))).1
      obtain rfl := List.inj_on_of_nodup_map t.nodup hr ha hida
      exact ⟨n, hn, hmem⟩
    · rintro ⟨n, hn, hmem⟩
      exact ⟨(r, n), hmem, rfl, hn⟩
  rw [← Bool.not_eq_true, hany, hnumbered]
  simp only [not_exists, not_and, not_lt]

/-- One row of each event of a subscription stays, as it was: a delivered one if there was one, else
a dead-lettered one if there was one, with the most attempts of its kind. -/
theorem deleteDuplicates_keeps_most_advanced :
    (∀ r ∈ t.rows, ∃! kept, kept ∈ (deleteDuplicates t).rows ∧ kept.event = r.event) ∧
    (∀ kept ∈ (deleteDuplicates t).rows, kept ∈ t.rows ∧
      ∀ r ∈ t.rows, r.event = kept.event →
        (r.status = "delivered" → kept.status = "delivered") ∧
        (r.status = "dead_letter" → kept.status = "delivered" ∨ kept.status = "dead_letter") ∧
        (r.rank = kept.rank → r.attempts ≤ kept.attempts)) ∧
    ((deleteDuplicates t).rows.map event).Nodup := by
  have huniq : ∀ a ∈ (deleteDuplicates t).rows, ∀ b ∈ (deleteDuplicates t).rows,
      a.event = b.event → a = b := by
    intro a ha b hb hevent
    obtain ⟨ha, hamin⟩ := (mem_deleteDuplicates t).1 ha
    obtain ⟨hb, hbmin⟩ := (mem_deleteDuplicates t).1 hb
    exact sortKey_inj t ha hb (le_antisymm (hamin b hb hevent.symm) (hbmin a ha hevent))
  refine ⟨fun r hr => ?_, fun kept hkept => ?_, ?_⟩
  · obtain ⟨kept, hkept, hmin⟩ : ∃ kept ∈ t.rows.filter (·.event = r.event),
        ∀ b ∈ t.rows.filter (·.event = r.event), kept.sortKey ≤ b.sortKey := by
      classical
      obtain ⟨kept, hkept, hmin⟩ := (t.rows.filter (·.event = r.event)).toFinset.exists_min_image
        sortKey ⟨r, by simp [hr]⟩
      exact ⟨kept, List.mem_toFinset.1 hkept, fun b hb => hmin b (List.mem_toFinset.2 hb)⟩
    simp only [List.mem_filter, decide_eq_true_eq, and_imp] at hkept hmin
    have hmem : kept ∈ (deleteDuplicates t).rows := (mem_deleteDuplicates t).2
      ⟨hkept.1, fun b hb hevent => hmin b hb (hevent.trans hkept.2)⟩
    exact ⟨kept, ⟨hmem, hkept.2⟩, fun b hb => huniq b hb.1 kept hmem (hb.2.trans hkept.2.symm)⟩
  · obtain ⟨hmem, hmin⟩ := (mem_deleteDuplicates t).1 hkept
    refine ⟨hmem, fun r hr hevent => ?_⟩
    have hle := hmin r hr hevent
    rw [← not_lt, sortKey_lt_iff] at hle
    have hrank : kept.rank ≤ r.rank := by
      by_contra h
      exact hle (.inl (not_le.1 h))
    refine ⟨fun hs => ?_, fun hs => ?_, fun heq => ?_⟩
    · rw [← rank_eq_zero] at hs ⊢
      omega
    · rw [← rank_eq_one] at hs
      rw [← rank_eq_zero, ← rank_eq_one]
      omega
    · by_contra h
      exact hle (.inr ⟨heq, .inl (not_le.1 h)⟩)
  · have hnodup : (deleteDuplicates t).rows.Nodup := List.Nodup.of_map _ (deleteDuplicates t).nodup
    exact hnodup.map_on fun a ha b hb => huniq a ha b hb

end Deliveries

end TrusTrove
