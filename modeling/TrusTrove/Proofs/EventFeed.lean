import TrusTrove.Proofs.Aggregates
import TrusTrove.Proofs.Announced

/-!
# The feed of events

The feed of an issuer is the whole feed, restricted: `ORDER BY` sorts stably, so joining and
filtering before it or after it is the same (`feed_issuer`). `events_log` is only added to and an
invoice keeps its issuer, so a feed only grows (`feed_sublist`). An event that changes a row names
the row's invoice in its log entry (`handleEvent_change_logged`), so the change shows in the feed of
the issuer from then on (`changes_show_in_feed`).
-/

namespace TrusTrove

open Sql

section Order

instance : IsTrans FeedEvent closedLater := ⟨fun _ _ _ h h' => le_trans h' h⟩

instance : Std.Total closedLater :=
  ⟨fun a b => le_total b.event.ledgerClosedAt a.event.ledgerClosedAt⟩

theorem orderFeed_filter (p : FeedEvent → Bool) (rows : List FeedEvent) :
    (orderFeed rows).filter p = orderFeed (rows.filter p) := by
  rw [orderFeed, StableOrder.filter_insertionSort, List.filter_reverse]
  rfl

theorem orderFeed_sublist {rows rows' : List FeedEvent} (h : rows.Sublist rows') :
    (orderFeed rows).Sublist (orderFeed rows') :=
  StableOrder.insertionSort_sublist h.reverse

theorem mem_orderFeed {x : FeedEvent} {rows : List FeedEvent} : x ∈ orderFeed rows ↔ x ∈ rows := by
  rw [orderFeed, List.mem_insertionSort, List.mem_reverse]

theorem joinIssuerInvoices_eq (w : Tables) {issuer : String} (hissuer : issuer ≠ "") :
    joinIssuerInvoices w issuer =
      (leftJoinInvoices w).filter fun x => x.invoiceIssuer = issuer := by
  rw [leftJoinInvoices, ← List.filterMap_eq_filter, List.filterMap_map, joinIssuerInvoices]
  congr 1
  funext row
  simp only [joinIssuer, Function.comp_apply, Option.guard]
  rcases referredInvoice w row with _ | inv
  · simp [hissuer.symm]
  · by_cases heq : inv.issuer = issuer <;> simp [heq]

/-- The feed of an issuer is the part of the whole feed that is about its invoices. -/
theorem feed_issuer (w : Tables) {issuer : String} (hissuer : issuer ≠ "") :
    feed w issuer = (feed w "").filter fun x => x.invoiceIssuer = issuer := by
  rw [feed, if_neg hissuer, joinIssuerInvoices_eq w hissuer, feed, if_pos rfl, orderFeed_filter]

theorem feed_sorted (w : Tables) (issuer : String) : (feed w issuer).Pairwise closedLater :=
  List.pairwise_insertionSort closedLater _

/-- An event about an invoice is in the feed of the invoice's issuer. -/
theorem mem_feed {w : Tables} {row : EventLog} {inv : DbInvoice} (hrow : row ∈ w.eventsLog.rows)
    (hinv : referredInvoice w row = some inv) : ⟨row, inv.issuer⟩ ∈ feed w inv.issuer := by
  have hjoin : ⟨row, inv.issuer⟩ ∈ leftJoinInvoices w :=
    List.mem_map.2 ⟨row, hrow, by rw [hinv]; rfl⟩
  unfold feed
  rw [mem_orderFeed]
  split_ifs with hissuer
  · exact hjoin
  · rw [joinIssuerInvoices_eq w hissuer]
    exact List.mem_filter.2 ⟨hjoin, decide_eq_true rfl⟩

end Order

section Growth

variable {w w' : Tables}

theorem referredInvoice_evolves (h : RowsEvolve w w') {row : EventLog} {inv : DbInvoice}
    (hinv : referredInvoice w row = some inv) :
    ∃ inv', referredInvoice w' row = some inv' ∧ inv.Evolves inv' := by
  obtain ⟨id, hid, hfind⟩ := Option.bind_eq_some_iff.1 hinv
  obtain ⟨inv', hinv', he⟩ := h id inv hfind
  exact ⟨inv', Option.bind_eq_some_iff.2 ⟨id, hid, hinv'⟩, he⟩

theorem joinIssuerInvoices_sublist (h : RowsEvolve w w')
    (hlog : w.eventsLog.rows <+: w'.eventsLog.rows) (issuer : String) :
    (joinIssuerInvoices w issuer).Sublist (joinIssuerInvoices w' issuer) := by
  refine (StableOrder.filterMap_sublist (fun row x hx => ?_) _).trans (hlog.sublist.filterMap _)
  obtain ⟨inv, hinv, rfl⟩ := Option.map_eq_some_iff.1 hx
  obtain ⟨hinv, hissuer⟩ := Option.filter_eq_some_iff.1 hinv
  obtain ⟨inv', hinv', he⟩ := referredInvoice_evolves h hinv
  simp only [decide_eq_true_eq] at hissuer
  simp [joinIssuer, hinv', he.issuer, hissuer]

/-- What is in the feed of an issuer stays there, in its order. -/
theorem feed_sublist (h : RowsEvolve w w') (hlog : w.eventsLog.rows <+: w'.eventsLog.rows)
    {issuer : String} (hissuer : issuer ≠ "") : (feed w issuer).Sublist (feed w' issuer) := by
  rw [feed, if_neg hissuer, feed, if_neg hissuer]
  exact orderFeed_sublist (joinIssuerInvoices_sublist h hlog issuer)

theorem getRecentEvents_ok {limit : ℤ} {issuer : String} {O : ℕ → Bool} {s : Db}
    {events : List FeedEvent} (h : (autocommit (getRecentEvents limit issuer) O s).1 = .ok events) :
    0 ≤ limit ∧ events = (feed s.tables issuer).take limit.toNat := by
  obtain ⟨w, hw, -⟩ := onTx_ok (mapError_ok (Prod.ext h rfl))
  split_ifs at hw with hlimit
  cases hw
  exact ⟨not_lt.1 hlimit, rfl⟩

end Growth

section Change

variable {sdk : Sdk} {stats : Except GoError ScVal} {event : SorobanEvent} {t : ℤ} {O : ℕ → Bool}
  {c c' : Conn Tables Shared} {kind : EventKind}

/-- No row but that of the invoice is touched, and no event is logged. -/
def Touches (id : String) (w w' : Tables) : Prop :=
  w'.eventsLog = w.eventsLog ∧ ∀ k, k ≠ id → w'.invoices.find? k = w.invoices.find? k

variable {id : String}

instance : Std.Refl (Touches id) := ⟨fun _ => ⟨rfl, fun _ _ => rfl⟩⟩

instance : IsTrans Tables (Touches id) :=
  ⟨fun _ _ _ h h' => ⟨h'.1.trans h.1, fun k hk => (h'.2 k hk).trans (h.2 k hk)⟩⟩

theorem execUpdate_touches {guard : DbInvoice → Bool} {set : DbInvoice → Option DbInvoice}
    {hset : ∀ r, ((set r).getD r).id = r.id} {w w' : Tables} {n : ℕ}
    (h : execUpdate id guard set hset w = .ok (n, w')) : Touches id w w' := by
  rcases execUpdate_ok h with ⟨-, rfl, -⟩ | ⟨-, r, r', -, -, -, -, t, rfl, ht⟩
  · exact refl_of (Touches id) _
  · refine ⟨rfl, fun k hk => ?_⟩
    rw [ht, if_neg hk]

theorem updateInvoice_touches {operation target : String} {guard : DbInvoice → Bool}
    {set : DbInvoice → Option DbInvoice} {hset : ∀ r, ((set r).getD r).id = r.id}
    (h : updateInvoice id operation target guard set hset O c = (.ok (), c')) :
    Touches id c.work c'.work := by
  have hr : Respects (Touches id) Eq (updateInvoice id operation target guard set hset) :=
    updateInvoice_respects fun _ _ _ => execUpdate_touches
  have := (hr O c).1
  rwa [h] at this

theorem handleInvoiceCreated_touches (h : handleInvoiceCreated sdk event t O c = (.ok (), c')) :
    eventInvoiceID sdk event .created ≠ ""
      ∧ Touches (eventInvoiceID sdk event .created) c.work c'.work := by
  unfold handleInvoiceCreated at h
  obtain ⟨val, hval, h⟩ := ofExcept_bind_ok h
  have hid : eventInvoiceID sdk event .created = ((getMapVal val "id").map parseBytes).getD "" := by
    unfold eventValue at hval
    rcases hv : sdk.unmarshalBase64 event.value with e | v <;> rw [hv] at hval <;> cases hval
    simp [eventInvoiceID, hv]
  simp only [] at h
  split_ifs at h with hempty
  · cases h
  · simp only [Bool.or_eq_true, decide_eq_true_eq, not_or] at hempty
    rw [hid]
    refine ⟨hempty.1.1, ?_⟩
    rcases hnum : numeric (((getMapVal val "face_value").map parseU128).getD "0") with
      _ | amount <;> simp only [hnum] at h
    · exact absurd (congrArg Prod.fst h) (refuseParameter_fails _ _)
    · obtain ⟨b, c₁, hins, hpure⟩ := bind_ok h
      cases hpure
      obtain ⟨w, hw, rfl⟩ := onTx_ok (mapError_ok hins)
      split_ifs at hw
      cases hw
      refine ⟨rfl, fun k hk => ?_⟩
      rw [Table.find?_insertNew, if_neg (Ne.symm hk)]

theorem updateInvoiceAttestation_touches {agent hash : String} {score : ℤ}
    (h : updateInvoiceAttestation id agent hash score t O c = (.ok (), c')) :
    Touches id c.work c'.work := by
  have hr : Respects (Touches id) Eq (updateInvoiceAttestation id agent hash score t) := by
    unfold updateInvoiceAttestation
    split_ifs
    · refine .bind (.mapError _ (.onTx _ fun w n w' => execUpdate_touches)) fun rows => ?_
      split_ifs
      · exact .fail _
      · exact .pure _
    · exact .mapError _ (.onTx _ fun w a w' h => by cases h)
  have := (hr O c).1
  rwa [h] at this

/-- A handler that returns has touched the row of the invoice its event names, or none. -/
theorem runHandler_touches {name : String} {logData : StringMap String}
    (h : runHandler sdk stats event t name kind O c = (.ok logData, c'))
    (hreg : kind ≠ .registration) : (kind = .created → eventInvoiceID sdk event kind ≠ "")
      ∧ Touches (eventInvoiceID sdk event kind) c.work c'.work := by
  have hpool : ∀ r : Except GoError (StringMap String),
      (Prog.ofExcept r : DbProg (StringMap String)) O c = (.ok logData, c') → c' = c := by
    intro r hr
    rw [ofExcept_run] at hr
    exact (congrArg Prod.snd hr).symm
  cases kind <;> simp only [runHandler] at h
  case registration => exact absurd rfl hreg
  case poolDeposit | poolWithdrawal | poolYieldDistributed | poolDefault =>
    rw [hpool _ h]
    exact ⟨EventKind.noConfusion, refl_of (Touches _) _⟩
  all_goals
    obtain ⟨⟨⟩, c₁, hrun, hpure⟩ := bind_ok h
    cases hpure
  case created =>
    obtain ⟨hid, htouch⟩ := handleInvoiceCreated_touches hrun
    exact ⟨fun _ => hid, htouch⟩
  all_goals
    refine ⟨EventKind.noConfusion, ?_⟩
    obtain ⟨id, hid, hrun⟩ := ofExcept_bind_ok hrun
    rw [topicInvoiceID_ok hid (by decide)]
  case listed =>
    obtain ⟨val, -, hrun⟩ := ofExcept_bind_ok hrun
    exact updateInvoice_touches (updateInvoiceListed_ok hrun)
  case funded =>
    obtain ⟨val, -, hrun⟩ := ofExcept_bind_ok hrun
    obtain ⟨c₂, hup, hwork⟩ := then_sync_ok hrun
    rw [hwork]
    rcases hnum : numeric (parseU128 val) with _ | amount
    · simp only [updateInvoiceFunded, hnum] at hup
      exact absurd (congrArg Prod.fst hup) (refuseParameter_fails _ _)
    · rw [updateInvoiceFunded_eq hnum] at hup
      exact updateInvoice_touches hup
  case shipped => exact updateInvoice_touches hrun
  case deliveryConfirmed => exact updateInvoice_touches hrun
  case repaid =>
    obtain ⟨c₂, hup, hwork⟩ := then_sync_ok hrun
    rw [hwork]
    exact updateInvoice_touches hup
  case defaulted =>
    obtain ⟨c₂, hup, hwork⟩ := then_sync_ok hrun
    rw [hwork]
    exact updateInvoice_touches hup
  case attestation => exact updateInvoiceAttestation_touches hrun

end Change

section Failure

variable {α β : Type}

/-- Code that fails has left `invoices` as it was. -/
def FailsClean (m : DbProg α) : Prop := ∀ O c e c', m O c = (.error e, c') →
  c'.work.invoices = c.work.invoices

theorem FailsClean.fail (e : GoError) : FailsClean (Prog.fail e : DbProg α) := by
  intro O c e' c' h
  cases h
  rfl

theorem FailsClean.onTx (e : GoError) (f : Tables → Except GoError (α × Tables))
    (g : GoError → GoError) : FailsClean ((Prog.onTx e f : DbProg α).mapError g) := by
  intro O c e' c' h
  rcases onTx_cases e f O c with ⟨e₁, c₁, hr, hw, -⟩ | ⟨a, w, -, -, -, hr⟩ <;>
    rw [mapError_run, hr, Prod.mk.injEq] at h
  · obtain ⟨-, rfl⟩ := h
    rw [hw]
  · cases h.1

theorem FailsClean.ofExcept_bind {f : α → DbProg β} (r : Except GoError α)
    (hf : ∀ a, FailsClean (f a)) : FailsClean (Prog.ofExcept r >>= f) := by
  cases r with
  | error e => exact .fail e
  | ok a =>
    rw [ofExcept_ok_bind]
    exact hf a

/-- What follows cannot fail. -/
theorem FailsClean.bind_ok {m : DbProg α} {f : α → DbProg β} (hm : FailsClean m)
    (hf : ∀ a O c, ∃ b, (f a O c).1 = .ok b) : FailsClean (m >>= f) := by
  intro O c e c' h
  rw [bind_run] at h
  rcases hr : m O c with ⟨e₁ | a, c₁⟩ <;> rw [hr] at h
  · cases h
    exact hm O c _ _ hr
  · obtain ⟨b, hb⟩ := hf a O c₁
    simp only [h] at hb
    cases hb

theorem FailsClean.bind_pure {m : DbProg α} {f : α → β} (hm : FailsClean m) :
    FailsClean (m >>= fun a => pure (f a)) := hm.bind_ok fun a _ _ => ⟨f a, rfl⟩

/-- A bind that fails did so in its first step or in its second. -/
theorem bind_failed {m : DbProg α} {f : α → DbProg β} {O : ℕ → Bool} {c c₂ : Conn Tables Shared}
    {e : GoError} (h : (m >>= f) O c = (.error e, c₂)) :
    m O c = (.error e, c₂) ∨ ∃ a c₁, m O c = (.ok a, c₁) ∧ f a O c₁ = (.error e, c₂) := by
  rw [bind_run] at h
  rcases hm : m O c with ⟨e₁ | a, c₁⟩ <;> rw [hm] at h
  · cases h
    exact .inl rfl
  · exact .inr ⟨a, c₁, rfl, h⟩

theorem updateInvoice_failsClean {id operation target : String} {guard : DbInvoice → Bool}
    {set : DbInvoice → Option DbInvoice} {hset : ∀ r, ((set r).getD r).id = r.id} :
    FailsClean (updateInvoice id operation target guard set hset) := by
  intro O c e c' h
  rcases bind_failed h with hexec | ⟨rows, c₁, hexec, h⟩
  · exact FailsClean.onTx _ _ _ O c _ _ hexec
  obtain ⟨w, hw, rfl⟩ := onTx_ok (mapError_ok hexec)
  rcases execUpdate_ok hw with ⟨rfl, rfl, -⟩ | ⟨rfl, -⟩
  · rw [if_neg (lt_irrefl 0)] at h
    rcases bind_failed h with hread | ⟨current, c₁, hread, h⟩
    · have hclean := FailsClean.onTx _ _ _ O _ _ _ hread
      exact hclean
    · obtain ⟨w', hw', rfl⟩ := onTx_ok (mapError_ok hread)
      obtain ⟨hcurrent, rfl⟩ := Prod.mk.inj (Except.ok.inj hw')
      clear hcurrent
      cases current <;> cases h <;> rfl
  · rw [if_pos one_pos] at h
    cases h

theorem updateInvoiceFunded_failsClean {id amount : String} {t : ℤ} :
    FailsClean (updateInvoiceFunded id .funded amount t) := by
  unfold updateInvoiceFunded
  split
  · exact .onTx _ _ _
  · exact updateInvoice_failsClean

theorem updateInvoiceListed_failsClean {id : String} {d : ℤ} :
    FailsClean (updateInvoiceListed id .listed d) := by
  unfold updateInvoiceListed
  split_ifs
  · exact updateInvoice_failsClean
  · exact .onTx _ _ _

theorem updateInvoiceAttestation_failsClean {id agent hash : String} {score t : ℤ} :
    FailsClean (updateInvoiceAttestation id agent hash score t) := by
  unfold updateInvoiceAttestation
  split_ifs
  swap
  · exact .onTx _ _ _
  intro O c e c' h
  rcases bind_failed h with hexec | ⟨rows, c₁, hexec, h⟩
  · exact FailsClean.onTx _ _ _ O c _ _ hexec
  obtain ⟨w, hw, rfl⟩ := onTx_ok (mapError_ok hexec)
  rcases execUpdate_ok hw with ⟨rfl, rfl, -⟩ | ⟨rfl, -⟩
  · rw [if_pos rfl] at h
    cases h
    rfl
  · rw [if_neg one_ne_zero] at h
    cases h

theorem syncPoolStats_total (stats : Except GoError ScVal) (O : ℕ → Bool)
    (c : Conn Tables Shared) : ∃ a, (syncPoolStats stats O c).1 = .ok a := ⟨(), rfl⟩

variable {sdk : Sdk} {stats : Except GoError ScVal} {event : SorobanEvent} {t : ℤ}

theorem handleInvoiceCreated_failsClean : FailsClean (handleInvoiceCreated sdk event t) := by
  refine .ofExcept_bind _ fun val => ?_
  simp only []
  split_ifs
  · exact .fail _
  · split
    · exact .onTx _ _ _
    · exact .bind_pure (.onTx _ _ _)

/-- A handler that fails has changed no row. -/
theorem runHandler_failsClean {name : String} {kind : EventKind} (hreg : kind ≠ .registration) :
    FailsClean (runHandler sdk stats event t name kind) := by
  cases kind <;> simp only [runHandler]
  case registration => exact absurd rfl hreg
  case created => exact .bind_pure handleInvoiceCreated_failsClean
  case listed =>
    exact .bind_pure (.ofExcept_bind _ fun id => .ofExcept_bind _ fun val =>
      updateInvoiceListed_failsClean)
  case funded =>
    exact .bind_pure (.ofExcept_bind _ fun id => .ofExcept_bind _ fun val =>
      .bind_ok updateInvoiceFunded_failsClean fun _ => syncPoolStats_total stats)
  case shipped | deliveryConfirmed =>
    exact .bind_pure (.ofExcept_bind _ fun id => updateInvoice_failsClean)
  case repaid | defaulted =>
    exact .bind_pure (.ofExcept_bind _ fun id =>
      .bind_ok updateInvoice_failsClean fun _ => syncPoolStats_total stats)
  case attestation =>
    exact .bind_pure (.ofExcept_bind _ fun id => updateInvoiceAttestation_failsClean)
  all_goals
    intro O c e c' h
    rw [ofExcept_run, Prod.mk.injEq] at h
    rw [h.2]

end Failure

section Applied

variable {L : EventListener} {stats : Except GoError ScVal} {now : ℕ} {event : SorobanEvent}
  {name : String} {O : ℕ → Bool} {c c' : Conn Tables Shared} {s : Db} {id : String}

theorem logEvent_mem {row : EventLog} (h : logEvent row O c = (.ok (), c'))
    (hlogged : c.work.logged row.eventID = false) : row ∈ c'.work.eventsLog.rows := by
  obtain ⟨w, hw, rfl⟩ := onTx_ok (mapError_ok h)
  split_ifs at hw
  cases hw
  have hnone : c.work.eventsLog.find? row.eventID = none := by
    simpa [Tables.logged] using hlogged
  refine Table.mem_of_find? (k := row.eventID) ?_
  rw [Table.find?_insertNew, if_pos rfl, hnone, Option.none_or]

theorem eventTail_invoices {kind : EventKind} {logData : StringMap String}
    (h : eventTail L now event name kind logData O c = (.ok (), c')) :
    c'.work.invoices = c.work.invoices := by
  have hwrites : Respects (TailWrites event.id) Eq (eventTail L now event name kind logData) :=
    eventTail_writes L now event name kind logData
  have := (hwrites O c).1
  rw [h] at this
  exact this.invoices

/-- The end of an event logs it. -/
theorem eventTail_mem {kind : EventKind} {logData : StringMap String}
    (h : eventTail L now event name kind logData O c = (.ok (), c'))
    (hlogged : c.work.logged event.id = false) :
    logRow L now event name (.fields (extractLogData L.sdk event kind logData))
      ∈ c'.work.eventsLog.rows := by
  unfold eventTail at h
  obtain ⟨⟨⟩, c₁, hlog, hrest⟩ := bind_ok h
  have hmem := logEvent_mem (mapError_ok hlog) hlogged
  split_ifs at hrest
  · have hwrites : Respects (TailWrites event.id) Eq (do
        let data ← webhookDispatchData event (closedAt L now event)
          (extractLogData L.sdk event kind logData)
        (enqueueDeliveries now name data).mapError (.wrap "enqueue webhook deliveries")) :=
      .bind (webhookDispatchData_writes event _ _) fun data =>
        .mapError _ (enqueueDeliveries_writes now name data)
    have htail := (hwrites O c₁).1
    rw [hrest] at htail
    exact (TableWrites.eventsLog (TailWrites.writes _ _ _ htail)).subset hmem
  · cases hrest
    exact hmem

/-- A transaction that changes a row ran the handler of the invoice's event and logged the event. -/
theorem eventBody_change (h : eventBody L stats now event name O c = (.ok (), c'))
    (hchange : c'.work.invoices.find? id ≠ c.work.invoices.find? id) :
    ∃ kind logData c₁, eventKind name = some kind ∧ kind ≠ .registration
      ∧ eventInvoiceID L.sdk event kind = id
      ∧ runHandler L.sdk stats event (closedAt L now event) name kind O c = (.ok logData, c₁)
      ∧ eventTail L now event name kind logData O c₁ = (.ok (), c') := by
  rcases hkind : eventKind name with _ | kind
  · simp only [eventBody, hkind] at h
    cases h
    exact absurd rfl hchange
  by_cases hreg : kind = .registration
  · subst hreg
    rw [eventBody_registration hkind] at h
    have hwrites : Respects (KindWrites .registration) Eq
      (handleRegistrationEvent L.sdk event (closedAt L now event) name) :=
        handleRegistrationEvent_kind _ _ _ _ _
    have hrow := (hwrites O c).1 id
    rw [h] at hrow
    generalize c.work.invoices.find? id = o at hrow hchange
    generalize c'.work.invoices.find? id = o' at hrow hchange
    cases hrow with
    | keep => exact absurd rfl hchange
    | create _ hk => cases hk
    | move _ _ hmove => cases hmove
  · rw [eventBody_handler hkind hreg] at h
    obtain ⟨r, c₁, hr, hafter⟩ := bind_ok h
    rw [attempt_run] at hr
    cases hr
    rcases hrun : runHandler L.sdk stats event (closedAt L now event) name kind O c with
      ⟨e | logData, c₁⟩ <;> rw [hrun] at hafter
    · have hclean := runHandler_failsClean hreg O c e c₁ hrun
      simp only [afterHandler] at hafter
      split_ifs at hafter
      · have hrow := (logEvent_frame (logRow L now event name (.raw event.value)) O c₁).1
        rw [hafter] at hrow
        rw [hrow, hclean] at hchange
        exact absurd rfl hchange
      · cases hafter
    · obtain ⟨-, htouch⟩ := runHandler_touches hrun hreg
      refine ⟨kind, logData, c₁, rfl, hreg, ?_, hrun, hafter⟩
      by_contra hne
      rw [eventTail_invoices hafter] at hchange
      exact hchange (htouch.2 id (Ne.symm hne))

/-- What a call of `handleEvent` that changes a row has run. -/
theorem handleEvent_change
    (hchange : (handleEvent L stats now O s event).2.tables.invoices.find? id
      ≠ s.tables.invoices.find? id) :
    ∃ name c', eventName L event = .ok name
      ∧ eventBody L stats now event name O ⟨s.tables, s.shared, false, s.tick + 1, s.failed⟩
        = (.ok (), c')
      ∧ (handleEvent L stats now O s event).2.tables = c'.work := by
  rcases h : (handleEvent L stats now O s event).1 with e | ⟨⟩
  · rw [handleEvent_error h] at hchange
    exact absurd rfl hchange
  rcases hname : eventName L event with e | name
  · simp only [handleEvent, hname] at h
    cases h
  · rw [handleEvent_eq hname] at h ⊢
    obtain ⟨c', hbody, -, hr⟩ := withTx_ok h
    exact ⟨name, c', rfl, hbody, by rw [hr]⟩

/-- No row comes to be under the empty id. -/
theorem handleEvent_no_empty (hs : s.tables.invoices.find? "" = none) :
    (handleEvent L stats now O s event).2.tables.invoices.find? "" = none := by
  by_contra hne
  rw [← hs] at hne
  obtain ⟨name, c', hname, hbody, hwork⟩ := handleEvent_change hne
  rcases handleEvent_kind L stats now event O s with hsame | ⟨name', kind', hname', hkind', hwrites⟩
  · exact hne (by rw [hsame])
  obtain rfl : name = name' := Except.ok.inj (hname.symm.trans hname')
  have hcreated : kind' = .created := by
    have hrow := hwrites ""
    rw [hs] at hrow hne
    generalize (handleEvent L stats now O s event).2.tables.invoices.find? "" = o at hrow hne
    cases hrow with
    | keep => exact absurd rfl hne
    | create _ hk => exact hk
  rw [hwork] at hne
  obtain ⟨kind, logData, c₁, hkind, hreg, hid, hrun, -⟩ := eventBody_change hbody hne
  obtain rfl : kind = kind' := Option.some.inj (hkind.symm.trans hkind')
  exact (runHandler_touches hrun hreg).1 hcreated hid

/-- The log entry of a call that changes the row of an invoice names the invoice. -/
theorem handleEvent_change_logged (hnew : s.tables.logged event.id = false) (hid : id ≠ "")
    (hchange : (handleEvent L stats now O s event).2.tables.invoices.find? id
      ≠ s.tables.invoices.find? id) :
    ∃ row ∈ (handleEvent L stats now O s event).2.tables.eventsLog.rows,
      row.eventID = event.id ∧ row.ledgerClosedAt = closedAt L now event
        ∧ row.data.text "invoice_id" = some id := by
  obtain ⟨name, c', -, hbody, hwork⟩ := handleEvent_change hchange
  rw [hwork] at hchange ⊢
  obtain ⟨kind, logData, c₁, -, hreg, rfl, hrun, htail⟩ := eventBody_change hbody hchange
  obtain ⟨-, hlog, -⟩ := runHandler_touches hrun hreg
  have hlogged : c₁.work.logged event.id = false := by
    rw [Tables.logged, hlog]
    exact hnew
  refine ⟨_, eventTail_mem htail hlogged, rfl, rfl, ?_⟩
  have hget := extractLogData_invoiceID L.sdk event kind
    (get?_of_keys (runHandler_keys hrun) (k := "invoice_id") (by decide))
  simp only [logRow, LogData.text]
  rcases h : StringMap.get? (extractLogData L.sdk event kind logData) "invoice_id" with _ | v <;>
    rw [h] at hget
  · exact absurd hget.symm hid
  · exact congrArg some hget

end Applied

section Run

theorem handleRun_no_empty (L : EventListener) : ∀ (calls : List HandleCall) (s : Db),
    s.tables.invoices.find? "" = none → (handleRun L calls s).tables.invoices.find? "" = none
  | [], _, hs => hs
  | _ :: calls, _, hs => handleRun_no_empty L calls _ (handleEvent_no_empty hs)

/-- What a limit leaves out of a sorted feed is not newer than what it keeps. -/
theorem take_or_full {rows : List FeedEvent} (hsorted : rows.Pairwise closedLater) {x : FeedEvent}
    (hx : x ∈ rows) (n : ℕ) :
    x ∈ rows.take n ∨ (rows.take n).length = n ∧ ∀ y ∈ rows.take n, closedLater y x := by
  rw [← List.take_append_drop n rows] at hx hsorted
  rcases List.mem_append.1 hx with hx | hx
  · exact .inl hx
  · refine .inr ⟨?_, fun y hy => (List.pairwise_append.1 hsorted).2.2 y hy x hx⟩
    have := List.length_pos_of_mem hx
    simp only [List.length_drop, List.length_take] at this ⊢
    omega

variable (L : EventListener) (s : Db)

/-- Every answer of `GetRecentEvents` about an issuer is newest first and begins the events of the
issuer in the whole feed. An event once answered is in every later answer, unless that is full of
events that closed no earlier. -/
theorem recent_events_over_runs (pre post : List HandleCall) (hs : s.tables.invoices = Table.empty)
    {issuer : String} (hissuer : issuer ≠ "") {limit limit' : ℤ} {O O' : ℕ → Bool}
    {a b : List FeedEvent}
    (ha : (autocommit (getRecentEvents limit issuer) O (handleRun L pre s)).1 = .ok a)
    (hb : (autocommit (getRecentEvents limit' issuer) O' (handleRun L (pre ++ post) s)).1 = .ok b) :
    b.Pairwise closedLater
      ∧ b <+: (feed (handleRun L (pre ++ post) s).tables "").filter (·.invoiceIssuer = issuer)
      ∧ ∀ x ∈ a, x ∈ b ∨ b.length = limit'.toNat ∧ ∀ y ∈ b, closedLater y x := by
  obtain ⟨-, rfl⟩ := getRecentEvents_ok ha
  obtain ⟨-, rfl⟩ := getRecentEvents_ok hb
  obtain ⟨-, -, hev⟩ := handleRun_rowsWf L pre post hs
  have hlog := handleRun_eventsLog L post (handleRun L pre s)
  rw [← handleRun_append] at hlog
  have hsorted := feed_sorted (handleRun L (pre ++ post) s).tables issuer
  refine ⟨hsorted.sublist (List.take_sublist _ _), ?_, fun x hx => ?_⟩
  · rw [← feed_issuer _ hissuer]
    exact List.take_prefix _ _
  · exact take_or_full hsorted
      ((feed_sublist hev hlog hissuer).subset (List.mem_of_mem_take hx)) limit'.toNat

theorem recent_events_over_runs_recorded :
    ∃ a b, (autocommit (getRecentEvents 20 recordedIssuer) noFaults
        (handleRun (recordedListener 3) (recordedCalls.take 1) freshDb)).1 = .ok a
      ∧ (autocommit (getRecentEvents 1 recordedIssuer) noFaults
        (handleRun (recordedListener 3) (recordedCalls.take 1 ++ recordedCalls.drop 1) freshDb)).1
          = .ok b
      ∧ (a.map (·.event.eventID), b.map (·.event.eventID)) = (["e1"], ["e2"])
      ∧ ∀ x ∈ a, x ∈ b ∨ b.length = 1 ∧ ∀ y ∈ b, closedLater y x := by
  have ha : (autocommit (getRecentEvents 20 recordedIssuer) noFaults
    (handleRun (recordedListener 3) (recordedCalls.take 1) freshDb)).1
      = .ok ((feed _ _).take _) := rfl
  have hb : (autocommit (getRecentEvents 1 recordedIssuer) noFaults (handleRun (recordedListener 3)
    (recordedCalls.take 1 ++ recordedCalls.drop 1) freshDb)).1 = .ok ((feed _ _).take _) := rfl
  refine ⟨_, _, ha, hb, ?_, (recent_events_over_runs (recordedListener 3) freshDb
    (recordedCalls.take 1) (recordedCalls.drop 1) rfl (by decide) ha hb).2.2⟩
  rw [List.take_append_drop, recordedCalls_tables]
  decide +kernel

/-- An event that changes the row of an invoice, and was not logged before, is from then on in every
answer of `GetRecentEvents` about the issuer of the invoice, unless the answer is full of events
that closed no earlier. -/
theorem changes_show_in_feed (pre post : List HandleCall) (c : HandleCall)
    (hs : s.tables.invoices = Table.empty) (id : String)
    (hnew : (handleRun L pre s).tables.logged c.event.id = false)
    (hchange : (handleRun L (pre ++ [c]) s).tables.invoices.find? id
      ≠ (handleRun L pre s).tables.invoices.find? id) :
    ∃ inv, (handleRun L (pre ++ c :: post) s).tables.invoices.find? id = some inv
      ∧ ∀ (limit : ℤ) (O : ℕ → Bool) (b : List FeedEvent),
        (autocommit (getRecentEvents limit inv.issuer) O
          (handleRun L (pre ++ c :: post) s)).1 = .ok b →
        (∃ x ∈ b, x.event.eventID = c.event.id ∧ x.invoiceIssuer = inv.issuer)
          ∨ b.length = limit.toNat
            ∧ ∀ y ∈ b, closedAt L c.now c.event ≤ y.event.ledgerClosedAt := by
  have hsplit : pre ++ c :: post = (pre ++ [c]) ++ post := by simp
  have hcall : handleRun L (pre ++ [c]) s =
      (handleEvent L c.stats c.now c.fails (handleRun L pre s) c.event).2 := by
    rw [handleRun_append]
    rfl
  have hempty : (handleRun L (pre ++ [c]) s).tables.invoices.find? "" = none :=
    handleRun_no_empty L _ s (by simp [hs])
  obtain ⟨inv₁, hinv₁⟩ :
      ∃ inv₁, (handleRun L (pre ++ [c]) s).tables.invoices.find? id = some inv₁ := by
    obtain ⟨-, -, hev⟩ := handleRun_rowsWf L pre [c] hs
    rcases hbefore : (handleRun L pre s).tables.invoices.find? id with _ | r
    · rw [hbefore] at hchange
      exact Option.ne_none_iff_exists'.1 hchange
    · obtain ⟨r', hr', -⟩ := hev id r hbefore
      exact ⟨r', hr'⟩
  have hid : id ≠ "" := by
    rintro rfl
    rw [hempty] at hinv₁
    cases hinv₁
  obtain ⟨row, hrow, hevent, hclosed, hnames⟩ :=
    handleEvent_change_logged (L := L) hnew hid (by rwa [← hcall])
  rw [← hcall] at hrow
  obtain ⟨-, -, hev⟩ := handleRun_rowsWf L (pre ++ [c]) post hs
  have hlog := handleRun_eventsLog L post (handleRun L (pre ++ [c]) s)
  rw [← handleRun_append] at hlog
  rw [hsplit]
  obtain ⟨inv, hinv, -⟩ := hev id inv₁ hinv₁
  refine ⟨inv, hinv, fun limit O b hb => ?_⟩
  have hrefers : referredInvoice (handleRun L (pre ++ [c] ++ post) s).tables row = some inv := by
    rw [referredInvoice, hnames]
    exact hinv
  obtain ⟨-, rfl⟩ := getRecentEvents_ok hb
  rcases take_or_full (feed_sorted _ inv.issuer) (mem_feed (hlog.subset hrow) hrefers)
    limit.toNat with hmem | ⟨hlen, hnewer⟩
  · exact .inl ⟨_, hmem, hevent, rfl⟩
  · exact .inr ⟨hlen, fun y hy => hclosed ▸ hnewer y hy⟩

/-- The recorded creation is in an answer given after the whole recorded run. -/
theorem changes_show_in_feed_recorded :
    ∃ (inv : DbInvoice) (b : List FeedEvent),
      (autocommit (getRecentEvents 20 recordedIssuer) noFaults
        (handleRun (recordedListener 3) recordedCalls freshDb)).1 = .ok b
      ∧ inv.issuer = recordedIssuer
      ∧ ((∃ x ∈ b, x.event.eventID = "e1" ∧ x.invoiceIssuer = recordedIssuer) ∨ b.length = 20) := by
  obtain ⟨inv, hinv, hshow⟩ := changes_show_in_feed (recordedListener 3) freshDb []
    recordedCalls.tail (recordedCalls.headD ⟨recordedEvent "" "" [] "", 0, .ok .other, noFaults⟩)
    rfl recordedInvoice.id (by decide +kernel) (by decide +kernel)
  have hcalls : [] ++ recordedCalls.headD ⟨recordedEvent "" "" [] "", 0, .ok .other, noFaults⟩
    :: recordedCalls.tail = recordedCalls := rfl
  rw [hcalls] at hinv hshow
  have hissuer : inv.issuer = recordedIssuer := by
    have hrow : ((handleRun (recordedListener 3) recordedCalls freshDb).tables.invoices.find?
      recordedInvoice.id).map (·.issuer) = some recordedIssuer := by
      rw [recordedCalls_tables]
      decide +kernel
    have := congrArg (Option.map (·.issuer)) hinv
    exact Option.some.inj (this.symm.trans hrow)
  have hb : (autocommit (getRecentEvents 20 recordedIssuer) noFaults
    (handleRun (recordedListener 3) recordedCalls freshDb)).1 = .ok _ := rfl
  rw [hissuer] at hshow
  refine ⟨inv, _, hb, hissuer, (hshow 20 noFaults _ hb).imp id And.left⟩

end Run

end TrusTrove
