import TrusTrove.Proofs.Paging

/-!
# What a backfill leaves out

The end of the range bounds what is handled, and only `Start` writes the checkpoint. Every page up
to the first empty one is settled up to the end of the range: the tip has confirmed it from the
first page on, and a page with an event past the end has none within it after it. The loop takes an
empty page for the last one, so what later pages hold is left out.
-/

namespace TrusTrove

open Sql

/-- A division into pages of the events an RPC holds from `start` on. -/
structure Division (start fin depth : ℤ) (pages : List GetEventsResult) : Prop where
  /-- Each page but the last leads to the next. -/
  linked : ∀ before page after, pages = before ++ page :: after → after ≠ [] → page.cursor ≠ ""
  ascending : (pages.flatMap (·.events)).Pairwise (·.ledger ≤ ·.ledger)
  nodup : (pages.flatMap (·.events)).Nodup
  from_start : ∀ ev ∈ pages.flatMap (·.events), start ≤ ev.ledger
  tips : pages.Pairwise fun a b => a.latestLedger.toNat ≤ b.latestLedger.toNat
  /-- The tip of the first page has confirmed the end of the range. -/
  confirmed : ∀ page ∈ pages.head?, fin ≤ page.latestLedger.toNat - depth

/-- The events on the pages after the first empty one. -/
def afterEmpty : List GetEventsResult → List SorobanEvent
  | [] => []
  | page :: pages => if page.events = [] then pages.flatMap (·.events) else afterEmpty pages

/-- The events on the pages before the first empty one. -/
def beforeEmpty : List GetEventsResult → List SorobanEvent
  | [] => []
  | page :: pages => if page.events = [] then [] else page.events ++ beforeEmpty pages

theorem beforeEmpty_append_afterEmpty : ∀ pages : List GetEventsResult,
    beforeEmpty pages ++ afterEmpty pages = pages.flatMap (·.events)
  | [] => rfl
  | page :: pages => by
    simp only [beforeEmpty, afterEmpty, List.flatMap_cons]
    split
    · simp [*]
    · rw [List.append_assoc, beforeEmpty_append_afterEmpty pages]

section Bounds

variable {L : EventListener} {O : Oracle} {start fin : ℤ}

/-- What holds of a call of the loop whatever the RPC answers: nothing above the end is handled, and
the checkpoint stays. -/
structure Bounded (fin : ℤ) (s : Db) (p : Poll) : Prop where
  handled : ∀ ev ∈ p.handled.map (·.1), ev.ledger ≤ fin
  checkpoint : p.db.shared.checkpoint = s.shared.checkpoint

variable {s : Db}

theorem handlePending_bounded {processed : List String} : ∀ (evs : List SorobanEvent) (p : Poll),
    (∀ ev ∈ evs, ev.ledger ≤ fin) → Bounded fin s p →
      Bounded fin s (handlePending L O processed evs p).2
  | [], _, _, h => h
  | ev :: evs, p, hevs, h => by
    have hrest : ∀ ev ∈ evs, ev.ledger ≤ fin := fun e he => hevs e (List.mem_cons_of_mem _ he)
    have hcheck := (handleEvent_writes L (O.stats p.db.tick) (O.now p.db.tick) ev O.fails p.db).2.2
    rw [handlePending]
    split
    · exact handlePending_bounded evs _ hrest ⟨h.handled, h.checkpoint⟩
    · split
      · rename_i e db hev
        rw [hev] at hcheck
        exact ⟨h.handled, hcheck.trans h.checkpoint⟩
      · rename_i db hev
        rw [hev] at hcheck
        refine handlePending_bounded evs _ hrest ⟨fun x hx => ?_, hcheck.trans h.checkpoint⟩
        simp only [List.map_append, List.map_cons, List.map_nil, List.mem_append,
          List.mem_singleton] at hx
        exact hx.elim (h.handled x) fun he => he ▸ hevs ev List.mem_cons_self

theorem pendingEvents_le (hfin : 0 < fin) {latest : ℤ} {events : List SorobanEvent} :
    ∀ ev ∈ pendingEvents L fin latest events, ev.ledger ≤ fin := by
  intro ev h
  simp only [pendingEvents, if_pos hfin, List.mem_filter, decide_eq_true_eq] at h
  exact h.1.2

theorem areEventsProcessed_shared {ids : List String} {fails : ℕ → Bool} {db : Db}
    {r : Except GoError (List String)} {db' : Db}
    (h : areEventsProcessed ids fails db = (r, db')) : db'.shared = db.shared := by
  unfold areEventsProcessed at h
  split_ifs at h
  all_goals
    simp only [Prod.mk.injEq] at h
    rw [← h.2]

theorem pollPage_bounded (hfin : 0 < fin) {p : Poll} {res : GetEventsResult} (h : Bounded fin s p) :
    ∀ p', (pollPage L O start fin p res = .next p' ∨ pollPage L O start fin p res = .done p' ∨
      ∃ e, pollPage L O start fin p res = .fail p' e) → Bounded fin s p' := by
  intro p' hp'
  have hq : Bounded fin s (receivePage p res) := ⟨h.handled, h.checkpoint⟩
  rcases pollPage_cases L O start fin p res with ⟨-, hd⟩ | ⟨e, db, hlook, e', hf⟩
      | ⟨processed, db, hlook, r, p₁, hrun, hout⟩
  · rw [hd] at hp'
    simp only [Flow.done.injEq, reduceCtorEq, exists_false, or_false, false_or] at hp'
    exact hp' ▸ hq
  · rw [hf] at hp'
    simp only [Flow.fail.injEq, reduceCtorEq, false_or, exists_and_left, exists_eq',
      and_true] at hp'
    have := areEventsProcessed_shared hlook
    exact hp' ▸ ⟨hq.handled, by rw [← hq.checkpoint, ← this]⟩
  · have hdb : Bounded fin s { receivePage p res with db } :=
      ⟨hq.handled, by rw [← hq.checkpoint, ← areEventsProcessed_shared hlook]⟩
    have hle : ∀ ev ∈ pendingEvents L fin (receivePage p res).latestLedgerSeq res.events,
        ev.ledger ≤ fin := pendingEvents_le hfin
    have hp₁ : Bounded fin s p₁ := by
      have := @handlePending_bounded L O fin s processed _ _ hle hdb
      rwa [hrun] at this
    rcases hout with ⟨e, -, hf⟩ | ⟨-, ⟨-, hd⟩ | ⟨-, hn⟩⟩
    · rw [hf] at hp'
      simp only [Flow.fail.injEq, reduceCtorEq, false_or, exists_and_left, exists_eq',
        and_true] at hp'
      exact hp' ▸ hp₁
    · rw [hd] at hp'
      simp only [Flow.done.injEq, reduceCtorEq, exists_false, or_false, false_or] at hp'
      exact hp' ▸ hp₁
    · rw [hn] at hp'
      simp only [Flow.next.injEq, reduceCtorEq, exists_false, or_false] at hp'
      exact hp' ▸ ⟨hp₁.handled, hp₁.checkpoint⟩

theorem pollAnswers_bounded (hfin : 0 < fin) (answers : List (Except GoError GetEventsResult))
    {p : Poll} (h : Bounded fin s p) : Bounded fin s (pollAnswers L O start fin answers p).2 :=
  pollAnswers_induct (V := fun _ => True) (I := Bounded fin s) (J := fun out => Bounded fin s out.2)
    (fun _ _ h => h)
    (fun _ _ p' _ h hn => pollPage_bounded hfin h p' (.inl hn))
    (fun _ _ p' _ h hd => pollPage_bounded hfin h p' (.inr (.inl hd)))
    (fun _ _ p' e _ h hf => pollPage_bounded hfin h p' (.inr (.inr ⟨e, hf⟩)))
    answers p (fun _ _ => trivial) h

theorem backfillRange_bounded (rpc : RpcAnswers) :
    Bounded fin s (backfillRange L O start fin rpc s).2 := by
  have hinit : Bounded fin s (pollInit s) := ⟨by simp [pollInit], rfl⟩
  unfold backfillRange
  split
  · exact hinit
  · split
    · exact hinit
    · simp only [pollEventsRange, if_neg ‹_›]
      exact pollAnswers_bounded (by omega) _ hinit

end Bounds

section Complete

variable {L : EventListener} {O : Oracle} {start fin : ℤ}

/-- A tip that has confirmed a ledger lets it through, also where it no longer fits an `int32`. -/
theorem confirms_of_tip {depth ledger : ℤ} {n : ℕ} (hd : 0 ≤ depth) (hn : n < 2 ^ 32)
    (hl : 0 ≤ ledger) (h : ledger ≤ n - depth) : confirms depth (int32 n) ledger = true := by
  by_cases hbig : n < 2 ^ 31
  · rw [int32_of_bounds (by omega) (by omega)]
    exact (confirms_iff hd (by omega) (by omega) (by omega)).mpr h
  · have htip := int32_of_ge (by omega : 2 ^ 31 ≤ n) hn
    simp only [confirms, htip, Bool.or_eq_true, Bool.not_eq_true', Bool.and_eq_false_iff,
      decide_eq_false_iff_not, decide_eq_true_eq]
    omega

/-- A page past the tip of the range is pending up to the end of the range, no more and no less. -/
theorem mem_pendingEvents_range {p : Poll} {res : GetEventsResult} {ev : SorobanEvent}
    (hfin : 0 < fin) (hstart : 0 ≤ ev.ledger)
    (htip : fin ≤ res.latestLedger.toNat - confirmationDepth L.cfg) :
    ev ∈ pendingEvents L fin (receivePage p res).latestLedgerSeq res.events ↔
      ev ∈ res.events ∧ ev.ledger ≤ fin := by
  have hd := confirmationDepth_nonneg L.cfg
  have hne : res.latestLedger ≠ 0 := by
    rintro h
    simp only [h, UInt32.toNat_zero] at htip
    omega
  simp only [pendingEvents, if_pos hfin, List.mem_filter, decide_eq_true_eq, receivePage,
    if_neg hne]
  constructor
  · exact fun h => h.1
  · exact fun h => ⟨h, confirms_of_tip hd res.latestLedger.toNat_lt hstart (h.2.trans htip)⟩

/-- An iteration on a page whose events the tip confirms up to the end of the range: the page is
empty, or everything in range on it is settled and the loop ends only where the range or the pages
do. -/
theorem pollPage_backfill {p : Poll} {res : GetEventsResult} (hfin : 0 < fin)
    (hstart : ∀ ev ∈ res.events, 0 ≤ ev.ledger)
    (htip : fin ≤ res.latestLedger.toNat - confirmationDepth L.cfg) :
    (∃ p' e, pollPage L O start fin p res = .fail p' e) ∨
    (∃ p', pollPage L O start fin p res = .done p' ∧ res.events = [] ∧
      ∀ ev, p'.settled ev ↔ p.settled ev) ∨
    (∃ p', (pollPage L O start fin p res = .next p' ∨
        pollPage L O start fin p res = .done p' ∧
          ((∃ ev ∈ res.events, fin < ev.ledger) ∨ res.cursor = "")) ∧
      res.events ≠ [] ∧
      ∀ ev, p'.settled ev ↔ p.settled ev ∨ ev ∈ res.events ∧ ev.ledger ≤ fin) := by
  have hmem (ev : SorobanEvent) :
      ev ∈ pendingEvents L fin (receivePage p res).latestLedgerSeq res.events ↔
        ev ∈ res.events ∧ ev.ledger ≤ fin := by
    constructor
    · intro h
      have hev : ev ∈ res.events := by
        simp only [pendingEvents, if_pos hfin, List.mem_filter] at h
        exact h.1.1
      exact (mem_pendingEvents_range hfin (hstart ev hev) htip).mp h
    · exact fun h => (mem_pendingEvents_range hfin (hstart ev h.1) htip).mpr h
  unfold pollPage
  dsimp only
  by_cases hev : res.events = []
  · exact .inr (.inl ⟨_, if_pos hev, hev, fun ev => Iff.rfl⟩)
  rw [if_neg hev]
  by_cases hpend : pendingEvents L fin (receivePage p res).latestLedgerSeq res.events = []
  · rw [if_pos hpend]
    refine .inr (.inr ⟨_, .inr ⟨rfl, .inl ?_⟩, hev, fun ev => ?_⟩)
    · obtain ⟨ev, hmem'⟩ := List.exists_mem_of_ne_nil _ hev
      refine ⟨ev, hmem', ?_⟩
      by_contra hle
      have := (hmem ev).mpr ⟨hmem', not_lt.mp hle⟩
      simp [hpend] at this
    · have hnone : ¬(ev ∈ res.events ∧ ev.ledger ≤ fin) := by
        rw [← hmem, hpend]
        simp
      simp only [hnone, or_false]
      rfl
  rw [if_neg hpend]
  split
  · exact .inl ⟨_, _, rfl⟩
  · split
    · exact .inl ⟨_, _, rfl⟩
    · rename_i processed db _ p₁ hrun
      obtain ⟨-, -, hset⟩ := handlePending_settled _ _ _ hrun
      have hset' (ev : SorobanEvent) :
          p₁.settled ev ↔ p.settled ev ∨ ev ∈ res.events ∧ ev.ledger ≤ fin := by
        rw [hset, hmem]
        rfl
      split
      · rename_i hend
        refine .inr (.inr ⟨p₁, .inr ⟨rfl, .inl ?_⟩, hev, hset'⟩)
        simpa using hend.2
      · split
        · exact .inr (.inr ⟨p₁, .inr ⟨rfl, .inr ‹_›⟩, hev, hset'⟩)
        · exact .inr (.inr ⟨_, .inl rfl, hev, fun ev => hset' ev⟩)

/-- What the loop uses of the pages still to come. -/
structure Walk (fin depth : ℤ) (pages : List GetEventsResult) : Prop where
  linked : ∀ before page after, pages = before ++ page :: after → after ≠ [] → page.cursor ≠ ""
  ascending : (pages.flatMap (·.events)).Pairwise (·.ledger ≤ ·.ledger)
  ledgers : ∀ ev ∈ pages.flatMap (·.events), 0 ≤ ev.ledger
  tips : ∀ page ∈ pages, fin ≤ page.latestLedger.toNat - depth

theorem Division.walk {depth : ℤ} {pages : List GetEventsResult}
    (h : Division start fin depth pages)
    (hstart : 0 ≤ start) : Walk fin depth pages := by
  refine ⟨h.linked, h.ascending, fun ev hev => hstart.trans (h.from_start ev hev),
    fun page hp => ?_⟩
  cases pages with
  | nil => simp at hp
  | cons first rest =>
    have hfirst := h.confirmed first (by simp)
    rcases List.mem_cons.mp hp with rfl | hp
    · exact hfirst
    · have := (List.pairwise_cons.mp h.tips).1 page hp
      omega

theorem Walk.tail {depth : ℤ} {page : GetEventsResult} {pages : List GetEventsResult}
    (h : Walk fin depth (page :: pages)) : Walk fin depth pages := by
  have hasc := h.ascending
  rw [List.flatMap_cons, List.pairwise_append] at hasc
  refine ⟨fun before p after he => ?_, hasc.2.1, fun ev hev => ?_, fun p hp => ?_⟩
  · exact h.linked (page :: before) p after (by rw [he, List.cons_append])
  · exact h.ledgers ev (by rw [List.flatMap_cons]; exact List.mem_append_right _ hev)
  · exact h.tips p (List.mem_cons_of_mem _ hp)

/-- After a page with an event past the end of the range no event is within it. -/
theorem Walk.past_end {depth : ℤ} {page : GetEventsResult} {pages : List GetEventsResult}
    (h : Walk fin depth (page :: pages)) (hpast : ∃ ev ∈ page.events, fin < ev.ledger) :
    ∀ ev ∈ pages.flatMap (·.events), fin < ev.ledger := by
  obtain ⟨ev, hev, hlt⟩ := hpast
  have hasc := h.ascending
  rw [List.flatMap_cons, List.pairwise_append] at hasc
  exact fun ev' hev' => hlt.trans_le (hasc.2.2 ev hev ev' hev')

theorem beforeEmpty_subset (pages : List GetEventsResult) {ev : SorobanEvent}
    (h : ev ∈ beforeEmpty pages) : ev ∈ pages.flatMap (·.events) := by
  rw [← beforeEmpty_append_afterEmpty pages]
  exact List.mem_append_left _ h

/-- A loop that returns has settled, of the range, the pages up to the first empty one. -/
theorem pollAnswers_backfill (hfin : 0 < fin) : ∀ (pages : List GetEventsResult) {p p' : Poll}
    {next : ℤ}, Walk fin (confirmationDepth L.cfg) pages →
      pollAnswers L O start fin (pages.map .ok) p = ((next, none), p') →
      ∀ ev, ev.ledger ≤ fin → (p'.settled ev ↔ p.settled ev ∨ ev ∈ beforeEmpty pages)
  | [], p, p', next, _, h => by simp [pollAnswers, pollCallFailed] at h
  | page :: pages, p, p', next, hwalk, h => by
    intro ev hle
    have hstart : ∀ ev ∈ page.events, 0 ≤ ev.ledger := fun ev hev =>
      hwalk.ledgers ev (by rw [List.flatMap_cons]; exact List.mem_append_left _ hev)
    rw [List.map_cons, pollAnswers] at h
    rcases @pollPage_backfill L O start fin p page hfin hstart
        (hwalk.tips page List.mem_cons_self) with
      ⟨p₁, e, hp₁⟩ | ⟨p₁, hp₁, hempty, hset⟩ | ⟨p₁, hp₁, hne, hset⟩
    · rw [hp₁] at h
      simp at h
    · rw [hp₁] at h
      simp only [pollDone, Prod.mk.injEq] at h
      rw [← h.2, hset, beforeEmpty, if_pos hempty]
      simp
    · rw [beforeEmpty, if_neg hne, List.mem_append]
      rcases hp₁ with hp₁ | ⟨hp₁, hend⟩
      · rw [hp₁] at h
        rw [pollAnswers_backfill hfin pages hwalk.tail h ev hle, hset]
        tauto
      · rw [hp₁] at h
        simp only [pollDone, Prod.mk.injEq] at h
        have hrest : ev ∉ beforeEmpty pages := by
          intro hev
          have hev := beforeEmpty_subset pages hev
          rcases hend with hpast | hcursor
          · exact absurd hle (not_le.mpr (hwalk.past_end hpast ev hev))
          · have hne' : pages ≠ [] := by
              rintro rfl
              simp at hev
            exact hwalk.linked [] page pages rfl hne' hcursor
        rw [← h.2, hset]
        tauto

end Complete

/-- Every event the RPC holds up to the end of the range was handled, or was in `events_log`. -/
def CompleteTo (fin : ℤ) (pages : List GetEventsResult) (s : Db) (p : Poll) : Prop :=
  ∀ ev ∈ pages.flatMap (·.events), ev.ledger ≤ fin → p.settled ev ∨ s.tables.logged ev.id = true

/-- A backfill never writes the checkpoint or handles an event above its range; and where it returns
no error it is complete exactly when every event in the range on a page after an empty one was in
`events_log` before. -/
theorem backfillRange_complete_iff (L : EventListener) (O : Oracle) (start fin : ℤ)
    (rpc : RpcAnswers)
    (s : Db) :
    Bounded fin s (backfillRange L O start fin rpc s).2 ∧
    ∀ pages, rpc.events = pages.map .ok → Division start fin (confirmationDepth L.cfg) pages →
      (backfillRange L O start fin rpc s).1 = none →
        (CompleteTo fin pages s (backfillRange L O start fin rpc s).2 ↔
          ∀ ev ∈ afterEmpty pages, ev.ledger ≤ fin → s.tables.logged ev.id = true) := by
  refine ⟨backfillRange_bounded rpc, fun pages hrpc hdiv hnone => ?_⟩
  unfold backfillRange at hnone ⊢
  split at hnone
  · simp at hnone
  · rename_i hrange
    rw [if_neg hrange]
    split at hnone
    · simp at hnone
    · rename_i hids
      rw [if_neg hids]
      simp only [pollEventsRange, if_neg hids, hrpc] at hnone ⊢
      rcases hout : pollAnswers L O start fin (pages.map .ok) (pollInit s) with ⟨⟨next, e⟩, p⟩
      rw [hout] at hnone
      simp only at hnone
      subst hnone
      have hset := pollAnswers_backfill (by omega) pages (hdiv.walk (by omega)) hout
      have hinit (ev : SorobanEvent) : ¬(pollInit s).settled ev := by simp [Poll.settled, pollInit]
      have hsplit := beforeEmpty_append_afterEmpty pages
      constructor
      · intro hall ev hev hle
        have hmem : ev ∈ pages.flatMap (·.events) := hsplit ▸ List.mem_append_right _ hev
        refine (hall ev hmem hle).resolve_left fun hs => ?_
        have hbefore := ((hset ev hle).mp hs).resolve_left (hinit ev)
        have hnodup := hdiv.nodup
        rw [← hsplit, List.nodup_append] at hnodup
        exact hnodup.2.2 ev hbefore ev hev rfl
      · intro hall ev hev hle
        rw [← hsplit, List.mem_append] at hev
        rcases hev with hev | hev
        · exact .inl ((hset ev hle).mpr (.inr hev))
        · exact .inr (hall ev hev hle)

/-- The RPC reaches its scan limit on the first page, and the event of ledger 50 is on the
second. -/
def scannedPages : List GetEventsResult :=
  [⟨100, [], "0000000064-0000000001"⟩, ⟨100, [registration "e1" 50], ""⟩]

theorem scannedPages_division : Division 1 60 3 scannedPages where
  linked before page after h hne := by
    rcases before with _ | ⟨first, _ | ⟨second, before⟩⟩
    · simp only [scannedPages, List.nil_append, List.cons.injEq] at h
      rw [← h.1]
      decide
    · simp only [scannedPages, List.cons_append, List.nil_append, List.cons.injEq] at h
      exact absurd h.2.2.symm hne
    · simp [scannedPages] at h
  ascending := by decide
  nodup := by decide
  from_start := by decide
  tips := by decide
  confirmed := by simp [scannedPages]

/-- A backfill of ledgers 1 to 60 returns without an error and leaves out the event of ledger 50. -/
theorem backfillRange_skips_scanned :
    Division 1 60 (confirmationDepth (recordedListener 3).cfg) scannedPages ∧
    (backfillRange (recordedListener 3) calm 1 60 ⟨.ok 100, scannedPages.map .ok⟩ freshDb).1
        = none ∧
    ¬ CompleteTo 60 scannedPages freshDb
      (backfillRange (recordedListener 3) calm 1 60 ⟨.ok 100, scannedPages.map .ok⟩ freshDb).2 := by
  have hdepth : confirmationDepth (recordedListener 3).cfg = 3 := rfl
  refine ⟨hdepth ▸ scannedPages_division, by decide +kernel, fun h => ?_⟩
  have hhandled : (backfillRange (recordedListener 3) calm 1 60 ⟨.ok 100, scannedPages.map .ok⟩
      freshDb).2.handled = [] ∧ (backfillRange (recordedListener 3) calm 1 60
        ⟨.ok 100, scannedPages.map .ok⟩ freshDb).2.already = [] := by
    constructor <;> rfl
  rcases h (registration "e1" 50) (by decide) (by decide) with hs | hlogged
  · simp [Poll.settled, hhandled] at hs
  · exact absurd hlogged (by decide)

end TrusTrove
