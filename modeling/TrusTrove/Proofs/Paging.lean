import TrusTrove.Proofs.Poll

/-!
# A poll against an RPC that follows the getEvents rules

`Conforming` is the protocol of `getEvents`: a request carries a start ledger or a cursor and never
both, a page that holds events returns a cursor, and the cursors lead to an empty page. The loop
keeps the start ledger in every request (`pollParams_encode`), so the request after the first page
is refused, and a poll ends without an error only when its first page holds nothing to process.
-/

namespace TrusTrove

open Sql

/-- The pages a history is served in from a start ledger: full ones, then an empty one. -/
structure Paging (history : List SorobanEvent) (tip : UInt32) (start : ℤ)
    (full : List GetEventsResult) (final : GetEventsResult) : Prop where
  events : full.flatMap (·.events) = history.filter (start ≤ ·.ledger)
  nonempty : ∀ page ∈ full, page.events ≠ [] ∧ page.cursor ≠ ""
  ends : final.events = []
  latest : ∀ page ∈ full ++ [final], page.latestLedger = tip

/-- The RPC follows the rules of `getEvents` on a history, in ledger order up to the tip. -/
structure Conforming (rpc : Rpc) (history : List SorobanEvent) (tip : UInt32) : Prop where
  sorted : history.Pairwise (·.ledger ≤ ·.ledger)
  upToTip : ∀ ev ∈ history, ev.ledger ≤ tip.toNat
  latest : rpc.latest = .ok (int32 tip.toNat)
  both : ∀ req, req.startLedger.isSome → req.cursor.isSome → ∃ e, rpc.getEvents req = .error e
  neither : ∀ req, req.startLedger = none → req.cursor = none → ∃ e, rpc.getEvents req = .error e
  paged : ∀ req start, req.startLedger = some start → req.cursor = none → 0 ≤ start →
    ∃ full final, Paging history tip start full final
      ∧ (∃ page, (full ++ [final]).head? = some page ∧ rpc.getEvents req = .ok page)
      ∧ (full ++ [final]).IsChain fun a b => ∀ req', req'.startLedger = none →
        req'.cursor = some a.cursor → req'.contractIDs = req.contractIDs →
        rpc.getEvents req' = .ok b

section Request

variable {L : EventListener} {O : Oracle} {start fin : ℤ}

/-- Every request carries the start ledger, and after a page with a cursor the cursor too. -/
theorem pollParams_encode (L : EventListener) (start : ℤ) (p : Poll) :
    (pollParams L start p).encode.startLedger = some start
      ∧ ((pollParams L start p).encode.cursor.isSome ↔ p.cursor ≠ "") := by
  refine ⟨rfl, ?_⟩
  simp only [GetEventsParams.encode, pollParams]
  split_ifs with h <;> simp [h]

/-- A run that is served a page with events to process, and a cursor, fails. -/
theorem pollRpc_fails_on_cursor {serve : GetEventsRequest → Except GoError GetEventsResult}
    (hboth : ∀ req, req.startLedger.isSome → req.cursor.isSome → ∃ e, serve req = .error e)
    {p : Poll} {page : GetEventsResult} (hpage : serve (pollParams L start p).encode = .ok page)
    (hcursor : page.cursor ≠ "")
    (hpending : pendingEvents L 0 (receivePage p page).latestLedgerSeq page.events ≠ []) (fuel : ℕ)
    {next : ℤ} {p' : Poll} : pollRpc L O start 0 serve fuel p ≠ some ((next, none), p') := by
  intro h
  cases fuel with
  | zero => simp [pollRpc] at h
  | succ fuel =>
    simp only [pollRpc, hpage] at h
    rcases pollPage_cases L O start 0 p page with ⟨hnil, -⟩ | ⟨e, db, -, e', hf⟩
        | ⟨processed, db, -, r, p₁, -, ⟨e, -, hf⟩ | ⟨-, ⟨hc, -⟩ | ⟨-, hn⟩⟩⟩
    · exact hpending hnil
    · simp [hf] at h
    · simp [hf] at h
    · rcases hc with hc | hc
      · omega
      · exact hcursor hc
    · rw [hn] at h
      cases fuel with
      | zero => simp [pollRpc] at h
      | succ fuel =>
        obtain ⟨hs, hc⟩ := pollParams_encode L start { p₁ with cursor := page.cursor }
        obtain ⟨e, he⟩ := hboth _ (by rw [hs]; rfl) (hc.2 hcursor)
        simp [pollRpc, he, pollCallFailed] at h

/-- A run that is served a page with nothing to process returns after it. -/
theorem pollRpc_done {serve : GetEventsRequest → Except GoError GetEventsResult} {p : Poll}
    {page : GetEventsResult} (hpage : serve (pollParams L start p).encode = .ok page)
    (hpending : pendingEvents L 0 (receivePage p page).latestLedgerSeq page.events = [])
    (fuel : ℕ) :
    pollRpc L O start 0 serve (fuel + 1) p = some (pollDone L start (receivePage p page)) := by
  have hflow : pollPage L O start 0 p page = .done (receivePage p page) := by
    unfold pollPage
    simp only [hpending, if_true, ite_self]
  simp only [pollRpc, hpage, hflow]

end Request

section Progress

variable {L : EventListener} {rpc : Rpc} {history : List SorobanEvent} {tip : UInt32} {start : ℤ}

theorem confirmationDepth_nonneg (cfg : Config) : 0 ≤ confirmationDepth cfg := by
  unfold confirmationDepth
  split_ifs <;> omega

/-- Below the confirmation window the filter does not overflow. -/
theorem confirms_iff {depth tip ledger : ℤ} (hd : 0 ≤ depth) (hdt : depth ≤ tip) (ht : tip < 2 ^ 31)
    (hl : ledger ≤ tip) : confirms depth tip ledger = true ↔ ledger ≤ tip - depth := by
  have hdepth : int32 depth = depth := int32_of_bounds (by omega) (by omega)
  have hsafe : safeLedger depth tip = tip - depth := by
    unfold safeLedger
    rw [hdepth, int32_of_bounds (by omega) (by omega)]
  simp only [confirms, hsafe, Bool.or_eq_true, Bool.not_eq_true', Bool.and_eq_false_iff,
    decide_eq_false_iff_not, decide_eq_true_eq]
  omega

theorem int32_of_ge {n : ℕ} (h₁ : 2 ^ 31 ≤ n) (h₂ : n < 2 ^ 32) : int32 n = n - 2 ^ 32 := by
  unfold int32
  rw [Int.bmod_def]
  split_ifs <;> omega

/-- The ledger a poll resumes from is past its start exactly when the arithmetic does not wrap. -/
theorem lt_nextLedger_iff {depth : ℤ} {n : ℕ} (hd : 0 ≤ depth) (hstart : 0 ≤ start)
    (hn : n < 2 ^ 32) (hs : start ≤ n - depth) :
    start < nextLedger depth start (int32 n) ↔ n < 2 ^ 31 ∧ n - depth + 1 < 2 ^ 31 := by
  by_cases hn' : n < 2 ^ 31
  · have htip : int32 n = n := int32_of_bounds (by omega) (by omega)
    have hdepth : int32 depth = depth := int32_of_bounds (by omega) (by omega)
    have hsafe : safeLedger depth n = n - depth := by
      unfold safeLedger
      rw [hdepth, int32_of_bounds (by omega) (by omega)]
    have hnext : nextLedger depth start n = int32 (n - depth + 1) := by
      unfold nextLedger
      rw [if_neg (by omega), hsafe]
      split_ifs
      · omega
      · rfl
      · have : depth = 0 := by omega
        rw [this, sub_zero]
    rw [htip, hnext]
    constructor
    · intro h
      refine ⟨hn', ?_⟩
      by_contra hge
      have hwrap : int32 (n - depth + 1) = -2 ^ 31 := by
        have : (n : ℤ) - depth + 1 = 2 ^ 31 := by omega
        rw [this]
        decide
      omega
    · rintro ⟨-, h⟩
      rw [int32_of_bounds (by omega) h]
      omega
  · have hneg := int32_of_ge (by omega) hn
    have hnext : nextLedger depth start (int32 n) = start := by
      unfold nextLedger
      rw [if_pos (by omega)]
    rw [hnext]
    omega

/-- The ledger after the tip is past the start exactly when it does not wrap. -/
theorem lt_int32_succ_iff {n : ℕ} (hstart : 0 ≤ start) (hn : n < 2 ^ 32) (hs : start ≤ n) :
    start < int32 (int32 n + 1) ↔ (n : ℤ) + 1 < 2 ^ 31 := by
  by_cases hn' : n < 2 ^ 31
  · rw [int32_of_bounds (by omega) (by omega : (n : ℤ) < 2 ^ 31)]
    by_cases hmax : (n : ℤ) + 1 < 2 ^ 31
    · rw [int32_of_bounds (by omega) hmax]
      omega
    · have hwrap : (n : ℤ) + 1 = 2 ^ 31 := by omega
      have : int32 (2 ^ 31) = -2 ^ 31 := by decide
      rw [hwrap, this]
      omega
  · have := int32_of_ge (by omega) hn
    rw [this, int32_of_bounds (by omega) (by omega)]
    omega

theorem pendingEvents_zero (latest : ℤ) (events : List SorobanEvent) :
    pendingEvents L 0 latest events =
      events.filter fun ev => confirms (confirmationDepth L.cfg) latest ev.ledger := by
  simp [pendingEvents]

theorem confirms_mono {depth latest a b : ℤ} (hab : a ≤ b) (h : confirms depth latest b = true) :
    confirms depth latest a = true := by
  simp only [confirms, Bool.or_eq_true, decide_eq_true_eq] at h ⊢
  exact h.imp_right hab.trans

/-- The first page of a paging leaves something to process exactly when the history does. -/
theorem Paging.pending_iff {full : List GetEventsResult} {final page : GetEventsResult}
    (hpaging : Paging history tip start full final)
    (hsorted : history.Pairwise (·.ledger ≤ ·.ledger))
    (hhead : (full ++ [final]).head? = some page) {p : SorobanEvent → Bool}
    (hp : ∀ a ∈ history, ∀ b ∈ history, a.ledger ≤ b.ledger → p b = true → p a = true) :
    page.events.filter p ≠ [] ↔ ∃ ev ∈ history, start ≤ ev.ledger ∧ p ev = true := by
  have hmem : ∀ ev, ev ∈ full.flatMap (·.events) ↔ ev ∈ history ∧ start ≤ ev.ledger := by
    intro ev
    rw [hpaging.events]
    simp
  rw [ne_eq, List.filter_eq_nil_iff, not_forall]
  simp only [not_forall, not_not]
  cases full with
  | nil =>
    obtain rfl : final = page := by simpa using hhead
    simp only [hpaging.ends, List.not_mem_nil, exists_false, IsEmpty.exists_iff, false_iff,
      not_exists, not_and]
    intro ev hev hge
    exact absurd ((hmem ev).2 ⟨hev, hge⟩) (by simp)
  | cons first rest =>
    obtain rfl : first = page := by simpa using hhead
    constructor
    · rintro ⟨ev, hev, hpe⟩
      obtain ⟨hh, hge⟩ := (hmem ev).1 (List.mem_flatMap.2 ⟨first, List.mem_cons_self, hev⟩)
      exact ⟨ev, hh, hge, hpe⟩
    · rintro ⟨ev, hev, hge, hpe⟩
      obtain ⟨a, as, hcons⟩ :=
        List.exists_cons_of_ne_nil (hpaging.nonempty first List.mem_cons_self).1
      have ha : a ∈ first.events := by rw [hcons]; exact List.mem_cons_self
      obtain ⟨hah, -⟩ := (hmem a).1 (List.mem_flatMap.2 ⟨first, List.mem_cons_self, ha⟩)
      have hfilter : history.filter (start ≤ ·.ledger) = a :: (as ++ rest.flatMap (·.events)) := by
        rw [← hpaging.events]
        simp [hcons]
      have hle : a.ledger ≤ ev.ledger := by
        have hsort := hsorted.filter (fun e => decide (start ≤ e.ledger))
        have hin : ev ∈ history.filter (start ≤ ·.ledger) := by simpa using ⟨hev, hge⟩
        rw [hfilter] at hsort hin
        rcases List.mem_cons.1 hin with rfl | hin
        · exact le_rfl
        · exact List.rel_of_pairwise_cons hsort hin
      exact ⟨a, ha, hp a hah ev hev hle hpe⟩

theorem receivePage_latest (s : Db) {page : GetEventsResult} (h : page.latestLedger = tip) :
    (receivePage (pollInit s) page).latestLedgerSeq = int32 tip.toNat := by
  have hzero : int32 ((0 : UInt32).toNat : ℤ) = 0 := by decide
  simp only [receivePage, pollInit, h]
  split_ifs with h
  · rw [h, hzero]
  · rfl

theorem waiting_iff (hrpc : Conforming rpc history tip) {depth : ℤ} (hd : 0 ≤ depth)
    (hdt : depth ≤ tip.toNat) (ht : tip.toNat < 2 ^ 31) :
    (∃ ev ∈ history, start ≤ ev.ledger ∧ confirms depth (int32 tip.toNat) ev.ledger = true)
      ↔ ¬ ∀ ev ∈ history, start ≤ ev.ledger → tip.toNat - depth < ev.ledger := by
  have hconf : ∀ ev ∈ history,
      (confirms depth (int32 tip.toNat) ev.ledger = true ↔ ev.ledger ≤ tip.toNat - depth) := by
    intro ev hev
    rw [int32_of_bounds (by omega) (by omega), confirms_iff hd hdt (by omega) (hrpc.upToTip ev hev)]
  constructor
  · rintro ⟨ev, hev, hge, hc⟩ h
    have := h ev hev hge
    have := (hconf ev hev).1 hc
    omega
  · intro h
    push Not at h
    obtain ⟨ev, hev, hge, hle⟩ := h
    exact ⟨ev, hev, hge, (hconf ev hev).2 hle⟩

/-- The condition under which a poll against a conforming RPC makes progress: the ledger numbers
do not wrap, and no event between the start and the confirmed ledger is waiting. -/
def NothingWaiting (cfg : Config) (history : List SorobanEvent) (tip start : ℤ) : Prop :=
  if contractIDs cfg = [] then tip + 1 < 2 ^ 31
  else tip < 2 ^ 31 ∧ tip - confirmationDepth cfg + 1 < 2 ^ 31
    ∧ ∀ ev ∈ history, start ≤ ev.ledger → tip - confirmationDepth cfg < ev.ledger

end Progress

/-- A poll against an RPC that follows the rules ends, without an error and past its start, exactly
when no event is waiting to be processed. -/
theorem pollEventsServed_progress_iff (L : EventListener) (O : Oracle) (s : Db) {rpc : Rpc}
    {history : List SorobanEvent} {tip : UInt32} (hrpc : Conforming rpc history tip) {start : ℤ}
    (hstart : 0 ≤ start) (hdepth : start ≤ tip.toNat - confirmationDepth L.cfg) :
    (∃ fuel next p, pollEventsServed L O start 0 rpc fuel s = some ((next, none), p) ∧ start < next)
      ↔ NothingWaiting L.cfg history tip.toNat start := by
  have hd := confirmationDepth_nonneg L.cfg
  have htip : tip.toNat < 2 ^ 32 := tip.toNat_lt
  unfold NothingWaiting pollEventsServed
  split_ifs with hids
  · have hlatest := lt_int32_succ_iff hstart htip (by omega)
    simp only [hrpc.latest, pollLatest, Option.some.injEq, Prod.mk.injEq, and_true]
    constructor
    · rintro ⟨-, next, p, ⟨rfl, -⟩, hlt⟩
      exact hlatest.1 hlt
    · intro h
      exact ⟨0, _, _, ⟨rfl, rfl⟩, hlatest.2 h⟩
  · obtain ⟨full, final, hpaging, ⟨page, hhead, hserve⟩, -⟩ :=
      hrpc.paged (pollParams L start (pollInit s)).encode start rfl rfl hstart
    have hpage : page ∈ full ++ [final] := List.mem_of_mem_head? hhead
    have hseq := receivePage_latest s (hpaging.latest page hpage)
    have hwaiting := hpaging.pending_iff hrpc.sorted hhead
      (p := fun ev => confirms (confirmationDepth L.cfg) (int32 tip.toNat) ev.ledger)
      fun _ _ _ _ => confirms_mono
    rw [← pendingEvents_zero, ← hseq] at hwaiting
    have hnext := lt_nextLedger_iff hd hstart htip hdepth
    by_cases hnil : pendingEvents L 0 (receivePage (pollInit s) page).latestLedgerSeq page.events
      = []
    · have hrun := fun fuel => pollRpc_done (O := O) hserve hnil fuel
      constructor
      · rintro ⟨fuel, next, p, hout, hlt⟩
        cases fuel with
        | zero => simp [pollRpc] at hout
        | succ fuel =>
          rw [hrun, Option.some.injEq] at hout
          simp only [pollDone, Prod.mk.injEq, and_true, hseq] at hout
          rw [← hout.1] at hlt
          obtain ⟨h₁, h₂⟩ := hnext.1 hlt
          refine ⟨by omega, h₂, ?_⟩
          by_contra hsome
          rw [← waiting_iff hrpc hd (by omega) h₁, ← hseq] at hsome
          exact hwaiting.2 hsome hnil
      · rintro ⟨h₁, h₂, -⟩
        refine ⟨1, _, _, hrun 0, ?_⟩
        rw [hseq]
        exact hnext.2 ⟨by omega, h₂⟩
    · have hfull : page.cursor ≠ "" := by
        rcases List.mem_append.1 hpage with hmem | hmem
        · exact (hpaging.nonempty page hmem).2
        · rw [List.mem_singleton.1 hmem, hpaging.ends] at hnil
          simp [pendingEvents] at hnil
      constructor
      · rintro ⟨fuel, next, p, hout, -⟩
        exact absurd hout (pollRpc_fails_on_cursor hrpc.both hserve hfull hnil fuel)
      · rintro ⟨h₁, -, h₃⟩
        have hsome := hwaiting.1 hnil
        rw [hseq, waiting_iff hrpc hd (by omega) (by omega)] at hsome
        exact absurd h₃ hsome

/-- An RPC that follows the rules and serves a history in one page. -/
def onePageRpc (history : List SorobanEvent) (tip : UInt32) : Rpc where
  latest := .ok (int32 tip.toNat)
  getEvents req :=
    match req.startLedger, req.cursor with
    | some start, none =>
      let events := history.filter (start ≤ ·.ledger)
      .ok ⟨tip, events, if events = [] then "" else "0000000433791700992-0000000001"⟩
    | none, some _ => .ok ⟨tip, [], ""⟩
    | some _, some _ =>
      .error (.new "rpc error: startLedger and cursor cannot both be set (code -32602)")
    | none, none => .error (.new "rpc error: startLedger must be positive (code -32602)")

theorem onePageRpc_conforming {history : List SorobanEvent} {tip : UInt32}
    (hsorted : history.Pairwise (·.ledger ≤ ·.ledger))
    (htip : ∀ ev ∈ history, ev.ledger ≤ tip.toNat) :
    Conforming (onePageRpc history tip) history tip := by
  refine ⟨hsorted, htip, rfl, ?_, ?_, ?_⟩
  · intro req hs hc
    obtain ⟨start, hs⟩ := Option.isSome_iff_exists.1 hs
    obtain ⟨cursor, hc⟩ := Option.isSome_iff_exists.1 hc
    simp only [onePageRpc, hs, hc]
    exact ⟨_, rfl⟩
  · intro req hs hc
    simp only [onePageRpc, hs, hc]
    exact ⟨_, rfl⟩
  · intro req start hs hc _
    by_cases hnil : history.filter (start ≤ ·.ledger) = []
    · refine ⟨[], ⟨tip, [], ""⟩, ⟨by simp [hnil], by simp, rfl, by simp⟩, ⟨_, rfl, ?_⟩, by simp⟩
      simp only [onePageRpc, hs, hc, hnil, if_true]
    · refine ⟨[⟨tip, history.filter (start ≤ ·.ledger), "0000000433791700992-0000000001"⟩],
        ⟨tip, [], ""⟩, ⟨by simp, ?_, rfl, by simp⟩, ⟨_, rfl, ?_⟩, ?_⟩
      · simp only [List.mem_singleton, forall_eq]
        exact ⟨hnil, by decide⟩
      · simp only [onePageRpc, hs, hc, hnil, if_false]
      · simp only [List.cons_append, List.nil_append, List.isChain_cons_cons,
          List.isChain_singleton, and_true]
        intro req' hs' hc' _
        simp only [onePageRpc, hs', hc']

/-- One confirmed registration: it is handled, and the poll fails on the request after it. -/
theorem pollEventsServed_stuck :
    Conforming (onePageRpc [registration "e1" 101] 106) [registration "e1" 101] 106
      ∧ ((pollEventsServed (recordedListener 3) calm 100 0
        (onePageRpc [registration "e1" 101] 106) 2
          freshDb).map fun out => (out.2.handled.map (·.1), out.1)) =
        some ([registration "e1" 101], (100, some (.new
          ("call getEvents (startLedger=100, cursor=0000000433791700992-0000000001): " ++
            "rpc error: startLedger and cursor cannot both be set (code -32602)")))) :=
  ⟨onePageRpc_conforming (by decide) (by decide), by decide +kernel⟩

theorem pollEventsServed_progress_deferred :
    Conforming (onePageRpc [registration "e1" 105] 106) [registration "e1" 105] 106
      ∧ ∃ fuel next p, pollEventsServed (recordedListener 3) calm 100 0
        (onePageRpc [registration "e1" 105] 106) fuel freshDb =
          some ((next, none), p) ∧ 100 < next :=
  have hrpc : Conforming (onePageRpc [registration "e1" 105] 106) [registration "e1" 105] 106 :=
    onePageRpc_conforming (by decide) (by decide)
  ⟨hrpc, (pollEventsServed_progress_iff (recordedListener 3) calm freshDb hrpc (by decide)
    (by decide)).2 (by unfold NothingWaiting; decide +kernel)⟩

end TrusTrove
