import TrusTrove.Listener
import TrusTrove.Proofs.Writes

/-!
# One poll

The request loop is an induction over the answers the RPC gives (`pollAnswers_induct`), one page a
step (`pollPage_cases`). A page is settled up to the ledger its own tip confirms: the events the
loop handles, or finds in `events_log`, are those some page delivered while they were confirmed
(`pollAnswers_settles`). The ledger the poll resumes from is computed from the last tip alone, so
it passes over an event an earlier page deferred once the tip has moved far enough.
-/

namespace TrusTrove

open Sql

section Induction

variable {L : EventListener} {O : Oracle} {start fin : ℤ}

/-- What an iteration of the request loop does with its page. -/
theorem pollPage_cases (L : EventListener) (O : Oracle) (start fin : ℤ) (p : Poll)
    (res : GetEventsResult) :
    let q := receivePage p res
    let pending := pendingEvents L fin q.latestLedgerSeq res.events
    (pending = [] ∧ pollPage L O start fin p res = .done q)
    ∨ (∃ e db, areEventsProcessed (pending.map (·.id)) O.fails q.db = (.error e, db)
        ∧ ∃ e', pollPage L O start fin p res = .fail { q with db } e')
    ∨ ∃ processed db, areEventsProcessed (pending.map (·.id)) O.fails q.db = (.ok processed, db)
        ∧ ∃ r p', handlePending L O processed pending { q with db } = (r, p')
        ∧ ((∃ e, r = .error e ∧ pollPage L O start fin p res = .fail p' e)
          ∨ r = .ok () ∧ ((0 < fin ∨ res.cursor = "") ∧ pollPage L O start fin p res = .done p'
            ∨ res.cursor ≠ "" ∧ pollPage L O start fin p res =
                .next { p' with cursor := res.cursor })) := by
  intro q pending
  unfold pollPage
  simp only []
  by_cases hev : res.events = []
  · have hpending : pending = [] := by simp [pending, pendingEvents, hev]
    exact .inl ⟨hpending, by simp [hev, q]⟩
  rw [if_neg hev]
  by_cases hpend : pending = []
  · exact .inl ⟨hpend, if_pos hpend⟩
  rw [if_neg hpend]
  refine .inr ?_
  rcases hlook : areEventsProcessed (pending.map (·.id)) O.fails q.db with ⟨e | processed, db⟩
  · refine .inl ⟨e, db, hlook, ?_⟩
    simp only [q, pending] at hlook ⊢
    rw [hlook]
    exact ⟨_, rfl⟩
  · refine .inr ⟨processed, db, hlook, ?_⟩
    simp only [q, pending] at hlook ⊢
    rw [hlook]
    simp only []
    rcases hrun : handlePending L O processed pending { q with db } with ⟨e | ⟨⟩, p'⟩
    · exact ⟨_, p', rfl, .inl ⟨e, rfl, rfl⟩⟩
    · refine ⟨_, p', rfl, .inr ⟨rfl, ?_⟩⟩
      simp only []
      split_ifs with hend hcur
      · exact .inl ⟨.inl hend.1, rfl⟩
      · exact .inl ⟨.inr hcur, rfl⟩
      · exact .inr ⟨hcur, rfl⟩

/-- An invariant of the request loop on pages that satisfy `V`, and what it gives at each way
out. -/
theorem pollAnswers_induct {V : GetEventsResult → Prop} {I : Poll → Prop}
    {J : (ℤ × Option GoError) × Poll → Prop} (hcall : ∀ p e, I p → J (pollCallFailed start p e))
    (hnext : ∀ p res p', V res → I p → pollPage L O start fin p res = .next p' → I p')
    (hdone : ∀ p res p', V res → I p → pollPage L O start fin p res = .done p' →
      J (pollDone L start p'))
    (hfail : ∀ p res p' e, V res → I p → pollPage L O start fin p res = .fail p' e →
      J ((start, some e), p')) :
    ∀ (answers : List (Except GoError GetEventsResult)) (p : Poll),
      (∀ res, .ok res ∈ answers → V res) → I p → J (pollAnswers L O start fin answers p)
  | [], p, _, hp => hcall p _ hp
  | .error e :: _, p, _, hp => hcall p e hp
  | .ok res :: answers, p, hV, hp => by
    have hres := hV res List.mem_cons_self
    simp only [pollAnswers]
    split
    · rename_i p' h
      exact pollAnswers_induct hcall hnext hdone hfail answers p'
        (fun r hr => hV r (List.mem_cons_of_mem _ hr)) (hnext p res p' hres hp h)
    · rename_i p' h
      exact hdone p res p' hres hp h
    · rename_i p' e h
      exact hfail p res p' e hres hp h

end Induction

section Settled

/-- The call handled the event, or found it in `events_log`. -/
def Poll.settled (p : Poll) (ev : SorobanEvent) : Prop :=
  ev ∈ p.handled.map (·.1) ∨ ev ∈ p.already

/-- The tip the loop knows once it has received the pages. -/
def tipOf (pages : List GetEventsResult) : ℤ :=
  pages.foldl (fun tip res => if res.latestLedger = 0 then tip else int32 res.latestLedger.toNat) 0

/-- Some page delivered the event while the tip known then confirmed it. -/
def Covers (depth : ℤ) (pages : List GetEventsResult) (ev : SorobanEvent) : Prop :=
  ∃ pre res post, pages = pre ++ res :: post ∧ ev ∈ res.events
    ∧ confirms depth (tipOf (pre ++ [res])) ev.ledger = true

theorem tipOf_snoc (pages : List GetEventsResult) (res : GetEventsResult) :
    tipOf (pages ++ [res]) =
      if res.latestLedger = 0 then tipOf pages else int32 res.latestLedger.toNat := by
  simp [tipOf, List.foldl_append]

theorem covers_snoc {depth : ℤ} {pages : List GetEventsResult} {res : GetEventsResult}
    {ev : SorobanEvent} :
    Covers depth (pages ++ [res]) ev ↔ Covers depth pages ev
      ∨ ev ∈ res.events ∧ confirms depth (tipOf (pages ++ [res])) ev.ledger = true := by
  constructor
  · rintro ⟨pre, res', post, heq, hmem, hconf⟩
    rcases List.eq_nil_or_concat post with rfl | ⟨post', last, rfl⟩
    · obtain ⟨rfl, hlast⟩ := List.append_inj' heq rfl
      obtain rfl : res = res' := by simpa using hlast
      exact .inr ⟨hmem, hconf⟩
    · rw [List.concat_eq_append, ← List.cons_append, ← List.append_assoc] at heq
      obtain ⟨rfl, -⟩ := List.append_inj' heq rfl
      exact .inl ⟨pre, res', post', rfl, hmem, hconf⟩
  · rintro (⟨pre, res', post, rfl, hmem, hconf⟩ | ⟨hmem, hconf⟩)
    · exact ⟨pre, res', post ++ [res], by simp, hmem, hconf⟩
    · exact ⟨pages, res, [], rfl, hmem, hconf⟩

/-- A page's events that were all handled or found are settled, and no others are. -/
theorem handlePending_settled {L : EventListener} {O : Oracle} {processed : List String} :
    ∀ (evs : List SorobanEvent) (p p' : Poll), handlePending L O processed evs p = (.ok (), p') →
      p'.pages = p.pages ∧ p'.latestLedgerSeq = p.latestLedgerSeq
        ∧ ∀ ev, p'.settled ev ↔ p.settled ev ∨ ev ∈ evs
  | [], p, p', h => by
    obtain rfl : p = p' := (Prod.ext_iff.1 h).2
    simp
  | ev :: evs, p, p', h => by
    simp only [handlePending] at h
    split_ifs at h with hproc
    · obtain ⟨hpages, hlatest, hset⟩ := handlePending_settled evs _ p' h
      refine ⟨hpages, hlatest, fun x => ?_⟩
      rw [hset]
      simp only [Poll.settled, List.mem_append, List.mem_cons, List.not_mem_nil, or_false]
      tauto
    · split at h
      · simp at h
      · obtain ⟨hpages, hlatest, hset⟩ := handlePending_settled evs _ p' h
        refine ⟨hpages, hlatest, fun x => ?_⟩
        rw [hset]
        simp only [Poll.settled, List.map_append, List.map_cons, List.map_nil, List.mem_append,
          List.mem_cons, List.not_mem_nil, or_false]
        tauto

/-- What the loop knows between pages. -/
structure Poll.Settles (depth : ℤ) (p : Poll) : Prop where
  tip : p.latestLedgerSeq = tipOf p.pages
  settled : ∀ ev, p.settled ev ↔ Covers depth p.pages ev

variable {L : EventListener} {O : Oracle} {start : ℤ}

theorem pollInit_settles (depth : ℤ) (s : Db) : (pollInit s).Settles depth := by
  refine ⟨rfl, fun ev => ⟨?_, ?_⟩⟩
  · simp [Poll.settled, pollInit]
  · rintro ⟨pre, res, post, heq, -⟩
    simp [pollInit] at heq

theorem mem_pendingEvents {latest : ℤ} {events : List SorobanEvent} {ev : SorobanEvent} :
    ev ∈ pendingEvents L 0 latest events ↔
      ev ∈ events ∧ confirms (confirmationDepth L.cfg) latest ev.ledger = true := by
  simp [pendingEvents]

/-- A page the loop gets past keeps what it knows. -/
theorem pollPage_settles {p p' : Poll} {res : GetEventsResult}
    (hp : p.Settles (confirmationDepth L.cfg))
    (h : pollPage L O start 0 p res = .next p' ∨ pollPage L O start 0 p res = .done p') :
    p'.Settles (confirmationDepth L.cfg) := by
  have hq : (receivePage p res).latestLedgerSeq = tipOf (receivePage p res).pages := by
    simp only [receivePage, tipOf_snoc, hp.tip]
  have hcov : ∀ ev, Covers (confirmationDepth L.cfg) (receivePage p res).pages ev ↔
      (receivePage p res).settled ev
        ∨ ev ∈ pendingEvents L 0 (receivePage p res).latestLedgerSeq res.events := by
    intro ev
    rw [mem_pendingEvents, hq]
    simp only [receivePage]
    rw [covers_snoc, ← hp.settled ev]
    rfl
  rcases pollPage_cases L O start 0 p res with ⟨hnil, hd⟩ | ⟨e, db, -, e', hf⟩
      | ⟨processed, db, -, r, p₁, hrun, ⟨e, -, hf⟩ | ⟨rfl, ⟨-, hd⟩ | ⟨-, hn⟩⟩⟩
  · obtain rfl : receivePage p res = p' := by simpa [hd] using h
    refine ⟨hq, fun ev => ?_⟩
    rw [hcov, hnil]
    simp
  · simp [hf] at h
  · simp [hf] at h
  all_goals
    obtain ⟨hpages, hlatest, hset⟩ := handlePending_settled _ _ _ hrun
  · obtain rfl : p₁ = p' := by simpa [hd] using h
    refine ⟨by rw [hlatest, hpages]; exact hq, fun ev => ?_⟩
    rw [hset, hpages]
    exact (hcov ev).symm
  · obtain rfl : { p₁ with cursor := res.cursor } = p' := by simpa [hn] using h
    refine ⟨by simp only [hlatest, hpages]; exact hq, fun ev => ?_⟩
    refine Iff.trans (hset ev) ?_
    rw [hpages]
    exact (hcov ev).symm

/-- A poll that returns settled the events some page delivered confirmed, and resumes from what the
last tip confirms. -/
theorem pollAnswers_settles (answers : List (Except GoError GetEventsResult)) (p : Poll)
    (hp : p.Settles (confirmationDepth L.cfg)) {next : ℤ} {p' : Poll}
    (h : pollAnswers L O start 0 answers p = ((next, none), p')) :
    p'.Settles (confirmationDepth L.cfg)
      ∧ next = nextLedger (confirmationDepth L.cfg) start (tipOf p'.pages) := by
  refine pollAnswers_induct (L := L) (O := O) (V := fun _ => True)
    (I := Poll.Settles (confirmationDepth L.cfg))
    (J := fun out => ∀ next p', out = ((next, none), p') → p'.Settles (confirmationDepth L.cfg)
      ∧ next = nextLedger (confirmationDepth L.cfg) start (tipOf p'.pages))
    ?_ ?_ ?_ ?_ answers p (fun _ _ => trivial) hp next p' h
  · intro p e _ next p' hout
    simp [pollCallFailed] at hout
  · intro p res p' _ hp hpage
    exact pollPage_settles hp (.inl hpage)
  · intro p res p₁ _ hp hpage next p' hout
    have h₁ := pollPage_settles hp (.inr hpage)
    simp only [pollDone, Prod.mk.injEq, and_true] at hout
    obtain ⟨rfl, rfl⟩ := hout
    exact ⟨h₁, by rw [h₁.tip]⟩
  · intro p res p₁ e _ _ _ next p' hout
    simp at hout

/-- The events from `start` up to the ledger the last tip confirms were confirmed on a page that
delivered them. -/
def NoneOvertaken (depth start : ℤ) (pages : List GetEventsResult) : Prop :=
  0 < depth → start ≤ tipOf pages → ∀ res ∈ pages, ∀ ev ∈ res.events, start ≤ ev.ledger →
    ev.ledger < int32 (safeLedger depth (tipOf pages) + 1) → Covers depth pages ev

theorem int32_le {x : ℤ} (h : -2 ^ 31 ≤ x) : int32 x ≤ x := by
  unfold int32
  rw [Int.bmod_def]
  split_ifs <;> omega

theorem int32_lower (x : ℤ) : -2 ^ 31 ≤ int32 x := by
  have := Int.le_bmod (x := x) (m := 2 ^ 32) (by norm_num)
  unfold int32
  omega

theorem int32_of_bounds {x : ℤ} (h₁ : -2 ^ 31 ≤ x) (h₂ : x < 2 ^ 31) : int32 x = x := by
  unfold int32
  rw [Int.bmod_def]
  split_ifs <;> omega

/-- The events a poll passes over are those at the ledgers its last tip newly confirms. -/
theorem lt_nextLedger {depth start tip ledger : ℤ} (hstart : start ≤ ledger) (hd : 0 < depth) :
    ledger < nextLedger depth start tip ↔
      start ≤ tip ∧ ledger < int32 (safeLedger depth tip + 1) := by
  have hsafe := int32_le (x := safeLedger depth tip + 1)
    (by have := int32_lower (tip - int32 depth); unfold safeLedger; omega)
  unfold nextLedger
  split_ifs <;> constructor <;> intro h <;> omega

/-- The pages settle every event below the ledger to resume from exactly when none they deferred is
overtaken. -/
theorem Poll.Settles.below_iff {depth : ℤ} {p : Poll} (hset : p.Settles depth) :
    (∀ res ∈ p.pages, ∀ ev ∈ res.events, start ≤ ev.ledger →
        ev.ledger < nextLedger depth start (tipOf p.pages) → p.settled ev)
      ↔ NoneOvertaken depth start p.pages := by
  simp only [hset.settled]
  by_cases hd : 0 < depth
  · constructor
    · intro hall _ htip res hres ev hev hge hlt
      exact hall res hres ev hev hge ((lt_nextLedger hge hd).2 ⟨htip, hlt⟩)
    · intro hcov res hres ev hev hge hlt
      obtain ⟨htip, hlt⟩ := (lt_nextLedger hge hd).1 hlt
      exact hcov hd htip res hres ev hev hge hlt
  · refine ⟨fun _ hd' => absurd hd' hd, fun _ res hres ev hev _ _ => ?_⟩
    obtain ⟨pre, post, heq⟩ := List.append_of_mem hres
    exact ⟨pre, res, post, heq, hev, by simp [confirms, hd]⟩

end Settled

/-- A poll that returns settles every event below the ledger it resumes from exactly when none it
deferred is overtaken by the tip of a later page. -/
theorem pollEventsRange_settles_iff (L : EventListener) (O : Oracle) (start : ℤ) (s : Db)
    (latest : Except GoError ℤ) (pages : List GetEventsResult) {next : ℤ} {p : Poll}
    (h : pollEventsRange L O start 0 ⟨latest, pages.map .ok⟩ s = ((next, none), p))
    (hserved : p.pages = pages) :
    (∀ res ∈ pages, ∀ ev ∈ res.events, start ≤ ev.ledger → ev.ledger < next → p.settled ev)
      ↔ NoneOvertaken (confirmationDepth L.cfg) start pages := by
  subst hserved
  unfold pollEventsRange at h
  split_ifs at h with hids
  · have hpages : p.pages = [] := by
      cases latest with
      | error e => simp [pollLatest] at h
      | ok n =>
        simp only [pollLatest, Prod.mk.injEq, and_true] at h
        rw [← h.2]
        rfl
    simp [hpages, NoneOvertaken]
  · obtain ⟨hset, rfl⟩ := pollAnswers_settles _ _ (pollInit_settles _ s) h
    exact hset.below_iff

section Recorded

/-- The value of a recorded creation, of face value 1000. -/
def recordedCreation : String :=
  "AAAAEQAAAAEAAAAFAAAADwAAAAVidXllcgAAAAAAABIAAAAAAAAAAAICAgICAgICAgICAgICAgICAgICAgICAgICAg" ++
  "ICAgICAAAADwAAAAhkdWVfZGF0ZQAAAAUAAAAAa0nSAAAAAA8AAAAKZmFjZV92YWx1ZQAAAAAACQAAAAAAAAAAAAAA" ++
  "AAAAA+gAAAAPAAAAAmlkAAAAAAANAAAAIKurq6urq6urq6urq6urq6urq6urq6urq6urq6urq6urAAAADwAAAAZpc3" ++
  "N1ZXIAAAAAABIAAAAAAAAAAAEBAQEBAQEBAQEBAQEBAQEBAQEBAQEBAQEBAQEBAQEB"

/-- The topic that carries the id of the recorded invoice. -/
def recordedTopic : String := "AAAADQAAACCrq6urq6urq6urq6urq6urq6urq6urq6urq6urq6urqw=="

/-- The topics and the short values of a few recorded events. -/
def recordedTopics : List (String × ScVal) :=
  [("AAAADwAAABFpc3N1ZXJfcmVnaXN0ZXJlZAAAAA==", .symbol "issuer_registered"),
    ("AAAADwAAAAZjcmVhdGUAAA==", .symbol "create"),
    ("AAAADwAAABJsaXN0X2Zvcl9maW5hbmNpbmcAAA==", .symbol "list_for_financing"),
    ("AAAADwAAAAxmdW5kX2ludm9pY2U=", .symbol "fund_invoice"),
    ("AAAADwAAABBjb25maXJtX2RlbGl2ZXJ5", .symbol "confirm_delivery"),
    ("AAAADwAAABJzdWJtaXRfYXR0ZXN0YXRpb24AAA==", .symbol "submit_attestation"),
    ("AAAADwAAAAZhZ2VudDcAAA==", .symbol "agent7"),
    (recordedTopic, .bytes (List.replicate 32 171)),
    ("AAAAAwAAAPo=", .u32 250),
    ("AAAACQAAAAAAAAAAAAAAAAAAA4Q=", .u128 0 900),
    ("AAAAAQ==", .other),
    ("AAAAEgAAAAAAAAAAAQEBAQEBAQEBAQEBAQEBAQEBAQEBAQEBAQEBAQEBAQE=",
      .address (.account (List.replicate 32 1)))]

/-- What the recorded events decode to. -/
def recordedValues : List (String × ScVal) :=
  recordedTopics ++ [(recordedCreation, .map (some
    [(.symbol "buyer", .address (.account (List.replicate 32 2))),
      (.symbol "due_date", .u64 1800000000), (.symbol "face_value", .u128 0 1000),
      (.symbol "id", .bytes (List.replicate 32 171)),
      (.symbol "issuer", .address (.account (List.replicate 32 1)))]))]

/-- The SDK on the recorded events. -/
def recordedSdk : Sdk where
  unmarshalBase64 s :=
    match recordedValues.lookup s with
    | some v => .ok v
    | none => .error (.new "decoding ScVal")
  strkeyEncode _ key :=
    if key = List.replicate 32 1 then "GAAQCAIBAEAQCAIBAEAQCAIBAEAQCAIBAEAQCAIBAEAQCAIBAEAQDZ7H"
    else "GABAEAQCAIBAEAQCAIBAEAQCAIBAEAQCAIBAEAQCAIBAEAQCAIBAEJXA"
  parseFull _ := .ok "GA5WUJ54Z23KILLCUOUNAKTPBVZWKMQVO4O6EQ5GHLAERIMLLHNCSKYH"
  parseRFC3339 s := if s = "2026-01-01T00:00:00Z" then some 1767225600 else none

theorem recordedSeed_valid :
    getServerKeypair recordedSdk "SAAAAAAAAAAAAAAAAAAAAAAAAAAAAAAAAAAAAAAAAAAAAAAAAAAABSU2" =
      .ok "GA5WUJ54Z23KILLCUOUNAKTPBVZWKMQVO4O6EQ5GHLAERIMLLHNCSKYH" := by
  decide +kernel

theorem recordedSeed_exists : ∃ kp, getServerKeypair recordedSdk
    "SAAAAAAAAAAAAAAAAAAAAAAAAAAAAAAAAAAAAAAAAAAAAAAAAAAABSU2" = .ok kp :=
  ⟨_, recordedSeed_valid⟩

/-- A listener of the recorded events. -/
def recordedListener (depth : ℤ) : EventListener where
  sdk := recordedSdk
  cfg := ⟨"SAAAAAAAAAAAAAAAAAAAAAAAAAAAAAAAAAAAAAAAAAAAAAAAAAAABSU2",
    "CAEQSCIJBEEQSCIJBEEQSCIJBEEQSCIJBEEQSCIJBEEQSCIJBEEQTD2L", "", "", "", depth⟩
  dispatcher := true
  seed_valid := recordedSeed_exists

/-- The environment in which nothing fails. -/
def calm : Oracle := ⟨noFaults, fun n => 1767225700000000000 + n, fun _ => .ok (.map none)⟩

/-- A migrated database with no rows. -/
def freshDb : Db := ⟨.empty, ⟨[], ⟨0, 0, 0, 0, 0, 0, 0⟩, [], none⟩, 0, false⟩

/-- A recorded registration. -/
def registration (id : String) (ledger : ℤ) : SorobanEvent :=
  ⟨id, "CAEQSCIJBEEQSCIJBEEQSCIJBEEQSCIJBEEQSCIJBEEQSCIJBEEQTD2L", ledger, "2026-01-01T00:00:00Z",
    ["AAAADwAAABFpc3N1ZXJfcmVnaXN0ZXJlZAAAAA==",
      "AAAAEgAAAAAAAAAAAQEBAQEBAQEBAQEBAQEBAQEBAQEBAQEBAQEBAQEBAQE="], "AAAAAQ=="⟩

end Recorded

/-- Two pages of one poll, the tip two ledgers further on the second. -/
def overtakingPages : List GetEventsResult :=
  [⟨104, [registration "e1" 101, registration "e2" 102], "c1"⟩, ⟨106, [registration "e3" 103], ""⟩]

/-- At depth 3 the first page defers ledger 102, and the poll resumes from ledger 104. -/
theorem pollEventsRange_skips_overtaken :
    let out := pollEventsRange (recordedListener 3) calm 100 0
      ⟨.ok 106, overtakingPages.map .ok⟩ freshDb
    out.1 = (104, none) ∧ out.2.pages = overtakingPages
      ∧ registration "e2" 102 ∈ overtakingPages.flatMap (·.events)
      ∧ ¬ out.2.settled (registration "e2" 102) := by
  unfold Poll.settled
  decide +kernel

/-- Pages of one poll under a tip that does not move. -/
def steadyPages : List GetEventsResult :=
  [⟨104, [registration "e1" 100, registration "e2" 101], "c1"⟩, ⟨104, [registration "e3" 103], ""⟩]

theorem steadyPages_noneOvertaken : NoneOvertaken 3 100 steadyPages := by
  intro _ _ res hres ev hev _ hlt
  have htip : int32 (safeLedger 3 (tipOf steadyPages) + 1) = 102 := by decide
  rw [htip] at hlt
  simp only [steadyPages, List.mem_cons, List.not_mem_nil, or_false] at hres
  rcases hres with rfl | rfl
  · refine ⟨[], _, _, rfl, hev, ?_⟩
    have hsafe : ev.ledger ≤ safeLedger 3 104 := by
      have : safeLedger 3 104 = 101 := by decide
      omega
    have hpage : tipOf ([] ++ [(⟨104, [registration "e1" 100, registration "e2" 101], "c1"⟩ :
        GetEventsResult)]) = 104 := by decide
    rw [hpage]
    simp [confirms, hsafe]
  · simp only [List.mem_singleton] at hev
    subst hev
    simp [registration] at hlt

theorem pollEventsRange_settles_steady :
    NoneOvertaken 3 100 steadyPages ∧ ∀ res ∈ steadyPages, ∀ ev ∈ res.events, 100 ≤ ev.ledger →
      ev.ledger < 102 → (pollEventsRange (recordedListener 3) calm 100 0
        ⟨.ok 104, steadyPages.map .ok⟩ freshDb).2.settled ev := by
  have hout : (pollEventsRange (recordedListener 3) calm 100 0 ⟨.ok 104, steadyPages.map .ok⟩
      freshDb).1 = (102, none) := by decide +kernel
  exact ⟨steadyPages_noneOvertaken,
    (pollEventsRange_settles_iff (recordedListener 3) calm 100 freshDb (.ok 104) steadyPages
      (Prod.ext hout rfl) (by decide +kernel)).2 steadyPages_noneOvertaken⟩

end TrusTrove
