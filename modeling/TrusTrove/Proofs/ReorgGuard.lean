import TrusTrove.Proofs.Window
import TrusTrove.Proofs.Restart

/-!
# The reorg guard

After a poll that succeeds, the ledger before the position is recorded with its hash, wherever the
position comes from. A poll that moved it put it right after what its tip confirms, so the ledger
recorded is that far behind (`safeLedger_behind`). A poll that left it where `Start` began has
confirmed nothing, and one without a contract goes to the tip: there the record is sound only if the
RPC has reported a latest ledger far enough ahead. In every run that meets this at each tick, all
records are sound (`reorg_guard_sound`).
-/

namespace TrusTrove

open Sql

section Run

variable (L : EventListener)

/-- A run of `Start`: its database, its loop while it goes on, the ledger it began from, and the
latest ledgers the RPC has reported to it. -/
structure GuardRun where
  db : Db
  run : Option Run
  startedFrom : ℤ
  told : List ℤ

/-- `Start` up to its loop. `getLatestLedger` is asked when neither the checkpoint nor `events_log`
says where to begin. -/
def beginRun (O : Oracle) (latest : Except GoError ℤ) (s : Db) : GuardRun :=
  match resumeLedger O latest s with
  | .error _ => ⟨s, none, 0, []⟩
  | .ok ledger => ⟨s, some ⟨ledger, 0, ""⟩, ledger,
      if 0 < getCheckpoint s.shared ∨ 0 < latestProcessedLedger s.tables then []
      else latest.toOption.toList⟩

/-- The latest ledgers a tick is told. -/
def tickTold (i : TickInput) (r : Run) (s : Db) : List ℤ :=
  if verifyFinalizedLedger i.verifyHash r then
    if contractIDs L.cfg = [] then i.rpc.latest.toOption.toList
    else reported
      ((pollEventsRange L i.oracle r.currentLedger 0 i.rpc s).2.pages.map (·.latestLedger))
  else []

/-- One tick of the run; after a reorg `Start` has returned. -/
def GuardRun.tick (i : TickInput) (w : GuardRun) : GuardRun :=
  match w.run with
  | none => w
  | some r =>
    let out := startTick L i r w.db
    ⟨out.2.db, out.1, w.startedFrom, w.told ++ tickTold L i r w.db⟩

def guardRun (ticks : List TickInput) (w : GuardRun) : GuardRun :=
  ticks.foldl (fun w i => w.tick L i) w

/-- Some latest ledger is that far ahead of the ledger. -/
def Behind (depth ledger : ℤ) (told : List ℤ) : Prop := ∃ l ∈ told, ledger ≤ l - depth

/-- A tip that confirms nothing from the ledger on. -/
def Unconfirmed (depth ledger tip : ℤ) : Prop := tip < ledger ∨ safeLedger depth tip < ledger

/-- The ledger before a position that a poll which succeeds has not moved: without a contract that
is the tip, else the one before the ledger `Start` began from, where the loop still stands there and
the tips of the poll confirm nothing from it on. -/
def GuardRun.Unmoved (i : TickInput) (r : Run) (w : GuardRun) (ledger : ℤ) : Prop :=
  if contractIDs L.cfg = [] then ∃ latest, i.rpc.latest = .ok latest ∧ ledger = int32 latest
  else r.currentLedger = w.startedFrom ∧ ledger = int32 (w.startedFrom - 1)
    ∧ (pollEventsRange L i.oracle r.currentLedger 0 i.rpc w.db).1.2 = none
    ∧ Unconfirmed (confirmationDepth L.cfg) w.startedFrom
      (lastTip ((pollEventsRange L i.oracle r.currentLedger 0 i.rpc w.db).2.pages.map
        (·.latestLedger)))

/-- A tick that has not moved the position records no ledger before it, or one that is behind a
latest ledger reported by then. -/
def GuardRun.Safe (i : TickInput) (w : GuardRun) : Prop :=
  ∀ r h ledger, w.run = some r → verifyFinalizedLedger i.verifyHash r = true →
    i.recordHash = .ok h → w.Unmoved L i r ledger →
    ledger ≤ r.finalizedLedger ∨ ledger ≤ 0
      ∨ Behind (confirmationDepth L.cfg) ledger (w.told ++ tickTold L i r w.db)

/-- Every tick of the run is safe. -/
def SafeTicks : List TickInput → GuardRun → Prop
  | [], _ => True
  | i :: ticks, w => w.Safe L i ∧ SafeTicks ticks (w.tick L i)

end Run

section Boundary

variable {depth : ℤ}

theorem Behind.mono {ledger : ℤ} {told told' : List ℤ} (h : Behind depth ledger told)
    (hsub : told ⊆ told') : Behind depth ledger told' := by
  obtain ⟨l, hl, hle⟩ := h
  exact ⟨l, hsub hl, hle⟩

/-- A poll stays at a ledger from which the tip confirms nothing, or the ledger before its position
is what the tip confirms. -/
theorem nextLedger_boundary (hd : 0 < depth) (start tip : ℤ) :
    nextLedger depth start tip = start ∧ Unconfirmed depth start tip
      ∨ int32 (nextLedger depth start tip - 1) = safeLedger depth tip := by
  unfold nextLedger Unconfirmed
  rw [if_pos hd]
  split_ifs with hbefore hsafe
  · exact .inl ⟨rfl, .inl hbefore⟩
  · exact .inl ⟨rfl, .inr hsafe⟩
  · refine .inr ?_
    unfold safeLedger int32
    rw [Int.bmod_sub_bmod, add_sub_cancel_right, Int.bmod_bmod]

theorem safeLedger_behind (hd : 0 < depth) (hfits : depth ≤ 2 ^ 31) (tips : List UInt32) :
    safeLedger depth (lastTip tips) ≤ 0
      ∨ Behind depth (safeLedger depth (lastTip tips)) (reported tips) := by
  rcases hl : (reported tips).getLast? with _ | l
  · have hzero : lastTip tips = int32 0 := by
      simp only [lastTip, hl]
      rfl
    rw [hzero, safeLedger_int32, int32_of_bounds (by omega) (by omega)]
    exact .inl (by omega)
  · have hmem := List.mem_of_getLast? hl
    have hlast : lastTip tips = int32 l := by simp [lastTip, hl]
    rw [hlast, safeLedger_int32]
    refine .inr ⟨l, hmem, int32_le ?_⟩
    simp only [reported, List.mem_map] at hmem
    obtain ⟨t, -, rfl⟩ := hmem
    omega

end Boundary

section Invariant

variable {L : EventListener} {w : GuardRun}

/-- What holds between the ticks of a safe run. -/
structure GuardRun.Sound (L : EventListener) (w : GuardRun) : Prop where
  recorded : ∀ r, w.run = some r →
    r.finalizedLedger = 0 ∨ Behind (confirmationDepth L.cfg) r.finalizedLedger w.told
  position : ∀ r, w.run = some r → contractIDs L.cfg ≠ [] → r.currentLedger = w.startedFrom
    ∨ int32 (r.currentLedger - 1) ≤ 0
    ∨ Behind (confirmationDepth L.cfg) (int32 (r.currentLedger - 1)) w.told

theorem beginRun_sound (O : Oracle) (latest : Except GoError ℤ) (s : Db) :
    (beginRun O latest s).Sound L := by
  unfold beginRun
  split
  · exact ⟨nofun, nofun⟩
  · refine ⟨fun r hr => .inl ?_, fun r hr _ => .inl ?_⟩
    · rw [← Option.some.inj hr]
    · rw [← Option.some.inj hr]

/-- A record is replaced by a newer one, and only when the hash is read. -/
theorem recordFinalizedLedger_cases (hash : Except GoError String) (sequence : ℤ) (r : Run) :
    recordFinalizedLedger hash sequence r = r
      ∨ r.finalizedLedger < sequence ∧ 0 < sequence ∧ ∃ h, hash = .ok h
        ∧ recordFinalizedLedger hash sequence r
          = { r with finalizedLedger := sequence, finalizedHash := h } := by
  unfold recordFinalizedLedger
  split_ifs with hold
  · exact .inl rfl
  · rcases hash with e | h
    · exact .inl rfl
    · exact .inr ⟨by omega, by omega, h, rfl, rfl⟩

/-- What a tick does to the loop of a run that goes on. -/
theorem GuardRun.tick_run (L : EventListener) (i : TickInput) {r r' : Run} (hr : w.run = some r)
    (hr' : (w.tick L i).run = some r') :
    verifyFinalizedLedger i.verifyHash r = true ∧ (r' = r
      ∨ ∃ next p, pollEventsRange L i.oracle r.currentLedger 0 i.rpc w.db = ((next, none), p)
        ∧ r' = recordFinalizedLedger i.recordHash (int32 (next - 1))
          { r with currentLedger := next }) := by
  simp only [GuardRun.tick, hr, startTick] at hr'
  split_ifs at hr' with hverify
  refine ⟨hverify, ?_⟩
  rcases hpoll : pollEventsRange L i.oracle r.currentLedger 0 i.rpc w.db with ⟨⟨next, _ | e⟩, p⟩
  · rw [hpoll] at hr'
    exact .inr ⟨next, p, rfl, (Option.some.inj hr').symm⟩
  · rw [hpoll] at hr'
    exact .inl (Option.some.inj hr').symm

theorem GuardRun.tick_told {i : TickInput} {r : Run} (hr : w.run = some r) :
    (w.tick L i).told = w.told ++ tickTold L i r w.db
      ∧ (w.tick L i).startedFrom = w.startedFrom := by
  unfold GuardRun.tick
  rw [hr]
  exact ⟨rfl, rfl⟩

/-- With a contract, a poll that succeeds stays where it began, its tips confirming nothing, or goes
to a ledger after what they confirm. -/
theorem poll_boundary (hd : 0 < confirmationDepth L.cfg) (hfits : confirmationDepth L.cfg ≤ 2 ^ 31)
    (hids : contractIDs L.cfg ≠ []) {i : TickInput} {r : Run} {s : Db} {next : ℤ} {p : Poll}
    (hverify : verifyFinalizedLedger i.verifyHash r = true)
    (hpoll : pollEventsRange L i.oracle r.currentLedger 0 i.rpc s = ((next, none), p)) :
    next = r.currentLedger ∧ Unconfirmed (confirmationDepth L.cfg) r.currentLedger
        (lastTip (p.pages.map (·.latestLedger)))
      ∨ int32 (next - 1) ≤ 0
      ∨ Behind (confirmationDepth L.cfg) (int32 (next - 1)) (tickTold L i r s) := by
  have htold : tickTold L i r s = reported (p.pages.map (·.latestLedger)) := by
    rw [tickTold, if_pos hverify, if_neg hids, hpoll]
  have hanswers := hpoll
  rw [pollEventsRange, if_neg hids] at hanswers
  rcases pollAnswers_returns L i.oracle r.currentLedger 0 i.rpc.events (pollInit s) rfl
    with ⟨e, hfail⟩ | ⟨pre, -, -, hpages, hnext⟩
  · rw [hanswers] at hfail
    cases hfail
  rw [hanswers] at hpages hnext
  obtain rfl : next = _ := congrArg Prod.fst hnext
  rw [← hpages, tipOf_eq]
  rcases nextLedger_boundary hd r.currentLedger (lastTip (p.pages.map (·.latestLedger)))
    with hstay | hmoved
  · exact .inl hstay
  · rw [hmoved, htold]
    exact .inr (safeLedger_behind hd hfits _)

/-- Without a contract a poll that succeeds goes to the ledger after the tip. -/
theorem pollLatest_boundary (hids : contractIDs L.cfg = []) {i : TickInput} {start next : ℤ}
    {s : Db} {p : Poll}
    (hpoll : pollEventsRange L i.oracle start 0 i.rpc s = ((next, none), p)) :
    ∃ latest, i.rpc.latest = .ok latest ∧ int32 (next - 1) = int32 latest := by
  rw [pollEventsRange, if_pos hids] at hpoll
  unfold pollLatest at hpoll
  rcases hlatest : i.rpc.latest with e | latest
  · simp [hlatest] at hpoll
  · obtain rfl : int32 (latest + 1) = next := by
      simpa [hlatest] using congrArg (·.1.1) hpoll
    refine ⟨latest, rfl, ?_⟩
    unfold int32
    rw [Int.bmod_sub_bmod, add_sub_cancel_right]

theorem GuardRun.Sound.tick (h : w.Sound L) (hd : 0 < confirmationDepth L.cfg)
    (hfits : confirmationDepth L.cfg ≤ 2 ^ 31) {i : TickInput} (hsafe : w.Safe L i) :
    (w.tick L i).Sound L := by
  rcases hrun : w.run with _ | r
  · rwa [GuardRun.tick, hrun]
  obtain ⟨htold, hfrom⟩ := w.tick_told (L := L) (i := i) hrun
  have hsub : w.told ⊆ w.told ++ tickTold L i r w.db := List.subset_append_left _ _
  have hsub' : tickTold L i r w.db ⊆ w.told ++ tickTold L i r w.db := List.subset_append_right _ _
  constructor
  · intro r' hr'
    rw [htold]
    have hold : r.finalizedLedger = 0
        ∨ Behind (confirmationDepth L.cfg) r.finalizedLedger (w.told ++ tickTold L i r w.db) :=
      (h.recorded r hrun).imp id fun h => h.mono hsub
    obtain ⟨hverify, rfl | ⟨next, p, hpoll, rfl⟩⟩ := w.tick_run L i hrun hr'
    · exact hold
    rcases recordFinalizedLedger_cases i.recordHash (int32 (next - 1))
      { r with currentLedger := next } with hsame | ⟨hnewer, hpos, hash, hhash, hrecord⟩
    · rw [hsame]
      exact hold
    rw [hrecord]
    refine .inr ?_
    have hunmoved : w.Unmoved L i r (int32 (next - 1)) →
        Behind (confirmationDepth L.cfg) (int32 (next - 1)) (w.told ++ tickTold L i r w.db) := by
      intro hat
      rcases hsafe r hash _ hrun hverify hhash hat with hle | hle | hbehind
      · exact absurd hnewer (not_lt.2 hle)
      · omega
      · exact hbehind
    by_cases hids : contractIDs L.cfg = []
    · exact hunmoved (by rw [GuardRun.Unmoved, if_pos hids]; exact pollLatest_boundary hids hpoll)
    rcases poll_boundary hd hfits hids hverify hpoll with ⟨rfl, hnone⟩ | hle | hbehind
    · rcases h.position r hrun hids with hat | hle | hbehind
      · refine hunmoved ?_
        rw [GuardRun.Unmoved, if_neg hids, ← hat, hpoll]
        exact ⟨rfl, rfl, rfl, hnone⟩
      · omega
      · exact hbehind.mono hsub
    · omega
    · exact hbehind.mono hsub'
  · intro r' hr' hids
    rw [hfrom, htold]
    obtain ⟨hverify, rfl | ⟨next, p, hpoll, rfl⟩⟩ := w.tick_run L i hrun hr'
    · exact (h.position r' hrun hids).imp id fun h => h.imp id fun h => h.mono hsub
    · rw [recordFinalizedLedger_currentLedger]
      rcases poll_boundary hd hfits hids hverify hpoll with ⟨rfl, -⟩ | hmoved
      · exact (h.position r hrun hids).imp id fun h => h.imp id fun h => h.mono hsub
      · exact .inr (hmoved.imp id fun h => h.mono hsub')

theorem guardRun_sound (hd : 0 < confirmationDepth L.cfg)
    (hfits : confirmationDepth L.cfg ≤ 2 ^ 31) :
    ∀ (ticks : List TickInput) (w : GuardRun), w.Sound L → SafeTicks L ticks w →
      (guardRun L ticks w).Sound L
  | [], _, h, _ => h
  | i :: ticks, w, h, hsafe =>
    guardRun_sound hd hfits ticks (w.tick L i) (h.tick hd hfits hsafe.1) hsafe.2

theorem guardRun_halted (h : w.run = none) : ∀ ticks : List TickInput, guardRun L ticks w = w
  | [] => rfl
  | i :: ticks => by
    have htick : w.tick L i = w := by
      unfold GuardRun.tick
      rw [h]
    show guardRun L ticks (w.tick L i) = w
    rw [htick]
    exact guardRun_halted h ticks

theorem guardRun_monotone : ∀ (ticks : List TickInput) {w : GuardRun} {r r' : Run},
    w.run = some r → (guardRun L ticks w).run = some r' → r.finalizedLedger ≤ r'.finalizedLedger
  | [], w, r, r', hr, hr' => by
    rw [Option.some.inj (hr.symm.trans hr')]
  | i :: ticks, w, r, r', hr, hr' => by
    change (guardRun L ticks (w.tick L i)).run = some r' at hr'
    rcases hmid : (w.tick L i).run with _ | r₁
    · rw [guardRun_halted hmid, hmid] at hr'
      cases hr'
    · refine le_trans ?_ (guardRun_monotone ticks hmid hr')
      obtain ⟨-, rfl | ⟨next, p, -, rfl⟩⟩ := w.tick_run L i hr hmid
      · exact le_rfl
      · rcases recordFinalizedLedger_cases i.recordHash (int32 (next - 1))
          { r with currentLedger := next } with hsame | ⟨hnewer, -, hash, -, hrecord⟩
        · rw [hsame]
        · rw [hrecord]
          exact hnewer.le

/-- A tick that reads another hash for the recorded ledger ends the run, and has touched nothing. -/
theorem GuardRun.tick_mismatch {i : TickInput} {r : Run} {hash : String} (hr : w.run = some r)
    (hpos : 0 < r.finalizedLedger) (hhash : r.finalizedHash ≠ "") (hread : i.verifyHash = .ok hash)
    (hne : hash ≠ r.finalizedHash) : (w.tick L i).run = none ∧ (w.tick L i).db = w.db := by
  have hverify : verifyFinalizedLedger i.verifyHash r = false := by
    unfold verifyFinalizedLedger
    rw [if_neg (by rw [not_or]; exact ⟨by omega, hhash⟩), hread]
    simpa using hne
  unfold GuardRun.tick
  rw [hr]
  simp only [startTick, hverify, Bool.false_eq_true, if_false]
  exact ⟨trivial, rfl⟩

end Invariant

/-- In every run of `Start` whose ticks are all safe, the recorded ledger is always that far behind
a latest ledger the RPC has reported; in every run it never goes back, and once a tick reads another
hash for it nothing is written any more. -/
theorem reorg_guard_sound (L : EventListener) (hd : 0 < confirmationDepth L.cfg) (O : Oracle)
    (latest : Except GoError ℤ) (s : Db) (pre post : List TickInput) (r : Run)
    (hr : (guardRun L pre (beginRun O latest s)).run = some r) :
    let w := guardRun L pre (beginRun O latest s)
    (confirmationDepth L.cfg ≤ 2 ^ 31 → SafeTicks L pre (beginRun O latest s) →
        r.finalizedLedger = 0 ∨ ∃ l ∈ w.told, r.finalizedLedger ≤ l - confirmationDepth L.cfg)
      ∧ (∀ mid, mid <+: post → ∀ r', (guardRun L mid w).run = some r' →
        r.finalizedLedger ≤ r'.finalizedLedger)
      ∧ ∀ i rest hash, post = i :: rest → 0 < r.finalizedLedger → r.finalizedHash ≠ "" →
        i.verifyHash = .ok hash → hash ≠ r.finalizedHash →
        ∀ mid, mid <+: post → (guardRun L mid w).db = w.db := by
  intro w
  refine ⟨fun hfits hsafe => ?_, fun mid _ r' hr' => guardRun_monotone mid hr hr', ?_⟩
  · exact (guardRun_sound hd hfits pre _ (beginRun_sound O latest s) hsafe).recorded r hr
  · rintro i rest hash rfl hpos hhash hread hne mid hmid
    rcases mid with _ | ⟨j, mid⟩
    · rfl
    obtain ⟨rfl, -⟩ := List.cons_prefix_cons.1 hmid
    obtain ⟨hhalted, hdb⟩ := GuardRun.tick_mismatch (L := L) hr hpos hhash hread hne
    show (guardRun L mid (w.tick L j)).db = w.db
    rw [guardRun_halted hhalted, hdb]

/-- The first tick of a listener started on an empty database at ledger 104, the tip. -/
def tipTick : TickInput := ⟨calm, ⟨.ok 104, [.ok ⟨104, [], ""⟩]⟩, .ok "", .ok "h103"⟩

/-- At depth 3 ledger 103 is recorded, a single ledger behind the tip. -/
theorem reorg_guard_records_window :
    let w := guardRun (recordedListener 3) [tipTick] (beginRun calm (.ok 104) freshDb)
    w.run = some ⟨104, 103, "h103"⟩ ∧ w.told = [104, 104]
      ∧ ¬ ∃ l ∈ w.told, (103 : ℤ) ≤ l - confirmationDepth (recordedListener 3).cfg := by
  decide +kernel

/-- A database with a checkpoint. -/
def checkpointedDb : Db := { freshDb with shared := { freshDb.shared with checkpoint := some 90 } }

/-- A tick that finds the tip at 104 and reads this hash for the recorded ledger. -/
def checkpointTick (hash : String) : TickInput :=
  ⟨calm, ⟨.ok 104, [.ok ⟨104, [], ""⟩]⟩, .ok hash, .ok "h101"⟩

theorem checkpointTicks_safe :
    SafeTicks (recordedListener 3) [checkpointTick ""]
      (beginRun calm (.ok 104) checkpointedDb) := by
  refine ⟨fun r h ledger hr _ _ hat => ?_, trivial⟩
  have hrun : (beginRun calm (.ok 104) checkpointedDb).run = some ⟨90, 0, ""⟩ := by decide +kernel
  obtain rfl : ⟨90, 0, ""⟩ = r := Option.some.inj (hrun.symm.trans hr)
  have htip : lastTip ((pollEventsRange (recordedListener 3) (checkpointTick "").oracle 90 0
      (checkpointTick "").rpc (beginRun calm (.ok 104) checkpointedDb).db).2.pages.map
        (·.latestLedger)) = 104 := by
    decide +kernel
  rw [GuardRun.Unmoved, if_neg (by decide), htip] at hat
  obtain ⟨-, -, -, hnone⟩ := hat
  exact absurd hnone (by unfold Unconfirmed; decide +kernel)

/-- A listener that resumes from the checkpoint records ledger 101, and a reorg of it halts it. -/
theorem reorg_guard_halts :
    let w := guardRun (recordedListener 3) [checkpointTick ""]
      (beginRun calm (.ok 104) checkpointedDb)
    w.run = some ⟨102, 101, "h101"⟩ ∧ (∃ l ∈ w.told, (101 : ℤ) ≤ l - 3)
      ∧ (guardRun (recordedListener 3) [checkpointTick "other"] w).db = w.db := by
  intro w
  have hrun : w.run = some ⟨102, 101, "h101"⟩ := by decide +kernel
  obtain ⟨hbehind, -, hhalts⟩ := reorg_guard_sound (recordedListener 3) (by decide) calm (.ok 104)
    checkpointedDb [checkpointTick ""] [checkpointTick "other"] ⟨102, 101, "h101"⟩ hrun
  refine ⟨hrun, (hbehind (by decide) checkpointTicks_safe).resolve_left (by decide), ?_⟩
  exact hhalts (checkpointTick "other") [] "other" rfl (by decide) (by decide) rfl (by decide) _
    (List.prefix_refl _)

end TrusTrove
