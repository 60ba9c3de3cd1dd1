import TrusTrove.Proofs.ExactlyOnce

/-!
# Crashes and restarts

A run of `Start` is a start, ticks, and at any moment a crash; a crash inside a tick is one after a
tick whose statements fail from that moment on. What survives is the database. An event is
outstanding when the RPC delivered it, the listener records its type, and `events_log` does not
hold it.

The ledger of the loop never passes an outstanding event, and neither does a checkpoint
(`Steady`): a poll that moves on has settled everything below the ledger it moves to
(`poll_passes_none`), as long as no deferred event is overtaken. A restart without a checkpoint
resumes after the newest ledger of `events_log`, which may be only half processed, or at the tip. It
is safe when nothing recorded was delivered yet, and that is so (`nothing_received`) if no process
is stopped between the first recorded event it is served and its first checkpoint.
-/

namespace TrusTrove

open Sql

section Poll

variable {L : EventListener} {O : Oracle} {start fin : ℤ} {s : Db}

/-- What a poll keeps of the database it found, and that what it settles is in `events_log`. -/
structure Poll.Keeps (L : EventListener) (s : Db) (p : Poll) : Prop where
  logged : ∀ id, s.tables.logged id = true → p.db.tables.logged id = true
  checkpoint : p.db.shared.checkpoint = s.shared.checkpoint
  settled : ∀ ev, p.settled ev → recognised L ev = true → p.db.tables.logged ev.id = true

theorem pollInit_keeps (s : Db) : (pollInit s).Keeps L s :=
  ⟨fun _ h => h, rfl, fun ev h => by simp [Poll.settled, pollInit] at h⟩

theorem handleEvent_recognised {stats : Except GoError ScVal} {now : ℕ} {fails : ℕ → Bool}
    {ev : SorobanEvent} (hev : recognised L ev = true)
    (hok : (handleEvent L stats now fails s ev).1 = .ok ()) :
    (handleEvent L stats now fails s ev).2.tables.logged ev.id = true := by
  unfold recognised at hev
  split at hev
  · rename_i name hname
    obtain ⟨kind, hkind⟩ := Option.isSome_iff_exists.1 hev
    exact handleEvent_logged hname hkind hok
  · simp at hev

/-- The events of a page, of which those found logged are. -/
theorem handlePending_keeps (O : Oracle) (processed : List String) :
    ∀ (evs : List SorobanEvent) (p : Poll), p.Keeps L s →
      (∀ id ∈ processed, p.db.tables.logged id = true) →
      (handlePending L O processed evs p).2.Keeps L s
  | [], p, hp, _ => hp
  | ev :: evs, p, hp, hlook => by
    simp only [handlePending]
    split_ifs with hproc
    · refine handlePending_keeps O processed evs _
        ⟨hp.logged, hp.checkpoint, fun x hx hrec => ?_⟩ hlook
      simp only [Poll.settled, List.mem_append, List.mem_singleton] at hx
      rcases hx with hx | hx | rfl
      · exact hp.settled x (.inl hx) hrec
      · exact hp.settled x (.inr hx) hrec
      · exact hlook _ hproc
    · obtain ⟨hwrites, -, hckpt⟩ :=
        handleEvent_writes L (O.stats p.db.tick) (O.now p.db.tick) ev O.fails p.db
      split <;> rename_i hev
      · rw [hev] at hwrites hckpt
        exact ⟨fun id h => (hwrites.logged id).1 (hp.logged id h), hckpt.trans hp.checkpoint,
          fun x hx hrec => (hwrites.logged x.id).1 (hp.settled x hx hrec)⟩
      · have hself := fun hrec => handleEvent_recognised (L := L) hrec (congrArg Prod.fst hev)
        rw [hev] at hwrites hckpt hself
        refine handlePending_keeps O processed evs _
          ⟨fun id h => (hwrites.logged id).1 (hp.logged id h),
          hckpt.trans hp.checkpoint, fun x hx hrec => ?_⟩
          fun id h => (hwrites.logged id).1 (hlook id h)
        simp only [Poll.settled, List.map_append, List.map_cons, List.map_nil, List.mem_append,
          List.mem_singleton] at hx
        rcases hx with (hx | rfl) | hx
        · exact (hwrites.logged x.id).1 (hp.settled x (.inl hx) hrec)
        · exact hself hrec
        · exact (hwrites.logged x.id).1 (hp.settled x (.inr hx) hrec)

theorem areEventsProcessed_logged {ids processed : List String} {fails : ℕ → Bool} {db : Db}
    (h : areEventsProcessed ids fails s = (.ok processed, db)) :
    ∀ id ∈ processed, s.tables.logged id = true := by
  unfold areEventsProcessed at h
  intro id hid
  split_ifs at h with hids hfail
  · obtain ⟨rfl, -⟩ : [] = processed ∧ s = db := by simpa using h
    simp at hid
  · simp at h
  · obtain rfl : ids.filter s.tables.logged = processed := by
      simpa using congrArg Prod.fst h
    exact (List.mem_filter.1 hid).2

theorem pollPage_keeps {p p' : Poll} {res : GetEventsResult} (hp : p.Keeps L s)
    (h : pollPage L O start fin p res = .next p' ∨ pollPage L O start fin p res = .done p'
      ∨ ∃ e, pollPage L O start fin p res = .fail p' e) : p'.Keeps L s := by
  have hq : (receivePage p res).Keeps L s := ⟨hp.logged, hp.checkpoint, hp.settled⟩
  have hdb : ∀ db : Db, db.tables = (receivePage p res).db.tables →
      db.shared = (receivePage p res).db.shared →
        ({ receivePage p res with db } : Poll).Keeps L s := by
    intro db htab hsh
    refine ⟨fun id hid => ?_, ?_, fun ev hev hrec => ?_⟩
    · simp only [htab]
      exact hq.logged id hid
    · simp only [hsh]
      exact hq.checkpoint
    · simp only [htab]
      exact hq.settled ev hev hrec
  rcases pollPage_cases L O start fin p res with ⟨-, hd⟩ | ⟨e, db, hlook, e', hf⟩
      | ⟨processed, db, hlook, r, p₁, hrun, hflow⟩
  · obtain rfl : receivePage p res = p' := by simpa [hd] using h
    exact hq
  all_goals
    obtain ⟨htab, hsh, -⟩ := areEventsProcessed_tables
      ((pendingEvents L fin (receivePage p res).latestLedgerSeq res.events).map (·.id)) O.fails
      (receivePage p res).db
    rw [hlook] at htab hsh
  · obtain rfl : { receivePage p res with db } = p' := by simpa [hf] using h
    exact hdb db htab hsh
  · have hp₁ := handlePending_keeps O processed
      (pendingEvents L fin (receivePage p res).latestLedgerSeq res.events) _ (hdb db htab hsh)
      fun id hid => htab ▸ areEventsProcessed_logged hlook id hid
    rw [hrun] at hp₁
    rcases hflow with ⟨e, -, hf⟩ | ⟨-, ⟨-, hd⟩ | ⟨-, hn⟩⟩
    · obtain rfl : p₁ = p' := by simpa [hf] using h
      exact hp₁
    · obtain rfl : p₁ = p' := by simpa [hd] using h
      exact hp₁
    · obtain rfl : { p₁ with cursor := res.cursor } = p' := by simpa [hn] using h
      exact ⟨hp₁.logged, hp₁.checkpoint, hp₁.settled⟩

theorem pollEventsRange_keeps (L : EventListener) (O : Oracle) (start fin : ℤ) (rpc : RpcAnswers)
    (s : Db) :
    (pollEventsRange L O start fin rpc s).2.Keeps L s := by
  unfold pollEventsRange
  split_ifs
  · unfold pollLatest
    split <;> exact pollInit_keeps s
  · refine pollAnswers_induct (V := fun _ => True) (I := Poll.Keeps L s)
      (J := fun out => out.2.Keeps L s)
      ?_ ?_ ?_ ?_ _ _ (fun _ _ => trivial) (pollInit_keeps s)
    · exact fun p e hp => hp
    · exact fun p res p' _ hp h => pollPage_keeps hp (.inl h)
    · exact fun p res p' _ hp h => pollPage_keeps hp (.inr (.inl h))
    · exact fun p res p' e _ hp h => pollPage_keeps hp (.inr (.inr ⟨e, h⟩))

/-- The page a returned poll ended on: none of its events was confirmed, or it was the last. -/
theorem pollAnswers_last (answers : List (Except GoError GetEventsResult)) (p : Poll)
    (hp : p.Settles (confirmationDepth L.cfg)) {next : ℤ} {p' : Poll}
    (h : pollAnswers L O start 0 answers p = ((next, none), p')) :
    ∃ pre last, p'.pages = pre ++ [last]
      ∧ (last.cursor = "" ∨ ∀ ev ∈ last.events,
        confirms (confirmationDepth L.cfg) (tipOf p'.pages) ev.ledger = false) := by
  refine pollAnswers_induct (L := L) (O := O) (V := fun _ => True)
    (I := Poll.Settles (confirmationDepth L.cfg))
    (J := fun out => ∀ next p', out = ((next, none), p') → ∃ pre last, p'.pages = pre ++ [last]
      ∧ (last.cursor = "" ∨ ∀ ev ∈ last.events,
        confirms (confirmationDepth L.cfg) (tipOf p'.pages) ev.ledger = false))
    ?_ ?_ ?_ ?_ answers p (fun _ _ => trivial) hp next p' h
  · intro p e _ next p' hout
    simp [pollCallFailed] at hout
  · exact fun p res p' _ hp hpage => pollPage_settles hp (.inl hpage)
  · intro p res p₁ _ hp hpage next p' hout
    have htip := (pollPage_settles hp (.inr hpage)).tip
    obtain rfl : p₁ = p' := congrArg Prod.snd hout
    rcases pollPage_cases L O start 0 p res with ⟨hnil, hd⟩ | ⟨e, db, -, e', hf⟩
        | ⟨processed, db, -, r, p₂, hrun, ⟨e, -, hf⟩ | ⟨rfl, ⟨hcur, hd⟩ | ⟨-, hn⟩⟩⟩
    · obtain rfl : receivePage p res = p₁ := by simpa [hd] using hpage
      refine ⟨p.pages, res, rfl, .inr fun ev hev => ?_⟩
      rw [← htip]
      by_contra hconf
      have hmem := mem_pendingEvents.2 ⟨hev, by simpa using hconf⟩
      rw [hnil] at hmem
      simp at hmem
    · simp [hf] at hpage
    · simp [hf] at hpage
    · obtain rfl : p₂ = p₁ := by simpa [hd] using hpage
      exact ⟨p.pages, res, (handlePending_settled _ _ _ hrun).1, .inl (by simpa using hcur)⟩
    · simp [hn] at hpage
  · intro p res p₁ e _ _ _ next p' hout
    simp at hout

end Poll

section Served

/-- The pages of one poll, as the RPC serves a history of the chain from a start ledger: events of
the history, and all of them up to the tip, those apart that come after a last page with a
cursor. -/
structure Serves (history : List SorobanEvent) (start : ℤ) (pages : List GetEventsResult) :
    Prop where
  real : ∀ res ∈ pages, ∀ ev ∈ res.events, ev ∈ history ∧ start ≤ ev.ledger
  range : ∀ res ∈ pages, res.latestLedger.toNat < 2 ^ 31 - 1
  complete : ∀ ev ∈ history, start ≤ ev.ledger → ev.ledger ≤ tipOf pages →
    (∃ res ∈ pages, ev ∈ res.events) ∨ ∃ pre last, pages = pre ++ [last] ∧ last.cursor ≠ ""
      ∧ last.events ≠ [] ∧ ∀ x ∈ last.events, x.ledger ≤ ev.ledger

theorem tipOf_range {pages : List GetEventsResult}
    (h : ∀ res ∈ pages, res.latestLedger.toNat < 2 ^ 31 - 1) :
    0 ≤ tipOf pages ∧ tipOf pages < 2 ^ 31 - 1 := by
  induction pages using List.reverseRecOn with
  | nil => simp [tipOf]
  | append_singleton pages res ih =>
    rw [tipOf_snoc]
    split_ifs
    · exact ih fun r hr => h r (List.mem_append_left _ hr)
    · have hres := h res (List.mem_append_right _ List.mem_cons_self)
      rw [int32_of_bounds] <;> omega

/-- Within the range of ledgers, a poll resumes from its start or from after what its tip
confirms. -/
theorem nextLedger_range {depth tip : ℤ} (start : ℤ) (hd₀ : 0 ≤ depth) (hd : depth < 2 ^ 31)
    (ht₀ : 0 ≤ tip) (ht : tip < 2 ^ 31 - 1) :
    start ≤ nextLedger depth start tip ∧ (nextLedger depth start tip = start
      ∨ nextLedger depth start tip = safeLedger depth tip + 1 ∧ safeLedger depth tip ≤ tip) := by
  have hdepth : int32 depth = depth := int32_of_bounds (by omega) hd
  have hsafe : safeLedger depth tip = tip - depth := by
    rw [safeLedger, hdepth, int32_of_bounds] <;> omega
  unfold nextLedger
  rw [hsafe, int32_of_bounds (x := tip - depth + 1) (by omega) (by omega),
    int32_of_bounds (x := tip + 1) (by omega) (by omega)]
  split_ifs <;> omega

variable {L : EventListener} {O : Oracle} {start next : ℤ} {s : Db} {rpc : RpcAnswers} {p : Poll}
  {history : List SorobanEvent}

/-- A poll that returns, and overtakes no deferred event, moves past no event of the history that
is recorded and not logged. -/
theorem poll_passes_none (hids : contractIDs L.cfg ≠ []) (hdepth : confirmationDepth L.cfg < 2 ^ 31)
    (h : pollEventsRange L O start 0 rpc s = ((next, none), p))
    (hserves : Serves history start p.pages)
    (hnone : NoneOvertaken (confirmationDepth L.cfg) start p.pages) :
    start ≤ next ∧ ∀ ev ∈ history, start ≤ ev.ledger → recognised L ev = true →
      p.db.tables.logged ev.id = false → next ≤ ev.ledger := by
  have hkeeps := pollEventsRange_keeps L O start 0 rpc s
  rw [h] at hkeeps
  have hd₀ : 0 ≤ confirmationDepth L.cfg := by
    unfold confirmationDepth
    split_ifs <;> omega
  obtain ⟨ht₀, ht⟩ := tipOf_range hserves.range
  unfold pollEventsRange at h
  rw [if_neg hids] at h
  obtain ⟨hset, rfl⟩ := pollAnswers_settles _ _ (pollInit_settles _ s) h
  obtain ⟨pre, last, hpages, hlast⟩ := pollAnswers_last _ _ (pollInit_settles _ s) h
  obtain ⟨hge, hnext⟩ := nextLedger_range start hd₀ hdepth ht₀ ht
  refine ⟨hge, fun ev hev hstart hrec hlog => ?_⟩
  by_contra hlt
  rw [not_le] at hlt
  obtain ⟨hnext, hsafe⟩ : nextLedger (confirmationDepth L.cfg) start (tipOf p.pages) =
      safeLedger (confirmationDepth L.cfg) (tipOf p.pages) + 1
      ∧ safeLedger (confirmationDepth L.cfg) (tipOf p.pages) ≤ tipOf p.pages := by
    rcases hnext with hnext | hnext
    · omega
    · exact hnext
  rcases hserves.complete ev hev hstart (by omega) with ⟨res, hres, hmem⟩
      | ⟨pre', last', hpages', hcur, hne, hle⟩
  · have hsettled := hset.below_iff.2 hnone res hres ev hmem hstart hlt
    rw [hkeeps.settled ev hsettled hrec] at hlog
    cases hlog
  · obtain ⟨-, heq⟩ := List.append_inj' (hpages.symm.trans hpages') rfl
    obtain rfl : last = last' := by simpa using heq
    rcases hlast with hlast | hlast
    · exact hcur hlast
    · obtain ⟨x, hx⟩ := List.exists_mem_of_ne_nil _ hne
      have hx' := hlast x hx
      have hxle := hle x hx
      simp only [confirms, Bool.or_eq_false_iff, decide_eq_false_iff_not, not_le] at hx'
      omega

end Served

section System

/-- The listener and its database: the loop of the process that runs, if one does, the ledger the
latest process started from, and every event the RPC has delivered so far. -/
structure World where
  db : Db
  run : Option Run
  lastStart : Option ℤ
  delivered : List SorobanEvent

/-- What happens next: a process is started, its loop ticks, or it crashes. -/
inductive ListenerStep
  | start (oracle : Oracle) (latest : Except GoError ℤ)
  | tick (input : TickInput)
  | crash

variable (L : EventListener)

def ListenerStep.apply : ListenerStep → World → World
  | start oracle latest, w =>
    match resumeLedger oracle latest w.db with
    | .error _ => { w with run := none }
    | .ok ledger => { w with run := some ⟨ledger, 0, ""⟩, lastStart := some ledger }
  | tick input, w =>
    match w.run with
    | none => w
    | some r =>
      let out := startTick L input r w.db
      ⟨out.2.db, out.1, w.lastStart, w.delivered ++ out.2.pages.flatMap (·.events)⟩
  | crash, w => { w with run := none }

def listenerRun (steps : List ListenerStep) (w : World) : World :=
  steps.foldl (fun w step => step.apply L w) w

/-- The RPC delivered the event at or after the start of the latest process, the listener records
its type, and `events_log` does not hold it. -/
def Outstanding (w : World) (ev : SorobanEvent) : Prop :=
  (∃ start, w.lastStart = some start ∧ start ≤ ev.ledger) ∧ ev ∈ w.delivered
    ∧ recognised L ev = true ∧ w.db.tables.logged ev.id = false

/-- The RPC serves the history to the poll of the step. -/
def ListenerStep.Served (history : List SorobanEvent) (w : World) : ListenerStep → Prop
  | tick input => ∀ r, w.run = some r →
      Serves history r.currentLedger (startTick L input r w.db).2.pages
  | _ => True

/-- The poll of the step overtakes no deferred event if it returns. -/
def ListenerStep.Safe (w : World) : ListenerStep → Prop
  | tick input => ∀ r next p, w.run = some r →
      pollEventsRange L input.oracle r.currentLedger 0 input.rpc w.db = ((next, none), p) →
      NoneOvertaken (confirmationDepth L.cfg) r.currentLedger p.pages
  | _ => True

/-- The poll of the step is served an event the listener records. -/
def ListenerStep.Receives (w : World) : ListenerStep → Prop
  | tick input => ∃ r, w.run = some r ∧ ∃ res ∈ (startTick L input r w.db).2.pages,
      ∃ ev ∈ res.events, recognised L ev = true
  | _ => False

/-- The poll of the step returns, and the statement that writes the checkpoint does not fail. -/
def ListenerStep.Checkpoints (w : World) : ListenerStep → Prop
  | tick input => ∃ r next p, w.run = some r ∧ 0 < r.currentLedger
      ∧ verifyFinalizedLedger input.verifyHash r = true
      ∧ pollEventsRange L input.oracle r.currentLedger 0 input.rpc w.db = ((next, none), p)
      ∧ input.oracle.fails p.db.tick = false
  | _ => False

/-- While there is no checkpoint, a step that is served a recorded event is not followed by a start
before a step that writes one. -/
def FirstCheckpoint (steps : List ListenerStep) (w : World) : Prop :=
  ∀ (pre : List ListenerStep) (step : ListenerStep) (mid : List ListenerStep) oracle latest
    (post : List ListenerStep), steps = pre ++ (step :: mid) ++ .start oracle latest :: post →
    getCheckpoint (listenerRun L pre w).db.shared ≤ 0 → step.Receives L (listenerRun L pre w) →
    ∃ mid₁ step' mid₂, step :: mid = mid₁ ++ step' :: mid₂
      ∧ step'.Checkpoints L (listenerRun L (pre ++ mid₁) w)

/-- What the ledger of the loop and the checkpoint say of the outstanding events. -/
structure Steady (history : List SorobanEvent) (w : World) : Prop where
  real : ∀ ev ∈ w.delivered, ev ∈ history
  position : ∀ r, w.run = some r → ∀ ev, Outstanding L w ev → r.currentLedger ≤ ev.ledger
  checkpoint : 0 < getCheckpoint w.db.shared → ∀ ev, Outstanding L w ev →
    getCheckpoint w.db.shared ≤ ev.ledger
  behind : ∀ r, w.run = some r → 0 < getCheckpoint w.db.shared →
    getCheckpoint w.db.shared ≤ r.currentLedger

end System

section Tick

variable {L : EventListener} {history : List SorobanEvent} {w : World}

theorem upsertCheckpoint_cases (ledger : ℤ) (fails : ℕ → Bool) (s : Db) :
    (upsertCheckpoint ledger fails s).tables = s.tables
      ∧ (getCheckpoint (upsertCheckpoint ledger fails s).shared = ledger
        ∨ (upsertCheckpoint ledger fails s).shared = s.shared) := by
  unfold upsertCheckpoint
  split_ifs
  · exact ⟨rfl, .inr rfl⟩
  · exact ⟨rfl, .inl rfl⟩

theorem recordFinalizedLedger_currentLedger (hash : Except GoError String)
    (sequence : ℤ) (r : Run) :
    (recordFinalizedLedger hash sequence r).currentLedger = r.currentLedger := by
  unfold recordFinalizedLedger
  split_ifs
  · rfl
  · split <;> rfl

/-- What a tick does: it halts the listener, polls in vain, or moves on. -/
theorem startTick_cases (L : EventListener) (i : TickInput) (r : Run) (s : Db) :
    startTick L i r s = (none, pollInit s)
    ∨ (∃ next e p, pollEventsRange L i.oracle r.currentLedger 0 i.rpc s = ((next, some e), p)
        ∧ startTick L i r s = (some r, p))
    ∨ ∃ next p, pollEventsRange L i.oracle r.currentLedger 0 i.rpc s = ((next, none), p)
        ∧ ∃ r', r'.currentLedger = next
          ∧ startTick L i r s
            = (some r', { p with db := upsertCheckpoint next i.oracle.fails p.db }) := by
  unfold startTick
  split_ifs
  · rcases hpoll : pollEventsRange L i.oracle r.currentLedger 0 i.rpc s with ⟨⟨next, _ | e⟩, p⟩
    · exact .inr (.inr ⟨next, p, rfl, _, recordFinalizedLedger_currentLedger .., rfl⟩)
    · exact .inr (.inl ⟨next, e, p, rfl, rfl⟩)
  · exact .inl rfl

/-- What is outstanding after a poll is an event of the history at or after the poll's start, and so
not before a checkpoint that was there. -/
theorem Steady.outstanding_after (h : Steady L history w) {r : Run} (hr : w.run = some r) {db : Db}
    {run : Option Run} {pages : List GetEventsResult}
    (hlogged : ∀ id, w.db.tables.logged id = true → db.tables.logged id = true)
    (hserves : Serves history r.currentLedger pages) {ev : SorobanEvent}
    (hout : Outstanding L ⟨db, run, w.lastStart, w.delivered ++ pages.flatMap (·.events)⟩ ev) :
    ev ∈ history ∧ r.currentLedger ≤ ev.ledger
      ∧ (0 < getCheckpoint w.db.shared → getCheckpoint w.db.shared ≤ ev.ledger) := by
  obtain ⟨hstart, hmem, hrec, hlog⟩ := hout
  have hpos : ev ∈ history ∧ r.currentLedger ≤ ev.ledger := by
    rcases List.mem_append.1 hmem with hmem | hmem
    · have hold : w.db.tables.logged ev.id = false := by
        by_contra hold
        rw [hlogged ev.id (by simpa using hold)] at hlog
        cases hlog
      exact ⟨h.real ev hmem, h.position r hr ev ⟨hstart, hmem, hrec, hold⟩⟩
    · obtain ⟨res, hres, hev⟩ := List.mem_flatMap.1 hmem
      exact hserves.real res hres ev hev
  exact ⟨hpos.1, hpos.2, fun hck => (h.behind r hr hck).trans hpos.2⟩

/-- The state after a poll: the loop stands where nothing outstanding lies behind it, and the
checkpoint is the old one or the loop's own ledger. -/
theorem Steady.after_poll (h : Steady L history w) {r : Run} (hr : w.run = some r) {db : Db}
    {run : Option Run} {pages : List GetEventsResult}
    (hlogged : ∀ id, w.db.tables.logged id = true → db.tables.logged id = true)
    (hserves : Serves history r.currentLedger pages)
    (hrun : ∀ r', run = some r' → r.currentLedger ≤ r'.currentLedger
      ∧ ∀ ev ∈ history, r.currentLedger ≤ ev.ledger → recognised L ev = true →
        db.tables.logged ev.id = false → r'.currentLedger ≤ ev.ledger)
    (hck : getCheckpoint db.shared = getCheckpoint w.db.shared
      ∨ ∃ r', run = some r' ∧ getCheckpoint db.shared = r'.currentLedger) :
    Steady L history ⟨db, run, w.lastStart, w.delivered ++ pages.flatMap (·.events)⟩ := by
  have hmoved : ∀ r', run = some r' → ∀ ev,
      Outstanding L ⟨db, run, w.lastStart, w.delivered ++ pages.flatMap (·.events)⟩ ev →
        r'.currentLedger ≤ ev.ledger := by
    intro r' hr' ev hout
    obtain ⟨hev, hge, -⟩ := h.outstanding_after hr hlogged hserves hout
    exact (hrun r' hr').2 ev hev hge hout.2.2.1 hout.2.2.2
  refine ⟨fun ev hmem => ?_, hmoved, fun hpos ev hout => ?_, fun r' hr' hpos => ?_⟩
  · rcases List.mem_append.1 hmem with hmem | hmem
    · exact h.real ev hmem
    · obtain ⟨res, hres, hev⟩ := List.mem_flatMap.1 hmem
      exact (hserves.real res hres ev hev).1
  · rcases hck with hck | ⟨r', hr', hck⟩
    · simp only [hck] at hpos ⊢
      exact (h.outstanding_after hr hlogged hserves hout).2.2 hpos
    · simp only [hck]
      exact hmoved r' hr' ev hout
  · rcases hck with hck | ⟨r'', hr'', hck⟩
    · simp only [hck] at hpos ⊢
      exact (h.behind r hr hpos).trans (hrun r' hr').1
    · obtain rfl : r'' = r' := Option.some.inj (hr''.symm.trans hr')
      simp only [hck]
      exact le_rfl

/-- What a tick of a running listener leaves: the loop has passed only what is logged, and the
checkpoint is the old one or the loop's own ledger. -/
theorem tick_leaves (hids : contractIDs L.cfg ≠ []) (hdepth : confirmationDepth L.cfg < 2 ^ 31)
    {i : TickInput} {r : Run} (hr : w.run = some r)
    (hserved : (ListenerStep.tick i).Served L history w)
    (hsafe : (ListenerStep.tick i).Safe L w) :
    ∃ db run pages, (ListenerStep.tick i).apply L w
        = ⟨db, run, w.lastStart, w.delivered ++ pages.flatMap (·.events)⟩
      ∧ (∀ id, w.db.tables.logged id = true → db.tables.logged id = true)
      ∧ Serves history r.currentLedger pages
      ∧ (∀ r', run = some r' → r.currentLedger ≤ r'.currentLedger
        ∧ ∀ ev ∈ history, r.currentLedger ≤ ev.ledger → recognised L ev = true →
          db.tables.logged ev.id = false → r'.currentLedger ≤ ev.ledger)
      ∧ (getCheckpoint db.shared = getCheckpoint w.db.shared
        ∨ ∃ r', run = some r' ∧ getCheckpoint db.shared = r'.currentLedger) := by
  have hserves := hserved r hr
  have hkeeps := pollEventsRange_keeps L i.oracle r.currentLedger 0 i.rpc w.db
  simp only [ListenerStep.apply, hr]
  refine ⟨_, _, _, rfl, ?_⟩
  rcases startTick_cases L i r w.db with hhalt | ⟨next, e, p, hpoll, htick⟩
      | ⟨next, p, hpoll, r', rfl, htick⟩
  · rw [hhalt] at hserves ⊢
    exact ⟨fun _ hid => hid, hserves, fun _ hrun => (by cases hrun), .inl rfl⟩
  all_goals
    rw [hpoll] at hkeeps
    rw [htick] at hserves ⊢
    have hck : getCheckpoint p.db.shared = getCheckpoint w.db.shared := by
      rw [getCheckpoint, hkeeps.checkpoint]
      rfl
  · refine ⟨hkeeps.logged, hserves, fun r' hrun => ?_, .inl hck⟩
    obtain rfl : r = r' := Option.some.inj hrun
    exact ⟨le_rfl, fun ev _ hge _ _ => hge⟩
  · obtain ⟨htables, hwritten⟩ := upsertCheckpoint_cases r'.currentLedger i.oracle.fails p.db
    obtain ⟨hge, hpasses⟩ := poll_passes_none hids hdepth hpoll hserves (hsafe r _ p hr hpoll)
    refine ⟨fun id hid => ?_, hserves, fun r₁ hrun => ?_, ?_⟩
    · rw [htables]
      exact hkeeps.logged id hid
    · obtain rfl : r' = r₁ := Option.some.inj hrun
      rw [htables]
      exact ⟨hge, hpasses⟩
    · rcases hwritten with hwritten | hwritten
      · exact .inr ⟨r', rfl, hwritten⟩
      · exact .inl (by rw [hwritten, hck])

/-- A tick keeps the ledger of the loop and the checkpoint behind what is outstanding. -/
theorem Steady.tick (hids : contractIDs L.cfg ≠ []) (hdepth : confirmationDepth L.cfg < 2 ^ 31)
    (h : Steady L history w) {i : TickInput} (hserved : (ListenerStep.tick i).Served L history w)
    (hsafe : (ListenerStep.tick i).Safe L w) :
    Steady L history ((ListenerStep.tick i).apply L w) := by
  rcases hr : w.run with _ | r
  · simp only [ListenerStep.apply, hr]
    exact h
  · obtain ⟨db, run, pages, hstep, hlogged, hserves, hrun, hck⟩ :=
      tick_leaves hids hdepth hr hserved hsafe
    rw [hstep]
    exact h.after_poll hr hlogged hserves hrun hck

theorem resumeLedger_checkpoint {O : Oracle} {latest : Except GoError ℤ} {s : Db} {ledger : ℤ}
    (h : resumeLedger O latest s = .ok ledger) (hck : 0 < getCheckpoint s.shared) :
    ledger = getCheckpoint s.shared := by
  unfold resumeLedger at h
  rw [if_pos hck] at h
  split_ifs at h
  exact (Except.ok.inj h).symm

/-- Without a process, what is outstanding stays so. -/
theorem Steady.down (h : Steady L history w) : Steady L history { w with run := none } := by
  refine ⟨h.real, fun _ hrun => ?_, h.checkpoint, fun _ hrun => ?_⟩ <;> cases hrun

/-- A start stands at the ledger it counts the outstanding events from. -/
theorem Steady.start (h : Steady L history w) (O : Oracle) (latest : Except GoError ℤ) :
    Steady L history ((ListenerStep.start O latest).apply L w) := by
  simp only [ListenerStep.apply]
  split
  · exact h.down
  · rename_i ledger hres
    have hfrom :
      ∀ ev, Outstanding L { w with run := some ⟨ledger, 0, ""⟩, lastStart := some ledger } ev →
        ledger ≤ ev.ledger := by
      rintro ev ⟨⟨start, hstart, hle⟩, -⟩
      obtain rfl : ledger = start := Option.some.inj hstart
      exact hle
    refine ⟨h.real, fun r hr => ?_, fun hck ev hout => ?_, fun r hr hck => ?_⟩
    · obtain rfl := Option.some.inj hr
      exact hfrom
    · rw [← resumeLedger_checkpoint hres hck]
      exact hfrom ev hout
    · obtain rfl := Option.some.inj hr
      exact (resumeLedger_checkpoint hres hck).ge

/-- A start that finds a checkpoint resumes before everything outstanding. -/
theorem Steady.resumes (h : Steady L history w) {O : Oracle} {latest : Except GoError ℤ}
    (hck : 0 < getCheckpoint w.db.shared) {ledger : ℤ}
    (hres : resumeLedger O latest w.db = .ok ledger) {ev : SorobanEvent}
    (hout : Outstanding L w ev) :
    ledger ≤ ev.ledger := by
  rw [resumeLedger_checkpoint hres hck]
  exact h.checkpoint hck ev hout

theorem Steady.step (hids : contractIDs L.cfg ≠ []) (hdepth : confirmationDepth L.cfg < 2 ^ 31)
    (h : Steady L history w) {step : ListenerStep} (hserved : step.Served L history w)
    (hsafe : step.Safe L w) : Steady L history (step.apply L w) := by
  cases step with
  | start O latest => exact h.start O latest
  | tick i => exact h.tick hids hdepth hserved hsafe
  | crash => exact h.down

/-- What every step with the conditions keeps, the whole run does. -/
theorem listenerRun_keeps (Inv : World → Prop)
    (hstep : ∀ (w : World) (step : ListenerStep), Inv w → step.Served L history w →
      step.Safe L w → Inv (step.apply L w)) :
    ∀ (steps : List ListenerStep) (w : World), Inv w →
      (∀ (pre : List ListenerStep) (step : ListenerStep) (post : List ListenerStep),
        steps = pre ++ step :: post →
          step.Served L history (listenerRun L pre w) ∧ step.Safe L (listenerRun L pre w)) →
      Inv (listenerRun L steps w)
  | [], _, h, _ => h
  | step :: steps, w, h, hsteps => by
    obtain ⟨hserved, hsafe⟩ := hsteps [] step steps rfl
    refine listenerRun_keeps Inv hstep steps _ (hstep w step h hserved hsafe)
      fun pre x post heq => ?_
    exact hsteps (step :: pre) x post (by rw [heq]; rfl)

theorem listenerRun_steady (hids : contractIDs L.cfg ≠ [])
    (hdepth : confirmationDepth L.cfg < 2 ^ 31) (steps : List ListenerStep) (w : World)
    (h : Steady L history w)
    (hsteps : ∀ (pre : List ListenerStep) (step : ListenerStep) (post : List ListenerStep),
      steps = pre ++ step :: post →
        step.Served L history (listenerRun L pre w) ∧ step.Safe L (listenerRun L pre w)) :
    Steady L history (listenerRun L steps w) :=
  listenerRun_keeps (Steady L history) (fun _ _ h hserved hsafe => h.step hids hdepth hserved hsafe)
    steps w h hsteps

/-- A checkpoint, once written, is never taken back. -/
theorem Steady.checkpoint_kept (hids : contractIDs L.cfg ≠ [])
    (hdepth : confirmationDepth L.cfg < 2 ^ 31) (h : Steady L history w) {step : ListenerStep}
    (hserved : step.Served L history w) (hsafe : step.Safe L w)
    (hck : 0 < getCheckpoint w.db.shared) :
    0 < getCheckpoint (step.apply L w).db.shared := by
  cases step with
  | start O latest =>
    simp only [ListenerStep.apply]
    split <;> exact hck
  | crash => exact hck
  | tick i =>
    rcases hr : w.run with _ | r
    · simpa only [ListenerStep.apply, hr] using hck
    · obtain ⟨db, run, pages, hstep, -, -, hrun, hold | ⟨r', hr', hnew⟩⟩ :=
        tick_leaves hids hdepth hr hserved hsafe
      · simpa only [hstep, hold] using hck
      · have hbehind := h.behind r hr hck
        have hge := (hrun r' hr').1
        simp only [hstep, hnew]
        omega

theorem checkpoint_written (hids : contractIDs L.cfg ≠ [])
    (hdepth : confirmationDepth L.cfg < 2 ^ 31) {step : ListenerStep}
    (hserved : step.Served L history w) (hsafe : step.Safe L w) (hwrites : step.Checkpoints L w) :
    0 < getCheckpoint (step.apply L w).db.shared := by
  cases step with
  | start O latest => exact hwrites.elim
  | crash => exact hwrites.elim
  | tick i =>
    obtain ⟨r, next, p, hr, hpos, hverify, hpoll, hwrite⟩ := hwrites
    have htick : (startTick L i r w.db).2
        = { p with db := upsertCheckpoint next i.oracle.fails p.db } := by
      simp only [startTick, if_pos hverify, hpoll]
    have hserves := hserved r hr
    rw [htick] at hserves
    obtain ⟨hge, -⟩ := poll_passes_none hids hdepth hpoll hserves (hsafe r _ p hr hpoll)
    have hnew : getCheckpoint (upsertCheckpoint next i.oracle.fails p.db).shared = next := by
      unfold upsertCheckpoint
      rw [if_neg (by simpa [hwrite] using hpos.le.trans hge)]
      rfl
    simp only [ListenerStep.apply, hr, htick, hnew]
    omega

theorem listenerRun_checkpoint (hids : contractIDs L.cfg ≠ [])
    (hdepth : confirmationDepth L.cfg < 2 ^ 31) (steps : List ListenerStep) (w : World)
    (h : Steady L history w)
    (hsteps : ∀ (pre : List ListenerStep) (step : ListenerStep) (post : List ListenerStep),
      steps = pre ++ step :: post →
        step.Served L history (listenerRun L pre w) ∧ step.Safe L (listenerRun L pre w))
    (hck : 0 < getCheckpoint w.db.shared) : 0 < getCheckpoint (listenerRun L steps w).db.shared :=
  (listenerRun_keeps (fun w => Steady L history w ∧ 0 < getCheckpoint w.db.shared)
    (fun _ _ h hserved hsafe => ⟨h.1.step hids hdepth hserved hsafe,
      h.1.checkpoint_kept hids hdepth hserved hsafe h.2⟩) steps w ⟨h, hck⟩ hsteps).2

/-- A recorded event that was delivered was served to one of the steps. -/
theorem delivered_received {ev : SorobanEvent} (hrec : recognised L ev = true) :
    ∀ (steps : List ListenerStep) (w : World), ev ∈ (listenerRun L steps w).delivered →
      ev ∈ w.delivered ∨ ∃ pre step post, steps = pre ++ step :: post
        ∧ step.Receives L (listenerRun L pre w)
  | [], _, h => .inl h
  | step :: steps, w, h => by
    rcases delivered_received hrec steps _ h with h | ⟨pre, x, post, rfl, hx⟩
    · cases step with
      | crash => exact .inl h
      | start O latest =>
        simp only [ListenerStep.apply] at h
        split at h <;> exact .inl h
      | tick i =>
        rcases hr : w.run with _ | r
        · simp only [ListenerStep.apply, hr] at h
          exact .inl h
        · simp only [ListenerStep.apply, hr, List.mem_append, List.mem_flatMap] at h
          rcases h with h | ⟨res, hres, hev⟩
          · exact .inl h
          · exact .inr ⟨[], .tick i, steps, rfl, r, hr, res, hres, ev, hev, hrec⟩
    · exact .inr ⟨step :: pre, x, post, rfl, hx⟩

theorem listenerRun_append (steps steps' : List ListenerStep) (w : World) :
    listenerRun L (steps ++ steps') w = listenerRun L steps' (listenerRun L steps w) :=
  List.foldl_append

/-- A start that finds no checkpoint comes before any recorded event. -/
theorem nothing_received (hids : contractIDs L.cfg ≠ [])
    (hdepth : confirmationDepth L.cfg < 2 ^ 31) {steps pre post : List ListenerStep}
    {O : Oracle} {latest : Except GoError ℤ} (h : Steady L history w)
    (hsteps : ∀ (pre : List ListenerStep) (step : ListenerStep) (post : List ListenerStep),
      steps = pre ++ step :: post →
        step.Served L history (listenerRun L pre w) ∧ step.Safe L (listenerRun L pre w))
    (hfirst : FirstCheckpoint L steps w) (hrestart : steps = pre ++ .start O latest :: post)
    (hck : getCheckpoint (listenerRun L pre w).db.shared ≤ 0) {a b : List ListenerStep}
    {step : ListenerStep} (hpre : pre = a ++ step :: b) :
    ¬ step.Receives L (listenerRun L a w) := by
  intro hreceives
  have hnone : ∀ c d, pre = c ++ d → getCheckpoint (listenerRun L c w).db.shared ≤ 0 := by
    intro c d hcd
    by_contra hpos
    have hkept := listenerRun_checkpoint hids hdepth d (listenerRun L c w)
      (listenerRun_steady hids hdepth c w h fun x y z heq => hsteps x y (z ++ d ++ .start O latest
        :: post) (by simp [hrestart, hcd, heq]))
      (fun x y z heq => ?_) (not_le.1 hpos)
    · rw [← listenerRun_append, ← hcd] at hkept
      omega
    · rw [← listenerRun_append]
      exact hsteps (c ++ x) y (z ++ .start O latest :: post) (by simp [hrestart, hcd, heq])
  obtain ⟨b₁, step', b₂, heq, hwrites⟩ := hfirst a step b O latest post
    (by simp [hrestart, hpre]) (hnone a (step :: b) hpre) hreceives
  have hat : pre = (a ++ b₁) ++ step' :: b₂ := by simp [hpre, heq]
  obtain ⟨hserved, hsafe⟩ := hsteps (a ++ b₁) step' (b₂ ++ .start O latest :: post)
    (by simp [hrestart, hat])
  have hpos := checkpoint_written hids hdepth hserved hsafe hwrites
  have hle := hnone (a ++ b₁ ++ [step']) b₂ (by simp [hat])
  rw [listenerRun_append (a ++ b₁) [step'] w] at hle
  exact absurd hpos (not_lt.2 hle)

/-- Without a configured contract nothing is ever delivered. -/
theorem listenerRun_idle (hids : contractIDs L.cfg = []) :
    ∀ (steps : List ListenerStep) (w : World), w.delivered = [] →
      (listenerRun L steps w).delivered = []
  | [], _, h => h
  | step :: steps, w, h => by
    refine listenerRun_idle hids steps _ ?_
    cases step with
    | start O latest =>
      simp only [ListenerStep.apply]
      split <;> exact h
    | crash => exact h
    | tick i =>
      rcases hr : w.run with _ | r
      · simp only [ListenerStep.apply, hr]
        exact h
      · have hnone : ∀ next err p, pollEventsRange L i.oracle r.currentLedger 0 i.rpc w.db =
            ((next, err), p) → p.pages = [] := by
          intro next err p hpoll
          have hp : (pollLatest r.currentLedger i.rpc.latest w.db).2 = p := by
            simpa [pollEventsRange, hids] using congrArg Prod.snd hpoll
          rw [← hp]
          unfold pollLatest
          split <;> rfl
        simp only [ListenerStep.apply, hr, h, List.nil_append]
        rcases startTick_cases L i r w.db with hhalt | ⟨next, e, p, hpoll, htick⟩
            | ⟨next, p, hpoll, r', -, htick⟩
        · rw [hhalt]
          rfl
        · rw [htick, hnone _ _ _ hpoll]
          rfl
        · rw [htick]
          simp [hnone _ _ _ hpoll]

end Tick

/-- In every run of polls, crashes and restarts on one database where no deferred event is overtaken
and no process is stopped between its first recorded event and its first checkpoint, a restart
resumes from no later ledger than that of any outstanding event. -/
theorem restart_loses_nothing (L : EventListener)
    (hdepth : L.cfg.indexerConfirmationDepth ≤ maxConfirmationDepth) (history : List SorobanEvent)
    (db : Db) (steps : List ListenerStep)
    (hserved : ∀ pre step post, steps = pre ++ step :: post →
      step.Served L history (listenerRun L pre ⟨db, none, none, []⟩))
    (hsafe : ∀ pre step post, steps = pre ++ step :: post →
      step.Safe L (listenerRun L pre ⟨db, none, none, []⟩))
    (hfirst : FirstCheckpoint L steps ⟨db, none, none, []⟩)
    (pre : List ListenerStep) (O : Oracle) (latest : Except GoError ℤ) (post : List ListenerStep)
    (hrestart : steps = pre ++ .start O latest :: post) (ledger : ℤ)
    (hres : resumeLedger O latest (listenerRun L pre ⟨db, none, none, []⟩).db = .ok ledger)
    (ev : SorobanEvent) (hout : Outstanding L (listenerRun L pre ⟨db, none, none, []⟩) ev) :
    ledger ≤ ev.ledger := by
  by_cases hids : contractIDs L.cfg = []
  · have hnone := listenerRun_idle hids pre ⟨db, none, none, []⟩ rfl
    have hmem := hout.2.1
    rw [hnone] at hmem
    simp at hmem
  · have hd : confirmationDepth L.cfg < 2 ^ 31 := by
      unfold confirmationDepth
      unfold maxConfirmationDepth at hdepth
      split_ifs <;> omega
    have hinit : Steady L history ⟨db, none, none, []⟩ := by
      refine ⟨by simp, fun _ hrun => ?_, fun _ ev hev => ?_, fun _ hrun => ?_⟩
      · cases hrun
      · simpa using hev.2.1
      · cases hrun
    have hsteps := fun a step b heq =>
      And.intro (hserved a step b heq) (hsafe a step b heq)
    rcases lt_or_ge 0 (getCheckpoint (listenerRun L pre ⟨db, none, none, []⟩).db.shared)
      with hck | hck
    · have hsteady : Steady L history (listenerRun L pre ⟨db, none, none, []⟩) := by
        refine listenerRun_steady hids hd pre _ hinit fun a step b heq => hsteps a step
          (b ++ .start O latest :: post) ?_
        rw [hrestart, heq]
        simp
      exact hsteady.resumes hck hres hout
    · obtain ⟨-, hmem, hrec, -⟩ := hout
      rcases delivered_received hrec pre _ hmem with hmem | ⟨a, step, b, hpre, hreceives⟩
      · simp at hmem
      · exact absurd hreceives (nothing_received hids hd hinit hsteps hfirst hrestart hck hpre)

/-- A tick that is served the pages, with the statements that fail during it. -/
def servedTick (fails : ℕ → Bool) (pages : List GetEventsResult) : TickInput where
  oracle := { calm with fails }
  rpc := ⟨.ok 104, pages.map .ok⟩
  verifyHash := .error (.new "no hash")
  recordHash := .error (.new "no hash")

/-- A page with two events of one ledger. -/
def sharedLedger : List GetEventsResult :=
  [⟨104, [registration "e1" 101, registration "e2" 101], ""⟩]

/-- The first poll ever commits one event of the ledger, then every statement fails and the process
dies: the next one resumes after the ledger, with the other event outstanding. -/
theorem restart_skips_half_ledger :
    let L := recordedListener 3
    let w := listenerRun L [.start calm (.ok 100), .tick (servedTick (4 ≤ ·) sharedLedger), .crash]
      ⟨freshDb, none, none, []⟩
    Serves [registration "e1" 101, registration "e2" 101] 100 sharedLedger
      ∧ Outstanding L w (registration "e2" 101) ∧ resumeLedger calm (.ok 106) w.db = .ok 102 := by
  intro L w
  refine ⟨⟨by decide, by decide, fun ev hev _ _ => .inl ⟨_, List.mem_cons_self, hev⟩⟩,
    ⟨⟨100, by decide +kernel, by decide⟩, by decide +kernel, by decide +kernel, by decide +kernel⟩,
      ?_⟩
  decide +kernel

/-- A poll that defers an event, a crash and a restart. -/
def steadySteps : List ListenerStep :=
  [.start calm (.ok 100), .tick (servedTick noFaults steadyPages), .crash, .start calm (.ok 106)]

theorem steadyPages_serves :
    Serves [registration "e1" 100, registration "e2" 101,
      registration "e3" 103] 100 steadyPages := by
  refine ⟨by decide, by decide, fun ev hev _ _ => .inl ?_⟩
  simp only [List.mem_cons, List.not_mem_nil, or_false] at hev
  rcases hev with rfl | rfl | rfl <;> decide

theorem steadyRun_outstanding :
    Outstanding (recordedListener 3)
      (listenerRun (recordedListener 3) (steadySteps.take 3) ⟨freshDb, none, none, []⟩)
      (registration "e3" 103) :=
  ⟨⟨100, by decide +kernel, by decide⟩, by decide +kernel, by decide +kernel, by decide +kernel⟩

theorem steadyRun_started :
    listenerRun (recordedListener 3) [.start calm (.ok 100)] ⟨freshDb, none, none, []⟩ =
      ⟨freshDb, some ⟨100, 0, ""⟩, some 100, []⟩ := rfl

theorem steadyTick_pages :
    (pollEventsRange (recordedListener 3) { calm with fails := noFaults } 100 0
      ⟨.ok 104, steadyPages.map .ok⟩ freshDb).2.pages = steadyPages
    ∧ (pollEventsRange (recordedListener 3) { calm with fails := noFaults } 100 0
      ⟨.ok 104, steadyPages.map .ok⟩ freshDb).1.2.isNone = true
    ∧ (startTick (recordedListener 3) (servedTick noFaults steadyPages)
      ⟨100, 0, ""⟩ freshDb).2.pages =
      steadyPages := by
  decide +kernel

theorem steadySteps_safe {pre : List ListenerStep} {step : ListenerStep} {post : List ListenerStep}
    (h : steadySteps = pre ++ step :: post) :
    step.Served (recordedListener 3)
        [registration "e1" 100, registration "e2" 101, registration "e3" 103]
        (listenerRun (recordedListener 3) pre ⟨freshDb, none, none, []⟩)
      ∧ step.Safe (recordedListener 3)
        (listenerRun (recordedListener 3) pre ⟨freshDb, none, none, []⟩) := by
  rcases pre with _ | ⟨a, _ | ⟨b, _ | ⟨c, _ | ⟨d, pre⟩⟩⟩⟩ <;>
    simp only [steadySteps, List.nil_append, List.cons_append, List.cons.injEq] at h
  · obtain ⟨rfl, -⟩ := h
    exact ⟨trivial, trivial⟩
  · obtain ⟨rfl, rfl, -⟩ := h
    rw [steadyRun_started]
    constructor
    · intro r hr
      obtain rfl := Option.some.inj hr
      simp only [steadyTick_pages.2.2]
      exact steadyPages_serves
    · intro r next p hr hpoll
      obtain rfl := Option.some.inj hr
      have hp : p.pages = steadyPages := by
        have := congrArg (fun out => out.2.pages) hpoll
        exact this.symm.trans steadyTick_pages.1
      rw [hp]
      exact steadyPages_noneOvertaken
  · obtain ⟨rfl, rfl, rfl, -⟩ := h
    exact ⟨trivial, trivial⟩
  · obtain ⟨rfl, rfl, rfl, rfl, -⟩ := h
    exact ⟨trivial, trivial⟩
  · obtain ⟨-, -, -, -, h⟩ := h
    simp at h

theorem steadySteps_first : FirstCheckpoint (recordedListener 3) steadySteps
    ⟨freshDb, none, none, []⟩ := by
  intro pre step mid O latest post h _ hreceives
  rcases pre with _ | ⟨a, _ | ⟨b, _ | ⟨c, _ | ⟨d, pre⟩⟩⟩⟩ <;>
    simp only [steadySteps, List.nil_append, List.cons_append, List.cons.injEq] at h
  · obtain ⟨rfl, -⟩ := h
    exact hreceives.elim
  · obtain ⟨rfl, rfl, -⟩ := h
    refine ⟨[], _, mid, rfl, ?_⟩
    rw [List.append_nil, steadyRun_started]
    rcases hpoll : pollEventsRange (recordedListener 3) { calm with fails := noFaults } 100 0
      ⟨.ok 104, steadyPages.map .ok⟩ freshDb with ⟨⟨next, err⟩, p⟩
    have herr := steadyTick_pages.2.1
    rw [hpoll, Option.isNone_iff_eq_none] at herr
    exact ⟨_, next, p, rfl, by decide, rfl, by rw [← herr]; exact hpoll, rfl⟩
  · obtain ⟨rfl, rfl, rfl, -⟩ := h
    exact hreceives.elim
  · obtain ⟨rfl, rfl, rfl, rfl, -⟩ := h
    exact hreceives.elim
  · obtain ⟨-, -, -, -, h⟩ := h
    simp at h

theorem restart_resumes_deferred :
    let L := recordedListener 3
    let w := listenerRun L (steadySteps.take 3) ⟨freshDb, none, none, []⟩
    Outstanding L w (registration "e3" 103)
      ∧ ∀ ledger, resumeLedger calm (.ok 106) w.db = .ok ledger → ledger ≤ 103 := by
  intro L w
  refine ⟨steadyRun_outstanding, fun ledger hres => ?_⟩
  exact restart_loses_nothing L (by decide) _ freshDb steadySteps
    (fun _ _ _ h => (steadySteps_safe h).1) (fun _ _ _ h => (steadySteps_safe h).2)
    steadySteps_first (steadySteps.take 3) calm (.ok 106) [] rfl ledger hres _ steadyRun_outstanding

end TrusTrove
