import TrusTrove.Proofs.Poll

/-!
# The confirmation window

`pollHanded` lists the events a call hands to `handleEvent`, each with the pages received by then.
The filter compares with the last tip that was reported, converted to `int32`, and is left out while
that is not positive. So a call keeps to the window, whatever the pages deliver, exactly when after
each page the newest ledger the filter lets through is behind a reported tip, and the ledger to
resume from does not wrap (`confirmation_safe_iff`).
-/

namespace TrusTrove

open Sql

section Handed

variable (L : EventListener) (O : Oracle) (start fin : ℤ)

/-- The events of a page that are handed to `handleEvent`, up to the first it fails on. -/
def handedPending (processed : List String) : List SorobanEvent → Poll → List SorobanEvent
  | [], _ => []
  | ev :: evs, p =>
    if ev.id ∈ processed then handedPending processed evs { p with already := p.already ++ [ev] }
    else
      ev :: match handleEvent L (O.stats p.db.tick) (O.now p.db.tick) O.fails p.db ev with
        | (.error _, _) => []
        | (.ok _, db) =>
          handedPending processed evs { p with db, handled := p.handled ++ [(ev, O.now p.db.tick)] }

def handedPage (p : Poll) (res : GetEventsResult) : List SorobanEvent :=
  let p := receivePage p res
  let pending := pendingEvents L fin p.latestLedgerSeq res.events
  match areEventsProcessed (pending.map (·.id)) O.fails p.db with
  | (.error _, _) => []
  | (.ok processed, db) => handedPending L O processed pending { p with db }

/-- The events a call hands to `handleEvent`, each with the pages received by then. -/
def pollHanded : List (Except GoError GetEventsResult) → Poll →
    List (SorobanEvent × List GetEventsResult)
  | .ok res :: answers, p =>
    (handedPage L O fin p res).map (·, p.pages ++ [res]) ++
      match pollPage L O start fin p res with
      | .next p' => pollHanded answers p'
      | _ => []
  | _, _ => []

variable {L O start fin}

theorem handedPending_subset {processed : List String} :
    ∀ (evs : List SorobanEvent) (p : Poll), handedPending L O processed evs p ⊆ evs
  | [], _ => List.Subset.refl _
  | ev :: evs, p => by
    simp only [handedPending]
    split_ifs
    · exact List.subset_cons_of_subset _ (handedPending_subset evs _)
    · refine List.cons_subset_cons _ ?_
      split
      · exact List.nil_subset _
      · exact handedPending_subset evs _

end Handed

section Received

/-- The pages a call is answered with. -/
def okPages (answers : List (Except GoError GetEventsResult)) : List GetEventsResult :=
  answers.filterMap Except.toOption

variable {L : EventListener} {O : Oracle} {start fin : ℤ}

/-- A page the loop gets past is received, and nothing else changes what it knows of the tip. -/
theorem pollPage_received {p p' : Poll} {res : GetEventsResult}
    (h : pollPage L O start fin p res = .next p' ∨ pollPage L O start fin p res = .done p') :
    p'.pages = p.pages ++ [res] ∧ p'.latestLedgerSeq = (receivePage p res).latestLedgerSeq := by
  rcases pollPage_cases L O start fin p res with ⟨-, hd⟩ | ⟨e, db, -, e', hf⟩
      | ⟨processed, db, -, r, p₁, hrun, ⟨e, -, hf⟩ | ⟨rfl, ⟨-, hd⟩ | ⟨-, hn⟩⟩⟩
  · obtain rfl : receivePage p res = p' := by simpa [hd] using h
    exact ⟨rfl, rfl⟩
  · simp [hf] at h
  · simp [hf] at h
  · obtain rfl : p₁ = p' := by simpa [hd] using h
    obtain ⟨hpages, hlatest, -⟩ := handlePending_settled _ _ _ hrun
    exact ⟨hpages, hlatest⟩
  · obtain rfl : { p₁ with cursor := res.cursor } = p' := by simpa [hn] using h
    obtain ⟨hpages, hlatest, -⟩ := handlePending_settled _ _ _ hrun
    exact ⟨hpages, hlatest⟩

theorem receivePage_tip {p : Poll} (hp : p.latestLedgerSeq = tipOf p.pages)
    (res : GetEventsResult) :
    (receivePage p res).latestLedgerSeq = tipOf (p.pages ++ [res]) := by
  rw [tipOf_snoc]
  simp only [receivePage, hp]

/-- An event that is handed over is confirmed by the tip known on its page. -/
theorem handedPage_confirmed {p : Poll} (hp : p.latestLedgerSeq = tipOf p.pages)
    {res : GetEventsResult} {ev : SorobanEvent} (h : ev ∈ handedPage L O fin p res) :
    ev ∈ res.events ∧ confirms (confirmationDepth L.cfg) (tipOf (p.pages ++ [res])) ev.ledger
      = true := by
  rw [← receivePage_tip hp]
  unfold handedPage at h
  simp only [] at h
  split at h
  · simp at h
  · have hpending := handedPending_subset _ _ h
    simp only [pendingEvents, List.mem_filter] at hpending
    refine ⟨?_, hpending.2⟩
    split_ifs at hpending with hfin
    · exact (List.mem_filter.1 hpending.1).1
    · exact hpending.1

theorem pollHanded_confirmed : ∀ (answers : List (Except GoError GetEventsResult)) (p : Poll),
    p.latestLedgerSeq = tipOf p.pages → ∀ x ∈ pollHanded L O start fin answers p,
      confirms (confirmationDepth L.cfg) (tipOf x.2) x.1.ledger = true
        ∧ (∃ res ∈ okPages answers, x.1 ∈ res.events)
        ∧ ∃ pre, pre ≠ [] ∧ pre <+: okPages answers ∧ x.2 = p.pages ++ pre
  | [], p, _, x, hx => by simp [pollHanded] at hx
  | .error e :: _, p, _, x, hx => by simp [pollHanded] at hx
  | .ok res :: answers, p, hp, x, hx => by
    simp only [pollHanded, List.mem_append, List.mem_map] at hx
    rcases hx with ⟨ev, hev, rfl⟩ | hx
    · obtain ⟨hmem, hconf⟩ := handedPage_confirmed hp hev
      exact ⟨hconf, ⟨res, List.mem_cons_self, hmem⟩, [res], by simp, ⟨okPages answers, rfl⟩, rfl⟩
    · split at hx
      · rename_i p' hnext
        obtain ⟨hpages, hlatest⟩ := pollPage_received (.inl hnext)
        have hp' : p'.latestLedgerSeq = tipOf p'.pages := by
          rw [hlatest, hpages, receivePage_tip hp]
        obtain ⟨hconf, ⟨r, hr, hmem⟩, pre, -, hpre, heq⟩ :=
          pollHanded_confirmed answers p' hp' x hx
        refine ⟨hconf, ⟨r, List.mem_cons_of_mem _ hr, hmem⟩, res :: pre, by simp, ?_, ?_⟩
        · exact (List.prefix_cons_inj res).2 hpre
        · rw [heq, hpages, List.append_assoc]
          rfl
      · simp at hx

/-- A call fails and returns its start, or ends on some page and resumes from what its tip
confirms. -/
theorem pollAnswers_returns (L : EventListener) (O : Oracle) (start fin : ℤ) :
    ∀ (answers : List (Except GoError GetEventsResult)) (p : Poll),
    p.latestLedgerSeq = tipOf p.pages →
      (∃ e, (pollAnswers L O start fin answers p).1 = (start, some e))
      ∨ ∃ pre, pre ≠ [] ∧ pre <+: okPages answers
        ∧ (pollAnswers L O start fin answers p).2.pages = p.pages ++ pre
        ∧ (pollAnswers L O start fin answers p).1
          = (nextLedger (confirmationDepth L.cfg) start (tipOf (p.pages ++ pre)), none)
  | [], p, _ => .inl ⟨_, rfl⟩
  | .error e :: _, p, _ => .inl ⟨_, rfl⟩
  | .ok res :: answers, p, hp => by
    simp only [pollAnswers]
    split
    · rename_i p' hnext
      obtain ⟨hpages, hlatest⟩ := pollPage_received (.inl hnext)
      have hp' : p'.latestLedgerSeq = tipOf p'.pages := by rw [hlatest, hpages, receivePage_tip hp]
      rcases pollAnswers_returns L O start fin answers p' hp' with
        hfail | ⟨pre, -, hpre, hout, hres⟩
      · exact .inl hfail
      · rw [hpages, List.append_assoc] at hout hres
        exact .inr ⟨res :: pre, by simp, (List.prefix_cons_inj res).2 hpre, hout, hres⟩
    · rename_i p' hdone
      obtain ⟨hpages, hlatest⟩ := pollPage_received (.inr hdone)
      refine .inr ⟨[res], by simp, ⟨okPages answers, rfl⟩, hpages, ?_⟩
      simp only [pollDone]
      rw [hlatest, receivePage_tip hp]
    · exact .inl ⟨_, rfl⟩

end Received

section Tips

/-- The latest ledgers that were reported, in turn; a page that omits its own reports none. -/
def reported (tips : List UInt32) : List ℤ := (tips.filter (· ≠ 0)).map fun tip => (tip.toNat : ℤ)

/-- The last of them as the loop keeps it. -/
def lastTip (tips : List UInt32) : ℤ := ((reported tips).getLast?.map int32).getD 0

/-- The newest `int32` ledger the confirmation filter lets through. -/
def admittedLedger (depth latest : ℤ) : ℤ :=
  if 0 < latest then safeLedger depth latest else 2 ^ 31 - 1

/-- What the tips of a call have to be for its window: what the filter lets through is behind a
reported tip, and the ledger to resume from, when there is one, neither wraps nor comes from a
wrapped difference. -/
structure WindowKept (depth start : ℤ) (tips : List UInt32) : Prop where
  admitted : ∃ l ∈ reported tips, admittedLedger depth (lastTip tips) ≤ l - depth
  resumed : start ≤ lastTip tips → start ≤ safeLedger depth (lastTip tips) →
    if safeLedger depth (lastTip tips) = 2 ^ 31 - 1 then start = -2 ^ 31
    else ∀ l, (reported tips).getLast? = some l → depth ≤ l + 2 ^ 31

variable {depth start : ℤ} {tips : List UInt32}

theorem reported_append (tips tips' : List UInt32) :
    reported (tips ++ tips') = reported tips ++ reported tips' := by
  rw [reported, List.filter_append, List.map_append]
  rfl

theorem tipOf_eq (pages : List GetEventsResult) :
    tipOf pages = lastTip (pages.map (·.latestLedger)) := by
  induction pages using List.reverseRecOn with
  | nil => rfl
  | append_singleton pages res ih =>
    rw [tipOf_snoc, ih, List.map_append, List.map_singleton, lastTip, lastTip, reported_append]
    split_ifs with hzero
    · have hnone : reported [res.latestLedger] = [] := by simp [reported, hzero]
      rw [hnone, List.append_nil]
    · have hone : reported [res.latestLedger] = [(res.latestLedger.toNat : ℤ)] := by
        simp [reported, hzero]
      rw [hone, List.getLast?_concat, Option.map_some, Option.getD_some]

theorem int32_upper (x : ℤ) : int32 x < 2 ^ 31 := by
  unfold int32
  rw [Int.bmod_def]
  split_ifs <;> omega

theorem int32_le_iff {x : ℤ} : int32 x ≤ x ↔ -2 ^ 31 ≤ x := by
  constructor
  · intro h
    have := int32_lower x
    omega
  · exact int32_le

/-- The subtraction is the exact one, cut to 32 bits once. -/
theorem safeLedger_int32 (depth l : ℤ) : safeLedger depth (int32 l) = int32 (l - depth) := by
  unfold safeLedger int32
  rw [Int.sub_bmod_bmod, Int.bmod_sub_bmod]

theorem confirms_iff_admitted {latest ledger : ℤ} (hd : 0 < depth) (hledger : ledger < 2 ^ 31) :
    confirms depth latest ledger = true ↔ ledger ≤ admittedLedger depth latest := by
  unfold confirms admittedLedger
  by_cases ht : 0 < latest
  · simp [hd, ht]
  · simp only [hd, ht, decide_true, decide_false, Bool.and_false, Bool.not_false, Bool.true_or,
      if_false, true_iff]
    omega

/-- The ledger to resume from is right exactly when it does not wrap. -/
theorem nextLedger_kept_iff {l : ℤ} (hd : 0 < depth) (hlow : -2 ^ 31 ≤ start) :
    (start ≤ nextLedger depth start (int32 l)
        ∧ (nextLedger depth start (int32 l) = start ∨ nextLedger depth start (int32 l)
          ≤ l - depth + 1))
      ↔ (start ≤ int32 l → start ≤ safeLedger depth (int32 l) →
        if safeLedger depth (int32 l) = 2 ^ 31 - 1 then start = -2 ^ 31 else depth
          ≤ l + 2 ^ 31) := by
  rw [safeLedger_int32]
  have hlow' := int32_lower (l - depth)
  have hup := int32_upper (l - depth)
  have hle : int32 (l - depth) ≤ l - depth ↔ -2 ^ 31 ≤ l - depth := int32_le_iff
  unfold nextLedger
  rw [safeLedger_int32, if_pos hd]
  by_cases ht : int32 l < start
  · rw [if_pos ht]
    exact ⟨fun _ h => absurd h (by omega), fun _ => ⟨le_rfl, .inl rfl⟩⟩
  rw [if_neg ht]
  by_cases hs : int32 (l - depth) < start
  · rw [if_pos hs]
    exact ⟨fun _ _ h => absurd h (by omega), fun _ => ⟨le_rfl, .inl rfl⟩⟩
  rw [if_neg hs]
  by_cases hmax : int32 (l - depth) = 2 ^ 31 - 1
  · have hwrap : int32 (int32 (l - depth) + 1) = -2 ^ 31 := by
      rw [hmax]
      decide
    rw [hwrap, if_pos hmax]
    constructor
    · intro h _ _
      omega
    · intro h
      have := h (by omega) (by omega)
      omega
  · rw [if_neg hmax, int32_of_bounds (by omega) (by omega)]
    constructor
    · intro h _ _
      omega
    · intro h
      have := h (by omega) (by omega)
      omega

/-- With a depth that fits its type and a start after ledger 0, all that matters is that the last
tip is below `2 ^ 31`, or that one was reported no event can be too close to. -/
theorem windowKept_iff (hd : 0 < depth) (hfits : depth ≤ 2 ^ 31) (hstart : 0 < start) :
    WindowKept depth start tips ↔
      0 < lastTip tips ∨ ∃ l ∈ reported tips, 2 ^ 31 - 1 + depth ≤ l := by
  constructor
  · intro h
    obtain ⟨l, hl, hle⟩ := h.admitted
    unfold admittedLedger at hle
    split_ifs at hle with ht
    · exact .inl ht
    · exact .inr ⟨l, hl, by omega⟩
  · intro h
    have hlast : ∀ l, (reported tips).getLast? = some l → lastTip tips = int32 l := by
      intro l hl
      simp [lastTip, hl]
    have hpos : ∀ l ∈ reported tips, 0 ≤ l ∧ l < 2 ^ 32 := by
      intro l hl
      simp only [reported, List.mem_map] at hl
      obtain ⟨t, -, rfl⟩ := hl
      have := t.toNat_lt
      omega
    refine ⟨?_, fun ht hs => ?_⟩
    · rcases h with ht | ⟨l, hl, hle⟩
      · rcases hl : (reported tips).getLast? with _ | l
        · simp [lastTip, hl] at ht
        · have hmem := List.mem_of_getLast? hl
          refine ⟨l, hmem, ?_⟩
          rw [admittedLedger, if_pos ht, hlast l hl, safeLedger_int32]
          exact int32_le (by have := hpos l hmem; omega)
      · refine ⟨l, hl, ?_⟩
        unfold admittedLedger
        split_ifs
        · have := int32_upper (lastTip tips - int32 depth)
          unfold safeLedger
          omega
        · omega
    · rcases hl : (reported tips).getLast? with _ | l
      · simp only [lastTip, hl, Option.map_none, Option.getD_none] at ht
        omega
      · have hl₀ := hpos l (List.mem_of_getLast? hl)
        rw [hlast l hl] at ht ⊢
        have hlt : l < 2 ^ 31 := by
          by_contra hge
          have hneg : int32 l = l - 2 ^ 32 := by
            unfold int32
            rw [Int.bmod_def]
            split_ifs <;> omega
          omega
        rw [safeLedger_int32, int32_of_bounds (by omega) (by omega), if_neg (by omega)]
        rintro l' hl'
        obtain rfl : l = l' := Option.some.inj hl'
        omega

end Tips

section Walk

/-- A recorded event that every confirmation filter lets through, and one at a ledger. -/
def seenEvent : SorobanEvent := ⟨"seen", "", -2 ^ 31, "", [], ""⟩

def unseenEvent (ledger : ℤ) : SorobanEvent := ⟨"unseen", "", ledger, "", [], ""⟩

/-- A database that has logged the first of them only. -/
def seenDb : Db :=
  { freshDb with tables := { Tables.empty with
    eventsLog := Table.empty.insertNew (⟨"seen", "", 1, 0, "create", .raw ""⟩ : EventLog) } }

theorem seenDb_logged : seenDb.tables.logged "seen" = true ∧ seenDb.tables.logged "unseen"
    = false := by
  decide

/-- Pages that keep the loop going. -/
def walkPages (tips : List UInt32) : List GetEventsResult :=
  tips.map fun tip => ⟨tip, [seenEvent], "more"⟩

theorem areEventsProcessed_calm {ids : List String} (hids : ids ≠ []) (s : Db) :
    areEventsProcessed ids calm.fails s
      = (.ok (ids.filter s.tables.logged), { s with tick := s.tick + 1 }) := by
  unfold areEventsProcessed
  rw [if_neg hids, if_neg (by simp [calm, noFaults])]

/-- A logged event is skipped, and the loop goes on. -/
theorem walkPage (L : EventListener) (start : ℤ) {p : Poll}
    (hseen : p.db.tables.logged "seen" = true) (tip : UInt32) :
    let res : GetEventsResult := ⟨tip, [seenEvent], "more"⟩
    handedPage L calm 0 p res = [] ∧ ∃ p', pollPage L calm start 0 p res = .next p'
      ∧ p'.db.tables = p.db.tables := by
  intro res
  have hconf : ∀ latest, pendingEvents L 0 latest [seenEvent] = [seenEvent] := by
    intro latest
    have hle : confirms (confirmationDepth L.cfg) latest seenEvent.ledger = true := by
      simp only [confirms, Bool.or_eq_true, decide_eq_true_eq]
      exact .inr (int32_lower _)
    simp [pendingEvents, hle]
  have hlook : areEventsProcessed ["seen"] calm.fails (receivePage p res).db
      = (.ok ["seen"], { p.db with tick := p.db.tick + 1 }) := by
    rw [areEventsProcessed_calm (by simp)]
    simp [receivePage, hseen]
  constructor
  · unfold handedPage
    simp only [res, hconf]
    rw [show [seenEvent].map (·.id) = ["seen"] from rfl, hlook]
    simp [handedPending, seenEvent]
  · refine ⟨⟨{ p.db with tick := p.db.tick + 1 }, "more", (receivePage p res).latestLedgerSeq,
      p.pages ++ [res], p.handled, p.already ++ [seenEvent]⟩, ?_, rfl⟩
    unfold pollPage
    simp only [res, hconf]
    rw [show [seenEvent].map (·.id) = ["seen"] from rfl, hlook]
    simp [handlePending, seenEvent, receivePage]

/-- Over such pages a call hands nothing over and reaches the next answer. -/
theorem walk (L : EventListener) (start : ℤ) :
    ∀ (tips : List UInt32) (p : Poll), p.db.tables.logged "seen" = true →
    p.latestLedgerSeq = tipOf p.pages → ∃ p', p'.db.tables = p.db.tables
      ∧ p'.pages = p.pages ++ walkPages tips ∧ p'.latestLedgerSeq = tipOf p'.pages
      ∧ ∀ answers, pollHanded L calm start 0 ((walkPages tips).map .ok ++ answers) p
          = pollHanded L calm start 0 answers p'
        ∧ pollAnswers L calm start 0 ((walkPages tips).map .ok ++ answers) p
          = pollAnswers L calm start 0 answers p'
  | [], p, _, hp => ⟨p, rfl, by simp [walkPages], hp, fun _ => ⟨rfl, rfl⟩⟩
  | tip :: tips, p, hseen, hp => by
    obtain ⟨hnone, p₁, hnext, hdb⟩ := walkPage L start hseen tip
    obtain ⟨hpages, hlatest⟩ := pollPage_received (.inl hnext)
    obtain ⟨p', hdb', hpages', hp', hrest⟩ := walk L start tips p₁ (by rw [hdb, hseen])
      (by rw [hlatest, hpages, receivePage_tip hp])
    refine ⟨p', hdb'.trans hdb, ?_, hp', fun answers => ?_⟩
    · rw [hpages', hpages, List.append_assoc]
      rfl
    · obtain ⟨hhanded, hanswers⟩ := hrest answers
      constructor
      · simp only [walkPages, List.map_cons, List.cons_append, pollHanded, hnone, hnext,
          List.map_nil, List.nil_append]
        exact hhanded
      · simp only [walkPages, List.map_cons, List.cons_append, pollAnswers, hnext]
        exact hanswers

/-- An event that is not logged is handed over if the filter lets it through. -/
theorem handedPage_unseen {L : EventListener} {p : Poll} (hp : p.latestLedgerSeq = tipOf p.pages)
    (hunseen : p.db.tables.logged "unseen" = false) {tip : UInt32} {ledger : ℤ}
    {res : GetEventsResult} (hres : res = ⟨tip, [unseenEvent ledger], ""⟩)
    (hconf : confirms (confirmationDepth L.cfg) (tipOf (p.pages ++ [res])) ledger = true) :
    unseenEvent ledger ∈ handedPage L calm 0 p res := by
  have hpending : pendingEvents L 0 (receivePage p res).latestLedgerSeq res.events
      = [unseenEvent ledger] := by
    rw [receivePage_tip hp]
    simp only [pendingEvents, hres, lt_irrefl, if_false]
    rw [hres] at hconf
    exact List.filter_eq_self.2 (by simpa [unseenEvent] using hconf)
  unfold handedPage
  simp only [hpending]
  rw [show [unseenEvent ledger].map (·.id) = ["unseen"] from rfl, areEventsProcessed_calm (by simp)]
  simp [receivePage, hunseen, handedPending]

end Walk

/-- What the confirmation depth promises of one call: an event is handed to `handleEvent` only when
a page received by then reported a tip that far ahead of it, a failed call returns its start, and a
call that succeeds returns its start or a ledger the last reported tip confirms all before. -/
structure Confirmed (L : EventListener) (O : Oracle) (start fin : ℤ) (rpc : RpcAnswers) (s : Db) :
    Prop where
  handed : ∀ x ∈ pollHanded L O start fin rpc.events (pollInit s),
    ∃ l ∈ reported (x.2.map (·.latestLedger)), x.1.ledger ≤ l - confirmationDepth L.cfg
  lower : start ≤ (pollEventsRange L O start fin rpc s).1.1
  failed : (pollEventsRange L O start fin rpc s).1.2 ≠ none →
    (pollEventsRange L O start fin rpc s).1.1 = start
  returned : (pollEventsRange L O start fin rpc s).1.2 = none →
    (pollEventsRange L O start fin rpc s).1.1 = start
      ∨ ∃ l, (reported
        ((pollEventsRange L O start fin rpc s).2.pages.map (·.latestLedger))).getLast?
          = some l
        ∧ (pollEventsRange L O start fin rpc s).1.1 ≤ l - confirmationDepth L.cfg + 1

section Main

variable {L : EventListener} {start : ℤ} {tips : List UInt32}

theorem reported_last (h : ∃ l, l ∈ reported tips) :
    ∃ l, (reported tips).getLast? = some l ∧ lastTip tips = int32 l := by
  obtain ⟨l, hl⟩ := h
  rcases hlast : (reported tips).getLast? with _ | l'
  · rw [List.getLast?_eq_none_iff] at hlast
    rw [hlast] at hl
    cases hl
  · exact ⟨l', rfl, by simp [lastTip, hlast]⟩

/-- The condition is enough for every call the tips come from. -/
theorem WindowKept.confirmed (hids : contractIDs L.cfg ≠ []) (hd : 0 < confirmationDepth L.cfg)
    (hlow : -2 ^ 31 ≤ start)
    (hkept : ∀ pre, pre <+: tips → pre ≠ [] → WindowKept (confirmationDepth L.cfg) start pre)
    (O : Oracle) (fin : ℤ) (rpc : RpcAnswers) (s : Db)
    (hledgers : ∀ res ∈ okPages rpc.events, ∀ ev ∈ res.events, ev.ledger < 2 ^ 31)
    (htips : (okPages rpc.events).map (·.latestLedger) = tips) : Confirmed L O start fin rpc s := by
  have hwindow : ∀ pre, pre ≠ [] → pre <+: okPages rpc.events →
      WindowKept (confirmationDepth L.cfg) start (pre.map (·.latestLedger)) := by
    intro pre hne hpre
    exact hkept _ (htips ▸ hpre.map _) (by simpa using hne)
  have hout : pollEventsRange L O start fin rpc s =
      pollAnswers L O start fin rpc.events (pollInit s) := by
    rw [pollEventsRange, if_neg hids]
  have hhanded : ∀ x ∈ pollHanded L O start fin rpc.events (pollInit s),
      ∃ l ∈ reported (x.2.map (·.latestLedger)), x.1.ledger ≤ l - confirmationDepth L.cfg := by
    intro x hx
    obtain ⟨hconf, ⟨res, hres, hmem⟩, pre, hne, hpre, hpages⟩ :=
      pollHanded_confirmed rpc.events (pollInit s) rfl x hx
    rw [show x.2 = pre from hpages] at hconf ⊢
    obtain ⟨l, hl, hle⟩ := (hwindow pre hne hpre).admitted
    rw [tipOf_eq, confirms_iff_admitted hd (hledgers res hres _ hmem)] at hconf
    exact ⟨l, hl, hconf.trans hle⟩
  rcases pollAnswers_returns L O start fin rpc.events (pollInit s) rfl
    with ⟨e, hfail⟩ | ⟨pre, hne, hpre, hpages, hnext⟩
  · refine ⟨hhanded, ?_, fun _ => ?_, fun h => ?_⟩
    · rw [hout, hfail]
    · rw [hout, hfail]
    · rw [hout, hfail] at h
      cases h
  · have hkeep := hwindow pre hne hpre
    obtain ⟨l, hl, hlast⟩ := reported_last (hkeep.admitted.imp fun l h => h.1)
    have hres := hkeep.resumed
    rw [hlast] at hres
    have hright := (nextLedger_kept_iff (l := l) hd hlow).2 (fun h₁ h₂ => by
      have := hres h₁ h₂
      split_ifs at this ⊢
      · exact this
      · exact this l hl)
    rw [← hlast, ← tipOf_eq] at hright
    simp only [pollInit, List.nil_append] at hpages hnext
    refine ⟨hhanded, ?_, fun h => ?_, fun _ => ?_⟩
    · rw [hout]
      simp only [pollInit, hnext]
      exact hright.1
    · rw [hout] at h
      simp only [pollInit, hnext] at h
      exact absurd rfl h
    · rw [hout]
      simp only [pollInit, hnext, hpages]
      exact hright.2.imp id fun h => ⟨l, hl, h⟩

/-- A call that walks up to a page with a tip and these events. -/
def walkTo (front : List UInt32) (tip : UInt32) (events : List SorobanEvent) (rest : List UInt32) :
    RpcAnswers where
  latest := .ok 0
  events := (walkPages front).map .ok ++
    (⟨tip, events, ""⟩ :: rest.map fun tip => ⟨tip, [], ""⟩ : List GetEventsResult).map .ok

theorem map_tips (events : List SorobanEvent) (cursor : String) (tips : List UInt32) :
    (tips.map fun tip => (⟨tip, events, cursor⟩ : GetEventsResult)).map (·.latestLedger)
      = tips := by
  rw [List.map_map]
  exact List.map_id tips

theorem okPages_ok (pages : List GetEventsResult) : okPages (pages.map .ok) = pages := by
  induction pages with
  | nil => rfl
  | cons res pages ih =>
    rw [List.map_cons, okPages, List.filterMap_cons_some (by rfl)]
    exact congrArg _ ih

theorem okPages_walkTo (front : List UInt32) (tip : UInt32) (events : List SorobanEvent)
    (rest : List UInt32) :
    okPages (walkTo front tip events rest).events
      = walkPages front ++ ⟨tip, events, ""⟩ :: rest.map fun tip => ⟨tip, [], ""⟩ := by
  rw [walkTo, ← List.map_append, okPages_ok]

theorem walkTo_tips (front : List UInt32) (tip : UInt32) (events : List SorobanEvent)
    (rest : List UInt32) :
    (okPages (walkTo front tip events rest).events).map (·.latestLedger) =
      front ++ tip :: rest := by
  rw [okPages_walkTo, walkPages, List.map_append, List.map_cons, map_tips, map_tips]

theorem walkTo_ledgers {front : List UInt32} {tip : UInt32} {events : List SorobanEvent}
    {rest : List UInt32} (hevents : ∀ ev ∈ events, ev.ledger < 2 ^ 31) :
    ∀ res ∈ okPages (walkTo front tip events rest).events, ∀ ev ∈ res.events,
      ev.ledger < 2 ^ 31 := by
  intro res hres ev hev
  rw [okPages_walkTo] at hres
  simp only [walkPages, List.mem_append, List.mem_map, List.mem_cons] at hres
  rcases hres with ⟨t, -, rfl⟩ | rfl | ⟨t, -, rfl⟩
  · obtain rfl : ev = seenEvent := by simpa using hev
    decide
  · exact hevents ev hev
  · cases hev

/-- Where the filter lets a ledger through that no reported tip is far enough ahead of, an event of
that ledger is handed over. -/
theorem admitted_of_confirmed (hd : 0 < confirmationDepth L.cfg) (front : List UInt32)
    (tip : UInt32)
    (rest : List UInt32)
    (h : ∀ events, (∀ ev ∈ events, ev.ledger < 2 ^ 31) →
      Confirmed L calm start 0 (walkTo front tip events rest) seenDb) :
    ∃ l ∈ reported (front ++ [tip]),
      admittedLedger (confirmationDepth L.cfg) (lastTip (front ++ [tip]))
        ≤ l - confirmationDepth L.cfg := by
  have hsmall : admittedLedger (confirmationDepth L.cfg) (lastTip (front ++ [tip])) < 2 ^ 31 := by
    unfold admittedLedger
    split_ifs
    · exact int32_upper _
    · norm_num
  obtain ⟨p, hdb, hpages, hp, hrest⟩ := walk L start front (pollInit seenDb)
    seenDb_logged.1 rfl
  have hdb' : p.db.tables = seenDb.tables := hdb
  have htips : (p.pages ++ [(⟨tip, [unseenEvent (admittedLedger (confirmationDepth L.cfg)
      (lastTip (front ++ [tip])))], ""⟩ :
      GetEventsResult)]).map (·.latestLedger) = front ++ [tip] := by
    rw [hpages, List.map_append, pollInit, List.nil_append, walkPages, map_tips]
    rfl
  have hhanded := handedPage_unseen hp (by rw [hdb']; exact seenDb_logged.2) rfl (by
    rw [tipOf_eq, htips, confirms_iff_admitted hd hsmall])
  have hevents : ∀ ev ∈ [unseenEvent (admittedLedger (confirmationDepth L.cfg)
      (lastTip (front ++ [tip])))], ev.ledger < 2 ^ 31 := by
    intro ev hev
    rw [List.mem_singleton.1 hev]
    exact hsmall
  have hbehind := (h _ hevents).handed (_, _) (by
    rw [walkTo, (hrest _).1]
    simp only [List.map_cons, pollHanded]
    exact List.mem_append_left _ (List.mem_map_of_mem hhanded))
  rwa [htips] at hbehind

/-- Where the call ends on a page without events, it returns what the tip confirms. -/
theorem returned_of_confirmed (hids : contractIDs L.cfg ≠ []) (front : List UInt32) (tip : UInt32)
    (rest : List UInt32) {l : ℤ} (hl : (reported (front ++ [tip])).getLast? = some l)
    (h : Confirmed L calm start 0 (walkTo front tip [] rest) seenDb) :
    let next := nextLedger (confirmationDepth L.cfg) start (lastTip (front ++ [tip]))
    start ≤ next ∧ (next = start ∨ next ≤ l - confirmationDepth L.cfg + 1) := by
  intro next
  obtain ⟨p, -, hpages, hp, hrest⟩ := walk L start front (pollInit seenDb)
    seenDb_logged.1 rfl
  have htips : (p.pages ++ [(⟨tip, [], ""⟩ : GetEventsResult)]).map (·.latestLedger)
      = front ++ [tip] := by
    rw [hpages, List.map_append, pollInit, List.nil_append, walkPages, map_tips]
    rfl
  have hout : pollEventsRange L calm start 0 (walkTo front tip [] rest) seenDb
      = pollDone L start (receivePage p ⟨tip, [], ""⟩) := by
    rw [pollEventsRange, if_neg hids, walkTo, (hrest _).2]
    simp [pollAnswers, pollPage]
  have hnext : (pollEventsRange L calm start 0 (walkTo front tip [] rest) seenDb).1 =
      (next, none) := by
    rw [hout, pollDone, receivePage_tip hp, tipOf_eq, htips]
  have hlower := h.lower
  have hreturned := h.returned (by rw [hnext])
  rw [hnext] at hlower hreturned
  refine ⟨hlower, hreturned.imp id ?_⟩
  rintro ⟨l', hl', hle⟩
  rw [hout] at hl'
  simp only [pollDone, receivePage] at hl'
  rw [htips, hl] at hl'
  obtain rfl : l = l' := Option.some.inj hl'
  exact hle

end Main

/-- A listener with a contract keeps to the confirmation window on every call whose pages report
these latest ledgers, whatever events, database and failures it meets, exactly when after each page
the ledgers the filter lets through are behind a reported tip and the ledger to resume from does not
wrap. -/
theorem confirmation_safe_iff (L : EventListener) (hids : contractIDs L.cfg ≠ [])
    (hd : 0 < confirmationDepth L.cfg) {start : ℤ} (hlow : -2 ^ 31 ≤ start) (tips : List UInt32) :
    (∀ O fin rpc s, (∀ res ∈ okPages rpc.events, ∀ ev ∈ res.events, ev.ledger < 2 ^ 31) →
        (okPages rpc.events).map (·.latestLedger) = tips → Confirmed L O start fin rpc s)
      ↔ ∀ pre, pre <+: tips → pre ≠ [] → WindowKept (confirmationDepth L.cfg) start pre := by
  constructor
  · intro h pre hpre hne
    obtain ⟨rest, rfl⟩ := hpre
    rcases List.eq_nil_or_concat pre with rfl | ⟨front, tip, rfl⟩
    · exact absurd rfl hne
    rw [List.concat_eq_append] at *
    have hcall : ∀ events, (∀ ev ∈ events, ev.ledger < 2 ^ 31) →
        Confirmed L calm start 0 (walkTo front tip events rest) seenDb := by
      intro events hevents
      exact h calm 0 _ seenDb (walkTo_ledgers hevents) (by rw [walkTo_tips]; simp)
    have hadmitted := admitted_of_confirmed hd front tip rest hcall
    obtain ⟨l, hl, hlast⟩ := reported_last (hadmitted.imp fun l h => h.1)
    refine ⟨hadmitted, fun h₁ h₂ => ?_⟩
    have hright := returned_of_confirmed hids front tip rest hl (hcall [] (by simp))
    rw [hlast] at h₁ h₂ ⊢
    simp only [hlast] at hright
    have := (nextLedger_kept_iff hd hlow).1 hright h₁ h₂
    split_ifs at this ⊢
    · exact this
    · intro l' hl'
      obtain rfl : l = l' := Option.some.inj (hl.symm.trans hl')
      exact this
  · intro hkept O fin rpc s hledgers htips
    exact WindowKept.confirmed hids hd hlow hkept O fin rpc s hledgers htips

/-- A page with a single event, of the last `int32` ledger. -/
def lonePage (tip : UInt32) : List GetEventsResult := [⟨tip, [registration "e1" 2147483647], ""⟩]

theorem lonePage_handed (tip : UInt32) (htip : int32 tip.toNat ≤ 0) :
    (registration "e1" 2147483647, lonePage tip) ∈
      pollHanded (recordedListener 3) calm 100 0 ((lonePage tip).map .ok) (pollInit freshDb) := by
  have hpending : ∀ latest ≤ 0, pendingEvents (recordedListener 3) 0 latest
      [registration "e1" 2147483647] = [registration "e1" 2147483647] := by
    intro latest hlatest
    simp [pendingEvents, confirms, hlatest]
  have htip' :
    (receivePage (pollInit freshDb) ⟨tip, [registration "e1" 2147483647], ""⟩).latestLedgerSeq
      ≤ 0 := by
    simp only [receivePage, pollInit]
    split_ifs
    · exact le_rfl
    · exact htip
  simp only [lonePage, List.map_cons, pollHanded]
  refine List.mem_append_left _ (List.mem_map.2 ⟨_, ?_, rfl⟩)
  unfold handedPage
  simp only [hpending _ htip']
  rw [areEventsProcessed_calm (by simp)]
  exact List.mem_cons_self

/-- At depth 3 the event is handed over from a page that omits its latest ledger, and from one that
reports a latest ledger just after the event's, beyond `int32`. -/
theorem pollEventsRange_unconfirmed :
    ¬ Confirmed (recordedListener 3) calm 100 0 ⟨.ok 0, (lonePage 0).map .ok⟩ freshDb
      ∧ ¬ Confirmed (recordedListener 3) calm 100 0
        ⟨.ok 0, (lonePage 2147483648).map .ok⟩ freshDb := by
  constructor
  · intro h
    obtain ⟨l, hl, -⟩ := h.handed _ (lonePage_handed 0 (by decide))
    simp [lonePage, reported] at hl
  · intro h
    obtain ⟨l, hl, hle⟩ := h.handed _ (lonePage_handed 2147483648 (by decide))
    obtain rfl : l = 2147483648 := by simpa [lonePage, reported] using hl
    revert hle
    decide

/-- Two pages, of which the second omits its latest ledger. -/
def omittingPages : List GetEventsResult :=
  [⟨104, [registration "e1" 100], "c1"⟩, ⟨0, [registration "e2" 101, registration "e3" 103], ""⟩]

/-- The tip of the first page serves for both. -/
theorem pollEventsRange_confirmed_omitting :
    Confirmed (recordedListener 3) calm 100 0 ⟨.ok 104, omittingPages.map .ok⟩ freshDb
      ∧ (pollHanded (recordedListener 3) calm 100 0 (omittingPages.map .ok) (pollInit freshDb)).map
        (·.1.id) = ["e1", "e2"] := by
  have hids : contractIDs (recordedListener 3).cfg ≠ [] := by decide
  have hkept : ∀ pre, pre <+: [(104 : UInt32), 0] → pre ≠ [] → WindowKept 3 100 pre := by
    intro pre hpre hne
    rw [windowKept_iff (by norm_num) (by norm_num) (by norm_num)]
    have hmem := (List.mem_inits pre _).2 hpre
    simp only [List.inits, List.mem_cons, List.map_cons, List.map_nil, List.not_mem_nil,
      or_false] at hmem
    rcases hmem with rfl | rfl | rfl
    · exact absurd rfl hne
    · exact .inl (by decide)
    · exact .inl (by decide)
  refine ⟨?_, by decide +kernel⟩
  exact (confirmation_safe_iff (recordedListener 3) hids (by decide) (by norm_num) [104, 0]).2 hkept
    calm 0 _ freshDb (by decide +kernel) rfl

end TrusTrove
