import TrusTrove.Proofs.Mirror

/-!
# Every event is applied once

`pollRun` is a sequence of polls of one listener, each under its own faults and its own answers of
the RPC. `Replayed` says of the state they reach that it holds what handling each committed event
once, without a fault, leaves: the lookup keeps a logged event from being handled again, and a
failed event is rolled back whole. It is kept by each event of a page (`handlePending_replayed`),
by each page, and so by every run.
-/

namespace TrusTrove

open Sql

/-- One call of `pollEventsRange`, with what the environment does during it. -/
structure PollCall where
  oracle : Oracle
  startLedger : ℤ
  endLedger : ℤ
  rpc : RpcAnswers

/-- A sequence of polls: the database after them, and the events `handleEvent` returned from, with
the clock it read. -/
def pollRun (L : EventListener) : List PollCall → Db → Db × List (SorobanEvent × ℕ)
  | [], s => (s, [])
  | call :: calls, s =>
    let p := (pollEventsRange L call.oracle call.startLedger call.endLedger call.rpc s).2
    let r := pollRun L calls p.db
    (r.1, p.handled ++ r.2)

/-- The switch knows the event's name. -/
def recognised (L : EventListener) (event : SorobanEvent) : Bool :=
  match eventName L event with
  | .ok name => (eventKind name).isSome
  | .error _ => false

/-- The events of a run that were committed, with the clock at their commit. -/
def committed (L : EventListener) (handled : List (SorobanEvent × ℕ)) : List (SorobanEvent × ℕ) :=
  handled.filter fun x => recognised L x.1

/-- One call of `handleEvent` for each event, without faults. -/
def replay (L : EventListener) (clock : SorobanEvent → ℕ)
    (stats : SorobanEvent → Except GoError ScVal) :
    List SorobanEvent → Db → Except GoError Unit × Db
  | [], s => (.ok (), s)
  | ev :: evs, s =>
    match handleEvent L (stats ev) (clock ev) noFaults s ev with
    | (.error e, s) => (.error e, s)
    | (.ok _, s) => replay L clock stats evs s

variable {L : EventListener}

theorem replay_snoc {clock : SorobanEvent → ℕ} {stats : SorobanEvent → Except GoError ScVal}
    {ev : SorobanEvent} {s' : Db} :
    ∀ (evs : List SorobanEvent) (s : Db), replay L clock stats evs s = (.ok (), s') →
      (handleEvent L (stats ev) (clock ev) noFaults s' ev).1 = .ok () →
      replay L clock stats (evs ++ [ev]) s =
        (.ok (), (handleEvent L (stats ev) (clock ev) noFaults s' ev).2)
  | [], s, h, hev => by
    obtain rfl : s = s' := congrArg Prod.snd h
    simp only [List.nil_append, replay]
    split <;> rename_i heq <;> rw [heq] at hev ⊢
    · simp at hev
  | e :: evs, s, h, hev => by
    simp only [List.cons_append, replay] at h ⊢
    split at h
    · simp at h
    · exact replay_snoc evs _ h hev

/-- `s` is what handling the events of `done` once each leaves in `s₀`, and `events_log` tells
which they are. -/
structure Replayed (L : EventListener) (s₀ s : Db) (done : List (SorobanEvent × ℕ)) : Prop where
  subscriptions : s.shared.subscriptions = s₀.shared.subscriptions
  nodup : (done.map (·.1.id)).Nodup
  fresh : ∀ x ∈ done, s₀.tables.logged x.1.id = false
  logged : ∀ id, s.tables.logged id = true ↔
    s₀.tables.logged id = true ∨ id ∈ done.map (·.1.id)
  replays : ∀ clock stats, (∀ x ∈ done, clock x.1 = x.2 ∨ Timeless L x.1) →
    ∃ ref, replay L clock stats (done.map (·.1)) s₀ = (.ok (), ref)
      ∧ ref.tables.contents = s.tables.contents
      ∧ ref.shared.subscriptions = s.shared.subscriptions

theorem Replayed.refl (s : Db) : Replayed L s s [] :=
  ⟨rfl, List.nodup_nil, by simp, by simp, fun _ _ _ => ⟨s, rfl, rfl, rfl⟩⟩

theorem Replayed.congr {s₀ s s' : Db} {done : List (SorobanEvent × ℕ)} (h : Replayed L s₀ s done)
    (ht : s'.tables = s.tables) (hs : s'.shared.subscriptions = s.shared.subscriptions) :
    Replayed L s₀ s' done := by
  refine ⟨hs.trans h.subscriptions, h.nodup, h.fresh, fun id => ?_, fun clock stats hclock => ?_⟩
  · rw [ht]
    exact h.logged id
  · rw [ht, hs]
    exact h.replays clock stats hclock

section Step

variable {stats : Except GoError ScVal} {now : ℕ} {O : ℕ → Bool} {s₀ s : Db}
  {done : List (SorobanEvent × ℕ)} {event : SorobanEvent}

theorem handleEvent_subscriptions :
    (handleEvent L stats now O s event).2.shared.subscriptions = s.shared.subscriptions :=
  (handleEvent_writes L stats now event O s).2.1

theorem Replayed.failed (h : Replayed L s₀ s done) {e : GoError}
    (herr : (handleEvent L stats now O s event).1 = .error e) :
    Replayed L s₀ (handleEvent L stats now O s event).2 done :=
  h.congr (handleEvent_error herr) handleEvent_subscriptions

/-- A call of `handleEvent` that returns, on an event not yet logged, is one more event replayed. -/
theorem Replayed.handled (h : Replayed L s₀ s done) (hnew : s.tables.logged event.id = false)
    (hok : (handleEvent L stats now O s event).1 = .ok ()) :
    Replayed L s₀ (handleEvent L stats now O s event).2 (done ++ committed L [(event, now)]) := by
  rcases hname : eventName L event with e | name
  · simp [handleEvent, hname] at hok
  rcases hkind : eventKind name with _ | kind
  · have hnil : committed L [(event, now)] = [] := by simp [committed, recognised, hname, hkind]
    rw [hnil, List.append_nil]
    exact h.congr (handleEvent_unknown hname hkind) handleEvent_subscriptions
  have hone : committed L [(event, now)] = [(event, now)] := by
    simp [committed, recognised, hname, hkind]
  have hlogged := handleEvent_logged hname hkind hok
  have hwrites := (handleEvent_writes L stats now event O s).1
  have hids : event.id ∉ done.map (·.1.id) := fun hmem => by
    have := (h.logged event.id).2 (.inr hmem)
    simp [hnew] at this
  rw [hone]
  refine ⟨handleEvent_subscriptions.trans h.subscriptions, ?_, ?_, fun id => ?_,
    fun clock stats' hclock => ?_⟩
  · rw [List.map_append, List.nodup_append]
    refine ⟨h.nodup, by simp, fun a ha b hb hab => ?_⟩
    simp only [List.map_cons, List.map_nil, List.mem_singleton] at hb
    exact hids (hb ▸ hab ▸ ha)
  · intro x hx
    rcases List.mem_append.1 hx with hx | hx
    · exact h.fresh x hx
    · obtain rfl := List.mem_singleton.1 hx
      by_contra hold
      have := (h.logged event.id).2 (.inl (by simpa using hold))
      simp [hnew] at this
  · simp only [List.map_append, List.map_cons, List.map_nil, List.mem_append, List.mem_singleton]
    rw [← or_assoc, ← h.logged id]
    constructor
    · intro hid
      exact ((hwrites.logged id).2 hid).symm
    · rintro (hid | rfl)
      · exact (hwrites.logged id).1 hid
      · exact hlogged
  · obtain ⟨ref, hrep, hcont, hsubs⟩ :=
      h.replays clock stats' fun x hx => hclock x (List.mem_append_left _ hx)
    have hnow := hclock (event, now) (List.mem_append_right _ List.mem_cons_self)
    obtain ⟨hret, hcont', hsubs'⟩ := handleEvent_mirrored hok hnow (stats' event) hcont hsubs
    refine ⟨_, ?_, hcont', hsubs'⟩
    rw [List.map_append]
    exact replay_snoc _ s₀ hrep hret

end Step

section Run

variable {O : Oracle} {start fin : ℤ} {s₀ : Db} {before : List (SorobanEvent × ℕ)}

/-- What a poll has done so far, after what the polls before it did. -/
def Poll.Replays (L : EventListener) (s₀ : Db) (before : List (SorobanEvent × ℕ))
    (p : Poll) : Prop :=
  Replayed L s₀ p.db (before ++ committed L p.handled)

/-- The events of a page, with distinct ids, none of which was found logged in vain. -/
theorem handlePending_replayed (O : Oracle) (processed : List String) :
    ∀ (evs : List SorobanEvent) (p : Poll), p.Replays L s₀ before → (evs.map (·.id)).Nodup →
      (∀ ev ∈ evs, ev.id ∉ processed → p.db.tables.logged ev.id = false) →
      (handlePending L O processed evs p).2.Replays L s₀ before
  | [], p, hp, _, _ => hp
  | ev :: evs, p, hp, hnodup, hlook => by
    obtain ⟨hhead, htail⟩ := List.nodup_cons.1 hnodup
    simp only [handlePending]
    split_ifs with hproc
    · exact handlePending_replayed O processed evs _ hp htail
        fun e he => hlook e (List.mem_cons_of_mem _ he)
    · have hnew := hlook ev List.mem_cons_self hproc
      split <;> rename_i hev
      · rename_i e db
        have herr := congrArg Prod.fst hev
        have := hp.failed herr
        rw [hev] at this
        exact this
      · rename_i db
        have hok := congrArg Prod.fst hev
        have hstep := Replayed.handled hp hnew hok
        rw [hev, List.append_assoc] at hstep
        refine handlePending_replayed O processed evs _ ?_ htail fun e he heproc => ?_
        · simpa [Poll.Replays, committed] using hstep
        · have hold := hlook e (List.mem_cons_of_mem _ he) heproc
          have hwrites :=
            (handleEvent_writes L (O.stats p.db.tick) (O.now p.db.tick) ev O.fails p.db).1
          rw [hev] at hwrites
          by_contra hlog
          rcases (hwrites.logged e.id).2 (by simpa using hlog) with hid | hid
          · exact hhead (List.mem_map.2 ⟨e, he, hid⟩)
          · simp [hold] at hid

theorem areEventsProcessed_tables (ids : List String) (O : ℕ → Bool) (s : Db) :
    (areEventsProcessed ids O s).2.tables = s.tables
      ∧ (areEventsProcessed ids O s).2.shared = s.shared
      ∧ ∀ processed, (areEventsProcessed ids O s).1 = .ok processed →
        ∀ id ∈ ids, id ∉ processed → s.tables.logged id = false := by
  unfold areEventsProcessed
  split_ifs with hids hfail
  · simp [hids]
  · simp
  · refine ⟨rfl, rfl, fun processed h id hid hnot => ?_⟩
    simp only [Except.ok.injEq] at h
    subst h
    simpa [hid] using hnot

theorem pollPage_replayed {p p' : Poll} {res : GetEventsResult}
    (hnodup : (res.events.map (·.id)).Nodup)
    (hp : p.Replays L s₀ before)
    (h : pollPage L O start fin p res = .next p' ∨ pollPage L O start fin p res = .done p'
      ∨ ∃ e, pollPage L O start fin p res = .fail p' e) : p'.Replays L s₀ before := by
  have hq : (receivePage p res).Replays L s₀ before := hp
  have hpending : ((pendingEvents L fin (receivePage p res).latestLedgerSeq res.events).map
      (·.id)).Nodup := by
    refine hnodup.sublist (List.Sublist.map _ ?_)
    unfold pendingEvents
    split_ifs
    · exact List.filter_sublist.trans List.filter_sublist
    · exact List.filter_sublist
  rcases pollPage_cases L O start fin p res with ⟨-, hd⟩ | ⟨e, db, hlook, e', hf⟩
      | ⟨processed, db, hlook, r, p₁, hrun, hflow⟩
  · obtain rfl : receivePage p res = p' := by simpa [hd] using h
    exact hq
  · obtain ⟨htab, hsh, -⟩ := areEventsProcessed_tables
      ((pendingEvents L fin (receivePage p res).latestLedgerSeq res.events).map (·.id)) O.fails
      (receivePage p res).db
    rw [hlook] at htab hsh
    obtain rfl : { receivePage p res with db } = p' := by simpa [hf] using h
    exact Replayed.congr hq htab (by rw [hsh])
  · obtain ⟨htab, hsh, hold⟩ := areEventsProcessed_tables
      ((pendingEvents L fin (receivePage p res).latestLedgerSeq res.events).map (·.id)) O.fails
      (receivePage p res).db
    rw [hlook] at htab hsh hold
    have hstart : Poll.Replays L s₀ before { receivePage p res with db } :=
      Replayed.congr hq htab (by rw [hsh])
    have hend := handlePending_replayed O processed _ _ hstart hpending
      fun ev hev hproc => by
        have hsame : db.tables = (receivePage p res).db.tables := htab
        rw [hsame]
        exact hold processed rfl ev.id (List.mem_map_of_mem hev) hproc
    rw [hrun] at hend
    rcases hflow with ⟨e, -, hf⟩ | ⟨-, ⟨-, hd⟩ | ⟨-, hn⟩⟩
    · obtain rfl : p₁ = p' := by simpa [hf] using h
      exact hend
    · obtain rfl : p₁ = p' := by simpa [hd] using h
      exact hend
    · obtain rfl : { p₁ with cursor := res.cursor } = p' := by simpa [hn] using h
      exact hend

theorem pollEventsRange_replayed (O : Oracle) (start fin : ℤ) {rpc : RpcAnswers} {s : Db}
    (hids : ∀ res, .ok res ∈ rpc.events → (res.events.map (·.id)).Nodup)
    (hs : Replayed L s₀ s before) :
    (pollEventsRange L O start fin rpc s).2.Replays L s₀ before := by
  have hinit : (pollInit s).Replays L s₀ before := by
    simpa [Poll.Replays, pollInit, committed] using hs
  unfold pollEventsRange
  split_ifs
  · unfold pollLatest
    split <;> exact hinit
  · exact pollAnswers_induct (V := fun res => (res.events.map (·.id)).Nodup)
      (I := fun p => p.Replays L s₀ before) (J := fun out => out.2.Replays L s₀ before)
      (fun _ _ hp => hp) (fun _ _ _ hV hp h => pollPage_replayed hV hp (.inl h))
      (fun _ _ _ hV hp h => pollPage_replayed hV hp (.inr (.inl h)))
      (fun _ _ _ e hV hp h => pollPage_replayed hV hp (.inr (.inr ⟨e, h⟩))) rpc.events _ hids hinit

theorem pollRun_replayed : ∀ (calls : List PollCall) (s : Db) (before : List (SorobanEvent × ℕ)),
    (∀ call ∈ calls, ∀ res, .ok res ∈ call.rpc.events → (res.events.map (·.id)).Nodup) →
    Replayed L s₀ s before →
    Replayed L s₀ (pollRun L calls s).1 (before ++ committed L (pollRun L calls s).2)
  | [], s, before, _, hs => by simpa [pollRun, committed] using hs
  | call :: calls, s, before, hids, hs => by
    have hcall := pollEventsRange_replayed call.oracle call.startLedger call.endLedger
      (hids call List.mem_cons_self) hs
    have hrest := pollRun_replayed calls _ _
      (fun c hc => hids c (List.mem_cons_of_mem _ hc)) hcall
    simpa [pollRun, committed, List.append_assoc] using hrest

end Run

/-- Whatever fails and whatever is delivered again, a sequence of polls leaves what one call of
`handleEvent` for each event it committed leaves, in the order of their commits and at any time, and
the events it committed are those it added to `events_log`. -/
theorem pollRun_exactly_once (L : EventListener) (calls : List PollCall) (s : Db)
    (hids : ∀ call ∈ calls, ∀ res, .ok res ∈ call.rpc.events → (res.events.map (·.id)).Nodup) :
    let out := pollRun L calls s
    let done := committed L out.2
    (done.map (·.1.id)).Nodup
      ∧ (∀ x ∈ done, s.tables.logged x.1.id = false)
      ∧ (∀ id, out.1.tables.logged id = true ↔ s.tables.logged id = true ∨ id ∈ done.map (·.1.id))
      ∧ ∀ (clock : SorobanEvent → ℕ) (stats : SorobanEvent → Except GoError ScVal),
        (∀ x ∈ done, clock x.1 = x.2 ∨ Timeless L x.1) →
        ∃ ref, replay L clock stats (done.map (·.1)) s = (.ok (), ref)
          ∧ ref.tables.contents = out.1.tables.contents := by
  intro out done
  have h := pollRun_replayed (L := L) calls s [] hids (Replayed.refl s)
  rw [List.nil_append] at h
  refine ⟨h.nodup, h.fresh, h.logged, fun clock stats hclock => ?_⟩
  obtain ⟨ref, hrep, hcont, -⟩ := h.replays clock stats hclock
  exact ⟨ref, hrep, hcont⟩

/-- A poll whose fifth statement fails, on the second event, and a poll that is served both events
again. -/
def interruptedPolls : List PollCall :=
  [⟨{ calm with fails := fun n => n = 5 }, 100, 0, ⟨.ok 106,
      [.ok ⟨106, [registration "e1" 101, registration "e2" 102], ""⟩]⟩⟩,
    ⟨calm, 100, 0, ⟨.ok 107, [.ok ⟨107, [registration "e1" 101, registration "e2" 102], ""⟩]⟩⟩]

theorem interruptedPolls_exactly_once :
    let done := committed (recordedListener 3)
      (pollRun (recordedListener 3) interruptedPolls freshDb).2
    done.map (·.1.id) = ["e1", "e2"] ∧ (done.map (·.1.id)).Nodup :=
  ⟨by decide +kernel, (pollRun_exactly_once (recordedListener 3) interruptedPolls freshDb
    (by
      intro call hcall res hres
      simp only [interruptedPolls, List.mem_cons, List.not_mem_nil, or_false] at hcall
      rcases hcall with rfl | rfl <;>
        simp only [List.mem_cons, List.not_mem_nil, or_false, Except.ok.injEq] at hres <;>
        subst hres <;> decide)).1⟩

end TrusTrove
