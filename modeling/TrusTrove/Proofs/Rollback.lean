import TrusTrove.Proofs.Fanout
import TrusTrove.Proofs.InvoiceRow

/-!
# A failed event

Everything an event writes to its own tables is rolled back with it. The refresh of the pool
statistics goes through the pool and stays, so an event that fails after it has left a new snapshot
and a new row of the history. The refresh is reached by three of the handlers, once their `UPDATE`
has moved the invoice; where it is not reached, or writes nothing, a failed event leaves the
database as it was whichever statement failed (`failed_event_leaves_db`).
-/

namespace TrusTrove

open Sql

/-- The `UPDATE` of a handler that refreshes the pool statistics finds its invoice in the status it
moves, and the row it writes is admitted. -/
def Updates (sdk : Sdk) (event : SorobanEvent) (w : Tables) : EventKind → Prop
  | .funded => ∃ id val amount r, topicInvoiceID sdk event "funded" = .ok id
      ∧ eventValue sdk event "parse value" = .ok val ∧ numeric (parseU128 val) = some amount
      ∧ w.invoices.find? id = some r ∧ r.status = .listed
      ∧ ({ r with fundedAmount := amount } : DbInvoice).fits = true
  | .repaid => ∃ id r, topicInvoiceID sdk event "repaid" = .ok id
      ∧ w.invoices.find? id = some r ∧ r.status = .confirmed ∧ r.fits = true
  | .defaulted => ∃ id r, topicInvoiceID sdk event "default" = .ok id
      ∧ w.invoices.find? id = some r ∧ r.deployed = true ∧ r.fits = true
  | _ => False

/-- The contract's statistics are read, and `pool_snapshots` admits them. -/
def Readable (stats : Except GoError ScVal) : Prop :=
  ∃ v, stats = .ok v ∧ (poolStatsOf v).fits = true

/-- The event refreshes the pool statistics. -/
def SyncsPool (L : EventListener) (stats : Except GoError ScVal) (event : SorobanEvent) (s : Db) :
    Prop :=
  Readable stats ∧ ∃ name kind, eventName L event = .ok name ∧ eventKind name = some kind
    ∧ Updates L.sdk event s.tables kind

section Untouched

variable {sdk : Sdk} {stats : Except GoError ScVal} {event : SorobanEvent} {kind : EventKind}
  {O : ℕ → Bool} {c : Conn Tables Shared}

/-- Statistics that are not read, or not admitted, are not written. -/
theorem syncPoolStats_untouched {R : Tables → Tables → Prop} [Std.Refl R] [IsTrans Tables R]
    (h : ¬ Readable stats) : Respects R Eq (syncPoolStats stats) := by
  intro O c
  rcases stats with e | v
  · exact ⟨refl_of R _, rfl⟩
  have hfits : (poolStatsOf v).fits = false := by
    by_contra hfits
    exact h ⟨v, rfl, by simpa using hfits⟩
  by_cases hO : O c.tick = true <;>
    simp [syncPoolStats, syncPoolStatsFromChain, updatePoolStats, bind_run, attempt_run,
      mapError_run, ofExcept_run, Prog.onPool, Except.mapError, hfits, hO, refl_of R]

theorem bind_unreached {α β : Type} {m : DbProg α} {f : α → DbProg β} {R : Tables → Tables → Prop}
    (hm : Respects R Eq m) (hfail : ∀ a, (m O c).1 ≠ .ok a) :
    ((m >>= f) O c).2.shared = c.shared := by
  have h := (hm O c).2
  rw [bind_run]
  rcases hr : m O c with ⟨e | a, c₁⟩
  · rw [hr] at h
    exact h.symm
  · exact absurd (congrArg Prod.fst hr) (hfail a)

theorem ofExcept_bind_shared {α β : Type} {r : Except GoError α} {f : α → DbProg β}
    (h : ∀ a, r = .ok a → (f a O c).2.shared = c.shared) :
    ((Prog.ofExcept r >>= f) O c).2.shared = c.shared := by
  rcases r with e | a
  · rfl
  · exact h a rfl

theorem bind_pure_shared {α β : Type} (m : DbProg α) (b : β) :
    ((m >>= fun _ => pure b) O c).2.shared = (m O c).2.shared := by
  rw [bind_run]
  rcases m O c with ⟨e | a, c₁⟩ <;> rfl

theorem refuseParameter_fails {α : Type} (ctx : String) (a : α) :
    (refuseParameter ctx O c).1 ≠ .ok a := by
  intro h
  have hrun : refuseParameter ctx O c
      = (.ok a, (refuseParameter ctx O c : Except GoError α × _).2) :=
    Prod.ext h rfl
  obtain ⟨w, hw, -⟩ := onTx_ok (mapError_ok hrun)
  cases hw

theorem updateInvoiceListed_ok {id : String} {d : ℤ} {c' : Conn Tables Shared}
    (h : updateInvoiceListed id .listed d O c = (.ok (), c')) :
    updateInvoice id "update invoice listed" "Listed" (·.status = .created)
      (fun r => some { r with status := .listed, discountBps := d }) (fun _ => rfl) O c
        = (.ok (), c') := by
  unfold updateInvoiceListed at h
  split_ifs at h
  · exact h
  · exact absurd (congrArg Prod.fst h) (refuseParameter_fails _ _)

/-- A handler whose `UPDATE` moves no row does not get to the pool. -/
theorem runHandler_untouched (stats : Except GoError ScVal) (t : ℤ) (name : String) (O : ℕ → Bool)
    (hsyncs : kind.syncsPool = true) (hno : ¬ Updates sdk event c.work kind) :
    (runHandler sdk stats event t name kind O c).2.shared = c.shared := by
  cases kind <;> simp only [EventKind.syncsPool, Bool.false_eq_true] at hsyncs
  all_goals
    simp only [runHandler, bind_pure_shared]
  case funded =>
    refine ofExcept_bind_shared fun id hid => ofExcept_bind_shared fun val hval => ?_
    have hwrites :
        Respects (HandlerWrites event.id) Eq (updateInvoiceFunded id .funded (parseU128 val) t) :=
      updateInvoiceFunded_writes t id _
    refine bind_unreached hwrites fun _ hok => hno ?_
    rcases hnum : numeric (parseU128 val) with _ | amount
    · simp only [updateInvoiceFunded, hnum] at hok
      exact absurd hok (refuseParameter_fails _ _)
    · simp only [updateInvoiceFunded, hnum] at hok
      obtain ⟨r, r', hr, hg, hr', hfits, -⟩ := updateInvoice_ok (Prod.ext hok rfl)
      cases hr'
      exact ⟨id, val, amount, r, hid, hval, hnum, hr, by simpa using hg, hfits⟩
  case repaid =>
    refine ofExcept_bind_shared fun id hid => ?_
    have hwrites : Respects (HandlerWrites event.id) Eq (updateInvoiceRepaid id .repaid t) :=
      updateInvoiceRepaid_writes t id
    refine bind_unreached hwrites fun _ hok => hno ?_
    obtain ⟨r, r', hr, hg, hr', hfits, -⟩ := updateInvoice_ok (Prod.ext hok rfl)
    cases hr'
    exact ⟨id, r, hid, hr, by simpa using hg, hfits⟩
  case defaulted =>
    refine ofExcept_bind_shared fun id hid => ?_
    have hwrites : Respects (HandlerWrites event.id) Eq (updateInvoiceStatus id "Defaulted") :=
      updateInvoiceDefaulted_writes id
    refine bind_unreached hwrites fun _ hok => hno ?_
    obtain ⟨r, r', hr, hg, hr', hfits, -⟩ := updateInvoice_ok (Prod.ext hok rfl)
    cases hr'
    exact ⟨id, r, hid, hr, hg, hfits⟩

end Untouched

section Touched

variable {sdk : Sdk} {v : ScVal} {event : SorobanEvent} {kind : EventKind} {O : ℕ → Bool}
  {c : Conn Tables Shared}

/-- The pool's tables after a refresh. -/
def Shared.synced (p : Shared) (stats : DbPoolStats) : Shared :=
  { p with poolSnapshot := stats, poolSnapshotHistory := p.poolSnapshotHistory ++ [stats] }

theorem Shared.synced_ne (p : Shared) (stats : DbPoolStats) : p.synced stats ≠ p := by
  intro h
  have := congrArg (fun p : Shared => p.poolSnapshotHistory.length) h
  simp [Shared.synced] at this

theorem syncPoolStats_run (hfits : (poolStatsOf v).fits = true) (h₀ : O c.tick = false)
    (h₁ : O (c.tick + 1) = false) :
    syncPoolStats (.ok v) O c
      = (.ok (), { c with shared := c.shared.synced (poolStatsOf v), tick := c.tick + 2 }) := by
  simp [syncPoolStats, syncPoolStatsFromChain, updatePoolStats, bind_run, attempt_run, mapError_run,
    ofExcept_run, Prog.onPool, Except.mapError, hfits, h₀, h₁, Shared.synced]

theorem sync_after {u : DbProg Unit} {w : Tables} (hfits : (poolStatsOf v).fits = true)
    (h₁ : O (c.tick + 1) = false) (h₂ : O (c.tick + 2) = false)
    (hu : u O c = (.ok (), { c with work := w, tick := c.tick + 1 })) :
    ((u >>= fun _ => syncPoolStats (.ok v)) >>= fun _ => (pure [] : DbProg (StringMap String))) O c
      = (.ok [], { c with
        work := w, shared := c.shared.synced (poolStatsOf v), tick := c.tick + 3 }) := by
  have hsync :=
    syncPoolStats_run (v := v) (c := { c with work := w, tick := c.tick + 1 }) hfits h₁ h₂
  rw [bind_run_ok _ ((bind_run_ok _ hu).trans hsync)]
  rfl

/-- A handler whose `UPDATE` moves its invoice refreshes the pool statistics. -/
theorem runHandler_synced (t : ℤ) (name : String) (hup : Updates sdk event c.work kind)
    (hfits : (poolStatsOf v).fits = true)
    (hc : c.aborted = false) (h₀ : O c.tick = false) (h₁ : O (c.tick + 1) = false)
    (h₂ : O (c.tick + 2) = false) :
    ∃ w, runHandler sdk (.ok v) event t name kind O c = (.ok [],
      { c with work := w, shared := c.shared.synced (poolStatsOf v), tick := c.tick + 3 }) := by
  cases kind <;> simp only [Updates] at hup
  case funded =>
    obtain ⟨id, val, amount, r, hid, hval, hnum, hr, hstatus, hrow⟩ := hup
    simp only [runHandler, handleInvoiceFunded, hid, hval, ofExcept_ok_bind,
      updateInvoiceFunded_eq hnum]
    exact ⟨_, sync_after hfits h₁ h₂ (updateInvoice_run h₀ hc hr (by simpa using hstatus) rfl hrow)⟩
  case repaid =>
    obtain ⟨id, r, hid, hr, hstatus, hrow⟩ := hup
    simp only [runHandler, handleInvoiceRepaid, hid]
    exact ⟨_, sync_after hfits h₁ h₂ (updateInvoice_run h₀ hc hr (by simpa using hstatus) rfl hrow)⟩
  case defaulted =>
    obtain ⟨id, r, hid, hr, hdeployed, hrow⟩ := hup
    simp only [runHandler, handleInvoiceDefaulted, hid]
    exact ⟨_, sync_after hfits h₁ h₂ (updateInvoice_run h₀ hc hr hdeployed rfl hrow)⟩

end Touched

section Retries

variable (L : EventListener) (event : SorobanEvent)

/-- Every one of the calls fails. -/
def AllFail : List HandleCall → Db → Prop
  | [], _ => True
  | c :: calls, s => (∃ e, (handleEvent L c.stats c.now c.fails s c.event).1 = .error e)
      ∧ AllFail calls (handleEvent L c.stats c.now c.fails s c.event).2

/-- Whichever statements fail, a call that returns an error leaves every table as it was. -/
def LeavesAlone (stats : Except GoError ScVal) (now : ℕ) (s : Db) : Prop :=
  ∀ fails e, (handleEvent L stats now fails s event).1 = .error e →
    (handleEvent L stats now fails s event).2.tables = s.tables
      ∧ (handleEvent L stats now fails s event).2.shared = s.shared

variable {L event} {stats : Except GoError ScVal} {now : ℕ} {s : Db}

theorem eventBody_untouched {name : String} (hname : eventName L event = .ok name)
    (hno : ¬ SyncsPool L stats event s) {O : ℕ → Bool} {c : Conn Tables Shared}
    (hc : c.work = s.tables) : (eventBody L stats now event name O c).2.shared = c.shared := by
  by_cases hread : Readable stats
  · rcases hkind : eventKind name with _ | kind
    · simp [eventBody, hkind]
    have hup : ¬ Updates L.sdk event c.work kind := by
      rw [hc]
      exact fun hup => hno ⟨hread, name, kind, hname, hkind, hup⟩
    by_cases hsyncs : kind.syncsPool = true
    · have hreg : kind ≠ .registration := by
        rintro rfl
        cases hsyncs
      have hhandler := runHandler_untouched stats (closedAt L now event) name O hsyncs hup
      rw [eventBody_handler hkind hreg, bind_run_ok _ (attempt_run _ O c)]
      refine Eq.trans ?_ hhandler
      exact ((afterHandler_writes L now event name kind _ : Respects _ Eq _) O _).2.symm
    · refine ((eventBody_respects L stats now event name fun kind' hkind' => ?_ :
        Respects (TableWrites event.id) Eq _) O c).2.symm
      obtain rfl : kind = kind' := Option.some.inj (hkind.symm.trans hkind')
      exact runHandler_respects _ _ _ _ _ _ fun h => absurd h hsyncs
  · refine ((eventBody_respects L stats now event name fun kind _ => ?_ :
      Respects (TableWrites event.id) Eq _) O c).2.symm
    exact runHandler_respects _ _ _ _ _ _ fun _ => syncPoolStats_untouched hread

theorem handleEvent_untouched (now : ℕ) (hno : ¬ SyncsPool L stats event s) :
    LeavesAlone L event stats now s := by
  intro fails e he
  refine ⟨handleEvent_error he, ?_⟩
  rcases hname : eventName L event with e' | name
  · simp only [handleEvent, hname]
  · rw [handleEvent_eq hname]
    exact withTx_shared (eventBody_untouched hname hno rfl)

/-- The insert into `events_log` and everything after it fail. -/
def failsFrom (n : ℕ) : ℕ → Bool := fun k => decide (n ≤ k)

/-- An event that refreshes the pool statistics and then cannot be logged fails, and leaves the
refresh. -/
theorem handleEvent_touched (hsyncs : SyncsPool L stats event s) :
    ∃ e st, (handleEvent L stats now (failsFrom (s.tick + 4)) s event).1 = .error e
      ∧ (handleEvent L stats now (failsFrom (s.tick + 4)) s event).2.shared =
          s.shared.synced st := by
  obtain ⟨⟨v, rfl, hfits⟩, name, kind, hname, hkind, hup⟩ := hsyncs
  have hreg : kind ≠ .registration := by
    rintro rfl
    exact hup
  have hO : ∀ k < s.tick + 4, failsFrom (s.tick + 4) k = false := by
    intro k hk
    simpa [failsFrom] using hk
  obtain ⟨w, hrun⟩ := runHandler_synced (closedAt L now event) name
    (c := ⟨s.tables, s.shared, false, s.tick + 1, s.failed⟩) hup hfits rfl
    (hO _ (by simp)) (hO _ (by simp)) (hO _ (by simp))
  have hbody : ∃ e, eventBody L (.ok v) now event name (failsFrom (s.tick + 4))
      ⟨s.tables, s.shared, false, s.tick + 1, s.failed⟩
        = (.error e, ⟨w, s.shared.synced (poolStatsOf v), true, s.tick + 5, true⟩) := by
    have hattempt : (runHandler L.sdk (.ok v) event (closedAt L now event) name kind).attempt
        (failsFrom (s.tick + 4)) ⟨s.tables, s.shared, false, s.tick + 1, s.failed⟩
          = (.ok (.ok []), ⟨w, s.shared.synced (poolStatsOf v), false, s.tick + 4, s.failed⟩) := by
      rw [attempt_run, hrun]
    have hlog : ∀ row, (logEvent row).mapError (.wrap "log event") (failsFrom (s.tick + 4))
        ⟨w, s.shared.synced (poolStatsOf v), false, s.tick + 4, s.failed⟩
          = (.error (.wrap "log event" (.wrap "queries: log event" driverError)),
            ⟨w, s.shared.synced (poolStatsOf v), true, s.tick + 5, true⟩) := by
      intro row
      unfold logEvent
      rw [mapError_run, mapError_run, onTx_failed driverError _ (by simp [failsFrom])]
      rfl
    rw [eventBody_handler hkind hreg, bind_run_ok _ hattempt]
    exact ⟨_, bind_run_error _ (hlog _)⟩
  obtain ⟨e, hbody⟩ := hbody
  rw [handleEvent_eq hname, withTx_failed (hO _ (by omega)) hbody]
  exact ⟨e, poolStatsOf v, rfl, rfl⟩

/-- Failed calls that do not refresh the statistics change nothing but the count of statements. -/
theorem handleRun_untouched {calls : List HandleCall}
    (hno : ∀ c ∈ calls, c.event = event ∧ ¬ SyncsPool L c.stats event s)
    (hfail : AllFail L calls s) :
    (handleRun L calls s).tables = s.tables ∧ (handleRun L calls s).shared = s.shared := by
  induction calls generalizing s with
  | nil => exact ⟨rfl, rfl⟩
  | cons c calls ih =>
    obtain ⟨rfl, hc⟩ := hno c List.mem_cons_self
    obtain ⟨⟨e, he⟩, hrest⟩ := hfail
    obtain ⟨htables, hshared⟩ := handleEvent_untouched c.now hc c.fails e he
    have hno' : ∀ c' ∈ calls, c'.event = c.event ∧ ¬ SyncsPool L c'.stats c.event
        (handleEvent L c.stats c.now c.fails s c.event).2 := by
      intro c' hc'
      obtain ⟨hevent, hquiet⟩ := hno c' (List.mem_cons_of_mem _ hc')
      refine ⟨hevent, ?_⟩
      unfold SyncsPool
      rwa [htables]
    obtain ⟨h₁, h₂⟩ := ih hno' hrest
    exact ⟨h₁.trans htables, h₂.trans hshared⟩

end Retries

/-- Whichever statements fail, a failed event leaves the database as it was exactly when it does not
refresh the pool statistics; and after any number of failed calls that do not, a further call does
what it would have done at once. -/
theorem failed_event_leaves_db (L : EventListener) (event : SorobanEvent) (s : Db) :
    (∀ stats now, LeavesAlone L event stats now s ↔ ¬ SyncsPool L stats event s)
      ∧ ∀ calls, (∀ c ∈ calls, c.event = event ∧ ¬ SyncsPool L c.stats event s) →
        AllFail L calls s →
        ∀ stats now fails, handleEvent L stats now fails (handleRun L calls s) event
          = handleEvent L stats now fails
            ⟨s.tables, s.shared, (handleRun L calls s).tick,
              (handleRun L calls s).failed⟩ event := by
  refine ⟨fun stats now => ⟨fun halone hsyncs => ?_, handleEvent_untouched now⟩, ?_⟩
  · obtain ⟨e, st, he, hshared⟩ := handleEvent_touched hsyncs
    have hsame := (halone _ e he).2
    rw [hshared] at hsame
    exact Shared.synced_ne _ _ hsame
  · intro calls hno hfail stats now fails
    obtain ⟨htables, hshared⟩ := handleRun_untouched hno hfail
    rw [← htables, ← hshared]

/-- The recorded invoice, listed. -/
def listedInvoice : DbInvoice := { recordedInvoice with status := .listed, discountBps := 250 }

/-- A recorded funding of it. -/
def recordedFunding : SorobanEvent :=
  recordedEvent "e1" "AAAADwAAAAxmdW5kX2ludm9pY2U=" [] "AAAACQAAAAAAAAAAAAAAAAAAA4Q="

/-- A funding whose `events_log` row cannot be written leaves a row in the history of the pool's
snapshots, and its retry another. -/
theorem failed_funding_leaves_snapshots :
    let L := recordedListener 3
    let s := dbOf listedInvoice
    let out := handleEvent L (.ok (.map none)) 0 (failsFrom 4) s recordedFunding
    let again :=
      handleEvent L (.ok (.map none)) 0 (failsFrom (out.2.tick + 4)) out.2 recordedFunding
    out.1 ≠ .ok () ∧ again.1 ≠ .ok () ∧ s.shared.poolSnapshotHistory.length = 0
      ∧ out.2.shared.poolSnapshotHistory.length = 1
      ∧ again.2.shared.poolSnapshotHistory.length = 2 := by
  decide +kernel

/-- A recorded listing of the recorded invoice. -/
def recordedListing : SorobanEvent :=
  recordedEvent "e1" "AAAADwAAABJsaXN0X2Zvcl9maW5hbmNpbmcAAA==" [] "AAAAAwAAAPo="

theorem recordedListing_quiet (stats : Except GoError ScVal) (s : Db) :
    ¬ SyncsPool (recordedListener 3) stats recordedListing s := by
  rintro ⟨-, name, kind, hname, hkind, hup⟩
  have hlisted : eventName (recordedListener 3) recordedListing = .ok "list_for_financing" := by
    decide +kernel
  obtain rfl : "list_for_financing" = name := Except.ok.inj (hlisted.symm.trans hname)
  obtain rfl : EventKind.listed = kind := Option.some.inj hkind
  exact hup

/-- A listing that fails at its commit is done by the next call as if it were the first. -/
theorem failed_listing_leaves_db :
    let L := recordedListener 3
    let s := dbOf recordedInvoice
    let call : HandleCall := ⟨recordedListing, 0, .ok (.map none), failsFrom 4⟩
    let s' := handleRun L [call] s
    LeavesAlone L recordedListing (.ok (.map none)) 0 s ∧ AllFail L [call] s
      ∧ handleEvent L (.ok (.map none)) 0 noFaults s' recordedListing
        = handleEvent L (.ok (.map none)) 0 noFaults ⟨s.tables, s.shared, s'.tick, s'.failed⟩
          recordedListing
      ∧ (handleEvent L (.ok (.map none)) 0 noFaults s' recordedListing).1 = .ok () := by
  intro L s call s'
  obtain ⟨halone, hretries⟩ := failed_event_leaves_db L recordedListing s
  have hfail : AllFail L [call] s := by
    have herr : (handleEvent L (.ok (.map none)) 0 (failsFrom 4) s recordedListing).1 ≠ .ok () := by
      decide +kernel
    refine ⟨?_, trivial⟩
    rcases hout : (handleEvent L call.stats call.now call.fails s call.event).1 with e | ⟨⟩
    · exact ⟨e, rfl⟩
    · exact absurd hout herr
  refine ⟨(halone _ 0).2 (recordedListing_quiet _ s), hfail, ?_, by decide +kernel⟩
  refine hretries [call] (fun c hc => ?_) hfail _ _ _
  obtain rfl := List.mem_singleton.1 hc
  exact ⟨rfl, recordedListing_quiet _ s⟩

end TrusTrove
