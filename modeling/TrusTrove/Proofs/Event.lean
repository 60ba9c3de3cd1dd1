import TrusTrove.Proofs.Poll

/-!
# One event

An event that `handleEvent` returns from is committed with its `events_log` row
(`handleEvent_logged`); one it fails on leaves the tables alone (`handleEvent_error`), and so does
one it does not recognise (`handleEvent_unknown`).
-/

namespace TrusTrove

open Sql

section Logged

variable {L : EventListener} {stats : Except GoError ScVal} {now : ℕ} {event : SorobanEvent}
  {name : String} {O : ℕ → Bool} {c : Conn Tables Shared} {s : Db}

theorem logEvent_ok {row : EventLog} (h : (logEvent row O c).1 = .ok ()) :
    (logEvent row O c).2.work.logged row.eventID = true := by
  have hrun : logEvent row O c = (.ok (), (logEvent row O c).2) := Prod.ext h rfl
  obtain ⟨w, hw, hc⟩ := onTx_ok (mapError_ok hrun)
  rw [hc]
  split_ifs at hw
  cases hw
  rw [logged_insertNew]
  exact .inl rfl

theorem eventTail_logged {kind : EventKind} {logData : StringMap String}
    (h : (eventTail L now event name kind logData O c).1 = .ok ()) :
    (eventTail L now event name kind logData O c).2.work.logged event.id = true := by
  unfold eventTail at h ⊢
  obtain ⟨⟨⟩, c₁, hlog, -⟩ := bind_ok (Prod.ext h rfl)
  rw [bind_run_ok _ hlog]
  have h₁ : c₁.work.logged event.id = true := by
    have hrun := mapError_ok hlog
    have hrow := logEvent_ok (congrArg Prod.fst hrun)
    rwa [hrun] at hrow
  split_ifs
  · have hrest : Respects (TailWrites event.id) SnapshotOnly (do
        let data ← webhookDispatchData event (closedAt L now event)
          (extractLogData L.sdk event kind logData)
        (enqueueDeliveries now name data).mapError (.wrap "enqueue webhook deliveries")) :=
      .bind (webhookDispatchData_writes event _ _) fun data =>
        .mapError _ (enqueueDeliveries_writes now name data)
    exact ((TailWrites.writes _ _ _ (hrest O c₁).1).logged _).1 h₁
  · exact h₁

theorem handleRegistrationEvent_logged {sdk : Sdk} {t : ℤ}
    (h : (handleRegistrationEvent sdk event t name O c).1 = .ok ()) :
    (handleRegistrationEvent sdk event t name O c).2.work.logged event.id = true := by
  unfold handleRegistrationEvent at h ⊢
  obtain ⟨val, c₁, hval, -⟩ := bind_ok (Prod.ext h rfl)
  rw [bind_run_ok _ hval] at h ⊢
  by_cases haddr : parseAddress sdk val = ""
  · simp [haddr] at h
  · rw [if_neg haddr] at h ⊢
    exact logEvent_ok h

theorem eventBody_handler {kind : EventKind} (hkind : eventKind name = some kind)
    (hreg : kind ≠ .registration) :
    eventBody L stats now event name =
      (runHandler L.sdk stats event (closedAt L now event) name kind).attempt >>=
        afterHandler L now event name kind := by
  unfold eventBody
  rw [hkind]
  cases kind <;> first | rfl | exact absurd rfl hreg

theorem eventBody_registration (hkind : eventKind name = some .registration) :
    eventBody L stats now event name =
      handleRegistrationEvent L.sdk event (closedAt L now event) name := by
  unfold eventBody
  rw [hkind]

theorem eventBody_logged {kind : EventKind} (hkind : eventKind name = some kind)
    (h : (eventBody L stats now event name O c).1 = .ok ()) :
    (eventBody L stats now event name O c).2.work.logged event.id = true := by
  by_cases hreg : kind = .registration
  · subst hreg
    rw [eventBody_registration hkind] at h ⊢
    exact handleRegistrationEvent_logged h
  · rw [eventBody_handler hkind hreg] at h ⊢
    obtain ⟨r, c₁, hr, -⟩ := bind_ok (Prod.ext h rfl)
    rw [bind_run_ok _ hr] at h ⊢
    rcases r with e | logData
    · by_cases hstale : e.is .invalidInvoiceTransition = true
      · simp only [afterHandler, hstale, if_true] at h ⊢
        exact logEvent_ok h
      · simp [afterHandler, hstale] at h
    · exact eventTail_logged h

theorem handleEvent_eq (hname : eventName L event = .ok name) :
    handleEvent L stats now O s event =
      withTx (.wrap "db: begin transaction" driverError)
        (.wrap "db: commit transaction" driverError)
        (eventBody L stats now event name) O s := by
  obtain ⟨kp, hkp⟩ := L.seed_valid
  simp only [handleEvent, hname, hkp]

theorem handleEvent_error {e : GoError} (h : (handleEvent L stats now O s event).1 = .error e) :
    (handleEvent L stats now O s event).2.tables = s.tables := by
  rcases hname : eventName L event with e' | name
  · simp only [handleEvent, hname]
  · rw [handleEvent_eq hname] at h ⊢
    exact withTx_error h

theorem handleEvent_logged (hname : eventName L event = .ok name) {kind : EventKind}
    (hkind : eventKind name = some kind) (h : (handleEvent L stats now O s event).1 = .ok ()) :
    (handleEvent L stats now O s event).2.tables.logged event.id = true := by
  rw [handleEvent_eq hname] at h ⊢
  obtain ⟨c, hc, -, hr⟩ := withTx_ok h
  have := eventBody_logged (L := L) hkind (congrArg Prod.fst hc)
  rw [hr]
  rwa [hc] at this

theorem handleEvent_unknown (hname : eventName L event = .ok name) (hkind : eventKind name = none) :
    (handleEvent L stats now O s event).2.tables = s.tables := by
  rcases h : (handleEvent L stats now O s event).1 with e | ⟨⟩
  · exact handleEvent_error h
  · rw [handleEvent_eq hname] at h ⊢
    obtain ⟨c, hc, -, hr⟩ := withTx_ok h
    have hwork := congrArg (fun r => r.2.work) hc
    simp only [eventBody, hkind, pure_run] at hwork
    rw [hr]
    exact hwork.symm

end Logged

end TrusTrove
