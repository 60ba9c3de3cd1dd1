import TrusTrove.WorkerLoop
import TrusTrove.Proofs.RetryBudget

/-!
# What stopping a worker costs

An attempt whose request was cut off is recorded like one the endpoint refused, so it is charged to
the delivery. A cancellation is free of this when no request is under way and the send loop is not
waiting for a slot: the loop then stops at its next look at the context, and every outcome still to
be recorded is one the endpoint decided. In a run whose cancellations are all of that kind a row's
`attempts` counts its genuine failures (`stopping_costs_nothing`).
-/

namespace TrusTrove

open Sql

variable {cfg : WorkerConfig} {k : String × String}

/-- The snapshots a worker has in hand. -/
def WorkerProcess.batch (w : WorkerProcess) : List WebhookDelivery :=
  w.todo ++ w.sending.toList ++ w.running.map (·.delivery)

/-- No request is under way, and none is about to be made. -/
def WorkerProcess.Quiet (w : WorkerProcess) : Prop :=
  w.sending = none ∧ ∀ x ∈ w.running, x.answer ≠ none

/-- Every cancellation of the run comes at a quiet moment. -/
def CancelledQuietly (cfg : WorkerConfig) : List LoopStep → WorkerProcess → Prop
  | [], _ => True
  | step :: steps, w => (step = .cancel → w.Quiet) ∧ CancelledQuietly cfg steps (step.apply cfg w)

section Invariant

/-- How the row stands after the outcomes written to it. -/
def Charged (k : String × String) (m : ℕ) (answers : List Answer) (batch : List WebhookDelivery)
    (r : WebhookDelivery) : Prop :=
  match r.status with
  | .pending => (∀ a ∈ answers, a.result.acknowledged = false) ∧ genuineFailures answers < m
      ∧ r.attempts = genuineFailures answers
      ∧ ∀ d ∈ batch, d.key = k → d.attempts = r.attempts ∧ d.maxAttempts = m
  | .delivered => (∃ a ∈ answers, a.result.acknowledged = true) ∧ ∀ d ∈ batch, d.key ≠ k
  | .deadLetter => (∀ a ∈ answers, a.result.acknowledged = false) ∧ genuineFailures answers = m
      ∧ ∀ d ∈ batch, d.key ≠ k

/-- The invariant of runs whose cancellations are quiet. -/
structure Counted (k : String × String) (m : ℕ) (answers : List Answer) (w : WorkerProcess) :
    Prop where
  nodup : (w.batch.map (·.key)).Nodup
  clean : ∀ x ∈ w.running, ∀ a, x.answer = some a → a.aborted = false
  quiet : w.cancelled = true → w.Quiet
  row : ∃ r, w.deliveries.find? k = some r ∧ r.maxAttempts = m ∧ Charged k m answers w.batch r

variable {m : ℕ} {answers : List Answer} {w w' : WorkerProcess}
  {batch batch' : List WebhookDelivery}
  {r : WebhookDelivery}

theorem Charged.sub (h : Charged k m answers batch r) (hsub : batch' ⊆ batch) :
    Charged k m answers batch' r := by
  unfold Charged at h ⊢
  split at h
  · exact ⟨h.1, h.2.1, h.2.2.1, fun d hd => h.2.2.2 d (hsub hd)⟩
  · exact ⟨h.1, fun d hd => h.2 d (hsub hd)⟩
  · exact ⟨h.1, h.2.1, fun d hd => h.2.2 d (hsub hd)⟩

theorem Charged.pending (h : Charged k m answers batch r) {d : WebhookDelivery} (hd : d ∈ batch)
    (hk : d.key = k) : r.status = .pending := by
  unfold Charged at h
  split at h
  · assumption
  · exact absurd hk (h.2 d hd)
  · exact absurd hk (h.2.2 d hd)

theorem nodup_of_subperm (h : batch'.Subperm batch) (hn : (batch.map (·.key)).Nodup) :
    (batch'.map (·.key)).Nodup := by
  obtain ⟨l, hperm, hsub⟩ := h
  exact (hperm.map _).nodup_iff.1 (hn.sublist (hsub.map _))

/-- A step that writes nothing and takes up nothing new. -/
theorem Counted.rebatch (h : Counted k m answers w) (hrows : w'.deliveries = w.deliveries)
    (hbatch : w'.batch.Subperm w.batch)
    (hclean : ∀ x ∈ w'.running, ∀ a, x.answer = some a → a.aborted = false)
    (hquiet : w'.cancelled = true → w'.Quiet) : Counted k m answers w' := by
  obtain ⟨r, hr, hm, hcharged⟩ := h.row
  exact ⟨nodup_of_subperm hbatch h.nodup, hclean, hquiet, r, by rw [hrows, hr], hm,
    hcharged.sub hbatch.subset⟩

theorem Counted.claim (h : Counted k m answers w) (subs : List WebhookSubscription) (now : ℤ)
    (locked : WebhookDelivery → Bool) (lost : Bool) :
    Counted k m answers ((LoopStep.claim subs now locked lost).apply cfg w) := by
  simp only [LoopStep.apply]
  by_cases hbusy : (!w.idle || w.cancelled) = true
  · rw [if_pos hbusy]
    exact h
  rw [if_neg hbusy]
  simp only [Bool.or_eq_true, Bool.not_eq_true', not_or, Bool.not_eq_false, Bool.not_eq_true,
    WorkerProcess.idle, Bool.and_eq_true, List.isEmpty_iff, Option.isNone_iff_eq_none] at hbusy
  obtain ⟨⟨⟨-, hsending⟩, hrunning⟩, hcancelled⟩ := hbusy
  rcases hclaim : claimPendingDeliveries subs cfg.batchSize cfg.lockDuration now locked w.deliveries
    with e | ⟨claimed, t⟩
  · exact h
  obtain ⟨u, hclaims⟩ : ∃ u, Claims subs now u w.deliveries t claimed :=
    ⟨_, (claimPendingDeliveries_ok hclaim).1⟩
  have hbatch : ({ w with deliveries := t, todo := if lost then [] else claimed } :
      WorkerProcess).batch.Subperm claimed := by
    simp only [WorkerProcess.batch, hsending, hrunning, Option.toList_none, List.map_nil,
      List.append_nil]
    split_ifs
    · exact List.nil_subperm
    · exact List.Subperm.refl _
  refine ⟨nodup_of_subperm hbatch hclaims.nodup, by simp [hrunning], by simp [hcancelled], ?_⟩
  obtain ⟨r, hr, hm, hcharged⟩ := h.row
  have htaken : ∀ d ∈ claimed, d.key = k →
      r.status = .pending ∧ d.attempts = r.attempts ∧ d.maxAttempts = m := by
    intro d hd hk
    obtain ⟨r', hr', hcan, hd'⟩ := hclaims.taken d hd
    rw [hk, hr, Option.some.injEq] at hr'
    subst hr'
    simp only [WebhookDelivery.claimable, Bool.and_eq_true, decide_eq_true_eq] at hcan
    rw [hd']
    exact ⟨hcan.1.1.1, rfl, hm⟩
  have hnew : Charged k m answers claimed r := by
    unfold Charged at hcharged ⊢
    split at hcharged
    · exact ⟨hcharged.1, hcharged.2.1, hcharged.2.2.1, fun d hd hk => (htaken d hd hk).2⟩
    · rename_i hs
      exact ⟨hcharged.1, fun d hd hk => by simpa [hs] using (htaken d hd hk).1⟩
    · rename_i hs
      exact ⟨hcharged.1, hcharged.2.1, fun d hd hk => by simpa [hs] using (htaken d hd hk).1⟩
  by_cases hk : k ∈ claimed.map (·.key)
  · exact ⟨r.lock u, by rw [hclaims.found, hr, Option.map_some, if_pos hk], hm,
      hnew.sub hbatch.subset⟩
  · exact ⟨r, by rw [hclaims.not_claimed hk, hr], hm, hnew.sub hbatch.subset⟩

theorem Counted.reach (h : Counted k m answers w) :
    Counted k m answers (LoopStep.reach.apply cfg w) := by
  simp only [LoopStep.apply]
  split
  · rename_i d rest hsending htodo
    split_ifs with hcancelled
    · refine h.rebatch rfl ?_ h.clean h.quiet
      simp only [WorkerProcess.batch, htodo]
      exact ((List.nil_sublist _).append_right _ |>.append_right _).subperm
    · refine h.rebatch rfl ?_ h.clean fun hc => absurd hc hcancelled
      simp only [WorkerProcess.batch, htodo, hsending, Option.toList_some, Option.toList_none,
        List.append_nil]
      exact ((List.perm_append_singleton d rest).append_right _).subperm
  · exact h

theorem Counted.send (h : Counted k m answers w) :
    Counted k m answers (LoopStep.send.apply cfg w) := by
  simp only [LoopStep.apply]
  split
  · rename_i d hsending
    split_ifs
    · refine h.rebatch rfl ?_ (fun x hx a ha => ?_) fun hc => ?_
      · simp only [WorkerProcess.batch, hsending, Option.toList_some, Option.toList_none,
          List.append_nil, List.map_append, List.map_singleton, List.append_assoc]
        exact (List.perm_append_comm.append_left _).subperm
      · rcases List.mem_append.1 hx with hold | hnew
        · exact h.clean x hold a ha
        · rw [List.mem_singleton.1 hnew] at ha
          cases ha
      · have := (h.quiet hc).1
        rw [hsending] at this
        cases this
    · exact h
  · exact h

theorem Counted.answer (h : Counted k m answers w) (i : ℕ) (result : AttemptResult) (now : ℤ) :
    Counted k m answers ((LoopStep.answer i result now).apply cfg w) := by
  simp only [LoopStep.apply]
  split
  · rename_i d hi
    have hopen : w.cancelled = false := by
      by_contra hc
      exact (h.quiet (by simpa using hc)).2 _ (List.mem_of_getElem? hi) rfl
    refine h.rebatch rfl ?_ (fun x hx a ha => ?_) fun hc => by simp [hopen] at hc
    · have hsame : (w.running.map (·.delivery)).set i d = w.running.map (·.delivery) := by
        refine List.ext_getElem? fun j => ?_
        rw [List.getElem?_set, List.getElem?_map]
        split_ifs with hij hlt
        · rw [← hij, hi]
          rfl
        · rw [← hij, List.getElem?_eq_none (by simpa using hlt)]
          rfl
        · rfl
      simp only [WorkerProcess.batch, List.map_set, hsame]
      exact List.Subperm.refl _
    · rcases List.mem_or_eq_of_mem_set hx with hold | rfl
      · exact h.clean x hold a ha
      · simp only [answerFor, hopen, Bool.false_and, Bool.false_eq_true, if_false,
          Option.some.injEq] at ha
        rw [← ha]
  · exact h

theorem genuineFailures_concat (answers : List Answer) (a : Answer) (h : a.aborted = false) :
    genuineFailures (answers ++ [a])
      = genuineFailures answers + if a.result.acknowledged then 0 else 1 := by
  unfold genuineFailures
  rw [List.countP_append, List.countP_singleton, h]
  cases a.result.acknowledged <;> rfl

/-- The outcome of a request the endpoint decided. -/
theorem Charged.recorded (h : Charged k m answers batch r) (hm : r.maxAttempts = m)
    {d : WebhookDelivery} (hd : d ∈ batch) (hk : d.key = k) {a : Answer}
    (hclean : a.aborted = false)
    (hgone : ∀ d ∈ batch', d.key ≠ k) :
    Charged k m (answers ++ [a]) batch' (attemptDelivery d a.result a.answeredAt r) := by
  have hpending := h.pending hd hk
  unfold Charged at h
  rw [hpending] at h
  obtain ⟨hfail, hlt, hatt, hbatch⟩ := h
  obtain ⟨hda, hdm⟩ := hbatch d hd hk
  have hstatus := attemptDelivery_status (r := r) d a.result a.answeredAt
  have hgenuine := genuineFailures_concat answers a hclean
  unfold Charged
  rw [hstatus]
  cases hack : a.result.acknowledged with
  | true =>
    rw [if_pos rfl]
    exact ⟨⟨a, by simp, hack⟩, hgone⟩
  | false =>
    rw [hack, if_neg Bool.false_ne_true] at hgenuine
    have hall : ∀ a' ∈ answers ++ [a], a'.result.acknowledged = false := by
      intro a' ha'
      rcases List.mem_append.1 ha' with hold | hnew
      · exact hfail a' hold
      · rw [List.mem_singleton.1 hnew]
        exact hack
    rw [if_neg Bool.false_ne_true]
    by_cases hlast : m ≤ genuineFailures answers + 1
    · rw [if_pos (.inl (by omega))]
      exact ⟨hall, by omega, hgone⟩
    · rw [if_neg (by omega)]
      have hcount := (attemptDelivery_retried (d := d) (r := r) a.answeredAt hack (by omega)
        (by omega)).1
      exact ⟨hall, by omega, by rw [hcount, hatt, hgenuine], fun d' hd' hk' =>
        absurd hk' (hgone d' hd')⟩

theorem batch_eraseIdx {i : ℕ} {x : Running} (hi : w.running[i]? = some x)
    (deliveries : Deliveries) :
    (x.delivery :: ({ w with deliveries := deliveries, running := w.running.eraseIdx i } :
      WorkerProcess).batch).Perm w.batch := by
  obtain ⟨hlt, rfl⟩ := List.getElem?_eq_some_iff.1 hi
  simp only [WorkerProcess.batch]
  refine List.perm_middle.symm.trans (List.Perm.append_left _ ?_)
  exact (List.getElem_cons_eraseIdx_perm hlt).map _

theorem Counted.record (h : Counted k m answers w) (i : ℕ) (written : Bool) :
    Counted k m (answers ++ ((LoopStep.record i written).recorded k w).toList)
      ((LoopStep.record i written).apply cfg w) := by
  rcases hi : w.running[i]? with _ | ⟨d, _ | a⟩
  · cases written <;> simpa [LoopStep.apply, LoopStep.recorded, hi] using h
  · cases written <;> simpa [LoopStep.apply, LoopStep.recorded, hi] using h
  have hx := List.mem_of_getElem? hi
  have haborted : a.aborted = false := h.clean _ hx a rfl
  have hd : d ∈ w.batch := List.mem_append_right _ (List.mem_map_of_mem hx)
  have hperm := fun t => batch_eraseIdx hi t
  have hclean : ∀ x ∈ w.running.eraseIdx i, ∀ a, x.answer = some a → a.aborted = false :=
    fun x hx => h.clean x (List.mem_of_mem_eraseIdx hx)
  have hquiet : w.cancelled = true →
      w.sending = none ∧ ∀ x ∈ w.running.eraseIdx i, x.answer ≠ none :=
    fun hc => ⟨(h.quiet hc).1, fun x hx => (h.quiet hc).2 x (List.mem_of_mem_eraseIdx hx)⟩
  cases written with
  | false =>
    simp only [LoopStep.recorded, Option.toList_none, List.append_nil, LoopStep.apply, hi,
      Bool.false_eq_true, if_false]
    exact h.rebatch rfl ((List.sublist_cons_self ..).subperm.trans (hperm _).subperm) hclean hquiet
  | true =>
    have hnodup := fun t => ((hperm t).map (·.key)).nodup_iff.2 h.nodup
    obtain ⟨r, hr, hm, hcharged⟩ := h.row
    simp only [LoopStep.recorded, LoopStep.apply, hi, if_true]
    by_cases hk : d.key = k
    · rw [if_pos hk, Option.toList_some]
      refine ⟨(List.nodup_cons.1 (hnodup _)).2, hclean, hquiet,
        attemptDelivery d a.result a.answeredAt r, ?_, ?_, ?_⟩
      · rw [Table.find?_update, if_pos hk.symm, hk, hr]
        rfl
      · rw [attemptDelivery_maxAttempts, hm]
      · refine hcharged.recorded hm hd hk haborted fun d' hd' hk' => ?_
        exact (List.nodup_cons.1 (hnodup _)).1 (List.mem_map.2 ⟨d', hd', hk'.trans hk.symm⟩)
    · rw [if_neg hk, Option.toList_none, List.append_nil]
      refine ⟨(List.nodup_cons.1 (hnodup _)).2, hclean, hquiet, r, ?_, hm, ?_⟩
      · rw [Table.find?_update, if_neg (Ne.symm hk), hr]
      · exact hcharged.sub fun d' hd' => (hperm _).subset (List.mem_cons_of_mem _ hd')

theorem Counted.step (h : Counted k m answers w) (step : LoopStep)
    (hcalm : step = .cancel → w.Quiet) :
    Counted k m (answers ++ (step.recorded k w).toList) (step.apply cfg w) := by
  cases step with
  | record i written => exact h.record i written
  | claim subs now locked lost =>
    simpa only [LoopStep.recorded, Option.toList_none, List.append_nil] using
      h.claim subs now locked lost
  | reach => simpa only [LoopStep.recorded, Option.toList_none, List.append_nil] using h.reach
  | send => simpa only [LoopStep.recorded, Option.toList_none, List.append_nil] using h.send
  | answer i result now =>
    simpa only [LoopStep.recorded, Option.toList_none, List.append_nil] using h.answer i result now
  | cancel =>
    simp only [LoopStep.recorded, Option.toList_none, List.append_nil]
    exact h.rebatch rfl (List.Subperm.refl _) h.clean fun _ => hcalm rfl
  | restart =>
    simp only [LoopStep.recorded, Option.toList_none, List.append_nil, LoopStep.apply]
    split_ifs
    · exact h.rebatch rfl (List.Subperm.refl _) h.clean fun hc => by simp at hc
    · exact h
  | kill =>
    simp only [LoopStep.recorded, Option.toList_none, List.append_nil]
    refine h.rebatch rfl ?_ (fun x hx => by cases hx) fun hc => by cases hc
    exact List.nil_subperm

theorem loopRun_counted : ∀ (steps : List LoopStep) (w : WorkerProcess) (answers : List Answer),
    Counted k m answers w → CancelledQuietly cfg steps w →
    Counted k m (answers ++ recordedAnswers cfg k steps w) (loopRun cfg steps w)
  | [], w, answers, h, _ => by simpa [recordedAnswers, loopRun] using h
  | step :: steps, w, answers, h, hcalm => by
    have hrun := loopRun_counted steps (step.apply cfg w) _ (h.step step hcalm.1) hcalm.2
    rwa [List.append_assoc] at hrun

end Invariant

/-- A pending row of an active subscription is claimable from some time on. -/
theorem claimable_again {r : WebhookDelivery} (hr : r.status = .pending)
    {subs : List WebhookSubscription}
    (hsub : ∃ sub ∈ subs, sub.id = r.subscriptionID ∧ sub.active = true) :
    ∃ t₀, ∀ t, t₀ ≤ t → r.claimable subs t = true := by
  refine ⟨max r.nextAttemptAt (r.lockedUntil.getD 0 + 1), fun t ht => ?_⟩
  have hlock : r.lockedUntil.all (· < t) = true := by
    rcases hu : r.lockedUntil with _ | u
    · rfl
    · rw [hu, Option.getD_some] at ht
      simp only [Option.all_some, decide_eq_true_eq]
      omega
  have hactive : (subs.any fun sub => sub.id = r.subscriptionID && sub.active) = true := by
    obtain ⟨sub, hmem, hid, hact⟩ := hsub
    exact List.any_eq_true.2 ⟨sub, hmem, by simp [hid, hact]⟩
  simp only [WebhookDelivery.claimable, hr, hlock, hactive, decide_true, Bool.true_and,
    Bool.and_true, decide_eq_true_eq]
  omega

/-- In every run whose cancellations all come at a quiet moment (claims, requests, recorded and lost
outcomes, stops, new workers and killed ones in any order), a delivery is delivered if it was
acknowledged, dead-lettered if its genuine failures used up its attempts, and otherwise pending with
exactly its genuine failures counted, and claimable again. -/
theorem stopping_costs_nothing {m : ℕ} (hm : 1 ≤ m) {w : WorkerProcess} (hidle : w.idle = true)
    {r : WebhookDelivery} (hr : w.deliveries.find? k = some r) (hpending : r.status = .pending)
    (hnew : r.attempts = 0) (hmax : r.maxAttempts = m) {steps : List LoopStep}
    (hcalm : CancelledQuietly cfg steps w) :
    let answers := recordedAnswers cfg k steps w
    ∃ r', (loopRun cfg steps w).deliveries.find? k = some r' ∧
      ((∃ a ∈ answers, a.result.acknowledged = true) ∧ r'.status = .delivered
        ∨ (∀ a ∈ answers, a.result.acknowledged = false) ∧ genuineFailures answers = m
          ∧ r'.status = .deadLetter
        ∨ (∀ a ∈ answers, a.result.acknowledged = false) ∧ genuineFailures answers < m
          ∧ r'.status = .pending ∧ r'.attempts = genuineFailures answers
          ∧ ∀ subs : List WebhookSubscription,
            (∃ sub ∈ subs, sub.id = r'.subscriptionID ∧ sub.active = true) →
            ∃ t₀, ∀ t, t₀ ≤ t → r'.claimable subs t = true) := by
  intro answers
  simp only [WorkerProcess.idle, Bool.and_eq_true, List.isEmpty_iff,
    Option.isNone_iff_eq_none] at hidle
  obtain ⟨⟨htodo, hsending⟩, hrunning⟩ := hidle
  have hbatch : w.batch = [] := by simp [WorkerProcess.batch, htodo, hsending, hrunning]
  have hstart : Counted k m [] w := by
    refine ⟨by simp [hbatch], by simp [hrunning], fun _ => ⟨hsending, by simp [hrunning]⟩, r, hr,
      hmax, ?_⟩
    unfold Charged
    rw [hpending, hbatch]
    exact ⟨by simp, hm, hnew, by simp⟩
  have hrun := loopRun_counted steps w [] hstart hcalm
  rw [List.nil_append] at hrun
  obtain ⟨r', hr', -, hcharged⟩ := hrun.row
  refine ⟨r', hr', ?_⟩
  unfold Charged at hcharged
  split at hcharged
  · rename_i hs
    exact .inr (.inr ⟨hcharged.1, hcharged.2.1, hs, hcharged.2.2.1, fun subs => claimable_again hs⟩)
  · rename_i hs
    exact .inl ⟨hcharged.1, hs⟩
  · rename_i hs
    exact .inr (.inl ⟨hcharged.1, hcharged.2.1, hs⟩)

/-- A worker that is started, takes up the delivery and is stopped while its endpoint is about to
answer with a `200`, after which a new one is started. -/
def stopped (now : ℤ) : List LoopStep :=
  [.claim [⟨"sub-1", ["pool.deposit"], true⟩] now (fun _ => false) false, .reach, .send, .cancel,
    .answer 0 (.response 200 "ok") (now + 10 ^ 9), .record 0 true, .restart]

def fiveStops : List LoopStep :=
  stopped 0 ++ stopped (30 * 10 ^ 9) ++ stopped (80 * 10 ^ 9) ++ stopped (200 * 10 ^ 9)
    ++ stopped (400 * 10 ^ 9)

def oneQueued : WorkerProcess := ⟨Table.empty.insertNew enqueuedDelivery, false, [], none, []⟩

/-- One stop costs the delivery an attempt, and after five it is dead-lettered, with no failure of
its endpoint. -/
theorem stopping_dead_letters :
    (((loopRun (newDeliveryWorker defaultWorkerConfig) (stopped 0) oneQueued).deliveries.find?
        ("sub-1", "e1")).map fun r => (r.status, r.attempts)) = some (.pending, 1)
      ∧ (((loopRun (newDeliveryWorker defaultWorkerConfig) fiveStops oneQueued).deliveries.find?
        ("sub-1", "e1")).map fun r => (r.status, r.maxAttempts)) = some (.deadLetter, 5)
      ∧ genuineFailures (recordedAnswers (newDeliveryWorker defaultWorkerConfig) ("sub-1", "e1")
        fiveStops oneQueued) = 0 := by
  refine ⟨by decide +kernel, by decide +kernel, by decide +kernel⟩

/-- A worker stopped when the endpoint has refused and the outcome is still to be recorded. -/
def stoppedQuietly : List LoopStep :=
  [.claim [⟨"sub-1", ["pool.deposit"], true⟩] 0 (fun _ => false) false, .reach, .send,
    .answer 0 (.response 503 "busy") (10 ^ 9), .cancel, .record 0 true, .restart]

/-- The stop costs nothing: the row is pending with the one genuine failure. -/
theorem stopping_costs_nothing_quietly :
    genuineFailures (recordedAnswers (newDeliveryWorker defaultWorkerConfig) ("sub-1", "e1")
        stoppedQuietly oneQueued) = 1
      ∧ ∃ r, (loopRun
        (newDeliveryWorker defaultWorkerConfig) stoppedQuietly oneQueued).deliveries.find?
          ("sub-1", "e1") = some r ∧ r.status = .pending ∧ r.attempts = 1 := by
  have hcalm :
      CancelledQuietly (newDeliveryWorker defaultWorkerConfig) stoppedQuietly oneQueued := by
    refine ⟨nofun, nofun, nofun, nofun, fun _ => ⟨by decide +kernel, by decide +kernel⟩, nofun,
      nofun,
      trivial⟩
  have hone : genuineFailures (recordedAnswers (newDeliveryWorker defaultWorkerConfig)
      ("sub-1", "e1") stoppedQuietly oneQueued) = 1 := by decide +kernel
  have hnone : ∀ a ∈ recordedAnswers (newDeliveryWorker defaultWorkerConfig) ("sub-1", "e1")
      stoppedQuietly oneQueued, a.result.acknowledged = false := by decide +kernel
  have hqueued : oneQueued.deliveries.find? ("sub-1", "e1") = some enqueuedDelivery := rfl
  refine ⟨hone, ?_⟩
  obtain ⟨r, hr, ⟨⟨a, ha, hack⟩, -⟩ | ⟨-, hm, -⟩ | ⟨-, -, hs, hatt, -⟩⟩ :=
    stopping_costs_nothing (by decide) rfl hqueued rfl rfl rfl hcalm
  · rw [hnone a ha] at hack
    cases hack
  · rw [hone] at hm
    cases hm
  · exact ⟨r, hr, hs, hatt.trans hone⟩

end TrusTrove
