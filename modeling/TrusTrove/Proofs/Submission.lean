import TrusTrove.Submission
import TrusTrove.Proofs.RpcRetry

/-!
# A submission that was accepted and is reported as rejected

`submitAndConfirm` reports a rejection when the last answer of the call says `ERROR`. Of an envelope
the RPC has not accepted that is the truth; of one it has, it is what the RPC says once a ledger has
applied it. So the report is wrong exactly when the call goes on after an attempt the RPC accepted
and an attempt after the ledger is answered (`submission_honest_iff`).
-/

namespace TrusTrove

/-- The envelope after these attempts. -/
def stateAfter : EnvelopeState → List SendAttempt → EnvelopeState
  | s, [] => s
  | s, a :: rest => stateAfter (a.after s) rest

/-- The phase is the report of a rejection. -/
def CreatePhase.Rejected (phase : CreatePhase) : Prop :=
  ∃ error, phase = .answered (httpError ("transaction submission rejected: " ++ error) 500)

/-- If the submission is reported as rejected, no request the call made was accepted. -/
def SubmissionHonest (hash badSeq invoiceID : String) (attempts : List SendAttempt) : Prop :=
  ∀ phase, submitAndConfirm hash badSeq invoiceID attempts = some phase → phase.Rejected →
    stateAfter .fresh (attempts.take (sendTransaction hash badSeq attempts).requests.length)
      = .fresh

/-- The attempt of this number makes its request. -/
def SendAttempt.Starts (attempt : ℤ) (a : SendAttempt) : Prop :=
  (0 < attempt → a.sleep = none) ∧ a.newRequest = none

/-- The loop goes on after it. -/
def SendTransport.Retried : SendTransport → Prop
  | .unreached _ ctxErr | .lost _ ctxErr => ctxErr = none
  | .gateway _ statusCode _ _ => statusCode = 429 ∨ 500 ≤ statusCode ∧ statusCode ≤ 599
  | .answered => False

/-- From this attempt on, all attempts are retried until one is answered that is made after a ledger
has applied the envelope. -/
def ResendsApplied (maxRetries : ℤ) : ℤ → EnvelopeState → List SendAttempt → Prop
  | _, _, [] => False
  | attempt, s, a :: rest => attempt ≤ maxRetries ∧ a.Starts attempt
    ∧ (a.transport = .answered ∧ s.close a.closed = .applied
      ∨ a.transport.Retried ∧ ResendsApplied maxRetries (attempt + 1) (a.after s) rest)

section Honest

variable {hash badSeq : String}

theorem failed_ne_rejected (error : String) :
    "failed to send transaction" ≠ "transaction submission rejected: " ++ error := by
  intro h
  have := congrArg (fun s : String => s.toList.head?) h
  simp at this

theorem rejected_iff (invoiceID : String) (r : RpcReturn SubmitResp) :
    (submitCreate invoiceID r.sendAnswer).Rejected
      ↔ r.err = none ∧ ∃ resp, r.decoded = some resp ∧ resp.status = "ERROR" := by
  have hlost : ¬ (submitCreate invoiceID .lost).Rejected := by
    rintro ⟨error, h⟩
    simp only [submitCreate, httpError, CreatePhase.answered.injEq, Response.mk.injEq,
      ResponseBody.text.injEq, true_and] at h
    exact failed_ne_rejected error h
  cases herr : r.err with
  | some err => simpa [RpcReturn.sendAnswer, herr] using hlost
  | none =>
    cases hdecoded : r.decoded with
    | none => simpa [RpcReturn.sendAnswer, herr, hdecoded] using hlost
    | some resp =>
      by_cases hstatus : resp.status = "ERROR"
      · simp only [RpcReturn.sendAnswer, herr, hdecoded, submitCreate, hstatus, if_true]
        exact iff_of_true ⟨resp.error, rfl⟩ ⟨trivial, resp, rfl, hstatus⟩
      · simp [RpcReturn.sendAnswer, herr, hdecoded, hstatus, submitCreate, CreatePhase.Rejected]

/-- The call ends with the answer `ERROR`. -/
def EndsRejected (call : RpcCall SubmitResp) : Prop :=
  ∃ r resp, call.returned = some r ∧ r.err = none ∧ r.decoded = some resp ∧ resp.status = "ERROR"

theorem retryable_answer_iff (a : SendAttempt) (s : EnvelopeState) :
    (a.answer hash badSeq s).Retryable ↔ a.transport.Retried := by
  unfold SendAttempt.answer SendTransport.Retried
  cases a.transport <;> simp [RpcAnswer.Retryable]

theorem stopped_iff (a : SendAttempt) (answer : RpcAnswer SubmitResp) (attempt : ℤ) :
    RpcAttempt.stopped "sendTransaction" attempt ⟨a.sleep, a.newRequest, answer⟩ = none
      ↔ a.Starts attempt := by
  unfold RpcAttempt.stopped SendAttempt.Starts
  by_cases hpos : 0 < attempt
  · cases a.sleep <;> cases a.newRequest <;> simp [hpos]
  · cases a.newRequest <;> simp [hpos]

/-- An answer that ends the call with `ERROR` is the RPC's. -/
theorem readAnswer_error_iff {a : SendAttempt} {s : EnvelopeState}
    {r : RpcReturn SubmitResp}
    (h : readAnswer "sendTransaction" (a.answer hash badSeq s) = .inl r) :
    (r.err = none ∧ ∃ resp, r.decoded = some resp ∧ resp.status = "ERROR")
      ∧ a.after s ≠ .fresh ↔ a.transport = .answered ∧ s.close a.closed = .applied := by
  unfold SendAttempt.answer SendAttempt.after at *
  cases htransport : a.transport with
  | answered =>
    simp only [htransport, readAnswer, show isRetryableStatus 200 = false by decide] at h
    cases hs : s.close a.closed with
    | fresh =>
      cases hv : a.verdict with
      | accept =>
        obtain rfl : _ = r := by simpa [hs, hv, EnvelopeState.answer] using h
        simp
      | refuse status error => simp [SendTransport.reached, EnvelopeState.send]
      | fault e => simp [SendTransport.reached, EnvelopeState.send]
    | pending =>
      obtain rfl : _ = r := by simpa [hs, EnvelopeState.answer] using h
      simp
    | applied =>
      obtain rfl : _ = r := by simpa [hs, EnvelopeState.answer] using h
      simp [SendTransport.reached, EnvelopeState.send]
  | _ =>
    simp only [htransport] at h
    have hnil := readAnswer_inl h
    simp only [RpcAnswer.Delivers, reduceCtorEq, false_and, and_false, exists_false, iff_false]
      at hnil
    simp [hnil]

/-- The call ends with `ERROR` about an envelope the RPC had accepted. -/
theorem callFrom_misreports_iff {maxRetries : ℤ} (hhi : maxRetries < 2 ^ 63 - 1) :
    ∀ (attempts : List SendAttempt) (attempt : ℤ) (lastErr : Option GoError) (s : EnvelopeState),
      0 ≤ attempt → (lastErr = none → attempt ≤ maxRetries) →
      let call := callFrom { rpcTuning with maxRetries } "sendTransaction" attempt lastErr
        (rpcAttempts hash badSeq s attempts)
      EndsRejected call ∧ stateAfter s (attempts.take call.requests.length) ≠ .fresh
        ↔ ResendsApplied maxRetries attempt s attempts
  | [], attempt, lastErr, s, h0, hlast => by
    simp only [rpcAttempts, callFrom, ResendsApplied, iff_false, EndsRejected]
    rintro ⟨⟨r, resp, hr, -, hresp, -⟩, -⟩
    split_ifs at hr
    obtain rfl : _ = r := Option.some.inj hr
    cases hresp
  | a :: rest, attempt, lastErr, s, h0, hlast => by
    simp only [rpcAttempts, ResendsApplied]
    by_cases hmore : attempt ≤ maxRetries
    · cases hstop : RpcAttempt.stopped "sendTransaction" attempt
          ⟨a.sleep, a.newRequest, a.answer hash badSeq s⟩ with
      | some err =>
        have hstarts : ¬ a.Starts attempt := by
          have hiff := stopped_iff a (a.answer hash badSeq s) attempt
          simpa [hstop] using hiff
        rw [callFrom_stopped hmore hstop]
        simp [EndsRejected, hstarts]
      | none =>
        have hstarts : a.Starts attempt := (stopped_iff a _ attempt).1 hstop
        cases hread : readAnswer "sendTransaction" (a.answer hash badSeq s) with
        | inl r =>
          have hretried : ¬ a.transport.Retried := by
            intro hretried
            have hretry : (a.answer hash badSeq s).Retryable :=
              (retryable_answer_iff a s).2 hretried
            obtain ⟨err, herr⟩ : ∃ err, readAnswer "sendTransaction" (a.answer hash badSeq s)
                = .inr err := (readAnswer_inr_iff _).2 hretry
            simp [hread] at herr
          have herror := readAnswer_error_iff hread
          rw [callFrom_returned hmore hstop hread]
          simpa [EndsRejected, hmore, hstarts, hretried, stateAfter, and_assoc] using herror
        | inr err =>
          have hretried : a.transport.Retried :=
            (retryable_answer_iff a s).1 ((readAnswer_inr_iff _).1 ⟨err, hread⟩)
          have hanswered : a.transport ≠ .answered := by
            intro h
            simp [h, SendTransport.Retried] at hretried
          have ih := callFrom_misreports_iff hhi rest (attempt + 1) (some err) (a.after s)
            (by omega) (by simp)
          rw [callFrom_retried hhi h0 hmore hstop hread]
          simpa [EndsRejected, hmore, hstarts, hretried, hanswered, stateAfter] using ih
    · rw [callFrom_spent hmore]
      simp [hmore, EndsRejected]

theorem submitAndConfirm_rejected_iff (invoiceID : String) (attempts : List SendAttempt) :
    (∃ phase, submitAndConfirm hash badSeq invoiceID attempts = some phase ∧ phase.Rejected)
      ↔ EndsRejected (sendTransaction hash badSeq attempts) := by
  unfold submitAndConfirm EndsRejected
  cases hr : (sendTransaction hash badSeq attempts).returned with
  | none => simp
  | some r => simp [rejected_iff]

end Honest

/-- The report of a rejection is true of every call but those in which an attempt is answered that
is made after a ledger has applied the envelope of an earlier one. -/
theorem submission_honest_iff (hash badSeq invoiceID : String) (attempts : List SendAttempt) :
    SubmissionHonest hash badSeq invoiceID attempts
      ↔ ¬ ResendsApplied rpcTuning.maxRetries 0 .fresh attempts := by
  have hcall : EndsRejected (sendTransaction hash badSeq attempts)
      ∧ stateAfter .fresh
        (attempts.take (sendTransaction hash badSeq attempts).requests.length) ≠ .fresh
      ↔ ResendsApplied rpcTuning.maxRetries 0 .fresh attempts :=
    callFrom_misreports_iff (by decide) attempts 0 none .fresh le_rfl (by decide)
  rw [← hcall, ← submitAndConfirm_rejected_iff invoiceID]
  unfold SubmissionHonest
  constructor
  · rintro h ⟨⟨phase, hphase, hrejected⟩, hne⟩
    exact hne (h phase hphase hrejected)
  · intro h phase hphase hrejected
    by_contra hne
    exact h ⟨⟨phase, hphase, hrejected⟩, hne⟩

/-- The RPC accepts the envelope, a gateway answers 503 in its place, and a ledger applies the
envelope before the retry. -/
def appliedResend : List SendAttempt :=
  [⟨none, none, false, .accept,
      .gateway true 503 "upstream timed out" (.new "invalid character 'u'")⟩,
    ⟨none, none, true, .accept, .answered⟩]

/-- An invoice is created on the chain and its request told that it was rejected. -/
theorem applied_reported_rejected :
    submitAndConfirm "3389e9" "txBAD_SEQ" "ab12" appliedResend
        = some (.answered (httpError "transaction submission rejected: txBAD_SEQ" 500))
      ∧ ¬ SubmissionHonest "3389e9" "txBAD_SEQ" "ab12" appliedResend := by
  have hrejected : submitAndConfirm "3389e9" "txBAD_SEQ" "ab12" appliedResend
      = some (.answered (httpError "transaction submission rejected: txBAD_SEQ" 500)) := by
    decide +kernel
  refine ⟨hrejected, fun h => ?_⟩
  have hfresh := h _ hrejected ⟨"txBAD_SEQ", rfl⟩
  revert hfresh
  decide +kernel

end TrusTrove
