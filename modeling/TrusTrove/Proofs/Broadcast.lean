import TrusTrove.SdkClient

/-!
# A signed transaction is sent again only where the RPC refused to queue it

Of the three parts of `writeContract` only the broadcast sends. Its loop keeps the trace *open*:
nothing has been sent yet, or the last answer refused the same transaction and only timers fired
since. Every send finds the trace open, after a simulation and a signature. Each round of the loop
counts towards the policy's attempts, as far as a JavaScript counter can count.
-/

namespace TrusTrove

open Interaction

variable {Account Tx α : Type}

namespace SdkCall

def IsSend : SdkCall Account Tx → Bool
  | sendTransaction .. => true
  | _ => false

def IsPoll : SdkCall Account Tx → Bool
  | getTransaction .. => true
  | _ => false

def IsWait : SdkCall Account Tx → Bool
  | wait .. => true
  | _ => false

end SdkCall

/-- Nothing was sent, or `tx` was just refused with `TRY_AGAIN_LATER`. -/
def OpenFor (tx : Tx) (before : List (SdkCall Account Tx)) : Prop :=
  (∀ c ∈ before, c.IsSend = false) ∨
    ∃ earlier hash result timers,
      before = earlier ++ .sendTransaction tx (.ok ⟨.tryAgainLater, hash, result⟩) :: timers ∧
        ∀ c ∈ timers, c.IsWait

/-- A simulation succeeded and the wallet signed `tx`. -/
def SignedAs (sdk : StellarSdk Account Tx) (pass : String) (tx : Tx)
    (before : List (SdkCall Account Tx)) : Prop :=
  (∃ unsigned, .simulateTransaction unsigned (.ok .success) ∈ before) ∧
    ∃ xdr network key signed, .signTransaction xdr network pass key (.ok signed) ∈ before ∧
      sdk.fromXDR signed pass = .ok tx

/-- What stands before a call: before a send, its signature and no send it could repeat. -/
def Justified (sdk : StellarSdk Account Tx) (pass : String) (before : List (SdkCall Account Tx))
    (c : SdkCall Account Tx) : Prop :=
  ∀ tx answer, c = .sendTransaction tx answer → OpenFor tx before ∧ SignedAs sdk pass tx before

/-- The attempts a counter can count: a finite bound is below `2 ^ 53`. -/
def Double.Countable : Double → Prop
  | finite q => q < 2 ^ 53
  | _ => True

/-- What a call of `writeContract` has done. -/
structure Broadcasts (sdk : StellarSdk Account Tx) (pass : String) (maxAttempts : Double)
    (run : SdkRun Account Tx String) : Prop where
  justified : Past (Justified sdk pass) run.trace
  silent : maxAttempts = .nan → run.trace.countP SdkCall.IsSend = 0
  bounded : maxAttempts ≠ .nan → maxAttempts.Countable →
    Double.le (.finite (run.trace.countP SdkCall.IsSend)) (Double.max (.finite 1) maxAttempts)
  confirmed : ∀ hash, run.outcome = .resolved hash → ∃ round status,
    .getTransaction round hash (.ok status) ∈ run.trace ∧ status ≠ .notFound ∧ status ≠ .failed
  rounds : ∀ round hash answer, .getTransaction round hash answer ∈ run.trace →
    1 ≤ round ∧ round ≤ 30
  polls : run.trace.countP SdkCall.IsPoll ≤ 3 * 30

section Retry

variable {P : SdkCall Account Tx → Prop} {c : Except Thrown α → SdkCall Account Tx}
  {answer : ℕ → Except Thrown α}

theorem request_ensures {x : Except Thrown α} (h : P (c x)) :
    (request c x).Ensures P fun l a => c (.ok a) ∈ l := by
  refine AsyncRun.ensures_call h fun a ha => ?_
  cases x with
  | error => simp [Except.mapError] at ha
  | ok b =>
    simp only [Except.mapError, Except.ok.injEq] at ha
    simp [ha]

theorem withRetryFrom_ensures (h : ∀ k, P (c (answer k))) (hw : ∀ b k, P (.wait b k)) :
    ∀ left attempt, (withRetryFrom (fun k => request c (answer k)) left attempt).Ensures P
      fun l a => c (.ok a) ∈ l
  | 0, attempt => request_ensures (h attempt)
  | left + 1, attempt => by
    rw [withRetryFrom]
    refine AsyncRun.ensures_recover (request_ensures (h attempt)) fun e => ?_
    split
    · split
      · refine AsyncRun.ensures_bind (Q := fun _ _ => True)
          (AsyncRun.ensures_call (hw _ _) (by simp)) fun l _ _ => ?_
        refine (withRetryFrom_ensures h hw left (attempt + 1)).mono (fun _ h => h) fun l' a ha => ?_
        simp [ha]
      · exact AsyncRun.ensures_throw _
    · exact AsyncRun.ensures_throw _

/-- A retried call makes only its own call and timers, and resolves with one of its answers. -/
theorem withRetry_ensures (h : ∀ k, P (c (answer k))) (hw : ∀ b k, P (.wait b k)) :
    (withRetry c answer).Ensures P fun l a => c (.ok a) ∈ l :=
  withRetryFrom_ensures h hw 2 1

theorem request_count (p : SdkCall Account Tx → Bool) (x : Except Thrown α) :
    (request c x).trace.countP p ≤ 1 := by
  have := List.countP_le_length (p := p) (l := (request c x).trace)
  simpa [request] using this

theorem withRetryFrom_count (p : SdkCall Account Tx → Bool) (hw : ∀ b k, p (.wait b k) = false) :
    ∀ left attempt,
      (withRetryFrom (fun k => request c (answer k)) left attempt).trace.countP p ≤ left + 1
  | 0, attempt => request_count p (answer attempt)
  | left + 1, attempt => by
    rw [withRetryFrom, Nat.add_comm (left + 1) 1]
    refine AsyncRun.countP_recover_le (request_count p (answer attempt)) fun e => ?_
    split
    · split
      · have := AsyncRun.countP_bind_le (r := sleep (.finite 1000) (attempt - 1)) (p := p) (m := 0)
          (f := fun _ => withRetryFrom (fun k => request c (answer k)) left (attempt + 1))
          (by simp [sleep, hw]) fun _ _ => withRetryFrom_count p hw left (attempt + 1)
        simpa using this
      · simp
    · simp

theorem withRetryFrom_settles : ∀ left attempt,
    (withRetryFrom (fun k => request c (answer k)) left attempt).Settles
  | 0, _ => AsyncRun.settles_call _ _
  | left + 1, attempt => by
    rw [withRetryFrom]
    refine AsyncRun.settles_recover (AsyncRun.settles_call _ _) fun e => ?_
    split
    · split
      · exact AsyncRun.settles_bind (AsyncRun.settles_call _ _) fun _ _ =>
          withRetryFrom_settles left (attempt + 1)
      · exact AsyncRun.settles_throw _
    · exact AsyncRun.settles_throw _

theorem withRetry_settles : (withRetry c answer).Settles := withRetryFrom_settles 2 1

end Retry

variable (sdk : StellarSdk Account Tx) (client : BaseContractClient) (ans : Answers Account Tx)
  (pass method : String) (args : List ScVal) (publicKey : String)

section Signing

/-- Up to the signature nothing is sent or polled, and what comes out was simulated and signed. -/
theorem signedTransaction_ensures :
    (signedTransaction sdk client ans pass method args publicKey).Ensures
      (fun c => c.IsSend = false ∧ c.IsPoll = false) fun l tx => SignedAs sdk pass tx l := by
  refine AsyncRun.ensures_bind (withRetry_ensures (by simp [SdkCall.IsSend, SdkCall.IsPoll])
    (by simp [SdkCall.IsSend, SdkCall.IsPoll])) fun l account _ => ?_
  refine AsyncRun.ensures_bind (Q := fun _ _ => True) (AsyncRun.ensures_ofExcept (by simp))
    fun l₁ tx _ => ?_
  refine AsyncRun.ensures_bind (withRetry_ensures (by simp [SdkCall.IsSend, SdkCall.IsPoll])
    (by simp [SdkCall.IsSend, SdkCall.IsPoll])) fun l₂ sim hsim => ?_
  cases sim with
  | error message => exact AsyncRun.ensures_throw _
  | success =>
    refine AsyncRun.ensures_bind (withRetry_ensures (by simp [SdkCall.IsSend, SdkCall.IsPoll])
      (by simp [SdkCall.IsSend, SdkCall.IsPoll])) fun l₃ prepared _ => ?_
    refine AsyncRun.ensures_bind (request_ensures (by simp [SdkCall.IsSend, SdkCall.IsPoll]))
      fun l₄ signed hsigned => ?_
    refine AsyncRun.ensures_ofExcept fun tx' htx' => ?_
    refine ⟨⟨tx, by simp [hsim]⟩, _, _, publicKey, signed,
      by simp only [List.mem_append]; exact .inr (.inr (.inr (.inr (.inl hsigned)))), ?_⟩
    cases hx : sdk.fromXDR signed pass with
    | error => simp [hx, Except.mapError] at htx'
    | ok =>
      simp only [hx, Except.mapError, Except.ok.injEq] at htx'
      rw [htx']

theorem signedTransaction_settles :
    (signedTransaction sdk client ans pass method args publicKey).Settles := by
  refine AsyncRun.settles_bind withRetry_settles fun account _ => ?_
  refine AsyncRun.settles_bind (AsyncRun.settles_ofExcept _) fun tx _ => ?_
  refine AsyncRun.settles_bind withRetry_settles fun sim _ => ?_
  cases sim with
  | error => exact AsyncRun.settles_throw _
  | success =>
    refine AsyncRun.settles_bind withRetry_settles fun prepared _ => ?_
    exact AsyncRun.settles_bind (AsyncRun.settles_call _ _)
      fun signed _ => AsyncRun.settles_ofExcept _

end Signing

section Polling

variable (hash : String)

/-- A poll of some round from `k` to `k + n`, or a timer. -/
def IsRound (hash : String) (k n : ℕ) (c : SdkCall Account Tx) : Prop :=
  c.IsSend = false ∧ ∀ round h answer, c = .getTransaction round h answer →
    h = hash ∧ k ≤ round ∧ round ≤ k + n

theorem isRound_wait (hash : String) (k n : ℕ) (b : Double) (d : ℕ) :
    IsRound hash k n (.wait b d : SdkCall Account Tx) :=
  ⟨rfl, by simp⟩

theorem pollFrom_ensures : ∀ left attempts,
    (pollFrom ans hash left attempts).Ensures (IsRound hash attempts left) fun l status =>
      ∃ round, .getTransaction round hash (.ok status) ∈ l
  | 0, attempts =>
    (withRetry_ensures (fun _ => ⟨rfl, by simp⟩) (isRound_wait hash attempts 0)).mono
      (fun _ h => h) fun _ _ h => ⟨attempts, h⟩
  | left + 1, attempts => by
    rw [pollFrom]
    refine AsyncRun.ensures_bind (withRetry_ensures (fun _ => ⟨rfl, by simp⟩)
      (isRound_wait hash attempts (left + 1))) fun l status hl => ?_
    split
    · refine AsyncRun.ensures_bind (Q := fun _ _ => True)
        (AsyncRun.ensures_call (isRound_wait _ _ _ _ _) (by simp)) fun l' _ _ => ?_
      refine (pollFrom_ensures left (attempts + 1)).mono (fun c hc => ⟨hc.1, ?_⟩) ?_
      · intro round h answer he
        obtain ⟨h₁, h₂, h₃⟩ := hc.2 round h answer he
        exact ⟨h₁, by omega, by omega⟩
      · rintro l'' s ⟨round, hr⟩
        exact ⟨round, by simp [hr]⟩
    · exact AsyncRun.ensures_pure ⟨attempts, by simpa using hl⟩

theorem pollFrom_count : ∀ left attempts,
    (pollFrom ans hash left attempts).trace.countP SdkCall.IsPoll ≤ 3 * (left + 1)
  | 0, _ => withRetryFrom_count _ (by simp [SdkCall.IsPoll]) 2 1
  | left + 1, attempts => by
    rw [pollFrom, show 3 * (left + 1 + 1) = 3 + 3 * (left + 1) by omega]
    refine AsyncRun.countP_bind_le (withRetryFrom_count _ (by simp [SdkCall.IsPoll]) 2 1)
      fun status _ => ?_
    split
    · have := AsyncRun.countP_bind_le (m := 0)
        (r := (sleep (.finite 1000) 0 : SdkRun Account Tx Unit))
        (f := fun _ => pollFrom ans hash left (attempts + 1)) (p := SdkCall.IsPoll)
        (by simp [sleep, SdkCall.IsPoll]) fun _ _ => pollFrom_count left (attempts + 1)
      simpa using this
    · simp

theorem pollFrom_settles : ∀ left attempts, (pollFrom ans hash left attempts).Settles
  | 0, _ => withRetry_settles
  | left + 1, attempts => by
    rw [pollFrom]
    refine AsyncRun.settles_bind withRetry_settles fun status _ => ?_
    split
    · exact AsyncRun.settles_bind (AsyncRun.settles_call _ _)
        fun _ _ => pollFrom_settles left (attempts + 1)
    · exact AsyncRun.settles_pure _

/-- The confirmation sends nothing, and resolves only on an answer that confirms. -/
theorem confirmTransaction_ensures :
    (confirmTransaction ans method hash).Ensures (IsRound hash 1 29) fun l h => h = hash ∧
      ∃ round status, .getTransaction round h (.ok status) ∈ l ∧ status ≠ .notFound ∧
        status ≠ .failed := by
  refine AsyncRun.ensures_bind (pollFrom_ensures ans hash 29 1) ?_
  rintro l status ⟨round, hround⟩
  cases status with
  | notFound => exact AsyncRun.ensures_throw _
  | failed => exact AsyncRun.ensures_throw _
  | success => exact AsyncRun.ensures_pure ⟨rfl, round, _, by simpa using hround, by simp, by simp⟩
  | other s => exact AsyncRun.ensures_pure ⟨rfl, round, _, by simpa using hround, by simp, by simp⟩

theorem confirmTransaction_count :
    (confirmTransaction ans method hash).trace.countP SdkCall.IsPoll ≤ 3 * 30 := by
  refine (AsyncRun.countP_bind_le (n := 0) (pollFrom_count ans hash 29 1) fun status _ => ?_)
  cases status <;> simp

theorem confirmTransaction_settles : (confirmTransaction ans method hash).Settles := by
  refine AsyncRun.settles_bind (pollFrom_settles ans hash 29 1) fun status _ => ?_
  cases status with
  | notFound => exact AsyncRun.settles_throw _
  | failed => exact AsyncRun.settles_throw _
  | success => exact AsyncRun.settles_pure _
  | other s => exact AsyncRun.settles_pure _

end Polling

section Sending

/-- One broadcast is one entry of the trace. -/
theorem outcome_request {c : Except Thrown α → SdkCall Account Tx} {x : Except Thrown α} {a : α}
    (h : (request c x).outcome = .resolved a) : x = .ok a := by
  cases x with
  | error => simp [request, AsyncRun.call, AsyncRun.ofExcept, Except.mapError] at h
  | ok b =>
    simp only [request, AsyncRun.outcome_call, Except.mapError, Except.ok.injEq] at h
    rw [h]

theorem openFor_refused (tx : Tx) (earlier : List (SdkCall Account Tx)) (hash : String)
    (result : Option String) {timers : List (SdkCall Account Tx)} (h : ∀ c ∈ timers, c.IsWait) :
    OpenFor tx (earlier ++ .sendTransaction tx (.ok ⟨.tryAgainLater, hash, result⟩) :: timers) :=
  .inr ⟨earlier, hash, result, timers, rfl, h⟩

theorem broadcastFrom_past (tx : Tx) (maxAttempts : Double) : ∀ fuel sent attempt last
    {pre : List (SdkCall Account Tx)}, OpenFor tx pre →
    Past (fun before c => ∀ tx' answer, c = .sendTransaction tx' answer →
        tx' = tx ∧ OpenFor tx (pre ++ before))
      (broadcastFrom client ans method tx maxAttempts fuel sent attempt last).trace
  | 0, _, _, _, _, _ => past_nil
  | fuel + 1, sent, attempt, last, pre, hpre => by
    rw [broadcastFrom]
    split
    · refine past_bind (past_cons ?_ past_nil) fun response hr => ?_
      · rintro tx' answer h
        simp only [SdkCall.sendTransaction.injEq] at h
        exact ⟨h.1.symm, by simpa using hpre⟩
      · have hans : ans.sendTransaction sent = .ok response := outcome_request hr
        obtain ⟨status, hash, result⟩ := response
        cases status with
        | tryAgainLater =>
          have hopen (timers : List (SdkCall Account Tx)) (ht : ∀ c ∈ timers, c.IsWait) :=
            openFor_refused tx pre hash result ht
          rw [← hans] at hopen
          dsimp only
          split
          · refine past_bind (past_cons (by simp) past_nil) fun _ _ => ?_
            have := broadcastFrom_past tx maxAttempts fuel (sent + 1)
              (Double.increment attempt) hash
              (hopen [.wait client.mutationRetryPolicy.baseDelayMs (attempt - 1)]
                (by simp [SdkCall.IsWait]))
            simpa [request, sleep] using this
          · have := broadcastFrom_past tx maxAttempts fuel (sent + 1)
              (Double.increment attempt) hash (hopen [] (by simp))
            simpa [request] using this
        | error => exact past_nil
        | pending => exact past_nil
        | duplicate => exact past_nil
        | other => exact past_nil
    · exact past_nil

/-- A broadcast polls nothing. -/
theorem broadcastFrom_ensures (tx : Tx) (maxAttempts : Double) : ∀ fuel sent attempt last,
    (broadcastFrom client ans method tx maxAttempts fuel sent attempt last).Ensures
      (fun c => c.IsPoll = false) fun _ _ => True
  | 0, _, _, _ => ⟨by simp [broadcastFrom, AsyncRun.running], by simp⟩
  | fuel + 1, sent, attempt, last => by
    rw [broadcastFrom]
    split
    · refine AsyncRun.ensures_bind (request_ensures (by simp [SdkCall.IsPoll])) ?_
      rintro l ⟨status, hash, result⟩ -
      have hrest := broadcastFrom_ensures tx maxAttempts fuel (sent + 1)
        (Double.increment attempt) hash
      cases status with
      | tryAgainLater =>
        dsimp only
        split
        · refine AsyncRun.ensures_bind (Q := fun _ _ => True) (AsyncRun.ensures_call ?_ (by simp))
            fun _ _ _ => hrest
          simp [SdkCall.IsPoll]
        · exact hrest
      | error => exact AsyncRun.ensures_throw _
      | pending => exact AsyncRun.ensures_pure trivial
      | duplicate => exact AsyncRun.ensures_pure trivial
      | other => exact AsyncRun.ensures_pure trivial
    · exact AsyncRun.ensures_throw _

theorem broadcast_ensures (tx : Tx) (fuel : ℕ) : (broadcast client ans method tx fuel).Ensures
    (fun c => c.IsPoll = false) fun _ _ => True :=
  broadcastFrom_ensures client ans method tx _ fuel 0 1 ""

theorem attempt_le {attempt : ℕ} {q : ℚ} (h : Double.le (.finite attempt) (.finite q)) :
    attempt ≤ ⌊q⌋₊ :=
  Nat.le_floor (by simpa [Double.le] using h)

theorem increment_of_le {attempt : ℕ} {q : ℚ} (hq : q < 2 ^ 53)
    (h : Double.le (.finite attempt) (.finite q)) : Double.increment attempt = attempt + 1 := by
  have hlt : (attempt : ℚ) < 2 ^ 53 := lt_of_le_of_lt (by simpa [Double.le] using h) hq
  exact if_pos (by exact_mod_cast hlt)

/-- Each send uses up one of the attempts that a bound the counter can reach leaves. -/
theorem broadcastFrom_count (tx : Tx) {q : ℚ} (hq : q < 2 ^ 53) : ∀ fuel sent attempt last,
    (broadcastFrom client ans method tx (.finite q) fuel sent attempt last).trace.countP
      SdkCall.IsSend ≤ ⌊q⌋₊ + 1 - attempt
  | 0, _, _, _ => Nat.zero_le _
  | fuel + 1, sent, attempt, last => by
    rw [broadcastFrom]
    split
    · have hle := attempt_le ‹_›
      have hinc := increment_of_le hq ‹_›
      have hrest := broadcastFrom_count tx hq fuel (sent + 1) (attempt + 1)
      rw [show ⌊q⌋₊ + 1 - attempt = 1 + (0 + (⌊q⌋₊ + 1 - (attempt + 1))) by omega]
      refine AsyncRun.countP_bind_le (request_count _ _) ?_
      rintro ⟨status, hash, result⟩ _
      cases status with
      | tryAgainLater =>
        dsimp only
        rw [hinc]
        split
        · exact AsyncRun.countP_bind_le (by simp [sleep, SdkCall.IsSend]) fun _ _ => hrest hash
        · exact (hrest hash).trans (by omega)
      | error => simp
      | pending => simp
      | duplicate => simp
      | other => simp
    · simp

theorem broadcastFrom_settles (tx : Tx) {q : ℚ} (hq : q < 2 ^ 53) : ∀ fuel sent attempt last,
    ⌊q⌋₊ + 1 - attempt < fuel →
    (broadcastFrom client ans method tx (.finite q) fuel sent attempt last).Settles
  | 0, _, _, _, h => by omega
  | fuel + 1, sent, attempt, last, h => by
    rw [broadcastFrom]
    split
    · have hle := attempt_le ‹_›
      have hinc := increment_of_le hq ‹_›
      have hrest (hash) : (broadcastFrom client ans method tx (.finite q) fuel (sent + 1)
          (attempt + 1) hash).Settles :=
        broadcastFrom_settles tx hq fuel (sent + 1) (attempt + 1) hash (by omega)
      refine AsyncRun.settles_bind (AsyncRun.settles_call _ _) ?_
      rintro ⟨status, hash, result⟩ _
      cases status with
      | tryAgainLater =>
        dsimp only
        rw [hinc]
        split
        · exact AsyncRun.settles_bind (AsyncRun.settles_call _ _) fun _ _ => hrest hash
        · exact hrest hash
      | error => exact AsyncRun.settles_throw _
      | pending => exact AsyncRun.settles_pure _
      | duplicate => exact AsyncRun.settles_pure _
      | other => exact AsyncRun.settles_pure _
    · exact AsyncRun.settles_throw _

end Sending

section Broadcast

variable {client}

theorem countP_eq_zero_of_forall {l : List (SdkCall Account Tx)} {p : SdkCall Account Tx → Bool}
    (h : ∀ c ∈ l, p c = false) : l.countP p = 0 :=
  List.countP_eq_zero.mpr fun c hc => by simp [h c hc]

/-- A policy that bounds the attempts bounds them by a number: `max(1, maxAttempts)`. -/
theorem max_one_cases (m : Double) :
    (m = .nan ∧ Double.max (.finite 1) m = .nan) ∨
      (m = .posInf ∧ Double.max (.finite 1) m = .posInf) ∨
      ∃ q : ℚ, Double.max (.finite 1) m = .finite q ∧ 1 ≤ q ∧ (m.Countable → q < 2 ^ 53) := by
  cases m with
  | nan => exact .inl ⟨rfl, rfl⟩
  | posInf => exact .inr (.inl ⟨rfl, rfl⟩)
  | negInf => exact .inr (.inr ⟨1, rfl, le_rfl, fun _ => by norm_num⟩)
  | finite q =>
    refine .inr (.inr ⟨max 1 q, rfl, le_max_left _ _, fun h => ?_⟩)
    exact max_lt (by norm_num) h

theorem le_of_le_floor {n : ℕ} {q : ℚ} (hq : 1 ≤ q) (h : n ≤ ⌊q⌋₊) :
    Double.le (.finite n) (.finite q) := by
  have : (n : ℚ) ≤ q := le_trans (by exact_mod_cast h) (Nat.floor_le (by linarith))
  simpa [Double.le] using this

theorem broadcast_silent {tx : Tx} {fuel : ℕ}
    (h : client.mutationRetryPolicy.maxAttempts = .nan) :
    (broadcast client ans method tx fuel).trace = [] := by
  rw [broadcast, h]
  cases fuel <;> rfl

theorem broadcast_settles
    (h : client.mutationRetryPolicy.maxAttempts ≠ .posInf)
    (hc : client.mutationRetryPolicy.maxAttempts.Countable) :
    ∃ n, ∀ tx, ∀ fuel, n ≤ fuel → (broadcast client ans method tx fuel).Settles := by
  rcases max_one_cases client.mutationRetryPolicy.maxAttempts with
    ⟨-, he⟩ | ⟨hp, -⟩ | ⟨q, he, -, hq⟩
  · refine ⟨1, fun tx fuel hf => ?_⟩
    obtain ⟨fuel, rfl⟩ : ∃ k, fuel = k + 1 := ⟨fuel - 1, by omega⟩
    rw [broadcast, he]
    exact AsyncRun.settles_throw _
  · exact absurd hp h
  · refine ⟨⌊q⌋₊ + 1, fun tx fuel hf => ?_⟩
    rw [broadcast, he]
    exact broadcastFrom_settles client ans method tx (hq hc) fuel 0 1 "" (by omega)

variable (client)

theorem writeContract_justified (fuel : ℕ) :
    Past (Justified sdk pass)
      (writeContract sdk client ans pass method args publicKey fuel).trace := by
  have hsigned := signedTransaction_ensures sdk client ans pass method args publicKey
  refine past_bind (past_of_forall fun before c hc tx answer h => ?_) fun tx htx => ?_
  · have := (hsigned.calls c hc).1
    simp [h, SdkCall.IsSend] at this
  have hs := hsigned.value tx htx
  refine past_bind ?_ fun result _ => past_of_forall fun before c hc tx' answer h => ?_
  · refine (broadcastFrom_past client ans method tx _ fuel 0 1 ""
      (.inl fun c hc => (hsigned.calls c hc).1)).mono fun before c hB tx' answer h => ?_
    obtain ⟨rfl, hopen⟩ := hB tx' answer h
    obtain ⟨⟨unsigned, hu⟩, xdr, network, key, signed, hk, hx⟩ := hs
    exact ⟨hopen, ⟨unsigned, by simp [hu]⟩, xdr, network, key, signed, by simp [hk], hx⟩
  · have := ((confirmTransaction_ensures ans method _).calls c hc).1
    simp [h, SdkCall.IsSend] at this

/-- Only the broadcast of a call sends. -/
theorem writeContract_sends {fuel n : ℕ}
    (h : ∀ tx, (broadcast client ans method tx fuel).trace.countP SdkCall.IsSend ≤ n) :
    (writeContract sdk client ans pass method args publicKey fuel).trace.countP SdkCall.IsSend
      ≤ n := by
  have hsigned := signedTransaction_ensures sdk client ans pass method args publicKey
  have hquiet := countP_eq_zero_of_forall fun c hc => (hsigned.calls c hc).1
  have := AsyncRun.countP_bind_le hquiet.le fun tx _ => AsyncRun.countP_bind_le (h tx)
    fun result _ =>
    (countP_eq_zero_of_forall fun c hc =>
      ((confirmTransaction_ensures ans method result.hash).calls c hc).1).le
  rw [Nat.zero_add, Nat.add_zero] at this
  exact this

theorem writeContract_silent (fuel : ℕ) (h : client.mutationRetryPolicy.maxAttempts = .nan) :
    (writeContract sdk client ans pass method args publicKey fuel).trace.countP SdkCall.IsSend
      = 0 :=
  Nat.le_zero.mp <| writeContract_sends sdk client ans pass method args publicKey fun tx => by
    rw [broadcast_silent ans method h, List.countP_nil]

theorem writeContract_bounded (fuel : ℕ) (h : client.mutationRetryPolicy.maxAttempts ≠ .nan)
    (hc : client.mutationRetryPolicy.maxAttempts.Countable) :
    Double.le (.finite ((writeContract sdk client ans pass method args publicKey
        fuel).trace.countP SdkCall.IsSend))
      (Double.max (.finite 1) client.mutationRetryPolicy.maxAttempts) := by
  rcases max_one_cases client.mutationRetryPolicy.maxAttempts with
    ⟨hn, -⟩ | ⟨-, he⟩ | ⟨q, he, h1, hq⟩
  · exact absurd hn h
  · rw [he]
    rfl
  · rw [he]
    refine le_of_le_floor h1 ?_
    refine writeContract_sends sdk client ans pass method args publicKey fun tx => ?_
    rw [broadcast, he]
    exact broadcastFrom_count client ans method tx (hq hc) fuel 0 1 ""

/-- A call whose rounds are those of a confirmation. -/
def InRounds (c : SdkCall Account Tx) : Prop :=
  ∀ round hash answer, c = .getTransaction round hash answer → 1 ≤ round ∧ round ≤ 30

theorem inRounds_of_not_poll {c : SdkCall Account Tx} (h : c.IsPoll = false) : InRounds c := by
  rintro round hash answer rfl
  simp [SdkCall.IsPoll] at h

theorem writeContract_ensures (fuel : ℕ) :
    (writeContract sdk client ans pass method args publicKey fuel).Ensures InRounds fun l hash =>
      ∃ round status, .getTransaction round hash (.ok status) ∈ l ∧ status ≠ .notFound ∧
        status ≠ .failed := by
  refine AsyncRun.ensures_bind ((signedTransaction_ensures sdk client ans pass method args
    publicKey).mono (fun c hc => inRounds_of_not_poll hc.2) fun _ _ h => h) fun l tx _ => ?_
  refine AsyncRun.ensures_bind ((broadcast_ensures client ans method tx fuel).mono
    (fun c hc => inRounds_of_not_poll hc) fun _ _ h => h) fun l' result _ => ?_
  refine (confirmTransaction_ensures ans method _).mono (fun c hc => ?_) ?_
  · intro round hash answer h
    obtain ⟨-, h₁, h₂⟩ := hc.2 round hash answer h
    exact ⟨h₁, h₂⟩
  · rintro l'' hash ⟨-, round, status, hmem, hnot⟩
    exact ⟨round, status, by simp [hmem], hnot⟩

theorem writeContract_polls (fuel : ℕ) :
    (writeContract sdk client ans pass method args publicKey fuel).trace.countP SdkCall.IsPoll
      ≤ 3 * 30 := by
  have hsigned := signedTransaction_ensures sdk client ans pass method args publicKey
  have hquiet := countP_eq_zero_of_forall fun c hc => (hsigned.calls c hc).2
  have := AsyncRun.countP_bind_le hquiet.le fun tx _ => AsyncRun.countP_bind_le
    (countP_eq_zero_of_forall (broadcast_ensures client ans method tx fuel).calls).le
    fun result _ => confirmTransaction_count ans method result.hash
  rw [Nat.zero_add, Nat.zero_add] at this
  exact this

theorem writeContract_settles {n fuel : ℕ}
    (h : ∀ tx, ∀ fuel, n ≤ fuel → (broadcast client ans method tx fuel).Settles) (hf : n ≤ fuel) :
    (writeContract sdk client ans pass method args publicKey fuel).Settles := by
  refine AsyncRun.settles_bind (signedTransaction_settles sdk client ans pass method args publicKey)
    fun tx _ => ?_
  exact AsyncRun.settles_bind (h tx fuel hf) fun result _ => confirmTransaction_settles ans method _

/-- Every call of `writeContract` sends safely, and it settles unless its policy allows endless or
uncountably many attempts. -/
theorem write_contract_broadcasts :
    (∀ fuel, Broadcasts sdk pass client.mutationRetryPolicy.maxAttempts
      (writeContract sdk client ans pass method args publicKey fuel)) ∧
    (client.mutationRetryPolicy.maxAttempts ≠ .posInf →
      client.mutationRetryPolicy.maxAttempts.Countable →
      ∃ n, ∀ fuel, n ≤ fuel →
        (writeContract sdk client ans pass method args publicKey fuel).Settles) := by
  refine ⟨fun fuel => ?_, fun h hc => ?_⟩
  · have hall := writeContract_ensures sdk client ans pass method args publicKey fuel
    exact
      { justified := writeContract_justified sdk client ans pass method args publicKey fuel
        silent := writeContract_silent sdk client ans pass method args publicKey fuel
        bounded := writeContract_bounded sdk client ans pass method args publicKey fuel
        confirmed := hall.value
        rounds := fun round hash answer hmem => hall.calls _ hmem round hash answer rfl
        polls := writeContract_polls sdk client ans pass method args publicKey fuel }
  · obtain ⟨n, hn⟩ := broadcast_settles ans method h hc
    exact ⟨n, fun fuel hf =>
      writeContract_settles sdk client ans pass method args publicKey hn hf⟩

end Broadcast

section Congested

/-- An SDK whose transactions are their XDR text. -/
def plainSdk : StellarSdk String String :=
  ⟨fun account _ contract method _ => .ok (account ++ contract ++ method), id, fun xdr _ => .ok xdr⟩

/-- An RPC server that queues no transaction. -/
def congested : Answers String String where
  getAccount _ := .ok "GA"
  simulateTransaction _ := .ok .success
  prepareTransaction _ := .ok "prepared"
  signTransaction := .ok "signed"
  sendTransaction _ := .ok ⟨.tryAgainLater, "hash", none⟩
  getTransaction _ _ := .ok .notFound

def endlessPolicy : BaseContractClient := ⟨"C", ⟨.posInf, .finite 1000⟩⟩

theorem broadcastFrom_congested (tx : String) : ∀ fuel sent attempt last,
    (broadcastFrom endlessPolicy congested "fund" tx .posInf fuel sent attempt last).outcome =
      .running
  | 0, _, _, _ => rfl
  | fuel + 1, sent, attempt, last => by
    have := broadcastFrom_congested tx fuel (sent + 1) (Double.increment attempt) "hash"
    rw [broadcastFrom, if_pos (by rfl), (AsyncRun.bind_of_resolved _ rfl).2]
    dsimp only
    rw [if_pos (by rfl), (AsyncRun.bind_of_resolved _ rfl).2]
    exact this

/-- With `maxAttempts: Infinity` a congested RPC keeps a call from ever settling. -/
theorem endless_policy_runs : ¬ ∃ fuel, (writeContract plainSdk endlessPolicy congested
    "Test SDF Network ; September 2015" "fund" [] "GA" fuel).Settles := by
  rintro ⟨fuel, h⟩
  have hsigned : (signedTransaction plainSdk endlessPolicy congested
      "Test SDF Network ; September 2015" "fund" [] "GA").outcome = .resolved "signed" := rfl
  refine h ?_
  rw [writeContract, (AsyncRun.bind_of_resolved _ hsigned).2]
  exact AsyncRun.bind_of_running _ (broadcastFrom_congested "signed" fuel 0 1 "")

example : ((writeContract plainSdk ⟨"C", defaultMutationRetryPolicy⟩ congested
    "Test SDF Network ; September 2015" "fund" [] "GA" 5).trace.countP SdkCall.IsSend) = 3 := by
  rfl

end Congested

end TrusTrove
