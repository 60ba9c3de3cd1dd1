import TrusTrove.Proofs.Broadcast
import TrusTrove.TokenAllowance

/-!
# No transfer without its allowance

A write of a mutation comes after what it depends on: `approve` after an allowance was read that is
too small, and a transfer after one that covers it was read or the approval of it was confirmed. A
mutation that fails before that has written nothing to the contract it is for, and one that resolves
had its own arguments signed by the wallet's account, sent and confirmed.
-/

namespace TrusTrove

open Interaction

variable {Account Tx α : Type} (S : ContractSdk Account Tx) (W : WebConfig)

section Traces

/-- A call with these arguments was answered with a value that is parsed as `a`. -/
def ReadAs (contractId method : String) (args : List ScVal) (parse : ScVal → Except Thrown α)
    (calls : List (HookCall Account Tx)) (a : α) : Prop :=
  ∃ account tx val, S.build account W.networkPassphrase contractId method args = .ok tx
    ∧ .read contractId method (.simulateTransaction tx (.ok (.success (some val)))) ∈ calls
    ∧ parse val = .ok a

/-- The transaction of a call with these arguments was prepared, and `signed` is what the wallet
made of it for the account. -/
def SignedFor (contractId method : String) (args : List ScVal) (publicKey : String)
    (calls : List (HookCall Account Tx)) (signed : Tx) : Prop :=
  ∃ account tx prepared xdr,
    S.build account W.networkPassphrase contractId method args = .ok tx
      ∧ .write contractId method (.prepareTransaction tx (.ok prepared)) ∈ calls
      ∧ .write contractId method (.signTransaction (S.toXDR prepared)
          (if W.networkPassphrase = publicPassphrase then "PUBLIC" else "TESTNET")
          W.networkPassphrase publicKey (.ok xdr)) ∈ calls
      ∧ S.fromXDR xdr W.networkPassphrase = .ok signed

/-- A call with these arguments was signed for, sent, and confirmed under the hash of the answer. -/
def WriteConfirmed (contractId method : String) (args : List ScVal) (publicKey : String)
    (calls : List (HookCall Account Tx)) (hash : String) : Prop :=
  ∃ signed result round status, SignedFor S W contractId method args publicKey calls signed
    ∧ .write contractId method (.sendTransaction signed (.ok result)) ∈ calls ∧ result.hash = hash
    ∧ .write contractId method (.getTransaction round hash (.ok status)) ∈ calls
    ∧ status ≠ .notFound ∧ status ≠ .failed

/-- An allowance of the owner for the spender was read that meets `p`. -/
def AllowanceRead (owner spender : String) (p : ℤ → Prop) (calls : List (HookCall Account Tx)) :
    Prop :=
  ∃ token args n, W.usdcContractID = .ok token ∧ allowanceArgs S owner spender = .ok args ∧ p n
    ∧ ReadAs S W token "allowance" args (allowanceOf S) calls n

/-- The owner's approval of the amount is confirmed, up to some time after the latest ledger. -/
def Approved (owner spender : String) (amount : ℤ) (calls : List (HookCall Account Tx)) : Prop :=
  ∃ token latestLedger args hash, W.usdcContractID = .ok token
    ∧ .getLatestLedger (.ok latestLedger) ∈ calls
    ∧ approveArgs S owner spender amount (latestLedger + approvalLedgerOffset) = .ok args
    ∧ WriteConfirmed S W token "approve" args owner calls hash

/-- The spender may transfer the amount. -/
def Covered (owner spender : String) (amount : ℤ) (calls : List (HookCall Account Tx)) : Prop :=
  AllowanceRead S W owner spender (amount ≤ ·) calls
    ∨ AllowanceRead S W owner spender (· < amount) calls ∧ Approved S W owner spender amount calls

/-- A write is an approval of what is short, or the transfer of what is covered as far as that is
needed. -/
def Gated (owner spender method : String) (needed : Prop) (amount : ℤ)
    (before : List (HookCall Account Tx)) (c : HookCall Account Tx) : Prop :=
  ∀ contractId m call, c = .write contractId m call →
    (needed ∧ W.usdcContractID = .ok contractId ∧ m = "approve"
        ∧ AllowanceRead S W owner spender (· < amount) before)
      ∨ contractId = spender ∧ m = method ∧ (needed → Covered S W owner spender amount before)

variable {S W}

theorem ReadAs.mono {contractId method : String} {args : List ScVal}
    {parse : ScVal → Except Thrown α} {l l' : List (HookCall Account Tx)} {a : α}
    (h : ReadAs S W contractId method args parse l a) (hl : l ⊆ l') :
    ReadAs S W contractId method args parse l' a := by
  obtain ⟨account, tx, val, hbuild, hmem, hparse⟩ := h
  exact ⟨account, tx, val, hbuild, hl hmem, hparse⟩

theorem WriteConfirmed.mono {contractId method : String} {args : List ScVal} {publicKey : String}
    {l l' : List (HookCall Account Tx)} {hash : String}
    (h : WriteConfirmed S W contractId method args publicKey l hash) (hl : l ⊆ l') :
    WriteConfirmed S W contractId method args publicKey l' hash := by
  obtain ⟨signed, result, round, status, hsigned, hsend, hhash, hpoll, hstatus⟩ := h
  obtain ⟨account, tx, prepared, xdr, hbuild, hprepare, hsign, hxdr⟩ := hsigned
  exact ⟨signed, result, round, status,
    ⟨account, tx, prepared, xdr, hbuild, hl hprepare, hl hsign, hxdr⟩, hl hsend, hhash,
    hl hpoll, hstatus⟩

theorem AllowanceRead.mono {owner spender : String} {p : ℤ → Prop}
    {l l' : List (HookCall Account Tx)} (h : AllowanceRead S W owner spender p l) (hl : l ⊆ l') :
    AllowanceRead S W owner spender p l' := by
  obtain ⟨token, args, n, htoken, hargs, hp, hread⟩ := h
  exact ⟨token, args, n, htoken, hargs, hp, hread.mono hl⟩

theorem AllowanceRead.imp {owner spender : String} {p q : ℤ → Prop}
    {l : List (HookCall Account Tx)} (h : AllowanceRead S W owner spender p l)
    (hpq : ∀ n, p n → q n) : AllowanceRead S W owner spender q l := by
  obtain ⟨token, args, n, htoken, hargs, hp, hread⟩ := h
  exact ⟨token, args, n, htoken, hargs, hpq n hp, hread⟩

theorem Covered.mono {owner spender : String} {amount : ℤ} {l l' : List (HookCall Account Tx)}
    (h : Covered S W owner spender amount l) (hl : l ⊆ l') :
    Covered S W owner spender amount l' := by
  rcases h with h | ⟨h, token, latestLedger, args, hash, htoken, hlatest, hargs, hconfirmed⟩
  · exact .inl (h.mono hl)
  · exact .inr ⟨h.mono hl, token, latestLedger, args, hash, htoken, hl hlatest, hargs,
      hconfirmed.mono hl⟩

theorem Gated.mono {owner spender method : String} {needed : Prop} {amount : ℤ}
    {l l' : List (HookCall Account Tx)} {c : HookCall Account Tx}
    (h : Gated S W owner spender method needed amount l c) (hl : l ⊆ l') :
    Gated S W owner spender method needed amount l' c := by
  intro contractId m call hc
  rcases h contractId m call hc with ⟨hn, htoken, hm, hread⟩ | ⟨hid, hm, hcovered⟩
  · exact .inl ⟨hn, htoken, hm, hread.mono hl⟩
  · exact .inr ⟨hid, hm, fun hn => (hcovered hn).mono hl⟩

end Traces

section Calls

theorem ok_of_mapError {ε ε' : Type} {f : ε → ε'} {x : Except ε α} {a : α}
    (h : x.mapError f = .ok a) : x = .ok a := by
  cases x with
  | error e => simp [Except.mapError] at h
  | ok b => simpa [Except.mapError] using h

theorem orThrow_ensures {κ : Type} {P : κ → Prop} {x : Except Thrown α} :
    (orThrow x : AsyncRun κ HookError α).Ensures P fun l a => l = [] ∧ x = .ok a := by
  cases x with
  | error e => exact AsyncRun.ensures_throw _
  | ok a => exact AsyncRun.ensures_pure ⟨rfl, rfl⟩

theorem readRetry_ensures {P : ReadCall Account Tx → Prop}
    {c : Except Thrown α → ReadCall Account Tx} {answer : ℕ → Except Thrown α}
    (h : ∀ x, P (c x)) (hw : ∀ b k, P (.wait b k)) :
    (readRetry c answer).Ensures P fun l a => c (.ok a) ∈ l := by
  refine AsyncRun.ensures_retry (Q := fun l a => c (.ok a) ∈ l)
    (fun k => AsyncRun.ensures_call (h (answer k)) fun a ha => ?_) (fun k => hw _ _)
    (fun l l' a ha => List.mem_append_right l ha) 2 1
  rw [ok_of_mapError ha]
  exact List.mem_singleton_self _

/-- A read resolves with what was parsed of an answer to its own arguments. -/
theorem hookRead_ensures (client : BaseContractClient) (method : String) (args : List ScVal)
    (publicKey : String) (parse : ScVal → Except Thrown α) (ans : ReadAnswers Account) :
    (hookRead S W client method args publicKey parse ans).Ensures
      (fun c => ∃ call, c = .read client.contractId method call)
      fun l a => ReadAs S W client.contractId method args parse l a := by
  have hread : (readContract S W client method args publicKey parse ans).Ensures (fun _ => True)
      fun l a => ∃ account tx val,
        S.build account W.networkPassphrase client.contractId method args = .ok tx
          ∧ .simulateTransaction tx (.ok (.success (some val))) ∈ l ∧ parse val = .ok a := by
    refine AsyncRun.ensures_bind (readRetry_ensures (by simp) (by simp)) fun l account _ => ?_
    refine AsyncRun.ensures_bind orThrow_ensures fun l₁ tx htx => ?_
    refine AsyncRun.ensures_bind (readRetry_ensures (by simp) (by simp)) fun l₂ sim hsim => ?_
    cases sim with
    | error message => exact AsyncRun.ensures_throw _
    | success retval =>
      cases retval with
      | none => exact AsyncRun.ensures_throw _
      | some val =>
        refine orThrow_ensures.mono (fun c hc => hc) fun l₃ a ha => ?_
        exact ⟨account, tx, val, htx.2, by simp [hsim], ha.2⟩
  refine AsyncRun.ensures_lift hread (fun c _ => ⟨c, rfl⟩) fun l a ha => ?_
  obtain ⟨account, tx, val, hbuild, hmem, hparse⟩ := ha
  exact ⟨account, tx, val, hbuild, List.mem_map_of_mem hmem, hparse⟩

section Write

variable (sdk : StellarSdk Account Tx) (client : BaseContractClient) (ans : Answers Account Tx)
  (pass method : String) (args : List ScVal) (publicKey : String)

/-- What the wallet signed is the prepared transaction of the call. -/
theorem signedTransaction_built :
    (signedTransaction sdk client ans pass method args publicKey).Ensures (fun _ => True)
      fun l signed => ∃ account tx prepared xdr,
        sdk.build account pass client.contractId method args = .ok tx
          ∧ .prepareTransaction tx (.ok prepared) ∈ l
          ∧ .signTransaction (sdk.toXDR prepared)
              (if pass = publicPassphrase then "PUBLIC" else "TESTNET") pass publicKey (.ok xdr) ∈ l
          ∧ sdk.fromXDR xdr pass = .ok signed := by
  refine AsyncRun.ensures_bind (withRetry_ensures (by simp) (by simp)) fun l account _ => ?_
  refine AsyncRun.ensures_bind (Q := fun _ tx => sdk.build account pass client.contractId method
    args = .ok tx) (AsyncRun.ensures_ofExcept fun tx htx => ?_) fun l₁ tx hbuild => ?_
  · exact ok_of_mapError htx
  refine AsyncRun.ensures_bind (withRetry_ensures (by simp) (by simp)) fun l₂ sim _ => ?_
  cases sim with
  | error message => exact AsyncRun.ensures_throw _
  | success =>
    refine AsyncRun.ensures_bind (withRetry_ensures (by simp) (by simp)) fun l₃ prepared hp => ?_
    refine AsyncRun.ensures_bind (request_ensures trivial) fun l₄ xdr hsign => ?_
    refine AsyncRun.ensures_ofExcept fun signed hsigned => ?_
    refine ⟨account, tx, prepared, xdr, hbuild, ?_, ?_, ok_of_mapError hsigned⟩
    · simp [hp]
    · simp only [List.mem_append]
      exact .inr (.inr (.inr (.inr (.inl hsign))))

/-- A broadcast resolves with an answer to a sending of the transaction. -/
theorem broadcastFrom_sent (tx : Tx) (maxAttempts : Double) : ∀ fuel sent attempt last,
    (broadcastFrom client ans method tx maxAttempts fuel sent attempt last).Ensures
      (fun _ => True) fun l result => .sendTransaction tx (.ok result) ∈ l
  | 0, _, _, _ => ⟨by simp, by simp [broadcastFrom, AsyncRun.running]⟩
  | fuel + 1, sent, attempt, last => by
    rw [broadcastFrom]
    split
    · refine AsyncRun.ensures_bind (request_ensures trivial) ?_
      rintro l ⟨status, hash, result⟩ hsend
      have hrest := broadcastFrom_sent tx maxAttempts fuel (sent + 1)
        (Double.increment attempt) hash
      cases status with
      | tryAgainLater =>
        dsimp only
        split
        · refine AsyncRun.ensures_bind (Q := fun _ _ => True)
            (AsyncRun.ensures_call trivial (by simp)) fun l₁ _ _ => ?_
          exact hrest.mono (fun _ h => h) fun l₂ a ha => by simp [ha]
        · exact hrest.mono (fun _ h => h) fun l₂ a ha => by simp [ha]
      | error => exact AsyncRun.ensures_throw _
      | pending => exact AsyncRun.ensures_pure (by simpa using hsend)
      | duplicate => exact AsyncRun.ensures_pure (by simpa using hsend)
      | other => exact AsyncRun.ensures_pure (by simpa using hsend)
    · exact AsyncRun.ensures_throw _

end Write

/-- A write that resolves was confirmed. -/
theorem hookWrite_ensures (client : BaseContractClient) (method : String) (args : List ScVal)
    (publicKey : String) (ans : Answers Account Tx) (fuel : ℕ) :
    (hookWrite S W client method args publicKey ans fuel).Ensures
      (fun c => ∃ call, c = .write client.contractId method call)
      fun l hash => WriteConfirmed S W client.contractId method args publicKey l hash := by
  have hwrite : (writeContract S.toStellarSdk client ans W.networkPassphrase method args publicKey
      fuel).Ensures (fun _ => True) fun l hash => WriteConfirmed S W client.contractId method args
        publicKey (l.map (.write client.contractId method)) hash := by
    refine AsyncRun.ensures_bind (signedTransaction_built S.toStellarSdk client ans
      W.networkPassphrase method args publicKey) fun l signed hsigned => ?_
    refine AsyncRun.ensures_bind (broadcastFrom_sent client ans method signed _ fuel 0 1 "")
      fun l₁ result hsend => ?_
    refine (confirmTransaction_ensures ans method result.hash).mono (fun _ _ => trivial)
      fun l₂ hash h => ?_
    obtain ⟨rfl, round, status, hpoll, hstatus⟩ := h
    obtain ⟨account, tx, prepared, xdr, hbuild, hprepare, hsign, hxdr⟩ := hsigned
    exact ⟨signed, result, round, status, ⟨account, tx, prepared, xdr, hbuild,
      List.mem_map_of_mem (by simp [hprepare]), List.mem_map_of_mem (by simp [hsign]), hxdr⟩,
      List.mem_map_of_mem (by simp [hsend]), rfl, List.mem_map_of_mem (by simp [hpoll]), hstatus⟩
  exact AsyncRun.ensures_lift hwrite (fun c _ => ⟨c, rfl⟩) fun l hash h => h

end Calls

section Allowance

theorem newClient_contractId {contractId : String} {client : BaseContractClient}
    (h : newClient S contractId = .ok client) : client.contractId = contractId := by
  unfold newClient at h
  split_ifs at h
  cases hc : S.contract contractId with
  | error e => simp [hc, Except.map] at h
  | ok u =>
    simp only [hc, Except.map, Except.ok.injEq] at h
    rw [← h]

/-- The client of `TokenClient.forUSDC` is the one of the token that the configuration names. -/
theorem forUSDC_ensures {κ : Type} {P : κ → Prop} :
    (orThrow (do newClient S (← W.usdcContractID)) :
        AsyncRun κ HookError BaseContractClient).Ensures P
      fun l client => l = [] ∧ W.usdcContractID = .ok client.contractId := by
  refine orThrow_ensures.mono (fun c hc => hc) fun l client hl => ⟨hl.1, ?_⟩
  cases htoken : W.usdcContractID with
  | error e =>
    rw [htoken] at hl
    exact absurd hl.2 (by simp [bind, Except.bind])
  | ok token =>
    rw [htoken] at hl
    rw [newClient_contractId S hl.2]

theorem allowance_ensures (client : BaseContractClient) (htoken : W.usdcContractID = .ok
    client.contractId) (owner spender publicKey : String) (ans : ReadAnswers Account) :
    (allowance S W client owner spender publicKey ans).Ensures
      (fun c => ∃ call, c = .read client.contractId "allowance" call)
      fun l n => AllowanceRead S W owner spender (· = n) l := by
  refine AsyncRun.ensures_bind orThrow_ensures fun l args hl => ?_
  refine (hookRead_ensures S W client "allowance" args publicKey (allowanceOf S) ans).mono
    (fun c hc => hc) fun l' n hread => ?_
  exact ⟨client.contractId, args, n, htoken, hl.2, rfl, hread.mono (by simp)⟩

variable (ans : HookAnswers Account Tx) (fuel : ℕ) (owner spender : String) (amount : ℤ)

theorem approve_ensures (client : BaseContractClient) (expirationLedger : ℕ) (publicKey : String)
    (ans : Answers Account Tx) :
    (approve S W client owner spender amount expirationLedger publicKey ans fuel).Ensures
      (fun c => ∃ call, c = .write client.contractId "approve" call)
      fun l hash => ∃ args, approveArgs S owner spender amount expirationLedger = .ok args
        ∧ WriteConfirmed S W client.contractId "approve" args publicKey l hash := by
  refine AsyncRun.ensures_bind orThrow_ensures fun l args hargs => ?_
  refine (hookWrite_ensures S W client "approve" args publicKey ans fuel).mono (fun c hc => hc)
    fun l' hash h => ⟨args, hargs.2, h.mono (by simp)⟩

/-- The part of `ensureAllowance` after an allowance that is too small was read. -/
theorem approval_ensures (client : BaseContractClient)
    (htoken : W.usdcContractID = .ok client.contractId) :
    (do
      let latestLedger ← (.call (.getLatestLedger ans.getLatestLedger)
        (ans.getLatestLedger.mapError .thrown) : HookRun Account Tx ℕ)
      let _ ← approve S W client owner spender amount (latestLedger + approvalLedgerOffset) owner
        ans.approve fuel
      pure () : HookRun Account Tx Unit).Ensures
      (fun c => ∀ contractId m call, c = .write contractId m call →
        W.usdcContractID = .ok contractId ∧ m = "approve")
      fun l _ => Approved S W owner spender amount l := by
  refine AsyncRun.ensures_bind (Q := fun l latest => .getLatestLedger (.ok latest) ∈ l)
    (AsyncRun.ensures_call (by simp) fun latest h => ?_) fun l latest hlatest => ?_
  · rw [ok_of_mapError h]
    exact List.mem_singleton_self _
  refine AsyncRun.ensures_bind ((approve_ensures S W fuel owner spender amount client _ owner
    ans.approve).mono (fun c hc => ?_) fun _ _ h => h) fun l₁ hash h => AsyncRun.ensures_pure ?_
  · rintro contractId m call rfl
    obtain ⟨call', hc⟩ := hc
    simp only [HookCall.write.injEq] at hc
    exact ⟨hc.1 ▸ htoken, hc.2.1⟩
  · obtain ⟨args, hargs, hconfirmed⟩ := h
    exact ⟨client.contractId, latest, args, hash, htoken, by simp [hlatest], hargs,
      hconfirmed.mono (by simp)⟩

/-- When `ensureAllowance` resolves, the spender may transfer the amount. -/
theorem ensureAllowance_ensures {address : Option String}
    (h : address.filter (· ≠ "") = some owner) :
    (ensureAllowance S W address spender amount ans fuel).Ensures (fun _ => True)
      fun l _ => Covered S W owner spender amount l := by
  unfold ensureAllowance
  rw [h]
  refine AsyncRun.ensures_bind (forUSDC_ensures S W) fun l client hl => ?_
  refine AsyncRun.ensures_bind ((allowance_ensures S W client hl.2 owner spender owner
    ans.allowance).mono (fun _ _ => trivial) fun _ _ h => h) fun l₁ n hread => ?_
  split_ifs with hn
  · refine AsyncRun.ensures_pure (.inl ?_)
    exact (hread.imp fun k hk => hk ▸ hn).mono (by simp)
  · refine (approval_ensures S W ans fuel owner spender amount client hl.2).mono
      (fun _ _ => trivial) fun l₂ _ happroved => .inr ⟨?_, ?_⟩
    · exact (hread.imp fun k hk => hk ▸ not_le.1 hn).mono (by simp)
    · obtain ⟨token, latest, args, hash, htoken, hlatest, hargs, hconfirmed⟩ := happroved
      exact ⟨token, latest, args, hash, htoken, by simp [hlatest], hargs, hconfirmed.mono (by simp)⟩

/-- Each approval comes after an allowance that is too small was read. -/
theorem ensureAllowance_past {address : Option String} {method : String} {needed : Prop}
    (h : address.filter (· ≠ "") = some owner) (hneeded : needed) :
    Past (Gated S W owner spender method needed amount)
      (ensureAllowance S W address spender amount ans fuel).trace := by
  unfold ensureAllowance
  rw [h]
  refine Past.bind (past_of_forall fun before c hc => ?_) (forUSDC_ensures S W (P := fun _ => True))
    fun l client hl => ?_
  · simp [orThrow] at hc
  have hallowance := allowance_ensures S W client hl.2 owner spender owner ans.allowance
  refine Past.bind (past_of_forall fun before c hc => ?_) hallowance fun l₁ n hread => ?_
  · obtain ⟨call, rfl⟩ := hallowance.calls c hc
    simp [Gated]
  split_ifs with hn
  · exact past_nil
  · refine past_of_forall fun before c hc contractId m call heq => .inl ⟨hneeded, ?_⟩
    obtain ⟨htoken, hm⟩ := (approval_ensures S W ans fuel owner spender amount client
      hl.2).calls c hc contractId m call heq
    exact ⟨htoken, hm, (hread.imp fun k hk => hk ▸ not_le.1 hn).mono (by simp)⟩

end Allowance

section Mutations

/-- What a mutation calls last, when the amount is covered. -/
theorem transfer_past {owner spender method : String} {needed : Prop} {amount : ℤ}
    {l calls : List (HookCall Account Tx)} (hcovered : needed → Covered S W owner spender amount l)
    (hcalls : ∀ c ∈ calls, ∃ call, c = .write spender method call) :
    Past (fun before => Gated S W owner spender method needed amount (l ++ before)) calls := by
  refine past_of_forall fun before c hc contractId m call heq => .inr ?_
  obtain ⟨call', rfl⟩ := hcalls c hc
  simp only [HookCall.write.injEq] at heq
  exact ⟨heq.1.symm, heq.2.1.symm, fun hn => (hcovered hn).mono (by simp)⟩

theorem deposit_ensures (client : BaseContractClient) (lp : String) (amount : ℤ)
    (publicKey : String) (ans : Answers Account Tx) (fuel : ℕ) :
    (deposit S W client lp amount publicKey ans fuel).Ensures
      (fun c => ∃ call, c = .write client.contractId "deposit" call)
      fun l hash => ∃ args, depositArgs S lp amount = .ok args
        ∧ WriteConfirmed S W client.contractId "deposit" args publicKey l hash := by
  refine AsyncRun.ensures_bind orThrow_ensures fun l args hargs => ?_
  refine (hookWrite_ensures S W client "deposit" args publicKey ans fuel).mono (fun c hc => hc)
    fun l' hash h => ⟨args, hargs.2, h.mono (by simp)⟩

/-- The part of `depositMutation` after the allowance. -/
theorem poolDeposit_ensures (lp : String) (amount : ℤ) (ans : Answers Account Tx) (fuel : ℕ) :
    (do
      let poolClient ← orThrow (newClient S W.poolContractID)
      deposit S W poolClient lp amount lp ans fuel : HookRun Account Tx String).Ensures
      (fun c => ∃ call, c = .write W.poolContractID "deposit" call)
      fun l hash => ∃ args, depositArgs S lp amount = .ok args
        ∧ WriteConfirmed S W W.poolContractID "deposit" args lp l hash := by
  refine AsyncRun.ensures_bind orThrow_ensures fun l client hclient => ?_
  rw [hclient.1, ← newClient_contractId S hclient.2]
  exact deposit_ensures S W client lp amount lp ans fuel

theorem getInvoice_ensures (client : BaseContractClient) (invoiceId publicKey : String)
    (ans : ReadAnswers Account) :
    (getInvoice S W client invoiceId publicKey ans).Ensures
      (fun c => ∃ call, c = .read client.contractId "get" call)
      fun l invoice => ReadAs S W client.contractId "get"
        [.bytes (bufferFromHex invoiceId.toList)] (invoiceOf S) l invoice :=
  hookRead_ensures S W client "get" _ publicKey (invoiceOf S) ans

theorem repay_ensures (client : BaseContractClient) (invoiceId publicKey : String)
    (ans : Answers Account Tx) (fuel : ℕ) :
    (repay S W client invoiceId publicKey ans fuel).Ensures
      (fun c => ∃ call, c = .write client.contractId "repay" call)
      fun l _ => ∃ hash, WriteConfirmed S W client.contractId "repay"
        [.bytes (bufferFromHex invoiceId.toList)] publicKey l hash := by
  refine AsyncRun.ensures_bind (hookWrite_ensures S W client "repay" _ publicKey ans fuel)
    fun l hash h => ?_
  exact AsyncRun.ensures_pure ⟨hash, h.mono (by simp)⟩

variable (address : Option String) (ans : HookAnswers Account Tx) (fuel : ℕ)

theorem filter_ne_empty {address : Option String} {owner : String}
    (h : address.filter (· ≠ "") = some owner) : owner ∈ address ∧ owner ≠ "" := by
  cases address with
  | none => simp at h
  | some a =>
    simp only [Option.filter_eq_some_iff, decide_eq_true_eq] at h
    exact ⟨h.1, h.2⟩

/-- A deposit in USDC writes to the pool only once the pool may transfer the amount, and asks for an
approval only where the allowance it read is too small; a deposit in XLM asks for none. What is
resolved is the hash of a confirmed deposit of the amount. -/
theorem deposit_gated (amount : ℤ) (asset : AssetType) :
    Past (fun before c => ∃ lp ∈ address, lp ≠ "" ∧
        Gated S W lp W.poolContractID "deposit" (asset = .usdc) amount before c)
      (depositMutation S W address amount asset ans fuel).trace
    ∧ (depositMutation S W address amount asset ans fuel).Ensures (fun _ => True) fun l hash =>
      ∃ lp ∈ address, (asset = .usdc → Covered S W lp W.poolContractID amount l)
        ∧ ∃ args, depositArgs S lp amount = .ok args
          ∧ WriteConfirmed S W W.poolContractID "deposit" args lp l hash := by
  unfold depositMutation
  cases h : address.filter (· ≠ "") with
  | none => exact ⟨past_nil, AsyncRun.ensures_throw _⟩
  | some lp =>
    obtain ⟨hlp, hne⟩ := filter_ne_empty h
    have hpool := poolDeposit_ensures S W lp amount ans.transfer fuel
    dsimp only
    split_ifs with hasset
    · have hallowance := ensureAllowance_ensures S W ans fuel lp W.poolContractID amount h
      constructor
      · refine Past.mono (Past.bind (ensureAllowance_past S W ans fuel lp _ amount h hasset)
          hallowance fun l _ hcovered => ?_) fun before c hc => ⟨lp, hlp, hne, hc⟩
        exact transfer_past S W (fun _ => hcovered) hpool.calls
      · refine AsyncRun.ensures_bind hallowance fun l _ hcovered => ?_
        refine hpool.mono (fun _ _ => trivial) fun l₁ hash hdeposit => ?_
        obtain ⟨args, hargs, hconfirmed⟩ := hdeposit
        exact ⟨lp, hlp, fun _ => hcovered.mono (by simp), args, hargs, hconfirmed.mono (by simp)⟩
    · constructor
      · refine Past.mono (transfer_past S W (l := []) (fun ha => absurd ha hasset) hpool.calls)
          fun before c hc => ⟨lp, hlp, hne, by simpa using hc⟩
      · refine hpool.mono (fun _ _ => trivial) fun l₁ hash hdeposit => ?_
        obtain ⟨args, hargs, hconfirmed⟩ := hdeposit
        exact ⟨lp, hlp, fun ha => absurd ha hasset, args, hargs, hconfirmed⟩

/-- A token with an allowance, over transactions that are their method. -/
def allowingSdk (allowance : ℤ) : ContractSdk String String where
  build _ _ _ method _ := .ok method
  toXDR tx := tx
  fromXDR xdr _ := .ok xdr
  contract _ := .ok ()
  address _ := .ok .other
  nativeToScVal _ _ := .ok .other
  scValToNative _ := .ok (.bigint allowance)

/-- A wallet and a server that agree to everything. -/
def agreeable : HookAnswers String String where
  get := ⟨fun _ => .ok "G", fun _ => .ok (.success (some .other))⟩
  allowance := ⟨fun _ => .ok "G", fun _ => .ok (.success (some .other))⟩
  getLatestLedger := .ok 7
  approve := answers
  transfer := answers
where
  answers : Answers String String :=
    ⟨fun _ => .ok "G", fun _ => .ok .success, fun _ => .ok "prepared", .ok "signed",
      fun _ => .ok ⟨.pending, "hash", none⟩, fun _ _ => .ok .success⟩

/-- The methods of the broadcasts of a run, in order. -/
def sentMethods (calls : List (HookCall Account Tx)) : List String :=
  calls.filterMap fun
    | .write _ method (.sendTransaction ..) => some method
    | _ => none

/-- A deposit of five by a wallet whose allowance is read as `allowance`. -/
def agreeableDeposit (allowance : ℤ) : HookRun String String String :=
  depositMutation (allowingSdk allowance) ⟨"Test", "CPOOL", "CINV", .ok "CUSDC"⟩ (some "G") 5 .usdc
    agreeable 1

example : (agreeableDeposit 3).outcome = .resolved "hash"
    ∧ sentMethods (agreeableDeposit 3).trace = ["approve", "deposit"] := ⟨rfl, rfl⟩

example : sentMethods (agreeableDeposit 5).trace = ["deposit"] := rfl

/-- A repayment writes to the invoice contract only once the contract may transfer the face value
that was read of the invoice; where the allowance step fails, with the wallet's refusal or
otherwise, it writes nothing there. What is resolved was confirmed. -/
theorem repay_gated (invoiceId : String) :
    Past (fun before c => ∃ payer ∈ address, payer ≠ "" ∧
        ((∃ call, c = .read W.invoiceContractID "get" call) ∨
          ∃ invoice, ReadAs S W W.invoiceContractID "get"
              [.bytes (bufferFromHex invoiceId.toList)] (invoiceOf S) before invoice
            ∧ Gated S W payer W.invoiceContractID "repay" True invoice.faceValue before c))
      (repayInvoiceMutation S W address invoiceId ans fuel).trace
    ∧ (repayInvoiceMutation S W address invoiceId ans fuel).Ensures (fun _ => True) fun l _ =>
      ∃ payer ∈ address, ∃ invoice hash, ReadAs S W W.invoiceContractID "get"
          [.bytes (bufferFromHex invoiceId.toList)] (invoiceOf S) l invoice
        ∧ Covered S W payer W.invoiceContractID invoice.faceValue l
        ∧ WriteConfirmed S W W.invoiceContractID "repay" [.bytes (bufferFromHex invoiceId.toList)]
          payer l hash := by
  unfold repayInvoiceMutation
  cases h : address.filter (· ≠ "") with
  | none => exact ⟨past_nil, AsyncRun.ensures_throw _⟩
  | some payer =>
    obtain ⟨hpayer, hne⟩ := filter_ne_empty h
    have hallowance (amount : ℤ) : ((ensureAllowance S W address W.invoiceContractID amount ans
        fuel).recover fun e => if e.rejected then AsyncRun.throw (.thrown (.error
          "Allowance rejected")) else AsyncRun.throw e).Ensures (fun _ => True)
        fun l _ => Covered S W payer W.invoiceContractID amount l := by
      refine AsyncRun.ensures_recover (ensureAllowance_ensures S W ans fuel payer _ amount h)
        fun e => ?_
      split_ifs
      · exact AsyncRun.ensures_throw _
      · exact AsyncRun.ensures_throw _
    constructor
    · refine Past.bind (past_of_forall fun before c hc => ?_)
        (orThrow_ensures (P := fun _ => True)) fun l client hclient => ?_
      · simp [orThrow] at hc
      obtain ⟨rfl, hclient⟩ := hclient
      have hid := newClient_contractId S hclient
      have hget := getInvoice_ensures S W client invoiceId payer ans.get
      rw [hid] at hget
      refine Past.bind (past_of_forall fun before c hc => ⟨payer, hpayer, hne, .inl
        (hget.calls c hc)⟩) hget fun l₁ invoice hread => ?_
      refine Past.mono (B := fun before => Gated S W payer W.invoiceContractID "repay" True
        invoice.faceValue (l₁ ++ before)) ?_ fun before c hc =>
          ⟨payer, hpayer, hne, .inr ⟨invoice, hread.mono (by simp), hc⟩⟩
      refine Past.bind (Past.recover ?_ fun e => ?_) (hallowance invoice.faceValue)
        fun l₂ _ hcovered => ?_
      · exact (ensureAllowance_past S W ans fuel payer _ _ h trivial).mono
          fun before c hc => hc.mono (by simp)
      · split_ifs
        · exact past_nil
        · exact past_nil
      · have hrepay := (repay_ensures S W client invoiceId payer ans.transfer fuel).calls
        rw [hid] at hrepay
        refine (transfer_past S W (fun _ : True => hcovered) hrepay).mono fun before c hc => ?_
        exact hc.mono (by simp)
    · refine AsyncRun.ensures_bind orThrow_ensures fun l client hclient => ?_
      have hid := newClient_contractId S hclient.2
      refine AsyncRun.ensures_bind ((getInvoice_ensures S W client invoiceId payer ans.get).mono
        (fun _ _ => trivial) fun _ _ h => h) fun l₁ invoice hread => ?_
      refine AsyncRun.ensures_bind (hallowance invoice.faceValue) fun l₂ _ hcovered => ?_
      refine (repay_ensures S W client invoiceId payer ans.transfer fuel).mono (fun _ _ => trivial)
        fun l₃ _ h => ?_
      obtain ⟨hash, hconfirmed⟩ := h
      rw [hid] at hread hconfirmed
      exact ⟨payer, hpayer, invoice, hash, hread.mono fun c hc => by simp [hc],
        hcovered.mono fun c hc => by simp [hc], hconfirmed.mono fun c hc => by simp [hc]⟩

end Mutations

end TrusTrove
