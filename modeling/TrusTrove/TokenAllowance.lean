import TrusTrove.InvoiceParser
import TrusTrove.SdkClient

/-!
# Transfers behind an allowance

`hooks/useTokenAllowance.ts` and the two mutations that use it, `deposit` of `hooks/usePool.ts` and
`repayInvoice` of `hooks/useInvoices.ts`, over the reads and writes of the SDK's clients. A run is
its calls, each with the contract and the method it is for. The parts of `@stellar/stellar-sdk` that
make and read the values of a contract are parameters.
-/

namespace TrusTrove

open Interaction

/-- An answer of `simulateTransaction` to a read, with the value the contract returns. -/
inductive ReadSimulation
  | error (message : String)
  | success (retval : Option ScVal)

/-- A call of `readContract` with its answer. -/
inductive ReadCall (Account Tx : Type)
  | getAccount (publicKey : String) (answer : Except Thrown Account)
  | simulateTransaction (tx : Tx) (answer : Except Thrown ReadSimulation)
  | wait (base : Double) (doublings : ℕ)

/-- The answers to a read, by attempt. -/
structure ReadAnswers (Account : Type) where
  getAccount : ℕ → Except Thrown Account
  simulateTransaction : ℕ → Except Thrown ReadSimulation

/-- A call of a mutation, for a method of a contract. -/
inductive HookCall (Account Tx : Type)
  | read (contractId method : String) (call : ReadCall Account Tx)
  | write (contractId method : String) (call : SdkCall Account Tx)
  | getLatestLedger (answer : Except Thrown ℕ)

/-- How a mutation rejects. -/
inductive HookError
  | thrown (e : Thrown)
  | simulationError (method cause : String)
  | missingReturnValueError (method : String)
  | write (e : WriteError)
  deriving DecidableEq

section Errors

def Thrown.message : Thrown → String
  | typeError message => message
  | error message => message
  | other => ""

def simulationMessage (method cause : String) : String :=
  if cause = "" then "Simulation failed for " ++ method
  else "Simulation failed for " ++ method ++ ": " ++ cause

def WriteError.message : WriteError → String
  | thrown e => e.message
  | simulationError method cause => simulationMessage method cause
  | transactionSendError method sorobanError =>
    match sorobanError.filter (· ≠ "") with
    | none => "Send failed for " ++ method
    | some sorobanError => "Send failed for " ++ method ++ ": " ++ sorobanError
  | transactionTryAgainLaterError method txHash attempts =>
    "Send refused as TRY_AGAIN_LATER for " ++ method ++ " after " ++ attempts.toString
      ++ " attempt(s): " ++ txHash
  | transactionTimeoutError txHash => "Transaction confirmation timed out for hash: " ++ txHash
  | transactionFailedError method => "Transaction failed on-chain for " ++ method

/-- `err instanceof Error ? err.message : ""` -/
def HookError.message : HookError → String
  | thrown e => e.message
  | simulationError method cause => simulationMessage method cause
  | missingReturnValueError method => "No return value from simulation for " ++ method
  | write e => e.message

/-- The wallet was asked, and refused, as the message has it. -/
def HookError.rejected (e : HookError) : Bool :=
  ["user rejected", "rejected", "user denied", "canceled"].any fun w =>
    w.toList <:+: Thrown.toLowerCase e.message

end Errors

/-- What `@stellar/stellar-sdk` does for the clients of the contracts. -/
structure ContractSdk (Account Tx : Type) extends StellarSdk Account Tx where
  /-- `new Contract(contractId)` -/
  contract : String → Except Thrown Unit
  /-- `new Address(address).toScVal()` -/
  address : String → Except Thrown ScVal
  nativeToScVal : ℤ → String → Except Thrown ScVal
  scValToNative : ScVal → Except Thrown Js

/-- The configuration the web app runs with. -/
structure WebConfig where
  networkPassphrase : String
  poolContractID : String
  invoiceContractID : String
  /-- `asset.contractId(networkPassphrase)` of `TokenClient.forUSDC`. -/
  usdcContractID : Except Thrown String

/-- `APPROVAL_LEDGER_OFFSET` -/
def approvalLedgerOffset : ℕ := 535680

/-- `Buffer.from(text, "hex")`: what comes before the first pair that is no byte. -/
def bufferFromHex : List Char → List UInt8
  | a :: b :: rest =>
    match JsonText.hexDigit? a, JsonText.hexDigit? b with
    | some x, some y => .ofNat (16 * x + y) :: bufferFromHex rest
    | _, _ => []
  | _ => []

section Clients

variable {Account Tx α : Type} (S : ContractSdk Account Tx) (W : WebConfig)

abbrev ReadRun (Account Tx α : Type) : Type := AsyncRun (ReadCall Account Tx) HookError α

abbrev HookRun (Account Tx α : Type) : Type := AsyncRun (HookCall Account Tx) HookError α

/-- An error thrown on the way. -/
def orThrow {κ : Type} (x : Except Thrown α) : AsyncRun κ HookError α :=
  AsyncRun.ofExcept (x.mapError .thrown)

/-- `withRetry` with its default of three attempts. -/
def readRetry (c : Except Thrown α → ReadCall Account Tx) (answer : ℕ → Except Thrown α) :
    ReadRun Account Tx α :=
  AsyncRun.retry
    (fun
      | .thrown e => e.isNetworkError
      | _ => false)
    (fun attempt => .wait (.finite 1000) (attempt - 1))
    (fun attempt => .call (c (answer attempt)) ((answer attempt).mapError .thrown)) 2 1

/-- `new BaseContractClient(contractId)` -/
def newClient (contractId : String) : Except Thrown BaseContractClient :=
  if contractId = "" then .error (.error "Contract ID is required")
  else (S.contract contractId).map fun _ => ⟨contractId, defaultMutationRetryPolicy⟩

def readContract (client : BaseContractClient) (method : String) (args : List ScVal)
    (publicKey : String) (parse : ScVal → Except Thrown α) (ans : ReadAnswers Account) :
    ReadRun Account Tx α := do
  let account ← readRetry (.getAccount publicKey) ans.getAccount
  let tx ← orThrow (S.build account W.networkPassphrase client.contractId method args)
  let sim ← readRetry (.simulateTransaction tx) ans.simulateTransaction
  match sim with
  | .error message => AsyncRun.throw (.simulationError method message)
  | .success none => AsyncRun.throw (.missingReturnValueError method)
  | .success (some retval) => orThrow (parse retval)

/-- A read of a mutation. -/
def hookRead (client : BaseContractClient) (method : String) (args : List ScVal)
    (publicKey : String) (parse : ScVal → Except Thrown α) (ans : ReadAnswers Account) :
    HookRun Account Tx α :=
  (readContract S W client method args publicKey parse ans).lift (.read client.contractId method) id

/-- A write of a mutation. -/
def hookWrite (client : BaseContractClient) (method : String) (args : List ScVal)
    (publicKey : String) (ans : Answers Account Tx) (fuel : ℕ) : HookRun Account Tx String :=
  (writeContract S.toStellarSdk client ans W.networkPassphrase method args publicKey fuel).lift
    (.write client.contractId method) .write

/-- What `allowance` makes of the value the contract returns. -/
def allowanceOf (val : ScVal) : Except Thrown ℤ := do
  match ← S.scValToNative val with
  | .bigint n => return n
  | native => (Js.string (native.or (.number (.finite 0))).toString).toBigInt

/-- The `args` of `TokenClient.allowance`. -/
def allowanceArgs (owner spender : String) : Except Thrown (List ScVal) := do
  return [← S.address owner, ← S.address spender]

/-- `TokenClient.allowance` -/
def allowance (client : BaseContractClient) (owner spender signerPublicKey : String)
    (ans : ReadAnswers Account) : HookRun Account Tx ℤ := do
  let args ← orThrow (allowanceArgs S owner spender)
  hookRead S W client "allowance" args signerPublicKey (allowanceOf S) ans

/-- The `args` of `TokenClient.approve`. -/
def approveArgs (owner spender : String) (amount : ℤ) (expirationLedger : ℕ) :
    Except Thrown (List ScVal) := do
  return [← S.address owner, ← S.address spender, ← S.nativeToScVal amount "i128",
    ← S.nativeToScVal expirationLedger "u32"]

/-- `TokenClient.approve` -/
def approve (client : BaseContractClient) (owner spender : String) (amount : ℤ)
    (expirationLedger : ℕ) (signerPublicKey : String) (ans : Answers Account Tx) (fuel : ℕ) :
    HookRun Account Tx String := do
  let args ← orThrow (approveArgs S owner spender amount expirationLedger)
  hookWrite S W client "approve" args signerPublicKey ans fuel

/-- The `args` of `PoolClient.deposit`. -/
def depositArgs (lp : String) (usdcAmount : ℤ) : Except Thrown (List ScVal) := do
  return [← S.address lp, ← S.nativeToScVal usdcAmount "u128"]

/-- `PoolClient.deposit` -/
def deposit (client : BaseContractClient) (lp : String) (usdcAmount : ℤ) (signerPublicKey : String)
    (ans : Answers Account Tx) (fuel : ℕ) : HookRun Account Tx String := do
  let args ← orThrow (depositArgs S lp usdcAmount)
  hookWrite S W client "deposit" args signerPublicKey ans fuel

/-- `parseInvoice`, which throws where the schema fails. -/
def parseInvoice (native : Js) : Except Thrown Invoice := do
  match ← safeParse (normalizeKeys (native.record?.getD [])) with
  | none => .error (.error "ZodError")
  | some invoice => return invoice

/-- What `get` makes of the value the contract returns. -/
def invoiceOf (val : ScVal) : Except Thrown Invoice := do parseInvoice (← S.scValToNative val)

/-- `InvoiceClient.get` -/
def getInvoice (client : BaseContractClient) (invoiceIdHex signerPublicKey : String)
    (ans : ReadAnswers Account) : HookRun Account Tx Invoice :=
  hookRead S W client "get" [.bytes (bufferFromHex invoiceIdHex.toList)] signerPublicKey
    (invoiceOf S) ans

/-- `InvoiceClient.repay` -/
def repay (client : BaseContractClient) (invoiceIdHex signerPublicKey : String)
    (ans : Answers Account Tx) (fuel : ℕ) : HookRun Account Tx Bool := do
  let _ ← hookWrite S W client "repay" [.bytes (bufferFromHex invoiceIdHex.toList)] signerPublicKey
    ans fuel
  return true

end Clients

section Mutations

/-- The answers a mutation is given. -/
structure HookAnswers (Account Tx : Type) where
  get : ReadAnswers Account
  allowance : ReadAnswers Account
  getLatestLedger : Except Thrown ℕ
  approve : Answers Account Tx
  transfer : Answers Account Tx

variable {Account Tx : Type} (S : ContractSdk Account Tx) (W : WebConfig)

def ensureAllowance (address : Option String) (spenderContractId : String) (amount : ℤ)
    (ans : HookAnswers Account Tx) (fuel : ℕ) : HookRun Account Tx Unit :=
  match address.filter (· ≠ "") with
  | none => AsyncRun.throw (.thrown (.error "Wallet not connected"))
  | some address => do
    let tokenClient ← orThrow do newClient S (← W.usdcContractID)
    let currentAllowance ← allowance S W tokenClient address spenderContractId address ans.allowance
    if amount ≤ currentAllowance then return ()
    else
      let latestLedger ← (.call (.getLatestLedger ans.getLatestLedger)
        (ans.getLatestLedger.mapError .thrown) : HookRun Account Tx ℕ)
      let _ ← approve S W tokenClient address spenderContractId amount
        (latestLedger + approvalLedgerOffset) address ans.approve fuel

/-- The `mutationFn` of `depositMutation`. -/
def depositMutation (address : Option String) (amount : ℤ) (asset : AssetType)
    (ans : HookAnswers Account Tx) (fuel : ℕ) : HookRun Account Tx String :=
  match address.filter (· ≠ "") with
  | none => AsyncRun.throw (.thrown (.error "Wallet not connected"))
  | some lp => do
    if asset = .usdc then ensureAllowance S W address W.poolContractID amount ans fuel
    let poolClient ← orThrow (newClient S W.poolContractID)
    deposit S W poolClient lp amount lp ans.transfer fuel

/-- The `mutationFn` of `repayInvoiceMutation`. -/
def repayInvoiceMutation (address : Option String) (invoiceId : String)
    (ans : HookAnswers Account Tx) (fuel : ℕ) : HookRun Account Tx Bool :=
  match address.filter (· ≠ "") with
  | none => AsyncRun.throw (.thrown (.error "Wallet not connected"))
  | some payer => do
    let client ← orThrow (newClient S W.invoiceContractID)
    let invoice ← getInvoice S W client invoiceId payer ans.get
    (ensureAllowance S W address W.invoiceContractID invoice.faceValue ans fuel).recover fun e =>
      if e.rejected then AsyncRun.throw (.thrown (.error "Allowance rejected"))
      else AsyncRun.throw e
    repay S W client invoiceId payer ans.transfer fuel

end Mutations

end TrusTrove
