import TrusTrove.Xdr
import TrusTrove.Lib.Interaction

/-!
# The write path of the SDK

`packages/sdk/src/base.ts`: `writeContract` builds, simulates, prepares, signs, broadcasts and
confirms one transaction. The RPC server and the wallet are the answers they give, one stream for
each kind of call; the parts of `@stellar/stellar-sdk` that build and read transactions are
parameters.
-/

namespace TrusTrove

open Interaction

/-- A JavaScript number. -/
inductive Double
  | nan
  | negInf
  | finite (q : ℚ)
  | posInf
  deriving DecidableEq

namespace Double

/-- `a <= b`, false as soon as one side is `NaN`. -/
def le : Double → Double → Bool
  | nan, _ | _, nan => false
  | negInf, _ | _, posInf => true
  | posInf, _ | _, negInf => false
  | finite a, finite b => a ≤ b

/-- `a < b` -/
def lt (a b : Double) : Bool := le a b && !le b a

/-- `Math.max(a, b)` -/
def max : Double → Double → Double
  | nan, _ | _, nan => nan
  | negInf, b => b
  | a, negInf => a
  | posInf, _ | _, posInf => posInf
  | finite a, finite b => finite (Max.max a b)

/-- `n++` on a counter: past `2 ^ 53` the sum rounds back to `n`. -/
def increment (n : ℕ) : ℕ := if n < 2 ^ 53 then n + 1 else n

end Double

/-- What a call may throw. -/
inductive Thrown
  | typeError (message : String)
  | error (message : String)
  | other
  deriving DecidableEq, Repr

namespace Thrown

/-- `toLowerCase`, as far as ASCII letters come out of it. -/
def toLowerCase (s : String) : List Char :=
  -- the Kelvin sign is the one letter outside ASCII whose lower case is an ASCII letter alone
  s.toList.map fun c => if c = Char.ofNat 0x212a then 'k' else c.toLower

def networkWords : List String :=
  ["fetch", "network", "timeout", "abort", "econnrefused", "enotfound", "econnreset", "eai_again",
    "etimedout"]

def mentionsNetwork (message : String) : Bool :=
  networkWords.any fun w => w.toList <:+: toLowerCase message

def isNetworkError : Thrown → Bool
  | typeError _ => true
  | error message => mentionsNetwork message
  | other => mentionsNetwork ""

end Thrown

structure MutationRetryPolicy where
  maxAttempts : Double
  baseDelayMs : Double
  deriving DecidableEq

def defaultMutationRetryPolicy : MutationRetryPolicy := ⟨.finite 3, .finite 1000⟩

structure BaseContractClient where
  contractId : String
  mutationRetryPolicy : MutationRetryPolicy

/-- How `writeContract` rejects: an error of one of its calls, or one of its own. -/
inductive WriteError
  | thrown (e : Thrown)
  | simulationError (method cause : String)
  | transactionSendError (method : String) (sorobanError : Option String)
  | transactionTryAgainLaterError (method txHash : String) (attempts : Double)
  | transactionTimeoutError (txHash : String)
  | transactionFailedError (method : String)
  deriving DecidableEq

/-- `isSimulationError` tells the two kinds of answer apart. -/
inductive SimulateTransactionResponse
  | error (message : String)
  | success
  deriving DecidableEq, Repr

inductive SendStatus
  | pending
  | duplicate
  | tryAgainLater
  | error
  | other (status : String)
  deriving DecidableEq, Repr

/-- An answer of `sendTransaction`; `errorResult` is its base64 text. -/
structure SendResponse where
  status : SendStatus
  hash : String
  errorResult : Option String
  deriving DecidableEq, Repr

inductive GetStatus
  | success
  | notFound
  | failed
  | other (status : String)
  deriving DecidableEq, Repr

/-- What `TransactionBuilder` and `Transaction` do for the client. -/
structure StellarSdk (Account Tx : Type) where
  /-- `new TransactionBuilder(account, ..).addOperation(contract.call(method, ...args)).build()` -/
  build : Account → String → String → String → List ScVal → Except Thrown Tx
  toXDR : Tx → String
  fromXDR : String → String → Except Thrown Tx

/-- A call of `writeContract` with its answer. `round` counts the polls of a confirmation. -/
inductive SdkCall (Account Tx : Type)
  | getAccount (publicKey : String) (answer : Except Thrown Account)
  | simulateTransaction (tx : Tx) (answer : Except Thrown SimulateTransactionResponse)
  | prepareTransaction (tx : Tx) (answer : Except Thrown Tx)
  | signTransaction (xdr network networkPassphrase accountToSign : String)
      (answer : Except Thrown String)
  | sendTransaction (tx : Tx) (answer : Except Thrown SendResponse)
  | getTransaction (round : ℕ) (hash : String) (answer : Except Thrown GetStatus)
  /-- A timer of `base * 2 ** doublings` milliseconds. -/
  | wait (base : Double) (doublings : ℕ)

/-- The answers: by attempt, for a broadcast by its place among the broadcasts, and for a poll by
round and attempt. -/
structure Answers (Account Tx : Type) where
  getAccount : ℕ → Except Thrown Account
  simulateTransaction : ℕ → Except Thrown SimulateTransactionResponse
  prepareTransaction : ℕ → Except Thrown Tx
  signTransaction : Except Thrown String
  sendTransaction : ℕ → Except Thrown SendResponse
  getTransaction : ℕ → ℕ → Except Thrown GetStatus

def publicPassphrase : String := "Public Global Stellar Network ; September 2015"

def maxTransactionPollAttempts : ℕ := 30

section Client

variable {Account Tx α : Type}

abbrev SdkRun (Account Tx α : Type) : Type := AsyncRun (SdkCall Account Tx) WriteError α

/-- One awaited call. -/
def request (c : Except Thrown α → SdkCall Account Tx) (answer : Except Thrown α) :
    SdkRun Account Tx α :=
  .call (c answer) (answer.mapError .thrown)

/-- A timer, which always fires. -/
def sleep (base : Double) (doublings : ℕ) : SdkRun Account Tx Unit :=
  .call (.wait base doublings) (.ok ())

/-- The attempts of `withRetry` from one on, with `left` to follow it. -/
def withRetryFrom (fn : ℕ → SdkRun Account Tx α) : (left attempt : ℕ) → SdkRun Account Tx α
  | 0, attempt => fn attempt
  | left + 1, attempt =>
    (fn attempt).recover fun
      | .thrown e =>
        if e.isNetworkError then do
          sleep (.finite 1000) (attempt - 1)
          withRetryFrom fn left (attempt + 1)
        else AsyncRun.throw (.thrown e)
      | e => AsyncRun.throw e

/-- `withRetry` with its default of three attempts. -/
def withRetry (c : Except Thrown α → SdkCall Account Tx) (answer : ℕ → Except Thrown α) :
    SdkRun Account Tx α :=
  withRetryFrom (fun attempt => request c (answer attempt)) 2 1

variable (sdk : StellarSdk Account Tx) (client : BaseContractClient) (ans : Answers Account Tx)

/-- The part of `writeContract` up to the signed transaction. -/
def signedTransaction (networkPassphrase method : String) (args : List ScVal) (publicKey : String) :
    SdkRun Account Tx Tx := do
  let account ← withRetry (.getAccount publicKey) ans.getAccount
  let tx ← AsyncRun.ofExcept
    ((sdk.build account networkPassphrase client.contractId method args).mapError .thrown)
  let sim ← withRetry (.simulateTransaction tx) ans.simulateTransaction
  match sim with
  | .error message => AsyncRun.throw (.simulationError method message)
  | .success => do
    let prepared ← withRetry (.prepareTransaction tx) ans.prepareTransaction
    let network := if networkPassphrase = publicPassphrase then "PUBLIC" else "TESTNET"
    let signed ← request
      (.signTransaction (sdk.toXDR prepared) network networkPassphrase publicKey)
        ans.signTransaction
    AsyncRun.ofExcept ((sdk.fromXDR signed networkPassphrase).mapError .thrown)

/-- The loop of `broadcast`, `sent` broadcasts into it, for at most `fuel` rounds. -/
def broadcastFrom (method : String) (tx : Tx) (maxAttempts : Double) :
    (fuel sent attempt : ℕ) → (lastRefusedHash : String) → SdkRun Account Tx SendResponse
  | 0, _, _, _ => .running
  | fuel + 1, sent, attempt, lastRefusedHash =>
    if Double.le (.finite attempt) maxAttempts then do
      let result ← request (.sendTransaction tx) (ans.sendTransaction sent)
      match result.status with
      | .tryAgainLater => do
        if Double.lt (.finite attempt) maxAttempts then
          sleep client.mutationRetryPolicy.baseDelayMs (attempt - 1)
        broadcastFrom method tx maxAttempts fuel (sent + 1) (Double.increment attempt) result.hash
      | .error => AsyncRun.throw (.transactionSendError method result.errorResult)
      | .pending | .duplicate | .other _ => pure result
    else AsyncRun.throw (.transactionTryAgainLaterError method lastRefusedHash maxAttempts)

def broadcast (method : String) (tx : Tx) (fuel : ℕ) : SdkRun Account Tx SendResponse :=
  broadcastFrom client ans method tx
    (Double.max (.finite 1) client.mutationRetryPolicy.maxAttempts) fuel 0 1 ""

/-- The polls of `writeContract`, in round `attempts`, with `left` to follow it. -/
def pollFrom (hash : String) : (left attempts : ℕ) → SdkRun Account Tx GetStatus
  | 0, attempts => withRetry (.getTransaction attempts hash) (ans.getTransaction attempts)
  | left + 1, attempts => do
    let response ← withRetry (.getTransaction attempts hash) (ans.getTransaction attempts)
    match response with
    | .notFound => do
      sleep (.finite 1000) 0
      pollFrom hash left (attempts + 1)
    | response => pure response

/-- The part of `writeContract` after the broadcast. -/
def confirmTransaction (method hash : String) : SdkRun Account Tx String := do
  let response ← pollFrom ans hash (maxTransactionPollAttempts - 1) 1
  match response with
  | .notFound => AsyncRun.throw (.transactionTimeoutError hash)
  | .failed => AsyncRun.throw (.transactionFailedError method)
  | .success | .other _ => pure hash

def writeContract (networkPassphrase method : String) (args : List ScVal) (publicKey : String)
    (fuel : ℕ) : SdkRun Account Tx String := do
  let signed ← signedTransaction sdk client ans networkPassphrase method args publicKey
  let result ← broadcast client ans method signed fuel
  confirmTransaction ans method result.hash

end Client

end TrusTrove
