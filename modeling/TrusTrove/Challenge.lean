import TrusTrove.Xdr

/-!
# Wallet authentication

`auth/challenge.go`: the challenge the server signs, the checks a submitted one must pass, and the
store of nonces. Calls run concurrently; `put` and `consume` each hold the store's lock, so a call
of `GenerateChallenge` is two steps, up to `put` and `put` itself, and a call of `VerifyChallenge`
is the checks and then `consume`. Times are in nanoseconds, those of a transaction in seconds.
-/

namespace TrusTrove

/-- An operation of a transaction, as far as it is looked at. -/
inductive Operation
  | manageData (sourceAccount name value : String)
  | other (body : String)
  deriving DecidableEq, Repr

/-- What the hash of a transaction covers: `rest` stands for the fields the code leaves at their
defaults. -/
structure Transaction where
  sourceAccount : String
  sequence : ℤ
  baseFee : ℤ
  minTime : ℤ
  maxTime : ℤ
  operations : List Operation
  rest : String
  deriving DecidableEq, Repr

/-- What the code uses of packages `txnbuild` and `keypair`. -/
structure Txnbuild (Hash Signature : Type) where
  newTransaction : Transaction → Except GoError Unit
  hash : String → Transaction → Except GoError Hash
  sign : String → Hash → Signature
  base64 : Transaction → List Signature → Except GoError String
  transactionFromXDR : String → Except GoError (Option (Transaction × List Signature))
  parse : String → Bool
  verify : String → Hash → Signature → Bool

def challengeOperationName : String := "trusttrove auth"

def challengeTTL : ℤ := 15 * 60 * 10 ^ 9

def minBaseFee : ℤ := 100

/-- `t.Unix()`. -/
def unix (t : ℤ) : ℤ := t / 10 ^ 9

/-- `nonceStore`: when each nonce expires. -/
abbrev NonceStore := String → Option ℤ

def NonceStore.put (s : NonceStore) (nonce : String) (expiresAt now : ℤ) : NonceStore :=
  Function.update (fun n => (s n).filter fun exp => now < exp) nonce (some expiresAt)

def NonceStore.consume (s : NonceStore) (nonce : String) (now : ℤ) : Bool × NonceStore :=
  match s nonce with
  | none => (false, s)
  | some expiresAt => (now < expiresAt, Function.update s nonce none)

/-- The server's address and the network's passphrase. -/
structure AuthConfig where
  server : String
  passphrase : String

/-- A challenge: its transaction, and what `put` records of it. -/
structure Challenge where
  tx : Transaction
  clientAddr : String
  nonce : String
  expiresAt : ℤ
  deriving DecidableEq, Repr

/-- What a submission that passed the checks goes to `consume` with. -/
structure Submission where
  tx : Transaction
  clientAddr : String
  nonce : String
  deriving DecidableEq, Repr

section Calls

variable {Hash Signature : Type} (K : Txnbuild Hash Signature) (C : AuthConfig)

/-- The challenge for a nonce. The clock is read once for the expiry and once for the time
bounds. -/
def challengeFor (clientAddr nonceStr : String) (now now' : ℤ) : Challenge where
  tx :=
    { sourceAccount := C.server, sequence := 0, baseFee := minBaseFee
      minTime := unix now', maxTime := unix (now + challengeTTL)
      operations := [.manageData clientAddr challengeOperationName nonceStr], rest := "" }
  clientAddr := clientAddr
  nonce := nonceStr
  expiresAt := now + challengeTTL

/-- `GenerateChallenge` up to `put`: the challenge, its hash and the text that is returned.
`nonce` is what `rand.Read` gave, in base 64. -/
def generateChallenge (clientAddr : String) (nonce : Except GoError String) (now now' : ℤ) :
    Except GoError (Challenge × Hash × String) := do
  let nonceStr ← nonce
  let challenge := challengeFor C clientAddr nonceStr now now'
  K.newTransaction challenge.tx
  let txHash ← K.hash C.passphrase challenge.tx
  let signed ← K.base64 challenge.tx [K.sign C.server txHash]
  return (challenge, txHash, signed)

/-- The loop over the signatures: whether the server signed, and whether the client did. -/
def checkSignatures (clientAddr : String) (txHash : Hash) :
    List Signature → Bool × Bool → Bool × Bool
  | [], signed => signed
  | sig :: sigs, (serverSigned, clientSigned) =>
    if K.verify C.server txHash sig then checkSignatures clientAddr txHash sigs (true, clientSigned)
    else if K.parse clientAddr && K.verify clientAddr txHash sig then
      checkSignatures clientAddr txHash sigs (serverSigned, true)
    else checkSignatures clientAddr txHash sigs (serverSigned, clientSigned)

/-- `VerifyChallenge` up to `consume`. -/
def checkChallenge (signedXDR : String) (now : ℤ) : Except GoError Submission := do
  match ← (K.transactionFromXDR signedXDR).mapError (.wrap "failed to parse XDR") with
  | none => .error (.new "invalid transaction type")
  | some (tx, signatures) =>
    if tx.sourceAccount ≠ C.server then .error (.new "invalid server source account") else
    match tx.operations with
    | [.manageData clientAddr name nonce] =>
      if clientAddr = "" then .error (.new "client source account is empty") else
      if name ≠ challengeOperationName then .error (.new ("invalid operation name: " ++ name)) else
      if nonce = "" then .error (.new "challenge nonce is missing") else
      if tx.maxTime = 0 then .error (.new "timebounds must be set") else
      if unix now < tx.minTime ∨ tx.maxTime < unix now then
        .error (.new "challenge has expired or is not yet valid") else
      let txHash ← (K.hash C.passphrase tx).mapError (.wrap "failed to get transaction hash")
      let (serverSigned, clientSigned) :=
        checkSignatures K C clientAddr txHash signatures (false, false)
      if !serverSigned then .error (.new "missing server signature") else
      if !clientSigned then .error (.new "missing client signature") else
      return ⟨tx, clientAddr, nonce⟩
    | [.other _] => .error (.new "operation must be ManageData")
    | _ => .error (.new "must contain exactly one operation")

/-- The rest of `VerifyChallenge`. -/
def consumeChallenge (sub : Submission) (now : ℤ) (s : NonceStore) :
    Except GoError String × NonceStore :=
  let (ok, s') := s.consume sub.nonce now
  if ok then (.ok sub.clientAddr, s')
  else (.error (.new "challenge nonce is invalid, expired, or already used"), s')

/-- `VerifyChallenge` with nothing in between. -/
def verifyChallenge (signedXDR : String) (now now' : ℤ) (s : NonceStore) :
    Except GoError String × NonceStore :=
  match checkChallenge K C signedXDR now with
  | .error e => (.error e, s)
  | .ok sub => consumeChallenge sub now' s

end Calls

/-- A successful call of `VerifyChallenge`. -/
structure Redemption where
  tx : Transaction
  clientAddr : String
  time : ℤ
  deriving DecidableEq, Repr

/-- The server's store, the calls under way, and what has happened: the challenges issued, those
redeemed, and the hashes each key has signed. -/
structure AuthWorld (Hash : Type) where
  clock : ℤ
  store : NonceStore
  building : List Challenge
  issued : List Challenge
  passed : List Submission
  redeemed : List Redemption
  signed : List (String × Hash)

/-- A server that has just started. -/
def AuthWorld.init (Hash : Type) (clock : ℤ) : AuthWorld Hash :=
  ⟨clock, fun _ => none, [], [], [], [], []⟩

/-- One step of some call, or of a holder of a key. The server also signs the invoice transactions
it builds. -/
inductive AuthStep (Hash : Type)
  | generate (clientAddr : String) (nonce : Except GoError String) (now now' : ℤ)
  | put (i : ℕ) (now : ℤ)
  | sign (address : String) (txHash : Hash)
  | signInvoice (tx : Transaction)
  | check (signedXDR : String) (now : ℤ)
  | consume (i : ℕ) (now : ℤ)

section Step

variable {Hash Signature : Type} (K : Txnbuild Hash Signature) (C : AuthConfig)

def AuthStep.apply : AuthStep Hash → AuthWorld Hash → AuthWorld Hash
  | generate clientAddr nonce now now', w =>
    match generateChallenge K C clientAddr nonce now now' with
    | .error _ => { w with clock := now' }
    | .ok (challenge, txHash, _) =>
      { w with
        clock := now', building := w.building ++ [challenge]
        signed := w.signed ++ [(C.server, txHash)] }
  | put i now, w =>
    match w.building[i]? with
    | none => { w with clock := now }
    | some c =>
      { w with
        clock := now, store := w.store.put c.nonce c.expiresAt now
        building := w.building.eraseIdx i, issued := w.issued ++ [c] }
  | sign address txHash, w => { w with signed := w.signed ++ [(address, txHash)] }
  | signInvoice tx, w =>
    match K.hash C.passphrase tx with
    | .error _ => w
    | .ok txHash => { w with signed := w.signed ++ [(C.server, txHash)] }
  | check signedXDR now, w =>
    match checkChallenge K C signedXDR now with
    | .error _ => { w with clock := now }
    | .ok sub => { w with clock := now, passed := w.passed ++ [sub] }
  | consume i now, w =>
    match w.passed[i]? with
    | none => { w with clock := now }
    | some sub =>
      match consumeChallenge sub now w.store with
      | (.error _, s) => { w with clock := now, store := s, passed := w.passed.eraseIdx i }
      | (.ok clientAddr, s) =>
        { w with
          clock := now, store := s, passed := w.passed.eraseIdx i
          redeemed := w.redeemed ++ [⟨sub.tx, clientAddr, now⟩] }

/-- Every signature on the submission was made with the key that verifies it. -/
def Unforged (w : AuthWorld Hash) (signedXDR : String) : Prop :=
  ∀ tx sigs txHash, K.transactionFromXDR signedXDR = .ok (some (tx, sigs)) →
    K.hash C.passphrase tx = .ok txHash →
    ∀ sig ∈ sigs, ∀ address, K.verify address txHash sig = true → (address, txHash) ∈ w.signed

/-- What a step may be: the clock does not go back, nonces are distinct, only the server has its
key, and signatures are not forged. -/
def AuthStep.Allowed (w : AuthWorld Hash) : AuthStep Hash → Prop
  | generate _ nonce now now' => w.clock ≤ now ∧ now ≤ now'
      ∧ ∀ n, nonce = .ok n → n ≠ "" ∧ ∀ c ∈ w.building ++ w.issued, c.nonce ≠ n
  | put _ now => w.clock ≤ now
  | sign address _ => address ≠ C.server
  | signInvoice tx => ∀ op ∈ tx.operations, ∃ body, op = .other body
  | check signedXDR now => w.clock ≤ now ∧ Unforged K C w signedXDR
  | consume _ now => w.clock ≤ now

/-- The states any interleaving of calls reaches. -/
inductive AuthReachable : AuthWorld Hash → Prop
  | init (clock : ℤ) (h : 0 ≤ clock) : AuthReachable (.init Hash clock)
  | step {w : AuthWorld Hash} (step : AuthStep Hash) (hw : AuthReachable w)
      (h : step.Allowed K C w) : AuthReachable (step.apply K C w)

end Step

end TrusTrove
