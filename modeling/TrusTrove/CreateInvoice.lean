import TrusTrove.Api
import TrusTrove.Challenge
import TrusTrove.SorobanXdr

/-!
# Creating invoices

`api/create_invoice.go` with the account it signs for. Every request runs on its own: it reads the
sequence of the server's account, builds a transaction numbered one past it, has it simulated, signs
it, sends it and polls for its result. The calls of the Soroban RPC are the points where other
requests run and where the network applies a transaction. Times are in nanoseconds, due dates and
time bounds in seconds.
-/

namespace TrusTrove

/-- The body of `POST /invoices`. -/
structure CreateInvoiceRequest where
  buyer : String
  faceValue : String
  dueDate : ℤ
  documentHash : String
  deriving DecidableEq, Repr

structure CreateInvoiceParams where
  issuer : String
  buyer : String
  faceValue : ℤ
  dueDate : ℤ
  deriving DecidableEq, Repr

def maxPollAttempts : ℕ := 30

def maxFaceValueDigits : ℕ := 40

def maxDueDateHorizonSeconds : ℤ := 5 * 365 * 24 * 60 * 60

/-- `big.Int.SetString` in base 10: digits after an optional sign. -/
def setString (s : String) : Option ℤ :=
  match s.toList with
  | '-' :: digits => (numeric (String.ofList digits)).map (-·)
  | '+' :: digits => numeric (String.ofList digits)
  | _ => numeric s

theorem setString_repr (n : ℕ) : setString (Nat.repr n) = some (n : ℤ) := by
  unfold setString
  split
  · rename_i digits hd
    have := Nat.isDigit_of_mem_toDigits (b := 10) (n := n) (c := '-') (by omega) (by omega)
    simp_all
  · rename_i digits hd
    have := Nat.isDigit_of_mem_toDigits (b := 10) (n := n) (c := '+') (by omega) (by omega)
    simp_all
  · exact numeric_repr n

/-- `strconv.ParseInt` in base 10 with 64 bits. -/
def parseInt64 (s : String) : Option ℤ :=
  (setString s).filter fun n => -2 ^ 63 ≤ n && n < 2 ^ 63

/-- `documentHashPattern`. -/
def documentHashPattern (s : String) : Bool :=
  s.length == 64 && s.toList.all fun c => c.isDigit || ('a' ≤ c && c ≤ 'f')

def validateDueDate (dueDate now : ℤ) : Except Response ℤ :=
  if dueDate ≤ unix now then
    .error (httpError "invalid due date: due_date must be a future Unix timestamp" 400)
  else if unix now + maxDueDateHorizonSeconds < dueDate then
    .error (httpError ("invalid due date: due_date exceeds the maximum horizon of "
      ++ toString (maxDueDateHorizonSeconds / (24 * 60 * 60)) ++ " days from now") 400)
  else .ok dueDate

/-- `validateCreateInvoiceRequest`; `parse` is `keypair.Parse`. -/
def validateCreateInvoiceRequest (parse : String → Bool) (userAddress : Option String)
    (body : CreateInvoiceRequest) (now : ℤ) : Except Response CreateInvoiceParams :=
  match userAddress.filter (· ≠ "") with
  | none => .error (httpError "Unauthorized: user address missing from context" 401)
  | some issuer =>
    if body.buyer = "" ∨ body.faceValue = "" ∨ body.dueDate ≤ 0 then
      .error (httpError "missing required invoice parameters" 400)
    else if body.documentHash ≠ "" ∧ !documentHashPattern body.documentHash then
      .error (httpError ("invalid document_hash: must be 64 lowercase hexadecimal characters "
        ++ "without a 0x prefix") 400)
    else if !parse body.buyer then .error (httpError "invalid buyer address" 400)
    else if maxFaceValueDigits < body.faceValue.utf8ByteSize then
      .error (httpError
        "invalid face value: face_value exceeds the u128 range (max 2^128 - 1)" 400)
    else
      match (setString body.faceValue).filter (0 < ·) with
      | none => .error (httpError "invalid face value" 400)
      | some faceValue =>
        if 2 ^ 128 ≤ faceValue then
          .error (httpError
            "invalid face value: face_value exceeds the u128 range (max 2^128 - 1)" 400)
        else do
          let dueDate ← validateDueDate body.dueDate now
          return ⟨issuer, body.buyer, faceValue, dueDate⟩

/-- The invocation of the invoice contract's `create`. -/
structure CreateOp where
  contractID : String
  params : CreateInvoiceParams
  deriving DecidableEq, Repr

/-- What the signature of an envelope covers. -/
structure InvoiceTx where
  sequence : ℤ
  fee : ℤ
  maxTime : ℤ
  op : CreateOp
  sorobanData : Option String
  deriving DecidableEq, Repr

/-- What the code uses of packages `xdr`, `keypair` and `txnbuild`. An envelope that cannot be
signed names the step that failed. -/
structure InvoiceTools where
  parse : String → Bool
  makeAddressScVal : String → Bool
  invokable : String → Bool
  newTransaction : InvoiceTx → Bool
  base64 : InvoiceTx → Option String
  parseInvoiceID : String → Except String String
  unmarshalData : String → Bool
  sign : InvoiceTx → Except String String

/-- The answer of `simulateTransaction`. -/
structure SimulateResponse where
  transactionData : String
  minResourceFee : String
  results : List String

/-- `buildCreateInvoiceOp` with the arguments it builds; `decode` is `strkey.Decode`. -/
def buildCreateInvocation (decode : VersionByte → String → Except GoError (List UInt8))
    (contractID : String) (params : CreateInvoiceParams) : Except Response InvokeContractArgs :=
  match makeAddressScVal decode params.issuer with
  | .error _ => .error (httpError "failed to build issuer address" 500)
  | .ok issuerVal =>
    match makeAddressScVal decode params.buyer with
    | .error _ => .error (httpError "failed to build buyer address" 500)
    | .ok buyerVal =>
      match makeU128ScVal (some params.faceValue) with
      | .error err => .error (httpError ("invalid face value: " ++ err.msg) 400)
      | .ok faceValueVal =>
        let dueDateVal := makeU64ScVal (.ofInt params.dueDate)
        match buildInvokeContractOp decode contractID "create"
          [issuerVal, buyerVal, faceValueVal, dueDateVal] with
        | .error _ => .error (httpError "failed to build contract operation" 500)
        | .ok op => .ok op

section Build

variable (T : InvoiceTools)

/-- `buildCreateInvoiceOp`, keeping what the arguments are built from. -/
def buildCreateInvoiceOp (contractID : String) (params : CreateInvoiceParams) :
    Except Response CreateOp :=
  if !T.makeAddressScVal params.issuer then .error (httpError "failed to build issuer address" 500)
  else if !T.makeAddressScVal params.buyer then
    .error (httpError "failed to build buyer address" 500)
  else
    match makeU128ScVal (some params.faceValue) with
    | .error err => .error (httpError ("invalid face value: " ++ err.msg) 400)
    | .ok _ =>
      if !T.invokable contractID then
        .error (httpError "failed to build contract operation" 500)
      else .ok ⟨contractID, params⟩

/-- `fetchServerSequence`; `none` is a call that failed. -/
def fetchServerSequence (answer : Option String) : Except Response ℤ :=
  match answer with
  | none => .error (httpError "failed to fetch server account" 500)
  | some sequence =>
    match parseInt64 sequence with
    | none => .error (httpError "failed to parse sequence number" 500)
    | some seq => .ok seq

/-- `buildCreateInvoiceTx` up to the simulation: the transaction and its text. -/
def assembleTx (contractID : String) (params : CreateInvoiceParams) (answer : Option String)
    (now : ℤ) : Except Response (InvoiceTx × String) := do
  let seq ← fetchServerSequence answer
  let op ← buildCreateInvoiceOp T contractID params
  let tx : InvoiceTx := ⟨seq + 1, minBaseFee, unix (now + 60 * 60 * 10 ^ 9), op, none⟩
  if !T.newTransaction tx then .error (httpError "failed to construct transaction" 500)
  else
    match T.base64 tx with
    | none => .error (httpError "failed to encode transaction to base64" 500)
    | some txBase64 => .ok (tx, txBase64)

/-- `simulateCreateInvoiceTx`: the simulation and the id of the invoice. -/
def simulateCreateInvoiceTx (answer : Option SimulateResponse) :
    Except Response (SimulateResponse × String) :=
  match answer with
  | none => .error (httpError "simulation failed" 500)
  | some simResp =>
    match simResp.results with
    | [] => .error (httpError "simulation did not yield a result" 500)
    | xdr :: _ =>
      match T.parseInvoiceID xdr with
      | .error err => .error (httpError ("failed to parse generated invoice id: " ++ err) 500)
      | .ok invoiceID => .ok (simResp, invoiceID)

/-- `signCreateInvoiceTx`: the envelope with the simulated data and fee, and its signed text. -/
def signCreateInvoiceTx (tx : InvoiceTx) (simResp : SimulateResponse) :
    Except Response (InvoiceTx × String) :=
  if !T.unmarshalData simResp.transactionData then
    .error (httpError "failed to unmarshal simulation transaction data" 500)
  else
    match parseInt64 simResp.minResourceFee with
    | none => .error (httpError "failed to parse resource fee" 500)
    | some resFee =>
      let env : InvoiceTx :=
        { tx with fee := (tx.fee + resFee) % 2 ^ 32, sorobanData := some simResp.transactionData }
      match T.sign env with
      | .error msg => .error (httpError msg 500)
      | .ok signedTx => .ok (env, signedTx)

end Build

/-- An envelope on the network, with the request it is of and how many transactions of the account
had been applied when that request read its sequence. -/
structure SentEnvelope where
  request : ℕ
  env : InvoiceTx
  readAt : ℕ
  deriving DecidableEq, Repr

/-- Where a request of `HandleCreateInvoice` is. -/
inductive CreatePhase
  | validated (params : CreateInvoiceParams)
  | built (tx : InvoiceTx) (readAt : ℕ)
  | signed (env : InvoiceTx) (invoiceID : String) (readAt : ℕ)
  | polling (hash invoiceID : String) (attempts : ℕ)
  | answered (response : Response)
  deriving DecidableEq, Repr

structure CreateCall where
  requestID : String
  documentHash : String
  phase : CreatePhase
  deriving DecidableEq, Repr

/-- The server's account on the network, how many transactions of it have been applied, the requests
in order of arrival and the envelopes sent. -/
structure CreateWorld where
  sequence : ℕ
  applied : ℕ
  calls : List CreateCall
  sent : List SentEnvelope

/-- How `sendTransaction` goes: the call fails before or after the envelope is on the network, or is
answered. -/
inductive SendAnswer
  | unreached
  | lost
  | answered (hash status error : String)

/-- How `getTransaction` goes: the call fails, or is answered and the wait for the next one then
ends by the delay or by the request's cancellation. -/
inductive PollAnswer
  | failed
  | answered (status error : String) (cancelled : Option String)

/-- A step of some request, or of the network closing a ledger with an envelope. -/
inductive CreateStep
  | arrive (requestID : String) (userAddress : Option String)
      (body : Except BodyError CreateInvoiceRequest) (now : ℤ)
  | fetchServerSequence (i : ℕ) (reached : Bool) (now : ℤ)
  | simulate (i : ℕ) (answer : Option SimulateResponse)
  | send (i : ℕ) (answer : SendAnswer)
  | poll (i : ℕ) (answer : PollAnswer) (stored : Bool)
  | close (k : ℕ)

section Step

variable (T : InvoiceTools) (contractID : String)

def CreateCall.goto (c : CreateCall) (phase : CreatePhase) : CreateCall := { c with phase }

/-- Up to validation. -/
def receiveCreate (requestID : String) (userAddress : Option String)
    (body : Except BodyError CreateInvoiceRequest) (now : ℤ) : CreateCall :=
  match body with
  | .error e => ⟨requestID, "", .answered e.response⟩
  | .ok body =>
    match validateCreateInvoiceRequest T.parse userAddress body now with
    | .error response => ⟨requestID, body.documentHash, .answered response⟩
    | .ok params => ⟨requestID, body.documentHash, .validated params⟩

/-- `submitAndConfirm` up to the first poll. -/
def submitCreate (invoiceID : String) (answer : SendAnswer) : CreatePhase :=
  match answer with
  | .unreached => .answered (httpError "failed to send transaction" 500)
  | .lost => .answered (httpError "failed to send transaction" 500)
  | .answered hash status error =>
    if status = "ERROR" then
      .answered (httpError ("transaction submission rejected: " ++ error) 500)
    else .polling hash invoiceID 0

/-- One round of `awaitTransaction`, and the end of the handler after the last. `stored` is whether
the statement on the document's hash succeeds. -/
def pollCreate (c : CreateCall) (hash invoiceID : String) (attempts : ℕ) (answer : PollAnswer)
    (stored : Bool) : CreatePhase :=
  match answer with
  | .failed => .answered (httpError "failed to poll transaction" 500)
  | .answered status error cancelled =>
    if status = "SUCCESS" then
      if c.documentHash ≠ "" ∧ !stored then
        .answered (internalError c.requestID "failed to store invoice document hash")
      else
        .answered ⟨201, .fields [("invoice_id", invoiceID), ("transaction_hash", hash),
          ("status", status)]⟩
    else if status = "FAILED" then
      if error ≠ "" then .answered (httpError ("transaction failed on-chain: " ++ error) 500)
      else .answered (httpError "transaction failed on-chain" 500)
    else if maxPollAttempts ≤ attempts + 1 then
      .answered (httpError ("transaction confirmation timed out after "
        ++ toString maxPollAttempts ++ " attempts: " ++ hash) 504)
    else
      match cancelled with
      | some err => .answered (httpError ("request cancelled: " ++ err) 504)
      | none => .polling hash invoiceID (attempts + 1)

/-- The call of the RPC that reads the account answers with its last applied sequence. The network
applies an envelope that carries the next one. -/
def CreateStep.apply : CreateStep → CreateWorld → CreateWorld
  | arrive requestID userAddress body now, w =>
    { w with calls := w.calls ++ [receiveCreate T requestID userAddress body now] }
  | fetchServerSequence i reached now, w =>
    match w.calls[i]? with
    | some c =>
      match c.phase with
      | .validated params =>
        let answer := if reached then some (Nat.repr w.sequence) else none
        match assembleTx T contractID params answer now with
        | .error response => { w with calls := w.calls.set i (c.goto (.answered response)) }
        | .ok (tx, _) => { w with calls := w.calls.set i (c.goto (.built tx w.applied)) }
      | _ => w
    | none => w
  | simulate i answer, w =>
    match w.calls[i]? with
    | some c =>
      match c.phase with
      | .built tx readAt =>
        let signed := do
          let (simResp, invoiceID) ← simulateCreateInvoiceTx T answer
          let (env, _) ← signCreateInvoiceTx T tx simResp
          return (env, invoiceID)
        match signed with
        | .error response => { w with calls := w.calls.set i (c.goto (.answered response)) }
        | .ok (env, invoiceID) =>
          { w with calls := w.calls.set i (c.goto (.signed env invoiceID readAt)) }
      | _ => w
    | none => w
  | send i answer, w =>
    match w.calls[i]? with
    | some c =>
      match c.phase with
      | .signed env invoiceID readAt =>
        let sent := match answer with
          | .unreached => w.sent
          | _ => w.sent ++ [⟨i, env, readAt⟩]
        { w with calls := w.calls.set i (c.goto (submitCreate invoiceID answer)), sent }
      | _ => w
    | none => w
  | poll i answer stored, w =>
    match w.calls[i]? with
    | some c =>
      match c.phase with
      | .polling hash invoiceID attempts =>
        { w with
          calls := w.calls.set i (c.goto (pollCreate c hash invoiceID attempts answer stored)) }
      | _ => w
    | none => w
  | close k, w =>
    match w.sent[k]? with
    | some e =>
      if e.env.sequence = w.sequence + 1 then
        { w with sequence := w.sequence + 1, applied := w.applied + 1 }
      else w
    | none => w

/-- The world after any interleaving. -/
def createRun (steps : List CreateStep) (w : CreateWorld) : CreateWorld :=
  steps.foldl (fun w step => step.apply T contractID w) w

end Step

end TrusTrove
