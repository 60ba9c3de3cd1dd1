import TrusTrove.SorobanRpc

/-!
# Sending an envelope

`submitAndConfirm` of `api/create_invoice.go` up to its first poll: the call of `sendTransaction`,
whose request `CallSorobanRPC` may repeat. The RPC queues an envelope or refuses it; one it has
queued is answered `DUPLICATE` while it is pending and `ERROR` once a ledger has applied it. An
answer may be lost on its way, or replaced by one of a gateway.
-/

namespace TrusTrove

/-- The result of `sendTransaction` that `submitAndConfirm` reads. -/
structure SubmitResp where
  hash : String
  status : String
  error : String
  deriving DecidableEq, Repr

/-- How the envelope stands with the RPC. -/
inductive EnvelopeState
  | fresh
  | pending
  | applied
  deriving DecidableEq, Repr

/-- What the RPC does with an envelope it has not accepted. -/
inductive SendVerdict
  | accept
  | refuse (status error : String)
  | fault (e : JsonRpcError)

/-- How an attempt goes on the wire. A gateway answers in place of the RPC, which may have been
reached; its body is no envelope of JSON-RPC. -/
inductive SendTransport
  | unreached (e : TransportError) (ctxErr : Option GoError)
  | lost (e : TransportError) (ctxErr : Option GoError)
  | gateway (reached : Bool) (statusCode : ℤ) (body : String) (decodeErr : GoError)
  | answered

/-- An attempt of the call: what may end it before its request, whether a ledger applies the pending
envelope before the request, what the RPC would do with a fresh one, and the transport. -/
structure SendAttempt where
  sleep : Option GoError
  newRequest : Option TransportError
  closed : Bool
  verdict : SendVerdict
  transport : SendTransport

def SendTransport.reached : SendTransport → Bool
  | .unreached .. => false
  | .lost .. => true
  | .gateway reached .. => reached
  | .answered => true

/-- A ledger closes. -/
def EnvelopeState.close : Bool → EnvelopeState → EnvelopeState
  | true, .pending => .applied
  | _, s => s

/-- The envelope arrives. -/
def EnvelopeState.send (verdict : SendVerdict) : EnvelopeState → EnvelopeState
  | .fresh =>
    match verdict with
    | .accept => .pending
    | _ => .fresh
  | s => s

/-- The envelope after an attempt. -/
def SendAttempt.after (a : SendAttempt) (s : EnvelopeState) : EnvelopeState :=
  if a.transport.reached then (s.close a.closed).send a.verdict else s.close a.closed

section Submit

variable (hash badSeq : String)

/-- The RPC's answer to an envelope that stands so. -/
def EnvelopeState.answer (verdict : SendVerdict) : EnvelopeState → JsonRpcResponse SubmitResp
  | .fresh =>
    match verdict with
    | .accept => ⟨none, .ok ⟨hash, "PENDING", ""⟩⟩
    | .refuse status error => ⟨none, .ok ⟨hash, status, error⟩⟩
    | .fault e => ⟨some e, .ok ⟨"", "", ""⟩⟩
  | .pending => ⟨none, .ok ⟨hash, "DUPLICATE", ""⟩⟩
  | .applied => ⟨none, .ok ⟨hash, "ERROR", badSeq⟩⟩

def SendAttempt.answer (a : SendAttempt) (s : EnvelopeState) : RpcAnswer SubmitResp :=
  match a.transport with
  | .unreached e ctxErr | .lost e ctxErr => .failed e ctxErr
  | .gateway _ statusCode body decodeErr => .response ⟨statusCode, body, .error decodeErr⟩
  | .answered => .response ⟨200, "", .ok ((s.close a.closed).answer hash badSeq a.verdict)⟩

/-- The attempts as the call meets them. -/
def rpcAttempts : EnvelopeState → List SendAttempt → List (RpcAttempt SubmitResp)
  | _, [] => []
  | s, a :: rest => ⟨a.sleep, a.newRequest, a.answer hash badSeq s⟩ :: rpcAttempts (a.after s) rest

/-- What the call of `sendTransaction` comes to for `submitAndConfirm`. -/
def RpcReturn.sendAnswer (r : RpcReturn SubmitResp) : SendAnswer :=
  match r.err, r.decoded with
  | none, some resp => .answered resp.hash resp.status resp.error
  | _, _ => .lost

/-- The call of `sendTransaction` for a new envelope. -/
def sendTransaction (attempts : List SendAttempt) : RpcCall SubmitResp :=
  callSorobanRPC rpcTuning "sendTransaction" none (rpcAttempts hash badSeq .fresh attempts)

/-- `submitAndConfirm` up to its first poll, `none` while the call waits. -/
def submitAndConfirm (invoiceID : String) (attempts : List SendAttempt) : Option CreatePhase :=
  (sendTransaction hash badSeq attempts).returned.map fun r => submitCreate invoiceID r.sendAnswer

end Submit

end TrusTrove
