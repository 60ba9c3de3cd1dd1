import TrusTrove.CreateInvoice

/-!
# The client of the Soroban RPC

`CallSorobanRPC` of `soroban/rpc.go`: one JSON-RPC call, its request repeated while the failures
look transient. What comes back of a request, and how the context ends a wait, is given attempt by
attempt; a call that has run out of them still waits. A body stands for what package `json` makes of
it. Delays are in nanoseconds.
-/

namespace TrusTrove

/-- An `int` of 64 bits. -/
def int64 (n : ℤ) : ℤ := n.bmod (2 ^ 64)

/-- The retry tuning of package `soroban`. -/
structure RpcTuning where
  maxRetries : ℤ
  retryBaseDelay : ℤ
  retryMaxDelay : ℤ

def rpcTuning : RpcTuning where
  maxRetries := 3
  retryBaseDelay := 100 * 10 ^ 6
  retryMaxDelay := 5 * 10 ^ 9

def isRetryableStatus (code : ℤ) : Bool := code == 429 || (500 ≤ code && code ≤ 599)

/-- The delay before a retry, counted from 1. The shift drops what does not fit 64 bits. -/
def retryDelay (cfg : RpcTuning) (attempt : ℤ) : ℤ :=
  let d := int64 (cfg.retryBaseDelay * 2 ^ (attempt - 1).toNat)
  if d ≤ 0 ∨ cfg.retryMaxDelay < d then cfg.retryMaxDelay else d

/-- An error of `net/http`, with what a `*url.Error` wraps. -/
structure TransportError where
  err : GoError
  urlErr : Option GoError

/-- The error without the URL that a `*url.Error` names. -/
def rpcTransportError (method : String) (e : TransportError) : GoError :=
  .wrap ("soroban RPC " ++ method ++ " request failed") (e.urlErr.getD e.err)

structure JsonRpcError where
  code : ℤ
  message : String

/-- A decoded envelope: its error, and what `json.Unmarshal` makes of its result. -/
structure JsonRpcResponse (α : Type) where
  error : Option JsonRpcError
  result : Except GoError α

structure HttpResponse (α : Type) where
  statusCode : ℤ
  body : String
  rpcResp : Except GoError (JsonRpcResponse α)

/-- What comes back of a request: a response, or an error with `ctx.Err()` at that moment. -/
inductive RpcAnswer (α : Type)
  | response (resp : HttpResponse α)
  | failed (e : TransportError) (ctxErr : Option GoError)

/-- What an attempt meets: the end of the context during the delay before it, a URL that makes no
request, and else the answer. -/
structure RpcAttempt (α : Type) where
  sleep : Option GoError
  newRequest : Option TransportError
  answer : RpcAnswer α

/-- The error a call returns, and what it leaves in the caller's value. -/
structure RpcReturn (α : Type) where
  err : Option GoError
  decoded : Option α

/-- A call so far: the delays begun, what came back of its requests, and what it returns. -/
structure RpcCall (α : Type) where
  delays : List ℤ
  requests : List (RpcAnswer α)
  returned : Option (RpcReturn α)

section Call

variable {α : Type} (cfg : RpcTuning) (method : String)

/-- What the loop does with an answer: return, or go on with `lastErr`. -/
def readAnswer : RpcAnswer α → RpcReturn α ⊕ GoError
  | .failed e (some _) => .inl ⟨some e.err, none⟩
  | .failed e none => .inr (rpcTransportError method e)
  | .response resp =>
    if isRetryableStatus resp.statusCode then
      .inr (.new ("soroban RPC returned retryable HTTP status " ++ toString resp.statusCode ++ ": "
        ++ resp.body))
    else if resp.statusCode < 200 ∨ 300 ≤ resp.statusCode then
      .inl ⟨some (.new ("soroban RPC returned HTTP status " ++ toString resp.statusCode ++ ": "
        ++ resp.body)), none⟩
    else
      match resp.rpcResp with
      | .error decodeErr => .inl ⟨some decodeErr, none⟩
      | .ok rpcResp =>
        match rpcResp.error with
        | some e =>
          .inl ⟨some (.new ("rpc error: " ++ e.message ++ " (code " ++ toString e.code ++ ")")),
            none⟩
        | none =>
          match rpcResp.result with
          | .error err => .inl ⟨some err, none⟩
          | .ok result => .inl ⟨none, some result⟩

/-- What ends a call before the request of an attempt. -/
def RpcAttempt.stopped (attempt : ℤ) (a : RpcAttempt α) : Option GoError :=
  (if 0 < attempt then a.sleep else none).or (a.newRequest.map (rpcTransportError method))

/-- The loop of `CallSorobanRPC` from an attempt on. -/
def callFrom : (attempt : ℤ) → (lastErr : Option GoError) → List (RpcAttempt α) → RpcCall α
  | attempt, lastErr, [] =>
    ⟨[], [], if attempt ≤ cfg.maxRetries then none else some ⟨lastErr, none⟩⟩
  | attempt, lastErr, a :: rest =>
    if attempt ≤ cfg.maxRetries then
      let delays := if 0 < attempt then [retryDelay cfg attempt] else []
      match a.stopped method attempt with
      | some err => ⟨delays, [], some ⟨some err, none⟩⟩
      | none =>
        match readAnswer method a.answer with
        | .inl returned => ⟨delays, [a.answer], some returned⟩
        | .inr err =>
          let later := callFrom (int64 (attempt + 1)) (some err) rest
          ⟨delays ++ later.delays, a.answer :: later.requests, later.returned⟩
    else ⟨[], [], some ⟨lastErr, none⟩⟩

/-- `CallSorobanRPC`; `marshal` is the error of the request's body. -/
def callSorobanRPC (marshal : Option GoError) (attempts : List (RpcAttempt α)) : RpcCall α :=
  match marshal with
  | some err => ⟨[], [], some ⟨some err, none⟩⟩
  | none => callFrom cfg method 0 none attempts

end Call

end TrusTrove
