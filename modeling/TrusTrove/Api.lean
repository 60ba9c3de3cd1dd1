import TrusTrove.Queries

/-!
# The invoice endpoints of package `api`

A handler as what it answers and what it does to the database. Its statements run on the pool, each
committed on its own. A request body is what `decodeJSONBody` makes of it, and the caller is the
address `AuthMiddleware` puts in the context.
-/

namespace TrusTrove

open Sql

/-- What a handler writes: the text of `http.Error`, or the fields of `writeJSON`. -/
inductive ResponseBody
  | text (msg : String)
  | fields (m : StringMap String)
  deriving DecidableEq, Repr

structure Response where
  code : ℕ
  body : ResponseBody
  deriving DecidableEq, Repr

/-- `http.Error`. -/
def httpError (msg : String) (code : ℕ) : Response := ⟨code, .text msg⟩

/-- `internalError`: the error itself is only logged. -/
def internalError (requestID msg : String) : Response :=
  httpError (msg ++ " (request id: " ++ requestID ++ ")") 500

/-- Why `decodeJSONBody` refuses a body. -/
inductive BodyError
  | tooLarge
  | malformed
  deriving DecidableEq, Repr

def BodyError.response : BodyError → Response
  | tooLarge => httpError "request body too large" 413
  | malformed => httpError "invalid request body" 400

/-- An authenticated `PATCH /invoices/{id}/status`. -/
structure PatchStatusRequest where
  userAddress : String
  requestID : String
  id : String
  body : Except BodyError String

def handlePatchInvoiceStatus (req : PatchStatusRequest) (O : ℕ → Bool) (s : Db) : Response × Db :=
  if req.id = "" then (httpError "missing invoice id" 400, s)
  else
    match req.body with
    | .error e => (e.response, s)
    | .ok status =>
      if status = "" then (httpError "status is required" 400, s)
      else
        match autocommit (updateInvoiceStatus req.id status) O s with
        | (.error _, s') => (internalError req.requestID "failed to update invoice status", s')
        | (.ok (), s') => (⟨200, .fields [("id", req.id), ("status", status)]⟩, s')

end TrusTrove
