import TrusTrove.CreateInvoice
import TrusTrove.Lib.StableOrder
import TrusTrove.Lib.Table

/-!
# The documents behind invoices

`invoice_document_hashes`: `HandleCreateInvoice` stores the hash of an invoice's document once the
transaction that creates the invoice has succeeded, and `HandleGetInvoicesByDocumentHash` lists the
invoices a document was given for. A run is that of the requests that create invoices, with the
statements that took effect beside it.
-/

namespace TrusTrove

open Sql

/-- A row of `invoice_document_hashes`. -/
structure InvoiceDocumentHash where
  invoiceID : String
  documentHash : String
  createdAt : ℤ
  deriving DecidableEq, Repr

/-- The column widths and `invoice_document_hashes_hash_format`. -/
def InvoiceDocumentHash.fits (r : InvoiceDocumentHash) : Bool :=
  r.invoiceID.length ≤ 64 && documentHashPattern r.documentHash

abbrev DocumentHashes := Table InvoiceDocumentHash InvoiceDocumentHash.invoiceID

/-- How a statement on the pool goes: it fails, or takes effect, of which the connection may be lost
before it tells. -/
inductive Statement
  | failed
  | lost
  | done
  deriving DecidableEq, Repr

section Queries

/-- `StoreInvoiceDocumentHash` -/
def storeInvoiceDocumentHash (invoiceID documentHash : String) (now : ℤ) (statement : Statement)
    (t : DocumentHashes) : Except GoError Unit × DocumentHashes :=
  let row : InvoiceDocumentHash := ⟨invoiceID, documentHash, now⟩
  let err : Except GoError Unit :=
    .error (.wrap "queries: store invoice document hash" driverError)
  if !row.fits then (err, t)
  else
    let stored := t.insertOrUpdate row (fun r => { r with documentHash }) fun _ => rfl
    match statement with
    | .failed => (err, t)
    | .lost => (err, stored)
    | .done => (.ok (), stored)

/-- The order of texts in the database. -/
structure Collation where
  le : String → String → Bool
  trans : ∀ a b c, le a b → le b c → le a c
  total : ∀ a b, le a b ∨ le b a

/-- `ORDER BY created_at, invoice_id` -/
def storedBefore (C : Collation) (a b : InvoiceDocumentHash) : Prop :=
  a.createdAt < b.createdAt ∨ a.createdAt = b.createdAt ∧ C.le a.invoiceID b.invoiceID = true

instance (C : Collation) : DecidableRel (storedBefore C) :=
  fun _ _ => inferInstanceAs (Decidable (_ ∨ _))

/-- `GetInvoiceIDsByDocumentHash` -/
def getInvoiceIDsByDocumentHash (C : Collation) (documentHash : String) (fails : Bool)
    (t : DocumentHashes) : Except GoError (List String) :=
  if fails then .error (.wrap "queries: get invoice ids by document hash" driverError)
  else
    .ok (((t.rows.filter (·.documentHash = documentHash)).insertionSort (storedBefore C)).map
      (·.invoiceID))

/-- The id with `0x` in front, which it may have. -/
def prefixed (id : String) : String := if "0x".toList <+: id.toList then id else "0x" ++ id

/-- `HandleGetInvoicesByDocumentHash`: the `invoiceIds` of its answer. -/
def handleGetInvoicesByDocumentHash (C : Collation) (requestID documentHash : String) (fails : Bool)
    (t : DocumentHashes) : Except Response (List String) :=
  if !documentHashPattern documentHash then
    .error (httpError ("invalid document hash: must be 64 lowercase hexadecimal characters "
      ++ "without a 0x prefix") 400)
  else
    match getInvoiceIDsByDocumentHash C documentHash fails t with
    | .error _ => .error (internalError requestID "failed to get invoices by document hash")
    | .ok ids => .ok (ids.map prefixed)

end Queries

section World

/-- A statement of `StoreInvoiceDocumentHash` that took effect, by the request that issued it. -/
structure DocumentStore where
  request : ℕ
  row : InvoiceDocumentHash
  deriving DecidableEq, Repr

structure DocumentWorld where
  create : CreateWorld
  hashes : DocumentHashes
  stores : List DocumentStore

/-- A step of the requests that create invoices, and what becomes of the statement it issues if it
issues one. -/
structure DocumentStep where
  step : CreateStep
  now : ℤ
  statement : Statement

/-- What a step stores: the last round of a request with a document's hash. -/
def storing (w : CreateWorld) : CreateStep → Option (ℕ × String × String)
  | .poll i (.answered status _ _) _ =>
    match w.calls[i]? with
    | none => none
    | some c =>
      match c.phase with
      | .polling _ invoiceID _ =>
        if status = "SUCCESS" ∧ c.documentHash ≠ "" then some (i, invoiceID, c.documentHash)
        else none
      | _ => none
  | _ => none

/-- The round with the answer of its statement. -/
def CreateStep.withStored (stored : Bool) : CreateStep → CreateStep
  | poll i answer _ => poll i answer stored
  | step => step

/-- The statement takes effect. -/
def DocumentStep.takes (d : DocumentStep) (row : InvoiceDocumentHash) : Bool :=
  row.fits && d.statement ≠ .failed

variable (T : InvoiceTools) (contractID : String)

def DocumentStep.apply (d : DocumentStep) (w : DocumentWorld) : DocumentWorld :=
  match storing w.create d.step with
  | none => { w with create := d.step.apply T contractID w.create }
  | some (i, invoiceID, documentHash) =>
    let stored := storeInvoiceDocumentHash invoiceID documentHash d.now d.statement w.hashes
    let row : InvoiceDocumentHash := ⟨invoiceID, documentHash, d.now⟩
    { create := (d.step.withStored stored.1.isOk).apply T contractID w.create
      hashes := stored.2
      stores := if d.takes row then w.stores ++ [⟨i, row⟩] else w.stores }

/-- The world after any interleaving. -/
def documentRun (steps : List DocumentStep) (w : DocumentWorld) : DocumentWorld :=
  steps.foldl (fun w d => d.apply T contractID w) w

end World

end TrusTrove
