import TrusTrove.CreateInvoice
import TrusTrove.InvoiceParser
import TrusTrove.Lib.OffsetPaging

/-!
# The list of invoices

`GetInvoicesPage` (`db/queries.go`) answers a page with two statements on the pool, a count and a
window of the ordered rows; `HandleGetInvoices` (`api/handlers_invoices.go`) serves it, and
`getAllInvoices` of the web app (`apps/web/lib/api.ts`) walks the pages. Rows may be inserted before
each statement, and each may fail.
-/

namespace TrusTrove

open Sql

/-- What happens around the statements of the walk: the rows inserted before each and whether it
fails, and the ids of the requests. -/
structure Traffic where
  arrivals : ℕ → List DbInvoice
  fails : ℕ → Bool
  requestID : ℕ → String

/-- The table, and the statements and requests served so far. -/
structure PagesWorld where
  invoices : Table DbInvoice DbInvoice.id
  statements : ℕ
  requests : ℕ

/-- `INSERT INTO invoices`, row after row. -/
def insertAll (rows : List DbInvoice) (t : Table DbInvoice DbInvoice.id) :
    Table DbInvoice DbInvoice.id := rows.foldl Table.insertNew t

section Server

variable {ι : Type} [LinearOrder ι] (collate : String ↪ ι) (E : Traffic)

/-- A statement that reads `invoices`. -/
def queryInvoices {α : Type} (read : List DbInvoice → Except GoError α) (w : PagesWorld) :
    Except GoError α × PagesWorld :=
  let invoices := insertAll (E.arrivals w.statements) w.invoices
  (if E.fails w.statements then .error driverError else read invoices.rows,
    { w with invoices, statements := w.statements + 1 })

/-- `ORDER BY created_at DESC, id DESC`, the ids in the order of the collation. -/
def newestFirst (a b : DbInvoice) : Prop :=
  b.createdAt < a.createdAt ∨ (b.createdAt = a.createdAt ∧ collate b.id ≤ collate a.id)

instance : DecidableRel (newestFirst collate) := fun _ _ =>
  inferInstanceAs (Decidable (_ < _ ∨ (_ = _ ∧ _ ≤ _)))

/-- The rows under the predicates of a request: an empty filter is none. -/
def matching (status issuer : String) (rows : List DbInvoice) : List DbInvoice :=
  rows.filter fun r =>
    (status = "" || r.status.toString = status) && (issuer = "" || r.issuer = issuer)

def getInvoicesPage (status issuer : String) (limit offset : ℤ) (w : PagesWorld) :
    Except GoError (List DbInvoice × ℕ) × PagesWorld :=
  match queryInvoices E (fun rows => .ok (matching status issuer rows).length) w with
  | (.error e, w) => (.error (.wrap "queries: count invoices" e), w)
  | (.ok total, w) =>
    match queryInvoices E (fun rows =>
        if offset < 0 then .error (.new "ERROR: OFFSET must not be negative (SQLSTATE 2201X)")
        else .ok (Paging.page (newestFirst collate) (matching status issuer rows) offset.toNat
          limit.toNat)) w with
    | (.error e, w) => (.error (.wrap "queries: get invoices" e), w)
    | (.ok invoices, w) => (.ok (invoices, total), w)

/-- `r.URL.Query().Get(key)` -/
def queryGet (query : List (String × String)) (key : String) : String :=
  (query.lookup key).getD ""

/-- A pagination parameter, with its default. -/
def positiveParam (value : String) (unset : ℤ) : Option ℤ :=
  if value = "" then some unset else (parseInt64 value).filter (1 ≤ ·)

/-- The body `HandleGetInvoices` writes. -/
structure InvoicesBody where
  data : List DbInvoice
  total : ℤ
  page : ℤ
  limit : ℤ
  totalPages : ℤ

/-- `HandleGetInvoices`. The offset and the rounded-up total are `int`s, which wrap around. -/
def handleGetInvoices (query : List (String × String)) (w : PagesWorld) :
    Except Response InvoicesBody × PagesWorld :=
  match positiveParam (queryGet query "page") 1 with
  | none => (.error (httpError "invalid page parameter: must be a positive integer" 400), w)
  | some page =>
    match positiveParam (queryGet query "limit") 20 with
    | none => (.error (httpError "invalid limit parameter: must be a positive integer" 400), w)
    | some v =>
      let limit := if 100 < v then 100 else v
      let offset := ((page - 1) * limit).bmod (2 ^ 64)
      match getInvoicesPage collate E (queryGet query "status")
        (queryGet query "issuer") limit offset
          w with
      | (.error _, w) =>
        (.error (internalError (E.requestID w.requests) "failed to retrieve invoices"), w)
      | (.ok (data, total), w) =>
        let totalPages : ℤ := ((total + limit - 1 : ℤ).bmod (2 ^ 64)).tdiv limit
        (.ok ⟨data, total, page, limit, if totalPages < 1 then 1 else totalPages⟩, w)

end Server

section Client

variable {ι : Type} [LinearOrder ι] (collate : String ↪ ι) (E : Traffic)

structure InvoiceFilters where
  status : Option String := none
  issuer : Option String := none
  page : Option ℕ := none
  limit : Option ℕ := none

/-- The parameters `getInvoices` appends: a filter that is unset or empty is left out. -/
def InvoiceFilters.params (filters : InvoiceFilters) : List (String × String) :=
  let text (key : String) (value : Option String) :=
    ((value.filter (· ≠ "")).map (Prod.mk key)).toList
  let number (key : String) (value : Option ℕ) := (value.map fun n => (key, Nat.repr n)).toList
  text "status" filters.status ++ text "issuer" filters.issuer ++ number "page" filters.page
    ++ number "limit" filters.limit

structure PaginatedInvoices where
  data : List Invoice
  total : ℤ
  page : ℤ
  limit : ℤ
  totalPages : ℤ

/-- What `apiFetch` throws on a response that is not OK. `http.Error` ends its text with a
newline. -/
def Response.thrown (res : Response) : Thrown :=
  match res.body with
  | .text msg => .error (msg ++ "\n")
  | .fields m => .error (((m.get? "error").or (m.get? "message")).getD "")

/-- `getInvoices`, against a server that the rate limiter lets it through to. -/
def getInvoices (filters : InvoiceFilters) (w : PagesWorld) :
    Except Thrown PaginatedInvoices × PagesWorld :=
  match handleGetInvoices collate E filters.params { w with requests := w.requests + 1 } with
  | (.error res, w) => (.error res.thrown, w)
  | (.ok raw, w) =>
    match raw.data.mapM fun r => parseInvoiceResponse (.object r.json) with
    | .error e => (.error e, w)
    | .ok data => (.ok ⟨data, raw.total, raw.page, raw.limit, raw.totalPages⟩, w)

def allInvoicesPageSize : ℕ := 100

def allInvoicesMaxPages : ℕ := 100

/-- The loop of `getAllInvoices` from a page on, with the pages the safety cap leaves. `byId` is the
map, in the order of its insertions. -/
def allInvoicesFrom (filters : InvoiceFilters) :
    (left page : ℕ) → (totalPages : ℤ) → (byId : Table Invoice Invoice.id) → PagesWorld →
      Except Thrown (Table Invoice Invoice.id) × PagesWorld
  | 0, _, _, byId, w => (.ok byId, w)
  | left + 1, page, totalPages, byId, w =>
    if totalPages < page then (.ok byId, w)
    else
      match getInvoices collate E
          { filters with page := some page, limit := some allInvoicesPageSize } w with
      | (.error e, w) => (.error e, w)
      | (.ok res, w) =>
        let byId := res.data.foldl Table.upsert byId
        if res.data.isEmpty then (.ok byId, w)
        else
          allInvoicesFrom filters left (page + 1) (if res.totalPages = 0 then 1 else res.totalPages)
            byId w

def getAllInvoices (status issuer : Option String) (w : PagesWorld) :
    Except Thrown (List Invoice) × PagesWorld :=
  match allInvoicesFrom collate E { status, issuer } allInvoicesMaxPages 1 1 .empty w with
  | (.error e, w) => (.error e, w)
  | (.ok byId, w) => (.ok byId.rows, w)

end Client

end TrusTrove
