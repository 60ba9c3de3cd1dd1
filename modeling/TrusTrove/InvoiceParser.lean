import TrusTrove.Database
import TrusTrove.JsValue
import TrusTrove.RequestBody

/-!
# An invoice on its way to the web app

The JSON of an invoice row (`db.DbInvoice`), and `apps/web/lib/parsers.ts`, which reads it with the
schema of the SDK (`packages/sdk/src/types/schemas.ts`), or by hand where the schema refuses it.
-/

namespace TrusTrove

abbrev RawInvoice := List (String × Js)

section Row

def jsonInt (n : ℤ) : Js := .number (.ofRat n)

/-- A pointer field: `null` when it is nil. -/
def jsonPtr {α : Type} (json : α → Js) : Option α → Js
  | none => .null
  | some a => json a

/-- The JSON of a row, under the tags of `DbInvoice`. -/
def DbInvoice.json (inv : DbInvoice) : RawInvoice :=
  [("id", .string inv.id), ("issuer", .string inv.issuer), ("buyer", .string inv.buyer),
    ("face_value", .string (Int.repr inv.faceValue)), ("discount_bps", jsonInt inv.discountBps),
    ("funded_amount", .string (Int.repr inv.fundedAmount)), ("due_date", jsonInt inv.dueDate),
    ("status", .string inv.status.toString), ("created_at", jsonInt inv.createdAt),
    ("funded_at", jsonPtr jsonInt inv.fundedAt), ("shipped_at", jsonPtr jsonInt inv.shippedAt),
    ("issuer_confirmed", .boolean inv.issuerConfirmed),
    ("buyer_confirmed", .boolean inv.buyerConfirmed),
    ("buyer_confirmed_at", jsonPtr jsonInt inv.buyerConfirmedAt),
    ("repaid_at", jsonPtr jsonInt inv.repaidAt),
    ("attestation_agent_id", jsonPtr .string inv.attestationAgentID),
    ("risk_score_bps", jsonPtr jsonInt inv.riskScoreBps),
    ("evidence_hash", jsonPtr .string inv.evidenceHash),
    ("attested_at", jsonPtr jsonInt inv.attestedAt)]

end Row

/-- An `Invoice` with the fields `extraFields` adds. `status` is text: the fallback parser casts
whatever it reads. -/
structure Invoice where
  id : String
  issuer : String
  buyer : String
  faceValue : ℤ
  asset : AssetType
  discountBps : Double
  fundedAmount : ℤ
  dueDate : Double
  status : String
  createdAt : Double
  fundedAt : Option Double
  shippedAt : Option Double
  issuerConfirmed : Bool
  buyerConfirmed : Bool
  repaidAt : Option Double
  attestationAgentId : Js := .undefined
  riskScoreBps : Js := .undefined
  evidenceHash : Js := .undefined
  attestedAt : Js := .undefined
  listedAt : Option Double := none
  issuerConfirmedAt : Option Double := none
  buyerConfirmedAt : Option Double := none
  defaultedAt : Option Double := none
  transactionHashes : Js := .undefined
  txHashes : Js := .undefined
  createdTxHash : Js := .undefined
  listedTxHash : Js := .undefined
  fundedTxHash : Js := .undefined
  shippedTxHash : Js := .undefined
  issuerConfirmedTxHash : Js := .undefined
  buyerConfirmedTxHash : Js := .undefined
  repaidTxHash : Js := .undefined
  defaultedTxHash : Js := .undefined

section Schema

/-- `/^[a-fA-F0-9]{64}$/` -/
def invoiceIDPattern (s : String) : Bool :=
  s.length == 64 && s.toList.all fun c => (JsonText.hexDigit? c).isSome

/-- `/^[GC][A-Z2-7]{55}$/` -/
def stellarAddressPattern (s : String) : Bool :=
  match s.toList with
  | c :: rest => (c = 'G' || c = 'C') && rest.length == 55
      && rest.all fun c => ('A' ≤ c && c ≤ 'Z') || ('2' ≤ c && c ≤ '7')
  | [] => false

/-- `z.number()`: a number that is not `NaN`. -/
def zNumber (x : Double) : Option Double := if x = .nan then none else some x

/-- `bigintSchema`; the coercion may throw. -/
def bigintSchema (val : Js) : Except Thrown ℤ := val.toBigInt

def numberSchema : Js → Option Double
  | .number x => zNumber x
  | .bigint n => zNumber (.ofRat n)
  | .string s => zNumber (stringToNumber s)
  | _ => some (.finite 0)

def booleanSchema (val : Js) : Bool := val.truthy

def nullableNumberSchema : Js → Option (Option Double)
  | .number x => if x = .finite 0 then some none else (zNumber x).map some
  | .bigint n => if n = 0 then some none else (zNumber (.ofRat n)).map some
  | .string s => (zNumber (stringToNumber s)).map some
  | _ => some none

/-- `Buffer.from(bytes).toString("hex")` -/
def hexText (bytes : List UInt8) : String :=
  String.ofList (bytes.flatMap fun b => [(b.toNat / 16).digitChar, (b.toNat % 16).digitChar])

def idSchema (val : Js) : Option String :=
  let s := match val with
    | .string s => s
    | .uint8Array bytes => hexText bytes
    | val => (val.or (.string "")).toString
  if invoiceIDPattern s then some s else none

def addressSchema : Js → Option String
  | .string s => if stellarAddressPattern s then some s else none
  | _ => none

/-- `z.enum(["USDC", "XLM"]).default("USDC")` -/
def assetSchema : Js → Option AssetType
  | .undefined => some .usdc
  | .string "USDC" => some .usdc
  | .string "XLM" => some .xlm
  | _ => none

def statusSchema : Js → Option String
  | .string s => (InvoiceStatus.ofString? s).map fun _ => s
  | _ => none

/-- `nullableNumberSchema.optional()` -/
def optionalTimeSchema : Js → Option Js
  | .undefined => some .undefined
  | val => (nullableNumberSchema val).map fun t => (t.map Js.number).getD .null

/-- `z.string().nullable().optional()` -/
def optionalStringSchema : Js → Option Js
  | .undefined => some .undefined
  | .null => some .null
  | .string s => some (.string s)
  | _ => none

/-- `z.number().nullable().optional()` -/
def optionalNumberSchema : Js → Option Js
  | .undefined => some .undefined
  | .null => some .null
  | .number x => (zNumber x).map .number
  | _ => none

/-- `invoiceSchema.safeParse`: none is a failed validation. `buyerConfirmedAt` and `defaultedAt` are
checked, and overwritten by `extraFields`. -/
def safeParse (obj : RawInvoice) : Except Thrown (Option Invoice) := do
  let get := Js.get obj
  let faceValue ← bigintSchema (get "faceValue")
  let fundedAmount ← bigintSchema (get "fundedAmount")
  return do
    let id ← idSchema (get "id")
    let issuer ← addressSchema (get "issuer")
    let buyer ← addressSchema (get "buyer")
    let asset ← assetSchema (get "asset")
    let discountBps ← numberSchema (get "discountBps")
    let dueDate ← numberSchema (get "dueDate")
    let status ← statusSchema (get "status")
    let createdAt ← numberSchema (get "createdAt")
    let fundedAt ← nullableNumberSchema (get "fundedAt")
    let shippedAt ← nullableNumberSchema (get "shippedAt")
    let issuerConfirmed := booleanSchema (get "issuerConfirmed")
    let buyerConfirmed := booleanSchema (get "buyerConfirmed")
    let _ ← optionalTimeSchema (get "buyerConfirmedAt")
    let repaidAt ← nullableNumberSchema (get "repaidAt")
    let _ ← optionalTimeSchema (get "defaultedAt")
    let attestationAgentId ← optionalStringSchema (get "attestationAgentId")
    let riskScoreBps ← optionalNumberSchema (get "riskScoreBps")
    let evidenceHash ← optionalStringSchema (get "evidenceHash")
    let attestedAt ← optionalTimeSchema (get "attestedAt")
    some
      { id, issuer, buyer, faceValue, asset, discountBps, fundedAmount, dueDate, status, createdAt
        fundedAt, shippedAt, issuerConfirmed, buyerConfirmed, repaidAt, attestationAgentId
        riskScoreBps, evidenceHash, attestedAt }

end Schema

section Parser

/-- The replacement of `/_([a-z0-9])/g` by its letter in upper case. -/
def camelLetters : List Char → List Char
  | '_' :: c :: rest =>
    if c.isLower || c.isDigit then c.toUpper :: camelLetters rest
    else '_' :: camelLetters (c :: rest)
  | c :: rest => c :: camelLetters rest
  | [] => []

def camelKey (key : String) : String := String.ofList (camelLetters key.toList)

def normalizeKeys (obj : RawInvoice) : RawInvoice := obj.map fun kv => (camelKey kv.1, kv.2)

def toNullableNumber (value : Js) : Option Double :=
  if value.truthy then some value.toNumber else none

def toStringValue : Js → String
  | .string s => s
  | value => (value.nullish (.string "")).toString

def manuallyParse (raw : RawInvoice) : Except Thrown Invoice := do
  let either (snake camel : String) : Js := (Js.get raw snake).nullish (Js.get raw camel)
  let zero : Js := .number (.finite 0)
  let asset := match (Js.get raw "asset").or (.string "USDC") with
    | .string "XLM" => .xlm
    | _ => .usdc
  let faceValue ← ((either "face_value" "faceValue").nullish zero).toBigInt
  let fundedAmount ← ((either "funded_amount" "fundedAmount").nullish zero).toBigInt
  return {
    id := toStringValue (Js.get raw "id")
    issuer := toStringValue (Js.get raw "issuer")
    buyer := toStringValue (Js.get raw "buyer")
    faceValue, asset, fundedAmount
    discountBps := ((either "discount_bps" "discountBps").nullish zero).toNumber
    dueDate := ((either "due_date" "dueDate").nullish zero).toNumber
    status := toStringValue (Js.get raw "status")
    createdAt := ((either "created_at" "createdAt").nullish zero).toNumber
    fundedAt := toNullableNumber (either "funded_at" "fundedAt")
    shippedAt := toNullableNumber (either "shipped_at" "shippedAt")
    issuerConfirmed := (either "issuer_confirmed" "issuerConfirmed").truthy
    buyerConfirmed := (either "buyer_confirmed" "buyerConfirmed").truthy
    repaidAt := toNullableNumber (either "repaid_at" "repaidAt") }

/-- `Object.assign(invoice, extraFields(raw))` -/
def extraFields (raw : RawInvoice) (invoice : Invoice) : Invoice :=
  { invoice with
    listedAt := toNullableNumber (Js.get raw "listed_at")
    issuerConfirmedAt := toNullableNumber (Js.get raw "issuer_confirmed_at")
    buyerConfirmedAt := toNullableNumber (Js.get raw "buyer_confirmed_at")
    defaultedAt := toNullableNumber (Js.get raw "defaulted_at")
    transactionHashes := Js.get raw "transaction_hashes"
    txHashes := Js.get raw "tx_hashes"
    createdTxHash := Js.get raw "created_tx_hash"
    listedTxHash := Js.get raw "listed_tx_hash"
    fundedTxHash := Js.get raw "funded_tx_hash"
    shippedTxHash := Js.get raw "shipped_tx_hash"
    issuerConfirmedTxHash := Js.get raw "issuer_confirmed_tx_hash"
    buyerConfirmedTxHash := Js.get raw "buyer_confirmed_tx_hash"
    repaidTxHash := Js.get raw "repaid_tx_hash"
    defaultedTxHash := Js.get raw "defaulted_tx_hash" }

def parseInvoiceResponse (value : Js) : Except Thrown Invoice :=
  match value.record? with
  | some raw => do
    let invoice ← match ← safeParse (normalizeKeys raw) with
      | some invoice => pure invoice
      | none => manuallyParse raw
    return extraFields raw invoice
  | none => .error (.error "Invalid invoice payload")

end Parser

end TrusTrove
