import TrusTrove.Listener

/-!
# The documented invoice contract

`docs/smart-contracts/invoice-contract.md`: the lifecycle of an invoice on the chain, one event for
each transition. `step` is what the document says a call does, `none` where it says the call is
refused; the amounts are those the indexer's columns admit. `Emits` is how a transition shows in the
event the indexer receives.
-/

namespace TrusTrove

/-- An account or a contract, by its 32 bytes. -/
structure Party where
  version : VersionByte
  key : List UInt8
  key_length : key.length = 32
  deriving DecidableEq

/-- `BytesN<32>`. -/
structure InvoiceID where
  bytes : List UInt8
  bytes_length : bytes.length = 32
  deriving DecidableEq

/-- A call of the contract that moves an invoice. -/
inductive ContractOp
  | create (issuer buyer : Party) (faceValueHi faceValueLo dueDate : UInt64)
  | listForFinancing (discountBps : UInt32)
  | fund (amountHi amountLo : UInt64)
  | markShipped
  | confirmDelivery
  | repay
  | triggerDefault
  deriving DecidableEq

/-- An invoice on the chain, with the close times of the ledgers that moved it. -/
structure ContractInvoice where
  issuer : Party
  buyer : Party
  faceValue : ℕ
  dueDate : UInt64
  discountBps : ℕ
  fundedAmount : ℕ
  status : InvoiceStatus
  createdAt : ℤ
  fundedAt : Option ℤ
  shippedAt : Option ℤ
  confirmedAt : Option ℤ
  repaidAt : Option ℤ

/-- A transition of the contract: the invoice, the call, the close time of its ledger, and the event
it emitted. -/
structure Emission where
  id : InvoiceID
  op : ContractOp
  closedAt : ℤ
  event : SorobanEvent

/-- The invoices of the contract. -/
abbrev Contract := InvoiceID → Option ContractInvoice

namespace ContractOp

/-- What a call does to an existing invoice. -/
def move (t : ℤ) (inv : ContractInvoice) : ContractOp → Option ContractInvoice
  | create .. => none
  | listForFinancing d =>
    if inv.status = .created ∧ d.toNat ≤ 5000 then
      some { inv with status := .listed, discountBps := d.toNat }
    else none
  | fund hi lo =>
    if inv.status = .listed ∧ u128 hi lo ≤ inv.faceValue then
      some { inv with status := .funded, fundedAmount := u128 hi lo, fundedAt := some t }
    else none
  | markShipped =>
    if inv.status = .funded then some { inv with status := .active, shippedAt := some t } else none
  | confirmDelivery =>
    if inv.status = .active then some { inv with status := .confirmed, confirmedAt := some t }
    else none
  | repay =>
    if inv.status = .confirmed then some { inv with status := .repaid, repaidAt := some t }
    else none
  | triggerDefault =>
    if inv.status = .funded ∨ inv.status = .active ∨ inv.status = .confirmed then
      some { inv with status := .defaulted }
    else none

/-- The invoice a creation makes. -/
def made (t : ℤ) : ContractOp → Option ContractInvoice
  | create issuer buyer hi lo dueDate =>
    some ⟨issuer, buyer, u128 hi lo, dueDate, 0, 0, .created, t, none, none, none, none⟩
  | _ => none

/-- The case of the listener's switch for the event of a call. -/
def kind : ContractOp → EventKind
  | create .. => .created
  | listForFinancing _ => .listed
  | fund .. => .funded
  | markShipped => .shipped
  | confirmDelivery => .deliveryConfirmed
  | repay => .repaid
  | triggerDefault => .defaulted

end ContractOp

namespace Contract

/-- The contract after a transition. -/
def step (C : Contract) (e : Emission) : Option Contract :=
  match C e.id with
  | none => (e.op.made e.closedAt).map fun inv => Function.update C e.id (some inv)
  | some inv => (e.op.move e.closedAt inv).map fun inv' => Function.update C e.id (some inv')

/-- The contract before any invoice. -/
def init : Contract := fun _ => none

/-- The contract after a run. -/
def run (es : List Emission) : Option Contract := es.foldlM step init

end Contract

section Emits

variable (L : EventListener)

/-- The value of an address. -/
def Party.val (p : Party) : ScVal :=
  match p.version with
  | .accountID => .address (.account p.key)
  | .contract => .address (.contract p.key)

/-- The value an event carries for its call. -/
def Emission.carries (e : Emission) (val : ScVal) : Prop :=
  match e.op with
  | .create issuer buyer hi lo dueDate =>
    getMapVal val "id" = some (.bytes e.id.bytes) ∧ getMapVal val "issuer" = some issuer.val
      ∧ getMapVal val "buyer" = some buyer.val ∧ getMapVal val "face_value" = some (.u128 hi lo)
      ∧ getMapVal val "due_date" = some (.u64 dueDate)
  | .listForFinancing d => val = .u32 d
  | .fund hi lo => val = .u128 hi lo
  | _ => True

/-- The event of a transition: it has the name of the call, the invoice in `topic[1]` or, for a
creation, in its value, a close time that parses, in a year of four digits, and ids of the widths
the chain gives them. -/
structure Emits (e : Emission) : Prop where
  name : ∃ name, eventName L e.event = .ok name ∧ eventKind name = some e.op.kind
  closed : e.event.ledgerClosedAt ≠ ""
    ∧ L.sdk.parseRFC3339 e.event.ledgerClosedAt = some e.closedAt
  year : marshalsTime e.closedAt = true
  topic : e.op.kind ≠ .created → ∃ t₀ t₁ rest, e.event.topic = t₀ :: t₁ :: rest
    ∧ L.sdk.unmarshalBase64 t₁ = .ok (.bytes e.id.bytes)
  value : ∃ val, L.sdk.unmarshalBase64 e.event.value = .ok val ∧ e.carries val
  width : e.event.id.length ≤ 128 ∧ e.event.contractID.length ≤ 56

/-- A strkey of 32 bytes has 56 characters. -/
def StrkeyWidth (sdk : Sdk) : Prop :=
  ∀ version key, key.length = 32 → (sdk.strkeyEncode version key).length = 56

end Emits

end TrusTrove
