import TrusTrove.InvoiceParser

/-!
# The invoice timeline

`apps/web/lib/invoiceTimeline.ts`: the seven steps of an invoice's life, each with whether it is
complete, its time and its transaction. How `Intl.DateTimeFormat` writes a date is a parameter.
-/

namespace TrusTrove

inductive TimelineStepKey
  | created
  | listed
  | funded
  | shipped
  | issuerConfirmed
  | buyerConfirmed
  | settled
  deriving DecidableEq, Repr

def TimelineStepKey.toString : TimelineStepKey → String
  | created => "created"
  | listed => "listed"
  | funded => "funded"
  | shipped => "shipped"
  | issuerConfirmed => "issuerConfirmed"
  | buyerConfirmed => "buyerConfirmed"
  | settled => "settled"

/-- The truth of a `number | null`. -/
def numberTruthy : Option Double → Bool
  | none => false
  | some x => x ≠ .finite 0 && x ≠ .nan

def getTimestamp (invoice : Invoice) : TimelineStepKey → Option Double
  | .created => some invoice.createdAt
  | .listed => invoice.listedAt
  | .funded => invoice.fundedAt
  | .shipped | .issuerConfirmed =>
    if numberTruthy invoice.shippedAt then invoice.shippedAt
    else if numberTruthy invoice.issuerConfirmedAt then invoice.issuerConfirmedAt
    else none
  | .buyerConfirmed => invoice.buyerConfirmedAt
  | .settled => if invoice.status = "Defaulted" then invoice.defaultedAt else invoice.repaidAt

section Build

-- `Intl.DateTimeFormat.format` of a time in milliseconds
variable (format : ℤ → String)

/-- `TimeClip`: a time in milliseconds, within the range of dates. -/
def timeClip (ms : ℚ) : Option ℤ :=
  if |ms| ≤ 8640000000000000 then some (ms.num.tdiv ms.den) else none

/-- The time value of `new Date(timestamp * 1000)`. -/
def timeValue (timestamp : Double) : Option ℤ :=
  timestamp.finite?.bind fun q => (Double.ofRat (q * 1000)).finite?.bind timeClip

def formatTimelineTimestamp (timestamp : Option Double) : Except Thrown String :=
  match timestamp with
  | none => .ok "Pending"
  | some x =>
    if x = .finite 0 || x = .nan then .ok "Pending"
    else match timeValue x with
      | some ms => .ok (format ms)
      | none => .error (.error "Invalid time value")

end Build

end TrusTrove
