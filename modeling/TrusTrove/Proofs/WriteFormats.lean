import TrusTrove.RequestBody

/-!
# Which writes of the web app the indexer understands

The reader of the indexer finds in a written object the members it was written from, so a body is
accepted exactly if its keys are fields and its values of their types. The bodies of
`verifyChallenge` and `updateInvoiceStatus` are, and come back as the string given if that is a
sequence of characters. The body of `createInvoice` carries a field the indexer does not know.
-/

namespace TrusTrove

open JsonText

/-- The indexer accepts the body of a call and reads from it what the call was given. -/
def WriteCall.Agreed : WriteCall → Prop
  | verifyChallenge transaction =>
    ∃ s, decodePostAuth (verifyChallengeBody transaction) = .ok s ∧ jsString s = transaction
  | createInvoice buyer faceValue dueDate asset =>
    ∃ req, decodeCreateInvoice (createInvoiceBody buyer faceValue dueDate asset) = .ok req
      ∧ jsString req.buyer = buyer ∧ jsString req.faceValue = faceValue
      ∧ ∃ text h, dueDate = .finite text h ∧ parseInt64 (String.ofList text) = some req.dueDate
  | updateInvoiceStatus _ status =>
    ∃ s, decodePatchStatus (updateInvoiceStatusBody status) = .ok s ∧ jsString s = status

/-- Every surrogate of a string has its other half. -/
def WellFormed (s : Utf16) : Prop := ∃ chars, utf16 chars = s

/-- Not a creation, of a string of characters, and short enough. -/
def WriteCall.Understood : WriteCall → Prop
  | verifyChallenge transaction =>
    WellFormed transaction ∧ utf8Size (verifyChallengeBody transaction) ≤ maxAuthBodyBytes
  | createInvoice _ _ _ _ => False
  | updateInvoiceStatus _ status =>
    WellFormed status
      ∧ utf8Size (updateInvoiceStatusBody status) ≤ maxPatchInvoiceStatusBodyBytes

section Decoding

variable {α : Type} {fields : List (BodyField α)} {zero a : α} {maxBytes : ℕ}

theorem decodeJSONBody_size {body : List Char}
    (h : decodeJSONBody fields zero maxBytes body = .ok a) : utf8Size body ≤ maxBytes := by
  by_contra hlt
  have hover : maxBytes < utf8Size body := by omega
  unfold decodeJSONBody at h
  simp only [hover, if_true] at h
  split at h
  · simp at h
  · simp at h
  · split at h
    · simp at h
    · split_ifs at h
      split at h <;> simp at h

theorem decodeJSONBody_written {members : List (Utf16 × List Char)} {vs : List Value}
    (hne : members ≠ []) (h : List.Forall₂ (fun m v => JsonText.Reads m.2 v) members vs)
    (hsize : utf8Size (writeObject members) ≤ maxBytes) :
    decodeJSONBody fields zero maxBytes (writeObject members)
      = match decodeMembers fields (List.zipWith
            (fun m v => (decodeUnits ((codePoints m.1).map scannedPoint), v)) members vs) zero with
        | none => .error .malformed
        | some a => .ok a := by
  have hlen : members.length < 2 * (writeObject members ++ [' ']).length + 1 := by
    have := length_le_writeMembers members
    simp [writeObject]
    omega
  have hscan := scanValue_writeObject hne h _ hlen [' ']
  unfold decodeJSONBody readValue
  simp only [show ¬ maxBytes < utf8Size (writeObject members) by omega, if_false, hscan]
  simp only [decodeInto]
  generalize decodeMembers fields _ zero = decoded
  cases decoded with
  | none => rfl
  | some a => simp [skipSpace, isSpace]

theorem decodeMembers_unknown (key : List Char) (hkey : findField fields key = none) :
    ∀ (members : List (List Char × Value)) (a : α), key ∈ members.map (·.1) →
      decodeMembers fields members a = none
  | [], _, h => by simp at h
  | (key', v) :: members, a, h => by
    unfold decodeMembers
    cases hf : findField fields key' with
    | none => rfl
    | some f =>
      have hmem : key ∈ members.map (·.1) := by
        rcases List.mem_cons.1 h with h | h
        · obtain rfl : key = key' := h
          simp [hkey] at hf
        · exact h
      show (f.set v a).bind (decodeMembers fields members) = none
      cases hs : f.set v a with
      | none => rfl
      | some a' => exact decodeMembers_unknown key hkey members a' hmem

theorem decodeJSONBody_string {name : String} {s : Utf16}
    (hsize : utf8Size (writeObject [(jsString name, quote s)]) ≤ maxBytes) :
    decodeJSONBody [stringField name fun s _ => s] "" maxBytes
        (writeObject [(jsString name, quote s)])
      = .ok (String.ofList (decodeUnits ((codePoints s).map scannedPoint))) := by
  rw [decodeJSONBody_written (by simp) (.cons (quote_reads s) .nil) hsize]
  have hname : decodeUnits ((codePoints (jsString name)).map scannedPoint) = name.toList :=
    decodeUnits_utf16 name.toList
  simp [decodeMembers, findField, stringField, hname]

end Decoding

/-- A body with one string comes back as it was given exactly if it is short enough and the string
is one of characters. -/
theorem string_body_iff {name : String} {s : Utf16} {maxBytes : ℕ} :
    (∃ t, decodeJSONBody [stringField name fun s _ => s] "" maxBytes
        (writeObject [(jsString name, quote s)]) = .ok t ∧ jsString t = s)
      ↔ WellFormed s ∧ utf8Size (writeObject [(jsString name, quote s)]) ≤ maxBytes := by
  constructor
  · rintro ⟨t, ht, hs⟩
    exact ⟨⟨t.toList, hs⟩, decodeJSONBody_size ht⟩
  · rintro ⟨⟨chars, rfl⟩, hsize⟩
    refine ⟨String.ofList chars, ?_, by simp [jsString]⟩
    rw [decodeJSONBody_string hsize, decodeUnits_utf16]

theorem dueDate_reads (dueDate : JsNumber) : ∃ v, JsonText.Reads dueDate.json v := by
  cases dueDate with
  | finite text isNumber => exact ⟨_, number_reads isNumber⟩
  | nonFinite => exact ⟨_, null_reads⟩

/-- The indexer refuses every creation of an invoice: `asset` is no field of its request. -/
theorem createInvoice_refused (buyer faceValue : Utf16) (dueDate : JsNumber) (asset : AssetType)
    (req : CreateInvoiceRequest) :
    decodeCreateInvoice (createInvoiceBody buyer faceValue dueDate asset) ≠ .ok req := by
  intro h
  obtain ⟨v, hv⟩ := dueDate_reads dueDate
  have hsize := decodeJSONBody_size h
  unfold decodeCreateInvoice createInvoiceBody at h hsize
  rw [decodeJSONBody_written (by simp)
    (.cons (quote_reads buyer) (.cons (quote_reads faceValue)
      (.cons hv (.cons (quote_reads (jsString asset.toString)) .nil)))) hsize,
    decodeMembers_unknown "asset".toList (by decide +kernel)] at h
  · simp at h
  · simp only [List.zipWith_cons_cons, List.zipWith_nil_left, List.map_cons, List.map_nil, jsString,
      decodeUnits_utf16]
    simp

/-- The two sides agree on exactly the calls that are understood: every `verifyChallenge` and
`updateInvoiceStatus` of characters within the limit, and no `createInvoice`. -/
theorem write_formats (call : WriteCall) : call.Agreed ↔ call.Understood := by
  cases call with
  | verifyChallenge transaction => exact string_body_iff
  | updateInvoiceStatus id status => exact string_body_iff
  | createInvoice buyer faceValue dueDate asset =>
    simp only [WriteCall.Agreed, WriteCall.Understood, iff_false]
    rintro ⟨req, h, -⟩
    exact createInvoice_refused buyer faceValue dueDate asset req h

theorem recorded_creation_refused :
    decodeCreateInvoice (createInvoiceBody (jsString "GBUYER") (jsString "1000000000")
        (.finite "1790000000".toList ⟨.int, by decide, rfl⟩) .usdc) = .error .malformed
      ∧ decodePatchStatus (updateInvoiceStatusBody (jsString "Cancelled")) = .ok "Cancelled" := by
  decide +kernel

end TrusTrove
