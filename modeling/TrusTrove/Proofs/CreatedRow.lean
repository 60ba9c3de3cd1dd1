import TrusTrove.Proofs.Writes
import TrusTrove.Proofs.Codec

/-!
# The row of a created invoice

An `InvoiceCreated` value is a map with five entries of known types, in any order and among any
others. `handleInvoiceCreated` inserts the row they say, with one exception: the due date, an
unsigned 64-bit number on chain, is converted to a signed one, and stored negative from `2 ^ 63` on.
-/

namespace TrusTrove

open Sql

/-- The five entries of an `InvoiceCreated` value. -/
structure CreatedFields where
  id : List UInt8
  issuer : ScAddress
  buyer : ScAddress
  faceValueHi : UInt64
  faceValueLo : UInt64
  dueDate : UInt64

namespace CreatedFields

def keys : List String := ["id", "issuer", "buyer", "face_value", "due_date"]

def entries (f : CreatedFields) : List (ScVal × ScVal) :=
  [(.symbol "id", .bytes f.id), (.symbol "issuer", .address f.issuer),
    (.symbol "buyer", .address f.buyer),
    (.symbol "face_value", .u128 f.faceValueHi f.faceValueLo),
    (.symbol "due_date", .u64 f.dueDate)]

/-- A map holds the five entries, in any order and among entries with other keys. -/
def In (f : CreatedFields) (map : List (ScVal × ScVal)) : Prop :=
  (map.filter fun e => e.1.sym?.any (· ∈ keys)).Perm f.entries

/-- The row with the values on chain. -/
def row (f : CreatedFields) (sdk : Sdk) (ledgerClosedAt : ℤ) : DbInvoice where
  id := hexEncode f.id
  issuer := parseAddress sdk (.address f.issuer)
  buyer := parseAddress sdk (.address f.buyer)
  faceValue := u128 f.faceValueHi f.faceValueLo
  discountBps := 0
  fundedAmount := 0
  dueDate := f.dueDate.toNat
  status := .created
  createdAt := ledgerClosedAt
  fundedAt := none
  shippedAt := none
  issuerConfirmed := false
  buyerConfirmed := false
  buyerConfirmedAt := none
  repaidAt := none
  attestationAgentID := none
  riskScoreBps := none
  evidenceHash := none
  attestedAt := none

/-- The row the handler makes. -/
def indexed (f : CreatedFields) (sdk : Sdk) (ledgerClosedAt : ℤ) : DbInvoice :=
  { f.row sdk ledgerClosedAt with dueDate := parseU64 (.u64 f.dueDate) }

theorem indexed_eq_row_iff {f : CreatedFields} {sdk : Sdk} {t : ℤ} :
    f.indexed sdk t = f.row sdk t ↔ f.dueDate.toNat < 2 ^ 63 := by
  rw [← parseU64_eq_iff]
  simp only [indexed, row, DbInvoice.mk.injEq, true_and, and_true]

theorem fits_dueDate (inv : DbInvoice) (d : ℤ) :
    ({ inv with dueDate := d } : DbInvoice).fits = inv.fits := rfl

theorem indexed_fits {f : CreatedFields} {sdk : Sdk} {t : ℤ} :
    (f.indexed sdk t).fits = (f.row sdk t).fits := fits_dueDate _ _

theorem value_unique {f : CreatedFields} {key : String} {v v' : ScVal}
    (h : (ScVal.symbol key, v) ∈ f.entries) (h' : (ScVal.symbol key, v') ∈ f.entries) :
    v' = v := by
  simp only [entries, List.mem_cons, Prod.mk.injEq, ScVal.symbol.injEq, List.not_mem_nil,
    or_false] at h h'
  rcases h with ⟨rfl, rfl⟩ | ⟨rfl, rfl⟩ | ⟨rfl, rfl⟩ | ⟨rfl, rfl⟩ | ⟨rfl, rfl⟩ <;>
    simpa using h'

theorem sym?_eq_some {key : ScVal} {name : String} (h : key.sym? = some name) :
    key = .symbol name := by
  cases key <;> simp_all [ScVal.sym?]

/-- Whatever the order and the other entries, each of the five is found under its key. -/
theorem In.getMapVal {f : CreatedFields} {map : List (ScVal × ScVal)} (hin : f.In map)
    {key : String} {v : ScVal} (hv : (ScVal.symbol key, v) ∈ f.entries) (hkey : key ∈ keys) :
    TrusTrove.getMapVal (.map (some map)) key = some v := by
  have hmem : (ScVal.symbol key, v) ∈ map := (List.mem_filter.1 (hin.mem_iff.2 hv)).1
  cases hfind : map.find? fun e => e.1.sym? = some key with
  | none => simpa [ScVal.sym?] using List.find?_eq_none.1 hfind _ hmem
  | some e =>
    obtain ⟨k, v'⟩ := e
    have hk : k.sym? = some key := by simpa using List.find?_some hfind
    have hfilter : (k, v') ∈ map.filter fun e => e.1.sym?.any (· ∈ keys) :=
      List.mem_filter.2 ⟨List.mem_of_find?_eq_some hfind, by simpa [hk] using hkey⟩
    obtain rfl := sym?_eq_some hk
    rw [TrusTrove.getMapVal, hfind, Option.map_some, value_unique hv (hin.mem_iff.1 hfilter)]

end CreatedFields

theorem hexEncode_eq_empty_iff {b : List UInt8} : hexEncode b = "" ↔ b = [] := by
  cases b <;> simp [hexEncode, hexByte, String.ofList_eq_empty_iff]

/-- What makes the handler insert a row: the fields it requires, a row its columns admit, no row
under the id, and a statement that does not fail. -/
structure CreatedFields.Inserted (f : CreatedFields) (sdk : Sdk) (ledgerClosedAt : ℤ) (O : ℕ → Bool)
    (c : Conn Tables Shared) : Prop where
  id : f.id ≠ []
  issuer : parseAddress sdk (.address f.issuer) ≠ ""
  buyer : parseAddress sdk (.address f.buyer) ≠ ""
  fits : (f.row sdk ledgerClosedAt).fits = true
  fresh : c.work.invoices.find? (hexEncode f.id) = none
  live : c.aborted = false
  served : O c.tick = false

theorem insertInvoice_invoices (inv : DbInvoice) (O : ℕ → Bool) (c : Conn Tables Shared) :
    ((insertInvoice inv >>= fun _ => pure ()) O c : Except GoError Unit × _).2.work.invoices =
      if c.aborted = false ∧ O c.tick = false ∧ inv.fits = true
      then c.work.invoices.insertNew inv else c.work.invoices := by
  have hbind : ((insertInvoice inv >>= fun _ => pure ()) O c : Except GoError Unit × _).2
      = (insertInvoice inv O c).2 := by
    rw [bind_run]
    split <;> rename_i h <;> rw [h]
    rfl
  rw [hbind, insertInvoice, mapError_run, Prog.onTx]
  by_cases hfail : c.aborted = true ∨ O c.tick = true
  · have hnot : ¬ (c.aborted = false ∧ O c.tick = false ∧ inv.fits = true) := by
      rintro ⟨h₁, h₂, -⟩
      simp [h₁, h₂] at hfail
    rw [if_neg hnot, if_pos (by simpa using hfail)]
  · simp only [not_or, Bool.not_eq_true] at hfail
    by_cases hfits : inv.fits = true <;> simp [hfail, hfits]

section Handler

variable {sdk : Sdk} {event : SorobanEvent} {t : ℤ} {f : CreatedFields}
  {map : List (ScVal × ScVal)}

theorem handleInvoiceCreated_eq (hv : sdk.unmarshalBase64 event.value = .ok (.map (some map)))
    (hin : f.In map) :
    handleInvoiceCreated sdk event t =
      if hexEncode f.id = "" || parseAddress sdk (.address f.issuer) = ""
          || parseAddress sdk (.address f.buyer) = "" then
        Prog.fail (.new ("event value missing required invoice fields: id=" ++ hexEncode f.id
          ++ ", issuer=" ++ parseAddress sdk (.address f.issuer)
          ++ ", buyer=" ++ parseAddress sdk (.address f.buyer)))
      else insertInvoice (f.indexed sdk t) >>= fun _ => pure () := by
  have hget : ∀ key v, (ScVal.symbol key, v) ∈ f.entries → key ∈ CreatedFields.keys →
      getMapVal (.map (some map)) key = some v := fun _ _ => hin.getMapVal
  have hid := hget "id" (.bytes f.id) (by simp [CreatedFields.entries]) (by decide)
  have hissuer := hget "issuer" (.address f.issuer)
    (by simp [CreatedFields.entries]) (by decide)
  have hbuyer := hget "buyer" (.address f.buyer)
    (by simp [CreatedFields.entries]) (by decide)
  have hface := hget "face_value" (.u128 f.faceValueHi f.faceValueLo)
    (by simp [CreatedFields.entries]) (by decide)
  have hdue := hget "due_date" (.u64 f.dueDate)
    (by simp [CreatedFields.entries]) (by decide)
  have hdue' : ((getMapVal (.map (some map)) "due_date").map parseU64).getD 0
      = parseU64 (.u64 f.dueDate) := by
    rw [hdue, Option.map_some, Option.getD_some]
  have hval : eventValue sdk event "parse value" = .ok (.map (some map)) := by
    rw [eventValue, hv]
    rfl
  have hnum : numeric (parseU128 (.u128 f.faceValueHi f.faceValueLo))
      = some (u128 f.faceValueHi f.faceValueLo : ℤ) := numeric_repr _
  unfold handleInvoiceCreated CreatedFields.indexed CreatedFields.row
  generalize parseU64 (.u64 f.dueDate) = due at hdue' ⊢
  rw [hval, ofExcept_ok_bind]
  simp only [hid, hissuer, hbuyer, hface, hdue', hnum, Option.map_some, Option.getD_some,
    parseBytes]

/-- A row that was not there is inserted exactly when the condition holds, and it is the one the
handler makes. -/
theorem handleInvoiceCreated_inserts_iff
    (hv : sdk.unmarshalBase64 event.value = .ok (.map (some map))) (hin : f.In map)
    {O : ℕ → Bool} {c : Conn Tables Shared} {r : DbInvoice}
    (hr : c.work.invoices.find? r.id = none) :
    (handleInvoiceCreated sdk event t O c).2.work.invoices.find? r.id = some r
      ↔ f.Inserted sdk t O c ∧ r = f.indexed sdk t := by
  rw [handleInvoiceCreated_eq hv hin]
  split_ifs with hempty
  · refine ⟨fun h => absurd (hr.symm.trans h) (by simp), fun h => ?_⟩
    have hins := h.1
    simp [hexEncode_eq_empty_iff, hins.id, hins.issuer, hins.buyer] at hempty
  · simp only [hexEncode_eq_empty_iff, Bool.or_eq_true, decide_eq_true_eq, not_or] at hempty
    have hid : (f.indexed sdk t).id = hexEncode f.id := rfl
    rw [insertInvoice_invoices, CreatedFields.indexed_fits]
    constructor
    · intro h
      split_ifs at h with hok
      · rw [Table.find?_insertNew] at h
        split_ifs at h with hkey
        · rw [hid] at hkey
          rw [hr, Option.none_or, Option.some.injEq] at h
          exact ⟨⟨hempty.1.1, hempty.1.2, hempty.2, hok.2.2, hkey ▸ hr, hok.1, hok.2.1⟩,
            h.symm⟩
        · rw [hr] at h
          cases h
      · rw [hr] at h
        cases h
    · rintro ⟨hins, rfl⟩
      rw [if_pos ⟨hins.live, hins.served, hins.fits⟩, Table.find?_insertNew, if_pos rfl, hr,
        Option.none_or]

/-- Where a row is inserted, the row under its id has the values on chain exactly when the due date
is below `2 ^ 63`; and no row is inserted with other values exactly when that due date is. -/
theorem created_row_exact_iff (hv : sdk.unmarshalBase64 event.value = .ok (.map (some map)))
    (hin : f.In map) (O : ℕ → Bool) (c : Conn Tables Shared) :
    (f.Inserted sdk t O c →
      ((handleInvoiceCreated sdk event t O c).2.work.invoices.find? (hexEncode f.id)
        = some (f.row sdk t) ↔ f.dueDate.toNat < 2 ^ 63))
    ∧ ((∀ r, c.work.invoices.find? r.id = none →
        (handleInvoiceCreated sdk event t O c).2.work.invoices.find? r.id = some r →
          r = f.row sdk t)
      ↔ (f.Inserted sdk t O c → f.dueDate.toNat < 2 ^ 63)) := by
  refine ⟨fun hins => ?_, fun h hins => ?_, fun h r hr hrow => ?_⟩
  · have hrow := handleInvoiceCreated_inserts_iff hv hin (t := t) (O := O) (r := f.row sdk t)
      hins.fresh
    rw [and_iff_right hins, eq_comm (a := f.row sdk t), CreatedFields.indexed_eq_row_iff] at hrow
    exact hrow
  · have hrow : f.indexed sdk t = f.row sdk t :=
      h _ hins.fresh ((handleInvoiceCreated_inserts_iff hv hin hins.fresh).2 ⟨hins, rfl⟩)
    exact CreatedFields.indexed_eq_row_iff.1 hrow
  · obtain ⟨hins, rfl⟩ := (handleInvoiceCreated_inserts_iff hv hin hr).1 hrow
    exact CreatedFields.indexed_eq_row_iff.2 (h hins)

end Handler

section Recorded

def creationFields (dueDate : UInt64) : CreatedFields where
  id := [0xab, 1]
  issuer := .account (List.replicate 32 0)
  buyer := .contract (List.replicate 32 0)
  faceValueHi := 0
  faceValueLo := 1000
  dueDate := dueDate

/-- The five entries out of order, with a sixth. -/
def creationMap (dueDate : UInt64) : List (ScVal × ScVal) :=
  (.symbol "due_date", .u64 dueDate) :: (.symbol "currency", .symbol "XLM")
    :: (creationFields dueDate).entries.take 4

theorem creationMap_in (dueDate : UInt64) : (creationFields dueDate).In (creationMap dueDate) := by
  have h := List.perm_append_singleton (ScVal.symbol "due_date", ScVal.u64 dueDate)
    ((creationFields dueDate).entries.take 4)
  exact h.symm

/-- Every value decodes to that map. -/
def creationSdk (dueDate : UInt64) : Sdk :=
  { strkeySdk with unmarshalBase64 := fun _ => .ok (.map (some (creationMap dueDate))) }

def creationEvent : SorobanEvent := ⟨"1", "CC", 10, "", [], "value"⟩

/-- A transaction on empty tables. -/
def creationConn : Conn Tables Shared :=
  ⟨.empty, ⟨[], ⟨0, 0, 0, 0, 0, 0, 0⟩, [], none⟩, false, 0, false⟩

/-- A due date of `2 ^ 63` is stored as `-2 ^ 63`. -/
theorem late_due_date_stored_negative :
    let sdk := creationSdk (2 ^ 63)
    (creationFields (2 ^ 63)).dueDate.toNat = 2 ^ 63
    ∧ ((handleInvoiceCreated sdk creationEvent 7 noFaults creationConn).2.work.invoices.find?
      "ab01").map (·.dueDate) = some (-2 ^ 63) := by
  decide +kernel

theorem creation_inserted :
    (creationFields 1800086400).Inserted (creationSdk 1800086400) 7 noFaults creationConn := by
  constructor <;> decide +kernel

theorem created_row_exact_reordered :
    let sdk := creationSdk 1800086400
    let after := (handleInvoiceCreated sdk creationEvent 7 noFaults creationConn).2.work.invoices
    after.find? "ab01" = some ((creationFields 1800086400).row sdk 7)
    ∧ ∀ r, creationConn.work.invoices.find? r.id = none → after.find? r.id = some r →
      r = (creationFields 1800086400).row sdk 7 := by
  have h := @created_row_exact_iff (creationSdk 1800086400) creationEvent 7
    (creationFields 1800086400) (creationMap 1800086400) rfl (creationMap_in 1800086400) noFaults
    creationConn
  have hdue : (creationFields 1800086400).dueDate.toNat < 2 ^ 63 := by decide
  exact ⟨(h.1 creation_inserted).2 hdue, h.2.2 fun _ => hdue⟩

end Recorded

end TrusTrove
