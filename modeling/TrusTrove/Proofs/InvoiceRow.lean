import TrusTrove.Proofs.Fanout

/-!
# The rows of `invoices`

What the guarded updates keep of a row whatever events are handled, in whatever order: its columns
agree with its status (`Consistent`), and between any two moments of a run it moved along the
lifecycle, with its set timestamps and its terms unchanged (`Evolves`). One update keeps both
(`InvoiceStep.wf`, `InvoiceStep.evolves`), so each write does, and each run of `handleEvent`.
-/

namespace TrusTrove

open Sql Relation

/-- One step of the lifecycle. -/
inductive LifecycleEdge : InvoiceStatus → InvoiceStatus → Prop
  | list : LifecycleEdge .created .listed
  | fund : LifecycleEdge .listed .funded
  | ship : LifecycleEdge .funded .active
  | confirm : LifecycleEdge .active .confirmed
  | repay : LifecycleEdge .confirmed .repaid
  | defaultFunded : LifecycleEdge .funded .defaulted
  | defaultActive : LifecycleEdge .active .defaulted
  | defaultConfirmed : LifecycleEdge .confirmed .defaulted

namespace DbInvoice

/-- The columns of a row agree with its status and with each other. -/
structure Consistent (r : DbInvoice) : Prop where
  funded : r.fundedAt.isSome ↔ r.status = .funded ∨ r.status = .active ∨ r.status = .confirmed
    ∨ r.status = .repaid ∨ r.status = .defaulted
  shipped : r.issuerConfirmed = true ↔ r.shippedAt.isSome
  confirmed : r.buyerConfirmed = true ↔ r.buyerConfirmedAt.isSome
  confirmed_shipped : r.buyerConfirmed = true → r.shippedAt.isSome
  repaid : r.repaidAt.isSome ↔ r.status = .repaid

/-- `Consistent`, with what makes it inductive: a timestamp an update sets was not set before. -/
structure Wf (r : DbInvoice) : Prop extends r.Consistent where
  unshipped : r.status = .created ∨ r.status = .listed ∨ r.status = .funded → r.shippedAt = none
  active_shipped : r.status = .active → r.shippedAt.isSome
  unconfirmed : r.status = .created ∨ r.status = .listed ∨ r.status = .funded ∨ r.status = .active →
    r.buyerConfirmedAt = none

/-- What a row keeps over time. -/
structure Evolves (r r' : DbInvoice) : Prop where
  id : r'.id = r.id
  status : ReflTransGen LifecycleEdge r.status r'.status
  fundedAt : ∀ t, r.fundedAt = some t → r'.fundedAt = some t
  shippedAt : ∀ t, r.shippedAt = some t → r'.shippedAt = some t
  buyerConfirmedAt : ∀ t, r.buyerConfirmedAt = some t → r'.buyerConfirmedAt = some t
  repaidAt : ∀ t, r.repaidAt = some t → r'.repaidAt = some t
  issuer : r'.issuer = r.issuer
  buyer : r'.buyer = r.buyer
  faceValue : r'.faceValue = r.faceValue
  dueDate : r'.dueDate = r.dueDate
  createdAt : r'.createdAt = r.createdAt

theorem Initial.wf {r : DbInvoice} (h : r.Initial) : r.Wf := by
  refine ⟨⟨?_, ?_, ?_, ?_, ?_⟩, ?_, ?_, ?_⟩ <;>
    simp [h.status, h.fundedAt, h.shippedAt, h.issuerConfirmed, h.buyerConfirmed,
      h.buyerConfirmedAt, h.repaidAt]

theorem Evolves.refl (r : DbInvoice) : r.Evolves r :=
  ⟨rfl, .refl, fun _ h => h, fun _ h => h, fun _ h => h, fun _ h => h, rfl, rfl, rfl, rfl, rfl⟩

theorem Evolves.trans {a b c : DbInvoice} (h : a.Evolves b) (h' : b.Evolves c) : a.Evolves c :=
  ⟨h'.id.trans h.id, h.status.trans h'.status, fun t ht => h'.fundedAt t (h.fundedAt t ht),
    fun t ht => h'.shippedAt t (h.shippedAt t ht),
    fun t ht => h'.buyerConfirmedAt t (h.buyerConfirmedAt t ht),
    fun t ht => h'.repaidAt t (h.repaidAt t ht), h'.issuer.trans h.issuer, h'.buyer.trans h.buyer,
    h'.faceValue.trans h.faceValue, h'.dueDate.trans h.dueDate, h'.createdAt.trans h.createdAt⟩

theorem deployed_iff {r : DbInvoice} :
    r.deployed = true ↔ r.status = .funded ∨ r.status = .active ∨ r.status = .confirmed := by
  simp [deployed, or_assoc]

end DbInvoice

section Step

/-- An update keeps the columns in agreement. -/
theorem InvoiceStep.wf {r r' : DbInvoice} (h : InvoiceStep r r') (hr : r.Wf) : r'.Wf := by
  cases h with
  | listed d hs =>
    have hfunded := hr.funded
    have hship := hr.unshipped (.inl hs)
    have hconf := hr.unconfirmed (.inl hs)
    refine ⟨⟨?_, hr.shipped, hr.confirmed, hr.confirmed_shipped, ?_⟩, ?_, ?_, ?_⟩ <;>
      simp_all [hr.repaid]
  | funded amount t hs =>
    have hship := hr.unshipped (.inr (.inl hs))
    have hconf := hr.unconfirmed (.inr (.inl hs))
    refine ⟨⟨?_, hr.shipped, hr.confirmed, hr.confirmed_shipped, ?_⟩, ?_, ?_, ?_⟩ <;>
      simp_all [hr.repaid]
  | shipped t hs =>
    have hfunded := hr.funded
    have hconf := hr.unconfirmed (.inr (.inr (.inl hs)))
    refine ⟨⟨?_, ?_, hr.confirmed, ?_, ?_⟩, ?_, ?_, ?_⟩ <;> simp_all [hr.repaid]
  | confirmed t hs =>
    have hfunded := hr.funded
    have hship := hr.active_shipped hs
    refine ⟨⟨?_, hr.shipped, ?_, ?_, ?_⟩, ?_, ?_, ?_⟩ <;> simp_all [hr.repaid]
  | repaid t hs =>
    have hfunded := hr.funded
    refine ⟨⟨?_, hr.shipped, hr.confirmed, hr.confirmed_shipped, ?_⟩, ?_, ?_, ?_⟩ <;> simp_all
  | defaulted hd =>
    have hs := DbInvoice.deployed_iff.1 hd
    have hf : r.fundedAt.isSome := hr.funded.2 (by tauto)
    have hp : r.repaidAt = none := by
      have := hr.repaid
      rcases hs with hs | hs | hs <;> simpa [hs] using this
    refine ⟨⟨?_, hr.shipped, hr.confirmed, hr.confirmed_shipped, ?_⟩, ?_, ?_, ?_⟩ <;> simp [hf, hp]
  | attested agent hash score t =>
    exact ⟨⟨hr.funded, hr.shipped, hr.confirmed, hr.confirmed_shipped, hr.repaid⟩, hr.unshipped,
      hr.active_shipped, hr.unconfirmed⟩

/-- An update moves a row along the lifecycle and sets no timestamp twice. -/
theorem InvoiceStep.evolves {r r' : DbInvoice} (h : InvoiceStep r r') (hr : r.Wf) :
    r.Evolves r' := by
  cases h with
  | listed d hs =>
    exact { DbInvoice.Evolves.refl r with status := .single (by rw [hs]; exact .list) }
  | funded amount t hs =>
    have hnone : r.fundedAt = none := by
      have := hr.funded
      simpa [hs] using this
    exact { DbInvoice.Evolves.refl r with
      status := .single (by rw [hs]; exact .fund), fundedAt := by simp [hnone] }
  | shipped t hs =>
    have hnone := hr.unshipped (.inr (.inr hs))
    exact { DbInvoice.Evolves.refl r with
      status := .single (by rw [hs]; exact .ship), shippedAt := by simp [hnone] }
  | confirmed t hs =>
    have hnone := hr.unconfirmed (.inr (.inr (.inr hs)))
    exact { DbInvoice.Evolves.refl r with
      status := .single (by rw [hs]; exact .confirm), buyerConfirmedAt := by simp [hnone] }
  | repaid t hs =>
    have hnone : r.repaidAt = none := by
      have := hr.repaid
      simpa [hs] using this
    exact { DbInvoice.Evolves.refl r with
      status := .single (by rw [hs]; exact .repay), repaidAt := by simp [hnone] }
  | defaulted hd =>
    refine { DbInvoice.Evolves.refl r with status := .single ?_ }
    rcases DbInvoice.deployed_iff.1 hd with hs | hs | hs <;> rw [hs]
    · exact .defaultFunded
    · exact .defaultActive
    · exact .defaultConfirmed
  | attested agent hash score t => exact { DbInvoice.Evolves.refl r with }

/-- The rows of a table are in order. -/
def RowsWf (w : Tables) : Prop := ∀ id r, w.invoices.find? id = some r → r.Wf

/-- Every row of a table is still there, evolved. -/
def RowsEvolve (w w' : Tables) : Prop :=
  ∀ id r, w.invoices.find? id = some r → ∃ r', w'.invoices.find? id = some r' ∧ r.Evolves r'

theorem RowsEvolve.refl (w : Tables) : RowsEvolve w w := fun _ r h => ⟨r, h, .refl r⟩

theorem RowsEvolve.trans {a b c : Tables} (h : RowsEvolve a b) (h' : RowsEvolve b c) :
    RowsEvolve a c := by
  intro id r hr
  obtain ⟨r₁, hr₁, he₁⟩ := h id r hr
  obtain ⟨r₂, hr₂, he₂⟩ := h' id r₁ hr₁
  exact ⟨r₂, hr₂, he₁.trans he₂⟩

theorem TableWrite.rows {ev : String} {w w' : Tables} (h : TableWrite ev w w') (hw : RowsWf w) :
    RowsWf w' ∧ RowsEvolve w w' := by
  cases h with
  | tail h => cases h <;> exact ⟨hw, .refl w⟩
  | create inv _ hinit =>
    constructor
    · intro id r hr
      rw [Table.find?_insertNew] at hr
      split_ifs at hr with hid
      · rcases hold : w.invoices.find? id with _ | r₀
        · rw [hold, Option.none_or, Option.some.injEq] at hr
          exact hr ▸ hinit.wf
        · rw [hold, Option.some_or, Option.some.injEq] at hr
          exact hw id r (hr ▸ hold)
      · exact hw id r hr
    · intro id r hr
      refine ⟨r, ?_, .refl r⟩
      rw [Table.find?_insertNew, hr]
      simp
  | move t id r r' hr hstep _ ht =>
    constructor
    · intro k x hx
      rw [ht] at hx
      split_ifs at hx with hk
      · obtain rfl : r' = x := by simpa using hx
        exact hstep.wf (hw id r hr)
      · exact hw k x hx
    · intro k x hx
      rw [ht]
      split_ifs with hk
      · subst hk
        obtain rfl : r = x := by simpa [hr] using hx
        exact ⟨r', rfl, hstep.evolves (hw k r hr)⟩
      · exact ⟨x, hx, .refl x⟩

theorem TableWrites.rows {ev : String} {w w' : Tables} (h : TableWrites ev w w') (hw : RowsWf w) :
    RowsWf w' ∧ RowsEvolve w w' := by
  induction h with
  | refl => exact ⟨hw, .refl w⟩
  | tail _ hstep ih =>
    obtain ⟨h₁, h₂⟩ := hstep.rows ih.1
    exact ⟨h₁, ih.2.trans h₂⟩

end Step

section Run

/-- One call of `handleEvent`, with what the environment does during it. -/
structure HandleCall where
  event : SorobanEvent
  now : ℕ
  stats : Except GoError ScVal
  fails : ℕ → Bool

/-- The database after a sequence of calls of `handleEvent`, whatever each of them returned. -/
def handleRun (L : EventListener) (calls : List HandleCall) (s : Db) : Db :=
  calls.foldl (fun s c => (handleEvent L c.stats c.now c.fails s c.event).2) s

theorem handleRun_append (L : EventListener) (pre post : List HandleCall) (s : Db) :
    handleRun L (pre ++ post) s = handleRun L post (handleRun L pre s) := List.foldl_append ..

theorem handleRun_rows (L : EventListener) :
    ∀ (calls : List HandleCall) (s : Db), RowsWf s.tables →
      RowsWf (handleRun L calls s).tables ∧ RowsEvolve s.tables (handleRun L calls s).tables
  | [], s, hs => ⟨hs, .refl _⟩
  | c :: calls, s, hs => by
    obtain ⟨h₁, h₂⟩ := (handleEvent_writes L c.stats c.now c.event c.fails s).1.rows hs
    obtain ⟨h₃, h₄⟩ := handleRun_rows L calls _ h₁
    exact ⟨h₃, h₂.trans h₄⟩

end Run

theorem lifecycle_terminal {a b : InvoiceStatus} (h : ReflTransGen LifecycleEdge a b)
    (ha : a = .repaid ∨ a = .defaulted) : b = a := by
  rcases h.cases_head with rfl | ⟨c, hc, -⟩
  · rfl
  · rcases ha with rfl | rfl <;> cases hc

/-- From an empty `invoices`, any sequence of events, with any of their statements failing, leaves
every row consistent, and any row of an earlier moment evolved, at rest once it is repaid or
defaulted. -/
theorem invoice_rows_invariant (L : EventListener) (pre post : List HandleCall) (s : Db)
    (hs : s.tables.invoices = Table.empty) :
    (∀ r ∈ (handleRun L (pre ++ post) s).tables.invoices.rows, r.Consistent)
      ∧ ∀ r ∈ (handleRun L pre s).tables.invoices.rows,
        ∃ r' ∈ (handleRun L (pre ++ post) s).tables.invoices.rows, r.Evolves r'
          ∧ (r.status = .repaid ∨ r.status = .defaulted → r'.status = r.status) := by
  have hempty : RowsWf s.tables := by
    intro id r hr
    simp [hs] at hr
  obtain ⟨hpre, -⟩ := handleRun_rows L pre s hempty
  obtain ⟨hpost, hev⟩ := handleRun_rows L post _ hpre
  rw [handleRun_append]
  refine ⟨fun r hr => (hpost _ r (Table.find?_of_mem hr)).toConsistent, fun r hr => ?_⟩
  obtain ⟨r', hr', he⟩ := hev _ r (Table.find?_of_mem hr)
  exact ⟨r', Table.mem_of_find? hr', he, lifecycle_terminal he.status⟩

/-- A creation, delivered twice, and a listing after it. -/
def recordedCalls : List HandleCall :=
  [⟨recordedEvent "e1" "AAAADwAAAAZjcmVhdGUAAA==" [] recordedCreation, 0, .ok .other, noFaults⟩,
    ⟨recordedEvent "e1" "AAAADwAAAAZjcmVhdGUAAA==" [] recordedCreation, 0, .ok .other, noFaults⟩,
    ⟨recordedEvent "e2" "AAAADwAAABJsaXN0X2Zvcl9maW5hbmNpbmcAAA==" [] "AAAAAwAAAPo=", 0, .ok .other,
      noFaults⟩]

/-- The row the recorded calls leave. -/
def recordedRow : DbInvoice :=
  { recordedInvoice with createdAt := 1767225600, discountBps := 250, status := .listed }

/-- An event of the recorded calls as it is logged. -/
def recordedLog (id name : String) (fields : StringMap String) : EventLog :=
  ⟨id, "CAEQSCIJBEEQSCIJBEEQSCIJBEEQSCIJBEEQSCIJBEEQSCIJBEEQTD2L", 101, 1767225600, name,
    .fields (fields ++ [("invoice_id", recordedInvoice.id)])⟩

/-- The tables after the recorded calls. -/
def recordedTables : Tables where
  invoices := Table.empty.insertNew recordedRow
  eventsLog := (Table.empty.insertNew (recordedLog "e1" "create"
    [("buyer", recordedInvoice.buyer), ("issuer", recordedInvoice.issuer)])).insertNew
      (recordedLog "e2" "list_for_financing" [])
  deliveries := .empty

theorem recordedCalls_tables :
    (handleRun (recordedListener 3) recordedCalls freshDb).tables = recordedTables := by
  obtain ⟨hinvoices, hlog, hdeliveries⟩ :
      (handleRun (recordedListener 3) recordedCalls freshDb).tables.invoices.rows
          = recordedTables.invoices.rows
        ∧ (handleRun (recordedListener 3) recordedCalls freshDb).tables.eventsLog.rows
          = recordedTables.eventsLog.rows
        ∧ (handleRun (recordedListener 3) recordedCalls freshDb).tables.deliveries.rows
          = recordedTables.deliveries.rows := by
    decide +kernel
  cases h : (handleRun (recordedListener 3) recordedCalls freshDb).tables
  rw [h] at hinvoices hlog hdeliveries
  exact congr (congr (congrArg Tables.mk (Table.ext hinvoices)) (Table.ext hlog))
    (Table.ext hdeliveries)

theorem invoice_rows_invariant_recorded :
    ((handleRun (recordedListener 3) recordedCalls freshDb).tables.invoices.rows.map fun r =>
        (r.faceValue, r.status)) = [(1000, .listed)]
      ∧ ∀ r ∈ (handleRun (recordedListener 3) recordedCalls freshDb).tables.invoices.rows,
        r.Consistent := by
  have h := (invoice_rows_invariant (recordedListener 3) recordedCalls [] freshDb rfl).1
  rw [List.append_nil] at h
  refine ⟨?_, h⟩
  rw [recordedCalls_tables]
  decide +kernel

end TrusTrove
