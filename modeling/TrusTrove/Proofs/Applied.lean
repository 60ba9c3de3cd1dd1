import TrusTrove.Proofs.InvoiceRow

/-!
# The events applied to a row

An event's kind says which one update of a row it may make (`EventKind.Moves`), and every handler,
with what follows it, keeps to its kind (`handleEvent_kind`). So the columns of a row tell which
events have been applied to it: `History` ties the two together, and each call keeps it
(`handleRun_history`).
-/

namespace TrusTrove

open Sql Relation

/-- The update of a row an event of a kind makes. -/
inductive EventKind.Moves : EventKind → DbInvoice → DbInvoice → Prop
  | listed (r : DbInvoice) (d : ℤ) : r.status = .created →
      Moves .listed r { r with status := .listed, discountBps := d }
  | funded (r : DbInvoice) (amount t : ℤ) : r.status = .listed →
      Moves .funded r { r with status := .funded, fundedAmount := amount, fundedAt := some t }
  | shipped (r : DbInvoice) (t : ℤ) : r.status = .funded →
      Moves .shipped r { r with status := .active, shippedAt := some t, issuerConfirmed := true }
  | confirmed (r : DbInvoice) (t : ℤ) : r.status = .active →
      Moves .deliveryConfirmed r
        { r with status := .confirmed, buyerConfirmed := true, buyerConfirmedAt := some t }
  | repaid (r : DbInvoice) (t : ℤ) : r.status = .confirmed →
      Moves .repaid r { r with status := .repaid, repaidAt := some t }
  | defaulted (r : DbInvoice) :
    r.deployed = true → Moves .defaulted r { r with status := .defaulted }
  | attested (r : DbInvoice) (agent hash : String) (score t : ℤ) :
      Moves .attestation r { r with
        attestationAgentID := some agent, riskScoreBps := some score, evidenceHash := some hash
        attestedAt := some t }

/-- What an event of a kind makes of the row under an id. -/
inductive EventKind.RowChange (kind : EventKind) : Option DbInvoice → Option DbInvoice → Prop
  | keep (o : Option DbInvoice) : RowChange kind o o
  | create (inv : DbInvoice) : kind = .created → inv.Initial → RowChange kind none (some inv)
  | move (r r' : DbInvoice) : kind.Moves r r' → RowChange kind (some r) (some r')

/-- An event of a kind changes the rows of `invoices` as its kind may. -/
def KindWrites (kind : EventKind) (w w' : Tables) : Prop :=
  ∀ id, kind.RowChange (w.invoices.find? id) (w'.invoices.find? id)

section Kind

variable {kind : EventKind}

/-- Only an attestation can be repeated. -/
theorem EventKind.Moves.trans {a b c : DbInvoice} (h : kind.Moves a b) (h' : kind.Moves b c) :
    kind.Moves a c := by
  cases h with
  | attested a agent hash score t =>
    cases h' with
    | attested _ agent hash score t => exact .attested a agent hash score t
  | defaulted a hd =>
    cases h' with
    | defaulted _ hd' => simp [DbInvoice.deployed] at hd'
  | _ =>
    cases h'
    contradiction

/-- The other updates are seen in the status. -/
theorem EventKind.Moves.status_ne {r r' : DbInvoice} (h : kind.Moves r r')
    (hkind : kind ≠ .attestation) :
    r'.status ≠ r.status := by
  cases h with
  | attested => exact absurd rfl hkind
  | defaulted _ hd => rcases DbInvoice.deployed_iff.1 hd with hs | hs | hs <;> simp [hs]
  | _ => simp_all

theorem EventKind.RowChange.trans {a b c : Option DbInvoice} (h : kind.RowChange a b)
    (h' : kind.RowChange b c) : kind.RowChange a c := by
  cases h with
  | keep => exact h'
  | create inv hkind hinit =>
    cases h' with
    | keep => exact .create inv hkind hinit
    | move _ r' hmove =>
      subst hkind
      cases hmove
  | move r r' hmove =>
    cases h' with
    | keep => exact .move r r' hmove
    | move _ r'' hmove' => exact .move r r'' (hmove.trans hmove')

instance : Std.Refl (KindWrites kind) := ⟨fun w id => .keep (w.invoices.find? id)⟩

instance : IsTrans Tables (KindWrites kind) := ⟨fun _ _ _ h h' id => (h id).trans (h' id)⟩

theorem KindWrites.of_invoices {w w' : Tables} (h : w'.invoices = w.invoices) :
    KindWrites kind w w' := by
  intro id
  rw [h]
  exact .keep (w.invoices.find? id)

theorem KindWrites.of_move {w w' : Tables} {id : String} {r r' : DbInvoice}
    (hr : w.invoices.find? id = some r) (hmove : kind.Moves r r')
    (hw : ∀ k, w'.invoices.find? k = if k = id then some r' else w.invoices.find? k) :
    KindWrites kind w w' := by
  intro k
  rw [hw]
  split_ifs with hk
  · rw [hk, hr]
    exact .move r r' hmove
  · exact .keep (w.invoices.find? k)

theorem KindWrites.of_insert {w w' : Tables} {inv : DbInvoice} (hkind : kind = .created)
    (hinit : inv.Initial) (hw : w'.invoices = w.invoices.insertNew inv) : KindWrites kind w w' := by
  intro k
  rw [hw, Table.find?_insertNew]
  split_ifs
  · rcases w.invoices.find? k with _ | r
    · exact .create inv hkind hinit
    · exact .keep (some r)
  · exact .keep (w.invoices.find? k)

end Kind

section Handlers

variable {Q : Shared → Shared → Prop} [Std.Refl Q] [IsTrans Shared Q]

variable (sdk : Sdk) (stats : Except GoError ScVal) (event : SorobanEvent) (t : ℤ)

theorem updateInvoice_kind {kind : EventKind} {id operation target : String}
    {guard : DbInvoice → Bool} {set : DbInvoice → Option DbInvoice}
    {hset : ∀ r, ((set r).getD r).id = r.id}
    (hmove : ∀ r r', guard r = true → set r = some r' → kind.Moves r r') :
    Respects (KindWrites kind) Q (updateInvoice id operation target guard set hset) := by
  refine updateInvoice_respects fun w n w' h => ?_
  rcases execUpdate_ok h with ⟨-, rfl, -⟩ | ⟨-, r, r', hr, hg, hr', -, t, rfl, ht⟩
  · exact refl_of (KindWrites kind) _
  · exact .of_move hr (hmove r r' hg hr') ht

theorem handleRegistrationEvent_kind (name : String) (kind : EventKind) :
    Respects (KindWrites kind) Q (handleRegistrationEvent sdk event t name) := by
  unfold handleRegistrationEvent
  refine .bind (.ofExcept _) fun val => ?_
  simp only []
  split_ifs
  · exact .fail _
  · exact logEvent_respects fun w _ => .of_invoices rfl

/-- Every handler keeps to its kind. -/
theorem runHandler_kind (name : String) (kind : EventKind)
    (hsync : kind.syncsPool = true → Respects (KindWrites kind) Q (syncPoolStats stats)) :
    Respects (KindWrites kind) Q (runHandler sdk stats event t name kind) := by
  cases kind <;> simp only [runHandler]
  case created =>
    refine .bind ?_ fun _ => .pure _
    unfold handleInvoiceCreated
    refine .bind (.ofExcept _) fun val => ?_
    simp only []
    split_ifs
    · exact .fail _
    split
    · exact .mapError _ (.onTx _ fun w a w' h => by cases h)
    · refine .bind (.mapError _ (.onTx _ fun w a w' h => ?_)) fun _ => .pure _
      split_ifs at h
      cases h
      exact .of_insert rfl ⟨rfl, rfl, rfl, rfl, rfl, rfl, rfl, rfl, rfl⟩ rfl
  case listed =>
    refine .bind (.bind (.ofExcept _) fun id => .bind (.ofExcept _) fun val => ?_) fun _ => .pure _
    unfold updateInvoiceListed
    split_ifs
    · refine updateInvoice_kind fun r r' hg hr => ?_
      cases hr
      exact .listed r _ (by simpa using hg)
    · exact .mapError _ (.onTx _ fun w a w' h => by cases h)
  case funded =>
    refine .bind (.bind (.ofExcept _) fun id => .bind (.ofExcept _) fun val => ?_) fun _ => .pure _
    refine .bind ?_ fun _ => hsync rfl
    unfold updateInvoiceFunded
    split
    · exact .mapError _ (.onTx _ fun w a w' h => by cases h)
    · rename_i amount _
      refine updateInvoice_kind fun r r' hg hr => ?_
      cases hr
      exact .funded r amount t (by simpa using hg)
  case shipped =>
    refine .bind (.bind (.ofExcept _) fun id => ?_) fun _ => .pure _
    refine updateInvoice_kind fun r r' hg hr => ?_
    cases hr
    exact .shipped r t (by simpa using hg)
  case deliveryConfirmed =>
    refine .bind (.bind (.ofExcept _) fun id => ?_) fun _ => .pure _
    refine updateInvoice_kind fun r r' hg hr => ?_
    cases hr
    exact .confirmed r t (by simpa using hg)
  case repaid =>
    refine .bind (.bind (.ofExcept _) fun id => .bind ?_ fun _ => hsync rfl) fun _ => .pure _
    refine updateInvoice_kind fun r r' hg hr => ?_
    cases hr
    exact .repaid r t (by simpa using hg)
  case defaulted =>
    refine .bind (.bind (.ofExcept _) fun id => .bind ?_ fun _ => hsync rfl) fun _ => .pure _
    refine updateInvoice_kind fun r r' hg hr => ?_
    cases hr
    exact .defaulted r hg
  case attestation =>
    refine .bind (.bind (.ofExcept _) fun id => ?_) fun _ => .pure _
    unfold updateInvoiceAttestation
    simp only []
    split_ifs
    · refine .bind (.mapError _ (.onTx _ fun w n w' h => ?_)) fun rows => ?_
      · rcases execUpdate_ok h with ⟨-, rfl, -⟩ | ⟨-, r, r', hr, -, hr', -, tab, rfl, ht⟩
        · exact refl_of (KindWrites .attestation) _
        · cases hr'
          exact .of_move hr (.attested r _ _ _ _) ht
      · split_ifs
        · exact .fail _
        · exact .pure _
    · exact .mapError _ (.onTx _ fun w a w' h => by cases h)
  case registration =>
    exact .bind (handleRegistrationEvent_kind sdk event t name .registration) fun _ => .pure _
  all_goals exact .ofExcept _

end Handlers

section Event

variable (L : EventListener) (stats : Except GoError ScVal) (now : ℕ) (event : SorobanEvent)

theorem tailWrites_le_kindWrites (ev : String) (kind : EventKind) :
    TailWrites ev ≤ KindWrites kind :=
  fun _ _ h => .of_invoices h.invoices

/-- An event whose name selects a kind changes rows as the kind may; any other changes none. -/
theorem handleEvent_kind (O : ℕ → Bool) (s : Db) :
    (handleEvent L stats now O s event).2.tables.invoices = s.tables.invoices
      ∨ ∃ name kind, eventName L event = .ok name ∧ eventKind name = some kind
        ∧ KindWrites kind s.tables (handleEvent L stats now O s event).2.tables := by
  unfold handleEvent
  split
  · exact .inl rfl
  rename_i name hname
  split
  · exact .inl rfl
  rcases hkind : eventKind name with _ | kind
  · have hnothing : Respects Eq SnapshotOnly (eventBody L stats now event name) := by
      unfold eventBody
      rw [hkind]
      exact .pure _
    exact .inl (congrArg Tables.invoices (hnothing.withTx _ _ O s).1.symm)
  · have hbody : Respects (KindWrites kind) SnapshotOnly (eventBody L stats now event name) := by
      unfold eventBody
      rw [hkind]
      split
      · exact .pure _
      · exact handleRegistrationEvent_kind _ _ _ _ _
      · rename_i kind _ hsome
        cases hsome
        exact .bind (.attempt (runHandler_kind _ _ _ _ _ kind fun _ => syncPoolStats_writes stats))
          fun r => .mono (tailWrites_le_kindWrites event.id kind)
            (afterHandler_writes L now event name _ r)
    exact .inr ⟨name, kind, hname, hkind, (hbody.withTx _ _ O s).1⟩

end Event

section History

/-- The columns of a row as the kinds of the events applied to it have left them. -/
structure History (A : EventKind → Prop) (r : DbInvoice) : Prop where
  created : A .created
  listed : A .listed ↔ r.status ≠ .created
  funded : A .funded ↔ r.fundedAt.isSome
  shipped : A .shipped ↔ r.issuerConfirmed = true
  confirmed : A .deliveryConfirmed ↔ r.buyerConfirmed = true
  repaid : A .repaid ↔ r.status = .repaid
  defaulted : A .defaulted ↔ r.status = .defaulted
  delivered : r.status = .confirmed ∨ r.status = .repaid → r.buyerConfirmed = true

/-- `History` of the row under an id: where there is none, no event has been applied. -/
def RowHistory (A : EventKind → Prop) : Option DbInvoice → Prop
  | none => ∀ kind, ¬ A kind
  | some r => History A r

variable {A A' : EventKind → Prop} {kind : EventKind}

theorem History.initial {inv : DbInvoice} (hinit : inv.Initial) (hA : ∀ k, A k ↔ k = .created) :
    History A inv := by
  constructor <;>
    simp [hA, hinit.status, hinit.fundedAt, hinit.issuerConfirmed, hinit.buyerConfirmed]

/-- An update adds its kind, and changes the columns that tell of it. -/
theorem History.move {r r' : DbInvoice} (h : History A r) (hmove : kind.Moves r r')
    (hA : ∀ k, k ≠ .attestation → (A' k ↔ A k ∨ k = kind)) : History A' r' := by
  have hcreated := h.created
  have hlisted := h.listed
  have hfunded := h.funded
  have hshipped := h.shipped
  have hconfirmed := h.confirmed
  have hrepaid := h.repaid
  have hdefaulted := h.defaulted
  have hdelivered := h.delivered
  cases hmove with
  | defaulted _ hd =>
    rcases DbInvoice.deployed_iff.1 hd with hs | hs | hs <;>
      constructor <;> simp_all
  | _ => constructor <;> simp_all

theorem RowHistory.change {o o' : Option DbInvoice} (h : RowHistory A o)
    (hchange : kind.RowChange o o') (hA : ∀ k, A' k ↔ A k ∨ k = kind ∧ o' ≠ o) :
    RowHistory A' o' := by
  cases hchange with
  | keep =>
    have hsame : A' = A := by
      funext k
      simp [hA]
    exact hsame ▸ h
  | create inv hkind hinit =>
    refine History.initial hinit fun k => ?_
    rw [hA, hkind]
    simp [h k]
  | move r r' hmove =>
    refine History.move h hmove fun k hk => ?_
    rw [hA]
    refine or_congr_right (and_iff_left_of_imp ?_)
    rintro rfl hsame
    exact hmove.status_ne hk (congrArg DbInvoice.status (Option.some.inj hsame))

end History

end TrusTrove
