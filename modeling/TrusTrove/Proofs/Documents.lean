import TrusTrove.Documents
import TrusTrove.Proofs.Sequence

/-!
# A document's invoices are found by its hash

In every interleaving of the requests that create invoices the table holds, for each invoice, the
hash that was stored last with the time of the first store, so a lookup lists exactly the invoices
whose last hash it is, in the order of their first stores. What is stored comes from a request whose
transaction succeeded, once for each, and an invoice created with a document is not answered before
its hash is stored.
-/

namespace TrusTrove

open Sql

section Rows

/-- The row of an invoice after some stores: the time of the first, the hash of the last. -/
def storedRow (stores : List DocumentStore) (id : String) : Option InvoiceDocumentHash := do
  let first ← stores.find? (·.row.invoiceID = id)
  let last ← stores.reverse.find? (·.row.invoiceID = id)
  return { first.row with documentHash := last.row.documentHash }

theorem storedRow_append (stores : List DocumentStore) (s : DocumentStore) (id : String) :
    storedRow (stores ++ [s]) id =
      if s.row.invoiceID = id then
        some (((storedRow stores id).map
          fun r => { r with documentHash := s.row.documentHash }).getD s.row)
      else storedRow stores id := by
  have hsome : (stores.reverse.find? (·.row.invoiceID = id)).isSome
      = (stores.find? (·.row.invoiceID = id)).isSome := by
    rw [Bool.eq_iff_iff, List.find?_isSome, List.find?_isSome]
    simp
  unfold storedRow
  rw [List.find?_append, List.reverse_append, List.find?_append]
  by_cases h : s.row.invoiceID = id
  · rcases hf : stores.find? (·.row.invoiceID = id) with _ | first
    · subst h
      simp [hf]
    · rw [hf, Option.isSome_some, Option.isSome_iff_exists] at hsome
      obtain ⟨last, hlast⟩ := hsome
      simp [h, hf, hlast]
  · simp [h]

/-- The table is that of the stores that took effect. -/
def DocumentWorld.Replayed (w : DocumentWorld) : Prop :=
  ∀ id, w.hashes.find? id = storedRow w.stores id

/-- What a lookup lists: the invoices that carry the hash, by the time of their first stores. -/
structure Lists (C : Collation) (stores : List DocumentStore) (hash : String) (ids : List String) :
    Prop where
  nodup : ids.Nodup
  mem : ∀ id, id ∈ ids ↔ ∃ r, storedRow stores id = some r ∧ r.documentHash = hash
  sorted : ids.Pairwise fun a b => ∀ ra rb, storedRow stores a = some ra →
    storedRow stores b = some rb → storedBefore C ra rb

instance (C : Collation) : IsTrans InvoiceDocumentHash (storedBefore C) where
  trans a b c := by
    rintro (hab | ⟨hab, hle⟩) (hbc | ⟨hbc, hle'⟩)
    · exact .inl (hab.trans hbc)
    · exact .inl (hbc ▸ hab)
    · exact .inl (hab ▸ hbc)
    · exact .inr ⟨hab.trans hbc, C.trans _ _ _ hle hle'⟩

instance (C : Collation) : Std.Total (storedBefore C) where
  total a b := by
    rcases lt_trichotomy a.createdAt b.createdAt with h | h | h
    · exact .inl (.inl h)
    · exact (C.total a.invoiceID b.invoiceID).imp (fun hle => .inr ⟨h, hle⟩)
        fun hle => .inr ⟨h.symm, hle⟩
    · exact .inr (.inl h)

theorem getInvoiceIDsByDocumentHash_lists (C : Collation) {w : DocumentWorld} (h : w.Replayed)
    (hash : String) :
    ∃ ids, getInvoiceIDsByDocumentHash C hash false w.hashes = .ok ids
      ∧ Lists C w.stores hash ids := by
  refine ⟨_, rfl, ?_, fun id => ?_, ?_⟩
  · refine (List.Perm.map _ (List.perm_insertionSort _ _)).nodup_iff.2 ?_
    exact w.hashes.nodup.sublist (List.filter_sublist.map _)
  · rw [← h id]
    simp only [List.mem_map, List.mem_insertionSort, List.mem_filter, decide_eq_true_eq]
    constructor
    · rintro ⟨r, ⟨hr, hhash⟩, rfl⟩
      exact ⟨r, Table.find?_of_mem hr, hhash⟩
    · rintro ⟨r, hr, hhash⟩
      exact ⟨r, ⟨Table.mem_of_find? hr, hhash⟩, Table.key_of_find? hr⟩
  · rw [List.pairwise_map]
    refine (List.pairwise_insertionSort (storedBefore C) _).imp_of_mem
      fun {a b} ha hb hab ra rb hra hrb => ?_
    have hfind {r : InvoiceDocumentHash}
        (hr : r ∈ (w.hashes.rows.filter (·.documentHash = hash)).insertionSort (storedBefore C)) :
        storedRow w.stores r.invoiceID = some r := by
      rw [← h]
      exact Table.find?_of_mem (List.mem_of_mem_filter ((List.mem_insertionSort _).1 hr))
    rw [hfind ha] at hra
    rw [hfind hb] at hrb
    cases hra
    cases hrb
    exact hab

end Rows

section Calls

/-- The request has not been answered. -/
def CreatePhase.Open : CreatePhase → Prop
  | .answered _ => False
  | _ => True

/-- What `http.Error` writes. -/
def Response.Refuses (r : Response) : Prop := ∃ msg code, r = httpError msg code

/-- A phase that creates nothing: one of a request that goes on, or an error. -/
def CreatePhase.Refusing (phase : CreatePhase) : Prop :=
  phase.Open ∨ ∃ r, phase = .answered r ∧ r.Refuses

theorem refuses_httpError (msg : String) (code : ℕ) : (httpError msg code).Refuses :=
  ⟨msg, code, rfl⟩

theorem Response.Refuses.refusing {r : Response} (h : r.Refuses) :
    (CreatePhase.answered r).Refusing := .inr ⟨r, rfl, h⟩

theorem refusing_httpError (msg : String) (code : ℕ) :
    (CreatePhase.answered (httpError msg code)).Refusing := (refuses_httpError msg code).refusing

theorem CreatePhase.Refusing.not_created {phase : CreatePhase} (h : phase.Refusing) (code : ℕ)
    (m : StringMap String) : phase ≠ .answered ⟨code, .fields m⟩ := by
  rintro rfl
  rcases h with h | ⟨r, h, msg, code', rfl⟩
  · exact h
  · simp [httpError] at h

/-- What `validateCreateInvoiceRequest` refuses is an error, and what it passes has a hash that may
be stored. -/
theorem validateCreateInvoiceRequest_cases (parse : String → Bool) (userAddress : Option String)
    (body : CreateInvoiceRequest) (now : ℤ) :
    (∃ r, validateCreateInvoiceRequest parse userAddress body now = .error r ∧ r.Refuses)
      ∨ ∃ params, validateCreateInvoiceRequest parse userAddress body now = .ok params
        ∧ (body.documentHash = "" ∨ documentHashPattern body.documentHash = true) := by
  unfold validateCreateInvoiceRequest
  split
  · exact .inl ⟨_, rfl, refuses_httpError _ _⟩
  · split_ifs with hmissing hhash hbuyer hlong
    · exact .inl ⟨_, rfl, refuses_httpError _ _⟩
    · exact .inl ⟨_, rfl, refuses_httpError _ _⟩
    · exact .inl ⟨_, rfl, refuses_httpError _ _⟩
    · exact .inl ⟨_, rfl, refuses_httpError _ _⟩
    have hvalid : body.documentHash = "" ∨ documentHashPattern body.documentHash = true := by
      by_contra hnot
      simp_all
    split
    · exact .inl ⟨_, rfl, refuses_httpError _ _⟩
    · split_ifs
      · exact .inl ⟨_, rfl, refuses_httpError _ _⟩
      · unfold validateDueDate
        split_ifs
        · exact .inl ⟨_, rfl, refuses_httpError _ _⟩
        · exact .inl ⟨_, rfl, refuses_httpError _ _⟩
        · exact .inr ⟨_, rfl, hvalid⟩

theorem fetchServerSequence_refuses {answer : Option String} {r : Response}
    (h : fetchServerSequence answer = .error r) : r.Refuses := by
  unfold fetchServerSequence at h
  split at h
  · exact Except.error.inj h ▸ refuses_httpError _ _
  · split at h
    · exact Except.error.inj h ▸ refuses_httpError _ _
    · simp at h

theorem buildCreateInvoiceOp_refuses {T : InvoiceTools} {contractID : String}
    {params : CreateInvoiceParams} {r : Response}
    (h : buildCreateInvoiceOp T contractID params = .error r) : r.Refuses := by
  unfold buildCreateInvoiceOp at h
  cases hv : makeU128ScVal (some params.faceValue) with
  | error err =>
    simp only [hv] at h
    split_ifs at h
    all_goals exact Except.error.inj h ▸ refuses_httpError _ _
  | ok faceValueVal =>
    simp only [hv] at h
    split_ifs at h
    all_goals exact Except.error.inj h ▸ refuses_httpError _ _

theorem assembleTx_refuses {T : InvoiceTools} {contractID : String} {params : CreateInvoiceParams}
    {answer : Option String} {now : ℤ} {r : Response}
    (h : assembleTx T contractID params answer now = .error r) : r.Refuses := by
  unfold assembleTx at h
  cases hs : fetchServerSequence answer with
  | error e =>
    obtain rfl : e = r := by simpa [hs, bind, Except.bind] using h
    exact fetchServerSequence_refuses hs
  | ok seq =>
    cases ho : buildCreateInvoiceOp T contractID params with
    | error e =>
      obtain rfl : e = r := by simpa [hs, ho, bind, Except.bind] using h
      exact buildCreateInvoiceOp_refuses ho
    | ok op =>
      simp only [hs, ho, bind, Except.bind] at h
      split_ifs at h
      · exact Except.error.inj h ▸ refuses_httpError _ _
      · split at h
        · exact Except.error.inj h ▸ refuses_httpError _ _
        · simp at h

theorem simulateCreateInvoiceTx_refuses {T : InvoiceTools} {answer : Option SimulateResponse}
    {r : Response} (h : simulateCreateInvoiceTx T answer = .error r) :
    r.Refuses := by
  unfold simulateCreateInvoiceTx at h
  split at h
  · exact Except.error.inj h ▸ refuses_httpError _ _
  · split at h
    · exact Except.error.inj h ▸ refuses_httpError _ _
    · split at h
      · exact Except.error.inj h ▸ refuses_httpError _ _
      · simp at h

theorem signCreateInvoiceTx_refuses {T : InvoiceTools} {tx : InvoiceTx} {simResp : SimulateResponse}
    {r : Response} (h : signCreateInvoiceTx T tx simResp = .error r) :
    r.Refuses := by
  unfold signCreateInvoiceTx at h
  split_ifs at h
  · exact Except.error.inj h ▸ refuses_httpError _ _
  · split at h
    · exact Except.error.inj h ▸ refuses_httpError _ _
    · simp only [] at h
      split at h
      · exact Except.error.inj h ▸ refuses_httpError _ _
      · simp at h

theorem submitCreate_refusing (invoiceID : String) (answer : SendAnswer) :
    (submitCreate invoiceID answer).Refusing := by
  unfold submitCreate
  split
  · exact refusing_httpError _ _
  · exact refusing_httpError _ _
  · split_ifs
    · exact refusing_httpError _ _
    · exact .inl trivial

/-- A round that stores nothing goes on, refuses, or creates an invoice without a document. -/
theorem pollCreate_cases (c : CreateCall) (hash invoiceID : String) (attempts : ℕ)
    (answer : PollAnswer) (stored : Bool)
    (h : ∀ status error cancelled, answer = .answered status error cancelled →
      status = "SUCCESS" → c.documentHash = "") :
    (pollCreate c hash invoiceID attempts answer stored).Refusing ∨ c.documentHash = "" := by
  unfold pollCreate
  split
  · exact .inl (refusing_httpError _ _)
  · rename_i status error cancelled
    by_cases hs : status = "SUCCESS"
    · exact .inr (h status error cancelled rfl hs)
    · refine .inl ?_
      rw [if_neg hs]
      split_ifs
      · exact refusing_httpError _ _
      · exact refusing_httpError _ _
      · exact refusing_httpError _ _
      · split
        · exact refusing_httpError _ _
        · exact .inl trivial

/-- What a step that stores nothing does to the requests. -/
inductive CallsMove (w w' : CreateWorld) : Prop
  | same (h : w'.calls = w.calls)
  | arrived (c : CreateCall) (h : w'.calls = w.calls ++ [c]) (hc : c.phase.Refusing)
      (hvalid : c.phase.Open → c.documentHash = "" ∨ documentHashPattern c.documentHash = true)
  | went (i : ℕ) (c : CreateCall) (phase : CreatePhase) (hc : w.calls[i]? = some c)
      (hopen : c.phase.Open) (h : w'.calls = w.calls.set i (c.goto phase))
      (hphase : phase.Refusing ∨ c.documentHash = "")

variable {T : InvoiceTools} {contractID : String}

theorem CallsMove.of_arrive (w : CreateWorld) (requestID : String) (userAddress : Option String)
    (body : Except BodyError CreateInvoiceRequest) (now : ℤ) :
    CallsMove w ((CreateStep.arrive requestID userAddress body now).apply T contractID w) := by
  refine .arrived (receiveCreate T requestID userAddress body now) rfl ?_ ?_
  all_goals
    unfold receiveCreate
    split
  · rename_i e
    cases e with
    | tooLarge => exact refusing_httpError _ _
    | malformed => exact refusing_httpError _ _
  · rename_i body
    rcases validateCreateInvoiceRequest_cases T.parse userAddress body now with
      ⟨r, hv, hr⟩ | ⟨params, hv, -⟩
    · rw [hv]
      exact hr.refusing
    · rw [hv]
      exact .inl trivial
  · exact fun h => h.elim
  · rename_i body
    rcases validateCreateInvoiceRequest_cases T.parse userAddress body now with
      ⟨r, hv, -⟩ | ⟨params, hv, hvalid⟩
    · rw [hv]
      exact fun h => h.elim
    · rw [hv]
      exact fun _ => hvalid

theorem CallsMove.of_fetch (w : CreateWorld) (i : ℕ) (reached : Bool) (now : ℤ) :
    CallsMove w ((CreateStep.fetchServerSequence i reached now).apply T contractID w) := by
  simp only [CreateStep.apply]
  split
  · rename_i c hc
    split
    · rename_i params hph
      split
      · rename_i r hr
        exact .went i c _ hc (by rw [hph]; trivial) rfl (.inl (assembleTx_refuses hr).refusing)
      · exact .went i c _ hc (by rw [hph]; trivial) rfl (.inl (.inl trivial))
    · exact .same rfl
  · exact .same rfl

theorem CallsMove.of_simulate (w : CreateWorld) (i : ℕ) (answer : Option SimulateResponse) :
    CallsMove w ((CreateStep.simulate i answer).apply T contractID w) := by
  simp only [CreateStep.apply]
  split
  · rename_i c hc
    split
    · rename_i tx readAt hph
      split
      · rename_i r hr
        refine .went i c _ hc (by rw [hph]; trivial) rfl (.inl ?_)
        cases hs : simulateCreateInvoiceTx T answer with
        | error e =>
          obtain rfl : e = r := by simpa [hs, bind, Except.bind] using hr
          exact (simulateCreateInvoiceTx_refuses hs).refusing
        | ok simulated =>
          cases hg : signCreateInvoiceTx T tx simulated.1 with
          | error e =>
            obtain rfl : e = r := by simpa [hs, hg, bind, Except.bind] using hr
            exact (signCreateInvoiceTx_refuses hg).refusing
          | ok signed => simp [hs, hg, bind, Except.bind, pure, Except.pure] at hr
      · exact .went i c _ hc (by rw [hph]; trivial) rfl (.inl (.inl trivial))
    · exact .same rfl
  · exact .same rfl

theorem CallsMove.of_send (w : CreateWorld) (i : ℕ) (answer : SendAnswer) :
    CallsMove w ((CreateStep.send i answer).apply T contractID w) := by
  simp only [CreateStep.apply]
  split
  · rename_i c hc
    split
    · rename_i env invoiceID readAt hph
      exact .went i c _ hc (by rw [hph]; trivial) rfl (.inl (submitCreate_refusing _ _))
    · exact .same rfl
  · exact .same rfl

theorem CallsMove.of_poll (w : CreateWorld) (i : ℕ) (answer : PollAnswer) (stored : Bool)
    (h : storing w (.poll i answer stored) = none) :
    CallsMove w ((CreateStep.poll i answer stored).apply T contractID w) := by
  simp only [CreateStep.apply]
  split
  · rename_i c hc
    split
    · rename_i hash invoiceID attempts hph
      refine .went i c _ hc (by rw [hph]; trivial) rfl (pollCreate_cases c hash invoiceID attempts
        answer stored fun status error cancelled hans hs => ?_)
      subst hans
      by_contra hne
      simp [storing, hc, hph, hs, hne] at h
    · exact .same rfl
  · exact .same rfl

theorem CreateStep.callsMove (step : CreateStep) (w : CreateWorld) (h : storing w step = none) :
    CallsMove w (step.apply T contractID w) := by
  cases step with
  | arrive requestID userAddress body now => exact .of_arrive w requestID userAddress body now
  | fetchServerSequence i reached now => exact .of_fetch w i reached now
  | simulate i answer => exact .of_simulate w i answer
  | send i answer => exact .of_send w i answer
  | poll i answer stored => exact .of_poll w i answer stored h
  | close k =>
    simp only [CreateStep.apply]
    split
    · split_ifs
      · exact .same rfl
      · exact .same rfl
    · exact .same rfl

end Calls

section Runs

/-- What holds of a request and the stores at any time. -/
structure CallKept (stores : List DocumentStore) (i : ℕ) (c : CreateCall) : Prop where
  valid : c.phase.Open → c.documentHash = "" ∨ documentHashPattern c.documentHash = true
  unstored : c.phase.Open → ∀ s ∈ stores, s.request ≠ i
  created : ∀ m, c.phase = .answered ⟨201, .fields m⟩ → c.documentHash ≠ "" →
    ∃ s ∈ stores, s.request = i ∧ s.row.documentHash = c.documentHash
      ∧ m.get? "invoice_id" = some s.row.invoiceID

/-- The request behind a store: it was told of the invoice, or that its document is not known to be
stored. -/
def StoredBy (w : CreateWorld) (s : DocumentStore) : Prop :=
  ∃ c, w.calls[s.request]? = some c ∧ c.documentHash = s.row.documentHash
    ∧ ((∃ hash, c.phase = .answered ⟨201, .fields [("invoice_id", s.row.invoiceID),
        ("transaction_hash", hash), ("status", "SUCCESS")]⟩)
      ∨ c.phase = .answered (internalError c.requestID "failed to store invoice document hash"))

structure DocumentsKept (w : DocumentWorld) : Prop where
  replayed : w.Replayed
  calls : ∀ i c, w.create.calls[i]? = some c → CallKept w.stores i c
  stores : ∀ s ∈ w.stores, s.row.fits = true ∧ StoredBy w.create s
  once : (w.stores.map (·.request)).Nodup

variable {T : InvoiceTools} {contractID : String}

theorem StoredBy.of_calls {w w' : CreateWorld} {s : DocumentStore} (h : StoredBy w s)
    (hcalls : ∀ c, w.calls[s.request]? = some c → ¬ c.phase.Open → w'.calls[s.request]? = some c) :
    StoredBy w' s := by
  obtain ⟨c, hc, hhash, hphase⟩ := h
  refine ⟨c, hcalls c hc fun hopen => ?_, hhash, hphase⟩
  rcases hphase with ⟨hash, hp⟩ | hp
  · rw [hp] at hopen
    exact hopen
  · rw [hp] at hopen
    exact hopen

/-- A step that stores nothing. -/
theorem DocumentsKept.move {w : DocumentWorld} {create : CreateWorld} (h : DocumentsKept w)
    (hmove : CallsMove w.create create) : DocumentsKept { w with create } := by
  refine ⟨h.replayed, fun i c' hc' => ?_, fun s hs => ⟨(h.stores s hs).1,
    (h.stores s hs).2.of_calls fun c hc hopen => ?_⟩, h.once⟩
  · cases hmove with
    | same hcalls =>
      simp only [hcalls] at hc'
      exact h.calls i c' hc'
    | arrived c hcalls hrefuses hvalid =>
      simp only [hcalls, List.getElem?_append] at hc'
      split_ifs at hc' with hi
      · exact h.calls i c' hc'
      · rw [List.getElem?_singleton] at hc'
        split_ifs at hc'
        cases hc'
        refine ⟨hvalid, fun _ s hs hreq => ?_, fun m hm => absurd hm (hrefuses.not_created _ m)⟩
        obtain ⟨c, hc, -⟩ := (h.stores s hs).2
        have := (List.getElem?_eq_some_iff.1 hc).1
        omega
    | went j c phase hc hopen hcalls hphase =>
      have hj := (List.getElem?_eq_some_iff.1 hc).1
      simp only [hcalls, List.getElem?_set] at hc'
      split_ifs at hc' with hij
      · subst hij
        cases hc'
        have hkept := h.calls j c hc
        refine ⟨fun _ => hkept.valid hopen, fun _ => hkept.unstored hopen, fun m hm hne => ?_⟩
        rcases hphase with hphase | hempty
        · exact absurd hm (hphase.not_created _ m)
        · exact absurd hempty hne
      · exact h.calls i c' hc'
  · cases hmove with
    | same hcalls => rw [hcalls, hc]
    | arrived c' hcalls _ _ =>
      rw [hcalls, List.getElem?_append_left (List.getElem?_eq_some_iff.1 hc).1, hc]
    | went j c' phase hc' hopen' hcalls _ =>
      have hj : j ≠ s.request := by
        rintro rfl
        rw [hc] at hc'
        cases hc'
        exact hopen hopen'
      rw [hcalls, List.getElem?_set_ne hj, hc]

/-- The table after a statement that may take effect. -/
theorem storeInvoiceDocumentHash_snd (d : DocumentStep) (invoiceID documentHash : String)
    (t : DocumentHashes) :
    (storeInvoiceDocumentHash invoiceID documentHash d.now d.statement t).2 =
      if d.takes ⟨invoiceID, documentHash, d.now⟩ then
        t.insertOrUpdate ⟨invoiceID, documentHash, d.now⟩ (fun r => { r with documentHash })
          fun _ => rfl
      else t := by
  unfold storeInvoiceDocumentHash DocumentStep.takes
  by_cases hfits : (⟨invoiceID, documentHash, d.now⟩ : InvoiceDocumentHash).fits = true
  · cases hs : d.statement <;> simp [hfits]
  · simp [hfits]

/-- A statement that is answered has taken effect. -/
theorem takes_of_ok {d : DocumentStep} {invoiceID documentHash : String} {t : DocumentHashes}
    (h : (storeInvoiceDocumentHash invoiceID documentHash d.now d.statement t).1.isOk = true) :
    d.takes ⟨invoiceID, documentHash, d.now⟩ = true := by
  unfold storeInvoiceDocumentHash at h
  unfold DocumentStep.takes
  by_cases hfits : (⟨invoiceID, documentHash, d.now⟩ : InvoiceDocumentHash).fits = true
  · cases hs : d.statement <;> simp [hfits, hs, Except.isOk, Except.toBool] at h ⊢
  · simp [hfits, Except.isOk, Except.toBool] at h

/-- The step that stores is the last round of a request. -/
theorem storing_eq {w : CreateWorld} {step : CreateStep} {i : ℕ} {invoiceID documentHash : String}
    (h : storing w step = some (i, invoiceID, documentHash)) :
    ∃ error cancelled stored c hash attempts,
      step = .poll i (.answered "SUCCESS" error cancelled) stored ∧ w.calls[i]? = some c
        ∧ c.phase = .polling hash invoiceID attempts ∧ c.documentHash = documentHash
        ∧ documentHash ≠ "" := by
  unfold storing at h
  split at h
  · rename_i j status error cancelled stored
    split at h
    · simp at h
    · rename_i c hc
      split at h
      · rename_i hash id attempts hphase
        split_ifs at h with hsuccess
        simp only [Option.some.injEq, Prod.mk.injEq] at h
        obtain ⟨rfl, rfl, rfl⟩ := h
        exact ⟨error, cancelled, stored, c, hash, attempts, by rw [hsuccess.1], hc, hphase, rfl,
          hsuccess.2⟩
      · simp at h
  · simp at h

/-- The end of a request with a document, by the answer of its statement. -/
def storedPhase (requestID hash invoiceID : String) (ok : Bool) : CreatePhase :=
  if ok then .answered ⟨201, .fields [("invoice_id", invoiceID), ("transaction_hash", hash),
    ("status", "SUCCESS")]⟩
  else .answered (internalError requestID "failed to store invoice document hash")

theorem pollCreate_success (c : CreateCall) (hash invoiceID error : String) (attempts : ℕ)
    (cancelled : Option String) (stored : Bool) (h : c.documentHash ≠ "") :
    pollCreate c hash invoiceID attempts (.answered "SUCCESS" error cancelled) stored =
      storedPhase c.requestID hash invoiceID stored := by
  cases stored <;> simp [pollCreate, storedPhase, h]

theorem storedPhase_closed (requestID hash invoiceID : String) (ok : Bool) :
    ¬ (storedPhase requestID hash invoiceID ok).Open := by
  cases ok <;> exact id

theorem CallKept.mono {stores : List DocumentStore} {i : ℕ} {c : CreateCall}
    (h : CallKept stores i c) {s : DocumentStore} (hs : s.request ≠ i) :
    CallKept (stores ++ [s]) i c := by
  refine ⟨h.valid, fun hopen s' hs' => ?_, fun m hm hne => ?_⟩
  · rcases List.mem_append.1 hs' with hold | hnew
    · exact h.unstored hopen s' hold
    · rw [List.mem_singleton.1 hnew]
      exact hs
  · obtain ⟨s', hs', hrest⟩ := h.created m hm hne
    exact ⟨s', List.mem_append_left _ hs', hrest⟩

/-- A statement that takes effect, of a request that is answered for it. -/
theorem DocumentsKept.store {w : DocumentWorld} (h : DocumentsKept w) {i : ℕ} {c : CreateCall}
    {row : InvoiceDocumentHash} {hash : String} {ok : Bool} {create : CreateWorld}
    (hc : w.create.calls[i]? = some c) (hopen : c.phase.Open) (hfits : row.fits = true)
    (hhash : c.documentHash = row.documentHash)
    (hcreate : create.calls =
      w.create.calls.set i (c.goto (storedPhase c.requestID hash row.invoiceID ok))) :
    DocumentsKept ⟨create, w.hashes.insertOrUpdate row
      (fun r => { r with documentHash := row.documentHash }) (fun _ => rfl),
      w.stores ++ [⟨i, row⟩]⟩ := by
  have hi := (List.getElem?_eq_some_iff.1 hc).1
  have hkept := h.calls i c hc
  have hclosed := storedPhase_closed c.requestID hash row.invoiceID ok
  refine ⟨fun id => ?_, fun j c' hc' => ?_, fun s hs => ?_, ?_⟩
  · rw [Table.find?_insertOrUpdate, h.replayed, storedRow_append]
  · rw [hcreate, List.getElem?_set] at hc'
    split_ifs at hc' with hij
    · subst hij
      cases hc'
      refine ⟨fun ho => absurd ho hclosed, fun ho => absurd ho hclosed, fun m hm _ => ?_⟩
      refine ⟨⟨i, row⟩, by simp, rfl, hhash.symm, ?_⟩
      cases ok with
      | true =>
        simp only [CreateCall.goto, storedPhase, if_true, CreatePhase.answered.injEq,
          Response.mk.injEq, ResponseBody.fields.injEq, true_and] at hm
        rw [← hm]
        rfl
      | false => simp [CreateCall.goto, storedPhase, internalError, httpError] at hm
    · exact (h.calls j c' hc').mono hij
  · rcases List.mem_append.1 hs with hold | hnew
    · refine ⟨(h.stores s hold).1, (h.stores s hold).2.of_calls fun c' hc' _ => ?_⟩
      rw [hcreate, List.getElem?_set_ne (hkept.unstored hopen s hold).symm, hc']
    · rw [List.mem_singleton.1 hnew]
      refine ⟨hfits, c.goto (storedPhase c.requestID hash row.invoiceID ok), by simp [hcreate, hi],
        hhash, ?_⟩
      cases ok with
      | true => exact .inl ⟨hash, rfl⟩
      | false => exact .inr rfl
  · rw [List.map_append, List.nodup_append]
    refine ⟨h.once, by simp, fun a ha b hb => ?_⟩
    obtain ⟨s, hs, rfl⟩ := List.mem_map.1 ha
    obtain rfl : b = i := by simpa using hb
    exact hkept.unstored hopen s hs

theorem DocumentsKept.apply {w : DocumentWorld} (h : DocumentsKept w) (d : DocumentStep) :
    DocumentsKept (d.apply T contractID w) := by
  unfold DocumentStep.apply
  cases hstoring : storing w.create d.step with
  | none => exact h.move (d.step.callsMove w.create hstoring)
  | some stored =>
    obtain ⟨i, invoiceID, documentHash⟩ := stored
    obtain ⟨error, cancelled, flag, c, hash, attempts, hstep, hc, hphase, rfl, hne⟩ :=
      storing_eq hstoring
    have hopen : c.phase.Open := by
      rw [hphase]
      trivial
    have hcalls (ok : Bool) : ((d.step.withStored ok).apply T contractID w.create).calls
        = w.create.calls.set i (c.goto (storedPhase c.requestID hash invoiceID ok)) := by
      rw [hstep, ← pollCreate_success c hash invoiceID error attempts cancelled ok hne]
      simp only [CreateStep.withStored, CreateStep.apply, hc, hphase]
    simp only [storeInvoiceDocumentHash_snd]
    split_ifs with htakes
    · have hfits : (⟨invoiceID, c.documentHash, d.now⟩ : InvoiceDocumentHash).fits = true := by
        simp only [DocumentStep.takes, Bool.and_eq_true] at htakes
        exact htakes.1
      exact h.store hc hopen hfits rfl (hcalls _)
    · refine h.move (.went i c _ hc hopen (hcalls _) (.inl ?_))
      cases hok : (storeInvoiceDocumentHash invoiceID c.documentHash d.now d.statement
          w.hashes).1.isOk with
      | true => exact absurd (takes_of_ok hok) htakes
      | false => exact refusing_httpError _ _

theorem documentRun_kept : ∀ (steps : List DocumentStep) {w : DocumentWorld}, DocumentsKept w →
    DocumentsKept (documentRun T contractID steps w)
  | [], _, h => h
  | d :: steps, _, h => documentRun_kept steps (h.apply d)

/-- In every interleaving of the requests that create invoices: a lookup lists exactly the invoices
whose last stored hash it is asked for, each once and in the order of their first stores. A store
is of one request, which was told of its invoice or that the document may be missing, and a request
with a document that is told of its invoice has stored it. -/
theorem document_lookups_over_runs (T : InvoiceTools) (contractID : String) (C : Collation)
    (sequence : ℕ) (steps : List DocumentStep) (requestID hash : String) :
    let w := documentRun T contractID steps ⟨freshAccount sequence, .empty, []⟩
    (∃ ids, Lists C w.stores hash ids
      ∧ handleGetInvoicesByDocumentHash C requestID hash false w.hashes =
        if documentHashPattern hash then .ok (ids.map prefixed)
        else .error (httpError ("invalid document hash: must be 64 lowercase hexadecimal "
          ++ "characters without a 0x prefix") 400))
    ∧ (∀ s ∈ w.stores, documentHashPattern s.row.documentHash = true ∧ StoredBy w.create s)
    ∧ (w.stores.map (·.request)).Nodup
    ∧ ∀ i c, w.create.calls[i]? = some c → CallKept w.stores i c := by
  intro w
  have hkept : DocumentsKept w := by
    refine documentRun_kept steps ⟨fun id => rfl, fun i c hc => ?_, fun s hs => ?_, List.nodup_nil⟩
    · simp [freshAccount] at hc
    · simp at hs
  obtain ⟨ids, hids, hlists⟩ := getInvoiceIDsByDocumentHash_lists C hkept.replayed hash
  refine ⟨⟨ids, hlists, ?_⟩, fun s hs => ⟨?_, (hkept.stores s hs).2⟩, hkept.once, hkept.calls⟩
  · unfold handleGetInvoicesByDocumentHash
    rw [hids]
    by_cases hpattern : documentHashPattern hash = true
    · simp [hpattern]
    · simp [hpattern]
  · have hfits := (hkept.stores s hs).1
    simp only [InvoiceDocumentHash.fits, Bool.and_eq_true] at hfits
    exact hfits.2

/-- A request that creates the invoice `id` with a document. -/
def creationWithDocument (hash : String) (i : ℕ) (id : String) (now : ℤ) : List DocumentStep :=
  [.arrive "req" (some "GA") (.ok ⟨"GB", "1000", 86400, hash⟩) 0, .fetchServerSequence i true 0,
    .simulate i (some ⟨"data", "100", [id]⟩), .send i (.answered "hash" "PENDING" ""),
    .poll i (.answered "SUCCESS" "" none) true].map fun step => ⟨step, now, .done⟩

/-- Two requests with the same document, and the rows they leave. -/
def sharedDocument (hash : String) : List InvoiceDocumentHash :=
  (documentRun ⟨fun _ => true, fun _ => true, fun _ => true, fun _ => true, fun _ => some "tx", .ok,
    fun _ => true, fun _ => .ok "signed"⟩ "CC" (creationWithDocument hash 0 "02" 50
      ++ creationWithDocument hash 1 "01" 60) ⟨freshAccount 41, .empty, []⟩).hashes.rows

example : (sharedDocument (String.ofList (List.replicate 64 'a'))).map (·.invoiceID)
    = ["02", "01"] := by
  decide +kernel

end Runs

end TrusTrove
