import TrusTrove.Challenge

/-!
# Challenges are single-use and bound to their client

A submission that passes the checks carries the server's signature on its hash, so it is one of the
challenges the server built: the other transactions the server signs hold no challenge. Its nonce is
then that of the challenge, and `consume` deletes it. Only a submission the client signed gets that
far, so no other one can take the nonce out of the store, and `put` only drops what has expired.
-/

namespace TrusTrove

variable {Hash Signature : Type} {K : Txnbuild Hash Signature} {C : AuthConfig}

section Checks

variable {clientAddr : String} {txHash : Hash}

theorem checkSignatures_eq : ∀ (sigs : List Signature) (signed : Bool × Bool),
    checkSignatures K C clientAddr txHash sigs signed =
      (signed.1 || sigs.any fun sig => K.verify C.server txHash sig,
        signed.2 || sigs.any fun sig => !K.verify C.server txHash sig
          && (K.parse clientAddr && K.verify clientAddr txHash sig))
  | [], signed => by simp [checkSignatures]
  | sig :: sigs, (serverSigned, clientSigned) => by
    unfold checkSignatures
    split_ifs with hserver hclient
    · rw [checkSignatures_eq sigs]
      simp [hserver]
    · rw [checkSignatures_eq sigs]
      simp only [Bool.and_eq_true] at hclient
      simp [hserver, hclient.1, hclient.2]
    · rw [checkSignatures_eq sigs]
      simp only [Bool.not_eq_true] at hserver hclient
      simp [hserver, hclient]

/-- What the checks of `VerifyChallenge` establish of a submission. -/
structure Passes (K : Txnbuild Hash Signature) (C : AuthConfig) (signedXDR : String) (now : ℤ)
    (sub : Submission) (sigs : List Signature) (txHash : Hash) : Prop where
  parsed : K.transactionFromXDR signedXDR = .ok (some (sub.tx, sigs))
  source : sub.tx.sourceAccount = C.server
  operations : sub.tx.operations = [.manageData sub.clientAddr challengeOperationName sub.nonce]
  clientAddr_ne : sub.clientAddr ≠ ""
  nonce_ne : sub.nonce ≠ ""
  maxTime_ne : sub.tx.maxTime ≠ 0
  begun : sub.tx.minTime ≤ unix now
  open_ : unix now ≤ sub.tx.maxTime
  hashed : K.hash C.passphrase sub.tx = .ok txHash
  server : ∃ sig ∈ sigs, K.verify C.server txHash sig = true
  client : ∃ sig ∈ sigs, K.verify C.server txHash sig = false ∧ K.parse sub.clientAddr = true
    ∧ K.verify sub.clientAddr txHash sig = true

variable {signedXDR : String} {now : ℤ} {sub : Submission}

theorem Passes.check {sigs : List Signature} (h : Passes K C signedXDR now sub sigs txHash) :
    checkChallenge K C signedXDR now = .ok sub := by
  have hserver : sigs.any (fun sig => K.verify C.server txHash sig) = true :=
    List.any_eq_true.2 h.server
  have hclient : sigs.any (fun sig => !K.verify C.server txHash sig
      && (K.parse sub.clientAddr && K.verify sub.clientAddr txHash sig)) = true := by
    obtain ⟨sig, hsig, hnot, hparse, hverify⟩ := h.client
    exact List.any_eq_true.2 ⟨sig, hsig, by simp [hnot, hparse, hverify]⟩
  have htime : ¬(unix now < sub.tx.minTime ∨ sub.tx.maxTime < unix now) := by
    have := h.begun
    have := h.open_
    omega
  simp only [checkChallenge, h.parsed, h.source, h.operations, h.hashed, Except.mapError, bind,
    Except.bind, checkSignatures_eq, hserver, hclient, ne_eq, not_true_eq_false, if_false,
    h.clientAddr_ne, h.nonce_ne, h.maxTime_ne, htime]
  rfl

theorem checkChallenge_ok (h : checkChallenge K C signedXDR now = .ok sub) :
    ∃ sigs txHash, Passes K C signedXDR now sub sigs txHash := by
  unfold checkChallenge at h
  rcases hparsed : K.transactionFromXDR signedXDR with e | _ | ⟨tx, sigs⟩
  · rw [hparsed] at h
    cases h
  · rw [hparsed] at h
    cases h
  · simp only [hparsed, Except.mapError, bind, Except.bind] at h
    by_cases hsource : tx.sourceAccount = C.server
    · rw [if_neg (not_not.2 hsource)] at h
      split at h
      · rename_i clientAddr name nonce hops
        split_ifs at h with hclient hname hnonce hmax htime
        rcases hhash : K.hash C.passphrase tx with e | txHash
        · simp [hhash] at h
        · simp only [hhash, checkSignatures_eq, Bool.false_or] at h
          split_ifs at h with hserver hsigned
          cases h
          simp only [Bool.not_eq_true', Bool.not_eq_false, List.any_eq_true, Bool.and_eq_true]
            at hserver hsigned
          rw [not_not.1 hname] at hops
          rw [not_or, not_lt, not_lt] at htime
          exact ⟨sigs, txHash, hparsed, hsource, hops, hclient, hnonce, hmax, htime.1, htime.2,
            hhash, hserver, hsigned⟩
      · cases h
      · cases h
    · rw [if_pos hsource] at h
      cases h

end Checks

section Store

theorem NonceStore.put_same (s : NonceStore) (nonce : String) (expiresAt now : ℤ) :
    s.put nonce expiresAt now nonce = some expiresAt := by
  simp [NonceStore.put]

theorem NonceStore.put_of_ne (s : NonceStore) {nonce n : String} (h : n ≠ nonce)
    (expiresAt now : ℤ) :
    s.put nonce expiresAt now n = (s n).filter fun exp => now < exp := by
  simp [NonceStore.put, h]

theorem NonceStore.consume_snd (s : NonceStore) (nonce : String) (now : ℤ) :
    (s.consume nonce now).2 = Function.update s nonce none := by
  unfold NonceStore.consume
  split
  · rename_i h
    exact (Function.update_eq_self_iff.2 h.symm).symm
  · rfl

theorem NonceStore.consume_fst {s : NonceStore} {nonce : String} {now : ℤ} :
    (s.consume nonce now).1 = true ↔ ∃ exp, s nonce = some exp ∧ now < exp := by
  unfold NonceStore.consume
  split
  · rename_i h
    simp [h]
  · rename_i exp h
    simp [h]

end Store

section Invariant

/-- The transaction is the challenge's, and the client signed it. -/
def SignedBy (K : Txnbuild Hash Signature) (C : AuthConfig) (w : AuthWorld Hash) (c : Challenge)
    (tx : Transaction) (clientAddr : String) : Prop :=
  tx = c.tx ∧ clientAddr = c.clientAddr
    ∧ ∃ txHash, K.hash C.passphrase c.tx = .ok txHash ∧ (c.clientAddr, txHash) ∈ w.signed

/-- What `GenerateChallenge` built: its hash is defined, and its clock readings are in the past. -/
def Built (K : Txnbuild Hash Signature) (C : AuthConfig) (clock : ℤ) (c : Challenge) : Prop :=
  c.nonce ≠ "" ∧ (∃ txHash, K.hash C.passphrase c.tx = .ok txHash)
    ∧ ∃ now now', c = challengeFor C c.clientAddr c.nonce now now' ∧ 0 ≤ now ∧ now ≤ now'
      ∧ now' ≤ clock

/-- The invariant of the server's states. -/
structure AuthInv (K : Txnbuild Hash Signature) (C : AuthConfig) (w : AuthWorld Hash) : Prop where
  clock_nonneg : 0 ≤ w.clock
  built : ∀ c ∈ w.building ++ w.issued, Built K C w.clock c
  nonces : ((w.building ++ w.issued).map (·.nonce)).Nodup
  server : ∀ txHash, (C.server, txHash) ∈ w.signed → ∃ tx, K.hash C.passphrase tx = .ok txHash
    ∧ ((∃ c ∈ w.building ++ w.issued, c.tx = tx) ∨ ∀ op ∈ tx.operations, ∃ body, op = .other body)
  passed : ∀ sub ∈ w.passed, ∃ c ∈ w.building ++ w.issued, sub.nonce = c.nonce
    ∧ SignedBy K C w c sub.tx sub.clientAddr
  redeemed : ∀ r ∈ w.redeemed, ∃ c ∈ w.issued, r.time < c.expiresAt ∧ w.store c.nonce = none
    ∧ SignedBy K C w c r.tx r.clientAddr
  once : (w.redeemed.map (·.tx)).Nodup
  stored : ∀ n exp, w.store n = some exp → ∃ c ∈ w.issued, c.nonce = n ∧ c.expiresAt = exp
  live : ∀ c ∈ w.issued, w.clock < c.expiresAt → (∀ r ∈ w.redeemed, r.tx ≠ c.tx) →
    w.store c.nonce = some c.expiresAt

theorem Built.later {clock clock' : ℤ} {c : Challenge} (h : Built K C clock c)
    (hle : clock ≤ clock') :
    Built K C clock' c := by
  obtain ⟨hnonce, hhash, now, now', hc, hnow, hnow', hclock⟩ := h
  exact ⟨hnonce, hhash, now, now', hc, hnow, hnow', hclock.trans hle⟩

theorem Built.operations {clock : ℤ} {c : Challenge} (h : Built K C clock c) :
    c.tx.operations = [.manageData c.clientAddr challengeOperationName c.nonce] := by
  obtain ⟨-, -, now, now', hc, -⟩ := h
  rw [hc]
  rfl

namespace AuthInv

variable {w : AuthWorld Hash}

/-- A challenge is known by its nonce, and so by its transaction. -/
theorem eq_of_nonce (h : AuthInv K C w) {c c' : Challenge} (hc : c ∈ w.building ++ w.issued)
    (hc' : c' ∈ w.building ++ w.issued) (hn : c.nonce = c'.nonce) : c = c' :=
  List.inj_on_of_nodup_map h.nonces hc hc' hn

theorem eq_of_tx (h : AuthInv K C w) {c c' : Challenge} (hc : c ∈ w.building ++ w.issued)
    (hc' : c' ∈ w.building ++ w.issued) (htx : c.tx = c'.tx) : c = c' := by
  refine h.eq_of_nonce hc hc' ?_
  have hops := (h.built c hc).operations
  rw [htx, (h.built c' hc').operations] at hops
  simp only [List.cons.injEq, Operation.manageData.injEq] at hops
  exact hops.1.2.2.symm

theorem init {clock : ℤ} (hclock : 0 ≤ clock) : AuthInv K C (.init Hash clock) where
  clock_nonneg := hclock
  built := by simp [AuthWorld.init]
  nonces := by simp [AuthWorld.init]
  server := by simp [AuthWorld.init]
  passed := by simp [AuthWorld.init]
  redeemed := by simp [AuthWorld.init]
  once := by simp [AuthWorld.init]
  stored := by simp [AuthWorld.init]
  live := by simp [AuthWorld.init]

theorem tick (h : AuthInv K C w) {now : ℤ} (hnow : w.clock ≤ now) :
    AuthInv K C { w with clock := now } :=
  { h with
    clock_nonneg := h.clock_nonneg.trans hnow
    built := fun c hc => (h.built c hc).later hnow
    live := fun c hc hlt => h.live c hc (hnow.trans_lt hlt) }

theorem signing (h : AuthInv K C w) {address : String} {txHash : Hash}
    (hserver : address = C.server → ∃ tx, K.hash C.passphrase tx = .ok txHash
      ∧ ((∃ c ∈ w.building ++ w.issued, c.tx = tx)
        ∨ ∀ op ∈ tx.operations, ∃ body, op = .other body)) :
    AuthInv K C { w with signed := w.signed ++ [(address, txHash)] } := by
  have hmono : ∀ {c tx a}, SignedBy K C w c tx a →
      SignedBy K C { w with signed := w.signed ++ [(address, txHash)] } c tx a := by
    rintro c tx a ⟨htx, ha, hash, hhash, hmem⟩
    exact ⟨htx, ha, hash, hhash, List.mem_append_left _ hmem⟩
  refine { h with server := ?_, passed := ?_, redeemed := ?_ }
  · intro hash hmem
    rcases List.mem_append.1 hmem with hold | hnew
    · exact h.server hash hold
    · simp only [List.mem_singleton, Prod.mk.injEq] at hnew
      obtain ⟨hs, rfl⟩ := hnew
      exact hserver hs.symm
  · intro sub hsub
    obtain ⟨c, hc, hn, hsigned⟩ := h.passed sub hsub
    exact ⟨c, hc, hn, hmono hsigned⟩
  · intro r hr
    obtain ⟨c, hc, ht, hgone, hsigned⟩ := h.redeemed r hr
    exact ⟨c, hc, ht, hgone, hmono hsigned⟩

theorem building (h : AuthInv K C w) {c : Challenge} (hbuilt : Built K C w.clock c)
    (hfresh : ∀ c' ∈ w.building ++ w.issued, c'.nonce ≠ c.nonce) :
    AuthInv K C { w with building := w.building ++ [c] } := by
  have hperm : (w.building ++ [c] ++ w.issued).Perm (c :: (w.building ++ w.issued)) := by
    rw [List.append_assoc, List.singleton_append]
    exact List.perm_middle
  have hsub : ∀ c' ∈ w.building ++ w.issued, c' ∈ w.building ++ [c] ++ w.issued :=
    fun c' hc' => hperm.mem_iff.2 (List.mem_cons_of_mem _ hc')
  refine { h with built := ?_, nonces := ?_, server := ?_, passed := ?_ }
  · intro c' hc'
    rcases List.mem_cons.1 (hperm.mem_iff.1 hc') with rfl | hold
    · exact hbuilt
    · exact h.built c' hold
  · rw [(hperm.map _).nodup_iff, List.map_cons, List.nodup_cons]
    refine ⟨fun hmem => ?_, h.nonces⟩
    obtain ⟨c', hc', hn⟩ := List.mem_map.1 hmem
    exact hfresh c' hc' hn
  · intro txHash hmem
    obtain ⟨tx, htx, ⟨c', hc', rfl⟩ | hother⟩ := h.server txHash hmem
    · exact ⟨c'.tx, htx, .inl ⟨c', hsub c' hc', rfl⟩⟩
    · exact ⟨tx, htx, .inr hother⟩
  · intro sub hs
    obtain ⟨c', hc', hsigned⟩ := h.passed sub hs
    exact ⟨c', hsub c' hc', hsigned⟩

theorem issuing (h : AuthInv K C w) {i : ℕ} {c : Challenge} (hi : w.building[i]? = some c) :
    AuthInv K C { w with
      store := w.store.put c.nonce c.expiresAt w.clock
      building := w.building.eraseIdx i, issued := w.issued ++ [c] } := by
  obtain ⟨hlt, rfl⟩ := List.getElem?_eq_some_iff.1 hi
  have hperm : (w.building.eraseIdx i ++ (w.issued ++ [w.building[i]])).Perm
      (w.building ++ w.issued) := by
    have := (List.getElem_cons_eraseIdx_perm hlt).append_right w.issued
    rw [← List.append_assoc]
    exact (List.perm_append_singleton _ _).trans this
  have hne : ∀ c' ∈ w.issued, c'.nonce ≠ w.building[i].nonce := by
    intro c' hc' hn
    have hdisj := List.disjoint_of_nodup_append (List.map_append ▸ h.nonces)
    exact hdisj (List.mem_map_of_mem (List.getElem_mem hlt)) (hn ▸ List.mem_map_of_mem hc')
  refine ⟨h.clock_nonneg, ?_, ?_, ?_, ?_, ?_, h.once, ?_, ?_⟩
  · exact fun c' hc' => h.built c' (hperm.mem_iff.1 hc')
  · exact (hperm.map _).nodup_iff.2 h.nonces
  · intro txHash hmem
    obtain ⟨tx, htx, ⟨c', hc', rfl⟩ | hother⟩ := h.server txHash hmem
    · exact ⟨c'.tx, htx, .inl ⟨c', hperm.mem_iff.2 hc', rfl⟩⟩
    · exact ⟨tx, htx, .inr hother⟩
  · intro sub hs
    obtain ⟨c', hc', hsigned⟩ := h.passed sub hs
    exact ⟨c', hperm.mem_iff.2 hc', hsigned⟩
  · intro r hr
    obtain ⟨c', hc', ht, hgone, hsigned⟩ := h.redeemed r hr
    refine ⟨c', List.mem_append_left _ hc', ht, ?_, hsigned⟩
    show w.store.put _ _ _ c'.nonce = none
    rw [NonceStore.put_of_ne _ (hne c' hc'), hgone]
    rfl
  · intro n exp (hexp : w.store.put _ _ _ n = some exp)
    by_cases hn : n = w.building[i].nonce
    · subst hn
      rw [NonceStore.put_same] at hexp
      exact ⟨w.building[i], by simp, rfl, Option.some.inj hexp⟩
    · rw [NonceStore.put_of_ne _ hn, Option.filter_eq_some_iff] at hexp
      obtain ⟨c', hc', hcn, hce⟩ := h.stored n exp hexp.1
      exact ⟨c', List.mem_append_left _ hc', hcn, hce⟩
  · intro c' hc' hlive hnot
    show w.store.put _ _ _ c'.nonce = some c'.expiresAt
    rcases List.mem_append.1 hc' with hold | hnew
    · rw [NonceStore.put_of_ne _ (hne c' hold), h.live c' hold hlive hnot]
      simpa [Option.filter] using hlive
    · rw [List.mem_singleton.1 hnew, NonceStore.put_same]

/-- A submission that passes the checks is a challenge of the server, signed by its client. -/
theorem checking (h : AuthInv K C w)
    (hinj : ∀ tx tx' txHash, K.hash C.passphrase tx = .ok txHash →
      K.hash C.passphrase tx' = .ok txHash → tx = tx')
    {signedXDR : String} {now : ℤ} {sub : Submission} (hunforged : Unforged K C w signedXDR)
    (hsub : checkChallenge K C signedXDR now = .ok sub) :
    AuthInv K C { w with passed := w.passed ++ [sub] } := by
  obtain ⟨sigs, txHash, hp⟩ := checkChallenge_ok hsub
  have hsigned := hunforged sub.tx sigs txHash hp.parsed hp.hashed
  obtain ⟨sig, hsig, hverify⟩ := hp.server
  obtain ⟨sig', hsig', -, -, hverify'⟩ := hp.client
  have hclient := hsigned sig' hsig' sub.clientAddr hverify'
  obtain ⟨tx, htx, hor⟩ := h.server txHash (hsigned sig hsig C.server hverify)
  have heq := hinj tx sub.tx txHash htx hp.hashed
  subst heq
  rcases hor with ⟨c, hc, hctx⟩ | hother
  · have hops := (h.built c hc).operations
    rw [hctx, hp.operations] at hops
    simp only [List.cons.injEq, Operation.manageData.injEq, and_true, true_and] at hops
    refine { h with passed := fun sub' hsub' => ?_ }
    rcases List.mem_append.1 hsub' with hold | hnew
    · exact h.passed sub' hold
    · rw [List.mem_singleton.1 hnew]
      exact ⟨c, hc, hops.2, hctx.symm, hops.1, txHash, hctx ▸ hp.hashed, hops.1 ▸ hclient⟩
  · obtain ⟨body, hbody⟩ := hother _ (hp.operations ▸ List.mem_singleton_self _)
    cases hbody

/-- `consume` takes the nonce of a challenge its client signed, and no other out of the store. -/
theorem consuming (h : AuthInv K C w) {i : ℕ} {sub : Submission} (hi : w.passed[i]? = some sub) :
    AuthInv K C { w with
      store := (w.store.consume sub.nonce w.clock).2, passed := w.passed.eraseIdx i
      redeemed := if (w.store.consume sub.nonce w.clock).1 then
          w.redeemed ++ [⟨sub.tx, sub.clientAddr, w.clock⟩]
        else w.redeemed } := by
  obtain ⟨c, hc, hn, hsigned⟩ := h.passed sub (List.mem_of_getElem? hi)
  rw [NonceStore.consume_snd, hn]
  have hgone : ∀ n, w.store n = none → Function.update w.store c.nonce none n = none := by
    intro n hnone
    by_cases h' : n = c.nonce
    · rw [h', Function.update_self]
    · rw [Function.update_of_ne h', hnone]
  have hstored : ∀ n exp, Function.update w.store c.nonce none n = some exp →
      ∃ c ∈ w.issued, c.nonce = n ∧ c.expiresAt = exp := by
    intro n exp hexp
    by_cases h' : n = c.nonce
    · rw [h', Function.update_self] at hexp
      cases hexp
    · rw [Function.update_of_ne h'] at hexp
      exact h.stored n exp hexp
  have hlive : ∀ c' ∈ w.issued, c' ≠ c → w.clock < c'.expiresAt →
      (∀ r ∈ w.redeemed, r.tx ≠ c'.tx) →
      Function.update w.store c.nonce none c'.nonce = some c'.expiresAt := by
    intro c' hc' hne hlt hnot
    rw [Function.update_of_ne fun hn' => hne (h.eq_of_nonce (List.mem_append_right _ hc') hc hn')]
    exact h.live c' hc' hlt hnot
  have hpassed : ∀ sub' ∈ w.passed.eraseIdx i, sub' ∈ w.passed := fun _ => List.mem_of_mem_eraseIdx
  split_ifs with hok
  · obtain ⟨exp, hexp, hlt⟩ := NonceStore.consume_fst.1 hok
    obtain ⟨c', hc', hn', rfl⟩ := h.stored _ exp hexp
    obtain rfl := h.eq_of_nonce (List.mem_append_right _ hc') hc hn'
    refine { h with
      passed := fun sub' hs => h.passed sub' (hpassed sub' hs)
      redeemed := ?_, once := ?_, stored := hstored, live := ?_ }
    · intro r hr
      rcases List.mem_append.1 hr with hold | hnew
      · obtain ⟨c'', hc'', ht, hnone, hs⟩ := h.redeemed r hold
        exact ⟨c'', hc'', ht, hgone _ hnone, hs⟩
      · rw [List.mem_singleton.1 hnew]
        exact ⟨c', hc', hlt, by simp, hsigned⟩
    · rw [List.map_append, List.nodup_append]
      refine ⟨h.once, by simp, fun tx htx tx' htx' heq => ?_⟩
      obtain ⟨r, hr, rfl⟩ := List.mem_map.1 htx
      obtain ⟨c'', hc'', -, hnone, htx'', -⟩ := h.redeemed r hr
      rw [List.map_singleton, List.mem_singleton] at htx'
      have hsame : c''.tx = c'.tx := by rw [← htx'', heq, htx', hsigned.1]
      rw [h.eq_of_tx (List.mem_append_right _ hc'') (List.mem_append_right _ hc') hsame,
        hexp] at hnone
      cases hnone
    · intro c'' hc'' hlt' hnot
      refine hlive c'' hc'' ?_ hlt' fun r hr => hnot r (List.mem_append_left _ hr)
      rintro rfl
      exact hnot _ (List.mem_append_right _ (List.mem_singleton_self _)) hsigned.1
  · refine { h with
      passed := fun sub' hs => h.passed sub' (hpassed sub' hs)
      redeemed := ?_, stored := hstored, live := ?_ }
    · intro r hr
      obtain ⟨c'', hc'', ht, hnone, hs⟩ := h.redeemed r hr
      exact ⟨c'', hc'', ht, hgone _ hnone, hs⟩
    · intro c' hc' hlt hnot
      refine hlive c' hc' ?_ hlt hnot
      rintro rfl
      exact hok (NonceStore.consume_fst.2 ⟨_, h.live c' hc' hlt hnot, hlt⟩)

end AuthInv

end Invariant

section Run

variable {w : AuthWorld Hash}

/-- The clock after a step. -/
def AuthStep.clockAfter : AuthStep Hash → ℤ → ℤ
  | generate _ _ _ now', _ => now'
  | put _ now, _ => now
  | sign _ _, clock => clock
  | signInvoice _, clock => clock
  | check _ now, _ => now
  | consume _ now, _ => now

theorem AuthStep.apply_clock (step : AuthStep Hash) (w : AuthWorld Hash) :
    (step.apply K C w).clock = step.clockAfter w.clock := by
  cases step with
  | sign address txHash => rfl
  | consume i now =>
    simp only [AuthStep.apply]
    split
    · rfl
    · split <;> rfl
  | _ =>
    simp only [AuthStep.apply]
    split <;> rfl

theorem generateChallenge_ok {clientAddr : String} {nonce : Except GoError String} {now now' : ℤ}
    {c : Challenge} {txHash : Hash} {signed : String}
    (h : generateChallenge K C clientAddr nonce now now' = .ok (c, txHash, signed)) :
    ∃ nonceStr, nonce = .ok nonceStr ∧ c = challengeFor C clientAddr nonceStr now now'
      ∧ K.hash C.passphrase c.tx = .ok txHash := by
  unfold generateChallenge at h
  rcases nonce with e | nonceStr
  · cases h
  · simp only [bind, Except.bind] at h
    rcases hnew : K.newTransaction (challengeFor C clientAddr nonceStr now now').tx with e | u
    · simp [hnew] at h
    · rcases hhash : K.hash C.passphrase (challengeFor C clientAddr nonceStr now now').tx with
        e | th
      · simp [hnew, hhash] at h
      · rcases hbase : K.base64 (challengeFor C clientAddr nonceStr now now').tx
            [K.sign C.server th] with e | text
        · simp [hnew, hhash, hbase] at h
        · simp only [hnew, hhash, hbase, pure, Except.pure, Except.ok.injEq, Prod.mk.injEq] at h
          obtain ⟨rfl, rfl, -⟩ := h
          exact ⟨nonceStr, rfl, rfl, hhash⟩

theorem AuthStep.keeps
    (hinj : ∀ tx tx' txHash, K.hash C.passphrase tx = .ok txHash →
      K.hash C.passphrase tx' = .ok txHash → tx = tx')
    (h : AuthInv K C w) (step : AuthStep Hash) (hstep : step.Allowed K C w) :
    AuthInv K C (step.apply K C w) := by
  cases step with
  | generate clientAddr nonce now now' =>
    obtain ⟨hnow, hnow', hfresh⟩ := hstep
    simp only [AuthStep.apply]
    split
    · exact h.tick (hnow.trans hnow')
    · rename_i c txHash signed hgen
      obtain ⟨nonceStr, rfl, rfl, hhash⟩ := generateChallenge_ok hgen
      obtain ⟨hne, hfresh⟩ := hfresh nonceStr rfl
      have hbuilt : Built K C now' (challengeFor C clientAddr nonceStr now now') :=
        ⟨hne, ⟨txHash, hhash⟩, now, now', rfl, h.clock_nonneg.trans hnow, hnow', le_rfl⟩
      refine ((h.tick (hnow.trans hnow')).building hbuilt hfresh).signing fun _ => ?_
      exact ⟨_, hhash, .inl ⟨_, by simp, rfl⟩⟩
  | put i now =>
    simp only [AuthStep.apply]
    split
    · exact h.tick hstep
    · rename_i c hi
      exact (h.tick hstep).issuing hi
  | sign address txHash => exact h.signing fun hserver => absurd hserver hstep
  | signInvoice tx =>
    simp only [AuthStep.apply]
    split
    · exact h
    · rename_i txHash hhash
      exact h.signing fun _ => ⟨tx, hhash, .inr hstep⟩
  | check signedXDR now =>
    simp only [AuthStep.apply]
    split
    · exact h.tick hstep.1
    · rename_i sub hsub
      exact (h.tick hstep.1).checking hinj hstep.2 hsub
  | consume i now =>
    simp only [AuthStep.apply]
    split
    · exact h.tick hstep
    · rename_i sub hi
      have hconsumed := (h.tick hstep).consuming hi
      simp only [consumeChallenge]
      by_cases hok : (w.store.consume sub.nonce now).1 = true
      · simpa [hok] using hconsumed
      · simpa [hok] using hconsumed

theorem AuthReachable.inv
    (hinj : ∀ tx tx' txHash, K.hash C.passphrase tx = .ok txHash →
      K.hash C.passphrase tx' = .ok txHash → tx = tx')
    (hw : AuthReachable K C w) : AuthInv K C w := by
  induction hw with
  | init clock h => exact .init h
  | step step _ hstep ih => exact step.keeps hinj ih hstep

/-- The submission of a live challenge, signed by the server and its client, is accepted. -/
theorem AuthInv.redeems (h : AuthInv K C w) {c : Challenge} (hc : c ∈ w.issued)
    (hnot : ∀ r ∈ w.redeemed, r.tx ≠ c.tx) {now now' : ℤ} (hnow : w.clock ≤ now)
    (hnow' : now ≤ now')
    (hlt : now' < c.expiresAt) {signedXDR : String} {sigs : List Signature} {txHash : Hash}
    (hparsed : K.transactionFromXDR signedXDR = .ok (some (c.tx, sigs)))
    (hhash : K.hash C.passphrase c.tx = .ok txHash) (hclient : c.clientAddr ≠ "")
    (hserver : ∃ sig ∈ sigs, K.verify C.server txHash sig = true)
    (hsigned : ∃ sig ∈ sigs, K.verify C.server txHash sig = false ∧ K.parse c.clientAddr = true
      ∧ K.verify c.clientAddr txHash sig = true) :
    (verifyChallenge K C signedXDR now now' w.store).1 = .ok c.clientAddr := by
  have hb := h.built c (List.mem_append_right _ hc)
  have hops := hb.operations
  obtain ⟨hnonce, -, t, t', hceq, ht, htt', ht'⟩ := hb
  have hmin : c.tx.minTime = unix t' := by rw [hceq]; rfl
  have hmax : c.tx.maxTime = unix (t + challengeTTL) := by rw [hceq]; rfl
  have hexp : c.expiresAt = t + challengeTTL := by rw [hceq]; rfl
  have hsource : c.tx.sourceAccount = C.server := by rw [hceq]; rfl
  have hpass : Passes K C signedXDR now ⟨c.tx, c.clientAddr, c.nonce⟩ sigs txHash := by
    refine ⟨hparsed, hsource, hops, hclient, hnonce, ?_, ?_, ?_, hhash, hserver, hsigned⟩
    · simp only [hmax, unix, challengeTTL]
      omega
    · simp only [hmin, unix]
      omega
    · simp only [hmax, unix]
      omega
  have hstored := h.live c hc (by omega) hnot
  have hok : (w.store.consume c.nonce now').1 = true :=
    NonceStore.consume_fst.2 ⟨_, hstored, hlt⟩
  simp only [verifyChallenge, hpass.check, consumeChallenge, hok]
  rfl

end Run

/-- In every state that any interleaving of calls reaches: each successful `VerifyChallenge` was of
an issued challenge, before its expiry, for the address it was issued for and signed by it; no
challenge was redeemed twice; a submission that fails a check leaves the store as it is; and every
issued challenge that is neither redeemed nor expired can be redeemed by its client. -/
theorem challenges_single_use
    (hinj : ∀ tx tx' txHash, K.hash C.passphrase tx = .ok txHash →
      K.hash C.passphrase tx' = .ok txHash → tx = tx')
    {w : AuthWorld Hash} (hw : AuthReachable K C w) :
    (∀ r ∈ w.redeemed, ∃ c ∈ w.issued, r.tx = c.tx ∧ r.clientAddr = c.clientAddr
        ∧ r.time < c.expiresAt
        ∧ ∃ txHash, K.hash C.passphrase c.tx = .ok txHash ∧ (c.clientAddr, txHash) ∈ w.signed)
      ∧ (w.redeemed.map (·.tx)).Nodup
      ∧ (∀ c ∈ w.issued, ∀ c' ∈ w.issued, c.tx = c'.tx → c = c')
      ∧ (∀ signedXDR now e, checkChallenge K C signedXDR now = .error e →
        ((AuthStep.check signedXDR now).apply K C w).store = w.store
          ∧ ∀ now', verifyChallenge K C signedXDR now now' w.store = (.error e, w.store))
      ∧ ∀ c ∈ w.issued, (∀ r ∈ w.redeemed, r.tx ≠ c.tx) → c.clientAddr ≠ "" →
        ∀ now now', w.clock ≤ now → now ≤ now' → now' < c.expiresAt →
        ∀ signedXDR sigs txHash, K.transactionFromXDR signedXDR = .ok (some (c.tx, sigs)) →
        K.hash C.passphrase c.tx = .ok txHash →
        (∃ sig ∈ sigs, K.verify C.server txHash sig = true) →
        (∃ sig ∈ sigs, K.verify C.server txHash sig = false ∧ K.parse c.clientAddr = true
          ∧ K.verify c.clientAddr txHash sig = true) →
        (verifyChallenge K C signedXDR now now' w.store).1 = .ok c.clientAddr := by
  have h := hw.inv hinj
  refine ⟨fun r hr => ?_, h.once, fun c hc c' hc' htx => ?_, fun signedXDR now e he => ?_, ?_⟩
  · obtain ⟨c, hc, ht, -, htx, haddr, hsigned⟩ := h.redeemed r hr
    exact ⟨c, hc, htx, haddr, ht, hsigned⟩
  · exact h.eq_of_tx (List.mem_append_right _ hc) (List.mem_append_right _ hc') htx
  · refine ⟨?_, fun now' => ?_⟩
    · simp only [AuthStep.apply, he]
    · simp only [verifyChallenge, he]
  · intro c hc hnot hclient now now' hnow hnow' hlt signedXDR sigs txHash hparsed hhash hserver
      hsigned
    exact h.redeems hc hnot hnow hnow' hlt hparsed hhash hclient hserver hsigned

/-- The server of the recorded challenge, on the test network. -/
def recordedAuth : AuthConfig where
  server := "GA5WUJ54Z23KILLCUOUNAKTPBVZWKMQVO4O6EQ5GHLAERIMLLHNCSKYH"
  passphrase := "Test SDF Network ; September 2015"

/-- The client of the recorded challenge. -/
def recordedClient : String := "GBXHUHG5FGYLPD6RHL2MKWMP572O6KUXCZXDZJXS4T57ZTMAKBN7DWXN"

/-- A challenge issued at the start of 2026. -/
def recordedChallenge : Challenge :=
  challengeFor recordedAuth recordedClient
    "AAECAwQFBgcICQoLDA0ODxAREhMUFRYXGBkaGxwdHh8gISIjJCUmJygpKissLS4v" (1767225600 * 10 ^ 9)
    (1767225600 * 10 ^ 9)

/-- The hash of its transaction. -/
def recordedHash : String := "c10ba269087d5330ae01417520fdfbf026089af10475d1388f23f78e6b0c8acb"

def recordedServerSignature : String :=
  "ZgWRjow0/3x6K7i25r/azRyEOR1iyOKyqbwQGu1qrdB0VzztzfrNoMbHd+yfCDZ7gsPRKUAlsVInIQvHsvYUBw=="

def recordedClientSignature : String :=
  "FaG2ZnLwjkS63nUAyPnniXHNJ4tpbfzKOmtLfhipeFOE4TDErCA2ClIG3AaZZHocEism8U1VTGRSo9TWEKDUBg=="

/-- The challenge as the server returns it. -/
def recordedIssued : String :=
  "AAAAAgAAAAA7aie8zrakLWKjqNAqbw1zZTIVdx3iQ6Y6wEihi1naKQAAAGQAAAAAAAAAAAAAAAEAAAAAaVW5AAAA"
    ++ "AABpVbyEAAAAAAAAAAEAAAABAAAAAG56HN0psLeP0Tr0xVmP7/TvKpcWbjym8uT7/M2AUFvxAAAACgAAAA90cnVz"
    ++ "dHRyb3ZlIGF1dGgAAAAAAQAAAEBBQUVDQXdRRkJnY0lDUW9MREEwT0R4QVJFaE1VRlJZWEdCa2FHeHdkSGg4Z0lT"
    ++ "SWpKQ1VtSnlncEtpc3NMUzR2AAAAAAAAAAGLWdopAAAAQGYFkY6MNP98eiu4tua/2s0chDkdYsjisqm8EBrtaq3Q"
    ++ "dFc87c36zaDGx3fsnwg2e4LD0SlAJbFSJyELx7L2FAc="

/-- The challenge with the client's signature. -/
def recordedSigned : String :=
  "AAAAAgAAAAA7aie8zrakLWKjqNAqbw1zZTIVdx3iQ6Y6wEihi1naKQAAAGQAAAAAAAAAAAAAAAEAAAAAaVW5AAAA"
    ++ "AABpVbyEAAAAAAAAAAEAAAABAAAAAG56HN0psLeP0Tr0xVmP7/TvKpcWbjym8uT7/M2AUFvxAAAACgAAAA90cnVz"
    ++ "dHRyb3ZlIGF1dGgAAAAAAQAAAEBBQUVDQXdRRkJnY0lDUW9MREEwT0R4QVJFaE1VRlJZWEdCa2FHeHdkSGg4Z0lT"
    ++ "SWpKQ1VtSnlncEtpc3NMUzR2AAAAAAAAAAKLWdopAAAAQGYFkY6MNP98eiu4tua/2s0chDkdYsjisqm8EBrtaq3Q"
    ++ "dFc87c36zaDGx3fsnwg2e4LD0SlAJbFSJyELx7L2FAeAUFvxAAAAQBWhtmZy8I5Eut51AMj554lxzSeLaW38yjpr"
    ++ "S34YqXhThOEwxKwgNgpSBtwGmWR6HBIrJvFNVUxkUqPU1hCg1AY="

/-- The two packages on the recorded challenge. -/
def recordedTxnbuild : Txnbuild String String where
  newTransaction := fun _ => .ok ()
  hash := fun passphrase tx =>
    if passphrase = recordedAuth.passphrase ∧ tx = recordedChallenge.tx then .ok recordedHash
    else .error (.new "not recorded")
  sign := fun _ _ => recordedServerSignature
  base64 := fun _ _ => .ok recordedIssued
  transactionFromXDR := fun xdr =>
    if xdr = recordedSigned then
      .ok (some (recordedChallenge.tx, [recordedServerSignature, recordedClientSignature]))
    else .error (.new "illegal base64 data")
  parse := fun address => address = recordedAuth.server || address = recordedClient
  verify := fun address txHash sig => txHash = recordedHash
    && (address = recordedAuth.server && sig = recordedServerSignature
      || address = recordedClient && sig = recordedClientSignature)

/-- The challenge is issued and signed, and submitted twice at once. -/
def recordedSteps : List (AuthStep String) :=
  [.generate recordedClient (.ok recordedChallenge.nonce) (1767225600 * 10 ^ 9)
    (1767225600 * 10 ^ 9),
    .put 0 (1767225601 * 10 ^ 9), .sign recordedClient recordedHash,
    .check recordedSigned (1767225660 * 10 ^ 9), .check recordedSigned (1767225660 * 10 ^ 9),
    .consume 0 (1767225661 * 10 ^ 9), .consume 0 (1767225661 * 10 ^ 9)]

/-- The server after the first `n` steps. -/
def recordedWorld (n : ℕ) : AuthWorld String :=
  (recordedSteps.take n).foldl (fun w step => step.apply recordedTxnbuild recordedAuth w)
    (.init String (1767225600 * 10 ^ 9))

theorem recordedTxnbuild_hash {passphrase : String} {tx : Transaction} {txHash : String}
    (h : recordedTxnbuild.hash passphrase tx = .ok txHash) :
    tx = recordedChallenge.tx ∧ txHash = recordedHash := by
  simp only [recordedTxnbuild] at h
  split_ifs at h with hrec
  exact ⟨hrec.2, (Except.ok.inj h).symm⟩

theorem recordedWorld_unforged {w : AuthWorld String}
    (hserver : (recordedAuth.server, recordedHash) ∈ w.signed)
    (hclient : (recordedClient, recordedHash) ∈ w.signed) (signedXDR : String) :
    Unforged recordedTxnbuild recordedAuth w signedXDR := by
  intro tx sigs txHash _ hhash sig _ address hverify
  obtain ⟨-, rfl⟩ := recordedTxnbuild_hash hhash
  simp only [recordedTxnbuild, Bool.and_eq_true, Bool.or_eq_true, decide_eq_true_eq] at hverify
  rcases hverify with ⟨-, ⟨rfl, -⟩ | ⟨rfl, -⟩⟩
  · exact hserver
  · exact hclient

theorem recordedWorld_succ (n : ℕ) (step : AuthStep String) (hn : recordedSteps[n]? = some step) :
    recordedWorld (n + 1) = step.apply recordedTxnbuild recordedAuth (recordedWorld n) := by
  unfold recordedWorld
  rw [List.take_add_one, hn, List.foldl_append]
  rfl

theorem recordedWorld_clock (n : ℕ) (step : AuthStep String) (hn : recordedSteps[n]? = some step) :
    (recordedWorld (n + 1)).clock = step.clockAfter (recordedWorld n).clock := by
  rw [recordedWorld_succ n _ hn, AuthStep.apply_clock]

theorem recordedWorld_check (n : ℕ) (now : ℤ)
    (hn : recordedSteps[n]? = some (.check recordedSigned now)) :
    (recordedWorld (n + 1)).signed = (recordedWorld n).signed := by
  rw [recordedWorld_succ n _ hn]
  simp only [AuthStep.apply]
  split <;> rfl

theorem recordedWorld_signed :
    (recordedAuth.server, recordedHash) ∈ (recordedWorld 3).signed
      ∧ (recordedClient, recordedHash) ∈ (recordedWorld 3).signed := by
  decide +kernel

theorem recordedWorld_reachable :
    AuthReachable recordedTxnbuild recordedAuth (recordedWorld 7) := by
  have h₀ : AuthReachable recordedTxnbuild recordedAuth (recordedWorld 0) := .init _ (by decide)
  have hfresh : ∀ n, Except.ok recordedChallenge.nonce = (.ok n : Except GoError String) →
      n ≠ "" ∧ ∀ c ∈ (recordedWorld 0).building ++ (recordedWorld 0).issued, c.nonce ≠ n := by
    intro n hn
    cases hn
    exact ⟨by decide, fun c hc => by cases hc⟩
  have h₁ : AuthReachable recordedTxnbuild recordedAuth (recordedWorld 1) :=
    recordedWorld_succ 0 _ rfl ▸ .step _ h₀ ⟨le_rfl, le_rfl, hfresh⟩
  have hput : (recordedWorld 1).clock ≤ 1767225601 * 10 ^ 9 := by
    rw [recordedWorld_clock 0 _ rfl]
    decide
  have h₂ : AuthReachable recordedTxnbuild recordedAuth (recordedWorld 2) :=
    recordedWorld_succ 1 _ rfl ▸ .step _ h₁ hput
  have hclient : recordedClient ≠ recordedAuth.server := by decide +kernel
  have h₃ : AuthReachable recordedTxnbuild recordedAuth (recordedWorld 3) :=
    recordedWorld_succ 2 _ rfl ▸ .step _ h₂ hclient
  have hcheck : (recordedWorld 3).clock ≤ 1767225660 * 10 ^ 9 := by
    rw [recordedWorld_clock 2 _ rfl, recordedWorld_clock 1 _ rfl]
    decide
  obtain ⟨hserver, hsigned⟩ := recordedWorld_signed
  have h₄ : AuthReachable recordedTxnbuild recordedAuth (recordedWorld 4) :=
    recordedWorld_succ 3 _ rfl ▸ .step _ h₃ ⟨hcheck, recordedWorld_unforged hserver hsigned _⟩
  rw [← recordedWorld_check 3 _ rfl] at hserver hsigned
  have h₅ : AuthReachable recordedTxnbuild recordedAuth (recordedWorld 5) :=
    recordedWorld_succ 4 _ rfl ▸ .step _ h₄
      ⟨(recordedWorld_clock 3 _ rfl).le, recordedWorld_unforged hserver hsigned _⟩
  have hconsume : (recordedWorld 5).clock ≤ 1767225661 * 10 ^ 9 := by
    rw [recordedWorld_clock 4 _ rfl]
    decide
  have h₆ : AuthReachable recordedTxnbuild recordedAuth (recordedWorld 6) :=
    recordedWorld_succ 5 _ rfl ▸ .step _ h₅ hconsume
  exact recordedWorld_succ 6 _ rfl ▸ .step _ h₆ (recordedWorld_clock 5 _ rfl).le

/-- Of the two submissions one succeeds, for the client and before the expiry. -/
theorem challenges_single_use_recorded :
    (recordedWorld 7).redeemed = [⟨recordedChallenge.tx, recordedClient, 1767225661 * 10 ^ 9⟩]
      ∧ ∀ r ∈ (recordedWorld 7).redeemed, ∃ c ∈ (recordedWorld 7).issued, r.tx = c.tx
        ∧ r.clientAddr = c.clientAddr ∧ r.time < c.expiresAt
        ∧ ∃ txHash, recordedTxnbuild.hash recordedAuth.passphrase c.tx = .ok txHash
          ∧ (c.clientAddr, txHash) ∈ (recordedWorld 7).signed := by
  refine ⟨by decide +kernel, (challenges_single_use (fun tx tx' txHash htx htx' => ?_)
    recordedWorld_reachable).1⟩
  rw [(recordedTxnbuild_hash htx).1, (recordedTxnbuild_hash htx').1]

end TrusTrove
