import TrusTrove.AuthToken
import TrusTrove.Proofs.SingleUse
import TrusTrove.Proofs.WriteFormats

/-!
# Who a protected request runs for

A redemption of a challenge is exchanged for one token at most. A token that verifies is one that
was issued, and has not expired, so a request runs under an address only within a token's lifetime
of a redemption by that address (`admitted_redeemed`). A client that follows the web app gets there
(`login_admits`).
-/

namespace TrusTrove

variable {Hash Signature : Type} {K : Txnbuild Hash Signature} {J : Jwt} {C : ApiConfig}

section Challenges

variable {w : AuthWorld Hash}

theorem AuthReachable.tick {C : AuthConfig} (hw : AuthReachable K C w) {now : ℤ}
    (hnow : w.clock ≤ now) : AuthReachable K C { w with clock := now } := by
  have hput := hw.step (.put w.building.length now) hnow
  simpa [AuthStep.apply] using hput

/-- A step adds the redemptions it makes at its time, and the clock does not go back. -/
theorem AuthStep.apply_redeemed {C : AuthConfig} (step : AuthStep Hash) (h : step.Allowed K C w) :
    w.clock ≤ (step.apply K C w).clock
      ∧ ∃ rs : List Redemption, (step.apply K C w).redeemed = w.redeemed ++ rs
        ∧ ∀ r ∈ rs, r.time = (step.apply K C w).clock := by
  cases step with
  | generate clientAddr nonce now now' =>
    simp only [AuthStep.apply]
    split <;> exact ⟨h.1.trans h.2.1, [], by simp⟩
  | put i now =>
    simp only [AuthStep.apply]
    split <;> exact ⟨h, [], by simp⟩
  | sign address txHash => exact ⟨le_rfl, [], by simp [AuthStep.apply]⟩
  | signInvoice tx =>
    simp only [AuthStep.apply]
    split <;> exact ⟨le_rfl, [], by simp⟩
  | check signedXDR now =>
    simp only [AuthStep.apply]
    split <;> exact ⟨h.1, [], by simp⟩
  | consume i now =>
    simp only [AuthStep.apply]
    split
    · exact ⟨h, [], by simp⟩
    · split
      · exact ⟨h, [], by simp⟩
      · exact ⟨h, [_], rfl, by simp⟩

end Challenges

section Tokens

/-- `jwt` refuses a token that has expired. -/
def Jwt.ChecksExpiry (J : Jwt) : Prop :=
  ∀ tokenStr jwtSecret now claims exp, J.parse tokenStr jwtSecret now = .ok claims →
    claims.exp = some exp → now < exp * 10 ^ 9

theorem generateJWT_ok {address jwtSecret : String} {expiryHours now now' : ℤ} {claims : MapClaims}
    {token : String}
    (h : generateJWT J address jwtSecret expiryHours now now' = .ok (claims, token)) :
    claims.sub = some address ∧ claims.exp = some (unix (now + jwtLifetime expiryHours)) := by
  unfold generateJWT at h
  rcases hsign : J.signedString ⟨some address, some (unix (now + jwtLifetime expiryHours)),
    some (unix now')⟩ jwtSecret with e | text
  · simp [hsign, bind, Except.bind] at h
  · simp only [hsign, bind, Except.bind, pure, Except.pure, Except.ok.injEq, Prod.mk.injEq] at h
    obtain ⟨rfl, -⟩ := h
    exact ⟨rfl, rfl⟩

theorem authMiddleware_ok {jwtSecret authHeader address : String} {now : ℤ}
    (h : authMiddleware J jwtSecret authHeader now = .ok address) :
    ∃ tokenStr claims, bearerToken authHeader = .ok tokenStr
      ∧ J.parse tokenStr jwtSecret now = .ok claims ∧ claims.sub = some address := by
  unfold authMiddleware at h
  split at h
  · cases h
  · rename_i tokenStr htoken
    split at h
    · cases h
    · rename_i claims hclaims
      split at h
      · cases h
      · rename_i sub hsub
        cases h
        exact ⟨tokenStr, claims, htoken, hclaims, hsub⟩

end Tokens

section Steps

theorem ApiStep.postAuth_apply {body : List Char} {transaction : String}
    (h : postAuthTransaction body = .ok transaction) (now : ℤ) (w : ApiWorld Hash) :
    (ApiStep.postAuth body now).apply K J C w = w.challenge K C (.check transaction now) := by
  simp only [ApiStep.apply, h]

theorem ApiStep.authenticate_apply {authHeader address : String} {now : ℤ}
    (h : authMiddleware J C.jwtSecret authHeader now = .ok address) (w : ApiWorld Hash) :
    (ApiStep.authenticate authHeader now).apply K J C w =
      { w.tick now with admitted := w.admitted ++ [⟨address, now⟩] } := by
  simp only [ApiStep.apply, h]

end Steps

section Run

/-- A token was issued for a redemption in the past. -/
structure IssuedToken.Sound (C : ApiConfig) (w : AuthWorld Hash) (t : IssuedToken) : Prop where
  sub : t.claims.sub = some t.redemption.clientAddr
  exp : t.claims.exp = some (unix (t.issuedAt + jwtLifetime C.jwtExpiryHours))
  redeemed : t.redemption ∈ w.redeemed
  time : t.redemption.time ≤ t.issuedAt
  past : t.issuedAt ≤ w.clock

/-- The request had a token of its address, within its lifetime. -/
def Admission.Sound (C : ApiConfig) (tokens : List IssuedToken) (a : Admission) : Prop :=
  ∃ t ∈ tokens, t.claims.sub = some a.address ∧ t.issuedAt ≤ a.time
    ∧ a.time < t.issuedAt + jwtLifetime C.jwtExpiryHours

/-- The redemptions that have a token, or are to get one. -/
def ApiWorld.redeeming (w : ApiWorld Hash) : List Redemption :=
  w.verified ++ w.tokens.map (·.redemption)

structure ApiInv (C : ApiConfig) (w : ApiWorld Hash) : Prop where
  times : ∀ r ∈ w.auth.redeemed, r.time ≤ w.auth.clock
  redeeming : w.redeeming ⊆ w.auth.redeemed
  once : (w.redeeming.map (·.tx)).Nodup
  tokens : ∀ t ∈ w.tokens, t.Sound C w.auth
  admitted : ∀ a ∈ w.admitted, a.Sound C w.tokens

variable {w : ApiWorld Hash}

theorem IssuedToken.Sound.later {w w' : AuthWorld Hash} {t : IssuedToken} (h : t.Sound C w)
    (hclock : w.clock ≤ w'.clock) (hredeemed : w.redeemed ⊆ w'.redeemed) : t.Sound C w' :=
  { h with redeemed := hredeemed h.redeemed, past := h.past.trans hclock }

namespace ApiInv

theorem init (clock : ℤ) : ApiInv C (.init Hash clock) where
  times := by simp [ApiWorld.init, AuthWorld.init]
  redeeming := by simp [ApiWorld.redeeming, ApiWorld.init]
  once := by simp [ApiWorld.redeeming, ApiWorld.init]
  tokens := by simp [ApiWorld.init]
  admitted := by simp [ApiWorld.init]

theorem tick (h : ApiInv C w) {now : ℤ} (hnow : w.auth.clock ≤ now) : ApiInv C (w.tick now) where
  times := fun r hr => (h.times r hr).trans hnow
  redeeming := h.redeeming
  once := h.once
  tokens := fun t ht => (h.tokens t ht).later hnow fun _ => id
  admitted := h.admitted

/-- The redemption of a step of the challenges is a new one, that has no token yet. -/
theorem challenge (h : ApiInv C w) {step : AuthStep Hash}
    (hstep : step.Allowed K C.toAuthConfig w.auth)
    (honce : ((step.apply K C.toAuthConfig w.auth).redeemed.map (·.tx)).Nodup) :
    ApiInv C (w.challenge K C step) := by
  obtain ⟨hclock, rs, hrs, htime⟩ := step.apply_redeemed hstep
  have hverified : (w.challenge K C step).verified = w.verified ++ rs := by
    simp [ApiWorld.challenge, hrs]
  have hperm : (w.challenge K C step).redeeming.Perm (w.redeeming ++ rs) := by
    rw [ApiWorld.redeeming, hverified, ApiWorld.redeeming, List.append_assoc, List.append_assoc]
    exact List.perm_append_comm.append_left w.verified
  have hredeemed : (w.challenge K C step).auth.redeemed = w.auth.redeemed ++ rs := hrs
  rw [hrs, List.map_append, List.nodup_append] at honce
  refine ⟨fun r hr => ?_, fun r hr => ?_, ?_, fun t ht => ?_, h.admitted⟩
  · rw [hredeemed] at hr
    rcases List.mem_append.1 hr with hold | hnew
    · exact (h.times r hold).trans hclock
    · exact (htime r hnew).le
  · rw [hredeemed]
    rcases List.mem_append.1 (hperm.mem_iff.1 hr) with hold | hnew
    · exact List.mem_append_left _ (h.redeeming hold)
    · exact List.mem_append_right _ hnew
  · rw [(hperm.map _).nodup_iff, List.map_append, List.nodup_append]
    refine ⟨h.once, honce.2.1, fun tx htx tx' htx' => ?_⟩
    obtain ⟨r, hr, rfl⟩ := List.mem_map.1 htx
    exact honce.2.2 _ (List.mem_map_of_mem (h.redeeming hr)) _ htx'
  · refine (h.tokens t ht).later hclock ?_
    rw [hredeemed]
    exact List.subset_append_left _ _

/-- A call of `HandlePostAuth` ends without a token. -/
theorem dropped (h : ApiInv C w) (i : ℕ) :
    ApiInv C { w with verified := w.verified.eraseIdx i } := by
  have hsub : (w.verified.eraseIdx i ++ w.tokens.map (·.redemption)).Sublist w.redeeming :=
    (List.eraseIdx_sublist _ _).append_right _
  exact { h with
    redeeming := List.Subset.trans hsub.subset h.redeeming
    once := h.once.sublist (hsub.map _) }

/-- A redemption is exchanged for a token. -/
theorem issue (h : ApiInv C w) {i : ℕ} {r : Redemption} (hi : w.verified[i]? = some r)
    {claims : MapClaims} {now : ℤ} (hnow : ∀ r ∈ w.auth.redeemed, r.time ≤ now)
    (hpast : now ≤ w.auth.clock) (hsub : claims.sub = some r.clientAddr)
    (hexp : claims.exp = some (unix (now + jwtLifetime C.jwtExpiryHours))) :
    ApiInv C { w with
      verified := w.verified.eraseIdx i, tokens := w.tokens ++ [⟨r, claims, now⟩] } := by
  obtain ⟨hlt, rfl⟩ := List.getElem?_eq_some_iff.1 hi
  have hperm : (w.verified.eraseIdx i
      ++ (w.tokens ++ [(⟨w.verified[i], claims, now⟩ : IssuedToken)]).map (·.redemption)).Perm
        w.redeeming := by
    rw [List.map_append, ← List.append_assoc]
    have := (List.getElem_cons_eraseIdx_perm hlt).append_right (w.tokens.map (·.redemption))
    exact (List.perm_append_singleton _ _).trans this
  have hmem : w.verified[i] ∈ w.auth.redeemed :=
    h.redeeming (List.mem_append_left _ (List.getElem_mem hlt))
  refine ⟨h.times, fun r hr => h.redeeming (hperm.mem_iff.1 hr), ?_, fun t ht => ?_, fun a ha => ?_⟩
  · exact (hperm.map _).nodup_iff.2 h.once
  · rcases List.mem_append.1 ht with hold | hnew
    · exact h.tokens t hold
    · rw [List.mem_singleton.1 hnew]
      exact ⟨hsub, hexp, hmem, hnow _ hmem, hpast⟩
  · obtain ⟨t, ht, hrest⟩ := h.admitted a ha
    exact ⟨t, List.mem_append_left _ ht, hrest⟩

/-- A request is let through with a token that was issued. -/
theorem authenticate (h : ApiInv C w) (hexpiry : J.ChecksExpiry) {authHeader address : String}
    {now : ℤ} (hnow : w.auth.clock ≤ now) (hunforged : TokenUnforged J C w authHeader now)
    (haddress : authMiddleware J C.jwtSecret authHeader now = .ok address) :
    ApiInv C { w with admitted := w.admitted ++ [⟨address, now⟩] } := by
  refine { h with admitted := fun a ha => ?_ }
  rcases List.mem_append.1 ha with hold | hnew
  · exact h.admitted a hold
  · rw [List.mem_singleton.1 hnew]
    obtain ⟨tokenStr, claims, htoken, hparse, hsub⟩ := authMiddleware_ok haddress
    obtain ⟨t, ht, rfl⟩ := hunforged tokenStr claims htoken hparse
    have hsound := h.tokens t ht
    have hlive := hexpiry tokenStr C.jwtSecret now _ _ hparse hsound.exp
    refine ⟨t, ht, hsub, hsound.past.trans hnow, ?_⟩
    simp only [unix] at hlive
    show now < t.issuedAt + jwtLifetime C.jwtExpiryHours
    omega

end ApiInv

theorem ApiReachable.inv
    (hinj : ∀ tx tx' txHash, K.hash C.passphrase tx = .ok txHash →
      K.hash C.passphrase tx' = .ok txHash → tx = tx')
    (hexpiry : J.ChecksExpiry) (hw : ApiReachable K J C w) :
    AuthReachable K C.toAuthConfig w.auth ∧ ApiInv C w := by
  induction hw with
  | init clock h => exact ⟨.init clock h, .init clock⟩
  | @step w step _ hstep ih =>
    obtain ⟨hauth, hinv⟩ := ih
    have hchallenge : ∀ s : AuthStep Hash, s.Allowed K C.toAuthConfig w.auth →
        AuthReachable K C.toAuthConfig (w.challenge K C s).auth ∧ ApiInv C (w.challenge K C s) := by
      intro s hs
      exact ⟨hauth.step s hs, hinv.challenge hs ((hauth.step s hs).inv hinj).once⟩
    cases step with
    | getAuth query nonce now now' =>
      simp only [ApiStep.apply]
      split
      · exact ⟨hauth, hinv⟩
      · exact hchallenge _ (hstep _ ‹_›)
    | put i now => exact hchallenge _ hstep
    | sign address txHash => exact hchallenge _ hstep
    | signInvoice tx => exact hchallenge _ hstep
    | postAuth body now =>
      simp only [ApiStep.apply]
      split
      · exact ⟨hauth, hinv⟩
      · exact hchallenge _ (hstep _ ‹_›)
    | consume i now => exact hchallenge _ hstep
    | issueToken i now now' =>
      have hle := hstep.1.trans hstep.2
      have htick := hauth.tick hle
      simp only [ApiStep.apply]
      split
      · exact ⟨htick, hinv.tick hle⟩
      · rename_i r hi
        split
        · exact ⟨htick, (hinv.tick hle).dropped i⟩
        · rename_i claims token hclaims
          obtain ⟨hsub, hexp⟩ := generateJWT_ok hclaims
          exact ⟨htick, (hinv.tick hle).issue hi (fun r hr => (hinv.times r hr).trans hstep.1)
            hstep.2 hsub hexp⟩
    | authenticate authHeader now =>
      have htick := hauth.tick hstep.1
      simp only [ApiStep.apply]
      split
      · exact ⟨htick, hinv.tick hstep.1⟩
      · rename_i address haddress
        exact ⟨htick, (hinv.tick hstep.1).authenticate hexpiry le_rfl hstep.2 haddress⟩

/-- However calls interleave: a request that is let through runs for an address that signed a
challenge issued for it, redeemed the challenge before its expiry, and was given a token for it less
than the token's lifetime before; and no challenge was exchanged for two tokens. -/
theorem admitted_redeemed
    (hinj : ∀ tx tx' txHash, K.hash C.passphrase tx = .ok txHash →
      K.hash C.passphrase tx' = .ok txHash → tx = tx')
    (hexpiry : J.ChecksExpiry) (hw : ApiReachable K J C w) :
    (∀ a ∈ w.admitted, ∃ t ∈ w.tokens, ∃ c ∈ w.auth.issued,
        t.redemption.tx = c.tx ∧ c.clientAddr = a.address
        ∧ (∃ txHash, K.hash C.passphrase c.tx = .ok txHash ∧ (a.address, txHash) ∈ w.auth.signed)
        ∧ t.redemption.time < c.expiresAt ∧ t.redemption.time ≤ t.issuedAt ∧ t.issuedAt ≤ a.time
        ∧ a.time < t.issuedAt + jwtLifetime C.jwtExpiryHours)
      ∧ (w.tokens.map fun t => t.redemption.tx).Nodup := by
  obtain ⟨hauth, h⟩ := hw.inv hinj hexpiry
  refine ⟨fun a ha => ?_, ?_⟩
  · obtain ⟨t, ht, hsub, hissued, hlive⟩ := h.admitted a ha
    have hsound := h.tokens t ht
    obtain ⟨c, hc, hbefore, -, htx, haddr, txHash, hhash, hsigned⟩ :=
      (hauth.inv hinj).redeemed t.redemption hsound.redeemed
    have haddress : c.clientAddr = a.address := by
      have hsub' := hsound.sub
      rw [hsub, Option.some.injEq] at hsub'
      exact haddr.symm.trans hsub'.symm
    exact ⟨t, ht, c, hc, htx, haddress, ⟨txHash, hhash, haddress ▸ hsigned⟩, hbefore, hsound.time,
      hissued, hlive⟩
  · have honce := h.once
    rw [ApiWorld.redeeming, List.map_append, List.map_map] at honce
    exact (List.nodup_append.1 honce).2.1

end Run

section Client

open JsonText

theorem utf8Size_append (s t : List Char) : utf8Size (s ++ t) = utf8Size s + utf8Size t := by
  simp [utf8Size]

theorem utf8Size_toList (s : String) : utf8Size s.toList = s.utf8ByteSize := by
  have hencode : ∀ cs : List Char, cs.utf8Encode.size = utf8Size cs := by
    intro cs
    simp [List.utf8Encode, utf8Size, List.length_flatMap]
  rw [← hencode, String.utf8Encode_toList, String.size_toByteArray]

/-- Escaped, a character takes at most six times its bytes. -/
theorem utf8Size_quoteChar_le (c : Char) : utf8Size (quoteChar c) ≤ 6 * c.utf8Size := by
  have hpos := c.utf8Size_pos
  have hdigit : ∀ n : ℕ, (n % 16).digitChar.utf8Size = 1 := by
    intro n
    have hlt : ∀ d < 16, (Nat.digitChar d).utf8Size = 1 := by decide
    exact hlt _ (Nat.mod_lt _ (by omega))
  unfold quoteChar
  split_ifs
  iterate 7 exact (show utf8Size _ = 2 from by decide).le.trans (by omega)
  · have hu : ('\\' : Char).utf8Size = 1 ∧ ('u' : Char).utf8Size = 1 := by decide
    simp only [utf8Size, hex4, List.map_cons, List.sum_cons, hu, hdigit, List.map_nil, List.sum_nil]
    omega
  · simp only [utf8Size, List.map_cons, List.sum_cons, List.map_nil, List.sum_nil]
    omega

theorem utf8Size_quote_le (s : String) :
    utf8Size (quote (jsString s)) ≤ 6 * s.utf8ByteSize + 2 := by
  have hchars : ∀ cs : List Char, utf8Size (cs.flatMap quoteChar) ≤ 6 * utf8Size cs := by
    intro cs
    induction cs with
    | nil => simp [utf8Size]
    | cons c cs ih =>
      have := utf8Size_quoteChar_le c
      rw [List.flatMap_cons, utf8Size_append]
      simp only [utf8Size, List.map_cons, List.sum_cons] at *
      omega
  have hquote : quote (jsString s) = ['"'] ++ s.toList.flatMap quoteChar ++ ['"'] := by
    rw [quote, jsString, codePoints_utf16, List.flatMap_map]
    rfl
  have h := hchars s.toList
  have hmark : utf8Size ['"'] = 1 := by decide
  rw [utf8Size_toList] at h
  rw [hquote, utf8Size_append, utf8Size_append, hmark]
  omega

/-- A submission of up to a sixth of the limit fits, whatever has to be escaped in it. -/
theorem verifyChallengeBody_size (s : String) :
    utf8Size (verifyChallengeBody (jsString s)) ≤ 6 * s.utf8ByteSize + 20 := by
  have h := utf8Size_quote_le s
  have hsplit : verifyChallengeBody (jsString s) =
      (['{'] ++ quote (jsString "transaction") ++ [':']) ++ quote (jsString s) ++ ['}'] := by
    simp [verifyChallengeBody, writeObject, writeMembers]
  have hkey : utf8Size (['{'] ++ quote (jsString "transaction") ++ [':']) = 15 := by decide +kernel
  have hmark : utf8Size ['}'] = 1 := by decide
  rw [hsplit, utf8Size_append, utf8Size_append, hkey, hmark]
  omega

theorem postAuthTransaction_body {s : String} (hne : s ≠ "")
    (hsize : 6 * s.utf8ByteSize + 20 ≤ maxAuthBodyBytes) :
    postAuthTransaction (verifyChallengeBody (jsString s)) = .ok s := by
  have hbody := (verifyChallengeBody_size s).trans hsize
  have hdecode : decodePostAuth (verifyChallengeBody (jsString s)) = .ok s := by
    rw [decodePostAuth, verifyChallengeBody, decodeJSONBody_string hbody, jsString,
      decodeUnits_utf16, String.ofList_toList]
  simp only [postAuthTransaction, hdecode]
  rw [if_neg hne]

theorem trimSpace_of {s : String} (h : ∀ c ∈ s.toList, unicodeIsSpace c = false) :
    trimSpace s = s := by
  have hdrop : s.toList.dropWhile unicodeIsSpace = s.toList := by
    rw [List.dropWhile_eq_self_iff]
    intro hpos
    simp [h _ (List.getElem_mem hpos)]
  have hrdrop : s.toList.rdropWhile unicodeIsSpace = s.toList := by
    rw [List.rdropWhile_eq_self_iff]
    intro hne
    simp [h _ (List.getLast_mem hne)]
  rw [trimSpace, Separated.trim, hdrop, hrdrop, String.ofList_toList]

/-- The header the web app sends carries its token. -/
theorem bearerToken_bearer {t : String} (hne : t ≠ "")
    (h : ∀ c ∈ t.toList, unicodeIsSpace c = false) : bearerToken ("Bearer " ++ t) = .ok t := by
  have hsplit : ("Bearer " ++ t).toList.span (· ≠ ' ') = ("Bearer".toList, ' ' :: t.toList) := by
    rw [String.toList_append, List.span_eq_takeWhile_dropWhile]
    simp
  have hheader : "Bearer " ++ t ≠ "" := by
    intro hempty
    rw [hempty] at hsplit
    simp at hsplit
  have hscheme : "Bearer".toList.map Char.toLower = "bearer".toList := by decide
  have hblank : ∀ c ∈ t.toList, ¬ c = ' ' ∧ ¬ c = '\t' ∧ ¬ c = '\r' ∧ ¬ c = '\n' := by
    intro c hc
    have hspace := h c hc
    refine ⟨?_, ?_, ?_, ?_⟩ <;>
      · rintro rfl
        simp [unicodeIsSpace] at hspace
  rw [bearerToken, if_neg hheader, hsplit]
  simp only [hscheme, ne_eq, not_true_eq_false, if_false, String.ofList_toList, trimSpace_of h]
  simpa [hne] using hblank

/-- A token is one word, and verifies until it expires. -/
structure Jwt.Verifies (J : Jwt) (jwtSecret : String) : Prop where
  word : ∀ claims tokenStr, J.signedString claims jwtSecret = .ok tokenStr →
    tokenStr ≠ "" ∧ ∀ c ∈ tokenStr.toList, unicodeIsSpace c = false
  parse : ∀ claims tokenStr exp now, J.signedString claims jwtSecret = .ok tokenStr →
    claims.exp = some exp → now < exp * 10 ^ 9 → J.parse tokenStr jwtSecret now = .ok claims

theorem generateJWT_signed {address jwtSecret : String} {expiryHours now now' : ℤ}
    {claims : MapClaims} {token : String}
    (h : generateJWT J address jwtSecret expiryHours now now' = .ok (claims, token)) :
    J.signedString claims jwtSecret = .ok token := by
  unfold generateJWT at h
  rcases hsign : J.signedString ⟨some address, some (unix (now + jwtLifetime expiryHours)),
    some (unix now')⟩ jwtSecret with e | text
  · simp [hsign, bind, Except.bind] at h
  · simp only [hsign, bind, Except.bind, pure, Except.pure, Except.ok.injEq, Prod.mk.injEq] at h
    obtain ⟨rfl, rfl⟩ := h
    exact hsign

/-- The header of a token that was generated is let through under its address until it expires. -/
theorem authMiddleware_generated {address jwtSecret token : String} {expiryHours now now' t : ℤ}
    {claims : MapClaims} (hjwt : J.Verifies jwtSecret)
    (h : generateJWT J address jwtSecret expiryHours now now' = .ok (claims, token))
    (hlive : t < unix (now + jwtLifetime expiryHours) * 10 ^ 9) :
    authMiddleware J jwtSecret ("Bearer " ++ token) t = .ok address := by
  have hsigned := generateJWT_signed h
  obtain ⟨hsub, hexp⟩ := generateJWT_ok h
  obtain ⟨hne, hspace⟩ := hjwt.word claims token hsigned
  rw [authMiddleware, bearerToken_bearer hne hspace]
  simp only [hjwt.parse claims token _ t hsigned hexp hlive, hsub]

/-- A successful call of `VerifyChallenge` in its two parts. -/
theorem verifyChallenge_ok {C : AuthConfig} {signedXDR address : String} {now now' : ℤ}
    {s : NonceStore} (h : (verifyChallenge K C signedXDR now now' s).1 = .ok address) :
    ∃ sub, checkChallenge K C signedXDR now = .ok sub ∧ sub.clientAddr = address
      ∧ consumeChallenge sub now' s = (.ok address, (s.consume sub.nonce now').2) := by
  unfold verifyChallenge at h
  split at h
  · cases h
  · rename_i sub hsub
    simp only [consumeChallenge] at h ⊢
    split_ifs at h with hok
    · cases h
      exact ⟨sub, hsub, rfl, by simp [hok]⟩

section Login

variable {w : ApiWorld Hash} {sub : Submission} {now now' : ℤ}

theorem challenge_clock (step : AuthStep Hash) (w : ApiWorld Hash) :
    (w.challenge K C step).auth.clock = step.clockAfter w.auth.clock :=
  step.apply_clock w.auth

theorem ApiStep.issueToken_clock (i : ℕ) (w : ApiWorld Hash) :
    ((ApiStep.issueToken i now now').apply K J C w).auth.clock = now' := by
  rw [ApiStep.apply]
  split
  · rfl
  · split <;> rfl

theorem challenge_check {signedXDR : String}
    (h : checkChallenge K C.toAuthConfig signedXDR now = .ok sub) (w : ApiWorld Hash) :
    w.challenge K C (.check signedXDR now) =
      { w with auth := { w.auth with clock := now, passed := w.auth.passed ++ [sub] } } := by
  simp [ApiWorld.challenge, AuthStep.apply, h]

theorem challenge_consume {i : ℕ} {address : String} {s : NonceStore}
    (hi : w.auth.passed[i]? = some sub)
    (h : consumeChallenge sub now w.auth.store = (.ok address, s)) :
    w.challenge K C (.consume i now) =
      { w with
        auth := { w.auth with
          clock := now, store := s, passed := w.auth.passed.eraseIdx i
          redeemed := w.auth.redeemed ++ [⟨sub.tx, address, now⟩] }
        verified := w.verified ++ [⟨sub.tx, address, now⟩] } := by
  simp [ApiWorld.challenge, AuthStep.apply, hi, h]

theorem ApiStep.issueToken_apply {i : ℕ} {r : Redemption} {claims : MapClaims} {token : String}
    (hi : w.verified[i]? = some r)
    (h : generateJWT J r.clientAddr C.jwtSecret C.jwtExpiryHours now now' = .ok (claims, token)) :
    (ApiStep.issueToken i now now').apply K J C w =
      { w.tick now' with
        verified := w.verified.eraseIdx i, tokens := w.tokens ++ [⟨r, claims, now⟩] } := by
  simp only [ApiStep.apply, hi, h]

/-- Challenges are for addresses. -/
def AuthWorld.Addressed (K : Txnbuild Hash Signature) (w : AuthWorld Hash) : Prop :=
  ∀ c ∈ w.building ++ w.issued, c.clientAddr ≠ "" ∧ K.parse c.clientAddr = true

/-- What the web app does with a challenge its wallet has signed, and a request after it. -/
def loginSteps (w : ApiWorld Hash) (signedXDR token : String) (now₁ now₂ now₃ now₃' now₄ : ℤ) :
    List (ApiStep Hash) :=
  [.postAuth (verifyChallengeBody (jsString signedXDR)) now₁, .consume w.auth.passed.length now₂,
    .issueToken w.verified.length now₃ now₃', .authenticate ("Bearer " ++ token) now₄]

end Login

/-- What a step of a call does to the challenges: time passes, or a step of theirs is taken, which
generates a challenge for an address only. -/
theorem ApiStep.auth_cases {w : ApiWorld Hash} (step : ApiStep Hash) (h : step.Allowed K J C w) :
    (∃ now, w.auth.clock ≤ now ∧ (step.apply K J C w).auth = { w.auth with clock := now })
      ∨ ∃ authStep : AuthStep Hash, authStep.Allowed K C.toAuthConfig w.auth
        ∧ (step.apply K J C w).auth = authStep.apply K C.toAuthConfig w.auth
        ∧ ∀ address nonce now now', authStep = .generate address nonce now now' →
          address ≠ "" ∧ K.parse address = true := by
  cases step with
  | getAuth query nonce now now' =>
    simp only [ApiStep.apply]
    split
    · exact .inl ⟨w.auth.clock, le_rfl, rfl⟩
    · rename_i address haddress
      refine .inr ⟨_, h address haddress, rfl, fun address' nonce' t t' hgen => ?_⟩
      cases hgen
      unfold authAddress at haddress
      simp only at haddress
      split_ifs at haddress with hempty hparse
      cases haddress
      exact ⟨hempty, by simpa using hparse⟩
  | put i now => exact .inr ⟨.put i now, h, rfl, by simp⟩
  | sign address txHash => exact .inr ⟨.sign address txHash, h, rfl, by simp⟩
  | signInvoice tx => exact .inr ⟨.signInvoice tx, h, rfl, by simp⟩
  | postAuth body now =>
    simp only [ApiStep.apply]
    split
    · exact .inl ⟨w.auth.clock, le_rfl, rfl⟩
    · rename_i transaction htransaction
      exact .inr ⟨.check transaction now, h transaction htransaction, rfl, by simp⟩
  | consume i now => exact .inr ⟨.consume i now, h, rfl, by simp⟩
  | issueToken i now now' =>
    simp only [ApiStep.apply]
    split
    · exact .inl ⟨now', h.1.trans h.2, rfl⟩
    · split <;> exact .inl ⟨now', h.1.trans h.2, rfl⟩
  | authenticate authHeader now =>
    simp only [ApiStep.apply]
    split <;> exact .inl ⟨now, h.1, rfl⟩

theorem AuthStep.addressed {C : AuthConfig} {w : AuthWorld Hash} (h : w.Addressed K)
    (step : AuthStep Hash) (hstep : ∀ address nonce now now',
      step = .generate address nonce now now' → address ≠ "" ∧ K.parse address = true) :
    (step.apply K C w).Addressed K := by
  cases step with
  | generate clientAddr nonce now now' =>
    simp only [AuthStep.apply]
    split
    · exact h
    · rename_i challenge txHash text hok
      obtain ⟨nonceStr, -, rfl, -⟩ := generateChallenge_ok hok
      intro c' hc'
      rw [List.mem_append, List.mem_append, List.mem_singleton] at hc'
      rcases hc' with (hbuilding | rfl) | hissued
      · exact h c' (List.mem_append_left _ hbuilding)
      · exact hstep clientAddr nonce now now' rfl
      · exact h c' (List.mem_append_right _ hissued)
  | put i now =>
    simp only [AuthStep.apply]
    split
    · exact h
    · rename_i c hi
      intro c' hc'
      refine h c' ?_
      rw [List.mem_append, List.mem_append, List.mem_singleton] at hc'
      rcases hc' with hbuilding | hissued | rfl
      · exact List.mem_append_left _ (List.mem_of_mem_eraseIdx hbuilding)
      · exact List.mem_append_right _ hissued
      · exact List.mem_append_left _ (List.mem_of_getElem? hi)
  | sign address txHash => exact h
  | signInvoice tx =>
    simp only [AuthStep.apply]
    split <;> exact h
  | check signedXDR now =>
    simp only [AuthStep.apply]
    split <;> exact h
  | consume i now =>
    simp only [AuthStep.apply]
    split
    · exact h
    · split <;> exact h

theorem ApiReachable.auth {w : ApiWorld Hash} (hw : ApiReachable K J C w) :
    AuthReachable K C.toAuthConfig w.auth ∧ w.auth.Addressed K := by
  induction hw with
  | init clock h =>
    exact ⟨.init clock h, by simp [AuthWorld.Addressed, ApiWorld.init, AuthWorld.init]⟩
  | step step _ hstep ih =>
    obtain ⟨hauth, haddressed⟩ := ih
    rcases step.auth_cases hstep with ⟨now, hnow, heq⟩ | ⟨authStep, hallowed, heq, hgenerate⟩
    · rw [heq]
      exact ⟨hauth.tick hnow, haddressed⟩
    · rw [heq]
      exact ⟨hauth.step authStep hallowed, authStep.addressed haddressed hgenerate⟩

/-- The first three steps of a login end with the token. -/
theorem login_issues
    (hinj : ∀ tx tx' txHash, K.hash C.passphrase tx = .ok txHash →
      K.hash C.passphrase tx' = .ok txHash → tx = tx')
    {w : ApiWorld Hash} (hw : ApiReachable K J C w) {c : Challenge} (hc : c ∈ w.auth.issued)
    (hnot : ∀ r ∈ w.auth.redeemed, r.tx ≠ c.tx) {signedXDR : String} {sigs : List Signature}
    {txHash : Hash} (hparsed : K.transactionFromXDR signedXDR = .ok (some (c.tx, sigs)))
    (hhash : K.hash C.passphrase c.tx = .ok txHash)
    (hserver : ∃ sig ∈ sigs, K.verify C.server txHash sig = true)
    (hsigned : ∃ sig ∈ sigs, K.verify C.server txHash sig = false
      ∧ K.verify c.clientAddr txHash sig = true)
    (hne : signedXDR ≠ "") (hsize : 6 * signedXDR.utf8ByteSize + 20 ≤ maxAuthBodyBytes)
    {now₁ now₂ now₃ now₃' : ℤ} (h₁ : w.auth.clock ≤ now₁) (h₂ : now₁ ≤ now₂)
    (hexpires : now₂ < c.expiresAt) {claims : MapClaims} {token : String}
    (htoken : generateJWT J c.clientAddr C.jwtSecret C.jwtExpiryHours now₃ now₃' =
      .ok (claims, token)) :
    ∃ w', (ApiStep.issueToken w.verified.length now₃ now₃').apply K J C
        ((ApiStep.consume w.auth.passed.length now₂).apply K J C
          ((ApiStep.postAuth (verifyChallengeBody (jsString signedXDR)) now₁).apply K J C w)) = w'
      ∧ w'.admitted = w.admitted
      ∧ w'.tokens.map (·.claims) = w.tokens.map (·.claims) ++ [claims] := by
  obtain ⟨hauth, haddressed⟩ := hw.auth
  obtain ⟨hclient, hparse⟩ := haddressed c (List.mem_append_right _ hc)
  obtain ⟨sig, hsig, hother, hverify⟩ := hsigned
  obtain ⟨sub, hcheck, -, hconsume⟩ := verifyChallenge_ok ((hauth.inv hinj).redeems hc hnot h₁ h₂
    hexpires hparsed hhash hclient hserver ⟨sig, hsig, hother, hparse, hverify⟩)
  have hpost := ApiStep.postAuth_apply (K := K) (J := J) (C := C)
    (postAuthTransaction_body hne hsize) now₁ w
  rw [challenge_check hcheck] at hpost
  have hredeem := challenge_consume (K := K) (C := C)
    (w := { w with auth := { w.auth with clock := now₁, passed := w.auth.passed ++ [sub] } })
    (i := w.auth.passed.length) (by simp) hconsume
  refine ⟨_, rfl, ?_⟩
  rw [hpost, show (ApiStep.consume w.auth.passed.length now₂).apply K J C _ = _ from hredeem,
    ApiStep.issueToken_apply (r := ⟨sub.tx, c.clientAddr, now₂⟩) (by simp) htoken]
  exact ⟨rfl, by simp⟩

/-- Whatever calls came before, a client with an issued challenge that is neither redeemed nor
expired gets in: the web app's submission of it, signed, is exchanged for a token, and the web app's
header with the token is let through under the client's address until the token expires. -/
theorem login_admits
    (hinj : ∀ tx tx' txHash, K.hash C.passphrase tx = .ok txHash →
      K.hash C.passphrase tx' = .ok txHash → tx = tx')
    {w : ApiWorld Hash} (hw : ApiReachable K J C w) {c : Challenge} (hc : c ∈ w.auth.issued)
    (hnot : ∀ r ∈ w.auth.redeemed, r.tx ≠ c.tx) {signedXDR : String} {sigs : List Signature}
    {txHash : Hash} (hparsed : K.transactionFromXDR signedXDR = .ok (some (c.tx, sigs)))
    (hhash : K.hash C.passphrase c.tx = .ok txHash)
    (hserver : ∃ sig ∈ sigs, K.verify C.server txHash sig = true)
    (hsigned : ∃ sig ∈ sigs, K.verify C.server txHash sig = false
      ∧ K.verify c.clientAddr txHash sig = true)
    (hne : signedXDR ≠ "") (hsize : 6 * signedXDR.utf8ByteSize + 20 ≤ maxAuthBodyBytes)
    {now₁ now₂ now₃ now₃' now₄ : ℤ} (h₁ : w.auth.clock ≤ now₁) (h₂ : now₁ ≤ now₂)
    (hexpires : now₂ < c.expiresAt) (hjwt : J.Verifies C.jwtSecret) {claims : MapClaims}
    {token : String} (htoken : generateJWT J c.clientAddr C.jwtSecret C.jwtExpiryHours now₃ now₃' =
      .ok (claims, token))
    (hlive : now₄ < unix (now₃ + jwtLifetime C.jwtExpiryHours) * 10 ^ 9) :
    ((loginSteps w signedXDR token now₁ now₂ now₃ now₃' now₄).foldl
        (fun w step => step.apply K J C w) w).admitted =
      w.admitted ++ [⟨c.clientAddr, now₄⟩] := by
  obtain ⟨w', hissues, hadmitted, -⟩ := login_issues hinj hw hc hnot hparsed hhash hserver hsigned
    hne hsize h₁ h₂ hexpires htoken
  simp only [loginSteps, List.foldl_cons, List.foldl_nil]
  rw [hissues, ApiStep.authenticate_apply (authMiddleware_generated hjwt htoken hlive)]
  simp only [hadmitted]

end Client

section Recorded

/-- The API of the recorded challenge. -/
def recordedApi : ApiConfig where
  toAuthConfig := recordedAuth
  jwtSecret := "change_me_before_production"
  jwtExpiryHours := 24

def recordedClaims : MapClaims := ⟨some recordedClient, some 1767312061, some 1767225661⟩

/-- The token of the recorded client. -/
def recordedToken : String :=
  "eyJhbGciOiJIUzI1NiIsInR5cCI6IkpXVCJ9."
    ++ "eyJleHAiOjE3NjczMTIwNjEsImlhdCI6MTc2NzIyNTY2MSwic3ViIjoiR0JYSFVIRzVGR1lMUEQ2UkhMMk1LV01Q"
    ++ "NTcyTzZLVVhDWlhEWkpYUzRUNTdaVE1BS0JON0RXWE4ifQ"
    ++ ".erRQw0_hgrmDH7w9yDji3eyZXi3ccXVZRL5PSF_8gFU"

/-- Package `jwt` on the recorded token. -/
def recordedJwt : Jwt where
  signedString := fun claims secret =>
    if claims = recordedClaims ∧ secret = recordedApi.jwtSecret then .ok recordedToken
    else .error (.new "not recorded")
  parse := fun tokenStr secret now =>
    if tokenStr = recordedToken ∧ secret = recordedApi.jwtSecret ∧ now < 1767312061 * 10 ^ 9 then
      .ok recordedClaims
    else .error (.new "token is invalid")

theorem toList_all_append {p : Char → Bool} {s t : String} (hs : s.toList.all p = true)
    (ht : t.toList.all p = true) : (s ++ t).toList.all p = true := by
  rw [String.toList_append, List.all_append, hs, ht, Bool.and_self]

/-- A header holds the token as one word. -/
theorem recordedToken_word :
    recordedToken ≠ "" ∧ ∀ c ∈ recordedToken.toList, unicodeIsSpace c = false := by
  have hpart {l : List Char} (h : l.all (fun c => !unicodeIsSpace c) = true) :
      (String.ofList l).toList.all (fun c => !unicodeIsSpace c) = true := by
    rwa [String.toList_ofList]
  have hspace : recordedToken.toList.all (fun c => !unicodeIsSpace c) = true :=
    toList_all_append
      (toList_all_append
        (toList_all_append (hpart (by decide +kernel)) (hpart (by decide +kernel)))
        (hpart (by decide +kernel)))
      (hpart (by decide +kernel))
  exact ⟨by decide +kernel, by simpa using hspace⟩

/-- The recorded submission as it is posted. -/
def recordedPostAuth : List Char := verifyChallengeBody (jsString recordedSigned)

theorem recordedSigned_size :
    recordedSigned ≠ "" ∧ 6 * recordedSigned.utf8ByteSize + 20 ≤ maxAuthBodyBytes := by
  have hpart {l : List Char} (h : utf8Size l ≤ 90) : (String.ofList l).utf8ByteSize ≤ 90 := by
    rwa [← utf8Size_toList, String.toList_ofList]
  have happend {s t : String} {m n : ℕ} (hs : s.utf8ByteSize ≤ m) (ht : t.utf8ByteSize ≤ n) :
      (s ++ t).utf8ByteSize ≤ m + n := by
    rw [String.utf8ByteSize_append]
    omega
  have hsize : recordedSigned.utf8ByteSize ≤ 90 + 90 + 90 + 90 + 90 + 90 :=
    happend (happend (happend (happend (happend (hpart (by decide +kernel))
      (hpart (by decide +kernel))) (hpart (by decide +kernel))) (hpart (by decide +kernel)))
      (hpart (by decide +kernel))) (hpart (by decide +kernel))
  exact ⟨by decide +kernel, by simp only [maxAuthBodyBytes]; omega⟩

theorem recordedPostAuth_transaction :
    postAuthTransaction recordedPostAuth = .ok recordedSigned :=
  postAuthTransaction_body recordedSigned_size.1 recordedSigned_size.2

/-- The client gets the challenge, signs it, posts it, is given a token and uses it. -/
def recordedApiSteps : List (ApiWorld String → ApiWorld String) :=
  [ApiStep.apply recordedTxnbuild recordedJwt recordedApi (.getAuth [("address", recordedClient)]
      (.ok recordedChallenge.nonce) (1767225600 * 10 ^ 9) (1767225600 * 10 ^ 9)),
    ApiStep.apply recordedTxnbuild recordedJwt recordedApi (.put 0 (1767225601 * 10 ^ 9)),
    ApiStep.apply recordedTxnbuild recordedJwt recordedApi (.sign recordedClient recordedHash),
    fun w => w.challenge recordedTxnbuild recordedApi (.check recordedSigned (1767225660 * 10 ^ 9)),
    ApiStep.apply recordedTxnbuild recordedJwt recordedApi (.consume 0 (1767225661 * 10 ^ 9)),
    ApiStep.apply recordedTxnbuild recordedJwt recordedApi
      (.issueToken 0 (1767225661 * 10 ^ 9) (1767225661 * 10 ^ 9)),
    ApiStep.apply recordedTxnbuild recordedJwt recordedApi
      (.authenticate ("Bearer " ++ recordedToken) (1767225662 * 10 ^ 9))]

/-- The API after the first `n` steps. -/
def recordedApiWorld (n : ℕ) : ApiWorld String :=
  (recordedApiSteps.take n).foldl (fun w f => f w) (.init String (1767225600 * 10 ^ 9))

/-- The recorded states the API reaches. -/
abbrev RecordedReachable : ApiWorld String → Prop :=
  ApiReachable recordedTxnbuild recordedJwt recordedApi

theorem recordedApiWorld_succ (n : ℕ) {f : ApiWorld String → ApiWorld String}
    (hn : recordedApiSteps[n]? = some f) : recordedApiWorld (n + 1) = f (recordedApiWorld n) := by
  unfold recordedApiWorld
  rw [List.take_add_one, hn, List.foldl_append]
  rfl

theorem recordedApiWorld_step (n : ℕ) {f : ApiWorld String → ApiWorld String}
    (hn : recordedApiSteps[n]? = some f) (h : RecordedReachable (f (recordedApiWorld n))) :
    RecordedReachable (recordedApiWorld (n + 1)) := by
  rw [recordedApiWorld_succ n hn]
  exact h

theorem recordedJwt_checksExpiry : recordedJwt.ChecksExpiry := by
  intro tokenStr jwtSecret now claims exp hparse hexp
  simp only [recordedJwt] at hparse
  split_ifs at hparse with htoken
  cases hparse
  cases hexp
  exact htoken.2.2

/-- The clocks the steps are taken at. -/
theorem recordedApiWorld_clocks :
    (recordedApiWorld 1).auth.clock ≤ 1767225601 * 10 ^ 9
      ∧ (recordedApiWorld 3).auth.clock ≤ 1767225660 * 10 ^ 9
      ∧ (recordedApiWorld 4).auth.clock ≤ 1767225661 * 10 ^ 9
      ∧ (recordedApiWorld 5).auth.clock ≤ 1767225661 * 10 ^ 9
      ∧ (recordedApiWorld 6).auth.clock ≤ 1767225662 * 10 ^ 9 := by
  refine ⟨?_, ?_, ?_, ?_, ?_⟩
  · rw [recordedApiWorld_succ 0 rfl, ApiStep.apply]
    split
    · decide
    · rw [challenge_clock, AuthStep.clockAfter]
      decide
  · rw [recordedApiWorld_succ 2 rfl, ApiStep.apply, challenge_clock, recordedApiWorld_succ 1 rfl,
      ApiStep.apply, challenge_clock]
    decide
  · rw [recordedApiWorld_succ 3 rfl, challenge_clock]
    decide
  · rw [recordedApiWorld_succ 4 rfl, ApiStep.apply, challenge_clock]
    decide
  · rw [recordedApiWorld_succ 5 rfl, ApiStep.issueToken_clock]
    decide

/-- The challenge is issued and signed, and nothing was submitted yet. -/
theorem recordedApiWorld_signed :
    recordedChallenge ∈ (recordedApiWorld 3).auth.issued
      ∧ (recordedAuth.server, recordedHash) ∈ (recordedApiWorld 3).auth.signed
      ∧ (recordedClient, recordedHash) ∈ (recordedApiWorld 3).auth.signed
      ∧ (recordedApiWorld 3).auth.redeemed = [] ∧ (recordedApiWorld 3).auth.passed = []
      ∧ (recordedApiWorld 3).verified = [] ∧ (recordedApiWorld 3).tokens = [] := by
  decide +kernel

theorem recordedTxnbuild_parsed : recordedTxnbuild.transactionFromXDR recordedSigned =
    .ok (some (recordedChallenge.tx, [recordedServerSignature, recordedClientSignature])) := by
  simp [recordedTxnbuild]

theorem recordedTxnbuild_hashed :
    recordedTxnbuild.hash recordedApi.passphrase recordedChallenge.tx = .ok recordedHash := by
  simp [recordedTxnbuild, recordedApi]

theorem recordedToken_generated : generateJWT recordedJwt recordedChallenge.clientAddr
    recordedApi.jwtSecret recordedApi.jwtExpiryHours (1767225661 * 10 ^ 9) (1767225661 * 10 ^ 9) =
      .ok (recordedClaims, recordedToken) := by
  have hsigned : recordedJwt.signedString recordedClaims recordedApi.jwtSecret =
      .ok recordedToken := by simp [recordedJwt]
  change (recordedJwt.signedString recordedClaims recordedApi.jwtSecret >>= fun token =>
    .ok (recordedClaims, token)) = _
  rw [hsigned]
  rfl

/-- Each of the two signatures is its own account's. -/
theorem recordedSignatures_verify :
    recordedClient ≠ recordedApi.server
      ∧ recordedTxnbuild.verify recordedApi.server recordedHash recordedServerSignature = true
      ∧ recordedTxnbuild.verify recordedApi.server recordedHash recordedClientSignature = false
      ∧ recordedTxnbuild.verify recordedClient recordedHash recordedClientSignature = true := by
  refine ⟨?_, ?_, ?_, ?_⟩ <;>
    simp [recordedTxnbuild, recordedApi, recordedAuth, recordedClient, recordedServerSignature,
      recordedClientSignature]

/-- The challenge is issued and signed. -/
theorem recordedApiWorld_issued : RecordedReachable (recordedApiWorld 3) := by
  have h₀ : RecordedReachable (recordedApiWorld 0) := .init _ (by decide)
  have hfresh : ∀ n, Except.ok recordedChallenge.nonce = (.ok n : Except GoError String) →
      n ≠ "" ∧ ∀ c ∈ (recordedApiWorld 0).auth.building ++ (recordedApiWorld 0).auth.issued,
        c.nonce ≠ n := by
    intro n hn
    cases hn
    exact ⟨by decide, fun c hc => by cases hc⟩
  have h₁ : RecordedReachable (recordedApiWorld 1) :=
    recordedApiWorld_step 0 rfl (h₀.step _ fun _ _ => ⟨le_rfl, le_rfl, hfresh⟩)
  have h₂ : RecordedReachable (recordedApiWorld 2) :=
    recordedApiWorld_step 1 rfl (h₁.step _ recordedApiWorld_clocks.1)
  exact recordedApiWorld_step 2 rfl (h₂.step _ recordedSignatures_verify.1)

/-- It is redeemed. -/
theorem recordedApiWorld_redeemed : RecordedReachable (recordedApiWorld 5) := by
  obtain ⟨-, hcheck, hconsume, -⟩ := recordedApiWorld_clocks
  obtain ⟨-, hserver, hsigned, -⟩ := recordedApiWorld_signed
  have h₄ : RecordedReachable (recordedApiWorld 4) := by
    have h := recordedApiWorld_issued.step (.postAuth recordedPostAuth (1767225660 * 10 ^ 9))
      fun transaction _ => ⟨hcheck, recordedWorld_unforged hserver hsigned transaction⟩
    rw [ApiStep.postAuth_apply recordedPostAuth_transaction] at h
    exact recordedApiWorld_step 3 rfl h
  exact recordedApiWorld_step 4 rfl (h₄.step _ hconsume)

theorem recordedApiWorld_claims :
    (recordedApiWorld 6).tokens.map (·.claims) = [recordedClaims] := by
  obtain ⟨hissued, -, -, hredeemed, hpassed, hverified, htokens⟩ := recordedApiWorld_signed
  obtain ⟨-, hserver, hother, hclient⟩ := recordedSignatures_verify
  have hexpires : (1767225661 * 10 ^ 9 : ℤ) < recordedChallenge.expiresAt := by decide
  obtain ⟨w, hw, -, hclaims⟩ := login_issues (K := recordedTxnbuild) (J := recordedJwt)
    (C := recordedApi) (fun tx tx' txHash htx htx' =>
      (recordedTxnbuild_hash htx).1.trans (recordedTxnbuild_hash htx').1.symm)
    recordedApiWorld_issued hissued (by simp [hredeemed])
    recordedTxnbuild_parsed recordedTxnbuild_hashed
    ⟨recordedServerSignature, by simp, hserver⟩
    ⟨recordedClientSignature, by simp, hother, hclient⟩
    recordedSigned_size.1 recordedSigned_size.2 recordedApiWorld_clocks.2.1 (by decide)
    hexpires recordedToken_generated
  have hworld : recordedApiWorld 6 = w := by
    rw [← hw, hpassed, hverified, List.length_nil, List.length_nil,
      ApiStep.postAuth_apply (postAuthTransaction_body recordedSigned_size.1
        recordedSigned_size.2),
      recordedApiWorld_succ 5 rfl, recordedApiWorld_succ 4 rfl, recordedApiWorld_succ 3 rfl]
  rw [hworld, hclaims, htokens]
  rfl

theorem recordedApiWorld_unforged : TokenUnforged recordedJwt recordedApi (recordedApiWorld 6)
    ("Bearer " ++ recordedToken) (1767225662 * 10 ^ 9) := by
  intro tokenStr claims _ hparse
  simp only [recordedJwt] at hparse
  split_ifs at hparse
  cases hparse
  have hmem : recordedClaims ∈ (recordedApiWorld 6).tokens.map (·.claims) := by
    simp [recordedApiWorld_claims]
  obtain ⟨t, ht, hclaims⟩ := List.mem_map.1 hmem
  exact ⟨t, ht, hclaims⟩

/-- The token is issued. -/
theorem recordedApiWorld_given : RecordedReachable (recordedApiWorld 6) :=
  recordedApiWorld_step 5 rfl
    (recordedApiWorld_redeemed.step _ ⟨recordedApiWorld_clocks.2.2.2.1, le_rfl⟩)

theorem recordedApiWorld_reachable : RecordedReachable (recordedApiWorld 7) :=
  recordedApiWorld_step 6 rfl (recordedApiWorld_given.step _
    ⟨recordedApiWorld_clocks.2.2.2.2, recordedApiWorld_unforged⟩)

theorem recordedToken_admits : authMiddleware recordedJwt recordedApi.jwtSecret
    ("Bearer " ++ recordedToken) (1767225662 * 10 ^ 9) = .ok recordedClient := by
  have hparse : recordedJwt.parse recordedToken recordedApi.jwtSecret (1767225662 * 10 ^ 9)
      = .ok recordedClaims := by simp [recordedJwt]
  rw [authMiddleware, bearerToken_bearer recordedToken_word.1 recordedToken_word.2]
  simp only [hparse]
  rfl

theorem admitted_redeemed_recorded :
    ∃ a ∈ (recordedApiWorld 7).admitted, a.address = recordedClient
      ∧ ∃ t ∈ (recordedApiWorld 7).tokens, ∃ c ∈ (recordedApiWorld 7).auth.issued,
        t.redemption.tx = c.tx ∧ c.clientAddr = recordedClient
          ∧ a.time < t.issuedAt + jwtLifetime recordedApi.jwtExpiryHours := by
  have hinj : ∀ tx tx' txHash, recordedTxnbuild.hash recordedApi.passphrase tx = .ok txHash →
      recordedTxnbuild.hash recordedApi.passphrase tx' = .ok txHash → tx = tx' := by
    intro tx tx' txHash htx htx'
    rw [(recordedTxnbuild_hash htx).1, (recordedTxnbuild_hash htx').1]
  have ha : (⟨recordedClient, 1767225662 * 10 ^ 9⟩ : Admission)
      ∈ (recordedApiWorld 7).admitted := by
    rw [recordedApiWorld_succ 6 rfl, ApiStep.authenticate_apply recordedToken_admits]
    simp
  obtain ⟨t, ht, c, hc, htx, haddr, -, -, -, -, hlive⟩ :=
    (admitted_redeemed hinj recordedJwt_checksExpiry recordedApiWorld_reachable).1 _ ha
  exact ⟨_, ha, rfl, t, ht, c, hc, htx, haddr, hlive⟩

theorem recordedJwt_verifies : recordedJwt.Verifies recordedApi.jwtSecret where
  word := by
    intro claims tokenStr hsign
    simp only [recordedJwt] at hsign
    split_ifs at hsign
    cases hsign
    exact recordedToken_word
  parse := by
    intro claims tokenStr exp now hsign hexp hnow
    simp only [recordedJwt] at hsign
    split_ifs at hsign with hclaims
    cases hsign
    obtain ⟨rfl, -⟩ := hclaims
    cases hexp
    simp only [recordedJwt]
    rw [if_pos ⟨trivial, trivial, hnow⟩]

theorem login_admits_recorded :
    ((loginSteps (recordedApiWorld 3) recordedSigned recordedToken (1767225660 * 10 ^ 9)
        (1767225661 * 10 ^ 9) (1767225661 * 10 ^ 9) (1767225661 * 10 ^ 9)
        (1767225662 * 10 ^ 9)).foldl
        (fun w step => step.apply recordedTxnbuild recordedJwt recordedApi w)
        (recordedApiWorld 3)).admitted =
      (recordedApiWorld 3).admitted ++ [⟨recordedClient, 1767225662 * 10 ^ 9⟩] := by
  obtain ⟨hissued, -, -, hunredeemed, -⟩ := recordedApiWorld_signed
  obtain ⟨-, hserver, hother, hclient⟩ := recordedSignatures_verify
  exact login_admits
    (fun tx tx' txHash htx htx' =>
      (recordedTxnbuild_hash htx).1.trans (recordedTxnbuild_hash htx').1.symm)
    recordedApiWorld_issued hissued (by simp [hunredeemed])
    recordedTxnbuild_parsed recordedTxnbuild_hashed
    ⟨recordedServerSignature, by simp, hserver⟩
    ⟨recordedClientSignature, by simp, hother, hclient⟩
    recordedSigned_size.1 recordedSigned_size.2 recordedApiWorld_clocks.2.1 (by decide)
    (by decide) recordedJwt_verifies recordedToken_generated (by decide)

end Recorded

end TrusTrove
