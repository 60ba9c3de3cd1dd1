import TrusTrove.Proofs.Codec

/-!
# A validated request and the transaction made of it

`validateCreateInvoiceRequest` reads the buyer with `keypair.Parse`, which takes secret seeds too,
and the builder reads it with `strkey`, which takes addresses only: a validated request is built,
with the arguments it asks for, unless its buyer is a seed. The fee of the assembled envelope is the
sum of base and resource fee where that sum fits the 32-bit field.
-/

namespace TrusTrove

section Build

variable {decode : VersionByte → String → Except GoError (List UInt8)}

/-- What the steps of a request keep of `buildCreateInvoiceOp` is the invocation it builds. -/
theorem buildCreateInvoiceOp_eq {T : InvoiceTools}
    (haddr : ∀ s, T.makeAddressScVal s = (makeAddressScVal decode s).isOk)
    (hinv : ∀ s, T.invokable s = (parseAddressToScAddress decode s).isOk)
    (contractID : String) (params : CreateInvoiceParams) :
    buildCreateInvoiceOp T contractID params
      = (buildCreateInvocation decode contractID params).map fun _ => ⟨contractID, params⟩ := by
  unfold buildCreateInvoiceOp buildCreateInvocation buildInvokeContractOp
  rw [haddr, haddr, hinv]
  cases makeAddressScVal decode params.issuer with
  | error e => rfl
  | ok issuerVal =>
    cases makeAddressScVal decode params.buyer with
    | error e => rfl
    | ok buyerVal =>
      cases makeU128ScVal (some params.faceValue) with
      | error e => rfl
      | ok faceValueVal => cases parseAddressToScAddress decode contractID <;> rfl

end Build

section Validated

variable {parse : String → Bool} {issuer : String} {body : CreateInvoiceRequest} {now : ℤ}
  {params : CreateInvoiceParams}

theorem validateDueDate_ok {dueDate due : ℤ} (h : validateDueDate dueDate now = .ok due) :
    due = dueDate ∧ unix now < dueDate ∧ dueDate ≤ unix now + maxDueDateHorizonSeconds := by
  unfold validateDueDate at h
  split_ifs at h with hpast hfar
  exact ⟨(Except.ok.inj h).symm, by omega, by omega⟩

theorem validateCreateInvoiceRequest_ok
    (h : validateCreateInvoiceRequest parse (some issuer) body now = .ok params) :
    parse body.buyer = true ∧ ∃ n, setString body.faceValue = some n ∧ 0 < n ∧ n < 2 ^ 128
      ∧ params = ⟨issuer, body.buyer, n, body.dueDate⟩ ∧ 0 < body.dueDate
      ∧ unix now < body.dueDate ∧ body.dueDate ≤ unix now + maxDueDateHorizonSeconds := by
  unfold validateCreateInvoiceRequest at h
  split at h
  · simp at h
  · rename_i caller hcaller
    obtain ⟨rfl, -⟩ : issuer = caller ∧ _ := by
      simpa [Option.filter_eq_some_iff] using hcaller
    split_ifs at h with h1 h2 h3 h4
    split at h
    · simp at h
    · rename_i n hn
      obtain ⟨hset, hpos⟩ := Option.filter_eq_some_iff.1 hn
      split_ifs at h with h5
      cases hd : validateDueDate body.dueDate now with
      | error e => simp [hd, bind, Except.bind] at h
      | ok due =>
        obtain ⟨rfl, hlo, hhi⟩ := validateDueDate_ok hd
        push Not at h1
        refine ⟨by simpa using h3, n, hset, by simpa using hpos, by omega, ?_, h1.2.2, hlo, hhi⟩
        simpa [hd, bind, Except.bind, pure, Except.pure] using h.symm

end Validated

/-- What `keypair.Parse` promises: it accepts account addresses and secret seeds, and these begin
with `S`. -/
structure KeypairLaws (encode : VersionByte → List UInt8 → String) (parse : String → Bool)
    (seed : String → Prop) : Prop where
  parse_iff : ∀ s, parse s = true ↔
    (∃ key : List UInt8, key.length = 32 ∧ encode .accountID key = s) ∨ seed s
  head_seed : ∀ s, seed s → s.toList.head? = some 'S'

/-- The invocation asks for this contract's `create` with the issuer, the buyer, the face value and
the due date of the request, as the readers of `xdrutil` read them. -/
structure Requested (sdk : Sdk) (contractID issuer : String) (body : CreateInvoiceRequest) (now : ℤ)
    (op : InvokeContractArgs) : Prop where
  contract : parseAddress sdk (.address op.contractAddress) = contractID
  function : op.functionName = "create"
  args : ∃ issuerVal buyerVal faceValueVal dueDateVal,
    op.args = [issuerVal, buyerVal, faceValueVal, dueDateVal]
    ∧ parseAddress sdk issuerVal = issuer ∧ parseAddress sdk buyerVal = body.buyer
    ∧ (∃ n, setString body.faceValue = some n ∧ 1 ≤ n ∧ n ≤ 2 ^ 128 - 1
      ∧ parseU128 faceValueVal = toString n)
    ∧ parseU64 dueDateVal = body.dueDate
    ∧ unix now < body.dueDate ∧ body.dueDate ≤ unix now + 5 * 365 * 24 * 60 * 60

section Invocation

variable {sdk : Sdk} {decode : VersionByte → String → Except GoError (List UInt8)}

theorem toNat_ofInt_u64 {due : ℤ} (h0 : 0 ≤ due) (h : due < 2 ^ 63) :
    (UInt64.ofInt due).toNat = due.toNat := by
  have hlt : due.toNat < 2 ^ 64 := by omega
  rw [UInt64.ofInt, Int.emod_eq_of_lt h0 (by omega), UInt64.toNat_ofNat', Nat.mod_eq_of_lt hlt]

theorem parseU64_of_make {due : ℤ} (h0 : 0 ≤ due) (h : due < 2 ^ 63) :
    parseU64 (makeU64ScVal (.ofInt due)) = due := by
  have hn := toNat_ofInt_u64 h0 h
  have hp := (parseU64_eq_iff (.ofInt due)).2 (by omega)
  rw [makeU64ScVal, hp, hn, Int.toNat_of_nonneg h0]

theorem makeAddressScVal_error {addr : String} (h : addr.toList.head? = some 'S') :
    makeAddressScVal decode addr = .error (.new ("invalid address format: " ++ addr)) := by
  simp [makeAddressScVal, parseAddressToScAddress, h, bind, Except.bind]

/-- The builder answers for a buyer that is no address as for a fault of the server. -/
theorem buildCreateInvocation_seed {contractID : String} {params : CreateInvoiceParams}
    {issuerVal : ScVal} (hi : makeAddressScVal decode params.issuer = .ok issuerVal)
    (hb : params.buyer.toList.head? = some 'S') :
    buildCreateInvocation decode contractID params
      = .error (httpError "failed to build buyer address" 500) := by
  unfold buildCreateInvocation
  rw [hi, makeAddressScVal_error hb]

variable {parse : String → Bool} {seed : String → Prop} {body : CreateInvoiceRequest} {now : ℤ}
  {params : CreateInvoiceParams}

theorem makeAddressScVal_encode (laws : StrkeyLaws sdk.strkeyEncode decode) (v : VersionByte)
    {key : List UInt8} (h : key.length = 32) :
    makeAddressScVal decode (sdk.strkeyEncode v key) = .ok (.address (v.address key)) :=
  makeAddressScVal_eq_ok_iff.2 ⟨_, parseAddressToScAddress_encode laws v h, rfl⟩

/-- A validated request whose buyer is an address is built as asked. -/
theorem requested_of_address (laws : StrkeyLaws sdk.strkeyEncode decode)
    {issuerKey contractKey buyerKey : List UInt8} (hissuer : issuerKey.length = 32)
    (hcontract : contractKey.length = 32) (hbuyer : buyerKey.length = 32)
    (hb : sdk.strkeyEncode .accountID buyerKey = body.buyer) (hdue : body.dueDate < 2 ^ 63)
    (h : validateCreateInvoiceRequest parse (some (sdk.strkeyEncode .accountID issuerKey)) body now
      = .ok params) :
    ∃ op, buildCreateInvocation decode (sdk.strkeyEncode .contract contractKey) params = .ok op
      ∧ Requested sdk (sdk.strkeyEncode .contract contractKey)
        (sdk.strkeyEncode .accountID issuerKey) body now op := by
  obtain ⟨-, n, hset, hpos, hlt, rfl, hdue0, hlo, hhi⟩ := validateCreateInvoiceRequest_ok h
  obtain ⟨faceValueVal, hface⟩ := (makeU128ScVal_ok_iff n).2 ⟨by omega, hlt⟩
  have hi := makeAddressScVal_encode laws .accountID hissuer
  have hbv := makeAddressScVal_encode laws .accountID hbuyer
  rw [hb] at hbv
  have hc := parseAddressToScAddress_encode laws .contract hcontract
  refine ⟨⟨VersionByte.address .contract contractKey, "create",
    [.address (VersionByte.address .accountID issuerKey),
      .address (VersionByte.address .accountID buyerKey), faceValueVal,
      makeU64ScVal (.ofInt body.dueDate)]⟩, ?_, ⟨by rw [parseAddress_address], rfl, ?_⟩⟩
  · simp only [buildCreateInvocation, buildInvokeContractOp, hi, hbv, hface, hc]
    rfl
  · exact ⟨_, _, _, _, rfl, parseAddress_address _ _, by rw [parseAddress_address, hb],
      ⟨n, hset, by omega, by omega, parseU128_of_make hface⟩,
      parseU64_of_make hdue0.le hdue, hlo, hhi⟩

/-- A validated request is built as asked, for every issuer with an account address and every
contract, exactly when its buyer is not a secret seed. -/
theorem validated_request_built_iff (laws : StrkeyLaws sdk.strkeyEncode decode)
    (keys : KeypairLaws sdk.strkeyEncode parse seed) {issuerKey contractKey : List UInt8}
    (hissuer : issuerKey.length = 32) (hcontract : contractKey.length = 32)
    (hdue : body.dueDate < 2 ^ 63)
    (h : validateCreateInvoiceRequest parse (some (sdk.strkeyEncode .accountID issuerKey)) body now
      = .ok params) :
    (∃ op, buildCreateInvocation decode (sdk.strkeyEncode .contract contractKey) params = .ok op
      ∧ Requested sdk (sdk.strkeyEncode .contract contractKey)
        (sdk.strkeyEncode .accountID issuerKey) body now op) ↔ ¬ seed body.buyer := by
  constructor
  · rintro ⟨op, hop, -⟩ hseed
    obtain ⟨-, n, -, -, -, rfl, -⟩ := validateCreateInvoiceRequest_ok h
    have hi := makeAddressScVal_encode laws .accountID hissuer
    rw [buildCreateInvocation_seed hi (keys.head_seed _ hseed)] at hop
    simp at hop
  · intro hseed
    obtain ⟨hparse, -⟩ := validateCreateInvoiceRequest_ok h
    obtain ⟨buyerKey, hbuyer, hb⟩ := ((keys.parse_iff body.buyer).1 hparse).resolve_right hseed
    exact requested_of_address laws hissuer hcontract hbuyer hb hdue h

end Invocation

section Keypair

/-- `keypair.Parse`. -/
def keypairParse (s : String) : Bool :=
  s.utf8ByteSize == 56
    && ((strkeyDecode .accountID s).isOk || (payloadOf 144 s).isOk)

/-- A secret seed is the strkey of 32 bytes under the version byte 144. -/
def SecretSeed (s : String) : Prop :=
  ∃ seed : List UInt8, seed.length = 32 ∧ strkeyOf 144 seed = s

theorem payloadOf_isOk_iff {version : UInt8} {s : String} :
    s.utf8ByteSize = 56 ∧ (payloadOf version s).isOk = true
      ↔ ∃ payload : List UInt8, payload.length = 32 ∧ strkeyOf version payload = s := by
  constructor
  · rintro ⟨hs, hok⟩
    cases hp : payloadOf version s with
    | error e => simp [hp, Except.isOk, Except.toBool] at hok
    | ok payload => exact ⟨payload, strkeyOf_payload hs hp⟩
  · rintro ⟨payload, hlen, rfl⟩
    rw [payloadOf_strkeyOf hlen]
    exact ⟨utf8ByteSize_strkeyOf hlen, rfl⟩

theorem keypair_laws : KeypairLaws strkeyEncode keypairParse SecretSeed where
  parse_iff s := by
    have hparse : keypairParse s = true ↔
        s.utf8ByteSize = 56 ∧ (payloadOf VersionByte.accountID.byte s).isOk = true
          ∨ s.utf8ByteSize = 56 ∧ (payloadOf 144 s).isOk = true := by
      simp only [keypairParse, strkeyDecode, Bool.and_eq_true, beq_iff_eq, Bool.or_eq_true,
        and_or_left]
    rw [hparse, payloadOf_isOk_iff, payloadOf_isOk_iff]
    rfl
  head_seed s := by
    rintro ⟨seed, hlen, rfl⟩
    rw [head?_strkeyOf hlen]
    rfl

/-- A request for this buyer at second 1800000000, due a day later. -/
def requestFor (buyer : String) : CreateInvoiceRequest := ⟨buyer, "1000", 1800086400, ""⟩

theorem seed_buyer_refused :
    let issuer := "GAAAAAAAAAAAAAAAAAAAAAAAAAAAAAAAAAAAAAAAAAAAAAAAAAAAAWHF"
    let contractID := "CAAAAAAAAAAAAAAAAAAAAAAAAAAAAAAAAAAAAAAAAAAAAAAAAAAABSC4"
    let buyer := "SAAAAAAAAAAAAAAAAAAAAAAAAAAAAAAAAAAAAAAAAAAAAAAAAAAABSU2"
    ∃ params, validateCreateInvoiceRequest keypairParse (some issuer) (requestFor buyer)
        (1800000000 * 10 ^ 9) = .ok params
      ∧ buildCreateInvocation strkeyDecode contractID params
        = .error (httpError "failed to build buyer address" 500) := by
  have hissuer : strkeySdk.strkeyEncode .accountID (List.replicate 32 0)
      = "GAAAAAAAAAAAAAAAAAAAAAAAAAAAAAAAAAAAAAAAAAAAAAAAAAAAAWHF" := by decide +kernel
  have laws : StrkeyLaws strkeySdk.strkeyEncode strkeyDecode := strkey_laws
  have hi : makeAddressScVal strkeyDecode (strkeySdk.strkeyEncode .accountID (List.replicate 32 0))
      = .ok _ := makeAddressScVal_encode laws .accountID (by simp)
  rw [hissuer] at hi
  refine ⟨⟨"GAAAAAAAAAAAAAAAAAAAAAAAAAAAAAAAAAAAAAAAAAAAAAAAAAAAAWHF",
    "SAAAAAAAAAAAAAAAAAAAAAAAAAAAAAAAAAAAAAAAAAAAAAAAAAAABSU2", 1000, 1800086400⟩, ?_, ?_⟩
  · decide +kernel
  · exact buildCreateInvocation_seed hi (by decide)

theorem validated_request_built_iff_account :
    let account := strkeySdk.strkeyEncode .accountID (List.replicate 32 0)
    let contractID := strkeySdk.strkeyEncode .contract (List.replicate 32 0)
    ∃ op, buildCreateInvocation strkeyDecode contractID ⟨account, account, 1000, 1800086400⟩
        = .ok op
      ∧ Requested strkeySdk contractID account (requestFor account) (1800000000 * 10 ^ 9) op := by
  have laws : StrkeyLaws strkeySdk.strkeyEncode strkeyDecode := strkey_laws
  have hseed : ¬ SecretSeed (strkeySdk.strkeyEncode .accountID (List.replicate 32 0)) := by
    intro h
    have hs := keypair_laws.head_seed _ h
    rw [laws.head_encode .accountID _ (by simp)] at hs
    simp [VersionByte.letter] at hs
  exact (validated_request_built_iff laws keypair_laws (by simp) (by simp) (by decide)
    (by decide +kernel)).2 hseed

end Keypair

section Fee

variable (T : InvoiceTools)

/-- The envelope with the simulated data and this resource fee. -/
def assembled (tx : InvoiceTx) (simResp : SimulateResponse) (resFee : ℤ) : InvoiceTx :=
  { tx with
    fee := (tx.fee + resFee) % 2 ^ 32
    sorobanData := some simResp.transactionData }

theorem signCreateInvoiceTx_eq_ok_iff {tx env : InvoiceTx} {simResp : SimulateResponse}
    {signedTx : String} :
    signCreateInvoiceTx T tx simResp = .ok (env, signedTx) ↔
      T.unmarshalData simResp.transactionData = true
        ∧ ∃ resFee, parseInt64 simResp.minResourceFee = some resFee
        ∧ env = assembled tx simResp resFee ∧ T.sign env = .ok signedTx := by
  unfold signCreateInvoiceTx
  cases T.unmarshalData simResp.transactionData with
  | false => simp
  | true =>
    cases parseInt64 simResp.minResourceFee with
    | none => simp
    | some resFee =>
      constructor
      · intro h
        simp only [Bool.not_true, Bool.false_eq_true, if_false] at h
        split at h
        · simp at h
        · rename_i signed hsign
          obtain ⟨rfl, rfl⟩ : _ ∧ _ := by simpa using h
          exact ⟨rfl, resFee, rfl, rfl, hsign⟩
      · rintro ⟨-, r, hr, rfl, hsign⟩
        obtain rfl := Option.some.inj hr
        rw [assembled] at hsign
        simp only [Bool.not_true, Bool.false_eq_true, if_false, hsign]
        rfl

/-- Every envelope signed for this transaction carries the sum of its base fee and the simulated
resource fee, exactly when that sum fits 32 bits, unless the data or the signature is refused. -/
theorem assembled_fee_iff (tx : InvoiceTx) (simResp : SimulateResponse) :
    (∀ env signedTx, signCreateInvoiceTx T tx simResp = .ok (env, signedTx) →
      ∃ resFee, parseInt64 simResp.minResourceFee = some resFee ∧ env.fee = tx.fee + resFee)
    ↔ ∀ resFee, parseInt64 simResp.minResourceFee = some resFee →
      T.unmarshalData simResp.transactionData = true →
      (∃ signedTx, T.sign (assembled tx simResp resFee) = .ok signedTx) →
      0 ≤ tx.fee + resFee ∧ tx.fee + resFee < 2 ^ 32 := by
  constructor
  · rintro h resFee hr hdata ⟨signedTx, hsign⟩
    obtain ⟨r, hr', hfee⟩ := h _ _
      ((signCreateInvoiceTx_eq_ok_iff T).2 ⟨hdata, resFee, hr, rfl, hsign⟩)
    obtain rfl := Option.some.inj (hr.symm.trans hr')
    rw [← hfee]
    exact ⟨Int.emod_nonneg _ (by norm_num), Int.emod_lt_of_pos _ (by norm_num)⟩
  · intro h env signedTx hok
    obtain ⟨hdata, resFee, hr, rfl, hsign⟩ := (signCreateInvoiceTx_eq_ok_iff T).1 hok
    obtain ⟨h0, hlt⟩ := h resFee hr hdata ⟨signedTx, hsign⟩
    exact ⟨resFee, hr, Int.emod_eq_of_lt h0 hlt⟩

/-- Libraries that accept everything. -/
def acceptingTools : InvoiceTools where
  parse := fun _ => true
  makeAddressScVal := fun _ => true
  invokable := fun _ => true
  newTransaction := fun _ => true
  base64 := fun _ => some "tx"
  parseInvoiceID := fun _ => .ok "01"
  unmarshalData := fun _ => true
  sign := fun _ => .ok "signed"

/-- A transaction at the minimum base fee. -/
def builtTx : InvoiceTx :=
  ⟨42, minBaseFee, 1800003600, ⟨"CC", ⟨"GA", "GB", 1000, 1800086400⟩⟩, none⟩

theorem resource_fee_lost :
    parseInt64 "4294967296" = some (2 ^ 32)
    ∧ ∃ env, signCreateInvoiceTx acceptingTools builtTx ⟨"data", "4294967296", ["xdr"]⟩
        = .ok (env, "signed")
      ∧ env.fee = 100 ∧ env.fee ≠ builtTx.fee + 2 ^ 32 := by
  refine ⟨by decide +kernel, { builtTx with fee := 100, sorobanData := some "data" }, ?_, rfl, ?_⟩
  · decide +kernel
  · decide

end Fee

end TrusTrove
