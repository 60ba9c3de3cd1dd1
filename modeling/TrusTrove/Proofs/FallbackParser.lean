import TrusTrove.Proofs.KeySpelling

/-!
# What the fallback keeps

A payload the schema accepts is parsed again with a status outside its list, so by hand. The two
tables of conversions agree on numbers, numerals and missing values; they differ on an empty time,
on a value of another type, on bytes for the id and where a field is given in both spellings, and
the fields of the attestation are not in the table of the fallback (`KeptByHand`).
-/

namespace TrusTrove

/-- The payload with another status. -/
def withStatus (raw : RawInvoice) (status : String) : RawInvoice :=
  raw.map fun kv => (kv.1, if kv.1 = "status" then .string status else kv.2)

/-- Two calls that give invoices with the same fields but the status. -/
def AgreeButStatus (a b : Except Thrown Invoice) : Prop :=
  ∃ x y, a = .ok x ∧ b = .ok y ∧ { x with status := y.status } = y

section Conditions

/-- What the schema reads for a field. -/
def schemaValue (raw : RawInvoice) (spelling : String × String) : Js :=
  Js.get (normalizeKeys raw) spelling.2

/-- What the fallback reads for it. -/
def manualValue (raw : RawInvoice) (spelling : String × String) : Js :=
  (Js.get raw spelling.1).nullish (Js.get raw spelling.2)

/-- The same value, or none in both. -/
def SameValue (v w : Js) : Prop := v.nullish .undefined = w.nullish .undefined

/-- A value that both tables read as a number, or as zero. -/
def NumberLike : Js → Prop
  | .undefined | .null | .number _ | .bigint _ | .string _ => True
  | v => v.toNumber = .finite 0

/-- A value that both tables read as a time, or as none. -/
def TimeLike : Js → Prop
  | .undefined | .null | .number _ | .bigint _ => True
  | .boolean b => b = false
  | .string s => s ≠ ""
  | _ => False

def AmountKept (v w : Js) : Prop := ¬ SameValue v w → w.toBigInt = v.toBigInt

def NumberKept (v w : Js) : Prop :=
  (SameValue v w → NumberLike v) ∧
    (¬ SameValue v w → numberSchema v = some (w.nullish (.number (.finite 0))).toNumber)

def TimeKept (v w : Js) : Prop :=
  (SameValue v w → TimeLike v) ∧
    (¬ SameValue v w → nullableNumberSchema v = some (toNullableNumber w))

def FlagKept (v w : Js) : Prop := ¬ SameValue v w → w.truthy = v.truthy

/-- A payload of which the fallback keeps what the schema reads. -/
structure KeptByHand (raw : RawInvoice) : Prop where
  id : ∀ bytes, Js.get raw "id" ≠ .uint8Array bytes
  attestation : ∀ key ∈ ["attestationAgentId", "riskScoreBps", "evidenceHash", "attestedAt"],
    Js.get (normalizeKeys raw) key = .undefined
  amounts : ∀ p ∈ [("face_value", "faceValue"), ("funded_amount", "fundedAmount")],
    AmountKept (schemaValue raw p) (manualValue raw p)
  numbers : ∀ p ∈ [("discount_bps", "discountBps"), ("due_date", "dueDate"),
      ("created_at", "createdAt")],
    NumberKept (schemaValue raw p) (manualValue raw p)
  times : ∀ p ∈ [("funded_at", "fundedAt"), ("shipped_at", "shippedAt"), ("repaid_at", "repaidAt")],
    TimeKept (schemaValue raw p) (manualValue raw p)
  flags : ∀ p ∈ [("issuer_confirmed", "issuerConfirmed"), ("buyer_confirmed", "buyerConfirmed")],
    FlagKept (schemaValue raw p) (manualValue raw p)

end Conditions

section Values

variable {v w : Js}

theorem SameValue.nullish (h : SameValue v w) (z : Js) : w.nullish z = v.nullish z := by
  have := congrArg (Js.nullish · z) h
  simpa [nullish_undefined_nullish] using this.symm

theorem SameValue.toBigInt (h : SameValue v w) : w.toBigInt = v.toBigInt := by
  rw [← toBigInt_nullish_zero, h.nullish, toBigInt_nullish_zero]

theorem SameValue.truthy (h : SameValue v w) : w.truthy = v.truthy := by
  rw [← truthy_nullish, h.nullish, truthy_nullish]

theorem SameValue.toNullableNumber (h : SameValue v w) :
    toNullableNumber w = toNullableNumber v := by
  rw [← toNullableNumber_nullish, h.nullish, toNullableNumber_nullish]

theorem amountKept_iff {n : ℤ} (hv : v.toBigInt = .ok n) :
    AmountKept v w ↔ w.toBigInt = .ok n := by
  by_cases h : SameValue v w
  · simp [AmountKept, h, h.toBigInt, hv]
  · simp [AmountKept, h, hv]

theorem flagKept_iff {b : Bool} (hv : v.truthy = b) : FlagKept v w ↔ w.truthy = b := by
  by_cases h : SameValue v w
  · simp [FlagKept, h, h.truthy, hv]
  · simp [FlagKept, h, hv]

theorem zNumber_eq {x y : Double} (h : zNumber x = some y) : x = y := by
  simp only [zNumber, Option.ite_none_left_eq_some] at h
  exact Option.some.inj h.2

theorem numberKept_iff {x : Double} (hv : numberSchema v = some x) :
    NumberKept v w ↔ (w.nullish (.number (.finite 0))).toNumber = x := by
  by_cases h : SameValue v w
  · simp only [NumberKept, h, true_implies, not_true, false_implies, and_true, h.nullish]
    cases v with
    | undefined | null =>
      obtain rfl := Option.some.inj hv
      simp [NumberLike, Js.nullish, Js.toNumber]
    | number y =>
      obtain rfl := zNumber_eq hv
      simp [NumberLike, Js.nullish, Js.toNumber]
    | bigint n =>
      obtain rfl := zNumber_eq hv
      simp [NumberLike, Js.nullish, Js.toNumber]
    | string s =>
      obtain rfl := zNumber_eq hv
      simp [NumberLike, Js.toNumber]
    | boolean | uint8Array | array | object =>
      obtain rfl := Option.some.inj hv
      simp [NumberLike, Js.nullish]
  · simp [NumberKept, h, hv, eq_comm]

theorem timeKept_iff {t : Option Double} (hv : nullableNumberSchema v = some t) :
    TimeKept v w ↔ toNullableNumber w = t := by
  by_cases h : SameValue v w
  · simp only [TimeKept, h, true_implies, not_true, false_implies, and_true, h.toNullableNumber]
    cases v with
    | undefined | null =>
      obtain rfl := Option.some.inj hv
      simp [TimeLike, toNullableNumber, Js.truthy]
    | boolean b =>
      obtain rfl := Option.some.inj hv
      cases b <;> simp [TimeLike, toNullableNumber, Js.truthy]
    | number x =>
      simp only [nullableNumberSchema, zNumber] at hv
      split_ifs at hv with hzero hnan
      · obtain rfl := Option.some.inj hv
        simp [TimeLike, toNullableNumber, Js.truthy, hzero]
      · cases hv
      · obtain rfl := Option.some.inj hv
        simp [TimeLike, toNullableNumber, Js.truthy, Js.toNumber, hzero, hnan]
    | bigint n =>
      simp only [nullableNumberSchema, zNumber, ofRat_ne_nan, if_false] at hv
      split_ifs at hv with hzero
      · obtain rfl := Option.some.inj hv
        simp [TimeLike, toNullableNumber, Js.truthy, hzero]
      · obtain rfl := Option.some.inj hv
        simp [TimeLike, toNullableNumber, Js.truthy, Js.toNumber, hzero]
    | string s =>
      obtain ⟨x, hx, rfl⟩ := Option.map_eq_some_iff.1 hv
      obtain rfl := zNumber_eq hx
      simp [TimeLike, toNullableNumber, Js.truthy, Js.toNumber]
    | uint8Array | array | object =>
      obtain rfl := Option.some.inj hv
      simp [TimeLike, toNullableNumber, Js.truthy]
  · simp [TimeKept, h, hv, eq_comm]

theorem invoiceIDPattern_iff {s : String} : invoiceIDPattern s = true ↔
    s.toList.length = 64 ∧ ∀ c ∈ s.toList, (JsonText.hexDigit? c).isSome = true := by
  simp only [invoiceIDPattern, Bool.and_eq_true, beq_iff_eq, List.all_eq_true, String.length_toList]

theorem length_hexText (bytes : List UInt8) : (hexText bytes).toList.length = 2 * bytes.length := by
  simp [hexText, List.length_flatMap, mul_comm]

/-- The text of the bytes of an id has commas. -/
theorem not_invoiceIDPattern_toString {bytes : List UInt8}
    (h : invoiceIDPattern (hexText bytes) = true) :
    invoiceIDPattern (Js.uint8Array bytes).toString = false := by
  rw [invoiceIDPattern_iff, length_hexText] at h
  obtain ⟨a, b, rest, rfl⟩ : ∃ a b rest, bytes = a :: b :: rest := by
    rcases bytes with _ | ⟨a, _ | ⟨b, rest⟩⟩
    · simp at h
    · simp at h
    · exact ⟨a, b, rest, rfl⟩
  by_contra hpattern
  have hcomma : ',' ∈ (Js.uint8Array (a :: b :: rest)).toString.toList := by
    simp [Js.toString, String.toList_intercalate]
  rw [Bool.not_eq_false, invoiceIDPattern_iff] at hpattern
  exact absurd (hpattern.2 _ hcomma) (by decide)

theorem toStringValue_of_pattern (h : invoiceIDPattern (v.or (.string "")).toString = true) :
    toStringValue v = (v.or (.string "")).toString := by
  by_cases htruthy : v.truthy = true
  · rw [Js.or, if_pos htruthy]
    cases v with
    | undefined | null => cases htruthy
    | _ => rfl
  · rw [Js.or, if_neg htruthy] at h
    exact absurd h (by decide)

/-- An id the schema accepts is what the fallback reads, if it is not given as bytes. -/
theorem toStringValue_eq_iff {id : String} (hv : idSchema v = some id) :
    toStringValue v = id ↔ ∀ bytes, v ≠ .uint8Array bytes := by
  cases v with
  | uint8Array bytes =>
    simp only [idSchema, Option.ite_none_right_eq_some] at hv
    obtain ⟨hpattern, hid⟩ := hv
    obtain rfl := Option.some.inj hid
    have hcommas := not_invoiceIDPattern_toString hpattern
    refine iff_of_false (fun h => ?_) fun h => h bytes rfl
    rw [← h] at hpattern
    exact absurd hpattern (by simpa [toStringValue, Js.nullish] using hcommas)
  | string s => simpa [toStringValue] using idSchema_eq hv
  | undefined | null | boolean | number | bigint | array | object =>
    simp only [idSchema, Option.ite_none_right_eq_some] at hv
    obtain ⟨hpattern, hid⟩ := hv
    refine iff_of_true ?_ fun bytes h => by cases h
    rw [toStringValue_of_pattern hpattern]
    exact Option.some.inj hid

theorem toStringValue_of_address {address : String} (hv : addressSchema v = some address) :
    toStringValue v = address := by
  cases v with
  | string s => exact addressSchema_eq hv
  | _ => cases hv

/-- The asset the fallback reads. -/
theorem asset_of_accepted {asset : AssetType} (hv : assetSchema v = some asset) :
    (match v.or (.string "USDC") with
      | .string "XLM" => AssetType.xlm
      | _ => .usdc) = asset := by
  unfold assetSchema at hv
  split at hv
  · obtain rfl := Option.some.inj hv
    rfl
  · obtain rfl := Option.some.inj hv
    rfl
  · obtain rfl := Option.some.inj hv
    rfl
  · cases hv

end Values

section Accepted

/-- An invoice the schema reads of a payload, field by field. -/
structure Accepted (obj : RawInvoice) (inv : Invoice) : Prop where
  id : idSchema (Js.get obj "id") = some inv.id
  issuer : addressSchema (Js.get obj "issuer") = some inv.issuer
  buyer : addressSchema (Js.get obj "buyer") = some inv.buyer
  faceValue : (Js.get obj "faceValue").toBigInt = .ok inv.faceValue
  asset : assetSchema (Js.get obj "asset") = some inv.asset
  discountBps : numberSchema (Js.get obj "discountBps") = some inv.discountBps
  fundedAmount : (Js.get obj "fundedAmount").toBigInt = .ok inv.fundedAmount
  dueDate : numberSchema (Js.get obj "dueDate") = some inv.dueDate
  status : statusSchema (Js.get obj "status") = some inv.status
  createdAt : numberSchema (Js.get obj "createdAt") = some inv.createdAt
  fundedAt : nullableNumberSchema (Js.get obj "fundedAt") = some inv.fundedAt
  shippedAt : nullableNumberSchema (Js.get obj "shippedAt") = some inv.shippedAt
  issuerConfirmed : (Js.get obj "issuerConfirmed").truthy = inv.issuerConfirmed
  buyerConfirmed : (Js.get obj "buyerConfirmed").truthy = inv.buyerConfirmed
  repaidAt : nullableNumberSchema (Js.get obj "repaidAt") = some inv.repaidAt
  attestationAgentId :
    optionalStringSchema (Js.get obj "attestationAgentId") = some inv.attestationAgentId
  riskScoreBps : optionalNumberSchema (Js.get obj "riskScoreBps") = some inv.riskScoreBps
  evidenceHash : optionalStringSchema (Js.get obj "evidenceHash") = some inv.evidenceHash
  attestedAt : optionalTimeSchema (Js.get obj "attestedAt") = some inv.attestedAt

theorem accepted_of_safeParse {obj : RawInvoice} {inv : Invoice}
    (h : safeParse obj = .ok (some inv)) : Accepted obj inv := by
  simp only [safeParse, bigintSchema] at h
  rcases hface : (Js.get obj "faceValue").toBigInt with e | faceValue
  · rw [hface] at h
    cases h
  rcases hfunded : (Js.get obj "fundedAmount").toBigInt with e | fundedAmount
  · rw [hface, hfunded] at h
    cases h
  rw [hface, hfunded] at h
  have h := Except.ok.inj h
  obtain ⟨id, hid, h⟩ := Option.bind_eq_some_iff.1 h
  obtain ⟨issuer, hissuer, h⟩ := Option.bind_eq_some_iff.1 h
  obtain ⟨buyer, hbuyer, h⟩ := Option.bind_eq_some_iff.1 h
  obtain ⟨asset, hasset, h⟩ := Option.bind_eq_some_iff.1 h
  obtain ⟨discountBps, hdiscount, h⟩ := Option.bind_eq_some_iff.1 h
  obtain ⟨dueDate, hdue, h⟩ := Option.bind_eq_some_iff.1 h
  obtain ⟨status, hstatus, h⟩ := Option.bind_eq_some_iff.1 h
  obtain ⟨createdAt, hcreated, h⟩ := Option.bind_eq_some_iff.1 h
  obtain ⟨fundedAt, hfundedAt, h⟩ := Option.bind_eq_some_iff.1 h
  obtain ⟨shippedAt, hshipped, h⟩ := Option.bind_eq_some_iff.1 h
  obtain ⟨_, -, h⟩ := Option.bind_eq_some_iff.1 h
  obtain ⟨repaidAt, hrepaid, h⟩ := Option.bind_eq_some_iff.1 h
  obtain ⟨_, -, h⟩ := Option.bind_eq_some_iff.1 h
  obtain ⟨agent, hagent, h⟩ := Option.bind_eq_some_iff.1 h
  obtain ⟨risk, hrisk, h⟩ := Option.bind_eq_some_iff.1 h
  obtain ⟨evidence, hevidence, h⟩ := Option.bind_eq_some_iff.1 h
  obtain ⟨attested, hattested, h⟩ := Option.bind_eq_some_iff.1 h
  obtain rfl := Option.some.inj h
  exact ⟨hid, hissuer, hbuyer, hface, hasset, hdiscount, hfunded, hdue, hstatus, hcreated,
    hfundedAt, hshipped, rfl, rfl, hrepaid, hagent, hrisk, hevidence, hattested⟩

end Accepted

section Status

variable {raw : RawInvoice} {status : String}

theorem camelLetters_eq_lower {k f : List Char} (hf : ∀ c ∈ f, c.isLower = true)
    (h : camelLetters k = f) : k = f := by
  induction k using camelLetters.induct generalizing f with
  | case1 c rest hc =>
    rw [camelLetters, if_pos hc] at h
    subst h
    have := hf c.toUpper List.mem_cons_self
    simp at this
  | case2 c rest hc =>
    rw [camelLetters, if_neg hc] at h
    subst h
    exact absurd (hf '_' List.mem_cons_self) (by decide)
  | case3 c rest hno ih =>
    rw [camelLetters] at h
    · subst h
      rw [← ih (fun x hx => hf x (by simp [hx])) rfl]
    · exact hno
  | case4 => exact h

/-- A field of one word has one spelling. -/
theorem get_word {key : String} (hkey : ∀ c ∈ key.toList, c.isLower = true) :
    Js.get (normalizeKeys raw) key = Js.get raw key := by
  have hname : IsName key := fun c hc => by simp [Char.isAlpha, hkey c hc]
  conv_rhs => rw [← List.map_id raw]
  refine get_map (fun kv => (camelKey kv.1, kv.2)) id (fun kv _ => ?_) fun _ _ _ => rfl
  rw [camelKey_eq_iff, id, ← String.toList_inj]
  constructor
  · exact camelLetters_eq_lower hkey
  · intro h
    rw [h, camelLetters_of_name hname]

theorem get_withStatus {key : String} (h : key ≠ "status") :
    Js.get (withStatus raw status) key = Js.get raw key := by
  conv_rhs => rw [← List.map_id raw]
  refine get_map _ id (fun _ _ => Iff.rfl) fun kv _ hkv => ?_
  exact if_neg fun hstatus => h (hkv.symm.trans hstatus)

theorem get_normalizeKeys_withStatus {key : String} (h : key ≠ "status") :
    Js.get (normalizeKeys (withStatus raw status)) key = Js.get (normalizeKeys raw) key := by
  rw [normalizeKeys, withStatus, List.map_map]
  refine get_map _ (fun kv => (camelKey kv.1, kv.2)) (fun _ _ => Iff.rfl) fun kv _ hkv => ?_
  refine if_neg fun hstatus => h ?_
  change camelKey kv.1 = key at hkv
  rw [← hkv, hstatus]
  decide

theorem get_withStatus_status (h : Js.get (normalizeKeys raw) "status" ≠ .undefined) :
    Js.get (normalizeKeys (withStatus raw status)) "status" = .string status := by
  rw [get_word (by simp)] at h ⊢
  rw [Js.get_eq_find?] at h ⊢
  rcases hfind : raw.reverse.find? (·.1 = "status") with _ | kv
  · exact absurd (by rw [hfind]; rfl) h
  · have hmap : (withStatus raw status).reverse.find? (·.1 = "status")
        = some (kv.1, .string status) := by
      rw [withStatus, ← List.map_reverse, List.find?_map]
      have hstatus : kv.1 = "status" := by simpa using List.find?_some hfind
      change (raw.reverse.find? (·.1 = "status")).map _ = _
      simp [hfind, hstatus]
    rw [hmap]
    rfl

/-- With a status outside the list the schema refuses what it accepted. -/
theorem safeParse_withStatus {inv : Invoice} (h : Accepted (normalizeKeys raw) inv)
    (hstatus : InvoiceStatus.ofString? status = none) :
    safeParse (normalizeKeys (withStatus raw status)) = .ok none := by
  have hpresent : Js.get (normalizeKeys raw) "status" ≠ .undefined := by
    intro hundefined
    have := h.status
    rw [hundefined] at this
    cases this
  have hschema : statusSchema (.string status) = none := by simp [statusSchema, hstatus]
  simp (disch := decide) only [safeParse, bigintSchema, get_normalizeKeys_withStatus,
    get_withStatus_status hpresent, h.id, h.issuer, h.buyer, h.faceValue, h.asset, h.discountBps,
    h.fundedAmount, h.dueDate, hschema]
  rfl

theorem extraFields_withStatus : extraFields (withStatus raw status) = extraFields raw := by
  funext invoice
  simp (disch := decide) only [extraFields, get_withStatus]

/-- What the schema reads of an accepted payload, as the fallback would read it. -/
structure ReadByHand (raw : RawInvoice) (inv : Invoice) : Prop where
  id : toStringValue (Js.get raw "id") = inv.id
  attestation : inv.attestationAgentId = .undefined ∧ inv.riskScoreBps = .undefined ∧
    inv.evidenceHash = .undefined ∧ inv.attestedAt = .undefined
  faceValue : (manualValue raw ("face_value", "faceValue")).toBigInt = .ok inv.faceValue
  fundedAmount : (manualValue raw ("funded_amount", "fundedAmount")).toBigInt = .ok inv.fundedAmount
  discountBps : ((manualValue raw ("discount_bps", "discountBps")).nullish
    (.number (.finite 0))).toNumber = inv.discountBps
  dueDate : ((manualValue raw ("due_date", "dueDate")).nullish (.number (.finite 0))).toNumber
    = inv.dueDate
  createdAt : ((manualValue raw ("created_at", "createdAt")).nullish (.number (.finite 0))).toNumber
    = inv.createdAt
  fundedAt : toNullableNumber (manualValue raw ("funded_at", "fundedAt")) = inv.fundedAt
  shippedAt : toNullableNumber (manualValue raw ("shipped_at", "shippedAt")) = inv.shippedAt
  repaidAt : toNullableNumber (manualValue raw ("repaid_at", "repaidAt")) = inv.repaidAt
  issuerConfirmed : (manualValue raw ("issuer_confirmed", "issuerConfirmed")).truthy
    = inv.issuerConfirmed
  buyerConfirmed : (manualValue raw ("buyer_confirmed", "buyerConfirmed")).truthy
    = inv.buyerConfirmed

theorem optionalStringSchema_undefined {v x : Js} (h : optionalStringSchema v = some x) :
    v = .undefined ↔ x = .undefined := by
  cases v <;> cases h <;> simp

theorem optionalNumberSchema_undefined {v x : Js} (h : optionalNumberSchema v = some x) :
    v = .undefined ↔ x = .undefined := by
  cases v with
  | number y =>
    obtain ⟨z, -, rfl⟩ := Option.map_eq_some_iff.1 h
    simp
  | _ => cases h <;> simp

theorem optionalTimeSchema_undefined {v x : Js} (h : optionalTimeSchema v = some x) :
    v = .undefined ↔ x = .undefined := by
  by_cases hv : v = .undefined
  · subst hv
    obtain rfl := Option.some.inj h
    simp
  · rw [optionalTimeSchema] at h
    · obtain ⟨t, -, rfl⟩ := Option.map_eq_some_iff.1 h
      cases t <;> simp [hv]
    · exact hv

theorem keptByHand_iff {inv : Invoice} (h : Accepted (normalizeKeys raw) inv) :
    KeptByHand raw ↔ ReadByHand raw inv := by
  have hid := h.id
  rw [get_word (by simp)] at hid
  constructor
  · rintro ⟨hbytes, hattest, hamounts, hnumbers, htimes, hflags⟩
    simp only [List.forall_mem_cons] at hattest hamounts hnumbers htimes hflags
    exact
      { id := (toStringValue_eq_iff hid).2 hbytes
        attestation :=
          ⟨(optionalStringSchema_undefined h.attestationAgentId).1 hattest.1,
            (optionalNumberSchema_undefined h.riskScoreBps).1 hattest.2.1,
            (optionalStringSchema_undefined h.evidenceHash).1 hattest.2.2.1,
            (optionalTimeSchema_undefined h.attestedAt).1 hattest.2.2.2.1⟩
        faceValue := (amountKept_iff h.faceValue).1 hamounts.1
        fundedAmount := (amountKept_iff h.fundedAmount).1 hamounts.2.1
        discountBps := (numberKept_iff h.discountBps).1 hnumbers.1
        dueDate := (numberKept_iff h.dueDate).1 hnumbers.2.1
        createdAt := (numberKept_iff h.createdAt).1 hnumbers.2.2.1
        fundedAt := (timeKept_iff h.fundedAt).1 htimes.1
        shippedAt := (timeKept_iff h.shippedAt).1 htimes.2.1
        repaidAt := (timeKept_iff h.repaidAt).1 htimes.2.2.1
        issuerConfirmed := (flagKept_iff h.issuerConfirmed).1 hflags.1
        buyerConfirmed := (flagKept_iff h.buyerConfirmed).1 hflags.2.1 }
  · intro hr
    have hattest := hr.attestation
    refine ⟨(toStringValue_eq_iff hid).1 hr.id, ?_, ?_, ?_, ?_, ?_⟩
    · simpa using ⟨(optionalStringSchema_undefined h.attestationAgentId).2 hattest.1,
        (optionalNumberSchema_undefined h.riskScoreBps).2 hattest.2.1,
        (optionalStringSchema_undefined h.evidenceHash).2 hattest.2.2.1,
        (optionalTimeSchema_undefined h.attestedAt).2 hattest.2.2.2⟩
    · simpa using ⟨(amountKept_iff h.faceValue).2 hr.faceValue,
        (amountKept_iff h.fundedAmount).2 hr.fundedAmount⟩
    · simpa using ⟨(numberKept_iff h.discountBps).2 hr.discountBps,
        (numberKept_iff h.dueDate).2 hr.dueDate, (numberKept_iff h.createdAt).2 hr.createdAt⟩
    · simpa using ⟨(timeKept_iff h.fundedAt).2 hr.fundedAt,
        (timeKept_iff h.shippedAt).2 hr.shippedAt, (timeKept_iff h.repaidAt).2 hr.repaidAt⟩
    · simpa using ⟨(flagKept_iff h.issuerConfirmed).2 hr.issuerConfirmed,
        (flagKept_iff h.buyerConfirmed).2 hr.buyerConfirmed⟩

/-- Of a payload the schema accepts the fallback keeps every field but the status, when only the
status is outside the list, exactly on the condition `KeptByHand`. -/
theorem agreeButStatus_iff (raw : RawInvoice) (status : String) (inv : Invoice)
    (haccepted : safeParse (normalizeKeys raw) = .ok (some inv))
    (hstatus : InvoiceStatus.ofString? status = none) :
    AgreeButStatus (parseInvoiceResponse (.object raw))
        (parseInvoiceResponse (.object (withStatus raw status))) ↔
      KeptByHand raw := by
  have h := accepted_of_safeParse haccepted
  rw [parseInvoiceResponse_of_accepted haccepted,
    parseInvoiceResponse_of_refused (safeParse_withStatus h hstatus), extraFields_withStatus,
    keptByHand_iff h]
  simp (disch := decide) only [manuallyParse, get_withStatus, toBigInt_nullish_zero]
  rcases hface : ((Js.get raw "face_value").nullish (Js.get raw "faceValue")).toBigInt
    with e | faceValue
  · refine iff_of_false (by rintro ⟨x, y, -, hy, -⟩; cases hy) fun hr => ?_
    cases hface.symm.trans hr.faceValue
  rcases hfunded : ((Js.get raw "funded_amount").nullish (Js.get raw "fundedAmount")).toBigInt
    with e | fundedAmount
  · refine iff_of_false (by rintro ⟨x, y, -, hy, -⟩; cases hy) fun hr => ?_
    cases hfunded.symm.trans hr.fundedAmount
  constructor
  · rintro ⟨x, y, hx, hy, heq⟩
    obtain rfl := Except.ok.inj hx
    obtain rfl := Except.ok.inj hy
    simp only [extraFields, Invoice.mk.injEq] at heq
    obtain ⟨hid, -, -, hfaceValue, -, hdiscount, hfundedAmount, hdue, -, hcreated, hfundedAt,
      hshipped, hissuer, hbuyer, hrepaid, hagent, hrisk, hevidence, hattested, -⟩ := heq
    exact
      { id := hid.symm
        attestation := ⟨hagent, hrisk, hevidence, hattested⟩
        faceValue := hfaceValue ▸ hface
        fundedAmount := hfundedAmount ▸ hfunded
        discountBps := hdiscount.symm
        dueDate := hdue.symm
        createdAt := hcreated.symm
        fundedAt := hfundedAt.symm
        shippedAt := hshipped.symm
        repaidAt := hrepaid.symm
        issuerConfirmed := hissuer.symm
        buyerConfirmed := hbuyer.symm }
  · intro hr
    obtain ⟨hagent, hrisk, hevidence, hattested⟩ := hr.attestation
    have hissuer := h.issuer
    have hbuyer := h.buyer
    have hasset := h.asset
    rw [get_word (by simp)] at hissuer hbuyer hasset
    refine ⟨_, _, rfl, rfl, ?_⟩
    simp only [extraFields, Invoice.mk.injEq]
    exact ⟨hr.id.symm, (toStringValue_of_address hissuer).symm,
      (toStringValue_of_address hbuyer).symm, Except.ok.inj (hr.faceValue.symm.trans hface),
      (asset_of_accepted hasset).symm, hr.discountBps.symm,
      Except.ok.inj (hr.fundedAmount.symm.trans hfunded), hr.dueDate.symm, trivial,
      hr.createdAt.symm, hr.fundedAt.symm, hr.shippedAt.symm, hr.issuerConfirmed.symm,
      hr.buyerConfirmed.symm, hr.repaidAt.symm, hagent, hrisk, hevidence, hattested, by simp⟩

/-- A payload with an id, two addresses, a status and an evidence. -/
def samplePayload (evidence : Js) : RawInvoice :=
  [("id", .string (String.ofList (List.replicate 64 'a'))),
    ("issuer", .string (String.ofList ('G' :: List.replicate 55 'A'))),
    ("buyer", .string (String.ofList ('G' :: List.replicate 55 'B'))),
    ("status", .string "Listed"), ("evidence_hash", evidence)]

def sampleInvoice (evidence : Js) : Invoice where
  id := String.ofList (List.replicate 64 'a')
  issuer := String.ofList ('G' :: List.replicate 55 'A')
  buyer := String.ofList ('G' :: List.replicate 55 'B')
  faceValue := 0
  asset := .usdc
  discountBps := .finite 0
  fundedAmount := 0
  dueDate := .finite 0
  status := "Listed"
  createdAt := .finite 0
  fundedAt := none
  shippedAt := none
  issuerConfirmed := false
  buyerConfirmed := false
  repaidAt := none
  evidenceHash := evidence

theorem safeParse_sample (evidence : Js) (h : optionalStringSchema evidence = some evidence) :
    safeParse (normalizeKeys (samplePayload evidence)) = .ok (some (sampleInvoice evidence)) := by
  have hkeys : normalizeKeys (samplePayload evidence) =
      [("id", .string (String.ofList (List.replicate 64 'a'))),
        ("issuer", .string (String.ofList ('G' :: List.replicate 55 'A'))),
        ("buyer", .string (String.ofList ('G' :: List.replicate 55 'B'))),
        ("status", .string "Listed"), ("evidenceHash", evidence)] := by
    simp [samplePayload, normalizeKeys, camelKey, camelLetters]
  have hid : invoiceIDPattern (String.ofList (List.replicate 64 'a')) = true := by decide
  have hissuer : stellarAddressPattern (String.ofList ('G' :: List.replicate 55 'A')) = true := by
    decide
  have hbuyer : stellarAddressPattern (String.ofList ('G' :: List.replicate 55 'B')) = true := by
    decide
  rw [hkeys]
  simp only [safeParse, Js.get, List.reverse_cons, List.reverse_nil, List.nil_append,
    List.cons_append, List.lookup, beq_self_eq_true, String.reduceBEq, Option.getD_some,
    Option.getD_none, bigintSchema, idSchema, addressSchema, hid, hissuer, hbuyer, if_true, h]
  rfl

theorem agreeButStatus_sample :
    AgreeButStatus (parseInvoiceResponse (.object (samplePayload .undefined)))
      (parseInvoiceResponse (.object (withStatus (samplePayload .undefined) "Pending"))) := by
  refine (agreeButStatus_iff _ "Pending" (sampleInvoice .undefined) (safeParse_sample _ rfl)
    rfl).2 ?_
  constructor <;> simp [samplePayload, Js.get_eq_find?, normalizeKeys, camelKey, camelLetters,
    AmountKept, NumberKept, TimeKept, FlagKept, SameValue, NumberLike, TimeLike, schemaValue,
    manualValue, Js.nullish]

theorem evidenceHash_of_manuallyParse {inv : Invoice} (h : manuallyParse raw = .ok inv) :
    inv.evidenceHash = .undefined := by
  simp only [manuallyParse, toBigInt_nullish_zero] at h
  rcases hface : ((Js.get raw "face_value").nullish (Js.get raw "faceValue")).toBigInt
    with e | n <;> rw [hface] at h
  · cases h
  rcases hfunded : ((Js.get raw "funded_amount").nullish (Js.get raw "fundedAmount")).toBigInt
    with e | m <;> rw [hfunded] at h
  · cases h
  obtain rfl := Except.ok.inj h
  rfl

/-- The evidence of an accepted payload is lost with a status outside the list. -/
theorem not_agreeButStatus_evidence :
    (∃ inv, safeParse (normalizeKeys (samplePayload (.string "c0ffee"))) = .ok (some inv)) ∧
      InvoiceStatus.ofString? "Pending" = none ∧
      ¬ AgreeButStatus (parseInvoiceResponse (.object (samplePayload (.string "c0ffee"))))
        (parseInvoiceResponse
          (.object (withStatus (samplePayload (.string "c0ffee")) "Pending"))) := by
  have haccepted := safeParse_sample (.string "c0ffee") rfl
  refine ⟨⟨_, haccepted⟩, rfl, ?_⟩
  rintro ⟨x, y, hx, hy, heq⟩
  rw [parseInvoiceResponse_of_accepted haccepted] at hx
  rw [parseInvoiceResponse_of_refused
    (safeParse_withStatus (accepted_of_safeParse haccepted) rfl)] at hy
  rcases hmanual : manuallyParse (withStatus (samplePayload (.string "c0ffee")) "Pending")
    with e | inv <;> rw [hmanual] at hy
  · cases hy
  obtain rfl := Except.ok.inj hx
  obtain rfl := Except.ok.inj hy
  have hevidence : Js.string "c0ffee" = inv.evidenceHash := congrArg Invoice.evidenceHash heq
  rw [evidenceHash_of_manuallyParse hmanual] at hevidence
  cases hevidence

end Status

end TrusTrove
