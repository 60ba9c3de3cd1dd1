import TrusTrove.Lib.Regex
import TrusTrove.InvoiceParser

/-!
# What the web app reads of a row

A decimal numeral goes through `BigInt` unchanged, so no row makes the parser throw; and the schema
and the fallback agree on a row: which of the two accepts it does not show in the columns
(`parseInvoiceResponse_json`). A time that is unset, or zero, is read as `null`.
-/

namespace TrusTrove

open Regex (isDigit_bounds)

section Numerals

theorem not_isStrWhiteSpace {c : Char} (h : 33 ≤ c.toNat ∧ c.toNat ≤ 126) :
    isStrWhiteSpace c = false := by
  simp [isStrWhiteSpace]
  omega

theorem trimWhiteSpace_eq {s : List Char} (h : ∀ c ∈ s, isStrWhiteSpace c = false) :
    trimWhiteSpace s = s := by
  have hdrop (l : List Char) (hl : ∀ c ∈ l, isStrWhiteSpace c = false) :
      l.dropWhile isStrWhiteSpace = l := by
    rcases l with _ | ⟨c, l⟩
    · rfl
    · simp [hl c]
  rw [trimWhiteSpace, hdrop s h, hdrop s.reverse (by simpa using h), List.reverse_reverse]

theorem hexDigit?_of_isDigit {c : Char} (h : c.isDigit = true) :
    JsonText.hexDigit? c = some (c.toNat - '0'.toNat) := by
  have hle : '0' ≤ c ∧ c ≤ '9' := by
    simpa [Char.isDigit, Char.le_def, UInt32.le_iff_toNat_le] using h
  simp [JsonText.hexDigit?, hle]

theorem numeral_digits {s : List Char} (hs : s ≠ []) (h : ∀ c ∈ s, c.isDigit = true) :
    numeral 10 s = some (Nat.ofDigitChars 10 s 0) := by
  have hfold : ∀ (l : List Char) (acc : ℕ), (∀ c ∈ l, c.isDigit = true) →
      l.foldlM (fun acc c => ((JsonText.hexDigit? c).filter (· < 10)).map (10 * acc + ·)) acc
        = some (Nat.ofDigitChars 10 l acc) := by
    intro l
    induction l with
    | nil => intro acc _; rfl
    | cons c l ih =>
      intro acc hl
      have hc := hl c List.mem_cons_self
      have hlt : c.toNat - '0'.toNat < 10 := by
        have := isDigit_bounds hc
        have hzero : '0'.toNat = 48 := rfl
        omega
      rw [List.foldlM_cons, hexDigit?_of_isDigit hc, Option.filter_some,
        if_pos (by simpa using hlt)]
      simp only [Option.map_some, Option.bind_eq_bind, Option.bind_some]
      rw [ih _ fun x hx => hl x (List.mem_cons_of_mem c hx), Nat.ofDigitChars_cons]
  rw [numeral, if_neg hs, hfold s 0 h]

theorem prefixedNumeral_digits {s : List Char} (h : ∀ c ∈ s, c.isDigit = true) :
    prefixedNumeral s = none := by
  unfold prefixedNumeral
  split
  · rename_i c digits
    have hc := isDigit_bounds (h c (by simp))
    have hne : ∀ x ∈ ['x', 'X', 'o', 'O', 'b', 'B'], c ≠ x := by
      rintro x hx rfl
      revert hc
      fin_cases hx <;> decide
    simp only [List.forall_mem_cons] at hne
    simp [hne]
  · rfl

theorem splitSign_digits {s : List Char} (h : ∀ c ∈ s, c.isDigit = true) :
    splitSign s = (1, s) := by
  unfold splitSign
  split
  · exact absurd (h '-' (by simp)) (by decide)
  · exact absurd (h '+' (by simp)) (by decide)
  · rfl

theorem stringToBigInt_repr (n : ℤ) : stringToBigInt (Int.repr n) = some n := by
  have hdigits (m : ℕ) : ∀ c ∈ Nat.toDigits 10 m, c.isDigit = true := fun c hc =>
    Nat.isDigit_of_mem_toDigits (by omega) (by omega) hc
  have hspace (m : ℕ) : ∀ c ∈ Nat.toDigits 10 m, isStrWhiteSpace c = false := fun c hc =>
    not_isStrWhiteSpace (by have := isDigit_bounds (hdigits m c hc); omega)
  have hnil (m : ℕ) : Nat.toDigits 10 m ≠ [] := Nat.toDigits_ne_nil
  rcases n with m | m
  · have htext : (Int.repr (Int.ofNat m)).toList = Nat.toDigits 10 m := by simp [Int.repr, Nat.repr]
    simp only [stringToBigInt, htext, trimWhiteSpace_eq (hspace m), if_neg (hnil m),
      prefixedNumeral_digits (hdigits m), splitSign_digits (hdigits m),
      numeral_digits (hnil m) (hdigits m), Nat.ofDigitChars_ten_toDigits]
    simp
  · have htext : (Int.repr (Int.negSucc m)).toList = '-' :: Nat.toDigits 10 (m + 1) := by
      simp [Int.repr, Nat.repr]
    have htrim : trimWhiteSpace ('-' :: Nat.toDigits 10 (m + 1)) = '-' :: Nat.toDigits 10 (m + 1) :=
      trimWhiteSpace_eq fun c hc => by
        rcases List.mem_cons.1 hc with rfl | hc
        · decide
        · exact hspace (m + 1) c hc
    simp only [stringToBigInt, htext, htrim, prefixedNumeral, splitSign,
      numeral_digits (hnil (m + 1)) (hdigits (m + 1)), Nat.ofDigitChars_ten_toDigits]
    simp [Int.negSucc_eq]

end Numerals

section Row

/-- What the parser reads of a timestamp column. -/
def readTime (t : Option ℤ) : Option Double := toNullableNumber (jsonPtr jsonInt t)

/-- A parsed invoice with the columns of a row. -/
structure Reads (r : DbInvoice) (inv : Invoice) : Prop where
  id : inv.id = r.id
  issuer : inv.issuer = r.issuer
  buyer : inv.buyer = r.buyer
  faceValue : inv.faceValue = r.faceValue
  asset : inv.asset = .usdc
  discountBps : inv.discountBps = .ofRat r.discountBps
  fundedAmount : inv.fundedAmount = r.fundedAmount
  dueDate : inv.dueDate = .ofRat r.dueDate
  status : inv.status = r.status.toString
  createdAt : inv.createdAt = .ofRat r.createdAt
  fundedAt : inv.fundedAt = readTime r.fundedAt
  shippedAt : inv.shippedAt = readTime r.shippedAt
  issuerConfirmed : inv.issuerConfirmed = r.issuerConfirmed
  buyerConfirmed : inv.buyerConfirmed = r.buyerConfirmed
  buyerConfirmedAt : inv.buyerConfirmedAt = readTime r.buyerConfirmedAt
  repaidAt : inv.repaidAt = readTime r.repaidAt
  -- the row has no column for these
  listedAt : inv.listedAt = none
  issuerConfirmedAt : inv.issuerConfirmedAt = none
  defaultedAt : inv.defaultedAt = none

theorem ofRat_ne_nan (q : ℚ) : Double.ofRat q ≠ .nan := by
  simp only [Double.ofRat]
  split_ifs <;> simp

theorem nullableNumberSchema_jsonPtr (t : Option ℤ) :
    nullableNumberSchema (jsonPtr jsonInt t) = some (readTime t) := by
  rcases t with _ | n
  · rfl
  · by_cases h : Double.ofRat (n : ℚ) = .finite 0 <;>
      simp [nullableNumberSchema, jsonPtr, jsonInt, readTime, toNullableNumber, Js.truthy,
        Js.toNumber, zNumber, h, ofRat_ne_nan]

theorem optionalTimeSchema_jsonPtr (t : Option ℤ) :
    ∃ v, optionalTimeSchema (jsonPtr jsonInt t) = some v := by
  have h := nullableNumberSchema_jsonPtr t
  rcases t with _ | n
  · exact ⟨.null, rfl⟩
  · simp only [jsonPtr, jsonInt] at h
    simp [jsonPtr, jsonInt, optionalTimeSchema, h]

theorem numberSchema_jsonInt (n : ℤ) : numberSchema (jsonInt n) = some (.ofRat n) := by
  simp [numberSchema, jsonInt, zNumber, ofRat_ne_nan]

theorem optionalNumberSchema_jsonPtr (n : Option ℤ) :
    optionalNumberSchema (jsonPtr jsonInt n) = some (jsonPtr jsonInt n) := by
  cases n <;> simp [optionalNumberSchema, jsonPtr, jsonInt, zNumber, ofRat_ne_nan]

theorem optionalStringSchema_jsonPtr (s : Option String) :
    optionalStringSchema (jsonPtr .string s) = some (jsonPtr .string s) := by
  cases s <;> rfl

theorem statusSchema_toString (s : InvoiceStatus) :
    statusSchema (.string s.toString) = some s.toString := by
  simp [statusSchema, InvoiceStatus.ofString?_toString]

theorem toBigInt_repr (n : ℤ) : (Js.string (Int.repr n)).toBigInt = .ok n := by
  simp [Js.toBigInt, stringToBigInt_repr]

theorem idSchema_eq {s id : String} (h : idSchema (.string s) = some id) : s = id := by
  simp only [idSchema, Option.ite_none_right_eq_some] at h
  exact Option.some.inj h.2

theorem addressSchema_eq {s a : String} (h : addressSchema (.string s) = some a) : s = a := by
  simp only [addressSchema, Option.ite_none_right_eq_some] at h
  exact Option.some.inj h.2

theorem normalizeKeys_json (r : DbInvoice) : normalizeKeys r.json =
    [("id", .string r.id), ("issuer", .string r.issuer), ("buyer", .string r.buyer),
      ("faceValue", .string (Int.repr r.faceValue)), ("discountBps", jsonInt r.discountBps),
      ("fundedAmount", .string (Int.repr r.fundedAmount)), ("dueDate", jsonInt r.dueDate),
      ("status", .string r.status.toString), ("createdAt", jsonInt r.createdAt),
      ("fundedAt", jsonPtr jsonInt r.fundedAt), ("shippedAt", jsonPtr jsonInt r.shippedAt),
      ("issuerConfirmed", .boolean r.issuerConfirmed),
      ("buyerConfirmed", .boolean r.buyerConfirmed),
      ("buyerConfirmedAt", jsonPtr jsonInt r.buyerConfirmedAt),
      ("repaidAt", jsonPtr jsonInt r.repaidAt),
      ("attestationAgentId", jsonPtr .string r.attestationAgentID),
      ("riskScoreBps", jsonPtr jsonInt r.riskScoreBps),
      ("evidenceHash", jsonPtr .string r.evidenceHash),
      ("attestedAt", jsonPtr jsonInt r.attestedAt)] := by
  simp [normalizeKeys, DbInvoice.json, camelKey, camelLetters]

/-- The schema refuses a row, or reads its columns. -/
theorem safeParse_json (r : DbInvoice) :
    ∃ parsed, safeParse (normalizeKeys r.json) = .ok parsed
      ∧ ∀ inv ∈ parsed, Reads r (extraFields r.json inv) := by
  obtain ⟨confirmed, hconfirmed⟩ := optionalTimeSchema_jsonPtr r.buyerConfirmedAt
  obtain ⟨attested, hattested⟩ := optionalTimeSchema_jsonPtr r.attestedAt
  rw [normalizeKeys_json]
  simp only [safeParse, Js.get, List.reverse_cons, List.reverse_nil, List.nil_append,
    List.cons_append, List.lookup, beq_self_eq_true, String.reduceBEq, Option.getD_some,
    Option.getD_none, bigintSchema, toBigInt_repr, numberSchema_jsonInt, statusSchema_toString,
    nullableNumberSchema_jsonPtr, hconfirmed, hattested, optionalStringSchema_jsonPtr,
    optionalNumberSchema_jsonPtr]
  rcases hid : idSchema (.string r.id) with _ | id
  · exact ⟨none, rfl, by simp⟩
  rcases hissuer : addressSchema (.string r.issuer) with _ | issuer
  · exact ⟨none, rfl, by simp⟩
  rcases hbuyer : addressSchema (.string r.buyer) with _ | buyer
  · exact ⟨none, rfl, by simp⟩
  obtain rfl := idSchema_eq hid
  obtain rfl := addressSchema_eq hissuer
  obtain rfl := addressSchema_eq hbuyer
  refine ⟨_, rfl, ?_⟩
  rintro inv ⟨⟩
  constructor <;> rfl

theorem manuallyParse_json (r : DbInvoice) :
    ∃ inv, manuallyParse r.json = .ok inv ∧ Reads r (extraFields r.json inv) := by
  have htime (t : Option ℤ) :
      toNullableNumber ((jsonPtr jsonInt t).nullish .undefined) = readTime t := by
    cases t <;> rfl
  simp only [manuallyParse, DbInvoice.json, Js.get, List.reverse_cons, List.reverse_nil,
    List.nil_append, List.cons_append, List.lookup, beq_self_eq_true, String.reduceBEq,
    Option.getD_some, Option.getD_none, Js.nullish_string, toBigInt_repr, htime]
  refine ⟨_, rfl, ?_⟩
  constructor <;> rfl

theorem parseInvoiceResponse_of_accepted {raw : RawInvoice} {inv : Invoice}
    (h : safeParse (normalizeKeys raw) = .ok (some inv)) :
    parseInvoiceResponse (.object raw) = .ok (extraFields raw inv) := by
  simp only [parseInvoiceResponse, Js.record?, h]
  rfl

theorem parseInvoiceResponse_of_refused {raw : RawInvoice}
    (h : safeParse (normalizeKeys raw) = .ok none) :
    parseInvoiceResponse (.object raw) = (manuallyParse raw).map (extraFields raw) := by
  simp only [parseInvoiceResponse, Js.record?, h]
  rcases hm : manuallyParse raw with e | inv <;> rfl

/-- Every row is parsed, and read as it is. -/
theorem parseInvoiceResponse_json (r : DbInvoice) :
    ∃ inv, parseInvoiceResponse (.object r.json) = .ok inv ∧ Reads r inv := by
  obtain ⟨parsed, hparsed, hreads⟩ := safeParse_json r
  rcases parsed with _ | inv
  · obtain ⟨inv, hinv, hr⟩ := manuallyParse_json r
    exact ⟨_, by rw [parseInvoiceResponse_of_refused hparsed, hinv]; rfl, hr⟩
  · exact ⟨_, parseInvoiceResponse_of_accepted hparsed, hreads inv rfl⟩

end Row

end TrusTrove
