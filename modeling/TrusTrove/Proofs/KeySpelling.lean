import TrusTrove.Proofs.ParsedInvoice

/-!
# The two spellings of a payload

Converting the keys once leaves no field a second conversion would find, so the schema reads the
same from a record in snake case and from its conversion, and the fallback reads the same under the
other spelling. Only `extraFields` looks at one spelling: what it adds is lost in camel case.
-/

namespace TrusTrove

open Regex (isDigit_bounds)

section Letters

/-- The letters in snake case that are converted to a name. -/
def snakeLetters : List Char → List Char
  | [] => []
  | c :: rest => if c.isUpper then '_' :: c.toLower :: snakeLetters rest else c :: snakeLetters rest

/-- An underscore is followed by no letter in lower case. -/
def Converted : List Char → Prop := List.IsChain fun a b => a = '_' → b.isLower = false

instance (s : List Char) : Decidable (Converted s) :=
  inferInstanceAs (Decidable (List.IsChain (fun a b => a = '_' → b.isLower = false) s))

theorem ne_underscore {c : Char} (h : c.isAlpha = true) : c ≠ '_' := by
  rintro rfl
  exact absurd h (by decide)

theorem toUpper_ne_underscore {c : Char} (h : (c.isLower || c.isDigit) = true) :
    c.toUpper ≠ '_' := by
  by_cases hc : c.isLower = true
  · exact ne_underscore (by simp [Char.isAlpha, hc])
  · rw [Char.toUpper_eq_of_not_isLower hc]
    rintro rfl
    exact absurd h (by decide)

theorem camelLetters_cons {c : Char} (h : c ≠ '_') (rest : List Char) :
    camelLetters (c :: rest) = c :: camelLetters rest := by
  rw [camelLetters]
  exact fun _ _ hc => absurd hc h

theorem camelLetters_snakeLetters {f : List Char} (hf : ∀ c ∈ f, c.isAlpha = true) :
    camelLetters (snakeLetters f) = f := by
  induction f with
  | nil => rfl
  | cons c f ih =>
    have hc := hf c List.mem_cons_self
    have ih := ih fun x hx => hf x (List.mem_cons_of_mem c hx)
    rw [snakeLetters]
    split_ifs with hupper
    · have hback : c.toLower.toUpper = c := by
        rw [Char.toUpper_toLower_eq_toUpper, Char.toUpper_eq_of_not_isLower]
        exact Char.not_isLower_of_isUpper hupper
      rw [camelLetters, if_pos (by simp [hc]), hback, ih]
    · rw [camelLetters_cons (ne_underscore hc), ih]

theorem camelLetters_of_name {f : List Char} (hf : ∀ c ∈ f, c.isAlpha = true) :
    camelLetters f = f := by
  induction f with
  | nil => rfl
  | cons c f ih =>
    rw [camelLetters_cons (ne_underscore (hf c List.mem_cons_self)),
      ih fun x hx => hf x (List.mem_cons_of_mem c hx)]

/-- The only letters in snake case that are converted to a name. -/
theorem eq_snakeLetters {k f : List Char} (hk : ∀ c ∈ k, c.isUpper = false)
    (hf : ∀ c ∈ f, c.isAlpha = true) (h : camelLetters k = f) : k = snakeLetters f := by
  induction k using camelLetters.induct generalizing f with
  | case1 c rest hc ih =>
    rw [camelLetters, if_pos hc] at h
    subst h
    have hcamel := hf c.toUpper List.mem_cons_self
    have hlower : c.isLower = true := by
      by_contra hlower
      rw [Char.toUpper_eq_of_not_isLower hlower] at hcamel
      simp [Char.isAlpha, hlower, hk c (by simp)] at hcamel
    have hback : c.toUpper.toLower = c := by
      rw [Char.toLower_toUpper_eq_toLower, Char.toLower_eq_of_not_isUpper]
      exact Char.not_isUpper_of_isLower hlower
    rw [snakeLetters, if_pos (by simp [Char.isAlpha, hlower]), hback,
      ← ih (fun x hx => hk x (by simp [hx])) (fun x hx => hf x (by simp [hx])) rfl]
  | case2 c rest hc ih =>
    rw [camelLetters, if_neg hc] at h
    subst h
    exact absurd (hf '_' List.mem_cons_self) (by decide)
  | case3 c rest hno ih =>
    rw [camelLetters] at h
    · subst h
      rw [snakeLetters, if_neg (by simp [hk c List.mem_cons_self]),
        ← ih (fun x hx => hk x (by simp [hx])) (fun x hx => hf x (by simp [hx])) rfl]
    · exact hno
  | case4 =>
    subst h
    rfl

theorem isLower_head_of_camelLetters {s : List Char} {d : Char}
    (hd : (camelLetters s).head? = some d) (hlower : d.isLower = true) : s.head? = some d := by
  cases s using camelLetters.induct with
  | case1 c rest hc =>
    rw [camelLetters, if_pos hc] at hd
    obtain rfl := Option.some.inj hd
    simp at hlower
  | case2 c rest hc =>
    rw [camelLetters, if_neg hc] at hd
    exact hd
  | case3 c rest hno =>
    rw [camelLetters] at hd
    · exact hd
    · exact hno
  | case4 => cases hd

theorem converted_camelLetters (s : List Char) : Converted (camelLetters s) := by
  induction s using camelLetters.induct with
  | case1 c rest hc ih =>
    rw [camelLetters, if_pos hc]
    exact List.isChain_cons.2 ⟨fun _ _ h => absurd h (toUpper_ne_underscore hc), ih⟩
  | case2 c rest hc ih =>
    rw [camelLetters, if_neg hc]
    refine List.isChain_cons.2 ⟨fun d hd _ => ?_, ih⟩
    by_contra hlower
    rw [Bool.not_eq_false] at hlower
    obtain rfl := Option.some.inj (isLower_head_of_camelLetters hd hlower)
    simp [hlower] at hc
  | case3 c rest hno ih =>
    rw [camelLetters]
    · refine List.isChain_cons.2 ⟨fun d hd hc => ?_, ih⟩
      rcases rest with _ | ⟨c', rest⟩
      · cases hd
      · exact absurd rfl (hno c' rest hc)
    · exact hno
  | case4 => exact List.isChain_nil

/-- Converting converted letters makes no name of what was none. -/
theorem eq_of_converted {s f : List Char} (hs : Converted s) (hf : ∀ c ∈ f, c.isAlpha = true)
    (h : camelLetters s = f) : s = f := by
  induction s using camelLetters.induct generalizing f with
  | case1 c rest hc =>
    have hlower : c.isLower = false := (List.isChain_cons.1 hs).1 c rfl rfl
    rw [camelLetters, if_pos hc] at h
    subst h
    have hname := hf c.toUpper List.mem_cons_self
    have hdigit : c.isDigit = true := by simpa [hlower] using hc
    have hbounds := isDigit_bounds hdigit
    rw [Char.isAlpha_toUpper_eq_isAlpha] at hname
    simp [Char.isAlpha, Char.isUpper, hlower, UInt32.le_iff_toNat_le] at hname
    omega
  | case2 c rest hc =>
    rw [camelLetters, if_neg hc] at h
    subst h
    exact absurd (hf '_' List.mem_cons_self) (by decide)
  | case3 c rest hno ih =>
    rw [camelLetters] at h
    · subst h
      rw [← ih (List.isChain_cons.1 hs).2 (fun x hx => hf x (by simp [hx])) rfl]
    · exact hno
  | case4 => exact h

end Letters

section Records

variable {raw : RawInvoice}

/-- A key without a letter in upper case. -/
def IsSnake (key : String) : Prop := ∀ c ∈ key.toList, c.isUpper = false

/-- A key of letters only. -/
def IsName (key : String) : Prop := ∀ c ∈ key.toList, c.isAlpha = true

instance (key : String) : Decidable (IsSnake key) :=
  inferInstanceAs (Decidable (∀ c ∈ key.toList, c.isUpper = false))

instance (key : String) : Decidable (IsName key) :=
  inferInstanceAs (Decidable (∀ c ∈ key.toList, c.isAlpha = true))

def snakeKey (key : String) : String := String.ofList (snakeLetters key.toList)

/-- Where one change of the members puts a key, and with the same value, the other puts its key. -/
theorem get_map (f g : String × Js → String × Js) {key key' : String}
    (hkey : ∀ kv ∈ raw, (f kv).1 = key ↔ (g kv).1 = key')
    (hvalue : ∀ kv ∈ raw, (f kv).1 = key → (f kv).2 = (g kv).2) :
    Js.get (raw.map f) key = Js.get (raw.map g) key' := by
  rw [Js.get_eq_find?, Js.get_eq_find?, ← List.map_reverse, ← List.map_reverse, List.find?_map,
    List.find?_map, Option.map_map, Option.map_map]
  have hfind : raw.reverse.find? ((fun kv : String × Js => decide (kv.1 = key)) ∘ f)
      = raw.reverse.find? ((fun kv : String × Js => decide (kv.1 = key')) ∘ g) :=
    List.find?_congr fun kv hkv => by simp [hkey kv (List.mem_reverse.1 hkv)]
  rw [← hfind]
  refine congrArg (Option.getD · _) (Option.map_congr fun kv hkv => ?_)
  exact hvalue kv (List.mem_reverse.1 (List.mem_of_find?_eq_some hkv))
    (by simpa using List.find?_some hkv)

theorem get_eq_undefined {key : String} (h : ∀ kv ∈ raw, kv.1 ≠ key) :
    Js.get raw key = .undefined := by
  have hfind : raw.reverse.find? (·.1 = key) = none :=
    List.find?_eq_none.2 fun kv hkv => by simpa using h kv (List.mem_reverse.1 hkv)
  rw [Js.get_eq_find?, hfind]
  rfl

theorem camelKey_eq_iff {k key : String} :
    camelKey k = key ↔ camelLetters k.toList = key.toList := by
  rw [camelKey, ← String.toList_inj, String.toList_ofList]

/-- A field is found in the record converted twice where it is in the record converted once. -/
theorem get_normalizeKeys_twice {key : String} (hkey : IsName key) :
    Js.get (normalizeKeys (normalizeKeys raw)) key = Js.get (normalizeKeys raw) key := by
  have hkeys : normalizeKeys (normalizeKeys raw)
      = raw.map fun kv => (camelKey (camelKey kv.1), kv.2) := by
    simp [normalizeKeys]
  rw [hkeys]
  refine get_map (fun kv => (camelKey (camelKey kv.1), kv.2)) (fun kv => (camelKey kv.1, kv.2))
    (fun kv _ => ⟨fun h => ?_, fun h => ?_⟩) fun _ _ _ => rfl
  · rw [camelKey_eq_iff] at h
    rw [camelKey, String.toList_ofList] at h
    exact camelKey_eq_iff.2 (eq_of_converted (converted_camelLetters _) hkey h)
  · change camelKey kv.1 = key at h
    rw [h, camelKey_eq_iff]
    exact camelLetters_of_name hkey

/-- A field of the record converted is what the record in snake case has under the other
spelling. -/
theorem get_normalizeKeys {key : String} (hraw : ∀ kv ∈ raw, IsSnake kv.1) (hkey : IsName key) :
    Js.get (normalizeKeys raw) key = Js.get raw (snakeKey key) := by
  conv_rhs => rw [← List.map_id raw]
  refine get_map (fun kv => (camelKey kv.1, kv.2)) id (fun kv hkv => ?_) fun _ _ _ => rfl
  rw [camelKey_eq_iff, id, snakeKey, ← String.toList_inj, String.toList_ofList]
  constructor
  · exact eq_snakeLetters (hraw kv hkv) hkey
  · intro h
    rw [h, camelLetters_snakeLetters hkey]

/-- The record converted has no key in snake case. -/
theorem get_normalizeKeys_snake {key : String} (hkey : ¬ Converted key.toList) :
    Js.get (normalizeKeys raw) key = .undefined := by
  refine get_eq_undefined fun kv hkv h => hkey ?_
  obtain ⟨kv, -, rfl⟩ := List.mem_map.1 hkv
  rw [← h, camelKey, String.toList_ofList]
  exact converted_camelLetters _

end Records

section Parse

/-- Two calls of the parser that both throw, or give invoices with the same fields. -/
def ParseAlike : Except Thrown Invoice → Except Thrown Invoice → Prop
  | .ok a, .ok b => a = b
  | .error _, .error _ => True
  | _, _ => False

def extraTimes : List String :=
  ["listed_at", "issuer_confirmed_at", "buyer_confirmed_at", "defaulted_at"]

def extraHashes : List String :=
  ["transaction_hashes", "tx_hashes", "created_tx_hash", "listed_tx_hash", "funded_tx_hash",
    "shipped_tx_hash", "issuer_confirmed_tx_hash", "buyer_confirmed_tx_hash", "repaid_tx_hash",
    "defaulted_tx_hash"]

/-- A payload without a value in the fields `extraFields` adds: no time that is read, no hash. -/
structure NoExtras (raw : RawInvoice) : Prop where
  times : ∀ key ∈ extraTimes, (Js.get raw key).truthy = false
  hashes : ∀ key ∈ extraHashes, Js.get raw key = .undefined

/-- An amount of a payload that `BigInt` refuses. -/
def Unreadable (raw : RawInvoice) : Prop :=
  ∃ key ∈ ["face_value", "funded_amount"], ∃ e, (Js.get raw key).toBigInt = .error e

/-- The keys of `invoiceSchema`. -/
def schemaKeys : List String :=
  ["id", "issuer", "buyer", "faceValue", "asset", "discountBps", "fundedAmount", "dueDate",
    "status", "createdAt", "fundedAt", "shippedAt", "issuerConfirmed", "buyerConfirmed",
    "buyerConfirmedAt", "repaidAt", "defaultedAt", "attestationAgentId", "riskScoreBps",
    "evidenceHash", "attestedAt"]

theorem isName_of_mem_schemaKeys : ∀ key ∈ schemaKeys, IsName key := by
  simp [schemaKeys, IsName]

/-- The invoice before the extra fields are added to it. -/
def schemaOrManual (raw : RawInvoice) : Except Thrown Invoice := do
  match ← safeParse (normalizeKeys raw) with
  | some invoice => pure invoice
  | none => manuallyParse raw

theorem parseInvoiceResponse_object (raw : RawInvoice) :
    parseInvoiceResponse (.object raw) = (schemaOrManual raw).map (extraFields raw) := by
  rcases h : safeParse (normalizeKeys raw) with e | _ | invoice
  · simp only [parseInvoiceResponse, Js.record?, schemaOrManual, h]
    rfl
  · rw [parseInvoiceResponse_of_refused h, schemaOrManual, h]
    rfl
  · rw [parseInvoiceResponse_of_accepted h, schemaOrManual, h]
    rfl

variable {raw : RawInvoice}

theorem safeParse_congr {a b : RawInvoice} (h : ∀ key ∈ schemaKeys, Js.get a key = Js.get b key) :
    safeParse a = safeParse b := by
  simp only [schemaKeys, List.forall_mem_cons] at h
  simp only [safeParse, h]

theorem safeParse_normalizeKeys_twice :
    safeParse (normalizeKeys (normalizeKeys raw)) = safeParse (normalizeKeys raw) :=
  safeParse_congr fun _ hkey => get_normalizeKeys_twice (isName_of_mem_schemaKeys _ hkey)

/-- The keys `manuallyParse` takes in either spelling. -/
def spellings : List (String × String) :=
  [("face_value", "faceValue"), ("discount_bps", "discountBps"), ("funded_amount", "fundedAmount"),
    ("due_date", "dueDate"), ("created_at", "createdAt"), ("funded_at", "fundedAt"),
    ("shipped_at", "shippedAt"), ("issuer_confirmed", "issuerConfirmed"),
    ("buyer_confirmed", "buyerConfirmed"), ("repaid_at", "repaidAt")]

theorem spellings_spec : ∀ p ∈ spellings,
    snakeKey p.2 = p.1 ∧ IsName p.2 ∧ ¬ IsSnake p.2 ∧ ¬ Converted p.1.toList := by
  simp [spellings, snakeKey, snakeLetters, IsName, IsSnake, Converted]

/-- A field in the record in snake case and in its conversion, under each of the two spellings. -/
theorem get_spellings (hraw : ∀ kv ∈ raw, IsSnake kv.1) : ∀ p ∈ spellings,
    Js.get (normalizeKeys raw) p.1 = .undefined ∧ Js.get (normalizeKeys raw) p.2 = Js.get raw p.1 ∧
      Js.get raw p.2 = .undefined := by
  intro p hp
  obtain ⟨hsnake, hname, hcamel, hconverted⟩ := spellings_spec p hp
  refine ⟨get_normalizeKeys_snake hconverted, hsnake ▸ get_normalizeKeys hraw hname,
    get_eq_undefined fun kv hkv h => hcamel ?_⟩
  exact h ▸ hraw kv hkv

theorem nullish_undefined_nullish (v z : Js) : (v.nullish .undefined).nullish z = v.nullish z := by
  cases v <;> rfl

theorem toNullableNumber_nullish (v : Js) :
    toNullableNumber (v.nullish .undefined) = toNullableNumber v := by
  cases v <;> rfl

theorem truthy_nullish (v : Js) : (v.nullish .undefined).truthy = v.truthy := by
  cases v <;> rfl

theorem manuallyParse_normalizeKeys (hraw : ∀ kv ∈ raw, IsSnake kv.1) :
    manuallyParse (normalizeKeys raw) = manuallyParse raw := by
  have hspell := get_spellings hraw
  simp only [spellings, List.forall_mem_cons] at hspell
  have hword : ∀ key ∈ ["id", "issuer", "buyer", "asset", "status"],
      Js.get (normalizeKeys raw) key = Js.get raw key := by
    intro key hkey
    have hspec : IsName key ∧ snakeKey key = key := by
      revert key
      simp [snakeKey, snakeLetters, IsName]
    conv_rhs => rw [← hspec.2]
    exact get_normalizeKeys hraw hspec.1
  simp only [List.forall_mem_cons] at hword
  simp only [manuallyParse, hspell, hword, nullish_undefined_nullish, toNullableNumber_nullish,
    truthy_nullish]
  rfl

theorem schemaOrManual_normalizeKeys (hraw : ∀ kv ∈ raw, IsSnake kv.1) :
    schemaOrManual (normalizeKeys raw) = schemaOrManual raw := by
  rw [schemaOrManual, safeParse_normalizeKeys_twice, manuallyParse_normalizeKeys hraw]
  rfl

theorem toBigInt_nullish_zero (v : Js) :
    (v.nullish (.number (.finite 0))).toBigInt = v.toBigInt := by
  cases v <;> simp [Js.nullish, Js.toBigInt]

theorem schemaOrManual_error_iff (hraw : ∀ kv ∈ raw, IsSnake kv.1) :
    (∃ e, schemaOrManual raw = .error e) ↔ Unreadable raw := by
  have hspell := get_spellings hraw
  simp only [spellings, List.forall_mem_cons] at hspell
  simp only [Unreadable, List.exists_mem_cons_iff, List.not_mem_nil, false_and, exists_false,
    or_false]
  rcases hface : (Js.get raw "face_value").toBigInt with e | faceValue
  · simp [schemaOrManual, safeParse, bigintSchema, hspell, hface, bind, Except.bind]
  rcases hfunded : (Js.get raw "funded_amount").toBigInt with e | fundedAmount
  · simp [schemaOrManual, safeParse, bigintSchema, hspell, hface, hfunded, bind, Except.bind]
  obtain ⟨parsed, hparsed⟩ : ∃ parsed, safeParse (normalizeKeys raw) = .ok parsed := by
    simp only [safeParse, bigintSchema, hspell, hface, hfunded]
    exact ⟨_, rfl⟩
  obtain ⟨manual, hmanual⟩ : ∃ manual, manuallyParse raw = .ok manual := by
    simp only [manuallyParse, hspell, nullish_undefined_nullish, toBigInt_nullish_zero, hface,
      hfunded]
    exact ⟨_, rfl⟩
  rcases parsed with _ | invoice <;>
    simp [schemaOrManual, hparsed, hmanual, bind, Except.bind, pure, Except.pure]

theorem toNullableNumber_eq_none_iff {v : Js} : toNullableNumber v = none ↔ v.truthy = false := by
  simp [toNullableNumber]

/-- The record converted has no extra field, whatever the record in snake case has. -/
theorem extraFields_normalizeKeys_iff (invoice : Invoice) :
    extraFields raw invoice = extraFields (normalizeKeys raw) invoice ↔ NoExtras raw := by
  have hlost : ∀ key ∈ extraTimes ++ extraHashes, Js.get (normalizeKeys raw) key = .undefined := by
    intro key hkey
    refine get_normalizeKeys_snake ?_
    revert key
    simp [extraTimes, extraHashes, Converted]
  simp only [extraTimes, extraHashes, List.cons_append, List.nil_append,
    List.forall_mem_cons] at hlost
  have hnone : toNullableNumber .undefined = none := rfl
  simp only [extraFields, hlost, hnone, Invoice.mk.injEq, toNullableNumber_eq_none_iff, true_and]
  constructor
  · rintro ⟨h1, h2, h3, h4, h5⟩
    exact ⟨by simp [extraTimes, *], by simp [extraHashes, h5]⟩
  · rintro ⟨htimes, hhashes⟩
    simp only [extraTimes, extraHashes, List.forall_mem_cons] at htimes hhashes
    simp [htimes, hhashes]

/-- A record in snake case and its conversion are parsed alike exactly when parsing throws, or there
is no value in the extra fields. -/
theorem parseAlike_normalizeKeys_iff (raw : RawInvoice) (hraw : ∀ kv ∈ raw, IsSnake kv.1) :
    ParseAlike (parseInvoiceResponse (.object raw))
        (parseInvoiceResponse (.object (normalizeKeys raw))) ↔
      Unreadable raw ∨ NoExtras raw := by
  rw [parseInvoiceResponse_object, parseInvoiceResponse_object, schemaOrManual_normalizeKeys hraw,
    ← schemaOrManual_error_iff hraw]
  rcases schemaOrManual raw with e | invoice
  · simp [ParseAlike, Except.map]
  · simpa [ParseAlike, Except.map] using extraFields_normalizeKeys_iff invoice

theorem parseAlike_of_amount :
    ParseAlike (parseInvoiceResponse (.object [("face_value", .string "5"), ("listed_at", .null)]))
      (parseInvoiceResponse
        (.object (normalizeKeys [("face_value", .string "5"), ("listed_at", .null)]))) :=
  (parseAlike_normalizeKeys_iff [("face_value", .string "5"), ("listed_at", .null)]
    (by simp [IsSnake])).2
    (.inr ⟨by simp [extraTimes, Js.get_eq_find?, Js.truthy],
      by simp [extraHashes, Js.get_eq_find?]⟩)

/-- The time of listing is lost. -/
theorem not_parseAlike_listedAt :
    ¬ ParseAlike (parseInvoiceResponse (.object [("listed_at", .number (.finite 1700000000))]))
      (parseInvoiceResponse
        (.object (normalizeKeys [("listed_at", .number (.finite 1700000000))]))) := by
  intro h
  have hlisted : ∀ {a b : Except Thrown Invoice}, ParseAlike a b →
      a.toOption.map (·.listedAt) = b.toOption.map (·.listedAt) := by
    intro a b hab
    rcases a with e | a <;> rcases b with e' | b
    · rfl
    · exact hab.elim
    · exact hab.elim
    · exact congrArg (fun x => some x.listedAt) hab
  exact absurd (hlisted h) (by decide)

end Parse

end TrusTrove
