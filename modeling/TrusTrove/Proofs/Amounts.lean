import TrusTrove.Lib.Decimal
import TrusTrove.Amounts
import TrusTrove.Proofs.ParsedInvoice

/-!
# Amounts lose less than a unit of their last place

`fromUsdc` reads the decimals `usdcPattern` matches and truncates what stands after the seventh
place (`fromUsdc_text`); `toUsdc` writes whole cents, truncated toward zero (`toUsdc_eq`). The
payout of a discount is rounded down, since its fee is rounded up.
-/

namespace TrusTrove

open Regex RegularExpression Decimal

section Pattern

/-- The pattern matches the texts of decimals. -/
theorem usdcPattern_iff {s : List Char} :
    usdcPattern.rmatch s ↔ ∃ d : Decimal, s = d.text := by
  simp only [rmatch_iff_matches', usdcPattern, mem_mul, mem_opt, mem_char, mem_oneOrMore_digit,
    ← AreDigits.eq_def]
  constructor
  · rintro ⟨sgn, hsgn, _, ⟨int, ⟨hint, hintd⟩, rest, hrest, rfl⟩, rfl⟩
    obtain ⟨neg, rfl⟩ : ∃ neg : Bool, sgn = if neg then ['-'] else [] := by
      rcases hsgn with rfl | rfl
      · exact ⟨false, rfl⟩
      · exact ⟨true, rfl⟩
    rcases hrest with rfl | ⟨_, rfl, frac, ⟨hfrac, hfracd⟩, rfl⟩
    · exact ⟨⟨neg, int, none, hint, hintd, by simp, by simp [AreDigits]⟩, by simp [text]⟩
    · exact ⟨⟨neg, int, some frac, hint, hintd, by simpa using hfrac, hfracd⟩, by simp [text]⟩
  · rintro ⟨⟨neg, int, frac, hint, hintd, hfrac, hfracd⟩, rfl⟩
    refine ⟨if neg then ['-'] else [], by cases neg <;> simp, _, ⟨int, ⟨hint, hintd⟩,
      (frac.map ('.' :: ·)).getD [], ?_, rfl⟩, by simp [text]⟩
    rcases frac with _ | f
    · exact .inl rfl
    · exact .inr ⟨['.'], rfl, f, ⟨by simpa using hfrac, hfracd⟩, rfl⟩

end Pattern

section FromUsdc

theorem text_head (d : Decimal) : d.text.head? = some '-' ↔ d.negative = true := by
  obtain ⟨neg, int, frac, hint, hintd, -, -⟩ := d
  rcases int with _ | ⟨c, int⟩
  · exact absurd rfl hint
  · have hc : c ≠ '-' := fun h => absurd (h ▸ hintd c (by simp)) (by decide)
    cases neg <;> simp [text, hc]

theorem text_drop_sign (d : Decimal) :
    (if d.text.head? = some '-' then d.text.drop 1 else d.text)
      = d.int ++ (d.frac.map ('.' :: ·)).getD [] := by
  simp only [text_head]
  cases h : d.negative <;> simp [text, h]

theorem splitOn_text (d : Decimal) :
    (d.int ++ (d.frac.map ('.' :: ·)).getD []).splitOn '.' = d.int :: d.frac.toList := by
  have hpoint : ∀ {ds : List Char}, AreDigits ds → '.' ∉ ds := fun h hmem =>
    absurd (h '.' hmem) (by decide)
  have hint := List.splitOn_eq_singleton (hpoint d.int_digits)
  have hfracd := d.frac_digits
  rcases hf : d.frac with _ | f
  · simpa [hf] using hint
  · rw [hf, Option.getD_some] at hfracd
    simp only [Option.map_some, Option.getD_some, Option.toList_some]
    rw [List.splitOn_append_cons_self, hint, List.splitOn_eq_singleton (hpoint hfracd)]
    rfl

theorem stringToBigInt_digits {s : List Char} (hne : s ≠ []) (h : AreDigits s) :
    stringToBigInt (String.ofList s) = some (digitsValue s : ℤ) := by
  have hspace : ∀ c ∈ s, isStrWhiteSpace c = false := fun c hc =>
    not_isStrWhiteSpace (by have := isDigit_bounds (h c hc); omega)
  simp only [stringToBigInt, String.toList_ofList, trimWhiteSpace_eq hspace, if_neg hne,
    prefixedNumeral_digits h, splitSign_digits h, numeral_digits hne h]
  simp [digitsValue]

/-- A decimal is read truncated toward zero at the seventh place. -/
theorem fromUsdc_text {u : String} {d : Decimal} (h : trimWhiteSpace u.toList = d.text) :
    fromUsdc u = .ok (truncate (d.value * 10 ^ 7)) := by
  have hmatch : usdcPattern.rmatch d.text = true := usdcPattern_iff.2 ⟨d, rfl⟩
  have hfrac : (d.frac.toList[0]?).getD [] = d.frac.getD [] := by cases d.frac <;> rfl
  have hread := stringToBigInt_digits (s := d.int ++ fixedDigits 7 (d.frac.getD []))
    (by simp [d.int_ne_nil]) (d.int_digits.append (areDigits_fixedDigits d.frac_digits 7))
  simp only [fixedDigits] at hread
  simp only [fromUsdc, h, hmatch, Bool.not_true, Bool.false_eq_true, if_false, text_drop_sign,
    splitOn_text, List.headD_cons, List.getElem?_cons_succ, hfrac, Js.toBigInt, hread,
    truncate_value_mul, fixedDigits]
  cases hn : d.negative <;> simp [text_head, hn, sign, bind, Except.bind]

theorem fromUsdc_of_not_text {u : String} (h : ∀ d : Decimal, trimWhiteSpace u.toList ≠ d.text) :
    fromUsdc u = .error (.error ("Invalid USDC amount: \"" ++ u ++ "\"")) := by
  have hmatch : usdcPattern.rmatch (trimWhiteSpace u.toList) = false :=
    Bool.eq_false_iff.2 fun hm => (usdcPattern_iff.1 hm).elim fun d hd => h d hd
  simp [fromUsdc, hmatch]

end FromUsdc

section ToUsdc

/-- What `toUsdc` writes: whole cents, truncated toward zero. -/
def cents (stroops : ℤ) : Decimal := .fixed 2 two_pos (stroops.tdiv (10 ^ 5))

theorem toUsdc_eq (s : ℤ) : toUsdc s = String.ofList (cents s).text := by
  obtain ⟨n, hs⟩ : ∃ n : ℕ, s.natAbs = n := ⟨_, rfl⟩
  have hn : (if decide (s < 0) = true then -s else s) = n := by
    simp only [decide_eq_true_eq]
    split_ifs <;> omega
  have hcents : (s.tdiv (10 ^ 5)).natAbs = n / 10 ^ 5 := by
    rw [Int.natAbs_tdiv, hs]
    rfl
  have hwhole : (n : ℤ).tdiv stroopsPerUsdc = (n / 10 ^ 7 : ℕ) := rfl
  have hfraction : (n : ℤ).tmod stroopsPerUsdc = (n % 10 ^ 7 : ℕ) := rfl
  have hrepr (m : ℕ) : (Int.repr (m : ℤ)).toList = Nat.toDigits 10 m := by simp [Int.repr]
  have htake : ((Nat.toDigits 10 (n % 10 ^ 7)).leftpad 7 '0').take 2
      = paddedDigits 2 (n / 10 ^ 5 % 10 ^ 2) := by
    have := take_paddedDigits (j := 2) (k := 7) (n := n % 10 ^ 7) (by omega) (by omega)
      (Nat.mod_lt _ (by positivity))
    rw [show n / 10 ^ 5 % 10 ^ 2 = n % 10 ^ 7 / 10 ^ (7 - 2) by omega]
    exact this
  have hdiv : n / 10 ^ 5 / 10 ^ 2 = n / 10 ^ 7 := Nat.div_div_eq_div_mul ..
  have hzero : (n / 10 ^ 7 = 0 ∧ paddedDigits 2 (n / 10 ^ 5 % 10 ^ 2) = ['0', '0'])
      ↔ n / 10 ^ 5 = 0 := by
    constructor
    · rintro ⟨hw, hf⟩
      have := congrArg digitsValue hf
      rw [digitsValue_paddedDigits] at this
      have hvalue : digitsValue ['0', '0'] = 0 := rfl
      omega
    · intro h
      rw [h]
      exact ⟨by omega, rfl⟩
  have hsign : (decide (s < 0) && !decide (n / 10 ^ 5 = 0)) = decide (s.tdiv (10 ^ 5) < 0) := by
    rcases lt_or_ge s 0 with h | h
    · have hle : 0 ≤ (-s).tdiv (10 ^ 5) := Int.tdiv_nonneg (by omega) (by norm_num)
      rw [Int.neg_tdiv] at hle
      simp only [h, decide_true, Bool.true_and, ← decide_not, decide_eq_decide]
      omega
    · have hle : 0 ≤ s.tdiv (10 ^ 5) := Int.tdiv_nonneg h (by norm_num)
      simp only [not_lt.2 h, not_lt.2 hle, decide_false, Bool.false_and]
  simp only [toUsdc, hn, hwhole, hfraction, hrepr, htake, Int.natCast_eq_zero, hzero, hsign, cents,
    fixed, text, hcents, hdiv, Option.map_some, Option.getD_some]

theorem trimWhiteSpace_text (d : Decimal) : trimWhiteSpace d.text = d.text := by
  have hdigits : ∀ {ds : List Char}, AreDigits ds → ∀ c ∈ ds, isStrWhiteSpace c = false :=
    fun h c hc => not_isStrWhiteSpace (by have := isDigit_bounds (h c hc); omega)
  have hint := hdigits d.int_digits
  have hfrac := hdigits d.frac_digits
  refine trimWhiteSpace_eq fun c hc => ?_
  rcases List.mem_append.1 hc with hc | hc
  · rcases List.mem_append.1 hc with hc | hc
    · cases hn : d.negative <;> simp_all [isStrWhiteSpace]
    · exact hint c hc
  · rcases hf : d.frac with _ | f
    · simp [hf] at hc
    · simp only [hf, Option.map_some, Option.getD_some, List.mem_cons] at hc hfrac
      rcases hc with rfl | hc
      · decide
      · exact hfrac c hc

theorem fromUsdc_toUsdc (s : ℤ) : fromUsdc (toUsdc s) = .ok (s.tdiv (10 ^ 5) * 10 ^ 5) := by
  have htext : trimWhiteSpace (toUsdc s).toList = (cents s).text := by
    rw [toUsdc_eq, String.toList_ofList, trimWhiteSpace_text]
  have hvalue : (cents s).value * 10 ^ 7 = ((s.tdiv (10 ^ 5) * 10 ^ 5 : ℤ) : ℚ) := by
    rw [cents, value_fixed]
    push_cast
    ring
  rw [fromUsdc_text htext, hvalue, truncate_intCast]

theorem cents_tdiv_mul (s : ℤ) : cents (s.tdiv (10 ^ 5) * 10 ^ 5) = cents s := by
  rw [cents, Int.mul_tdiv_cancel _ (by norm_num), cents]

/-- Cents, as the truncation of the amount's value. -/
theorem value_cents (s : ℤ) :
    (cents s).value = truncate ((s : ℚ) / 10 ^ 7 * 10 ^ 2) / 10 ^ 2 := by
  have hq : (s : ℚ) / 10 ^ 7 * 10 ^ 2 = (s : ℚ) / 10 ^ 5 := by ring
  have htrunc : truncate ((s : ℚ) / 10 ^ 5) = s.tdiv (10 ^ 5) := by
    have hnat (n : ℕ) : truncate ((n : ℚ) / 10 ^ 5) = (n / 10 ^ 5 : ℕ) := by
      exact_mod_cast truncate_natCast_div n (10 ^ 5)
    rcases s.eq_nat_or_neg with ⟨n, rfl | rfl⟩
    · rw [Int.cast_natCast, hnat]
      rfl
    · rw [Int.cast_neg, neg_div, truncate_neg, Int.neg_tdiv, Int.cast_natCast, hnat]
      rfl
  rw [cents, value_fixed, hq, htrunc]

/-- What `fromUsdc` accepts and returns, what `toUsdc` writes, and what the one makes of the
other. -/
theorem usdc_codec :
    (∀ u, (∃ s, fromUsdc u = .ok s) ↔ ∃ d : Decimal, trimWhiteSpace u.toList = d.text) ∧
    (∀ u (d : Decimal), trimWhiteSpace u.toList = d.text →
      fromUsdc u = .ok (truncate (d.value * 10 ^ 7))) ∧
    (∀ s, toUsdc s ≠ "-0.00" ∧ ∃ d : Decimal, toUsdc s = String.ofList d.text ∧
      d.frac.map List.length = some 2 ∧
      d.int = Nat.toDigits 10 (s.natAbs / 10 ^ 7) ∧
      d.value = truncate ((s : ℚ) / 10 ^ 7 * 10 ^ 2) / 10 ^ 2 ∧
      (d.negative = true ↔ d.value < 0)) ∧
    (∀ s, fromUsdc (toUsdc s) = .ok (s.tdiv (10 ^ 5) * 10 ^ 5)) ∧
    (∀ s, (fromUsdc (toUsdc s)).map toUsdc = .ok (toUsdc s)) ∧
    (∀ u v (d e : Decimal), trimWhiteSpace u.toList = d.text → trimWhiteSpace v.toList = e.text →
      d.value ≤ e.value → ∃ a b, fromUsdc u = .ok a ∧ fromUsdc v = .ok b ∧ a ≤ b) := by
  refine ⟨fun u => ⟨?_, ?_⟩, fun u d => fromUsdc_text, fun s => ⟨?_, cents s, toUsdc_eq s, ?_, ?_,
    value_cents s, ?_⟩, fromUsdc_toUsdc, fun s => ?_, fun u v d e hu hv hle => ?_⟩
  · rintro ⟨s, hs⟩
    by_contra hno
    rw [fromUsdc_of_not_text fun d hd => hno ⟨d, hd⟩] at hs
    cases hs
  · rintro ⟨d, hd⟩
    exact ⟨_, fromUsdc_text hd⟩
  · intro h
    have hzero : fromUsdc "-0.00" = .ok 0 := rfl
    have hread := fromUsdc_toUsdc s
    rw [h, hzero] at hread
    have hcents : s.tdiv (10 ^ 5) = 0 := by simpa using (Except.ok.inj hread).symm
    rw [toUsdc_eq, cents, hcents] at h
    exact absurd h (by decide)
  · simp only [cents, fixed, Option.map_some]
    rw [length_paddedDigits two_pos (Nat.mod_lt _ (by positivity))]
  · have hdiv : (s.tdiv (10 ^ 5)).natAbs / 10 ^ 2 = s.natAbs / 10 ^ 7 := by
      rw [Int.natAbs_tdiv]
      exact Nat.div_div_eq_div_mul ..
    simp only [cents, fixed, hdiv]
  · rw [cents, value_fixed, div_lt_iff₀ (by positivity), zero_mul, Int.cast_lt_zero]
    simp [fixed]
  · rw [fromUsdc_toUsdc, Except.map, toUsdc_eq, cents_tdiv_mul, toUsdc_eq]
  · exact ⟨_, _, fromUsdc_text hu, fromUsdc_text hv,
      truncate_mono (mul_le_mul_of_nonneg_right hle (by positivity))⟩

end ToUsdc

section Discount

theorem fundedValueStroops_eq {f b : ℤ} (hf : 0 ≤ f) (hb : 0 ≤ b) :
    fundedValueStroops f (.finite b) = .ok (f - (f * b + 9999) / 10000) := by
  have hnum : 0 ≤ f * b + 10000 - 1 := by have := mul_nonneg hf hb; omega
  simp only [fundedValueStroops, Double.isInteger, Js.toBigInt, Int.floor_intCast, decide_true,
    Bool.not_true, Bool.false_eq_true, if_false, if_true, bpsDenominator, bind, Except.bind]
  rw [Int.tdiv_eq_ediv_of_nonneg hnum, show f * b + 10000 - 1 = f * b + 9999 by ring]

theorem fee_le_iff {p fee : ℤ} : (p + 9999) / 10000 ≤ fee ↔ (p : ℚ) / 10000 ≤ fee := by
  rw [div_le_iff₀ (by norm_num)]
  have hcast : (p : ℚ) ≤ fee * 10000 ↔ p ≤ fee * 10000 := by exact_mod_cast Iff.rfl
  rw [hcast]
  omega

theorem payout_eq_floor (f b : ℤ) :
    f - (f * b + 9999) / 10000 = ⌊((f : ℚ) * (10000 - b)) / 10000⌋ := by
  have hcast : ((f : ℚ) * (10000 - b)) / 10000 = ((f * (10000 - b) : ℤ) : ℚ) / (10000 : ℕ) := by
    push_cast
    ring
  rw [hcast, Rat.floor_intCast_div_natCast, show f * (10000 - b) = 10000 * f - f * b by ring]
  push_cast
  omega

/-- The payout of a discount rate is the discounted face value rounded down, between nothing and
the face value; it grows with the face value and falls with the rate, and the fee is the least
whole number of stroops the rate asks for. -/
theorem fundedValueStroops_discount {f b : ℤ} (hf : 0 ≤ f) (hb : 0 ≤ b) (hb' : b ≤ 10000) :
    ∃ v, fundedValueStroops f (.finite b) = .ok v ∧
      v = ⌊((f : ℚ) * (10000 - b)) / 10000⌋ ∧ 0 ≤ v ∧ v ≤ f ∧
      IsLeast {fee : ℤ | ((f * b : ℤ) : ℚ) / 10000 ≤ fee} (f - v) ∧
      (∀ f' v', f ≤ f' → fundedValueStroops f' (.finite b) = .ok v' → v ≤ v') ∧
      (∀ (b' : ℤ) v', b ≤ b' → fundedValueStroops f (.finite b') = .ok v' → v' ≤ v) := by
  have hfee : 0 ≤ f * b := mul_nonneg hf hb
  have hfull : f * b ≤ f * 10000 := mul_le_mul_of_nonneg_left hb' hf
  refine ⟨_, fundedValueStroops_eq hf hb, payout_eq_floor f b, by omega, by omega, ?_, ?_, ?_⟩
  · rw [sub_sub_cancel]
    exact ⟨fee_le_iff.1 le_rfl, fun fee h => fee_le_iff.2 h⟩
  · intro f' v' hle hv
    rw [fundedValueStroops_eq (hf.trans hle) hb] at hv
    obtain rfl := Except.ok.inj hv
    have hstep : f' * b - f * b ≤ (f' - f) * 10000 := by
      rw [← sub_mul]
      exact mul_le_mul_of_nonneg_left hb' (by omega)
    omega
  · intro b' v' hle hv
    rw [fundedValueStroops_eq hf (hb.trans hle)] at hv
    obtain rfl := Except.ok.inj hv
    have hmore : f * b ≤ f * b' := mul_le_mul_of_nonneg_left hle hf
    omega

theorem fundedValueStroops_five_percent : ∃ v, fundedValueStroops 1000000001 (.finite (500 : ℤ))
    = .ok v ∧ 0 ≤ v ∧ v ≤ 1000000001 := by
  obtain ⟨v, hv, -, hnonneg, hle, -⟩ := fundedValueStroops_discount (f := 1000000001) (b := 500)
    (by decide) (by decide) (by decide)
  exact ⟨v, hv, hnonneg, hle⟩

end Discount

end TrusTrove
