import Mathlib

/-!
# Decimals as they are written

A decimal is a sign, digits, and maybe a point with digits after it. Cutting the digits of a number
short divides it by a power of ten (`value_take`), so padding or cutting the fraction to a fixed
number of places truncates the decimal toward zero (`fixedDigits_value`), and a whole number of
units of the last place has one text with that many places (`fixed`).
-/

namespace Decimal

/-- The natural number a digit string denotes. -/
def digitsValue (ds : List Char) : ℕ := Nat.ofDigitChars 10 ds 0

def AreDigits (ds : List Char) : Prop := ∀ c ∈ ds, c.isDigit = true

@[simp] theorem digitsValue_nil : digitsValue [] = 0 := rfl

theorem digitsValue_append (l m : List Char) :
    digitsValue (l ++ m) = digitsValue l * 10 ^ m.length + digitsValue m := by
  rw [digitsValue, Nat.ofDigitChars_append, Nat.ofDigitChars_eq_ofDigitChars_zero, Nat.mul_comm]
  rfl

@[simp] theorem digitsValue_replicate_zero (n : ℕ) : digitsValue (List.replicate n '0') = 0 := by
  simp [digitsValue]

@[simp] theorem digitsValue_toDigits (n : ℕ) : digitsValue (Nat.toDigits 10 n) = n :=
  Nat.ofDigitChars_ten_toDigits

theorem digitsValue_singleton_lt {c : Char} (h : c.isDigit = true) : digitsValue [c] < 10 := by
  have hc : 48 ≤ c.toNat ∧ c.toNat ≤ 57 := by
    simpa [Char.isDigit, UInt32.le_iff_toNat_le] using h
  have hvalue : digitsValue [c] = c.toNat - 48 := by simp [digitsValue, Nat.ofDigitChars_cons]
  omega

theorem AreDigits.append {l m : List Char} (hl : AreDigits l) (hm : AreDigits m) :
    AreDigits (l ++ m) := fun c hc => (List.mem_append.1 hc).elim (hl c) (hm c)

theorem areDigits_toDigits (n : ℕ) : AreDigits (Nat.toDigits 10 n) := fun _ hc =>
  Nat.isDigit_of_mem_toDigits (by omega) (by omega) hc

theorem areDigits_replicate_zero (n : ℕ) : AreDigits (List.replicate n '0') := fun _ hc =>
  List.eq_of_mem_replicate hc ▸ rfl

theorem digitsValue_lt : ∀ {ds : List Char}, AreDigits ds → digitsValue ds < 10 ^ ds.length
  | [], _ => by simp
  | c :: ds, h => by
    have hhead : digitsValue [c] < 10 := digitsValue_singleton_lt (h c (by simp))
    have htail : digitsValue ds < 10 ^ ds.length :=
      digitsValue_lt fun d hd => h d (by simp [hd])
    have hsplit := digitsValue_append [c] ds
    rw [List.singleton_append] at hsplit
    rw [hsplit, List.length_cons, pow_succ]
    nlinarith

/-- The leading digits alone: the number divided by a power of ten. -/
theorem digitsValue_take {ds : List Char} (h : AreDigits ds) (j : ℕ) :
    digitsValue (ds.take j) = digitsValue ds / 10 ^ (ds.length - j) := by
  have hsplit := digitsValue_append (ds.take j) (ds.drop j)
  have hrest : digitsValue (ds.drop j) < 10 ^ (ds.drop j).length :=
    digitsValue_lt fun c hc => h c (List.mem_of_mem_drop hc)
  rw [List.take_append_drop, List.length_drop] at hsplit
  rw [List.length_drop] at hrest
  rw [hsplit, Nat.add_comm, Nat.add_mul_div_right _ _ (by positivity), Nat.div_eq_of_lt hrest,
    Nat.zero_add]

theorem char_eq_of_value {c d : Char} (hc : c.isDigit = true) (hd : d.isDigit = true)
    (h : digitsValue [c] = digitsValue [d]) : c = d := by
  have hbounds : ∀ x : Char, x.isDigit = true → 48 ≤ x.toNat := fun x hx => by
    have : 48 ≤ x.toNat ∧ x.toNat ≤ 57 := by
      simpa [Char.isDigit, UInt32.le_iff_toNat_le] using hx
    exact this.1
  have hvalue : c.toNat - 48 = d.toNat - 48 := by simpa [digitsValue, Nat.ofDigitChars_cons] using h
  have := hbounds c hc
  have := hbounds d hd
  exact Char.toNat_inj.1 (by omega)

/-- Two digit strings of one length and one value are the same. -/
theorem digits_eq_of_value : ∀ {l m : List Char}, AreDigits l → AreDigits m →
    l.length = m.length → digitsValue l = digitsValue m → l = m
  | [], [], _, _, _, _ => rfl
  | c :: l, d :: m, hl, hm, hlen, hval => by
    have hc := hl c (by simp)
    have hd := hm d (by simp)
    have hl' : AreDigits l := fun x hx => hl x (by simp [hx])
    have hm' : AreDigits m := fun x hx => hm x (by simp [hx])
    have hlen' : l.length = m.length := by simpa using hlen
    have hlt := digitsValue_lt hl'
    have hmt := digitsValue_lt hm'
    rw [← List.singleton_append, digitsValue_append, ← List.singleton_append (l := m),
      digitsValue_append, ← hlen'] at hval
    rw [← hlen'] at hmt
    have hhead : digitsValue [c] = digitsValue [d] := by
      have hdiv := congrArg (· / 10 ^ l.length) hval
      simpa [Nat.add_comm (_ * _), Nat.add_mul_div_right, Nat.div_eq_of_lt, hlt, hmt] using hdiv
    have htail : digitsValue l = digitsValue m := by rw [hhead] at hval; omega
    rw [char_eq_of_value hc hd hhead, digits_eq_of_value hl' hm' hlen' htail]

/-- A fraction padded or cut to `k` places. -/
def fixedDigits (k : ℕ) (frac : List Char) : List Char := (frac.rightpad k '0').take k

theorem length_fixedDigits (k : ℕ) (frac : List Char) : (fixedDigits k frac).length = k := by
  simp [fixedDigits, List.rightpad]
  omega

theorem areDigits_fixedDigits {frac : List Char} (h : AreDigits frac) (k : ℕ) :
    AreDigits (fixedDigits k frac) := fun c hc =>
  (h.append (areDigits_replicate_zero _)) c (List.mem_of_mem_take hc)

theorem digitsValue_fixedDigits {frac : List Char} (h : AreDigits frac) (k : ℕ) :
    digitsValue (fixedDigits k frac) = digitsValue frac * 10 ^ k / 10 ^ frac.length := by
  rw [fixedDigits, List.rightpad, digitsValue_take (h.append (areDigits_replicate_zero _)),
    digitsValue_append, digitsValue_replicate_zero, List.length_replicate, Nat.add_zero,
    List.length_append, List.length_replicate]
  rcases le_total frac.length k with hle | hle
  · have hpow : 10 ^ k = 10 ^ (k - frac.length) * 10 ^ frac.length := by
      rw [← pow_add, Nat.sub_add_cancel hle]
    rw [Nat.add_sub_cancel' hle, Nat.sub_self, pow_zero, Nat.div_one, hpow, ← Nat.mul_assoc,
      Nat.mul_div_cancel _ (by positivity)]
  · have hpow : 10 ^ frac.length = 10 ^ (frac.length - k) * 10 ^ k := by
      rw [← pow_add, Nat.sub_add_cancel hle]
    rw [Nat.sub_eq_zero_of_le hle, pow_zero, Nat.mul_one, Nat.add_zero, hpow,
      Nat.mul_div_mul_right _ _ (by positivity)]

/-- A number with zeros in front, down to `k` places. -/
def paddedDigits (k n : ℕ) : List Char := (Nat.toDigits 10 n).leftpad k '0'

theorem areDigits_paddedDigits (k n : ℕ) : AreDigits (paddedDigits k n) :=
  (areDigits_replicate_zero _).append (areDigits_toDigits n)

theorem length_paddedDigits {k n : ℕ} (hk : 0 < k) (h : n < 10 ^ k) :
    (paddedDigits k n).length = k := by
  have hle : (Nat.toDigits 10 n).length ≤ k := (Nat.length_toDigits_le_iff (by omega) hk).2 h
  simp only [paddedDigits, List.leftpad, List.length_append, List.length_replicate]
  omega

@[simp] theorem digitsValue_paddedDigits (k n : ℕ) : digitsValue (paddedDigits k n) = n := by
  simp [paddedDigits, List.leftpad, digitsValue_append]

theorem take_paddedDigits {j k n : ℕ} (hj : 0 < j) (hjk : j ≤ k) (h : n < 10 ^ k) :
    (paddedDigits k n).take j = paddedDigits j (n / 10 ^ (k - j)) := by
  have hlen := length_paddedDigits (hj.trans_le hjk) h
  have hlt : n / 10 ^ (k - j) < 10 ^ j := by
    rw [Nat.div_lt_iff_lt_mul (by positivity), ← pow_add, Nat.add_sub_cancel' hjk]
    exact h
  refine digits_eq_of_value (fun c hc => areDigits_paddedDigits k n c (List.mem_of_mem_take hc))
    (areDigits_paddedDigits j _) ?_ ?_
  · rw [List.length_take, hlen, length_paddedDigits hj hlt, Nat.min_eq_left hjk]
  · rw [digitsValue_take (areDigits_paddedDigits k n), hlen, digitsValue_paddedDigits,
      digitsValue_paddedDigits]

end Decimal

section Truncate

/-- A rational rounded toward zero. -/
def truncate (q : ℚ) : ℤ := if 0 ≤ q then ⌊q⌋ else ⌈q⌉

theorem truncate_of_nonneg {q : ℚ} (h : 0 ≤ q) : truncate q = ⌊q⌋ := if_pos h

theorem truncate_neg (q : ℚ) : truncate (-q) = -truncate q := by
  rcases lt_trichotomy q 0 with h | rfl | h
  · rw [truncate, if_pos (by linarith), truncate, if_neg (by linarith), Int.floor_neg]
  · simp [truncate]
  · rw [truncate, if_neg (by linarith), truncate, if_pos h.le, Int.ceil_neg]

theorem truncate_mono : Monotone truncate := by
  intro p q h
  unfold truncate
  split_ifs with hp hq hq
  · exact Int.floor_mono h
  · exact absurd (hp.trans h) hq
  · exact (Int.ceil_le.2 (by push_cast; linarith)).trans (Int.floor_nonneg.2 hq)
  · exact Int.ceil_mono h

theorem truncate_natCast_div (n d : ℕ) : truncate ((n : ℚ) / d) = (n / d : ℕ) := by
  rw [truncate_of_nonneg (by positivity), ← Nat.floor_div_eq_div (K := ℚ),
    Int.natCast_floor_eq_floor (by positivity)]

@[simp] theorem truncate_intCast (z : ℤ) : truncate z = z := by
  simp [truncate]

end Truncate

/-- A decimal as it is written. -/
structure Decimal where
  negative : Bool
  int : List Char
  frac : Option (List Char)
  int_ne_nil : int ≠ []
  int_digits : Decimal.AreDigits int
  frac_ne_nil : frac ≠ some []
  frac_digits : Decimal.AreDigits (frac.getD [])

namespace Decimal

def sign (negative : Bool) : ℤ := if negative then -1 else 1

def text (d : Decimal) : List Char :=
  (if d.negative then ['-'] else []) ++ d.int ++ (d.frac.map ('.' :: ·)).getD []

/-- The number after the point, in units of the last place. -/
def value (d : Decimal) : ℚ :=
  sign d.negative * (digitsValue d.int
    + digitsValue (d.frac.getD []) / 10 ^ (d.frac.getD []).length)

/-- The digits before the point and `k` places after it: the decimal truncated toward zero. -/
theorem truncate_value_mul (d : Decimal) (k : ℕ) :
    truncate (d.value * 10 ^ k)
      = sign d.negative * digitsValue (d.int ++ fixedDigits k (d.frac.getD [])) := by
  set f := d.frac.getD [] with hf
  have hquot : ((digitsValue d.int : ℚ) + digitsValue f / 10 ^ f.length) * 10 ^ k
      = ((digitsValue d.int * 10 ^ k * 10 ^ f.length + digitsValue f * 10 ^ k : ℕ) : ℚ)
        / (10 ^ f.length : ℕ) := by
    push_cast
    field_simp
  have hdiv : (digitsValue d.int * 10 ^ k * 10 ^ f.length + digitsValue f * 10 ^ k) / 10 ^ f.length
      = digitsValue (d.int ++ fixedDigits k f) := by
    rw [digitsValue_append, length_fixedDigits, digitsValue_fixedDigits d.frac_digits,
      Nat.add_comm, Nat.add_mul_div_right _ _ (by positivity), Nat.add_comm]
  have hpos : truncate (((digitsValue d.int : ℚ) + digitsValue f / 10 ^ f.length) * 10 ^ k)
      = digitsValue (d.int ++ fixedDigits k f) := by
    rw [hquot, truncate_natCast_div, hdiv]
  rw [value, ← hf]
  cases d.negative
  · simpa [sign] using hpos
  · simp only [sign, if_true, Int.cast_neg, Int.cast_one, neg_mul, one_mul, truncate_neg, hpos]

/-- `z` units of the `k`-th place, written with `k` places. -/
def fixed (k : ℕ) (hk : 0 < k) (z : ℤ) : Decimal where
  negative := z < 0
  int := Nat.toDigits 10 (z.natAbs / 10 ^ k)
  frac := some (paddedDigits k (z.natAbs % 10 ^ k))
  int_ne_nil := Nat.toDigits_ne_nil
  int_digits := areDigits_toDigits _
  frac_ne_nil h := by
    have hlen := length_paddedDigits hk (Nat.mod_lt z.natAbs (by positivity : 0 < 10 ^ k))
    rw [Option.some.inj h] at hlen
    exact hk.ne hlen
  frac_digits := areDigits_paddedDigits _ _

theorem value_fixed (k : ℕ) (hk : 0 < k) (z : ℤ) : (fixed k hk z).value = z / 10 ^ k := by
  have hlen := length_paddedDigits hk (Nat.mod_lt z.natAbs (by positivity : 0 < 10 ^ k))
  have hparts : ((z.natAbs / 10 ^ k : ℕ) : ℚ) + ((z.natAbs % 10 ^ k : ℕ) : ℚ) / 10 ^ k
      = (z.natAbs : ℚ) / 10 ^ k := by
    have hdm : ((10 ^ k * (z.natAbs / 10 ^ k) + z.natAbs % 10 ^ k : ℕ) : ℚ) = z.natAbs := by
      exact_mod_cast Nat.div_add_mod z.natAbs (10 ^ k)
    rw [← hdm]
    push_cast
    field_simp
  have habs : (sign (z < 0) : ℚ) * z.natAbs = z := by
    rcases lt_or_ge z 0 with h | h
    · simp [sign, h, abs_of_neg (Int.cast_lt_zero.2 h : (z : ℚ) < 0)]
    · simp [sign, not_lt.2 h, abs_of_nonneg (Int.cast_nonneg h : (0 : ℚ) ≤ z)]
  simp only [value, fixed, Option.getD_some, digitsValue_toDigits, digitsValue_paddedDigits, hlen,
    hparts]
  rw [mul_div_assoc', habs]

end Decimal
