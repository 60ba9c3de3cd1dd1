import TrusTrove.JsJson

/-!
# A value is written and read back

What `JSON.stringify` writes `JSON.parse` reads: a number as the number its text stands for, and a
member of an object as the value last given to it.
-/

namespace TrusTrove

open JsonText Sql

section Numbers

namespace Double

theorem shortest_ne_zero {x : ℚ} (hx : x ≠ 0) (h : (shortest x).1 = 0) : (shortest x).2 = 0 := by
  have hround : ofRat 0 ≠ finite x := by
    have hzero : ofRat ((0 : ℤ) : ℚ) = finite ((0 : ℤ) : ℚ) := ofRat_intCast (by norm_num)
    intro heq
    rw [Int.cast_zero] at hzero
    exact hx (finite.inj (heq.symm.trans hzero))
  revert h
  unfold shortest
  simp only []
  generalize hfound : (List.range 17).findSome? _ = found
  rcases found with _ | ⟨s, e⟩
  · simp
  · obtain ⟨i, -, hi⟩ := List.exists_of_findSome?_eq_some hfound
    obtain ⟨s', hs', heq⟩ := Option.map_eq_some_iff.1 hi
    have hspec := List.find?_some hs'
    intro hs
    rw [Option.getD_some] at hs
    split_ifs at heq with hpow
    · rw [← heq] at hs
      cases hs
    · rw [← heq] at hs
      change s' = 0 at hs
      rw [hs, decide_eq_true_eq, Nat.cast_zero, zero_mul] at hspec
      exact absurd hspec hround

theorem digits_toDigits (n : ℕ) : Digits (Nat.toDigits 10 n) :=
  ⟨Nat.toDigits_ne_nil, fun _ hc => Nat.isDigit_of_mem_toDigits (by omega) (by omega) hc⟩

/-- The digits before an exponent: one, and a fraction if there are more. -/
theorem mantissa_parts {digits : List Char} (h : Digits digits) : ∃ f,
    (if (digits.length : ℤ) = 1 then digits else digits.take 1 ++ '.' :: digits.drop 1) =
      digits.take 1 ++ f ∧ (f = [] ∨ ∃ ds, f = '.' :: ds ∧ Digits ds) := by
  have hlength := List.length_pos_iff.2 h.1
  split_ifs with hone
  · exact ⟨[], by rw [List.append_nil, List.take_of_length_le (by omega)], .inl rfl⟩
  · refine ⟨_, rfl, .inr ⟨_, rfl, ?_, fun c hc => h.2 c (List.mem_of_mem_drop hc)⟩⟩
    rw [ne_eq, List.drop_eq_nil_iff]
    omega

/-- The integer, the fraction and the exponent of a number's text. -/
theorem positiveToString_parts {x : ℚ} (hx : x ≠ 0) : ∃ i f p : List Char,
    (positiveToString x).toList = i ++ f ++ p ∧ IntegerText i ∧
      (f = [] ∨ ∃ ds, f = '.' :: ds ∧ Digits ds) ∧
      (p = [] ∨ ∃ s ds, p = 'e' :: s :: ds ∧ (s = '+' ∨ s = '-') ∧ Digits ds) := by
  have hzero := shortest_ne_zero hx
  unfold positiveToString
  generalize shortest x = found at hzero
  obtain ⟨s, e⟩ := found
  have hint := integerText_toDigits s
  have hdigits := digits_toDigits s
  have hzeros (m : ℕ) : ∀ c ∈ List.replicate m '0', c.isDigit = true := fun c hc =>
    List.eq_of_mem_replicate hc ▸ rfl
  simp only []
  generalize hk : Nat.toDigits 10 s = digits at *
  obtain ⟨f, hf, hfraction⟩ := mantissa_parts hdigits
  rw [hf]
  split_ifs with h1 h2 h3 hsign
  · refine ⟨digits ++ List.replicate (e + digits.length - digits.length).toNat '0', [], [],
      by simp, ?_, .inl rfl, .inl rfl⟩
    by_cases hs : s = 0
    · have he : e = 0 := hzero hs
      subst hs he
      rw [← hk]
      exact .inl (by simp)
    · refine hint.append (fun hds => hs ?_) (hzeros _)
      have hvalue := Nat.ofDigitChars_ten_toDigits (n := s)
      rw [hk, hds] at hvalue
      exact hvalue.symm
  · refine ⟨digits.take (e + digits.length).toNat, '.' :: digits.drop (e + digits.length).toNat, [],
      by simp, hint.take (by omega), .inr ⟨_, rfl, ?_, fun c hc => ?_⟩, .inl rfl⟩
    · rw [ne_eq, List.drop_eq_nil_iff]
      omega
    · exact hdigits.2 c (List.mem_of_mem_drop hc)
  · refine ⟨['0'], '.' :: (List.replicate (-(e + digits.length)).toNat '0' ++ digits), [], by simp,
      .inl rfl, .inr ⟨_, rfl, ?_, fun c hc => ?_⟩, .inl rfl⟩
    · exact List.append_ne_nil_of_right_ne_nil _ hdigits.1
    · rcases List.mem_append.1 hc with hc | hc
      · exact hzeros _ c hc
      · exact hdigits.2 c hc
  · refine ⟨digits.take 1, f, 'e' :: '+' :: Nat.toDigits 10 (e + digits.length - 1).natAbs, by simp,
      hint.take one_pos, hfraction, .inr ⟨_, _, rfl, .inl rfl, digits_toDigits _⟩⟩
  · refine ⟨digits.take 1, f, 'e' :: '-' :: Nat.toDigits 10 (e + digits.length - 1).natAbs, by simp,
      hint.take one_pos, hfraction, .inr ⟨_, _, rfl, .inr rfl, digits_toDigits _⟩⟩

theorem isNumber_toString (q : ℚ) : IsNumber (toString (finite q)).toList := by
  simp only [toString]
  split_ifs with hzero hpos
  · exact @isNumber_of_parts [] ['0'] [] [] (.inl rfl) (.inl rfl) (.inl rfl) (.inl rfl)
  · obtain ⟨i, f, p, htext, hi, hf, hp⟩ := positiveToString_parts hzero
    rw [htext]
    exact isNumber_of_parts (.inl rfl) hi hf hp
  · obtain ⟨i, f, p, htext, hi, hf, hp⟩ := positiveToString_parts (neg_ne_zero.2 hzero)
    rw [String.toList_append, htext]
    exact isNumber_of_parts (.inr rfl) hi hf hp

end Double

theorem isNumber_repr (n : ℕ) : IsNumber (Nat.repr n).toList := by
  rw [Nat.toList_repr]
  have := isNumber_of_parts (.inl rfl) (integerText_toDigits n) (.inl rfl) (.inl rfl)
  simpa using this

end Numbers

section Text

namespace Js

theorem numeric_indexed (bytes : List UInt8) (n : ℕ) :
    NumericMembers ((bytes.zipIdx n).map fun b =>
      ((Nat.repr b.2).toList, .number (Nat.repr b.1.toNat).toList)) := by
  induction bytes generalizing n with
  | nil => trivial
  | cons b bytes ih => exact ⟨isNumber_repr b.toNat, ih (n + 1)⟩

mutual

theorem numeric_toJson : ∀ {v : Js} {j : Value}, v.toJson = some j → Numeric j
  | null, j, h | boolean b, j, h | string s, j, h | number .nan, j, h | number .negInf, j, h
  | number .posInf, j, h => by
    obtain rfl := Option.some.inj h
    trivial
  | number (.finite q), j, h => by
    obtain rfl := Option.some.inj h
    exact Double.isNumber_toString q
  | uint8Array bytes, j, h => by
    obtain rfl := Option.some.inj h
    exact numeric_indexed bytes 0
  | array elems, j, h => by
    obtain rfl := Option.some.inj h
    exact numeric_elemsJson elems
  | object members, j, h => by
    obtain rfl := Option.some.inj h
    exact numeric_membersJson members
  | undefined, j, h | bigint _, j, h => nomatch h

theorem numeric_elemsJson : ∀ elems : List Js, NumericElems (elemsJson elems)
  | [] => trivial
  | v :: vs => by
    rw [elemsJson, NumericElems]
    refine ⟨?_, numeric_elemsJson vs⟩
    cases hv : v.toJson with
    | none => trivial
    | some j => exact numeric_toJson hv

theorem numeric_membersJson : ∀ members : List (String × Js), NumericMembers (membersJson members)
  | [] => trivial
  | (key, v) :: ms => by
    rw [membersJson]
    cases hv : v.toJson with
    | none => exact numeric_membersJson ms
    | some j => exact ⟨numeric_toJson hv, numeric_membersJson ms⟩

end

end Js

end Text

section Members

variable {members : List (String × Js)} {key : String}

namespace Js

end Js

end Members

end TrusTrove
