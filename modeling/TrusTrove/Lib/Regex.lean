import Mathlib

/-!
# Patterns over classes of letters

Regular expressions as programs write them: a class of letters, one or more, an optional part, a
literal. What each matches is said of the letters of the word.
-/

namespace Regex

open RegularExpression

variable {α : Type*}

/-- `[abc]` -/
def oneOf (cs : List α) : RegularExpression α := cs.foldr (fun c P => char c + P) 0

/-- `P+` -/
def oneOrMore (P : RegularExpression α) : RegularExpression α := P * star P

/-- `P?` -/
def opt (P : RegularExpression α) : RegularExpression α := 1 + P

/-- The letters of a word one after another. -/
def literal (s : List α) : RegularExpression α := s.foldr (fun c P => char c * P) 1

theorem mem_mul {P Q : RegularExpression α} {s : List α} :
    s ∈ (P * Q).matches' ↔ ∃ t ∈ P.matches', ∃ u ∈ Q.matches', t ++ u = s := Language.mem_mul

theorem mem_char {c : α} {s : List α} : s ∈ (char c).matches' ↔ s = [c] := Iff.rfl

theorem mem_opt {P : RegularExpression α} {s : List α} :
    s ∈ (opt P).matches' ↔ s = [] ∨ s ∈ P.matches' := Iff.rfl

theorem mem_oneOf {cs : List α} {s : List α} :
    s ∈ (oneOf cs).matches' ↔ ∃ c ∈ cs, s = [c] := by
  induction cs with
  | nil => simp [oneOf, matches'_zero]
  | cons c cs ih =>
    rw [List.exists_mem_cons_iff, ← ih]
    rfl

theorem mem_literal {w s : List α} : s ∈ (literal w).matches' ↔ s = w := by
  induction w generalizing s with
  | nil => exact Language.mem_one s
  | cons c w ih =>
    have hcons : literal (c :: w) = char c * literal w := rfl
    rw [hcons, mem_mul]
    constructor
    · rintro ⟨t, ht, u, hu, rfl⟩
      rw [mem_char.1 ht, ih.1 hu, List.singleton_append]
    · rintro rfl
      exact ⟨[c], rfl, w, ih.2 rfl, rfl⟩

/-- Letters of a class, any number of them. -/
theorem mem_star_oneOf {cs : List α} {s : List α} :
    s ∈ (star (oneOf cs)).matches' ↔ ∀ c ∈ s, c ∈ cs := by
  rw [matches'_star, Language.mem_kstar]
  constructor
  · rintro ⟨words, rfl, hwords⟩ c hc
    obtain ⟨w, hw, hcw⟩ := List.mem_flatten.1 hc
    obtain ⟨d, hd, rfl⟩ := mem_oneOf.1 (hwords w hw)
    rwa [List.mem_singleton.1 hcw]
  · intro h
    refine ⟨s.map fun c => [c], by simp [← List.flatMap_def], ?_⟩
    intro w hw
    obtain ⟨c, hc, rfl⟩ := List.mem_map.1 hw
    exact mem_oneOf.2 ⟨c, h c hc, rfl⟩

theorem mem_oneOrMore_oneOf {cs : List α} {s : List α} :
    s ∈ (oneOrMore (oneOf cs)).matches' ↔ s ≠ [] ∧ ∀ c ∈ s, c ∈ cs := by
  rw [oneOrMore, mem_mul]
  constructor
  · rintro ⟨t, ht, u, hu, rfl⟩
    obtain ⟨c, hc, rfl⟩ := mem_oneOf.1 ht
    simpa [hc] using mem_star_oneOf.1 hu
  · rintro ⟨hne, h⟩
    rcases s with _ | ⟨c, s⟩
    · exact absurd rfl hne
    · exact ⟨[c], mem_oneOf.2 ⟨c, h c (by simp), rfl⟩, s,
        mem_star_oneOf.2 fun d hd => h d (by simp [hd]), rfl⟩

/-- Letters of a class, a fixed number of them. -/
theorem mem_pow_oneOf {cs : List α} {n : ℕ} {s : List α} :
    s ∈ (oneOf cs ^ n).matches' ↔ s.length = n ∧ ∀ c ∈ s, c ∈ cs := by
  rw [matches'_pow]
  induction n generalizing s with
  | zero => rw [pow_zero, Language.mem_one, List.length_eq_zero_iff]; simp +contextual
  | succ n ih =>
    rw [pow_succ', Language.mem_mul]
    constructor
    · rintro ⟨t, ht, u, hu, rfl⟩
      obtain ⟨c, hc, rfl⟩ := mem_oneOf.1 ht
      obtain ⟨hlen, hu⟩ := ih.1 hu
      simpa [hc, hlen] using hu
    · rintro ⟨hlen, h⟩
      rcases s with _ | ⟨c, s⟩
      · simp at hlen
      · exact ⟨[c], mem_oneOf.2 ⟨c, h c (by simp), rfl⟩, s,
          ih.2 ⟨by simpa using hlen, fun d hd => h d (by simp [hd])⟩, rfl⟩

/-- `[0-9]` -/
def digit : RegularExpression Char := oneOf "0123456789".toList

theorem isDigit_bounds {c : Char} (h : c.isDigit = true) : 48 ≤ c.toNat ∧ c.toNat ≤ 57 := by
  simpa [Char.isDigit, UInt32.le_iff_toNat_le] using h

theorem mem_digits {c : Char} : c ∈ "0123456789".toList ↔ c.isDigit = true := by
  constructor
  · intro h
    fin_cases h <;> rfl
  · intro h
    have hbounds := isDigit_bounds h
    obtain ⟨n, hn, rfl⟩ : ∃ n < 10, c = Nat.digitChar n := by
      refine ⟨c.toNat - 48, by omega, Char.toNat_inj.1 ?_⟩
      rw [Nat.toNat_digitChar_of_lt_ten (by omega)]
      omega
    interval_cases n <;> decide

theorem mem_oneOrMore_digit {s : List Char} :
    s ∈ (oneOrMore digit).matches' ↔ s ≠ [] ∧ ∀ c ∈ s, c.isDigit = true := by
  simp only [digit, mem_oneOrMore_oneOf, mem_digits]

theorem mem_pow_digit {n : ℕ} {s : List Char} :
    s ∈ (digit ^ n).matches' ↔ s.length = n ∧ ∀ c ∈ s, c.isDigit = true := by
  simp only [digit, mem_pow_oneOf, mem_digits]

variable [DecidableEq α]

/-- A pattern anchored on the left alone: it matches a beginning of the word. -/
def matchesPrefix (P : RegularExpression α) (s : List α) : Bool := s.inits.any P.rmatch

theorem matchesPrefix_iff {P : RegularExpression α} {s : List α} :
    matchesPrefix P s ↔ ∃ t ∈ P.matches', t <+: s := by
  simp [matchesPrefix, and_comm]

end Regex
