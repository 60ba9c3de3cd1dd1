import Mathlib

/-!
# Base 32 of whole blocks

A byte string of `5 * m` bytes and a string of `8 * m` letters of the base 32 alphabet are the
digits of one number below `2 ^ (40 * m)`, in bases 256 and 32 and most significant first. Both
directions of the encoding change the base.
-/

namespace Base32

/-- The `l` digits of `n` in base `b`, most significant first. -/
def digits (b l n : ℕ) : List ℕ := (Nat.digitsAppend b l n).reverse

/-- The number whose digits in base `b` are `ds`, most significant first. -/
def value (b : ℕ) (ds : List ℕ) : ℕ := Nat.ofDigits b ds.reverse

theorem value_cons (b d : ℕ) (ds : List ℕ) :
    value b (d :: ds) = value b ds + b ^ ds.length * d := by
  simp [value, Nat.ofDigits_append]

section Digits

variable {b : ℕ}

theorem value_lt (hb : 1 < b) {ds : List ℕ} (h : ∀ d ∈ ds, d < b) : value b ds < b ^ ds.length := by
  have := Nat.ofDigits_lt_base_pow_length hb (l := ds.reverse) fun d hd => h d (by simpa using hd)
  simpa [value] using this

theorem length_digits (hb : 1 < b) {l n : ℕ} (hn : n < b ^ l) : (digits b l n).length = l := by
  simpa [digits] using Nat.length_digitsAppend hb l hn

theorem lt_of_mem_digits (hb : 1 < b) {l n d : ℕ} (hd : d ∈ digits b l n) : d < b :=
  Nat.lt_of_mem_digitsAppend hb l d (by simpa [digits] using hd)

theorem value_digits (hb : 1 < b) {l n : ℕ} (hn : n < b ^ l) : value b (digits b l n) = n := by
  simpa [value, digits] using (Nat.setInvOn_digitsAppend_ofDigits hb l).2 hn

theorem digits_value (hb : 1 < b) {ds : List ℕ} (h : ∀ d ∈ ds, d < b) :
    digits b ds.length (value b ds) = ds := by
  have hinv := (Nat.setInvOn_digitsAppend_ofDigits hb ds.length).1
    (x := ds.reverse) ⟨by simp, fun d hd => h d (by simpa using hd)⟩
  rw [digits, value, hinv, List.reverse_reverse]

theorem head?_digits (hb : 1 < b) {l n : ℕ} (hn : n < b ^ (l + 1)) :
    (digits b (l + 1) n).head? = some (n / b ^ l) := by
  have hlen := length_digits hb hn
  have hlt : ∀ d ∈ digits b (l + 1) n, d < b := fun d => lt_of_mem_digits hb
  have hval := value_digits hb hn
  cases hds : digits b (l + 1) n with
  | nil => simp [hds] at hlen
  | cons d ds =>
    rw [hds] at hlen hlt hval
    have hl : ds.length = l := by simpa using hlen
    have hrest : value b ds < b ^ l := hl ▸ value_lt hb fun d hd => hlt d (by simp [hd])
    rw [value_cons, hl] at hval
    rw [← hval, Nat.add_mul_div_left _ _ (by positivity), Nat.div_eq_of_lt hrest]
    simp

end Digits

/-- The letters of the 32 digits. -/
def alphabet : List Char := "ABCDEFGHIJKLMNOPQRSTUVWXYZ234567".toList

def letter (d : ℕ) : Char := alphabet.getD d 'A'

def digitOf (c : Char) : Option ℕ := alphabet.idxOf? c

theorem digitOf_letter {d : ℕ} (hd : d < 32) : digitOf (letter d) = some d := by
  revert d
  decide

theorem letter_of_digitOf {c : Char} {d : ℕ} (h : digitOf c = some d) : d < 32 ∧ letter d = c := by
  obtain ⟨hd, hc⟩ := List.idxOf?_eq_some_iff.1 h |>.imp fun _ h => h.1
  refine ⟨hd, ?_⟩
  simpa [letter, List.getD_eq_getElem?_getD, hd] using hc

/-- The digits of a string of letters. -/
def digitsOf : List Char → Option (List ℕ)
  | [] => some []
  | c :: cs => do
    let d ← digitOf c
    let ds ← digitsOf cs
    return d :: ds

theorem digitsOf_letters : ∀ {ds : List ℕ}, (∀ d ∈ ds, d < 32) →
    digitsOf (ds.map letter) = some ds
  | [], _ => rfl
  | d :: ds, h => by
    have hd := digitOf_letter (h d (by simp))
    have hds := digitsOf_letters fun d hd => h d (List.mem_cons_of_mem _ hd)
    simp [digitsOf, hd, hds]

theorem letters_of_digitsOf : ∀ {cs : List Char} {ds : List ℕ}, digitsOf cs = some ds →
    (∀ d ∈ ds, d < 32) ∧ ds.map letter = cs
  | [], ds, h => by
    obtain rfl : [] = ds := by simpa [digitsOf] using h
    simp
  | c :: cs, ds, h => by
    cases hd : digitOf c with
    | none => simp [digitsOf, hd] at h
    | some d =>
      cases hr : digitsOf cs with
      | none => simp [digitsOf, hd, hr] at h
      | some rest =>
        obtain rfl : d :: rest = ds := by simpa [digitsOf, hd, hr] using h
        obtain ⟨hlt, hmap⟩ := letters_of_digitsOf hr
        obtain ⟨hd32, hletter⟩ := letter_of_digitOf hd
        exact ⟨by simpa [hd32] using hlt, by simp [hletter, hmap]⟩

theorem utf8Size_letter {d : ℕ} (hd : d < 32) : (letter d).utf8Size = 1 := by
  revert d
  decide

theorem utf8ByteSize_letters : ∀ {ds : List ℕ}, (∀ d ∈ ds, d < 32) →
    (String.ofList (ds.map letter)).utf8ByteSize = ds.length
  | [], _ => rfl
  | d :: ds, h => by
    have hd := utf8Size_letter (h d (by simp))
    have hds := utf8ByteSize_letters fun d hd => h d (List.mem_cons_of_mem _ hd)
    rw [List.map_cons, String.ofList_cons, String.utf8ByteSize_append, hds,
      String.utf8ByteSize_singleton, hd, List.length_cons, Nat.add_comm]

/-- The letters of whole blocks of five bytes. -/
def encode (bs : List UInt8) : String :=
  String.ofList ((digits 32 (8 * (bs.length / 5)) (value 256 (bs.map UInt8.toNat))).map letter)

/-- The bytes of whole blocks of eight letters. -/
def decode (s : String) : Option (List UInt8) := do
  let ds ← digitsOf s.toList
  if ds.length % 8 = 0 then return (digits 256 (5 * (ds.length / 8)) (value 32 ds)).map UInt8.ofNat
  else none

theorem blocks_pow (m : ℕ) : 256 ^ (5 * m) = 32 ^ (8 * m) := by
  rw [pow_mul, pow_mul]
  norm_num

theorem toNat_of_bytes (bs : List UInt8) : ∀ d ∈ bs.map UInt8.toNat, d < 256 := by
  intro d hd
  obtain ⟨b, -, rfl⟩ := List.mem_map.1 hd
  exact b.toNat_lt

theorem toNat_ofNat_bytes {ds : List ℕ} (h : ∀ d ∈ ds, d < 256) :
    (ds.map UInt8.ofNat).map UInt8.toNat = ds := by
  rw [List.map_map]
  refine (List.map_congr_left fun d hd => ?_).trans ds.map_id
  exact UInt8.toNat_ofNat_of_lt (h d hd)

theorem value_bytes_lt {bs : List UInt8} (h : bs.length % 5 = 0) :
    value 256 (bs.map UInt8.toNat) < 32 ^ (8 * (bs.length / 5)) := by
  have hlt : value 256 (bs.map UInt8.toNat) < 256 ^ (bs.map UInt8.toNat).length :=
    value_lt (by norm_num) (toNat_of_bytes bs)
  rw [List.length_map, show bs.length = 5 * (bs.length / 5) by omega] at hlt
  rwa [← blocks_pow]

theorem utf8ByteSize_encode {bs : List UInt8} (h : bs.length % 5 = 0) :
    (encode bs).utf8ByteSize = 8 * (bs.length / 5) := by
  rw [encode, utf8ByteSize_letters fun d => lt_of_mem_digits (by norm_num),
    length_digits (by norm_num : 1 < 32) (value_bytes_lt h)]

theorem decode_encode {bs : List UInt8} (h : bs.length % 5 = 0) :
    decode (encode bs) = some bs := by
  have hlt := value_bytes_lt h
  have hlen := length_digits (by norm_num : 1 < 32) hlt
  have hds : digitsOf ((digits 32 (8 * (bs.length / 5)) (value 256 (bs.map UInt8.toNat))).map
      letter) = some _ := digitsOf_letters fun d => lt_of_mem_digits (by norm_num)
  have hback := digits_value (by norm_num : 1 < 256) (toNat_of_bytes bs)
  rw [List.length_map, show bs.length = 5 * (8 * (bs.length / 5) / 8) by omega] at hback
  simp only [decode, encode, String.toList_ofList, hds, Option.bind_eq_bind, Option.bind_some, hlen,
    Nat.mul_mod_right, if_true, value_digits (by norm_num : 1 < 32) hlt, hback]
  simp [Function.comp_def]

theorem encode_of_decode {s : String} {bs : List UInt8} (h : decode s = some bs) :
    encode bs = s ∧ bs.length = 5 * (s.utf8ByteSize / 8) := by
  cases hd : digitsOf s.toList with
  | none => simp [decode, hd] at h
  | some ds =>
    obtain ⟨hlt, hmap⟩ := letters_of_digitsOf hd
    by_cases h8 : ds.length % 8 = 0
    · obtain rfl : (digits 256 (5 * (ds.length / 8)) (value 32 ds)).map UInt8.ofNat = bs := by
        simpa [decode, hd, h8] using h
      have hv : value 32 ds < 256 ^ (5 * (ds.length / 8)) := by
        rw [blocks_pow, show 8 * (ds.length / 8) = ds.length by omega]
        exact value_lt (by norm_num) hlt
      have hlen := length_digits (by norm_num : 1 < 256) hv
      have hbytes := toNat_ofNat_bytes fun d =>
        lt_of_mem_digits (by norm_num : 1 < 256) (l := 5 * (ds.length / 8)) (n := value 32 ds)
      have hblocks : 8 * (5 * (ds.length / 8) / 5) = ds.length := by omega
      have hsize : s.utf8ByteSize = ds.length := by
        rw [← utf8ByteSize_letters hlt, hmap, String.ofList_toList]
      refine ⟨?_, by rw [List.length_map, hlen, hsize]⟩
      rw [encode, hbytes, List.length_map, hlen, hblocks,
        value_digits (by norm_num : 1 < 256) hv, digits_value (by norm_num : 1 < 32) hlt, hmap,
        String.ofList_toList]
    · simp [decode, hd, h8] at h

/-- The first letter is the five leading bits of the first byte. -/
theorem head?_encode {b : UInt8} {bs : List UInt8} (h : (b :: bs).length % 5 = 0) :
    (encode (b :: bs)).toList.head? = some (letter (b.toNat / 8)) := by
  obtain ⟨m, hm⟩ : ∃ m, bs.length = 5 * m + 4 := ⟨bs.length / 5, by simp at h; omega⟩
  have hn : value 256 ((b :: bs).map UInt8.toNat) < 32 ^ (8 * m + 7 + 1) := by
    have := value_bytes_lt h
    rwa [List.length_cons, show 8 * ((bs.length + 1) / 5) = 8 * m + 7 + 1 by omega] at this
  have hrest := value_lt (by norm_num : 1 < 256) (toNat_of_bytes bs)
  have hsplit : value 256 ((b :: bs).map UInt8.toNat) / 32 ^ (8 * m + 7) = b.toNat / 8 := by
    have hpow : (32 : ℕ) ^ (8 * m + 7) = 256 ^ bs.length * 8 := by
      rw [hm, pow_add, pow_add, blocks_pow]
      norm_num
      ring
    rw [List.map_cons, value_cons, List.length_map, hpow, ← Nat.div_div_eq_div_mul,
      Nat.add_mul_div_left _ _ (by positivity)]
    rw [List.length_map] at hrest
    rw [Nat.div_eq_of_lt hrest, Nat.zero_add]
  have hhead := head?_digits (by norm_num : 1 < 32) hn
  rw [hsplit] at hhead
  rw [encode, String.toList_ofList, List.length_cons,
    show 8 * ((bs.length + 1) / 5) = 8 * m + 7 + 1 by omega, List.head?_map, hhead]
  rfl

end Base32
