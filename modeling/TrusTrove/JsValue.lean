import TrusTrove.Lib.Json
import TrusTrove.SdkClient

/-!
# JavaScript values

What `res.json()` or a contract call gives, with the conversions of the language the web app applies
to it: `Number`, `BigInt`, `String` and the truth of a value. A number is rounded to the nearest
double.
-/

namespace TrusTrove

namespace Double

def finite? : Double → Option ℚ
  | finite q => some q
  | _ => none

/-- The integer nearest to a rational, of two the even one. -/
def roundEven (q : ℚ) : ℤ :=
  if q - ⌊q⌋ < 1 / 2 then ⌊q⌋
  else if 1 / 2 < q - ⌊q⌋ then ⌊q⌋ + 1
  else if ⌊q⌋ % 2 = 0 then ⌊q⌋ else ⌊q⌋ + 1

/-- The double nearest to a rational. -/
def ofRat (q : ℚ) : Double :=
  let e : ℤ := Max.max (Int.log 2 |q| - 52) (-1074)
  let x : ℚ := roundEven (q / 2 ^ e) * 2 ^ e
  if |x| < 2 ^ 1024 then finite x else if 0 < q then posInf else negInf

theorem roundEven_intCast (n : ℤ) : roundEven (n : ℚ) = n := by
  simp [roundEven]

/-- An integer of at most 53 bits is a double. -/
theorem ofRat_intCast {n : ℤ} (h : |n| < 2 ^ 53) : ofRat (n : ℚ) = finite n := by
  have hcast : |(n : ℚ)| < 2 ^ 53 := by exact_mod_cast h
  have hlog : Int.log 2 |(n : ℚ)| < 53 := by
    rcases eq_or_ne n 0 with rfl | hn
    · simp
    · have hpos : (0 : ℚ) < |(n : ℚ)| := by simpa using hn
      exact (Int.lt_zpow_iff_log_lt (by norm_num) hpos).1 (by exact_mod_cast hcast)
  obtain ⟨k, hk⟩ : ∃ k : ℕ, Max.max (Int.log 2 |(n : ℚ)| - 52) (-1074) = -(k : ℤ) :=
    ⟨(Max.max (Int.log 2 |(n : ℚ)| - 52) (-1074)).natAbs, by omega⟩
  have hscale : (n : ℚ) / 2 ^ (-(k : ℤ)) = ((n * 2 ^ k : ℤ) : ℚ) := by
    rw [zpow_neg, zpow_natCast, div_inv_eq_mul]
    push_cast
    rfl
  have hvalue : ((n * 2 ^ k : ℤ) : ℚ) * 2 ^ (-(k : ℤ)) = n := by
    rw [zpow_neg, zpow_natCast]
    push_cast
    field_simp
  have hbound : |(n : ℚ)| < 2 ^ 1024 :=
    hcast.trans (pow_lt_pow_right₀ one_lt_two (by norm_num))
  simp only [ofRat, hk, hscale, roundEven_intCast, hvalue, if_pos hbound]

theorem le_roundEven {q : ℚ} {m : ℤ} (h : (m : ℚ) ≤ q) : m ≤ roundEven q := by
  have hfloor : m ≤ ⌊q⌋ := Int.le_floor.2 h
  unfold roundEven
  split_ifs <;> omega

theorem roundEven_le {q : ℚ} {m : ℤ} (h : q ≤ m) : roundEven q ≤ m := by
  have hfloor : ⌊q⌋ ≤ m := Int.floor_le_iff.2 (h.trans_lt (lt_add_one _))
  rcases hfloor.eq_or_lt with heq | hlt
  · have hq : q = m := le_antisymm h (heq ▸ Int.floor_le q)
    rw [hq, roundEven_intCast]
  · unfold roundEven
    split_ifs <;> omega

/-- Past 53 bits a number is not rounded back below them. -/
theorem le_abs_of_ofRat {q x : ℚ} (hq : 2 ^ 53 ≤ |q|) (hx : ofRat q = finite x) : 2 ^ 53 ≤ |x| := by
  have hpos : 0 < |q| := lt_of_lt_of_le (by norm_num) hq
  have hlog : 53 ≤ Int.log 2 |q| :=
    (Int.zpow_le_iff_le_log (by norm_num) hpos).1 (by exact_mod_cast hq)
  obtain ⟨e, he⟩ : ∃ e, e = Int.log 2 |q| - 52 := ⟨_, rfl⟩
  have hexp : Max.max (Int.log 2 |q| - 52) (-1074) = e := by omega
  have hscale : (0 : ℚ) < 2 ^ e := zpow_pos (by norm_num) e
  have hmantissa : (2 : ℚ) ^ 52 ≤ |q| / 2 ^ e := by
    rw [le_div_iff₀ hscale, ← zpow_natCast, ← zpow_add₀ two_ne_zero]
    refine le_trans (le_of_eq ?_) (Int.zpow_log_le_self (b := 2) (by norm_num) hpos)
    rw [he]
    congr 1
    push_cast
    ring
  have hround : (2 : ℤ) ^ 52 ≤ |roundEven (q / 2 ^ e)| := by
    rcases abs_cases q with ⟨habs, -⟩ | ⟨habs, -⟩
    · rw [habs] at hmantissa
      exact (le_roundEven (by exact_mod_cast hmantissa)).trans (le_abs_self _)
    · rw [habs, neg_div, le_neg] at hmantissa
      have hle : roundEven (q / 2 ^ e) ≤ -2 ^ 52 := roundEven_le (by exact_mod_cast hmantissa)
      exact le_trans (by omega) (neg_le_abs _)
  have hvalue : x = roundEven (q / 2 ^ e) * 2 ^ e := by
    simp only [ofRat, hexp] at hx
    split_ifs at hx
    exact (finite.inj hx).symm
  have hunit : (2 : ℚ) ^ 1 ≤ 2 ^ e := by
    rw [← zpow_natCast]
    exact zpow_le_zpow_right₀ (by norm_num) (by push_cast; omega)
  calc (2 : ℚ) ^ 53 = 2 ^ 52 * 2 ^ 1 := by norm_num
    _ ≤ |(roundEven (q / 2 ^ e) : ℚ)| * 2 ^ e :=
      mul_le_mul (by exact_mod_cast hround) hunit (by positivity) (by positivity)
    _ = |x| := by rw [hvalue, abs_mul, abs_of_pos hscale]

/-- The fewest decimal digits that round to a positive double, and the power of ten they are
counted in. -/
def shortest (x : ℚ) : ℕ × ℤ :=
  let digits (k : ℕ) : Option (ℕ × ℤ) :=
    let e : ℤ := Int.log 10 x + 1 - (k : ℤ)
    let down := ⌊x / 10 ^ e⌋₊
    let near := if x / 10 ^ e - down ≤ 1 / 2 then [down, down + 1] else [down + 1, down]
    (near.find? fun s : ℕ => ofRat (s * 10 ^ e) = finite x).map fun s =>
      if s = 10 ^ k then (1, e + k) else (s, e)
  ((List.range 17).findSome? fun i => digits (i + 1)).getD (0, 0)

/-- `Number.prototype.toString` of a positive double. -/
def positiveToString (x : ℚ) : String :=
  let (s, e) := shortest x
  let digits := Nat.toDigits 10 s
  let k : ℤ := digits.length
  let n := e + k
  let zeros (m : ℤ) : List Char := List.replicate m.toNat '0'
  if k ≤ n ∧ n ≤ 21 then String.ofList (digits ++ zeros (n - k))
  else if 0 < n ∧ n ≤ 21 then
    String.ofList (digits.take n.toNat ++ '.' :: digits.drop n.toNat)
  else if -6 < n ∧ n ≤ 0 then String.ofList ('0' :: '.' :: zeros (-n) ++ digits)
  else
    let exponent := (if 0 < n then "+" else "-") ++ toString (n - 1).natAbs
    let mantissa := if k = 1 then digits else digits.take 1 ++ '.' :: digits.drop 1
    String.ofList mantissa ++ "e" ++ exponent

/-- `String(x)` -/
def toString : Double → String
  | nan => "NaN"
  | negInf => "-Infinity"
  | posInf => "Infinity"
  | finite q =>
    if q = 0 then "0" else if 0 < q then positiveToString q else "-" ++ positiveToString (-q)

end Double

section Numerals

/-- The characters `StrWhiteSpace` admits. -/
def isStrWhiteSpace (c : Char) : Bool :=
  [0x9, 0xa, 0xb, 0xc, 0xd, 0x20, 0xa0, 0x1680, 0x2028, 0x2029, 0x202f, 0x205f, 0x3000,
    0xfeff].contains c.toNat || (0x2000 ≤ c.toNat && c.toNat ≤ 0x200a)

def trimWhiteSpace (s : List Char) : List Char :=
  ((s.dropWhile isStrWhiteSpace).reverse.dropWhile isStrWhiteSpace).reverse

/-- A numeral in a base: at least one digit. -/
def numeral (base : ℕ) (s : List Char) : Option ℕ :=
  if s = [] then none
  else s.foldlM (fun acc c => ((JsonText.hexDigit? c).filter (· < base)).map (base * acc + ·)) 0

/-- `0x`, `0o` or `0b` and digits of that base. -/
def prefixedNumeral : List Char → Option ℕ
  | '0' :: c :: digits =>
    if c = 'x' ∨ c = 'X' then numeral 16 digits
    else if c = 'o' ∨ c = 'O' then numeral 8 digits
    else if c = 'b' ∨ c = 'B' then numeral 2 digits
    else none
  | _ => none

/-- A text after its sign, with the sign. -/
def splitSign : List Char → ℤ × List Char
  | '-' :: rest => (-1, rest)
  | '+' :: rest => (1, rest)
  | s => (1, s)

/-- `StringToBigInt` -/
def stringToBigInt (s : String) : Option ℤ :=
  let text := trimWhiteSpace s.toList
  if text = [] then some 0
  else match prefixedNumeral text with
    | some n => some n
    | none => (numeral 10 (splitSign text).2).map fun n => (splitSign text).1 * n

/-- An unsigned decimal literal: digits around a point, one of them at least, and an exponent. -/
def decimalLiteral (s : List Char) : Option ℚ :=
  let int := s.takeWhile Char.isDigit
  let rest := s.dropWhile Char.isDigit
  let (frac, tail) := match rest with
    | '.' :: r => (r.takeWhile Char.isDigit, r.dropWhile Char.isDigit)
    | r => ([], r)
  let exponent : Option ℤ := match tail with
    | [] => some 0
    | c :: r =>
      if c = 'e' ∨ c = 'E' then (numeral 10 (splitSign r).2).map fun n => (splitSign r).1 * n
      else none
  match numeral 10 (int ++ frac), exponent with
  | some digits, some e => some ((digits : ℚ) * 10 ^ (e - frac.length))
  | _, _ => none

/-- `StringToNumber` -/
def stringToNumber (s : String) : Double :=
  let text := trimWhiteSpace s.toList
  if text = [] then .finite 0
  else match prefixedNumeral text with
    | some n => .ofRat n
    | none =>
      let (sign, digits) := splitSign text
      if digits = "Infinity".toList then (if sign = 1 then .posInf else .negInf)
      else match decimalLiteral digits with
        | some q => .ofRat (sign * q)
        | none => .nan

end Numerals

/-- A value of a JSON response or of the result of a contract call, or what is read where it has
none. An object with a `toString` of its own, of which the language makes neither a text nor a
number, is left out. -/
inductive Js
  | undefined
  | null
  | boolean (b : Bool)
  | number (x : Double)
  | bigint (n : ℤ)
  | string (s : String)
  | uint8Array (bytes : List UInt8)
  | array (elems : List Js)
  | object (members : List (String × Js))

namespace Js

/-- `!!value` -/
def truthy : Js → Bool
  | undefined | null => false
  | boolean b => b
  | number x => x ≠ .finite 0 && x ≠ .nan
  | bigint n => n ≠ 0
  | string s => s ≠ ""
  | uint8Array _ | array _ | object _ => true

/-- `a || b` -/
def or (a b : Js) : Js := if a.truthy then a else b

/-- `a ?? b` -/
def nullish : Js → Js → Js
  | undefined, b | null, b => b
  | a, _ => a

@[simp] theorem nullish_string (s : String) (b : Js) : (string s).nullish b = string s := rfl

mutual

/-- `String(value)` -/
def toString : Js → String
  | undefined => "undefined"
  | null => "null"
  | boolean b => if b then "true" else "false"
  | number x => x.toString
  | bigint n => Int.repr n
  | string s => s
  | uint8Array bytes => ",".intercalate (bytes.map fun b => Nat.repr b.toNat)
  | array elems => ",".intercalate (elemTexts elems)
  | object _ => "[object Object]"

/-- The texts `Array.prototype.join` puts its commas between. -/
def elemTexts : List Js → List String
  | [] => []
  | undefined :: vs | null :: vs => "" :: elemTexts vs
  | v :: vs => v.toString :: elemTexts vs

end

/-- `Number(value)` -/
def toNumber : Js → Double
  | undefined => .nan
  | null => .finite 0
  | boolean b => .finite (if b then 1 else 0)
  | number x => x
  | bigint n => .ofRat n
  | string s => stringToNumber s
  | uint8Array bytes => stringToNumber (uint8Array bytes).toString
  | array elems => stringToNumber (array elems).toString
  | object members => stringToNumber (object members).toString

/-- `BigInt(value)` of a number, a bigint or a string; zero for anything else, as its callers have
it. -/
def toBigInt : Js → Except Thrown ℤ
  | number x =>
    match x with
    | .finite q =>
      if q = ⌊q⌋ then .ok ⌊q⌋
      else .error (.error ("The number " ++ x.toString
        ++ " cannot be converted to a BigInt because it is not an integer"))
    | x => .error (.error ("The number " ++ x.toString
        ++ " cannot be converted to a BigInt because it is not an integer"))
  | bigint n => .ok n
  | string s =>
    match stringToBigInt s with
    | some n => .ok n
    | none => .error (.error ("Cannot convert " ++ s ++ " to a BigInt"))
  | _ => .ok 0

/-- `obj[key]`: of two members with one key the later. -/
def get (members : List (String × Js)) (key : String) : Js :=
  (members.reverse.lookup key).getD undefined

theorem get_eq_find? (members : List (String × Js)) (key : String) :
    get members key = ((members.reverse.find? (·.1 = key)).map Prod.snd).getD undefined := by
  rw [get]
  induction members.reverse with
  | nil => rfl
  | cons kv rest ih =>
    by_cases h : kv.1 = key
    · simp [List.lookup, h]
    · have hne : (key == kv.1) = false := by simpa using fun heq => h heq.symm
      simpa [List.lookup, h, hne] using ih

/-- The members of a value that is a record (`isRecord`): an object that is no array. -/
def record? : Js → Option (List (String × Js))
  | object members => some members
  | uint8Array bytes =>
    some (bytes.zipIdx.map fun b => (Nat.repr b.2, number (.finite b.1.toNat)))
  | _ => none

/-- `value?.[key]`, of a value whose own members are all it has. -/
def member : Js → String → Js
  | object members, key => get members key
  | _, _ => undefined

end Js

end TrusTrove
