import Mathlib.Data.List.Basic
import Mathlib.Tactic

/-!
# JSON texts

A reader of JSON texts that tells a text that is wrong from one that is cut short, strings of UTF-16
code units and how they are quoted, and that the reader finds in a quoted string and in an object
what was written. A text is a list of characters. A reader stops after the value; a number ends at
the first character that cannot belong to it.
-/

namespace JsonText

/-- What reading the front of a text gives: a value and what follows it, a text that goes on to be
one, or neither. -/
inductive Scan (α : Type)
  | done (a : α) (rest : List Char)
  | more
  | bad
  deriving DecidableEq, Repr

namespace Scan

variable {α β : Type}

def bind (s : Scan α) (f : α → List Char → Scan β) : Scan β :=
  match s with
  | done a rest => f a rest
  | more => more
  | bad => bad

def map (f : α → β) (s : Scan α) : Scan β := s.bind fun a rest => done (f a) rest

@[simp] theorem bind_done (a : α) (rest : List Char) (f : α → List Char → Scan β) :
    (done a rest).bind f = f a rest := rfl

@[simp] theorem map_done (f : α → β) (a : α) (rest : List Char) :
    (done a rest).map f = done (f a) rest := rfl

end Scan

/-- A JSON value. A number is kept as its text, and the members of an object in their order. -/
inductive Value
  | null
  | bool (b : Bool)
  | number (text : List Char)
  | string (s : List Char)
  | array (elems : List Value)
  | object (members : List (List Char × Value))

section Strings

/-- Inside a string: between characters, after a backslash, or within the four digits of `\u`. -/
inductive StringState
  | inString
  | esc
  | escU (read acc : ℕ)

def hexDigit? (c : Char) : Option ℕ :=
  if '0' ≤ c ∧ c ≤ '9' then some (c.toNat - '0'.toNat)
  else if 'a' ≤ c ∧ c ≤ 'f' then some (c.toNat - 'a'.toNat + 10)
  else if 'A' ≤ c ∧ c ≤ 'F' then some (c.toNat - 'A'.toNat + 10)
  else none

/-- The character a one-letter escape stands for. -/
def unescape (c : Char) : Option Char :=
  match c with
  | '"' => some '"'
  | '\\' => some '\\'
  | '/' => some '/'
  | 'b' => some '\x08'
  | 'f' => some '\x0c'
  | 'n' => some '\n'
  | 'r' => some '\r'
  | 't' => some '\t'
  | _ => none

/-- A string after its opening quote: its characters, and the numbers written with `\u`. -/
def scanString : StringState → List Char → Scan (List (Char ⊕ ℕ))
  | _, [] => .more
  | .inString, c :: rest =>
    if c = '"' then .done [] rest
    else if c = '\\' then scanString .esc rest
    else if c.toNat < 0x20 then .bad
    else (scanString .inString rest).map (.inl c :: ·)
  | .esc, c :: rest =>
    match unescape c with
    | some c' => (scanString .inString rest).map (.inl c' :: ·)
    | none => if c = 'u' then scanString (.escU 0 0) rest else .bad
  | .escU read acc, c :: rest =>
    match hexDigit? c with
    | none => .bad
    | some d =>
      if read = 3 then (scanString .inString rest).map (.inr (16 * acc + d) :: ·)
      else scanString (.escU (read + 1) (16 * acc + d)) rest

def isHigh (u : ℕ) : Bool := 0xd800 ≤ u && u < 0xdc00

def isLow (u : ℕ) : Bool := 0xdc00 ≤ u && u < 0xe000

/-- The character of a surrogate pair. -/
def pair (u v : ℕ) : Char := Char.ofNat (0x10000 + 0x400 * (u - 0xd800) + (v - 0xdc00))

/-- The characters of a string. A number is a code unit; a surrogate without its other half stands
for the replacement character. -/
def decodeUnits : List (Char ⊕ ℕ) → List Char
  | [] => []
  | .inl c :: rest => c :: decodeUnits rest
  | .inr u :: .inr v :: rest =>
    if isHigh u ∧ isLow v then pair u v :: decodeUnits rest
    else (if isHigh u ∨ isLow u then '\ufffd' else Char.ofNat u) :: decodeUnits (.inr v :: rest)
  | .inr u :: rest =>
    (if isHigh u ∨ isLow u then '\ufffd' else Char.ofNat u) :: decodeUnits rest

end Strings

section Numbers

/-- Where a number is. -/
inductive NumberState
  | start
  | neg
  | zero
  | int
  | dot
  | frac
  | exp
  | expSign
  | expDigits
  deriving DecidableEq, Repr

namespace NumberState

def step (st : NumberState) (c : Char) : Option NumberState :=
  let exponent : Option NumberState := if c = 'e' ∨ c = 'E' then some exp else none
  match st with
  | start => if c = '-' then some neg else if c = '0' then some zero
      else if c.isDigit then some int else none
  | neg => if c = '0' then some zero else if c.isDigit then some int else none
  | zero => if c = '.' then some dot else exponent
  | int => if c.isDigit then some int else if c = '.' then some dot else exponent
  | dot => if c.isDigit then some frac else none
  | frac => if c.isDigit then some frac else exponent
  | exp => if c = '+' ∨ c = '-' then some expSign else if c.isDigit then some expDigits else none
  | expSign => if c.isDigit then some expDigits else none
  | expDigits => if c.isDigit then some expDigits else none

/-- A number may end here. -/
def ends : NumberState → Bool
  | zero | int | frac | expDigits => true
  | _ => false

def run : NumberState → List Char → Option NumberState
  | st, [] => some st
  | st, c :: rest => (st.step c).bind (run · rest)

end NumberState

def scanNumber : NumberState → List Char → Scan (List Char)
  | _, [] => .more
  | st, c :: rest =>
    match st.step c with
    | some st' => (scanNumber st' rest).map (c :: ·)
    | none => if st.ends then .done [] (c :: rest) else .bad

/-- The text of a number. -/
def IsNumber (text : List Char) : Prop :=
  ∃ st, NumberState.start.run text = some st ∧ st.ends = true

end Numbers

section Values

def isSpace (c : Char) : Bool := c = ' ' || c = '\t' || c = '\r' || c = '\n'

def skipSpace (text : List Char) : List Char := text.dropWhile isSpace

def scanLiteral : List Char → List Char → Scan Unit
  | [], rest => .done () rest
  | _ :: _, [] => .more
  | c :: word, c' :: rest => if c = c' then scanLiteral word rest else .bad

mutual

/-- The value at the front of a text. The fuel bounds the depth and the length. -/
def scanValue : ℕ → List Char → Scan Value
  | 0, _ => .bad
  | fuel + 1, text =>
    match skipSpace text with
    | [] => .more
    | c :: rest =>
      if c = '"' then (scanString .inString rest).map fun units => .string (decodeUnits units)
      else if c = '{' then
        match skipSpace rest with
        | [] => .more
        | '}' :: rest' => .done (.object []) rest'
        | _ => (scanMembers fuel rest).map .object
      else if c = '[' then
        match skipSpace rest with
        | [] => .more
        | ']' :: rest' => .done (.array []) rest'
        | _ => (scanElems fuel rest).map .array
      else if c = 't' then (scanLiteral "rue".toList rest).map fun _ => .bool true
      else if c = 'f' then (scanLiteral "alse".toList rest).map fun _ => .bool false
      else if c = 'n' then (scanLiteral "ull".toList rest).map fun _ => .null
      else (scanNumber .start (c :: rest)).map .number

/-- The elements of an array from its next on. -/
def scanElems : ℕ → List Char → Scan (List Value)
  | 0, _ => .bad
  | fuel + 1, text =>
    (scanValue fuel text).bind fun v rest =>
      match skipSpace rest with
      | [] => .more
      | ']' :: rest' => .done [v] rest'
      | ',' :: rest' => (scanElems fuel rest').map (v :: ·)
      | _ => .bad

/-- The members of an object from its next on. -/
def scanMembers : ℕ → List Char → Scan (List (List Char × Value))
  | 0, _ => .bad
  | fuel + 1, text =>
    match skipSpace text with
    | [] => .more
    | '"' :: rest =>
      (scanString .inString rest).bind fun key rest₁ =>
        match skipSpace rest₁ with
        | [] => .more
        | ':' :: rest₂ =>
          (scanValue fuel rest₂).bind fun v rest₃ =>
            match skipSpace rest₃ with
            | [] => .more
            | '}' :: rest₄ => .done [(decodeUnits key, v)] rest₄
            | ',' :: rest₄ => (scanMembers fuel rest₄).map ((decodeUnits key, v) :: ·)
            | _ => .bad
        | _ => .bad
    | _ => .bad

end

end Values

section Writing

/-- A string as its UTF-16 code units, any of them. -/
abbrev Utf16 := List UInt16

/-- The code units of a character. -/
def encodeChar (c : Char) : Utf16 :=
  if c.toNat < 0x10000 then [UInt16.ofNat c.toNat]
  else [UInt16.ofNat (0xd800 + (c.toNat - 0x10000) / 0x400),
    UInt16.ofNat (0xdc00 + (c.toNat - 0x10000) % 0x400)]

def utf16 (s : List Char) : Utf16 := s.flatMap encodeChar

/-- A code unit on its own: a character, or a surrogate without its other half. -/
def lone (u : UInt16) : Char ⊕ UInt16 :=
  if isHigh u.toNat ∨ isLow u.toNat then .inr u else .inl (Char.ofNat u.toNat)

/-- The code points of a string: characters, and surrogates without their other half. -/
def codePoints : Utf16 → List (Char ⊕ UInt16)
  | [] => []
  | [u] => [lone u]
  | u :: v :: rest =>
    if isHigh u.toNat ∧ isLow v.toNat then .inl (pair u.toNat v.toNat) :: codePoints rest
    else lone u :: codePoints (v :: rest)

def hex4 (n : ℕ) : List Char :=
  [(n / 4096 % 16).digitChar, (n / 256 % 16).digitChar, (n / 16 % 16).digitChar,
    (n % 16).digitChar]

def quoteChar (c : Char) : List Char :=
  if c = '"' then ['\\', '"']
  else if c = '\\' then ['\\', '\\']
  else if c = '\x08' then ['\\', 'b']
  else if c = '\x0c' then ['\\', 'f']
  else if c = '\n' then ['\\', 'n']
  else if c = '\r' then ['\\', 'r']
  else if c = '\t' then ['\\', 't']
  else if c.toNat < 0x20 then '\\' :: 'u' :: hex4 c.toNat
  else [c]

def quotePoint : Char ⊕ UInt16 → List Char
  | .inl c => quoteChar c
  | .inr u => '\\' :: 'u' :: hex4 u.toNat

/-- A string between quotes. -/
def quote (s : Utf16) : List Char := '"' :: (codePoints s).flatMap quotePoint ++ ['"']

/-- An object, from the texts of its members. -/
def writeMembers : List (Utf16 × List Char) → List Char
  | [] => ['}']
  | [(key, text)] => quote key ++ ':' :: text ++ ['}']
  | (key, text) :: m :: rest => quote key ++ ':' :: text ++ ',' :: writeMembers (m :: rest)

def writeObject (members : List (Utf16 × List Char)) : List Char := '{' :: writeMembers members

end Writing

section Quoted

theorem hexDigit?_digitChar {d : ℕ} (h : d < 16) : hexDigit? d.digitChar = some d := by
  interval_cases d <;> decide

theorem scanString_hex4 {n : ℕ} (h : n < 65536) (rest : List Char) :
    scanString (.escU 0 0) (hex4 n ++ rest) = (scanString .inString rest).map (.inr n :: ·) := by
  have hdigit (k : ℕ) : hexDigit? (k % 16).digitChar = some (k % 16) :=
    hexDigit?_digitChar (Nat.mod_lt _ (by omega))
  simp only [hex4, List.cons_append, List.nil_append, scanString, hdigit]
  norm_num
  simp only [show 16 * (16 * (16 * (n / 4096 % 16) + n / 256 % 16) + n / 16 % 16) + n % 16 = n by
    omega]

/-- What the reader makes of a quoted code point. -/
def scannedPoint : Char ⊕ UInt16 → Char ⊕ ℕ
  | .inl c =>
    if c.toNat < 0x20 ∧ c ∉ ['\x08', '\x0c', '\n', '\r', '\t'] then .inr c.toNat else .inl c
  | .inr u => .inr u.toNat

theorem scanString_quoteChar (c : Char) (rest : List Char) :
    scanString .inString (quoteChar c ++ rest)
      = (scanString .inString rest).map (scannedPoint (.inl c) :: ·) := by
  unfold quoteChar
  split_ifs with h1 h2 h3 h4 h5 h6 h7 h8
  · subst h1; simp [scanString, unescape, scannedPoint]
  · subst h2; simp [scanString, unescape, scannedPoint]
  · subst h3; simp [scanString, unescape, scannedPoint]
  · subst h4; simp [scanString, unescape, scannedPoint]
  · subst h5; simp [scanString, unescape, scannedPoint]
  · subst h6; simp [scanString, unescape, scannedPoint]
  · subst h7; simp [scanString, unescape, scannedPoint]
  · have := scanString_hex4 (n := c.toNat) (by omega) rest
    simp [scanString, unescape, scannedPoint, this, h3, h4, h5, h6, h7, h8]
  · simp [scanString, scannedPoint, h1, h2, h8]

theorem scanString_quotePoint (p : Char ⊕ UInt16) (rest : List Char) :
    scanString .inString (quotePoint p ++ rest)
      = (scanString .inString rest).map (scannedPoint p :: ·) := by
  cases p with
  | inl c => exact scanString_quoteChar c rest
  | inr u =>
    have := scanString_hex4 (n := u.toNat) u.toNat_lt rest
    simp [quotePoint, scanString, unescape, scannedPoint, this]

theorem scanString_quote : ∀ (points : List (Char ⊕ UInt16)) (rest : List Char),
    scanString .inString (points.flatMap quotePoint ++ '"' :: rest)
      = .done (points.map scannedPoint) rest
  | [], rest => by simp [scanString]
  | p :: points, rest => by
    rw [List.flatMap_cons, List.append_assoc, scanString_quotePoint,
      scanString_quote points rest]
    rfl

theorem lone_of_lt {c : Char} (h : c.toNat < 0x10000) : lone (UInt16.ofNat c.toNat) = .inl c := by
  have hn : (UInt16.ofNat c.toNat).toNat = c.toNat := by
    simp only [UInt16.toNat_ofNat']
    omega
  have hv : c.toNat < 0xd800 ∨ 0xdfff < c.toNat := by
    rcases c.valid with h | h <;> simp only [Char.toNat] at * <;> omega
  unfold lone isHigh isLow
  rw [hn, if_neg, Char.ofNat_toNat]
  simp only [Bool.and_eq_true, decide_eq_true_eq]
  omega

theorem codePoints_encodeChar (c : Char) (s : Utf16) :
    codePoints (encodeChar c ++ s) = .inl c :: codePoints s := by
  unfold encodeChar
  split_ifs with h
  · have hlow : isHigh (UInt16.ofNat c.toNat).toNat = false := by
      have hl := lone_of_lt h
      unfold lone at hl
      split_ifs at hl with hs
      simp only [not_or, Bool.not_eq_true] at hs
      exact hs.1
    cases s with
    | nil => simp [codePoints, lone_of_lt h]
    | cons v rest =>
      simp only [List.cons_append, List.nil_append, codePoints, lone_of_lt h, hlow,
        Bool.false_eq_true, false_and, if_false]
  · have hc : c.toNat < 0x110000 := by
      rcases c.valid with h | h <;> simp only [Char.toNat] at * <;> omega
    have hu : (UInt16.ofNat (0xd800 + (c.toNat - 0x10000) / 0x400)).toNat
        = 0xd800 + (c.toNat - 0x10000) / 0x400 := by
      simp only [UInt16.toNat_ofNat']
      omega
    have hv : (UInt16.ofNat (0xdc00 + (c.toNat - 0x10000) % 0x400)).toNat
        = 0xdc00 + (c.toNat - 0x10000) % 0x400 := by
      simp only [UInt16.toNat_ofNat']
      omega
    have hpair : pair (0xd800 + (c.toNat - 0x10000) / 0x400)
        (0xdc00 + (c.toNat - 0x10000) % 0x400) = c := by
      unfold pair
      rw [show 0x10000 + 0x400 * (0xd800 + (c.toNat - 0x10000) / 0x400 - 0xd800)
        + (0xdc00 + (c.toNat - 0x10000) % 0x400 - 0xdc00) = c.toNat by omega, Char.ofNat_toNat]
    simp only [List.cons_append, List.nil_append, codePoints, hu, hv, hpair]
    rw [if_pos]
    simp only [isHigh, isLow, Bool.and_eq_true, decide_eq_true_eq]
    omega

theorem codePoints_utf16 : ∀ s : List Char, codePoints (utf16 s) = s.map .inl
  | [] => rfl
  | c :: s => by
    rw [utf16, List.flatMap_cons, codePoints_encodeChar, List.map_cons, ← codePoints_utf16 s]
    rfl

theorem decodeUnits_lt {n : ℕ} (h : n < 0x20) (rest : List (Char ⊕ ℕ)) :
    decodeUnits (.inr n :: rest) = Char.ofNat n :: decodeUnits rest := by
  have hh : isHigh n = false := by
    simp only [isHigh, Bool.and_eq_false_iff, decide_eq_false_iff_not]
    omega
  have hl : isLow n = false := by
    simp only [isLow, Bool.and_eq_false_iff, decide_eq_false_iff_not]
    omega
  cases rest with
  | nil => simp [decodeUnits, hh, hl]
  | cons p rest => cases p <;> simp [decodeUnits, hh, hl]

theorem decodeUnits_scanned : ∀ s : List Char,
    decodeUnits ((s.map Sum.inl).map scannedPoint) = s
  | [] => rfl
  | c :: s => by
    have ih := decodeUnits_scanned s
    simp only [List.map_cons, scannedPoint]
    split_ifs with hc
    · rw [decodeUnits_lt hc.1, Char.ofNat_toNat]
      exact congrArg (c :: ·) ih
    · exact congrArg (c :: ·) ih

/-- Reading back a quoted string of characters. -/
theorem decodeUnits_utf16 (s : List Char) :
    decodeUnits ((codePoints (utf16 s)).map scannedPoint) = s := by
  rw [codePoints_utf16, decodeUnits_scanned]

end Quoted

section Reading

/-- A character that no number goes on with. -/
def Delimits (c : Char) : Prop := ∀ st : NumberState, st.step c = none

theorem delimits_comma : Delimits ',' := by
  intro st
  cases st <;> decide

theorem delimits_brace : Delimits '}' := by
  intro st
  cases st <;> decide

theorem scanNumber_run {c : Char} (hc : Delimits c) (rest : List Char) :
    ∀ (text : List Char) {st st' : NumberState}, st.run text = some st' → st'.ends = true →
      scanNumber st (text ++ c :: rest) = .done text (c :: rest)
  | [], st, st', h, he => by
    obtain rfl : st = st' := by simpa [NumberState.run] using h
    simp [scanNumber, hc st, he]
  | d :: text, st, st', h, he => by
    cases hd : st.step d with
    | none => simp [NumberState.run, hd] at h
    | some st₁ =>
      have hrun : st₁.run text = some st' := by simpa [NumberState.run, hd] using h
      have ih := scanNumber_run hc rest text hrun he
      simp [scanNumber, hd, ih]

/-- The reader finds `v` at the front of any text that starts with `text` and goes on as a member of
an object may. -/
def Reads (text : List Char) (v : Value) : Prop :=
  ∀ fuel c rest, c = ',' ∨ c = '}' → scanValue (fuel + 1) (text ++ c :: rest) = .done v (c :: rest)

theorem skipSpace_cons {c : Char} (h : isSpace c = false) (rest : List Char) :
    skipSpace (c :: rest) = c :: rest := by
  simp [skipSpace, h]

theorem quote_reads (s : Utf16) :
    Reads (quote s) (.string (decodeUnits ((codePoints s).map scannedPoint))) := by
  intro fuel c rest _
  unfold quote
  simp only [List.cons_append, List.append_assoc, List.nil_append, scanValue,
    skipSpace_cons (show isSpace '"' = false by decide), if_true, scanString_quote,
    Scan.map_done]

theorem null_reads : Reads "null".toList .null := by
  intro fuel c rest _
  simp [scanValue, skipSpace_cons (show isSpace 'n' = false by decide), scanLiteral]

/-- A number starts with a sign or a digit. -/
theorem IsNumber.head {text : List Char} (h : IsNumber text) :
    ∃ d rest, text = d :: rest ∧ (d = '-' ∨ d.isDigit = true) := by
  obtain ⟨st, hrun, hends⟩ := h
  cases text with
  | nil =>
    obtain rfl : NumberState.start = st := by simpa [NumberState.run] using hrun
    simp [NumberState.ends] at hends
  | cons d text =>
    refine ⟨d, text, rfl, ?_⟩
    have hd : (NumberState.start.step d).isSome := by
      cases hd : NumberState.start.step d <;> simp [NumberState.run, hd] at hrun ⊢
    simp only [NumberState.step] at hd
    split_ifs at hd with h1 h2 h3
    · exact .inl h1
    · subst h2; exact .inr (by decide)
    · exact .inr h3
    · simp at hd

theorem ne_of_number_head {d e : Char} (hd : d = '-' ∨ d.isDigit = true) (hm : e ≠ '-')
    (he : e.isDigit = false) : d ≠ e := by
  rintro rfl
  rcases hd with h | h
  · exact hm h
  · simp [he] at h

theorem isSpace_number_head {d : Char} (hd : d = '-' ∨ d.isDigit = true) : isSpace d = false := by
  simp only [isSpace, Bool.or_eq_false_iff, decide_eq_false_iff_not]
  have hne {e : Char} (hm : e ≠ '-') (he : e.isDigit = false) : d ≠ e := ne_of_number_head hd hm he
  exact ⟨⟨⟨hne (by decide) (by decide), hne (by decide) (by decide)⟩,
    hne (by decide) (by decide)⟩, hne (by decide) (by decide)⟩

theorem scanValue_number {text : List Char} (h : IsNumber text) {c : Char} (hc : Delimits c)
    (fuel : ℕ) (rest : List Char) :
    scanValue (fuel + 1) (text ++ c :: rest) = .done (.number text) (c :: rest) := by
  obtain ⟨d, text', rfl, hd⟩ := h.head
  obtain ⟨st, hrun, hends⟩ := h
  have hnum := scanNumber_run hc rest (d :: text') hrun hends
  have hne {e : Char} (hm : e ≠ '-') (he : e.isDigit = false) : d ≠ e := ne_of_number_head hd hm he
  simp only [List.cons_append] at hnum ⊢
  simp only [scanValue, skipSpace_cons (isSpace_number_head hd),
    if_neg (hne (e := '"') (by decide) (by decide)),
    if_neg (hne (e := '{') (by decide) (by decide)),
    if_neg (hne (e := '[') (by decide) (by decide)),
    if_neg (hne (e := 't') (by decide) (by decide)),
    if_neg (hne (e := 'f') (by decide) (by decide)),
    if_neg (hne (e := 'n') (by decide) (by decide)), hnum, Scan.map_done]

theorem number_reads {text : List Char} (h : IsNumber text) : Reads text (.number text) := by
  intro fuel c rest hc
  refine scanValue_number h ?_ fuel rest
  rcases hc with rfl | rfl
  · exact delimits_comma
  · exact delimits_brace

theorem scanMembers_last {text : List Char} {v : Value} (hv : Reads text v) (key : Utf16)
    (fuel : ℕ) (rest : List Char) :
    scanMembers (fuel + 2) (quote key ++ ':' :: text ++ '}' :: rest)
      = .done [(decodeUnits ((codePoints key).map scannedPoint), v)] rest := by
  have hread := hv fuel '}' rest (.inr rfl)
  rw [scanMembers]
  simp only [quote, List.cons_append, List.append_assoc, List.nil_append,
    skipSpace_cons (show isSpace '"' = false by decide), scanString_quote, Scan.bind_done,
    skipSpace_cons (show isSpace ':' = false by decide), hread,
    skipSpace_cons (show isSpace '}' = false by decide)]

theorem scanMembers_next {text : List Char} {v : Value} (hv : Reads text v) (key : Utf16)
    (fuel : ℕ) (rest : List Char) :
    scanMembers (fuel + 2) (quote key ++ ':' :: text ++ ',' :: rest)
      = (scanMembers (fuel + 1) rest).map
          ((decodeUnits ((codePoints key).map scannedPoint), v) :: ·) := by
  have hread := hv fuel ',' rest (.inl rfl)
  rw [scanMembers]
  simp only [quote, List.cons_append, List.append_assoc, List.nil_append,
    skipSpace_cons (show isSpace '"' = false by decide), scanString_quote, Scan.bind_done,
    skipSpace_cons (show isSpace ':' = false by decide), hread,
    skipSpace_cons (show isSpace ',' = false by decide)]

/-- The reader finds the members of a written object, in their order. -/
theorem scanMembers_write : ∀ (members : List (Utf16 × List Char)) (vs : List Value) (fuel : ℕ)
    (rest : List Char), members ≠ [] → List.Forall₂ (fun m v => Reads m.2 v) members vs →
      members.length < fuel →
      scanMembers fuel (writeMembers members ++ rest)
        = .done (List.zipWith (fun m v => (decodeUnits ((codePoints m.1).map scannedPoint), v))
            members vs) rest
  | [], _, _, _, h, _, _ => absurd rfl h
  | [(key, text)], [v], fuel, rest, _, .cons hv .nil, hf => by
    obtain ⟨fuel, rfl⟩ : ∃ k, fuel = k + 2 := ⟨fuel - 2, by simp at hf; omega⟩
    have := scanMembers_last hv key fuel rest
    simpa [writeMembers] using this
  | (key, text) :: m :: members, v :: vs, fuel, rest, _, .cons hv hvs, hf => by
    obtain ⟨fuel, rfl⟩ : ∃ k, fuel = k + 2 := ⟨fuel - 2, by simp at hf; omega⟩
    have ih := scanMembers_write (m :: members) vs (fuel + 1) rest (by simp) hvs
      (by simp at hf ⊢; omega)
    have hnext := scanMembers_next hv key fuel (writeMembers (m :: members) ++ rest)
    rw [ih] at hnext
    simpa [writeMembers] using hnext

theorem length_le_writeMembers : ∀ members : List (Utf16 × List Char),
    members.length ≤ (writeMembers members).length
  | [] => by simp
  | [(key, text)] => by
    simp [writeMembers]
    omega
  | (key, text) :: m :: members => by
    have := length_le_writeMembers (m :: members)
    simp [writeMembers] at this ⊢
    omega

theorem scanValue_writeObject {members : List (Utf16 × List Char)} {vs : List Value}
    (hne : members ≠ []) (h : List.Forall₂ (fun m v => Reads m.2 v) members vs) (fuel : ℕ)
    (hf : members.length < fuel) (rest : List Char) :
    scanValue (fuel + 1) (writeObject members ++ rest)
      = .done (.object (List.zipWith
          (fun m v => (decodeUnits ((codePoints m.1).map scannedPoint), v)) members vs)) rest := by
  have hmembers := scanMembers_write members vs fuel rest hne h hf
  have hquote : ∃ text, writeMembers members = '"' :: text := by
    match members, hne with
    | [(key, text)], _ => exact ⟨_, by rw [writeMembers, quote]; rfl⟩
    | (key, text) :: m :: rest, _ => exact ⟨_, by rw [writeMembers, quote]; rfl⟩
  obtain ⟨text, ht⟩ := hquote
  rw [ht] at hmembers
  simp only [writeObject, ht, List.cons_append] at hmembers ⊢
  rw [scanValue]
  simp only [skipSpace_cons (show isSpace '{' = false by decide),
    skipSpace_cons (show isSpace '"' = false by decide), hmembers]
  rfl

end Reading

end JsonText
