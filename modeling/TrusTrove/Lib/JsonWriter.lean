import TrusTrove.Lib.Json

/-!
# Writing a JSON value

A value is written without spaces, its strings quoted. Read back whole, with fuel for twice the
length of the text, it is the value that was written, if its numbers are texts of numbers.
-/

namespace JsonText

section Values

/-- The elements of an array, from their texts. -/
def writeElems : List (List Char) → List Char
  | [] => [']']
  | [text] => text ++ [']']
  | text :: t :: rest => text ++ ',' :: writeElems (t :: rest)

mutual

def write : Value → List Char
  | .null => "null".toList
  | .bool b => if b then "true".toList else "false".toList
  | .number text => text
  | .string s => quote (utf16 s)
  | .array elems => '[' :: writeElems (elemTexts elems)
  | .object members => writeObject (memberTexts members)

def elemTexts : List Value → List (List Char)
  | [] => []
  | v :: vs => write v :: elemTexts vs

def memberTexts : List (List Char × Value) → List (Utf16 × List Char)
  | [] => []
  | (key, v) :: ms => (utf16 key, write v) :: memberTexts ms

end

mutual

/-- The numbers of a value are texts of numbers. -/
def Numeric : Value → Prop
  | .number text => IsNumber text
  | .array elems => NumericElems elems
  | .object members => NumericMembers members
  | _ => True

def NumericElems : List Value → Prop
  | [] => True
  | v :: vs => Numeric v ∧ NumericElems vs

def NumericMembers : List (List Char × Value) → Prop
  | [] => True
  | (_, v) :: ms => Numeric v ∧ NumericMembers ms

end

/-- A text as one value. The end of the text reads as a space. -/
def read (text : List Char) : Option Value :=
  match scanValue (2 * text.length + 2) (text ++ [' ']) with
  | .done v rest => if skipSpace rest = [] then some v else none
  | _ => none

end Values

section Numbers

/-- Digits, one of them at least. -/
def Digits (ds : List Char) : Prop := ds ≠ [] ∧ ∀ c ∈ ds, c.isDigit = true

/-- Digits without a leading zero, or zero. -/
def IntegerText (ds : List Char) : Prop :=
  ds = ['0'] ∨ ∃ d rest, ds = d :: rest ∧ d ≠ '0' ∧ ∀ c ∈ d :: rest, c.isDigit = true

namespace NumberState

theorem run_append (st : NumberState) : ∀ a b : List Char,
    st.run (a ++ b) = (st.run a).bind (·.run b)
  | [], b => by simp [run]
  | c :: a, b => by
    cases h : st.step c with
    | none => simp [run, h]
    | some st' => simp [run, h, run_append st' a b]

theorem run_digits {st : NumberState} (hst : ∀ c : Char, c.isDigit = true → st.step c = some st) :
    ∀ {ds : List Char}, (∀ c ∈ ds, c.isDigit = true) → st.run ds = some st
  | [], _ => rfl
  | c :: ds, h => by
    rw [run, hst c (h c (by simp)), Option.bind_some, run_digits hst fun x hx => h x (by simp [hx])]

/-- Digits that all lead to one state. -/
theorem run_some_digits {st st' : NumberState}
    (hst : ∀ c : Char, c.isDigit = true → st.step c = some st')
    (hst' : ∀ c : Char, c.isDigit = true → st'.step c = some st') {ds : List Char} (h : Digits ds) :
    st.run ds = some st' := by
  obtain ⟨hne, hds⟩ := h
  cases ds with
  | nil => exact absurd rfl hne
  | cons c ds =>
    rw [run, hst c (hds c (by simp)), Option.bind_some,
      run_digits hst' fun x hx => hds x (by simp [hx])]

theorem run_integer {st : NumberState} (hst : st = start ∨ st = neg) {i : List Char}
    (h : IntegerText i) : st.run i = some zero ∨ st.run i = some int := by
  rcases h with rfl | ⟨d, rest, rfl, hd, hds⟩
  · left
    rcases hst with rfl | rfl <;> rfl
  · right
    have hdigit := hds d List.mem_cons_self
    have hminus : d ≠ '-' := by
      rintro rfl
      exact absurd hdigit (by decide)
    have hstep : st.step d = some int := by
      rcases hst with rfl | rfl <;> simp [step, hd, hdigit, hminus]
    rw [run, hstep, Option.bind_some]
    exact run_digits (fun c hc => by simp [step, hc]) fun c hc => hds c (by simp [hc])

end NumberState

open NumberState in
/-- The parts of a number: a sign, an integer, a fraction and an exponent. -/
theorem isNumber_of_parts {sign i f x : List Char} (hsign : sign = [] ∨ sign = ['-'])
    (hi : IntegerText i) (hf : f = [] ∨ ∃ ds, f = '.' :: ds ∧ Digits ds)
    (hx : x = [] ∨ ∃ s ds, x = 'e' :: s :: ds ∧ (s = '+' ∨ s = '-') ∧ Digits ds) :
    IsNumber (sign ++ i ++ f ++ x) := by
  obtain ⟨st₁, hst₁, hrun₁⟩ : ∃ st, (st = start ∨ st = neg) ∧ start.run sign = some st := by
    rcases hsign with rfl | rfl
    · exact ⟨start, .inl rfl, rfl⟩
    · exact ⟨neg, .inr rfl, rfl⟩
  obtain ⟨st₂, hst₂, hrun₂⟩ : ∃ st, (st = zero ∨ st = int) ∧ st₁.run i = some st := by
    rcases run_integer hst₁ hi with h | h
    · exact ⟨zero, .inl rfl, h⟩
    · exact ⟨int, .inr rfl, h⟩
  obtain ⟨st₃, hst₃, hrun₃⟩ : ∃ st, (st = zero ∨ st = int ∨ st = frac) ∧ st₂.run f = some st := by
    rcases hf with rfl | ⟨ds, rfl, hds⟩
    · exact ⟨st₂, hst₂.imp_right .inl, rfl⟩
    · have hdot : st₂.step '.' = some dot := by rcases hst₂ with rfl | rfl <;> rfl
      refine ⟨frac, .inr (.inr rfl), ?_⟩
      rw [run, hdot, Option.bind_some]
      exact run_some_digits (fun c hc => by simp [step, hc]) (fun c hc => by simp [step, hc]) hds
  obtain ⟨st₄, hends, hrun₄⟩ : ∃ st, st.ends = true ∧ st₃.run x = some st := by
    rcases hx with rfl | ⟨s, ds, rfl, hs, hds⟩
    · exact ⟨st₃, by rcases hst₃ with rfl | rfl | rfl <;> rfl, rfl⟩
    · have he : st₃.step 'e' = some exp := by rcases hst₃ with rfl | rfl | rfl <;> rfl
      have hsign : exp.step s = some expSign := by rcases hs with rfl | rfl <;> rfl
      refine ⟨expDigits, rfl, ?_⟩
      rw [run, he, Option.bind_some, run, hsign, Option.bind_some]
      exact run_some_digits (fun c hc => by simp [step, hc]) (fun c hc => by simp [step, hc]) hds
  exact ⟨st₄, by simp [run_append, hrun₁, hrun₂, hrun₃, hrun₄], hends⟩

theorem integerText_toDigits (n : ℕ) : IntegerText (Nat.toDigits 10 n) := by
  have hlead : ∀ n : ℕ, 0 < n → ∃ d rest, Nat.toDigits 10 n = d :: rest ∧ d ≠ '0' := by
    intro n
    induction n using Nat.strongRecOn with
    | ind n ih =>
      intro hn
      by_cases hlt : n < 10
      · refine ⟨n.digitChar, [], Nat.toDigits_of_lt_base hlt, ?_⟩
        interval_cases n <;> decide
      · obtain ⟨d, rest, hd, hne⟩ := ih (n / 10) (by omega) (by omega)
        exact ⟨d, rest ++ [(n % 10).digitChar], by
          rw [Nat.toDigits_of_base_le (by omega) (by omega), hd, List.cons_append], hne⟩
  rcases Nat.eq_zero_or_pos n with rfl | hn
  · exact .inl rfl
  · obtain ⟨d, rest, hd, hne⟩ := hlead n hn
    refine .inr ⟨d, rest, hd, hne, fun c hc => ?_⟩
    rw [← hd] at hc
    exact Nat.isDigit_of_mem_toDigits (by omega) (by omega) hc

theorem IntegerText.take {ds : List Char} (h : IntegerText ds) {n : ℕ} (hn : 0 < n) :
    IntegerText (ds.take n) := by
  obtain ⟨m, rfl⟩ : ∃ m, n = m + 1 := ⟨n - 1, by omega⟩
  rcases h with rfl | ⟨d, rest, rfl, hd, hds⟩
  · exact .inl (by simp)
  · refine .inr ⟨d, rest.take m, by simp, hd, fun c hc => hds c ?_⟩
    rcases List.mem_cons.1 hc with rfl | hc
    · exact List.mem_cons_self
    · exact List.mem_cons_of_mem d (List.mem_of_mem_take hc)

theorem IntegerText.append {ds zs : List Char} (h : IntegerText ds) (hds : ds ≠ ['0'])
    (hzs : ∀ c ∈ zs, c.isDigit = true) : IntegerText (ds ++ zs) := by
  rcases h with rfl | ⟨d, rest, rfl, hd, hdigits⟩
  · exact absurd rfl hds
  · refine .inr ⟨d, rest ++ zs, rfl, hd, fun c hc => ?_⟩
    rw [← List.cons_append] at hc
    rcases List.mem_append.1 hc with hc | hc
    · exact hdigits c hc
    · exact hzs c hc

end Numbers

section Reading

theorem delimits_bracket : Delimits ']' := by
  intro st
  cases st <;> decide

/-- The text of a value does not start with a space or a closing bracket. -/
theorem write_head : ∀ {v : Value}, Numeric v →
    ∃ c rest, write v = c :: rest ∧ isSpace c = false ∧ c ≠ ']'
  | .null, _ => ⟨'n', "ull".toList, rfl, by decide, by decide⟩
  | .bool true, _ => ⟨'t', "rue".toList, rfl, by decide, by decide⟩
  | .bool false, _ => ⟨'f', "alse".toList, rfl, by decide, by decide⟩
  | .number text, h => by
    rw [Numeric] at h
    obtain ⟨d, rest, rfl, hd⟩ := h.head
    exact ⟨d, rest, by rw [write], isSpace_number_head hd,
      ne_of_number_head hd (by decide) (by decide)⟩
  | .string s, _ => ⟨'"', _, by rw [write, quote]; rfl, by decide, by decide⟩
  | .array elems, _ => ⟨'[', _, by rw [write], by decide, by decide⟩
  | .object members, _ => ⟨'{', _, by rw [write, writeObject], by decide, by decide⟩

theorem length_pos_write {v : Value} (h : Numeric v) : 0 < (write v).length := by
  obtain ⟨c, rest, hc, -⟩ := write_head h
  simp [hc]

/-- Twice the length of a text is fuel for a step. -/
theorem exists_fuel {n fuel : ℕ} (hn : 0 < n) (hf : 2 * n ≤ fuel) : ∃ f, fuel = f + 1 :=
  ⟨fuel - 1, by omega⟩

theorem writeElems_head {v : Value} (h : Numeric v) (vs : List Value) :
    ∃ c rest, writeElems (elemTexts (v :: vs)) = c :: rest ∧ isSpace c = false ∧ c ≠ ']' := by
  obtain ⟨c, rest, hc, hspace, hne⟩ := write_head h
  rw [elemTexts]
  cases elemTexts vs with
  | nil => exact ⟨c, rest ++ [']'], by rw [writeElems, hc]; rfl, hspace, hne⟩
  | cons t ts =>
    exact ⟨c, rest ++ ',' :: writeElems (t :: ts), by rw [writeElems, hc]; rfl, hspace, hne⟩

theorem writeMembers_head (m : List Char × Value) (ms : List (List Char × Value)) :
    ∃ rest, writeMembers (memberTexts (m :: ms)) = '"' :: rest := by
  rw [memberTexts]
  cases memberTexts ms with
  | nil => exact ⟨_, by rw [writeMembers, quote]; rfl⟩
  | cons t ts => exact ⟨_, by rw [writeMembers, quote]; rfl⟩

theorem scanValue_open_array {c : Char} (hspace : isSpace c = false) (hne : c ≠ ']') (fuel : ℕ)
    (text : List Char) :
    scanValue (fuel + 1) ('[' :: c :: text) = (scanElems fuel (c :: text)).map .array := by
  have hopen : ('[' = '"') = False ∧ ('[' = '{') = False := by decide
  simp only [scanValue, skipSpace_cons (show isSpace '[' = false by decide),
    skipSpace_cons hspace, hopen.1, hopen.2, if_false, if_true]
  split
  · next heq => cases heq
  · next heq => exact absurd (List.cons.inj heq).1 hne
  · rfl

theorem scanValue_open_object (fuel : ℕ) (text : List Char) :
    scanValue (fuel + 1) ('{' :: '"' :: text) = (scanMembers fuel ('"' :: text)).map .object := by
  simp only [scanValue, skipSpace_cons (show isSpace '{' = false by decide),
    skipSpace_cons (show isSpace '"' = false by decide)]
  rfl

mutual

/-- The reader finds a written value at the front of a text. -/
theorem scanValue_write : ∀ (v : Value), Numeric v → ∀ (fuel : ℕ) {c : Char} (rest : List Char),
    2 * (write v).length ≤ fuel → Delimits c →
    scanValue fuel (write v ++ c :: rest) = .done v (c :: rest)
  | .null, h, fuel, c, rest, hf, hc => by
    obtain ⟨fuel, rfl⟩ := exists_fuel (length_pos_write h) hf
    simp [write, scanValue, skipSpace_cons (show isSpace 'n' = false by decide), scanLiteral]
  | .bool b, h, fuel, c, rest, hf, hc => by
    obtain ⟨fuel, rfl⟩ := exists_fuel (length_pos_write h) hf
    cases b
    · simp [write, scanValue, skipSpace_cons (show isSpace 'f' = false by decide), scanLiteral]
    · simp [write, scanValue, skipSpace_cons (show isSpace 't' = false by decide), scanLiteral]
  | .number text, h, fuel, c, rest, hf, hc => by
    obtain ⟨fuel, rfl⟩ := exists_fuel (length_pos_write h) hf
    rw [Numeric] at h
    rw [write]
    exact scanValue_number h hc fuel rest
  | .string s, h, fuel, c, rest, hf, hc => by
    obtain ⟨fuel, rfl⟩ := exists_fuel (length_pos_write h) hf
    rw [write, quote]
    simp only [List.cons_append, List.append_assoc, List.nil_append, scanValue,
      skipSpace_cons (show isSpace '"' = false by decide), if_true, scanString_quote,
      Scan.map_done, decodeUnits_utf16]
  | .array [], h, fuel, c, rest, hf, hc => by
    obtain ⟨fuel, rfl⟩ := exists_fuel (length_pos_write h) hf
    simp [write, elemTexts, writeElems, scanValue,
      skipSpace_cons (show isSpace '[' = false by decide),
      skipSpace_cons (show isSpace ']' = false by decide)]
  | .array (v :: vs), h, fuel, c, rest, hf, hc => by
    obtain ⟨fuel, rfl⟩ := exists_fuel (length_pos_write h) hf
    rw [Numeric] at h
    have helems := scanElems_write (v :: vs) (by simp) h fuel (c :: rest)
      (by simp only [write, List.length_cons] at hf; omega)
    have hv : Numeric v := by rw [NumericElems] at h; exact h.1
    obtain ⟨d, text, hd, hspace, hne⟩ := writeElems_head hv vs
    rw [hd, List.cons_append] at helems
    rw [write, hd, List.cons_append, List.cons_append, scanValue_open_array hspace hne, helems,
      Scan.map_done]
  | .object [], h, fuel, c, rest, hf, hc => by
    obtain ⟨fuel, rfl⟩ := exists_fuel (length_pos_write h) hf
    simp [write, memberTexts, writeObject, writeMembers, scanValue,
      skipSpace_cons (show isSpace '{' = false by decide),
      skipSpace_cons (show isSpace '}' = false by decide)]
  | .object (m :: ms), h, fuel, c, rest, hf, hc => by
    obtain ⟨fuel, rfl⟩ := exists_fuel (length_pos_write h) hf
    rw [Numeric] at h
    have hmembers := scanMembers_memberTexts (m :: ms) (by simp) h fuel (c :: rest)
      (by simp only [write, writeObject, List.length_cons] at hf; omega)
    obtain ⟨text, ht⟩ := writeMembers_head m ms
    rw [ht, List.cons_append] at hmembers
    rw [write, writeObject, ht, List.cons_append, List.cons_append, scanValue_open_object, hmembers,
      Scan.map_done]

theorem scanElems_write : ∀ (vs : List Value), vs ≠ [] → NumericElems vs →
    ∀ (fuel : ℕ) (rest : List Char), 2 * (writeElems (elemTexts vs)).length ≤ fuel →
    scanElems fuel (writeElems (elemTexts vs) ++ rest) = .done vs rest
  | [], hne, _, _, _, _ => absurd rfl hne
  | [v], _, h, fuel, rest, hf => by
    rw [NumericElems] at h
    simp only [elemTexts, writeElems] at hf ⊢
    obtain ⟨fuel, rfl⟩ := exists_fuel (by simp) hf
    have hv := scanValue_write v h.1 fuel rest (by simp at hf; omega) delimits_bracket
    rw [scanElems, List.append_assoc, List.singleton_append, hv, Scan.bind_done,
      skipSpace_cons (show isSpace ']' = false by decide)]
    rfl
  | v :: w :: vs, _, h, fuel, rest, hf => by
    rw [NumericElems] at h
    simp only [elemTexts, writeElems] at hf ⊢
    obtain ⟨fuel, rfl⟩ := exists_fuel (by simp) hf
    have hv := scanValue_write v h.1 fuel (writeElems (elemTexts (w :: vs)) ++ rest)
      (by simp at hf; omega) delimits_comma
    have hvs := scanElems_write (w :: vs) (by simp) h.2 fuel rest
      (by simp [elemTexts] at hf ⊢; omega)
    simp only [elemTexts] at hv hvs
    rw [scanElems, List.append_assoc, List.cons_append, hv, Scan.bind_done,
      skipSpace_cons (show isSpace ',' = false by decide)]
    simp only [hvs, Scan.map_done]

theorem scanMembers_memberTexts : ∀ (ms : List (List Char × Value)), ms ≠ [] → NumericMembers ms →
    ∀ (fuel : ℕ) (rest : List Char), 2 * (writeMembers (memberTexts ms)).length ≤ fuel →
    scanMembers fuel (writeMembers (memberTexts ms) ++ rest) = .done ms rest
  | [], hne, _, _, _, _ => absurd rfl hne
  | [(key, v)], _, h, fuel, rest, hf => by
    rw [NumericMembers] at h
    simp only [memberTexts, writeMembers] at hf ⊢
    obtain ⟨fuel, rfl⟩ := exists_fuel (by simp) hf
    have hv := scanValue_write v h.1 fuel rest (by simp at hf; omega) delimits_brace
    rw [scanMembers]
    simp only [quote, List.cons_append, List.append_assoc, List.nil_append,
      skipSpace_cons (show isSpace '"' = false by decide), scanString_quote, Scan.bind_done,
      skipSpace_cons (show isSpace ':' = false by decide), hv,
      skipSpace_cons (show isSpace '}' = false by decide), decodeUnits_utf16]
  | (key, v) :: m :: ms, _, h, fuel, rest, hf => by
    rw [NumericMembers] at h
    obtain ⟨key', w⟩ := m
    simp only [memberTexts, writeMembers] at hf ⊢
    obtain ⟨fuel, rfl⟩ := exists_fuel (by simp) hf
    have hv := scanValue_write v h.1 fuel (writeMembers (memberTexts ((key', w) :: ms)) ++ rest)
      (by simp at hf; omega) delimits_comma
    have hms := scanMembers_memberTexts ((key', w) :: ms) (by simp) h.2 fuel rest
      (by simp [memberTexts] at hf ⊢; omega)
    simp only [memberTexts] at hv hms
    rw [scanMembers]
    simp only [quote, List.cons_append, List.append_assoc, List.nil_append,
      skipSpace_cons (show isSpace '"' = false by decide), scanString_quote, Scan.bind_done,
      skipSpace_cons (show isSpace ':' = false by decide), hv,
      skipSpace_cons (show isSpace ',' = false by decide), decodeUnits_utf16, hms, Scan.map_done]

end

end Reading

end JsonText
