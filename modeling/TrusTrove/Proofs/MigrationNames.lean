import TrusTrove.Lib.Decimal
import TrusTrove.MigrationNames

/-!
# Which listings of migrations are accepted

What the loop over the names has gathered is said of the names alone (`Scanned`), so the order they
come in, and the order the map of numbers is visited in, do not show in the answer.
-/

namespace TrusTrove

open Regex RegularExpression

section Names

def EndsInSql (name : String) : Prop := ".sql".toList <:+ name.toList

/-- Three digits, an underscore, lowercase letters, digits or underscores, and `.sql`. -/
def IsMigrationName (name : String) : Prop :=
  ∃ number description : List Char,
    number.length = 3 ∧ (∀ c ∈ number, c.isDigit = true) ∧
    description ≠ [] ∧ (∀ c ∈ description, c.isLower = true ∨ c.isDigit = true ∨ c = '_') ∧
    name.toList = number ++ '_' :: description ++ ".sql".toList

/-- Digits and an underscore in front. -/
def LooksNumbered (name : String) : Prop :=
  ∃ number rest : List Char, number ≠ [] ∧ (∀ c ∈ number, c.isDigit = true) ∧
    name.toList = number ++ '_' :: rest

/-- The files a number may be shared by. -/
def sharedFiles : Set String := {"009_add_webhook_subscriptions.sql", "009_webhooks.sql"}

structure ValidNames (names : List String) : Prop where
  sql : ∀ name ∈ names, EndsInSql name → IsMigrationName name
  other : ∀ name ∈ names, ¬ EndsInSql name → ¬ LooksNumbered name
  /-- Two files of one number have the number 009 and are all the files there are of it. -/
  numbers : ∀ a ∈ names, ∀ b ∈ names, EndsInSql a → EndsInSql b → a ≠ b →
    migrationNumber a = migrationNumber b →
    migrationNumber a = "009" ∧
      {x | x ∈ names ∧ EndsInSql x ∧ migrationNumber x = "009"} = sharedFiles

theorem isSql_iff {name : String} : isSql name = true ↔ EndsInSql name := by
  rw [isSql, List.isSuffixOf_iff_suffix, EndsInSql]

theorem mem_descriptionLetters {c : Char} :
    c ∈ descriptionLetters ↔ c.isLower = true ∨ c.isDigit = true ∨ c = '_' := by
  have hsplit : descriptionLetters
      = "abcdefghijklmnopqrstuvwxyz".toList ++ "0123456789".toList ++ ['_'] := rfl
  have hlower : c ∈ "abcdefghijklmnopqrstuvwxyz".toList ↔ c.isLower = true := by
    constructor
    · intro h
      fin_cases h <;> rfl
    · intro h
      have hbounds : 97 ≤ c.toNat ∧ c.toNat ≤ 122 := by
        simpa [Char.isLower, UInt32.le_iff_toNat_le] using h
      obtain ⟨n, hn, rfl⟩ : ∃ n < 26, c = Char.ofNat (97 + n) :=
        ⟨c.toNat - 97, by omega, by rw [Nat.add_sub_cancel' hbounds.1, Char.ofNat_toNat]⟩
      interval_cases n <;> decide
  rw [hsplit, List.mem_append, List.mem_append, hlower, mem_digits, List.mem_singleton, or_assoc]

theorem migrationNamePattern_iff {name : String} :
    migrationNamePattern.rmatch name.toList = true ↔ IsMigrationName name := by
  simp only [rmatch_iff_matches', migrationNamePattern, mem_mul, mem_pow_digit, mem_char,
    mem_oneOrMore_oneOf, mem_literal, mem_descriptionLetters, IsMigrationName]
  constructor
  · rintro ⟨d, ⟨hlen, hd⟩, _, ⟨_, rfl, _, ⟨u, ⟨hne, hu⟩, _, rfl, rfl⟩, rfl⟩, h⟩
    exact ⟨d, u, hlen, hd, hne, hu, by simp [← h]⟩
  · rintro ⟨d, u, hlen, hd, hne, hu, h⟩
    exact ⟨d, ⟨hlen, hd⟩, _, ⟨['_'], rfl, _, ⟨u, ⟨hne, hu⟩, _, rfl, rfl⟩, rfl⟩, by simp [h]⟩

theorem migrationLookalikePattern_iff {name : String} :
    matchesPrefix migrationLookalikePattern name.toList = true ↔ LooksNumbered name := by
  simp only [matchesPrefix_iff, migrationLookalikePattern, mem_mul, mem_char, mem_oneOrMore_digit,
    LooksNumbered]
  constructor
  · rintro ⟨_, ⟨d, ⟨hne, hd⟩, _, rfl, rfl⟩, rest, h⟩
    exact ⟨d, rest, hne, hd, by simp [← h]⟩
  · rintro ⟨d, rest, hne, hd, h⟩
    exact ⟨_, ⟨d, ⟨hne, hd⟩, _, rfl, rfl⟩, rest, by simp [h]⟩

theorem IsMigrationName.endsInSql {name : String} (h : IsMigrationName name) : EndsInSql name := by
  obtain ⟨d, u, -, -, -, -, h⟩ := h
  exact ⟨_, h.symm⟩

end Names

section Scan

/-- The name adds no error of its own. -/
def NameOk (name : String) : Prop :=
  (EndsInSql name → IsMigrationName name) ∧ (¬ EndsInSql name → ¬ LooksNumbered name)

def isMigration (name : String) : Bool := migrationNamePattern.rmatch name.toList

theorem lookup_appendFile (number name k : String) (m : List (String × List String)) :
    ((appendFile number name m).lookup k).getD []
      = (m.lookup k).getD [] ++ if k = number then [name] else [] := by
  induction m with
  | nil =>
    by_cases h : k = number
    · simp [appendFile, h]
    · simp [appendFile, h, List.lookup_cons, beq_false_of_ne h]
  | cons e m ih =>
    obtain ⟨key, files⟩ := e
    by_cases hkey : key = number
    · subst hkey
      by_cases hk : k = key
      · simp [appendFile, hk]
      · simp [appendFile, hk, List.lookup_cons, beq_false_of_ne hk]
    · by_cases hk : k = key
      · subst hk
        simp [appendFile, hkey]
      · simp only [appendFile, if_neg hkey, List.lookup_cons, beq_false_of_ne hk, ih]

theorem keys_appendFile (number name k : String) (m : List (String × List String)) :
    k ∈ (appendFile number name m).map Prod.fst ↔ k = number ∨ k ∈ m.map Prod.fst := by
  induction m with
  | nil => simp [appendFile]
  | cons e m ih =>
    obtain ⟨key, files⟩ := e
    by_cases hkey : key = number
    · subst hkey
      simp [appendFile]
    · rw [appendFile, if_neg hkey, List.map_cons, List.mem_cons, ih, List.map_cons, List.mem_cons]
      tauto

/-- What the loop has gathered from the names it has seen. -/
structure Scanned (names : List String) (s : NameScan) : Prop where
  errs : s.errs = [] ↔ ∀ name ∈ names, NameOk name
  migrations : s.migrations = names.filter isMigration
  files : ∀ number, (s.byNumber.lookup number).getD []
    = (names.filter isMigration).filter fun name => migrationNumber name = number
  keys : ∀ number, number ∈ s.byNumber.map Prod.fst ↔
    ∃ name ∈ names.filter isMigration, migrationNumber name = number

variable {names : List String} {name : String} {s : NameScan}

theorem forall_nameOk_snoc :
    (∀ x ∈ names ++ [name], NameOk x) ↔ (∀ x ∈ names, NameOk x) ∧ NameOk name := by
  rw [List.forall_mem_append, List.forall_mem_singleton]

/-- A name that is no migration leaves all but the errors. -/
theorem scanned_skip (h : Scanned names s) (hno : isMigration name = false) {s' : NameScan}
    (hb : s'.byNumber = s.byNumber) (hm : s'.migrations = s.migrations)
    (he : s'.errs = [] ↔ s.errs = [] ∧ NameOk name) : Scanned (names ++ [name]) s' := by
  have hfilter : (names ++ [name]).filter isMigration = names.filter isMigration := by
    simp [List.filter_append, hno]
  exact ⟨by rw [he, forall_nameOk_snoc, h.errs], by rw [hm, h.migrations, hfilter],
    by rw [hb, hfilter]; exact h.files, by rw [hb, hfilter]; exact h.keys⟩

theorem scanned_migration (h : Scanned names s) (hm : isMigration name = true)
    (hname : NameOk name) :
    Scanned (names ++ [name]) { s with
      migrations := s.migrations ++ [name]
      byNumber := appendFile (migrationNumber name) name s.byNumber } := by
  have hfilter : (names ++ [name]).filter isMigration = names.filter isMigration ++ [name] := by
    simp [List.filter_append, hm]
  refine ⟨by rw [forall_nameOk_snoc, h.errs]; simp [hname], by rw [hfilter, h.migrations],
    fun number => ?_, fun number => ?_⟩
  · simp only [lookup_appendFile, hfilter, List.filter_append, h.files]
    by_cases hk : number = migrationNumber name
    · simp [hk]
    · simp [hk, Ne.symm hk]
  · simp only [keys_appendFile, hfilter, h.keys, List.mem_append, List.mem_singleton,
      or_and_right, exists_or, exists_eq_left]
    rw [or_comm, eq_comm]

theorem scanned_next (h : Scanned names s) (name : String) :
    Scanned (names ++ [name]) (s.next name) := by
  unfold NameScan.next
  by_cases hsql : isSql name = true
  · have hends := isSql_iff.1 hsql
    rw [hsql, Bool.not_true, if_neg Bool.false_ne_true]
    cases hm : migrationNamePattern.rmatch name.toList
    · rw [Bool.not_false, if_pos rfl]
      refine scanned_skip h hm rfl rfl ?_
      have hbad : ¬ NameOk name := fun hname => by
        rw [migrationNamePattern_iff.2 (hname.1 hends)] at hm
        cases hm
      simp [hbad]
    · rw [Bool.not_true, if_neg Bool.false_ne_true]
      have hname : NameOk name :=
        ⟨fun _ => migrationNamePattern_iff.1 hm, fun hn => absurd hends hn⟩
      exact scanned_migration h hm hname
  · have hends : ¬ EndsInSql name := fun he => hsql (isSql_iff.2 he)
    have hno : isMigration name = false := by
      by_contra hm
      rw [Bool.not_eq_false] at hm
      exact hends (migrationNamePattern_iff.1 hm).endsInSql
    rw [Bool.eq_false_of_not_eq_true hsql, Bool.not_false, if_pos rfl]
    by_cases hlook : matchesPrefix migrationLookalikePattern name.toList = true
    · rw [if_pos hlook]
      refine scanned_skip h hno rfl rfl ?_
      have hbad : ¬ NameOk name := fun hname =>
        hname.2 hends (migrationLookalikePattern_iff.1 hlook)
      simp [hbad]
    · rw [if_neg hlook]
      refine scanned_skip h hno rfl rfl ?_
      have hname : NameOk name := ⟨fun he => absurd he hends, fun _ hl =>
        hlook (migrationLookalikePattern_iff.2 hl)⟩
      simp [hname]

theorem scanned (names : List String) :
    Scanned names (names.foldl NameScan.next ⟨[], [], []⟩) := by
  induction names using List.reverseRecOn with
  | nil => exact ⟨by simp, rfl, fun _ => rfl, by simp⟩
  | append_singleton names name ih =>
    rw [List.foldl_append]
    exact scanned_next ih name

end Scan

section Sorted

theorem sortStrings_perm (s : List String) : (sortStrings s).Perm s := List.perm_insertionSort _ s

theorem sortStrings_pairwise (s : List String) : (sortStrings s).Pairwise (· ≤ ·) :=
  List.pairwise_insertionSort _ s

theorem sortStrings_eq_iff {s t : List String} : sortStrings s = sortStrings t ↔ s.Perm t := by
  constructor
  · intro h
    exact (sortStrings_perm s).symm.trans (h ▸ sortStrings_perm t)
  · intro h
    exact List.Perm.eq_of_pairwise' (sortStrings_pairwise s) (sortStrings_pairwise t)
      ((sortStrings_perm s).trans (h.trans (sortStrings_perm t).symm))

/-- In lexical order the leading digits are in the order of their numbers. -/
theorem digitsValue_take_le : ∀ (k : ℕ) {s t : List Char}, s ≤ t →
    (∀ c ∈ s.take k, c.isDigit = true) → (∀ c ∈ t.take k, c.isDigit = true) →
    k ≤ s.length → k ≤ t.length →
    Decimal.digitsValue (s.take k) ≤ Decimal.digitsValue (t.take k)
  | 0, _, _, _, _, _, _, _ => by simp
  | k + 1, c :: s, d :: t, hle, hs, ht, hls, hlt => by
    have hc := hs c (by simp)
    have hd := ht d (by simp)
    have hs' : Decimal.AreDigits (s.take k) := fun x hx => hs x (by simp [hx])
    have ht' : Decimal.AreDigits (t.take k) := fun x hx => ht x (by simp [hx])
    have hlens : (s.take k).length = k := by simpa using hls
    have hlent : (t.take k).length = k := by simpa using hlt
    have hsum (x : Char) (l : List Char) : Decimal.digitsValue (x :: l)
        = Decimal.digitsValue [x] * 10 ^ l.length + Decimal.digitsValue l :=
      Decimal.digitsValue_append [x] l
    have hvalue (x : Char) : Decimal.digitsValue [x] = x.toNat - 48 := by
      simp [Decimal.digitsValue, Nat.ofDigitChars_cons]
    have hsmall := Decimal.digitsValue_lt hs'
    rw [hlens] at hsmall
    rw [List.take_succ_cons, List.take_succ_cons, hsum c (s.take k), hsum d (t.take k),
      hlens, hlent, hvalue, hvalue]
    have hcases : c < d ∨ c = d ∧ s ≤ t := by
      rcases hle.lt_or_eq with h | h
      · exact (List.cons_lt_cons_iff.1 h).imp_right fun h => ⟨h.1, h.2.le⟩
      · exact .inr ((List.cons.inj h).imp_right le_of_eq)
    rcases hcases with hlt' | ⟨rfl, hle'⟩
    · have hcd : c.toNat < d.toNat := UInt32.lt_iff_toNat_lt.1 (Char.lt_def.1 hlt')
      have hbound := (isDigit_bounds hc).1
      obtain ⟨m, hm⟩ : ∃ m, d.toNat - 48 = c.toNat - 48 + 1 + m :=
        ⟨d.toNat - c.toNat - 1, by omega⟩
      rw [hm]
      nlinarith [Nat.zero_le (m * 10 ^ k)]
    · have := digitsValue_take_le k hle' (fun x hx => hs' x hx) (fun x hx => ht' x hx)
        (by simpa using hls) (by simpa using hlt)
      omega

end Sorted

section Accepted

/-- The number of a migration file. -/
def numberValue (name : String) : ℕ := Decimal.digitsValue (name.toList.take 3)

theorem IsMigrationName.take_three {name : String} (h : IsMigrationName name) :
    3 ≤ name.toList.length ∧ ∀ c ∈ name.toList.take 3, c.isDigit = true := by
  obtain ⟨d, u, hlen, hd, -, -, h⟩ := h
  have htake : name.toList.take 3 = d := by
    rw [h, List.append_assoc, List.take_append_of_le_length hlen.ge, ← hlen, List.take_length]
  refine ⟨?_, htake ▸ hd⟩
  rw [h]
  simp [hlen]

theorem numberValue_mono {a b : String} (ha : IsMigrationName a) (hb : IsMigrationName b)
    (h : a ≤ b) : numberValue a ≤ numberValue b :=
  digitsValue_take_le 3 (String.le_iff_toList_le.1 h) ha.take_three.2 hb.take_three.2
    ha.take_three.1 hb.take_three.1

theorem isKnownDuplicate_iff {number : String} {files : List String} :
    isKnownDuplicate number files = true ↔ number = "009" ∧
      files.Perm ["009_add_webhook_subscriptions.sql", "009_webhooks.sql"] := by
  by_cases hn : number = "009"
  · subst hn
    have hlookup : knownDuplicateMigrations.lookup "009"
        = some ["009_add_webhook_subscriptions.sql", "009_webhooks.sql"] := rfl
    simp only [isKnownDuplicate, hlookup, Bool.and_eq_true, decide_eq_true_eq, sortStrings_eq_iff,
      true_and]
    exact ⟨And.right, fun h => ⟨h.length_eq.symm, h⟩⟩
  · simp [isKnownDuplicate, knownDuplicateMigrations, List.lookup_cons, beq_false_of_ne hn, hn]

theorem perm_pair_iff {files : List String} (hnd : files.Nodup) {a b : String} (hab : a ≠ b) :
    files.Perm [a, b] ↔ {x | x ∈ files} = ({a, b} : Set String) := by
  rw [List.perm_ext_iff_of_nodup hnd (by simp [hab]), Set.ext_iff]
  simp

/-- The files of a number give an error unless there is one at most or they may share it. -/
theorem duplicateError_eq_none_iff {byNumber : List (String × List String)} {number : String} :
    duplicateError byNumber number = none ↔
      ((byNumber.lookup number).getD []).length < 2 ∨
        isKnownDuplicate number ((byNumber.lookup number).getD []) = true := by
  unfold duplicateError
  simp only []
  split_ifs with h
  · exact ⟨fun _ => h, fun _ => rfl⟩
  · exact ⟨(nomatch ·), fun h' => absurd h' h⟩

theorem mem_migrations {names : List String} (hok : ∀ name ∈ names, NameOk name) {name : String} :
    name ∈ names.filter isMigration ↔ name ∈ names ∧ EndsInSql name := by
  rw [List.mem_filter, isMigration, migrationNamePattern_iff]
  exact and_congr_right fun hmem => ⟨IsMigrationName.endsInSql, (hok name hmem).1⟩

/-- The files of one number, when every name is well formed. -/
theorem mem_files {names : List String} (hok : ∀ name ∈ names, NameOk name)
    {number name : String} :
    name ∈ (names.filter isMigration).filter (fun x => migrationNumber x = number) ↔
      name ∈ names ∧ EndsInSql name ∧ migrationNumber name = number := by
  rw [List.mem_filter, mem_migrations hok, decide_eq_true_eq, and_assoc]

/-- A list without repetitions has fewer than two elements when no two are different. -/
theorem length_lt_two_iff {l : List String} (hnd : l.Nodup) :
    l.length < 2 ↔ ∀ a ∈ l, ∀ b ∈ l, a = b := by
  rw [← List.toFinset_card_of_nodup hnd, Nat.lt_succ_iff, Finset.card_le_one]
  simp

theorem validNames_iff {names : List String} (hnd : names.Nodup) :
    ValidNames names ↔ (∀ name ∈ names, NameOk name) ∧
      ∀ number, (∃ name ∈ names.filter isMigration, migrationNumber name = number) →
        ((names.filter isMigration).filter fun x => migrationNumber x = number).length < 2 ∨
          isKnownDuplicate number
            ((names.filter isMigration).filter fun x => migrationNumber x = number) = true := by
  have hdup (number : String) :
      ((names.filter isMigration).filter fun x => migrationNumber x = number).Nodup :=
    (hnd.filter _).filter _
  constructor
  · intro h
    have hok : ∀ name ∈ names, NameOk name := fun name hm => ⟨h.sql name hm, h.other name hm⟩
    refine ⟨hok, fun number _ => or_iff_not_imp_left.2 fun hlen => ?_⟩
    obtain ⟨a, hafile, b, hbfile, hne⟩ :
        ∃ a ∈ (names.filter isMigration).filter fun x => migrationNumber x = number,
          ∃ b ∈ (names.filter isMigration).filter fun x => migrationNumber x = number, a ≠ b := by
      rw [length_lt_two_iff (hdup number)] at hlen
      push Not at hlen
      exact hlen
    obtain ⟨ha, hasql, hanum⟩ := (mem_files hok).1 hafile
    obtain ⟨hb, hbsql, hbnum⟩ := (mem_files hok).1 hbfile
    obtain ⟨hnine, hset⟩ := h.numbers a ha b hb hasql hbsql hne (hanum.trans hbnum.symm)
    obtain rfl : number = "009" := hanum.symm.trans hnine
    rw [isKnownDuplicate_iff, perm_pair_iff (hdup _) (by decide)]
    refine ⟨rfl, ?_⟩
    rw [← sharedFiles, ← hset]
    exact Set.ext fun x => mem_files hok
  · rintro ⟨hok, hnumbers⟩
    refine ⟨fun name hm => (hok name hm).1, fun name hm => (hok name hm).2, ?_⟩
    intro a ha b hb hasql hbsql hne hnum
    have hamem := (mem_files hok).2 ⟨ha, hasql, rfl⟩
    have hbmem := (mem_files hok).2 ⟨hb, hbsql, hnum.symm⟩
    rcases hnumbers (migrationNumber a) ⟨a, (mem_migrations hok).2 ⟨ha, hasql⟩, rfl⟩ with hlen | hk
    · exact absurd ((length_lt_two_iff (hdup _)).1 hlen a hamem b hbmem) hne
    · obtain ⟨hnine, hperm⟩ := isKnownDuplicate_iff.1 hk
      refine ⟨hnine, ?_⟩
      rw [hnine, perm_pair_iff (hdup _) (by decide), ← sharedFiles] at hperm
      rw [← hperm]
      exact Set.ext fun x => (mem_files hok).symm

theorem validateMigrationNames_ok_iff {o : MapOrder} {names : List String} (hnd : names.Nodup)
    {ms : List String} :
    validateMigrationNames o names = .ok ms ↔
      ValidNames names ∧ ms = sortStrings (names.filter isMigration) := by
  have hs := scanned names
  rw [validNames_iff hnd, validateMigrationNames]
  set s := names.foldl NameScan.next ⟨[], [], []⟩ with hsdef
  have hdups : (sortStrings (o.visit (s.byNumber.map Prod.fst))).filterMap
      (duplicateError s.byNumber) = [] ↔
      ∀ number, (∃ name ∈ names.filter isMigration, migrationNumber name = number) →
        ((names.filter isMigration).filter fun x => migrationNumber x = number).length < 2 ∨
          isKnownDuplicate number
            ((names.filter isMigration).filter fun x => migrationNumber x = number) = true := by
    simp only [List.filterMap_eq_nil_iff, (sortStrings_perm _).mem_iff, (o.perm _).mem_iff, hs.keys,
      duplicateError_eq_none_iff, hs.files]
  rw [← hs.errs, ← hdups, ← List.append_eq_nil_iff, ← hs.migrations]
  split_ifs with herr
  · exact ⟨(nomatch ·), fun h => absurd h.1 herr⟩
  · rw [not_not] at herr
    rw [Except.ok.injEq]
    exact ⟨fun h => ⟨herr, h.symm⟩, fun h => h.2.symm⟩

/-- A listing is accepted exactly when its names are valid; the answer is then the sorted list of
the migration files, in the order of their numbers, whatever order the listing has. -/
theorem validateMigrationNames_exact (o : MapOrder) {names : List String} (hnd : names.Nodup) :
    ((∃ ms, validateMigrationNames o names = .ok ms) ↔ ValidNames names) ∧
    ∀ ms, validateMigrationNames o names = .ok ms →
      ms.Pairwise (· < ·) ∧ (∀ x, x ∈ ms ↔ x ∈ names ∧ EndsInSql x) ∧
      (ms.map numberValue).Pairwise (· ≤ ·) ∧
      ∀ (o' : MapOrder) (names' : List String), names'.Perm names →
        validateMigrationNames o' names' = .ok ms := by
  refine ⟨⟨fun ⟨ms, h⟩ => ((validateMigrationNames_ok_iff hnd).1 h).1, fun h =>
    ⟨_, (validateMigrationNames_ok_iff hnd).2 ⟨h, rfl⟩⟩⟩, fun ms hms => ?_⟩
  obtain ⟨hvalid, rfl⟩ := (validateMigrationNames_ok_iff hnd).1 hms
  have hok : ∀ name ∈ names, NameOk name := fun name hm =>
    ⟨hvalid.sql name hm, hvalid.other name hm⟩
  have hmem (x : String) :
      x ∈ sortStrings (names.filter isMigration) ↔ x ∈ names ∧ EndsInSql x := by
    rw [(sortStrings_perm _).mem_iff, mem_migrations hok]
  have hnodup : (sortStrings (names.filter isMigration)).Nodup :=
    (sortStrings_perm _).nodup_iff.2 (hnd.filter _)
  have hle := sortStrings_pairwise (names.filter isMigration)
  refine ⟨?_, hmem, ?_, fun o' names' hperm => ?_⟩
  · exact (hle.and hnodup).imp fun h => lt_of_le_of_ne h.1 h.2
  · rw [List.pairwise_map]
    refine hle.imp_of_mem fun {a b} ha hb h => ?_
    obtain ⟨ha, hasql⟩ := (hmem a).1 ha
    obtain ⟨hb, hbsql⟩ := (hmem b).1 hb
    exact numberValue_mono (hvalid.sql a ha hasql) (hvalid.sql b hb hbsql) h
  · rw [validateMigrationNames_ok_iff (hperm.nodup_iff.2 hnd), sortStrings_eq_iff]
    refine ⟨?_, (hperm.filter _).symm⟩
    have hset : ∀ x, x ∈ names' ↔ x ∈ names := fun x => hperm.mem_iff
    refine ⟨fun x hx => hvalid.sql x ((hset x).1 hx), fun x hx => hvalid.other x ((hset x).1 hx),
      fun a ha b hb => ?_⟩
    simp only [hset]
    exact hvalid.numbers a ((hset a).1 ha) b ((hset b).1 hb)

/-- The directory as it is, read in two orders. -/
theorem validateMigrationNames_duplicates :
    validateMigrationNames ⟨id, fun _ => .refl _⟩
        ["009_webhooks.sql", "README.md", "009_add_webhook_subscriptions.sql"]
      = .ok ["009_add_webhook_subscriptions.sql", "009_webhooks.sql"] ∧
    validateMigrationNames ⟨List.reverse, List.reverse_perm⟩
        ["009_add_webhook_subscriptions.sql", "009_webhooks.sql", "README.md"]
      = .ok ["009_add_webhook_subscriptions.sql", "009_webhooks.sql"] := by
  have hok : validateMigrationNames ⟨id, fun _ => .refl _⟩
      ["009_webhooks.sql", "README.md", "009_add_webhook_subscriptions.sql"]
      = .ok ["009_add_webhook_subscriptions.sql", "009_webhooks.sql"] := by decide +kernel
  exact ⟨hok, ((validateMigrationNames_exact _ (by decide)).2 _ hok).2.2.2 _ _ (by decide)⟩

end Accepted

end TrusTrove
