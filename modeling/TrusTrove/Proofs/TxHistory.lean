import TrusTrove.TxHistory

/-!
# Going back and forward in the transaction history

`goNext` appends the next cursor to the whole stack, also when the page is not the last of it. Up to
the first `goPrev` the two go together. After it the stack's next entry repeats the cursor of a page
already seen, and a `goNext` from the furthest page lands on it (`tx_pages_iff`).
-/

namespace TrusTrove

/-- Horizon serves the account's history: ten records from the start, or after the record that has
the cursor as its token. -/
structure HorizonServes (history : List TxRecord) (transactions : Option String → List TxRecord) :
    Prop where
  first : transactions none = history.take 10
  next : ∀ i r, history[i]? = some r →
    transactions (some r.pagingToken) = (history.drop (i + 1)).take 10
  tokens_nodup : (history.map (·.pagingToken)).Nodup
  tokens_ne_empty : ∀ r ∈ history, r.pagingToken ≠ ""

section Pages

variable {ι : Type} (history : List TxRecord) (transactions : Option String → List TxRecord)
  (item : TxRecord → Option ι)

/-- The ten transactions of a page. -/
def txBlock (k : ℕ) : List TxRecord := (history.drop (10 * k)).take 10

/-- The cursor of a page: the one the page before returned. -/
def pageCursor : ℕ → Option String
  | 0 => none
  | k + 1 => (fetchPage transactions item (pageCursor k)).nextCursor

/-- The page shown is the one its number says. -/
def TxHistory.OnPage (s : TxHistory) : Prop :=
  s.cursor = pageCursor transactions item s.page
    ∧ (s.data transactions item).items = (txBlock history s.page).filterMap item

/-- Once a `goPrev` has left a page, no `goNext` leaves the furthest page visited; the page after
`last` does not exist. -/
def StaysBehind (last : ℕ) : (page furthest : ℕ) → (turned : Bool) → List TxNav → Prop
  | _, _, _, [] => True
  | page, furthest, turned, .goNext :: navs =>
    if page < last then
      ¬ (turned = true ∧ page = furthest)
        ∧ StaysBehind last (page + 1) (max furthest (page + 1)) turned navs
    else StaysBehind last page furthest turned navs
  | page, furthest, turned, .goPrev :: navs =>
    if 0 < page then StaysBehind last (page - 1) furthest true navs
    else StaysBehind last page furthest turned navs

end Pages

section Served

variable {ι : Type} {history : List TxRecord} {transactions : Option String → List TxRecord}
  {item : TxRecord → Option ι}

theorem txBlock_getElem? (k i : ℕ) :
    (txBlock history k)[i]? = if i < 10 then history[10 * k + i]? else none := by
  unfold txBlock
  rw [List.getElem?_take, List.getElem?_drop]

theorem txBlock_length (history : List TxRecord) (k : ℕ) :
    (txBlock history k).length = min 10 (history.length - 10 * k) := by
  unfold txBlock
  rw [List.length_take, List.length_drop]

/-- A page whose records are a block: its items, and the token of the block's tenth record. -/
theorem fetchPage_block {cursor : Option String} {k : ℕ}
    (h : transactions (truthyString cursor) = txBlock history k) :
    fetchPage transactions item cursor
      = ⟨(txBlock history k).filterMap item, history[10 * k + 9]?.map (·.pagingToken)⟩ := by
  have hlen := txBlock_length history k
  unfold fetchPage
  simp only [h]
  by_cases hfull : 10 * k + 9 < history.length
  · have hten : (txBlock history k).length = 10 := by omega
    rw [List.getLast?_eq_getElem?, hten, txBlock_getElem?]
    simp [hfull]
  · have hshort : (txBlock history k).length ≠ 10 := by omega
    have hnone : history[10 * k + 9]? = none := List.getElem?_eq_none (by omega)
    rw [hnone]
    cases hlast : (txBlock history k).getLast? with
    | none => simp [List.getLast?_eq_none_iff.1 hlast]
    | some lastRecord => simp [hshort]

theorem pageCursor_served (h : HorizonServes history transactions) :
    ∀ {k : ℕ}, k ≤ history.length / 10 →
      transactions (truthyString (pageCursor transactions item k)) = txBlock history k
  | 0, _ => by simpa [pageCursor, truthyString, txBlock] using h.first
  | k + 1, hk => by
    have hlt : 10 * k + 9 < history.length := by omega
    have hserved := pageCursor_served h (k := k) (by omega)
    have hrecord : history[10 * k + 9]? = some history[10 * k + 9] := List.getElem?_eq_getElem hlt
    rw [pageCursor, fetchPage_block hserved, hrecord]
    have hne := h.tokens_ne_empty _ (List.getElem_mem hlt)
    simp only [Option.map_some, truthyString, Option.filter_some, ne_eq, hne, not_false_eq_true,
      decide_true, if_true]
    rw [h.next _ _ hrecord]
    rfl

theorem pageCursor_succ (h : HorizonServes history transactions) {k : ℕ}
    (hk : k ≤ history.length / 10) : pageCursor transactions item (k + 1)
      = history[10 * k + 9]?.map (·.pagingToken) := by
  rw [pageCursor, fetchPage_block (pageCursor_served h hk)]

theorem pageCursor_ne (h : HorizonServes history transactions) {j k : ℕ} (hjk : j < k)
    (hk : k ≤ history.length / 10) :
    pageCursor transactions item j ≠ pageCursor transactions item k := by
  obtain ⟨k, rfl⟩ : ∃ i, k = i + 1 := ⟨k - 1, by omega⟩
  have hlt : 10 * k + 9 < history.length := by omega
  rw [pageCursor_succ h (by omega), List.getElem?_eq_getElem hlt]
  cases j with
  | zero => simp [pageCursor]
  | succ j =>
    have hlt' : 10 * j + 9 < (history.map (·.pagingToken)).length := by rw [List.length_map]; omega
    intro heq
    rw [pageCursor_succ h (by omega), ← List.getElem?_eq_getElem hlt, ← List.getElem?_map,
      ← List.getElem?_map] at heq
    have := (List.getElem?_inj hlt' h.tokens_nodup).1 heq
    omega

/-- What the calls leave of the stack: the cursors of the pages up to the furthest visited, and
after the first turn back behind them one that is not the furthest's successor. -/
structure Stacked (history : List TxRecord) (transactions : Option String → List TxRecord)
    (item : TxRecord → Option ι) (furthest : ℕ) (turned : Bool) (s : TxHistory) : Prop where
  page_le : s.page ≤ furthest
  furthest_le : furthest ≤ history.length / 10
  aligned : ∀ k ≤ furthest, s.cursorStack[k]? = some (pageCursor transactions item k)
  straight : turned = false → s.page = furthest ∧ s.cursorStack.length = furthest + 1
  behind : turned = true → s.cursorStack.length = furthest + 1 ∧ s.page < furthest
    ∨ ∃ q ≤ furthest, s.cursorStack[furthest + 1]? = some (pageCursor transactions item q)

variable {furthest : ℕ} {turned : Bool} {s : TxHistory}

theorem Stacked.onPage (h : HorizonServes history transactions)
    (hs : Stacked history transactions item furthest turned s) :
    s.OnPage history transactions item := by
  have hcursor : s.cursor = pageCursor transactions item s.page := by
    rw [TxHistory.cursor, hs.aligned s.page hs.page_le]
    rfl
  refine ⟨hcursor, ?_⟩
  have hpage := hs.page_le
  have hlast := hs.furthest_le
  rw [TxHistory.data, hcursor, fetchPage_block (pageCursor_served h (by omega))]

theorem goNext_eq (h : HorizonServes history transactions)
    (hs : Stacked history transactions item furthest turned s) :
    s.goNext transactions item = if s.page < history.length / 10 then
      ⟨s.cursorStack ++ [pageCursor transactions item (s.page + 1)], s.page + 1⟩ else s := by
  have hpage := hs.page_le
  have hlast := hs.furthest_le
  have hcursor := (hs.onPage h).1
  have hnext : pageCursor transactions item (s.page + 1)
      = history[10 * s.page + 9]?.map (·.pagingToken) := pageCursor_succ h (by omega)
  rw [pageCursor, ← hcursor] at hnext
  unfold TxHistory.goNext TxHistory.data
  rw [hnext, pageCursor_succ h (by omega)]
  split_ifs with hlt
  · have hlen : 10 * s.page + 9 < history.length := by omega
    have hne := h.tokens_ne_empty _ (List.getElem_mem hlen)
    rw [List.getElem?_eq_getElem hlen, Option.map_some, truthyString,
      Option.filter_some, if_pos (by simpa using hne)]
  · rw [List.getElem?_eq_none (by omega)]
    rfl

theorem Stacked.next (hs : Stacked history transactions item furthest turned s)
    (hlt : s.page < history.length / 10) (hbehind : ¬ (turned = true ∧ s.page = furthest)) :
    Stacked history transactions item (max furthest (s.page + 1)) turned
      ⟨s.cursorStack ++ [pageCursor transactions item (s.page + 1)], s.page + 1⟩ := by
  have hpage := hs.page_le
  have hlast := hs.furthest_le
  have hstack (k : ℕ) (hk : k ≤ furthest) : (s.cursorStack
      ++ [pageCursor transactions item (s.page + 1)])[k]?
        = some (pageCursor transactions item k) := by
    have := hs.aligned k hk
    rw [List.getElem?_append_left (List.getElem?_eq_some_iff.1 this).1, this]
  cases turned with
  | false =>
    obtain ⟨hat, hlen⟩ := hs.straight rfl
    rw [show max furthest (s.page + 1) = furthest + 1 by omega]
    refine ⟨by simp only []; omega, by omega, fun k hk => ?_, fun _ => ?_, by simp⟩
    · rcases hk.lt_or_eq with hk | rfl
      · exact hstack k (by omega)
      · simp [← hlen, hat]
    · simp only [List.length_append, List.length_singleton]
      omega
  | true =>
    have hless : s.page < furthest := by
      have : s.page ≠ furthest := fun heq => hbehind ⟨rfl, heq⟩
      omega
    rw [show max furthest (s.page + 1) = furthest by omega]
    refine ⟨by simp only []; omega, hlast, hstack, by simp, fun _ => .inr ?_⟩
    rcases hs.behind rfl with ⟨hlen, -⟩ | ⟨q, hq, hrepeat⟩
    · exact ⟨s.page + 1, by omega, by simp [← hlen]⟩
    · exact ⟨q, hq, by
        rw [List.getElem?_append_left (List.getElem?_eq_some_iff.1 hrepeat).1, hrepeat]⟩

/-- A `goNext` from the furthest page, after a turn, shows a page already seen. -/
theorem Stacked.overruns (h : HorizonServes history transactions)
    (hs : Stacked history transactions item furthest true s) (hat : s.page = furthest)
    (hlt : s.page < history.length / 10) :
    ¬ TxHistory.OnPage history transactions item
      ⟨s.cursorStack ++ [pageCursor transactions item (s.page + 1)], s.page + 1⟩ := by
  rintro ⟨hcursor, -⟩
  rcases hs.behind rfl with ⟨-, hless⟩ | ⟨q, hq, hrepeat⟩
  · omega
  · rw [TxHistory.cursor, hat, List.getElem?_append_left (List.getElem?_eq_some_iff.1 hrepeat).1,
      hrepeat] at hcursor
    exact pageCursor_ne h (show q < furthest + 1 by omega) (by omega) hcursor

theorem Stacked.prev (hs : Stacked history transactions item furthest turned s)
    (hpos : 0 < s.page) :
    Stacked history transactions item furthest true { s with page := s.page - 1 } := by
  have hpage := hs.page_le
  refine ⟨by simp only []; omega, hs.furthest_le, hs.aligned, by simp, fun _ => ?_⟩
  cases turned with
  | false =>
    obtain ⟨hat, hlen⟩ := hs.straight rfl
    exact .inl ⟨hlen, by simp only []; omega⟩
  | true =>
    rcases hs.behind rfl with ⟨hlen, hless⟩ | hrepeat
    · exact .inl ⟨hlen, by simp only []; omega⟩
    · exact .inr hrepeat

theorem visited_head : ∀ (navs : List TxNav) (s : TxHistory),
    s ∈ s.visited transactions item navs
  | [], s => by simp [TxHistory.visited]
  | _ :: _, s => by simp [TxHistory.visited]

theorem visited_onPage_iff (h : HorizonServes history transactions) :
    ∀ (navs : List TxNav) {s : TxHistory} {furthest : ℕ} {turned : Bool},
      Stacked history transactions item furthest turned s →
      ((∀ s' ∈ s.visited transactions item navs, s'.OnPage history transactions item)
        ↔ StaysBehind (history.length / 10) s.page furthest turned navs)
  | [], s, furthest, turned, hs => by
    simpa [TxHistory.visited, StaysBehind] using hs.onPage h
  | .goNext :: navs, s, furthest, turned, hs => by
    simp only [TxHistory.visited, List.forall_mem_cons, hs.onPage h, true_and, TxHistory.navigate,
      goNext_eq h hs, StaysBehind]
    by_cases hlt : s.page < history.length / 10
    · simp only [if_pos hlt]
      by_cases hbehind : turned = true ∧ s.page = furthest
      · simp only [hbehind.1, hbehind.2, and_self, not_true_eq_false, false_and, iff_false]
        intro hall
        obtain ⟨rfl, hat⟩ := hbehind
        have hfirst := hall _ (visited_head navs _)
        rw [← hat] at hfirst
        exact hs.overruns h hat hlt hfirst
      · rw [and_iff_right hbehind]
        exact visited_onPage_iff h navs (hs.next hlt hbehind)
    · simp only [if_neg hlt]
      exact visited_onPage_iff h navs hs
  | .goPrev :: navs, s, furthest, turned, hs => by
    simp only [TxHistory.visited, List.forall_mem_cons, hs.onPage h, true_and, TxHistory.navigate,
      TxHistory.goPrev, StaysBehind]
    by_cases hpos : 0 < s.page
    · simp only [if_pos hpos]
      exact visited_onPage_iff h navs (hs.prev hpos)
    · simp only [if_neg hpos]
      exact visited_onPage_iff h navs hs

end Served

/-- Of a history Horizon serves, every page the calls pass through is the one its number says
exactly if the calls, once they have gone back, stay behind the furthest page they had seen. -/
theorem tx_pages_iff {ι : Type} {history : List TxRecord}
    {transactions : Option String → List TxRecord} (item : TxRecord → Option ι)
    (h : HorizonServes history transactions) (navs : List TxNav) :
    (∀ s ∈ TxHistory.initial.visited transactions item navs, s.OnPage history transactions item)
      ↔ StaysBehind (history.length / 10) 0 0 false navs := by
  have hs : Stacked history transactions item 0 false .initial := by
    refine ⟨le_rfl, by omega, fun k hk => ?_, by simp [TxHistory.initial], by simp⟩
    obtain rfl : k = 0 := by omega
    rfl
  exact visited_onPage_iff h navs hs

section Recorded

/-- Horizon's answers for a history. -/
def horizonOf (history : List TxRecord) : Option String → List TxRecord
  | none => history.take 10
  | some cursor => ((history.dropWhile fun r => r.pagingToken ≠ cursor).drop 1).take 10

theorem dropWhile_token : ∀ {history : List TxRecord} {i : ℕ} {r : TxRecord},
    (history.map (·.pagingToken)).Nodup → history[i]? = some r →
      history.dropWhile (fun r' => r'.pagingToken ≠ r.pagingToken) = history.drop i
  | [], _, _, _, hr => by simp at hr
  | first :: rest, 0, r, _, hr => by
    obtain rfl : first = r := by simpa using hr
    simp
  | first :: rest, i + 1, r, hnodup, hr => by
    simp only [List.map_cons, List.nodup_cons] at hnodup
    have hr' : rest[i]? = some r := by simpa using hr
    have hne : first.pagingToken ≠ r.pagingToken := fun heq =>
      hnodup.1 (heq ▸ List.mem_map_of_mem (List.mem_of_getElem? hr'))
    rw [List.dropWhile_cons_of_pos (by simpa using hne), dropWhile_token hnodup.2 hr',
      List.drop_succ_cons]

theorem horizonOf_serves {history : List TxRecord} (hnodup : (history.map (·.pagingToken)).Nodup)
    (hne : ∀ r ∈ history, r.pagingToken ≠ "") : HorizonServes history (horizonOf history) where
  first := rfl
  next i r hr := by
    show ((history.dropWhile fun r' => r'.pagingToken ≠ r.pagingToken).drop 1).take 10 = _
    rw [dropWhile_token hnodup hr, List.drop_drop]
  tokens_nodup := hnodup
  tokens_ne_empty := hne

/-- An account with 25 transactions. -/
def recordedTxs : List TxRecord := (List.range 25).map fun i =>
  ⟨"tx" ++ Nat.repr i, Nat.repr (1000 - i), "2026-01-01T00:00:00Z", true⟩

theorem recordedTxs_served : HorizonServes recordedTxs (horizonOf recordedTxs) :=
  horizonOf_serves (by decide +kernel) (by decide +kernel)

/-- Forward, back, and forward twice shows the second page as the third. -/
theorem third_page_repeats_second :
    let s : TxHistory := [TxNav.goNext, .goPrev, .goNext, .goNext].foldl
      (TxHistory.navigate (horizonOf recordedTxs) fun r => some r.hash) .initial
    s ∈ TxHistory.initial.visited (horizonOf recordedTxs) (fun r => some r.hash)
        [.goNext, .goPrev, .goNext, .goNext]
      ∧ s.page = 2 ∧ (s.data (horizonOf recordedTxs) fun r => some r.hash).items
        = (txBlock recordedTxs 1).map (·.hash)
      ∧ ¬ s.OnPage recordedTxs (horizonOf recordedTxs) fun r => some r.hash := by
  refine ⟨by decide +kernel, by decide +kernel, by decide +kernel, fun h => ?_⟩
  have hitems := h.2
  revert hitems
  decide +kernel

/-- Forward twice, back twice and forward again. -/
theorem tx_pages_iff_there_and_back :
    HorizonServes recordedTxs (horizonOf recordedTxs)
      ∧ ∀ s ∈ TxHistory.initial.visited (horizonOf recordedTxs) (fun r => some r.hash)
          [.goNext, .goNext, .goPrev, .goPrev, .goNext, .goNext],
        s.OnPage recordedTxs (horizonOf recordedTxs) fun r => some r.hash :=
  ⟨recordedTxs_served, (tx_pages_iff _ recordedTxs_served _).2 (by simp [StaysBehind, recordedTxs])⟩

end Recorded

end TrusTrove
