import TrusTrove.InvoicePages
import TrusTrove.Proofs.Fanout
import TrusTrove.Proofs.ParsedInvoice

/-!
# What the walk over the invoices misses

Rows that arrive during the walk push the others towards later pages, where the walk meets them, as
long as it goes on. It ends with the first request whose count its pages cover. The count is taken
before the window is read: rows that arrive between the two push others past the last page. The
walk is complete exactly when none is (`getAllInvoices_complete_iff`).
-/

namespace TrusTrove

open Sql

section Arrivals

variable (E : Traffic) (t : Table DbInvoice DbInvoice.id)

/-- The table with the rows that arrive before the first `n` statements. -/
def arrived : ℕ → Table DbInvoice DbInvoice.id
  | 0 => t
  | n + 1 => insertAll (E.arrivals n) (arrived n)

/-- The number of rows that arrive before the first `n` statements. -/
def arrivals (n : ℕ) : ℕ := ((List.range n).map fun i => (E.arrivals i).length).sum

variable (issuer : String)

/-- The rows of an issuer that the count of page `p` finds. -/
def countedRows (p : ℕ) : List DbInvoice := matching "" issuer (arrived E t (2 * p + 1)).rows

/-- The rows of an issuer that page `p` is a window of. -/
def pagedRows (p : ℕ) : List DbInvoice := matching "" issuer (arrived E t (2 * p + 2)).rows

/-- Page `p` is the first to find its count covered by the pages up to it. -/
def LastPage (p : ℕ) : Prop :=
  (countedRows E t issuer p).length ≤ allInvoicesPageSize * (p + 1)
    ∧ ∀ q < p, allInvoicesPageSize * (q + 1) < (countedRows E t issuer q).length

end Arrivals

section Tables

variable {E : Traffic} {t : Table DbInvoice DbInvoice.id} {issuer : String}

theorem insertNew_rows (t : Table DbInvoice DbInvoice.id) (r : DbInvoice) :
    ∃ new, (t.insertNew r).rows = t.rows ++ new ∧ new.length ≤ 1 := by
  unfold Table.insertNew
  split_ifs
  · exact ⟨[], by simp⟩
  · exact ⟨[r], by simp⟩

theorem insertAll_rows : ∀ (rows : List DbInvoice) (t : Table DbInvoice DbInvoice.id),
    ∃ new, (insertAll rows t).rows = t.rows ++ new ∧ new.length ≤ rows.length
  | [], t => ⟨[], by simp [insertAll]⟩
  | r :: rows, t => by
    obtain ⟨new, hnew, hlen⟩ := insertNew_rows t r
    obtain ⟨more, hmore, hlen'⟩ := insertAll_rows rows (t.insertNew r)
    refine ⟨new ++ more, ?_, ?_⟩
    · rw [← List.append_assoc, ← hnew, ← hmore]
      rfl
    · rw [List.length_append, List.length_cons]
      omega

/-- Rows only come after those that are there, as many as arrive. -/
theorem arrived_rows (m : ℕ) : ∀ k, ∃ new, (arrived E t (m + k)).rows = (arrived E t m).rows ++ new
    ∧ new.length + arrivals E m ≤ arrivals E (m + k)
  | 0 => ⟨[], by simp⟩
  | k + 1 => by
    obtain ⟨new, hnew, hlen⟩ := arrived_rows m k
    obtain ⟨more, hmore, hlen'⟩ := insertAll_rows (E.arrivals (m + k)) (arrived E t (m + k))
    refine ⟨new ++ more, ?_, ?_⟩
    · rw [← List.append_assoc, ← hnew, ← hmore]
      rfl
    · have hsum : arrivals E (m + (k + 1)) = arrivals E (m + k) + (E.arrivals (m + k)).length := by
        simp [arrivals, ← Nat.add_assoc, List.range_succ]
      rw [List.length_append, hsum]
      omega

theorem arrived_rows_of_le {m n : ℕ} (h : m ≤ n) :
    ∃ new, (arrived E t n).rows = (arrived E t m).rows ++ new
      ∧ new.length + arrivals E m ≤ arrivals E n := by
  obtain ⟨k, rfl⟩ := Nat.exists_eq_add_of_le h
  exact arrived_rows m k

theorem matching_append (status issuer : String) (rows new : List DbInvoice) :
    matching status issuer (rows ++ new) = matching status issuer rows
      ++ matching status issuer new :=
  List.filter_append ..

theorem countedRows_le (p : ℕ) :
    (countedRows E t issuer p).length ≤ (pagedRows E t issuer p).length := by
  obtain ⟨new, hnew, -⟩ :=
    arrived_rows_of_le (E := E) (t := t) (show 2 * p + 1 ≤ 2 * p + 2 by omega)
  rw [pagedRows, hnew, matching_append, List.length_append]
  exact Nat.le_add_right _ _

/-- A count is of the rows at the start and those that arrived since. -/
theorem countedRows_le_arrivals (p : ℕ) :
    (countedRows E t issuer p).length ≤ t.rows.length + arrivals E (2 * p + 1) := by
  obtain ⟨new, hnew, hlen⟩ := arrived_rows_of_le (E := E) (t := t) (Nat.zero_le (2 * p + 1))
  have hle : (countedRows E t issuer p).length ≤ (arrived E t (2 * p + 1)).rows.length :=
    List.length_filter_le ..
  rw [hnew, List.length_append] at hle
  have hstart : (arrived E t 0).rows.length = t.rows.length := rfl
  omega

end Tables

section Order

variable {ι : Type} [LinearOrder ι] (collate : String ↪ ι)

instance : Std.Total (newestFirst collate) where
  total a b := by
    rcases lt_trichotomy a.createdAt b.createdAt with h | h | h
    · exact .inr (.inl h)
    · rcases le_total (collate a.id) (collate b.id) with h' | h'
      · exact .inr (.inr ⟨h, h'⟩)
      · exact .inl (.inr ⟨h.symm, h'⟩)
    · exact .inl (.inl h)

instance : IsTrans DbInvoice (newestFirst collate) where
  trans a b c hab hbc := by
    rcases hab with hab | ⟨hab, hid⟩ <;> rcases hbc with hbc | ⟨hbc, hid'⟩
    · exact .inl (hbc.trans hab)
    · exact .inl (hbc ▸ hab)
    · exact .inl (hab ▸ hbc)
    · exact .inr ⟨hbc.trans hab, hid'.trans hid⟩

/-- The ids tell rows apart, so the order is strict on a table. -/
theorem pagedRows_strict (E : Traffic) (t : Table DbInvoice DbInvoice.id) (issuer : String)
    (p : ℕ) :
    (pagedRows E t issuer p).Pairwise
      fun a b => ¬ (newestFirst collate a b ∧ newestFirst collate b a) := by
  have hids : (arrived E t (2 * p + 2)).rows.Pairwise fun a b => a.id ≠ b.id :=
    List.pairwise_map.1 (arrived E t (2 * p + 2)).nodup
  refine (hids.imp fun {a b} hne h => hne (collate.injective ?_)).filter _
  rcases h with ⟨h | ⟨hat, h⟩, h' | ⟨hat', h'⟩⟩
  · exact absurd h h'.not_gt
  · omega
  · omega
  · exact le_antisymm h' h

variable (E : Traffic) (t : Table DbInvoice DbInvoice.id) (issuer : String)

/-- The number of rows before one when page `p` is read. -/
def place (r : DbInvoice) (p : ℕ) : ℕ :=
  Paging.rank (newestFirst collate) (pagedRows E t issuer p) r

/-- The rows on page `p`. -/
def pageRows (p : ℕ) : List DbInvoice :=
  Paging.page (newestFirst collate) (pagedRows E t issuer p) (allInvoicesPageSize * p)
    allInvoicesPageSize

theorem place_mono (r : DbInvoice) : Monotone (place collate E t issuer r) := by
  intro p q hpq
  obtain ⟨new, hnew, -⟩ :=
    arrived_rows_of_le (E := E) (t := t) (show 2 * p + 2 ≤ 2 * q + 2 by omega)
  rw [place, place, pagedRows, pagedRows, hnew, matching_append, Paging.rank_append]
  exact Nat.le_add_right _ _

theorem place_le_add (r : DbInvoice) {p q : ℕ} (hpq : p ≤ q) :
    place collate E t issuer r q ≤ place collate E t issuer r p + arrivals E (2 * q + 2) := by
  obtain ⟨new, hnew, hlen⟩ :=
    arrived_rows_of_le (E := E) (t := t) (show 2 * p + 2 ≤ 2 * q + 2 by omega)
  have hnew' : Paging.rank (newestFirst collate) (matching "" issuer new) r ≤ new.length :=
    (Paging.rank_le_length ..).trans (List.length_filter_le ..)
  rw [place, place, pagedRows, pagedRows, hnew, matching_append, Paging.rank_append]
  omega

variable {collate E t issuer}

/-- A row of the start is on page `p` as its place says. -/
theorem mem_pageRows_iff {r : DbInvoice} (hr : r ∈ matching "" issuer t.rows) (p : ℕ) :
    r ∈ pageRows collate E t issuer p ↔ allInvoicesPageSize * p ≤ place collate E t issuer r p
      ∧ place collate E t issuer r p < allInvoicesPageSize * (p + 1) := by
  obtain ⟨new, hnew, -⟩ := arrived_rows_of_le (E := E) (t := t) (Nat.zero_le (2 * p + 2))
  have hmem : r ∈ pagedRows E t issuer p := by
    rw [pagedRows, hnew, matching_append]
    exact List.mem_append_left _ hr
  rw [pageRows, Paging.mem_page_iff (pagedRows_strict collate E t issuer p)]
  simp [place, hmem, Nat.mul_succ]

/-- An id is on a page with the row the table has under it. -/
theorem eq_of_mem_pageRows {r r' : DbInvoice} (hr : r ∈ t.rows) {p : ℕ}
    (hr' : r' ∈ pageRows collate E t issuer p) (hid : r'.id = r.id) : r' = r := by
  obtain ⟨new, hnew, -⟩ := arrived_rows_of_le (E := E) (t := t) (Nat.zero_le (2 * p + 2))
  have hmem' : r' ∈ (arrived E t (2 * p + 2)).rows := by
    have := (Paging.mem_page_iff (pagedRows_strict collate E t issuer p)).1 hr'
    exact List.mem_of_mem_filter this.1
  have hmem : r ∈ (arrived E t (2 * p + 2)).rows := hnew ▸ List.mem_append_left _ hr
  exact List.inj_on_of_nodup_map (arrived E t (2 * p + 2)).nodup hmem' hmem hid

end Order

section Requests

variable {ι : Type} [LinearOrder ι] (collate : String ↪ ι) (E : Traffic)
  (t : Table DbInvoice DbInvoice.id)

theorem positiveParam_repr {n : ℕ} (h : 1 ≤ n) (hn : n < 2 ^ 63) (unset : ℤ) :
    positiveParam (Nat.repr n) unset = some (n : ℤ) := by
  have hne : Nat.repr n ≠ "" := by simp [Nat.repr]
  have hrange : -2 ^ 63 ≤ (n : ℤ) ∧ (n : ℤ) < 2 ^ 63 := ⟨by omega, by omega⟩
  rw [positiveParam, if_neg hne, parseInt64, setString_repr,
    Option.filter_some_pos (by simpa using hrange), Option.filter_some_pos (by simpa using h)]

/-- The parameters of a request of the walk. -/
def pageParams (issuer : Option String) (p : ℕ) : List (String × String) :=
  InvoiceFilters.params
    { issuer, page := some (p + 1), limit := some allInvoicesPageSize }

theorem queryGet_pageParams (issuer : Option String) (p : ℕ) :
    queryGet (pageParams issuer p) "status" = ""
      ∧ queryGet (pageParams issuer p) "issuer" = issuer.getD ""
      ∧ queryGet (pageParams issuer p) "page" = Nat.repr (p + 1)
      ∧ queryGet (pageParams issuer p) "limit" = Nat.repr 100 := by
  rcases issuer with _ | issuer
  · simp [queryGet, pageParams, InvoiceFilters.params, List.lookup, allInvoicesPageSize]
  · by_cases h : issuer = "" <;>
      simp [queryGet, pageParams, InvoiceFilters.params, List.lookup, allInvoicesPageSize, h,
        Option.filter_some]

/-- A page fails with one of its two statements, or is read. -/
theorem getInvoicesPage_page (issuer : String) (p k : ℕ) :
    getInvoicesPage collate E "" issuer 100 (100 * p) ⟨arrived E t (2 * p), 2 * p, k⟩ =
      if E.fails (2 * p) then
        (.error (.wrap "queries: count invoices" driverError),
          ⟨arrived E t (2 * p + 1), 2 * p + 1, k⟩)
      else if E.fails (2 * p + 1) then
        (.error (.wrap "queries: get invoices" driverError),
          ⟨arrived E t (2 * p + 2), 2 * p + 2, k⟩)
      else
        (.ok (pageRows collate E t issuer p, (countedRows E t issuer p).length),
          ⟨arrived E t (2 * p + 2), 2 * p + 2, k⟩) := by
  have hnonneg : ¬ 100 * (p : ℤ) < 0 := by omega
  have hoffset : (100 * (p : ℤ)).toNat = allInvoicesPageSize * p := by
    simp only [allInvoicesPageSize]
    omega
  unfold getInvoicesPage queryInvoices
  split_ifs with hcount hread
  · simp [arrived]
  · simp [hread, arrived]
  · simp only [hread, hoffset]
    rfl

/-- The walk before its request for page `p`. -/
def pageWorld (p : ℕ) : PagesWorld := ⟨arrived E t (2 * p), 2 * p, p⟩

/-- A request of the walk fails with one of its statements, or gets the page and the count. -/
theorem handleGetInvoices_page (issuer : Option String) {p : ℕ} (hp : p < allInvoicesMaxPages)
    (hcounted : (countedRows E t (issuer.getD "") p).length ≤ 10000) :
    (∃ res w, (E.fails (2 * p) = true ∨ E.fails (2 * p + 1) = true) ∧ w.requests = p + 1
        ∧ handleGetInvoices collate E (pageParams issuer p)
          { pageWorld E t p with requests := (pageWorld E t p).requests + 1 } = (.error res, w))
      ∨ handleGetInvoices collate E (pageParams issuer p)
          { pageWorld E t p with requests := (pageWorld E t p).requests + 1 }
        = (.ok ⟨pageRows collate E t (issuer.getD "") p,
          (countedRows E t (issuer.getD "") p).length,
            p + 1, 100, max 1 (((countedRows E t (issuer.getD "") p).length + 99) / 100)⟩,
          pageWorld E t (p + 1)) := by
  obtain ⟨hstatus, hissuer, hpage, hlimit⟩ := queryGet_pageParams issuer p
  have hpage' : positiveParam (queryGet (pageParams issuer p) "page") 1 = some ((p : ℤ) + 1) := by
    rw [hpage, positiveParam_repr (by omega) (by unfold allInvoicesMaxPages at hp; omega)]
    simp
  have hlimit' : positiveParam (queryGet (pageParams issuer p) "limit") 20 = some 100 := by
    rw [hlimit, positiveParam_repr (by omega) (by omega)]
    rfl
  have hoffset : (((p : ℤ) + 1 - 1) * 100).bmod (2 ^ 64) = 100 * p := by
    unfold allInvoicesMaxPages at hp
    rw [Int.bmod_eq_of_le] <;> omega
  simp only [handleGetInvoices, hpage', hlimit', hstatus, hissuer, lt_irrefl, if_false, hoffset,
    pageWorld, getInvoicesPage_page]
  by_cases hcount : E.fails (2 * p) = true
  · simp only [hcount, if_true]
    exact .inl ⟨_, _, .inl trivial, rfl, rfl⟩
  by_cases hread : E.fails (2 * p + 1) = true
  · simp only [hcount, hread, if_true]
    exact .inl ⟨_, _, .inr trivial, rfl, rfl⟩
  · refine .inr ?_
    simp only [hcount, hread, Bool.false_eq_true, if_false, Nat.mul_succ]
    have hbmod : (((countedRows E t (issuer.getD "") p).length : ℤ) + 100 - 1).bmod (2 ^ 64)
        = (countedRows E t (issuer.getD "") p).length + 99 := by
      rw [Int.bmod_eq_of_le] <;> omega
    have hceil (n : ℤ) : (if n / 100 < 1 then 1 else n / 100) = max 1 (n / 100) := by
      split_ifs <;> omega
    rw [hbmod, Int.tdiv_eq_ediv_of_nonneg (by omega), hceil]

end Requests

section Walk

variable {ι : Type} [LinearOrder ι] {collate : String ↪ ι} {E : Traffic}
  {t : Table DbInvoice DbInvoice.id} {f : DbInvoice → Invoice}

/-- The number of pages a count makes. -/
def pagesOf (n : ℕ) : ℤ := max 1 (((n : ℤ) + 99) / 100)

theorem lt_pagesOf_iff {n p : ℕ} : pagesOf n < (p : ℤ) + 2 ↔ n ≤ allInvoicesPageSize * (p + 1) := by
  simp only [pagesOf, allInvoicesPageSize]
  omega

variable (hf : ∀ r, parseInvoiceResponse (.object r.json) = .ok (f r))

include hf in
/-- One round of the loop: a request fails with a statement of its own, or its page goes into the
map. -/
theorem allInvoicesFrom_succ (issuer : Option String) {left p : ℕ} (hp : p < allInvoicesMaxPages)
    (hcounted : (countedRows E t (issuer.getD "") p).length ≤ 10000)
    {totalPages : ℤ} (htotal : (p : ℤ) + 1 ≤ totalPages) (byId : Table Invoice Invoice.id) :
    (∃ e w, (E.fails (2 * p) = true ∨ E.fails (2 * p + 1) = true) ∧ w.requests = p + 1
        ∧ allInvoicesFrom collate E { issuer } (left + 1) (p + 1) totalPages byId (pageWorld E t p)
          = (.error e, w))
      ∨ allInvoicesFrom collate E { issuer } (left + 1) (p + 1) totalPages byId (pageWorld E t p)
        = if pageRows collate E t (issuer.getD "") p = [] then (.ok byId, pageWorld E t (p + 1))
          else allInvoicesFrom collate E { issuer } left (p + 2)
            (pagesOf (countedRows E t (issuer.getD "") p).length)
            (((pageRows collate E t (issuer.getD "") p).map f).foldl Table.upsert byId)
            (pageWorld E t (p + 1)) := by
  have hparams : InvoiceFilters.params
      { issuer, page := some (p + 1), limit := some allInvoicesPageSize } = pageParams issuer p :=
        rfl
  have hhead : ¬ totalPages < ((p + 1 : ℕ) : ℤ) := by
    push_cast
    omega
  have hmap (rows : List DbInvoice) :
      rows.mapM (fun r => parseInvoiceResponse (.object r.json)) = .ok (rows.map f) := by
    simp only [hf]
    exact List.mapM_pure
  rw [allInvoicesFrom, if_neg hhead]
  simp only [getInvoices, hparams]
  rcases handleGetInvoices_page collate E t issuer hp hcounted with
    ⟨res, w, hfails, hw, hrun⟩ | hrun
  · refine .inl ⟨res.thrown, w, hfails, hw, ?_⟩
    rw [hrun]
  · refine .inr ?_
    rw [hrun]
    simp only [hmap]
    have hpages (n : ℕ) : (if max 1 (((n : ℤ) + 99) / 100) = 0 then 1
        else max 1 (((n : ℤ) + 99) / 100)) = pagesOf n := by
      rw [pagesOf, if_neg (by omega)]
    rw [hpages]
    rcases hrows : pageRows collate E t (issuer.getD "") p with _ | ⟨r, rows⟩ <;> rfl

/-- The map after the pages from `p` to `last`. -/
def walked (collate : String ↪ ι) (E : Traffic) (t : Table DbInvoice DbInvoice.id)
    (f : DbInvoice → Invoice) (issuer : String) (p last : ℕ) (byId : Table Invoice Invoice.id) :
    Table Invoice Invoice.id :=
  (List.range' p (last + 1 - p)).foldl
    (fun m q => ((pageRows collate E t issuer q).map f).foldl Table.upsert m) byId

theorem walked_self (issuer : String) (p : ℕ) (byId : Table Invoice Invoice.id) :
    walked collate E t f issuer p p byId =
      ((pageRows collate E t issuer p).map f).foldl Table.upsert byId := by
  simp [walked]

theorem walked_succ {issuer : String} {p last : ℕ} (h : p < last)
    (byId : Table Invoice Invoice.id) :
    walked collate E t f issuer p last byId = walked collate E t f issuer (p + 1) last
      (((pageRows collate E t issuer p).map f).foldl Table.upsert byId) := by
  rw [walked, walked, show last + 1 - p = last + 1 - (p + 1) + 1 by omega, List.range'_succ,
    List.foldl_cons]

theorem countedRows_le_of_empty {issuer : String} {p : ℕ}
    (h : pageRows collate E t issuer p = []) :
    (countedRows E t issuer p).length ≤ allInvoicesPageSize * (p + 1) := by
  have hle := (Paging.page_eq_nil_iff (by decide)).1 h
  have := @countedRows_le E t issuer p
  rw [Nat.mul_succ]
  omega

include hf in
/-- The walk fails with a statement, or has read the pages up to the first whose count they cover;
the cap on its pages may end it as well. -/
theorem allInvoicesFrom_run (issuer : Option String)
    (hcounted : ∀ p, (countedRows E t (issuer.getD "") p).length ≤ 10000) :
    ∀ (left : ℕ) {p : ℕ} {totalPages : ℤ}
    (byId : Table Invoice Invoice.id), left + p = allInvoicesMaxPages → p < allInvoicesMaxPages →
    (p : ℤ) + 1 ≤ totalPages →
    (∃ e w, (∃ i, E.fails i = true) ∧ w.requests ≤ allInvoicesMaxPages
        ∧ allInvoicesFrom collate E { issuer } left (p + 1) totalPages byId (pageWorld E t p)
          = (.error e, w))
      ∨ ∃ last, p ≤ last ∧ last < allInvoicesMaxPages
        ∧ (∀ q, p ≤ q → q < last →
          allInvoicesPageSize * (q + 1) < (countedRows E t (issuer.getD "") q).length)
        ∧ ((countedRows E t (issuer.getD "") last).length ≤ allInvoicesPageSize * (last + 1)
          ∨ last + 1 = allInvoicesMaxPages)
        ∧ allInvoicesFrom collate E { issuer } left (p + 1) totalPages byId (pageWorld E t p)
          = (.ok (walked collate E t f (issuer.getD "") p last byId), pageWorld E t (last + 1))
  | 0, p, totalPages, byId, hleft, hp, _ => absurd hp (by omega)
  | left + 1, p, totalPages, byId, hleft, hp, htotal => by
    have hnone : ∀ q, p ≤ q → q < p →
        allInvoicesPageSize * (q + 1) < (countedRows E t (issuer.getD "") q).length := by
      intro q hq hlt
      omega
    have hround := @allInvoicesFrom_succ _ _ collate E t f hf issuer left p hp (hcounted p)
      totalPages htotal byId
    rcases hround with ⟨e, w, hfails, hw, hrun⟩ | hrun
    · exact .inl ⟨e, w, hfails.elim (⟨_, ·⟩) (⟨_, ·⟩), by omega, hrun⟩
    rw [hrun]
    split_ifs with hempty
    · refine .inr ⟨p, le_rfl, hp, hnone, .inl (countedRows_le_of_empty hempty), ?_⟩
      rw [walked_self, hempty]
      rfl
    rcases Nat.lt_or_ge (p + 1) allInvoicesMaxPages with hnext | hcap
    · rcases lt_or_ge (pagesOf (countedRows E t (issuer.getD "") p).length) ((p : ℤ) + 2)
        with hlast | hmore
      · refine .inr ⟨p, le_rfl, hp, hnone, .inl (lt_pagesOf_iff.1 hlast), ?_⟩
        obtain ⟨left, rfl⟩ : ∃ k, left = k + 1 := ⟨left - 1, by omega⟩
        rw [allInvoicesFrom, if_pos (by push_cast; exact hlast), walked_self]
      · rcases allInvoicesFrom_run issuer hcounted left (p := p + 1) _ (by omega) hnext
          (by push_cast; linarith) with herr | ⟨last, hle, hlt, hbefore, hend, hrest⟩
        · exact .inl herr
        · refine .inr ⟨last, by omega, hlt, fun q hq hql => ?_, hend, ?_⟩
          · rcases hq.eq_or_lt with rfl | hq
            · by_contra hcovered
              exact absurd (lt_pagesOf_iff.2 (not_lt.1 hcovered)) (not_lt.2 hmore)
            · exact hbefore q hq hql
          · rw [hrest, ← walked_succ (Nat.lt_of_succ_le hle)]
    · obtain rfl : left = 0 := by omega
      refine .inr ⟨p, le_rfl, hp, hnone, .inr (by omega), ?_⟩
      rw [allInvoicesFrom, walked_self]

end Walk

section Map

variable {ι : Type} [LinearOrder ι] {collate : String ↪ ι} {E : Traffic}
  {t : Table DbInvoice DbInvoice.id} {f : DbInvoice → Invoice} {issuer : String} {r : DbInvoice}

theorem find?_upserts (hid : ∀ r, (f r).id = r.id) : ∀ (rows : List DbInvoice)
    (byId : Table Invoice Invoice.id), (∀ r' ∈ rows, r'.id = r.id → r' = r) →
    ((rows.map f).foldl Table.upsert byId).find? r.id =
      if r ∈ rows then some (f r) else byId.find? r.id
  | [], byId, _ => by simp
  | x :: rows, byId, hrows => by
    obtain ⟨hx, hrows⟩ := List.forall_mem_cons.1 hrows
    rw [List.map_cons, List.foldl_cons, find?_upserts hid rows _ hrows, Table.find?_upsert, hid]
    by_cases hmem : r ∈ rows
    · simp [hmem]
    · by_cases hxr : r = x
      · simp [hxr]
      · have hne : x.id ≠ r.id := fun h => hxr (hx h).symm
        simp [hmem, hxr, hne]

/-- What the map holds under the id of a row of the start: the row, once it was on a page. -/
theorem find?_walked (hid : ∀ r, (f r).id = r.id) (hr : r ∈ t.rows) (last : ℕ) :
    (walked collate E t f issuer 0 last .empty).find? r.id =
      if ∃ p ≤ last, r ∈ pageRows collate E t issuer p then some (f r) else none := by
  have hfold : ∀ (pages : List ℕ) (byId : Table Invoice Invoice.id),
      (pages.foldl (fun m p => ((pageRows collate E t issuer p).map f).foldl Table.upsert m)
          byId).find? r.id =
        if ∃ p ∈ pages, r ∈ pageRows collate E t issuer p then some (f r) else byId.find? r.id := by
    intro pages
    induction pages with
    | nil => simp
    | cons p pages ih =>
      intro byId
      rw [List.foldl_cons, ih, find?_upserts hid _ _ fun r' hr' => eq_of_mem_pageRows hr hr']
      by_cases hlater : ∃ p ∈ pages, r ∈ pageRows collate E t issuer p
      · simp [hlater]
      · simp [hlater]
  rw [walked, hfold]
  simp [Table.find?_empty]

theorem filter_walked (hid : ∀ r, (f r).id = r.id) (hr : r ∈ t.rows) (last : ℕ) :
    (walked collate E t f issuer 0 last .empty).rows.filter (·.id = r.id) =
      if ∃ p ≤ last, r ∈ pageRows collate E t issuer p then [f r] else [] := by
  rw [Table.filter_key, find?_walked hid hr]
  split_ifs <;> rfl

end Map

section Complete

variable {ι : Type} [LinearOrder ι] (collate : String ↪ ι) (E : Traffic)
  (t : Table DbInvoice DbInvoice.id) (issuer : Option String)

/-- Every row of the issuer at the start is in the array once, as it is. -/
def Complete (all : List Invoice) : Prop :=
  ∀ r ∈ matching "" (issuer.getD "") t.rows,
    ∃ inv, all.filter (·.id = r.id) = [inv] ∧ Reads r inv

/-- No row of the issuer at the start is past the last page when it is read. -/
def WithinLastPage : Prop :=
  ∀ p, LastPage E t (issuer.getD "") p → ∀ r ∈ matching "" (issuer.getD "") t.rows,
    place collate E t (issuer.getD "") r p < allInvoicesPageSize * (p + 1)

variable {collate E t issuer}

theorem LastPage.unique {issuer : String} {p q : ℕ} (hp : LastPage E t issuer p)
    (hq : LastPage E t issuer q) : p = q := by
  rcases lt_trichotomy p q with h | h | h
  · exact absurd hp.1 (hq.2 p h).not_ge
  · exact h
  · exact absurd hq.1 (hp.2 q h).not_ge

/-- With at most a page of arrivals, the pages up to the last met a row exactly when it is not past
the last. -/
theorem on_page_iff {issuer : String} {r : DbInvoice} (harr : ∀ n, arrivals E n ≤ 100)
    (hr : r ∈ matching "" issuer t.rows) (last : ℕ) :
    (∃ p ≤ last, r ∈ pageRows collate E t issuer p) ↔
      place collate E t issuer r last < allInvoicesPageSize * (last + 1) := by
  simp only [mem_pageRows_iff hr]
  constructor
  · rintro ⟨p, hp, -, hlt⟩
    by_contra hbeyond
    have hmoved : ∀ p ≤ last, place collate E t issuer r last
        ≤ place collate E t issuer r p + allInvoicesPageSize := fun p hp =>
      (place_le_add collate E t issuer r hp).trans (Nat.add_le_add_left (harr _) _)
    exact absurd hlt (Paging.beyond_of_le_add hmoved (not_lt.1 hbeyond) hp).not_gt
  · intro hlt
    obtain ⟨p, hp, hpage⟩ := Paging.exists_page (place_mono collate E t issuer r) hlt
    exact ⟨p, hp, hpage⟩

theorem getAllInvoices_run (issuer : Option String) (hsize : t.rows.length ≤ 9900)
    (harr : ∀ n, arrivals E n ≤ 100) :
    (∃ e w, (∃ i, E.fails i = true) ∧ w.requests ≤ allInvoicesMaxPages
        ∧ getAllInvoices collate E none issuer ⟨t, 0, 0⟩ = (.error e, w))
      ∨ ∃ all w, w.requests ≤ allInvoicesMaxPages
        ∧ getAllInvoices collate E none issuer ⟨t, 0, 0⟩ = (.ok all, w)
        ∧ (Complete t issuer all ↔ WithinLastPage collate E t issuer) := by
  choose f hf using parseInvoiceResponse_json
  have hparse : ∀ r, parseInvoiceResponse (.object r.json) = .ok (f r) := fun r => (hf r).1
  have hid : ∀ r, (f r).id = r.id := fun r => (hf r).2.id
  have hcounted : ∀ p, (countedRows E t (issuer.getD "") p).length ≤ 10000 := fun p => by
    have := @countedRows_le_arrivals E t (issuer.getD "") p
    have := harr (2 * p + 1)
    omega
  have hrun := @allInvoicesFrom_run _ _ collate E t f hparse issuer hcounted allInvoicesMaxPages 0 1
    .empty rfl (by decide) (by simp)
  have hstart : pageWorld E t 0 = ⟨t, 0, 0⟩ := rfl
  rw [hstart] at hrun
  rcases hrun with ⟨e, w, hfails, hw, hrun⟩ | ⟨last, -, hlast, hbefore, hend, hrun⟩
  · refine .inl ⟨e, w, hfails, hw, ?_⟩
    rw [getAllInvoices, hrun]
  · have hcovered : (countedRows E t (issuer.getD "") last).length
        ≤ allInvoicesPageSize * (last + 1) := by
      rcases hend with h | h
      · exact h
      · have := hcounted last
        rw [h]
        simp only [allInvoicesPageSize, allInvoicesMaxPages]
        omega
    have hlastPage : LastPage E t (issuer.getD "") last :=
      ⟨hcovered, fun q hq => hbefore q (Nat.zero_le q) hq⟩
    have hrow : ∀ r ∈ matching "" (issuer.getD "") t.rows,
        (∃ inv, (walked collate E t f (issuer.getD "") 0 last .empty).rows.filter (·.id = r.id)
            = [inv] ∧ Reads r inv)
          ↔ place collate E t (issuer.getD "") r last < allInvoicesPageSize * (last + 1) := by
      intro r hr
      rw [filter_walked hid (List.mem_of_mem_filter hr), ← on_page_iff harr hr]
      split_ifs with hpage
      · exact ⟨fun _ => hpage, fun _ => ⟨f r, rfl, (hf r).2⟩⟩
      · simpa using hpage
    refine .inr ⟨(walked collate E t f (issuer.getD "") 0 last .empty).rows,
      pageWorld E t (last + 1), hlast, by rw [getAllInvoices, hrun], ?_⟩
    constructor
    · intro hcomplete p hp r hr
      obtain rfl := hp.unique hlastPage
      exact (hrow r hr).1 (hcomplete r hr)
    · intro hwithin r hr
      exact (hrow r hr).2 (hwithin last hlastPage r hr)

end Complete

/-- A walk over at most 9,900 rows, with at most 100 more arriving, takes at most 100 requests, and
unless a statement fails it returns. What it returns is complete exactly when no row of the start is
past the last page when that page is read. -/
theorem getAllInvoices_complete_iff {ι : Type} [LinearOrder ι] (collate : String ↪ ι) (E : Traffic)
    (t : Table DbInvoice DbInvoice.id) (issuer : Option String) (hsize : t.rows.length ≤ 9900)
    (harr : ∀ n, arrivals E n ≤ 100) :
    (getAllInvoices collate E none issuer ⟨t, 0, 0⟩).2.requests ≤ 100
      ∧ ((∀ i, E.fails i = false) →
        ∃ all, (getAllInvoices collate E none issuer ⟨t, 0, 0⟩).1 = .ok all)
      ∧ ∀ all, (getAllInvoices collate E none issuer ⟨t, 0, 0⟩).1 = .ok all →
        (Complete t issuer all ↔ WithinLastPage collate E t issuer) := by
  rcases @getAllInvoices_run _ _ collate E t issuer hsize harr with
    ⟨e, w, ⟨i, hi⟩, hw, hrun⟩ | ⟨all, w, hw, hrun, hiff⟩
  · rw [hrun]
    refine ⟨hw, fun hfails => ?_, fun all hall => by cases hall⟩
    rw [hfails i] at hi
    cases hi
  · rw [hrun]
    refine ⟨hw, fun _ => ⟨all, rfl⟩, fun all' hall => ?_⟩
    cases hall
    exact hiff

section Overtaken

/-- An invoice created at a second. -/
def datedInvoice (n : ℕ) : DbInvoice := { recordedInvoice with id := Nat.repr n, createdAt := n }

/-- A page of invoices. -/
def datedInvoices : Table DbInvoice DbInvoice.id where
  rows := (List.range 100).map datedInvoice
  nodup := by
    have hinj : Function.Injective Nat.repr := fun a b h => by
      have hn := congrArg numeric h
      rw [numeric_repr, numeric_repr] at hn
      exact_mod_cast Option.some.inj hn
    rw [List.map_map]
    exact List.nodup_range.map hinj

/-- One more invoice, inserted before a statement. -/
def oneArrival (statement : ℕ) : Traffic where
  arrivals i := if i = statement then [datedInvoice 100] else []
  fails _ := false
  requestID _ := ""

theorem arrivals_oneArrival (statement n : ℕ) : arrivals (oneArrival statement) n ≤ 1 := by
  have hcount : arrivals (oneArrival statement) n = if statement < n then 1 else 0 := by
    induction n with
    | zero => rfl
    | succ n ih =>
      have hsucc : arrivals (oneArrival statement) (n + 1)
          = arrivals (oneArrival statement) n + if n = statement then 1 else 0 := by
        by_cases h : n = statement <;> simp [arrivals, oneArrival, List.range_succ, h]
      rw [hsucc, ih]
      split_ifs <;> omega
  rw [hcount]
  split_ifs <;> omega

/-- An invoice inserted between the two statements of the first request makes the walk end without
the oldest. -/
theorem getAllInvoices_overtaken :
    datedInvoices.rows.length ≤ 9900
      ∧ (∀ n, arrivals (oneArrival 1) n ≤ 100)
      ∧ (∀ i, (oneArrival 1).fails i = false)
      ∧ ∃ all, (getAllInvoices (.refl String) (oneArrival 1) none none ⟨datedInvoices, 0, 0⟩).1
          = .ok all
        ∧ ¬ Complete datedInvoices none all := by
  have hsize : datedInvoices.rows.length ≤ 9900 := by simp [datedInvoices]
  have harr : ∀ n, arrivals (oneArrival 1) n ≤ 100 := fun n =>
    (arrivals_oneArrival 1 n).trans (by omega)
  refine ⟨hsize, harr, fun _ => rfl, ?_⟩
  rcases @getAllInvoices_run _ _ (.refl String) (oneArrival 1) datedInvoices none hsize harr with
    ⟨e, w, ⟨i, hi⟩, -⟩ | ⟨all, w, -, hrun, hiff⟩
  · cases hi
  refine ⟨all, by rw [hrun], fun hcomplete => ?_⟩
  have hlast : LastPage (oneArrival 1) datedInvoices "" 0 :=
    ⟨by decide +kernel, fun q hq => absurd hq (Nat.not_lt_zero q)⟩
  have hplace := hiff.1 hcomplete 0 hlast (datedInvoice 0) (by decide +kernel)
  revert hplace
  decide +kernel

/-- Inserted before the count, it makes the walk go on to a second page. -/
theorem getAllInvoices_complete_iff_counted :
    ∃ all, (getAllInvoices (.refl String) (oneArrival 0) none none ⟨datedInvoices, 0, 0⟩).1
      = .ok all
      ∧ Complete datedInvoices none all := by
  have h := getAllInvoices_complete_iff (.refl String) (oneArrival 0) datedInvoices none
    (by simp [datedInvoices]) fun n => (arrivals_oneArrival 0 n).trans (by omega)
  obtain ⟨all, hall⟩ := h.2.1 fun _ => rfl
  refine ⟨all, hall, (h.2.2 all hall).2 fun p hp r _ => ?_⟩
  have hlast : LastPage (oneArrival 0) datedInvoices "" 1 := by
    refine ⟨by decide +kernel, fun q hq => ?_⟩
    obtain rfl : q = 0 := by omega
    decide +kernel
  obtain rfl := hp.unique hlast
  exact (Paging.rank_le_length ..).trans_lt (by decide +kernel)

end Overtaken

end TrusTrove
