import TrusTrove.Proofs.AllInvoices

/-!
# The pages of the list of invoices

While nothing else happens, the pages up to the last are the filtered rows in order, one after the
other, as long as the number of rows rounded up to a page is a machine integer. A page past the last
is empty as long as its offset, a product of machine integers, does not wrap around: from `2 ^ 63`
on it is negative, which the database refuses, or small again, which shows rows of an earlier page.
-/

namespace TrusTrove

open Sql

/-- Nothing arrives and no statement fails. -/
structure Traffic.Quiet (E : Traffic) : Prop where
  arrivals : ∀ n, E.arrivals n = []
  fails : ∀ n, E.fails n = false

/-- The parameters of a request. -/
def pageRequest (status issuer limit page : String) : List (String × String) :=
  [("status", status), ("issuer", issuer), ("limit", limit), ("page", page)]

/-- The limit a request is served with. -/
def servedLimit (v : ℤ) : ℕ := min v.toNat 100

/-- The number of the last page. -/
def lastPage (total limit : ℕ) : ℕ := max 1 ((total + limit - 1) / limit)

/-- The number a page is served with, of machine integers. -/
def servedPages (total limit : ℕ) : ℤ :=
  if ((total + limit - 1 : ℤ).bmod (2 ^ 64)).tdiv limit < 1 then 1
  else ((total + limit - 1 : ℤ).bmod (2 ^ 64)).tdiv limit

section Serve

variable {ι : Type} [LinearOrder ι] (collate : String ↪ ι) (E : Traffic)
  (status issuer limitText : String) (w : PagesWorld)

/-- What a request for a page is answered. -/
def servePage (pageText : String) : Except Response InvoicesBody :=
  (handleGetInvoices collate E (pageRequest status issuer limitText pageText) w).1

/-- The pages up to the last are served, each with the number of the last, and make up the filtered
rows, newest first and no row twice. -/
def PagesPartition (last : ℕ) : Prop :=
  ∃ pages : List (List DbInvoice),
    (List.range last).map (fun k =>
        (servePage collate E status issuer limitText w (Nat.repr (k + 1))).map fun body =>
          (body.data, body.totalPages))
      = pages.map (fun data => .ok (data, (last : ℤ)))
    ∧ pages.flatten = (matching status issuer w.invoices.rows).insertionSort (newestFirst collate)
    ∧ (pages.flatten.map (·.id)).Nodup

/-- A page is served empty, with the number of the last. -/
def PageEmpty (last : ℕ) (pageText : String) : Prop :=
  ∃ body, servePage collate E status issuer limitText w pageText = .ok body ∧ body.data = []
    ∧ body.totalPages = last

end Serve

section Limits

theorem servedLimit_pos {v : ℤ} (h : 1 ≤ v) : 1 ≤ servedLimit v := by
  unfold servedLimit
  omega

theorem servedLimit_le (v : ℤ) : servedLimit v ≤ 100 := Nat.min_le_right ..

theorem servedLimit_eq {v : ℤ} (h : 1 ≤ v) :
    (if 100 < v then 100 else v) = (servedLimit v : ℤ) := by
  unfold servedLimit
  split_ifs <;> omega

variable {total limit : ℕ}

theorem total_le_lastPage (h : 1 ≤ limit) : total ≤ limit * lastPage total limit := by
  have hdiv := Nat.div_add_mod (total + limit - 1) limit
  have hmod := Nat.mod_lt (total + limit - 1) h
  have hmul : limit * ((total + limit - 1) / limit) ≤ limit * lastPage total limit :=
    Nat.mul_le_mul_left _ (Nat.le_max_right ..)
  omega

theorem natCast_lastPage (h : 1 ≤ limit) :
    (lastPage total limit : ℤ) = max 1 (((total : ℤ) + limit - 1) / limit) := by
  have hcast : ((total : ℤ) + limit - 1) / limit = ((total + limit - 1) / limit : ℕ) := by
    rw [Int.natCast_div, Nat.cast_sub (by omega)]
    push_cast
    rfl
  rw [hcast, lastPage]
  push_cast
  rfl

theorem servedPages_eq (h : 1 ≤ limit) (hfits : total + limit ≤ 2 ^ 63) :
    servedPages total limit = lastPage total limit := by
  have hbmod : ((total : ℤ) + limit - 1).bmod (2 ^ 64) = (total : ℤ) + limit - 1 :=
    Int.bmod_eq_of_le (by omega) (by omega)
  rw [natCast_lastPage h, servedPages, hbmod, Int.tdiv_eq_ediv_of_nonneg (by omega)]
  split_ifs <;> omega

/-- The offset of the last page is before the end of the rows. -/
theorem lastPage_lt (h : 1 ≤ limit) (hfits : total + limit ≤ 2 ^ 63) :
    lastPage total limit < 2 ^ 63 ∧ (lastPage total limit - 1) * limit < 2 ^ 63 := by
  have hdiv := Nat.div_mul_le_self (total + limit - 1) limit
  have hle := Nat.div_le_self (total + limit - 1) limit
  have hnumber : lastPage total limit < 2 ^ 63 := by
    unfold lastPage
    omega
  refine ⟨hnumber, ?_⟩
  rcases Nat.le_total ((total + limit - 1) / limit) 1 with hone | hmore
  · rw [lastPage, Nat.max_eq_left hone]
    norm_num
  · rw [lastPage, Nat.max_eq_right hmore, Nat.sub_mul]
    omega

/-- Once the rounded-up total wraps around, fewer pages are served. -/
theorem servedPages_lt (h : 1 ≤ limit) (hle : limit ≤ 100) (hbig : 2 ^ 63 < total + limit) :
    servedPages total limit < lastPage total limit := by
  have hpos : (0 : ℤ) < limit := by omega
  have hlast : (2 : ℤ) ≤ ((total : ℤ) + limit - 1) / limit := by
    rw [Int.le_ediv_iff_mul_le hpos]
    omega
  have hlt := Int.bmod_lt (x := (total : ℤ) + limit - 1) (m := 2 ^ 64) (by norm_num)
  have hdiv := Int.bmod_add_bdiv ((total : ℤ) + limit - 1) (2 ^ 64)
  have hbound : ((total : ℤ) + limit - 1).bmod (2 ^ 64) ≤ (total + limit - 1 : ℤ) - limit := by
    omega
  rw [natCast_lastPage h, servedPages]
  rcases lt_or_ge (((total : ℤ) + limit - 1).bmod (2 ^ 64)) 0 with hneg | hnonneg
  · have hdivneg : (((total : ℤ) + limit - 1).bmod (2 ^ 64)).tdiv limit ≤ 0 := by
      have hopp := Int.tdiv_nonneg (Int.neg_nonneg_of_nonpos hneg.le) hpos.le
      rw [Int.neg_tdiv] at hopp
      omega
    rw [if_pos (by omega)]
    omega
  · have hmono := Int.ediv_le_ediv hpos hbound
    have hsub : ((total : ℤ) + limit - 1 - limit) / limit
        = (total + limit - 1 : ℤ) / limit - 1 := by
      rw [Int.sub_ediv_of_dvd _ (dvd_refl _), Int.ediv_self hpos.ne']
    rw [Int.tdiv_eq_ediv_of_nonneg hnonneg]
    split_ifs <;> omega

end Limits

section Requests

variable {ι : Type} [LinearOrder ι] {collate : String ↪ ι} {E : Traffic} (hE : E.Quiet)
  {status issuer limitText : String} {w : PagesWorld} {v : ℤ}
  (hlimit : positiveParam limitText 20 = some v)

theorem positiveParam_pos {text : String} {unset n : ℤ} (hunset : 1 ≤ unset)
    (h : positiveParam text unset = some n) : 1 ≤ n := by
  unfold positiveParam at h
  split_ifs at h
  · obtain rfl := Option.some.inj h
    exact hunset
  · simpa using (Option.filter_eq_some_iff.1 h).2

include hE hlimit in
/-- A request is refused for its negative offset, or gets the window at its offset. -/
theorem servePage_eq {pageText : String} {p : ℤ} (hpage : positiveParam pageText 1 = some p) :
    servePage collate E status issuer limitText w pageText =
      if ((p - 1) * servedLimit v).bmod (2 ^ 64) < 0 then
        .error (internalError (E.requestID w.requests) "failed to retrieve invoices")
      else .ok ⟨Paging.page (newestFirst collate) (matching status issuer w.invoices.rows)
          (((p - 1) * servedLimit v).bmod (2 ^ 64)).toNat (servedLimit v),
        (matching status issuer w.invoices.rows).length, p, servedLimit v,
        servedPages (matching status issuer w.invoices.rows).length (servedLimit v)⟩ := by
  have hv := positiveParam_pos (by norm_num) hlimit
  have hquery : queryGet (pageRequest status issuer limitText pageText) "status" = status
      ∧ queryGet (pageRequest status issuer limitText pageText) "issuer" = issuer
      ∧ queryGet (pageRequest status issuer limitText pageText) "limit" = limitText
      ∧ queryGet (pageRequest status issuer limitText pageText) "page" = pageText := by
    simp [queryGet, pageRequest, List.lookup]
  obtain ⟨hs, hi, hl, hp⟩ := hquery
  have hinsert : ∀ n, insertAll (E.arrivals n) w.invoices = w.invoices := fun n => by
    rw [hE.arrivals]
    rfl
  rw [servePage, handleGetInvoices, hs, hi, hl, hp, hpage, hlimit]
  simp only [getInvoicesPage, queryInvoices, hE.fails, hinsert, servedLimit_eq hv,
    Bool.false_eq_true, if_false]
  generalize ((p - 1) * (servedLimit v : ℤ)).bmod (2 ^ 64) = offset
  by_cases hneg : offset < 0
  · simp only [hneg, if_true]
  · simp only [hneg, if_false, Int.toNat_natCast, servedPages]

include hE hlimit in
/-- A page whose offset does not wrap around is the window of its rows. -/
theorem servePage_page {pageText : String} {k : ℕ}
    (hpage : positiveParam pageText 1 = some ((k : ℤ) + 1))
    (hoffset : k * servedLimit v < 2 ^ 63) :
    servePage collate E status issuer limitText w pageText =
      .ok ⟨Paging.page (newestFirst collate) (matching status issuer w.invoices.rows)
          (servedLimit v * k) (servedLimit v),
        (matching status issuer w.invoices.rows).length, k + 1, servedLimit v,
        servedPages (matching status issuer w.invoices.rows).length (servedLimit v)⟩ := by
  have hbmod : (((k : ℤ) + 1 - 1) * servedLimit v).bmod (2 ^ 64) = (servedLimit v * k : ℕ) := by
    have hcast : ((k : ℤ) + 1 - 1) * servedLimit v = (k * servedLimit v : ℕ) := by
      push_cast
      ring
    rw [hcast, Int.bmod_eq_of_le (by omega) (by omega), Nat.mul_comm]
  rw [servePage_eq hE hlimit hpage, hbmod, if_neg (by omega), Int.toNat_natCast]

end Requests

section Partition

variable {ι : Type} [LinearOrder ι] {collate : String ↪ ι} {E : Traffic} (hE : E.Quiet)
  {status issuer limitText : String} {w : PagesWorld} {v : ℤ}
  (hlimit : positiveParam limitText 20 = some v)

theorem matching_nodup (status issuer : String) (t : Table DbInvoice DbInvoice.id) :
    (((matching status issuer t.rows).insertionSort (newestFirst collate)).map (·.id)).Nodup := by
  have hperm := (List.perm_insertionSort (newestFirst collate) (matching status issuer t.rows)).map
    (·.id)
  exact hperm.nodup_iff.2 ((List.filter_sublist.map _).nodup t.nodup)

include hE hlimit in
theorem pagesPartition_of_fits
    (hfits : (matching status issuer w.invoices.rows).length + servedLimit v ≤ 2 ^ 63) :
    PagesPartition collate E status issuer limitText w
      (lastPage (matching status issuer w.invoices.rows).length (servedLimit v)) := by
  have hv := servedLimit_pos (positiveParam_pos (by norm_num) hlimit)
  obtain ⟨last, hlast⟩ : ∃ last,
      last = lastPage (matching status issuer w.invoices.rows).length (servedLimit v) := ⟨_, rfl⟩
  obtain ⟨hnumber, hoffset⟩ := lastPage_lt hv hfits
  rw [← hlast] at hnumber hoffset ⊢
  refine ⟨(List.range last).map fun k => Paging.page (newestFirst collate)
    (matching status issuer w.invoices.rows) (servedLimit v * k) (servedLimit v), ?_, ?_⟩
  · rw [List.map_map]
    refine List.map_congr_left fun k hk => ?_
    rw [List.mem_range] at hk
    have hmul : k * servedLimit v ≤ (last - 1) * servedLimit v :=
      Nat.mul_le_mul_right _ (by omega)
    have hpage : positiveParam (Nat.repr (k + 1)) 1 = some ((k : ℤ) + 1) := by
      rw [positiveParam_repr (by omega) (by omega)]
      rfl
    rw [servePage_page hE hlimit hpage (by omega), servedPages_eq hv hfits, ← hlast]
    rfl
  · have hall : ((matching status issuer w.invoices.rows).insertionSort
        (newestFirst collate)).take (servedLimit v * last)
        = (matching status issuer w.invoices.rows).insertionSort (newestFirst collate) := by
      refine List.take_of_length_le ?_
      rw [List.length_insertionSort, hlast]
      exact total_le_lastPage hv
    rw [Paging.flatten_pages, hall]
    exact ⟨rfl, matching_nodup status issuer w.invoices⟩

include hE hlimit in
/-- The first page is served with the number of the last, so that number did not wrap around. -/
theorem fits_of_pagesPartition
    (h : PagesPartition collate E status issuer limitText w
      (lastPage (matching status issuer w.invoices.rows).length (servedLimit v))) :
    (matching status issuer w.invoices.rows).length + servedLimit v ≤ 2 ^ 63 := by
  have hv := servedLimit_pos (positiveParam_pos (by norm_num) hlimit)
  by_contra hbig
  have hlt := servedPages_lt hv (servedLimit_le v) (not_le.1 hbig)
  have hfirst : positiveParam (Nat.repr (0 + 1)) 1 = some (((0 : ℕ) : ℤ) + 1) := by decide +kernel
  obtain ⟨pages, hpages, -⟩ := h
  have hget := congrArg (·[0]?) hpages
  have hpos : 0 < lastPage (matching status issuer w.invoices.rows).length (servedLimit v) :=
    Nat.lt_of_lt_of_le one_pos (Nat.le_max_left ..)
  simp only [List.getElem?_map, List.getElem?_range hpos, Option.map_some] at hget
  rw [servePage_page hE hlimit hfirst (by norm_num)] at hget
  rcases hp : pages[0]? with _ | data <;> simp only [hp, Option.map_none, Option.map_some,
    reduceCtorEq, Except.map, Option.some.injEq, Except.ok.injEq, Prod.mk.injEq] at hget
  exact absurd hget.2 hlt.ne

include hE hlimit in
theorem pageEmpty_iff {pageText : String} {p : ℤ} (hpage : positiveParam pageText 1 = some p)
    (hfits : (matching status issuer w.invoices.rows).length + servedLimit v ≤ 2 ^ 63) :
    PageEmpty collate E status issuer limitText w
        (lastPage (matching status issuer w.invoices.rows).length (servedLimit v)) pageText
      ↔ ((matching status issuer w.invoices.rows).length : ℤ)
        ≤ ((p - 1) * servedLimit v).bmod (2 ^ 64) := by
  have hv := servedLimit_pos (positiveParam_pos (by norm_num) hlimit)
  rw [PageEmpty, servePage_eq hE hlimit hpage, servedPages_eq hv hfits]
  generalize ((p - 1) * (servedLimit v : ℤ)).bmod (2 ^ 64) = offset
  by_cases hneg : offset < 0
  · simp only [hneg, if_true]
    constructor
    · rintro ⟨body, hbody, -⟩
      cases hbody
    · intro h
      omega
  · simp only [hneg, if_false, Except.ok.injEq, exists_eq_left', and_true,
      Paging.page_eq_nil_iff hv]
    omega

end Partition

section Claim

variable {ι : Type} [LinearOrder ι] (collate : String ↪ ι)

/-- The pages up to the last make up the filtered rows in order, and a page past the last is empty,
exactly when the number of rows, rounded up to a page, stays a machine integer, and the offset of
the page past the last, as it wraps around, is still past the rows. -/
theorem pages_partition_iff {E : Traffic} (hE : E.Quiet) (status issuer : String) (w : PagesWorld)
    {limitText pageText : String} {v p : ℤ} (hlimit : positiveParam limitText 20 = some v)
    (hpage : positiveParam pageText 1 = some p) :
    let limit := servedLimit v
    let total := (matching status issuer w.invoices.rows).length
    let last := lastPage total limit
    (PagesPartition collate E status issuer limitText w last
        ∧ ((last : ℤ) < p → PageEmpty collate E status issuer limitText w last pageText))
      ↔ total + limit ≤ 2 ^ 63
        ∧ ((last : ℤ) < p → (total : ℤ) ≤ ((p - 1) * limit).bmod (2 ^ 64)) := by
  intro limit total last
  constructor
  · rintro ⟨hpages, hempty⟩
    have hfits := fits_of_pagesPartition hE hlimit hpages
    exact ⟨hfits, fun h => (pageEmpty_iff hE hlimit hpage hfits).1 (hempty h)⟩
  · rintro ⟨hfits, hoffset⟩
    exact ⟨pagesPartition_of_fits hE hlimit hfits,
      fun h => (pageEmpty_iff hE hlimit hpage hfits).2 (hoffset h)⟩

end Claim

section Recorded

def quietTraffic : Traffic where
  arrivals _ := []
  fails _ := false
  requestID _ := ""

theorem quietTraffic_quiet : quietTraffic.Quiet := ⟨fun _ => rfl, fun _ => rfl⟩

/-- Three invoices. -/
def threeInvoices : PagesWorld :=
  ⟨insertAll [datedInvoice 0, datedInvoice 1, datedInvoice 2] .empty, 0, 0⟩

/-- Page `2 ^ 62 + 1` of one: with limit 4 its offset is 0 again, with limit 2 it is negative. -/
theorem far_page_wraps :
    let page := servePage (.refl String) quietTraffic "" "" "4" threeInvoices "4611686018427387905"
    page.map (fun body => (body.data.map (·.id), body.totalPages)) = .ok (["2", "1", "0"], 1)
    ∧ (servePage (.refl String) quietTraffic "" "" "2" threeInvoices "4611686018427387905").map
        (·.totalPages) = .error (internalError "" "failed to retrieve invoices") := by
  decide +kernel

theorem pages_partition_iff_two :
    PagesPartition (.refl String) quietTraffic "" "" "2" threeInvoices 2
      ∧ PageEmpty (.refl String) quietTraffic "" "" "2" threeInvoices 2 "3" := by
  have hlimit : positiveParam "2" 20 = some 2 := by decide +kernel
  have hpage : positiveParam "3" 1 = some 3 := by decide +kernel
  have htotal : (matching "" "" threeInvoices.invoices.rows).length = 3 := by decide +kernel
  have h := pages_partition_iff (.refl String) quietTraffic_quiet "" "" threeInvoices hlimit hpage
  have hlast : lastPage 3 (servedLimit 2) = 2 := by decide
  simp only [htotal, hlast] at h
  obtain ⟨hpages, hempty⟩ := h.2 ⟨by decide, fun _ => by decide⟩
  exact ⟨hpages, hempty (by norm_num)⟩

end Recorded

end TrusTrove
