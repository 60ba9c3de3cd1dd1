import TrusTrove.Lib.Decimal
import TrusTrove.Proofs.EventFeed
import TrusTrove.ResponseCache

/-!
# What the cached endpoints answer

An item of `respCache` was put there by a `Set` under its key, and different queries have different
keys, so an answer is what the database once answered to the same query, stored less than the time
to live before (`cached_answers_recent`). For `/stats` the database is queried under the write lock,
so what is cached is in order and apart, and the counters of successive answers do not go down
(`stats_answers_advance`).
-/

namespace TrusTrove

open Sql TtlCache

section Keys

/-- A number ends where its colon is. -/
theorem number_colon_inj {a b : ℕ} {cs ds : List Char}
    (h : Nat.toDigits 10 a ++ ':' :: cs = Nat.toDigits 10 b ++ ':' :: ds) : a = b ∧ cs = ds := by
  have htake (n : ℕ) (es : List Char) :
      (Nat.toDigits 10 n ++ ':' :: es).takeWhile Char.isDigit = Nat.toDigits 10 n := by
    rw [List.takeWhile_append_of_pos (Decimal.areDigits_toDigits n)]
    simp
  have hdigits : Nat.toDigits 10 a = Nat.toDigits 10 b := by rw [← htake a cs, h, htake b ds]
  rw [hdigits, List.append_cancel_left_eq, List.cons.injEq] at h
  refine ⟨?_, h.2⟩
  rw [← Decimal.digitsValue_toDigits a, hdigits, Decimal.digitsValue_toDigits]

theorem CachedRead.key_toList (limit : ℕ) (issuer : String) :
    (events limit issuer).key.toList =
      "events:".toList ++ (Nat.toDigits 10 limit ++ ':' :: issuer.toList) := by
  simp [key, Nat.toList_repr]

/-- One caller's answer is not another's: queries with the same key are the same. -/
theorem CachedRead.key_injective : Function.Injective CachedRead.key := by
  have hpool (limit : ℕ) (issuer : String) : (events limit issuer).key ≠ poolStats.key := by
    intro h
    have := congrArg (fun s => s.toList.head?) h
    simp [key, poolStatsCacheKey] at this
  intro q q' h
  cases q with
  | events a i =>
    cases q' with
    | events b j =>
      have hlist := congrArg String.toList h
      rw [key_toList, key_toList, List.append_cancel_left_eq] at hlist
      obtain ⟨rfl, hissuer⟩ := number_colon_inj hlist
      rw [String.toList_injective hissuer]
    | poolStats => exact absurd h (hpool a i)
  | poolStats =>
    cases q' with
    | events b j => exact absurd h.symm (hpool b j)
    | poolStats => rfl

end Keys

section RespCache

/-- What the database answers to a query, when no statement fails. -/
def CachedRead.current (s : Db) : CachedRead → CachedResponse
  | events limit issuer => .events ((feed s.tables issuer).take limit)
  | poolStats => .poolStats s.shared.poolSnapshot

theorem CachedRead.fetch_ok {q : CachedRead} {fails : ℕ → Bool} {s : Db} {response : CachedResponse}
    (h : q.fetch fails s = .ok response) : response = q.current s := by
  cases q with
  | events limit issuer =>
    rcases hrows : (autocommit (getRecentEvents limit issuer) fails s).1 with e | rows
    · simp [fetch, hrows, Except.map] at h
    · simp only [fetch, hrows, Except.map, Except.ok.injEq] at h
      obtain ⟨-, rfl⟩ := getRecentEvents_ok hrows
      rw [← h]
      rfl
  | poolStats =>
    rcases hstats : (autocommit getPoolStats fails s).1 with e | stats
    · simp [fetch, hstats, Except.map] at h
    · simp only [fetch, hstats, Except.map, Except.ok.injEq] at h
      obtain ⟨p, hp, -⟩ := onPool_ok (mapError_ok (Prod.ext hstats rfl))
      cases hp
      exact h.symm

/-- A read of the database as it was at a time. -/
structure ReadAt (w : CacheWorld) (q : CachedRead) (response : CachedResponse) (t : ℤ) (d : Db) :
    Prop where
  moment : (t, d) ∈ w.moments
  past : t ≤ w.clock
  response : response = q.current d

/-- A value was stored under a key at a time. -/
def StoredUnder (w : CacheWorld) (k : String) (v : CachedResponse) (t : ℤ) : Prop :=
  ∃ f ∈ w.fills, f.read.key = k ∧ f.response = v ∧ f.storedAt = t

/-- What a request has seen is so. -/
def CacheRequest.Sound (w : CacheWorld) (r : CacheRequest) : Prop :=
  match r.phase with
  | .found item => item.Backed responseCacheTTL (StoredUnder w) r.read.key
  | .fetched response readAt db => ReadAt w r.read response readAt db
  | _ => True

/-- An answer of the database, or of the cache. -/
def CacheAnswer.Recent (w : CacheWorld) (a : CacheAnswer) : Prop :=
  ∀ response, a.result = .ok response → ∃ f ∈ w.fills, f.read = a.read ∧ f.response = response
    ∧ f.storedAt ≤ a.time ∧ a.time < f.storedAt + responseCacheTTL

/-- What was stored had been read. -/
structure CacheFill.Sound (w : CacheWorld) (f : CacheFill) : Prop where
  read : ReadAt w f.read f.response f.readAt f.db
  readAt_le : f.readAt ≤ f.storedAt
  past : f.storedAt ≤ w.clock

structure CacheInv (w : CacheWorld) : Prop where
  now : (w.clock, w.db) ∈ w.moments
  fills : ∀ f ∈ w.fills, f.Sound w
  cache : Backed responseCacheTTL (StoredUnder w) w.respCache
  requests : ∀ r ∈ w.requests, r.Sound w
  answers : ∀ a ∈ w.answers, a.Recent w

/-- Time has passed, and what was recorded still is. -/
structure CacheWorld.Extends (w w' : CacheWorld) : Prop where
  clock : w.clock ≤ w'.clock
  moments : w.moments ⊆ w'.moments
  fills : w.fills ⊆ w'.fills

variable {w w' : CacheWorld}

theorem ReadAt.later {q : CachedRead} {response : CachedResponse} {t : ℤ} {d : Db}
    (h : ReadAt w q response t d) (hw : w.Extends w') : ReadAt w' q response t d :=
  ⟨hw.moments h.moment, h.past.trans hw.clock, h.response⟩

theorem CacheFill.Sound.later {f : CacheFill} (h : f.Sound w) (hw : w.Extends w') : f.Sound w' :=
  ⟨h.read.later hw, h.readAt_le, h.past.trans hw.clock⟩

theorem StoredUnder.later (hw : w.Extends w') (k : String) (v : CachedResponse) (t : ℤ)
    (h : StoredUnder w k v t) : StoredUnder w' k v t := by
  obtain ⟨f, hf, hk⟩ := h
  exact ⟨f, hw.fills hf, hk⟩

theorem CacheRequest.Sound.later {r : CacheRequest} (h : r.Sound w) (hw : w.Extends w') :
    r.Sound w' := by
  unfold Sound at h ⊢
  split
  · rename_i item hphase
    rw [hphase] at h
    exact StoredUnder.later hw _ _ _ h
  · rename_i hphase
    rw [hphase] at h
    exact h.later hw
  · trivial

theorem CacheAnswer.Recent.later {a : CacheAnswer} (h : a.Recent w) (hw : w.Extends w') :
    a.Recent w' := by
  intro response hr
  obtain ⟨f, hf, hrest⟩ := h response hr
  exact ⟨f, hw.fills hf, hrest⟩

namespace CacheInv

theorem init (clock : ℤ) (db : Db) : CacheInv (.init clock db) where
  now := by simp [CacheWorld.init]
  fills := by simp [CacheWorld.init]
  cache := Backed.empty
  requests := by simp [CacheWorld.init]
  answers := by simp [CacheWorld.init]

/-- A step has to answer for what it adds. -/
theorem later (h : CacheInv w) (hw : w.Extends w') (hnow : (w'.clock, w'.db) ∈ w'.moments)
    (hfills : ∀ f ∈ w'.fills, f ∈ w.fills ∨ f.Sound w')
    (hcache : Backed responseCacheTTL (StoredUnder w') w'.respCache)
    (hrequests : ∀ r ∈ w'.requests, r ∈ w.requests ∨ r.Sound w')
    (hanswers : ∀ a ∈ w'.answers, a ∈ w.answers ∨ a.Recent w') : CacheInv w' where
  now := hnow
  fills := fun f hf => (hfills f hf).elim (fun hold => (h.fills f hold).later hw) id
  cache := hcache
  requests := fun r hr => (hrequests r hr).elim (fun hold => (h.requests r hold).later hw) id
  answers := fun a ha => (hanswers a ha).elim (fun hold => (h.answers a hold).later hw) id

variable {i : ℕ} {r : CacheRequest}

theorem moveTo (h : CacheInv w) {phase : CachePhase}
    (hsound : CacheRequest.Sound w { r with phase := phase }) : CacheInv (w.moveTo i r phase) := by
  have hw : w.Extends (w.moveTo i r phase) := ⟨le_rfl, fun _ => id, fun _ => id⟩
  refine h.later hw h.now (fun f => .inl) (h.cache.mono (StoredUnder.later hw)) (fun x hx => ?_)
    fun a => .inl
  rcases List.mem_or_eq_of_mem_set hx with hold | rfl
  · exact .inl hold
  · exact .inr (hsound.later hw)

theorem answer (h : CacheInv w) {result : Except Response CachedResponse}
    (hrecent : CacheAnswer.Recent w ⟨r.read, w.clock, result⟩) :
    CacheInv (w.answer i r result) := by
  have hw : w.Extends (w.answer i r result) := ⟨le_rfl, fun _ => id, fun _ => id⟩
  refine h.later hw h.now (fun f => .inl) (h.cache.mono (StoredUnder.later hw))
    (fun x hx => .inl (List.mem_of_mem_eraseIdx hx)) fun a ha => ?_
  rcases List.mem_append.1 ha with hold | hnew
  · exact .inl hold
  · rw [List.mem_singleton.1 hnew]
    exact .inr (hrecent.later hw)

theorem delete (h : CacheInv w) (key : String) :
    CacheInv { w with respCache := TTLCache.delete w.respCache key } := by
  have hw : w.Extends { w with respCache := TTLCache.delete w.respCache key } :=
    ⟨le_rfl, fun _ => id, fun _ => id⟩
  exact h.later hw h.now (fun f => .inl) ((h.cache.mono (StoredUnder.later hw)).delete key)
    (fun x => .inl) fun a => .inl

/-- A fetched response is stored and answered. -/
theorem store (h : CacheInv w) {response : CachedResponse} {readAt : ℤ} {db : Db}
    (hread : ReadAt w r.read response readAt db) : CacheInv
      { w.answer i r (.ok response) with
        respCache := TTLCache.set w.respCache r.read.key response responseCacheTTL w.clock
        fills := w.fills ++ [⟨r.read, response, readAt, db, w.clock⟩] } := by
  have hw : w.Extends
      { w.answer i r (.ok response) with
        respCache := TTLCache.set w.respCache r.read.key response responseCacheTTL w.clock
        fills := w.fills ++ [⟨r.read, response, readAt, db, w.clock⟩] } :=
    ⟨le_rfl, fun _ => id, List.subset_append_left _ _⟩
  have hfill : (⟨r.read, response, readAt, db, w.clock⟩ : CacheFill)
      ∈ w.fills ++ [⟨r.read, response, readAt, db, w.clock⟩] := by simp
  refine h.later hw h.now (fun f hf => ?_)
    ((h.cache.mono (StoredUnder.later hw)).set ⟨_, hfill, rfl, rfl, rfl⟩)
    (fun x hx => .inl (List.mem_of_mem_eraseIdx hx)) fun a ha => ?_
  · rcases List.mem_append.1 hf with hold | hnew
    · exact .inl hold
    · rw [List.mem_singleton.1 hnew]
      exact .inr ⟨hread.later hw, hread.past, le_rfl⟩
  · rcases List.mem_append.1 ha with hold | hnew
    · exact .inl hold
    · rw [List.mem_singleton.1 hnew]
      refine .inr fun response' hresponse => ?_
      cases hresponse
      refine ⟨_, hfill, rfl, rfl, le_rfl, ?_⟩
      show w.clock < w.clock + responseCacheTTL
      exact lt_add_of_pos_right _ (by decide)

/-- A request keeps the invariant, whatever its next step is. -/
theorem proceed (h : CacheInv w) (hr : r ∈ w.requests) (fails : ℕ → Bool) :
    CacheInv (w.proceed i r fails) := by
  have hsound := h.requests r hr
  unfold CacheWorld.proceed
  unfold CacheRequest.Sound at hsound
  split
  · split
    · exact h.moveTo trivial
    · rename_i item hitem
      exact h.moveTo (h.cache _ item hitem)
  · rename_i item hphase
    rw [hphase] at hsound
    split_ifs with hexpired hasserts
    · exact h.moveTo trivial
    · refine h.answer fun response hresponse => ?_
      cases hresponse
      obtain ⟨t, ⟨f, hf, hkey, hvalue, rfl⟩, hlive⟩ :=
        Item.Backed.fresh hsound (Bool.not_eq_true _ ▸ hexpired)
      exact ⟨f, hf, CachedRead.key_injective hkey, hvalue, (h.fills f hf).past, hlive⟩
    · exact h.moveTo trivial
  · have hquery : CacheInv (w.moveTo i r .query) := h.moveTo trivial
    exact hquery.delete _
  · split
    · refine h.answer fun response hresponse => ?_
      cases hresponse
    · rename_i response hfetch
      exact h.moveTo ⟨h.now, le_rfl, CachedRead.fetch_ok hfetch⟩
  · rename_i response readAt db hphase
    rw [hphase] at hsound
    exact h.store hsound

end CacheInv

theorem CacheReachable.inv (hw : CacheReachable w) : CacheInv w := by
  induction hw with
  | init clock db => exact .init clock db
  | @step w step hw hallowed ih =>
    cases step with
    | advance now db =>
      have hext : w.Extends ((CacheStep.advance now db).apply w) :=
        ⟨hallowed, List.subset_append_left _ _, fun _ => id⟩
      exact ih.later hext (by simp [CacheStep.apply]) (fun f => .inl)
        (ih.cache.mono (StoredUnder.later hext)) (fun r => .inl) fun a => .inl
    | request read requestID =>
      have hext : w.Extends ((CacheStep.request read requestID).apply w) :=
        ⟨le_rfl, fun _ => id, fun _ => id⟩
      refine ih.later hext ih.now (fun f => .inl) (ih.cache.mono (StoredUnder.later hext))
        (fun r hr => ?_) fun a => .inl
      rcases List.mem_append.1 hr with hold | hnew
      · exact .inl hold
      · rw [List.mem_singleton.1 hnew]
        exact .inr trivial
    | proceed i fails =>
      simp only [CacheStep.apply]
      split
      · exact ih
      · rename_i r hr
        exact ih.proceed (List.mem_of_getElem? hr) fails

/-- Every response of `/events` and `/pool/stats` is what the database held for that very query at
some moment. It was stored less than the time to live before the answer, by a request that had read
it then or the one that is answered. -/
theorem cached_answers_recent (hw : CacheReachable w) {a : CacheAnswer} (ha : a ∈ w.answers)
    {response : CachedResponse} (hresponse : a.result = .ok response) :
    ∃ f ∈ w.fills, f.read = a.read ∧ response = a.read.current f.db ∧ (f.readAt, f.db) ∈ w.moments
      ∧ f.readAt ≤ f.storedAt ∧ f.storedAt ≤ a.time ∧ a.time < f.storedAt + responseCacheTTL := by
  have h := hw.inv
  obtain ⟨f, hf, hread, rfl, hle, hlt⟩ := h.answers a ha response hresponse
  have hsound := h.fills f hf
  exact ⟨f, hf, hread, hread ▸ hsound.read.response, hsound.read.moment, hsound.readAt_le, hle, hlt⟩

/-- A request that queries the database, and one 29 seconds later that does not. -/
def recordedReads : List CacheStep :=
  [.request (.events 20 "") "r1", .proceed 0 noFaults, .proceed 0 noFaults, .proceed 0 noFaults,
    .advance (29 * 10 ^ 9) freshDb, .request (.events 20 "") "r2", .proceed 0 noFaults,
    .proceed 0 noFaults]

def recordedCacheWorld : CacheWorld :=
  recordedReads.foldl (fun w step => step.apply w) (.init 0 freshDb)

theorem recordedCacheWorld_reachable : CacheReachable recordedCacheWorld := by
  have h₁ := (CacheReachable.init 0 freshDb).step (.request (.events 20 "") "r1") trivial
  have h₃ := (h₁.step (.proceed 0 noFaults) trivial).step (.proceed 0 noFaults) trivial
  have h₄ := h₃.step (.proceed 0 noFaults) trivial
  have h₅ := h₄.step (.advance (29 * 10 ^ 9) freshDb) (show (0 : ℤ) ≤ 29 * 10 ^ 9 by decide)
  have h₆ := h₅.step (.request (.events 20 "") "r2") trivial
  exact (h₆.step (.proceed 0 noFaults) trivial).step (.proceed 0 noFaults) trivial

theorem cached_answers_recent_recorded :
    ∃ a, recordedCacheWorld.answers[1]? = some a ∧ a.time = 29 * 10 ^ 9
      ∧ recordedCacheWorld.fills.length = 1
      ∧ ∃ f ∈ recordedCacheWorld.fills, a.time < f.storedAt + responseCacheTTL := by
  have ha : recordedCacheWorld.answers[1]? =
    some ⟨.events 20 "", 29 * 10 ^ 9, .ok (.events [])⟩ := by rfl
  obtain ⟨f, hf, -, -, -, -, -, hlt⟩ :=
    cached_answers_recent recordedCacheWorld_reachable (List.mem_of_getElem? ha) rfl
  exact ⟨_, ha, rfl, rfl, f, hf, hlt⟩

end RespCache

section Stats

variable (R : Db → Db → Prop) (s₀ : Db)

/-- The stats of a state of the database. -/
def statsOf (s : Db) : ProtocolStats := protocolStats s.tables s.shared

/-- What is cached was read of a past state. -/
structure StatsFill.Sound (db : Db) (clock : ℤ) (f : StatsFill) : Prop where
  stats : f.stats = statsOf f.db
  base : R s₀ f.db
  past : R f.db db
  cachedAt : f.cachedAt ≤ clock

/-- The stats of the fills were read in their order, each when the one before had expired. -/
def StatsFill.Before (f g : StatsFill) : Prop := R f.db g.db ∧ f.cachedAt + 30 * 10 ^ 9 ≤ g.cachedAt

/-- What the holder of the write lock has read is not older than what was cached before. -/
def StatsPhase.Sound (db : Db) (fills : List StatsFill) : StatsPhase → Prop
  | .query => True
  | .fetched stats d => stats = statsOf d ∧ R s₀ d ∧ R d db ∧ ∀ f ∈ fills, R f.db d

/-- The answer is a cached value that had not expired. -/
def StatsAnswer.Recent (fills : List StatsFill) (a : StatsAnswer) : Prop :=
  ∀ stats, a.result = .ok stats → ∃ f ∈ fills, f.stats = stats ∧ f.cachedAt ≤ a.time
    ∧ a.time < f.cachedAt + 30 * 10 ^ 9

/-- The second answer is of a state not before that of the first. -/
def StatsAnswer.Before (a b : StatsAnswer) : Prop :=
  ∀ stats stats', a.result = .ok stats → b.result = .ok stats' →
    ∃ d d', R s₀ d ∧ R d d' ∧ stats = statsOf d ∧ stats' = statsOf d'

structure StatsInv (w : StatsWorld) : Prop where
  base : R s₀ w.db
  fills : ∀ f ∈ w.fills, f.Sound R s₀ w.db w.clock
  apart : w.fills.Pairwise (StatsFill.Before R)
  data : w.statsData = w.fills.getLast?.map (·.stats)
  cachedAt : ∀ f, w.fills.getLast? = some f → w.statsCached = f.cachedAt
  writer : ∀ p, w.writer = some p →
    (∀ f ∈ w.fills, f.cachedAt + 30 * 10 ^ 9 ≤ w.clock) ∧ p.Sound R s₀ w.db w.fills
  answers : ∀ a ∈ w.answers, a.Recent w.fills
  order : w.answers.Pairwise (StatsAnswer.Before R s₀)

variable {R s₀} {w : StatsWorld}

namespace StatsInv

theorem init [Std.Refl R] (clock : ℤ) : StatsInv R s₀ (.init clock s₀) where
  base := refl_of R s₀
  fills := by simp [StatsWorld.init]
  apart := by simp [StatsWorld.init]
  data := by simp [StatsWorld.init]
  cachedAt := by simp [StatsWorld.init]
  writer := by simp [StatsWorld.init]
  answers := by simp [StatsWorld.init]
  order := by simp [StatsWorld.init]

variable (h : StatsInv R s₀ w)
include h

theorem advance [IsTrans Db R] {now : ℤ} {db : Db} (hnow : w.clock ≤ now) (hdb : R w.db db) :
    StatsInv R s₀ { w with clock := now, db := db } where
  base := trans_of R h.base hdb
  fills := fun f hf =>
    { h.fills f hf with
      past := trans_of R (h.fills f hf).past hdb
      cachedAt := (h.fills f hf).cachedAt.trans hnow }
  apart := h.apart
  data := h.data
  cachedAt := h.cachedAt
  writer := by
    intro p hp
    obtain ⟨hold, hsound⟩ := h.writer p hp
    refine ⟨fun f hf => (hold f hf).trans hnow, ?_⟩
    cases p with
    | query => trivial
    | fetched stats d => exact ⟨hsound.1, hsound.2.1, trans_of R hsound.2.2.1 hdb, hsound.2.2.2⟩
  answers := h.answers
  order := h.order

/-- The fills are not newer than the last one. -/
theorem before_last [Std.Refl R] {f g : StatsFill} (hlast : w.fills.getLast? = some f)
    (hg : g ∈ w.fills) : R g.db f.db ∧ g.cachedAt ≤ f.cachedAt := by
  obtain ⟨fs, hfs⟩ := List.getLast?_eq_some_iff.1 hlast
  have hapart := h.apart
  rw [hfs] at hapart hg
  rcases List.mem_append.1 hg with hold | hnew
  · obtain ⟨hR, hle⟩ := (List.pairwise_append.1 hapart).2.2 g hold f (by simp)
    exact ⟨hR, by omega⟩
  · rw [List.mem_singleton.1 hnew]
    exact ⟨refl_of R _, le_rfl⟩

/-- The cached value, when it is served, is that of the last fill. -/
theorem cached_eq {data : ProtocolStats} (hc : w.cached = some data) :
    ∃ f, w.fills.getLast? = some f ∧ f.stats = data ∧ w.clock < f.cachedAt + 30 * 10 ^ 9 := by
  obtain ⟨hdata, hlt⟩ := Option.filter_eq_some_iff.1 hc
  rw [h.data] at hdata
  obtain ⟨f, hf, hstats⟩ := Option.map_eq_some_iff.1 hdata
  rw [decide_eq_true_eq, h.cachedAt f hf] at hlt
  exact ⟨f, hf, hstats, by omega⟩

/-- An answer of the last fill. -/
theorem answer_last [Std.Refl R] {f : StatsFill} (hlast : w.fills.getLast? = some f)
    (hlive : w.clock < f.cachedAt + 30 * 10 ^ 9) :
    StatsInv R s₀ (w.answer (.ok f.stats)) := by
  have hf : f ∈ w.fills := List.mem_of_getLast? hlast
  refine { h with answers := fun a ha => ?_, order := ?_ }
  · rcases List.mem_append.1 ha with hold | hnew
    · exact h.answers a hold
    · rw [List.mem_singleton.1 hnew]
      rintro stats ⟨⟩
      exact ⟨f, hf, rfl, (h.fills f hf).cachedAt, hlive⟩
  · refine List.pairwise_append.2 ⟨h.order, List.pairwise_singleton _ _, fun a ha b hb => ?_⟩
    rw [List.mem_singleton.1 hb]
    intro stats stats' hstats hstats'
    cases hstats'
    obtain ⟨g, hg, rfl, -⟩ := h.answers a ha stats hstats
    exact ⟨g.db, f.db, (h.fills g hg).base, (h.before_last hlast hg).1, (h.fills g hg).stats,
      (h.fills f hf).stats⟩

theorem answer_error (e : Response) : StatsInv R s₀ (w.answer (.error e)) := by
  refine { h with answers := fun a ha => ?_, order := ?_ }
  · rcases List.mem_append.1 ha with hold | hnew
    · exact h.answers a hold
    · rw [List.mem_singleton.1 hnew]
      rintro stats ⟨⟩
  · refine List.pairwise_append.2 ⟨h.order, List.pairwise_singleton _ _, fun a ha b hb => ?_⟩
    rw [List.mem_singleton.1 hb]
    rintro stats stats' - ⟨⟩

theorem counts (checking waiting : ℕ) :
    StatsInv R s₀ { w with checking := checking, waiting := waiting } := { h with }

theorem unlock : StatsInv R s₀ { w with writer := none } :=
  { h with writer := fun p hp => by cases hp }

/-- The write lock is held for a query when what is cached has expired. -/
theorem lock [Std.Refl R] (hc : w.cached = none) :
    StatsInv R s₀ { w with writer := some .query } := by
  refine { h with writer := fun p hp => ?_ }
  cases hp
  refine ⟨fun g hg => ?_, trivial⟩
  obtain ⟨f, hlast⟩ := List.getLast?_isSome.2 (List.ne_nil_of_mem hg) |> Option.isSome_iff_exists.1
  have hdata := h.data
  rw [hlast, Option.map_some] at hdata
  rw [StatsWorld.cached, hdata, h.cachedAt f hlast, Option.filter_some] at hc
  have hexpired : ¬ w.clock - f.cachedAt < 30 * 10 ^ 9 := by simpa using hc
  have := (h.before_last hlast hg).2
  show g.cachedAt + 30 * 10 ^ 9 ≤ w.clock
  omega

theorem query {fails : ℕ → Bool} [Std.Refl R] {stats : ProtocolStats}
    (hw : w.writer = some .query) (hstats : (getProtocolStats fails w.db).1 = .ok stats) :
    StatsInv R s₀ { w with writer := some (.fetched stats w.db) } := by
  refine { h with writer := fun p hp => ?_ }
  cases hp
  exact ⟨(h.writer _ hw).1, getProtocolStats_ok hstats, h.base, refl_of R _,
    fun f hf => (h.fills f hf).past⟩

/-- What the holder of the write lock has read becomes the last fill. -/
theorem store {stats : ProtocolStats} {db : Db} (hw : w.writer = some (.fetched stats db)) :
    StatsInv R s₀ { w with
      statsData := some stats, statsCached := w.clock, writer := none
      fills := w.fills ++ [⟨stats, db, w.clock⟩] } := by
  obtain ⟨hold, hstats, hbase, hpast, hafter⟩ := h.writer _ hw
  refine
    { base := h.base
      fills := fun f hf => ?_
      apart := ?_
      data := by simp
      cachedAt := fun f hf => ?_
      writer := fun p hp => by cases hp
      answers := fun a ha stats' hstats' => ?_
      order := h.order }
  · rcases List.mem_append.1 hf with hf | hnew
    · exact h.fills f hf
    · rw [List.mem_singleton.1 hnew]
      exact ⟨hstats, hbase, hpast, le_rfl⟩
  · refine List.pairwise_append.2 ⟨h.apart, List.pairwise_singleton _ _, fun f hf g hg => ?_⟩
    rw [List.mem_singleton.1 hg]
    exact ⟨hafter f hf, hold f hf⟩
  · rw [List.getLast?_concat] at hf
    cases hf
    rfl
  · obtain ⟨f, hf, hrest⟩ := h.answers a ha stats' hstats'
    exact ⟨f, List.mem_append_left _ hf, hrest⟩

omit h in
theorem step [Std.Refl R] [IsTrans Db R] (h : StatsInv R s₀ w) (step : StatsStep)
    (hallowed : step.Allowed R w) : StatsInv R s₀ (step.apply w) := by
  cases step with
  | advance now db => exact h.advance hallowed.1 hallowed.2
  | request => exact h.counts (w.checking + 1) w.waiting
  | check =>
    simp only [StatsStep.apply]
    split
    · split
      · rename_i data hc
        obtain ⟨f, hlast, rfl, hlive⟩ := h.cached_eq hc
        exact (h.answer_last hlast hlive).counts _ _
      · exact h.counts _ _
    · exact h
  | lock =>
    simp only [StatsStep.apply]
    split
    · split
      · rename_i data hc
        obtain ⟨f, hlast, rfl, hlive⟩ := h.cached_eq hc
        exact (h.answer_last hlast hlive).counts _ _
      · rename_i hc
        exact (h.lock hc).counts _ _
    · exact h
  | query requestID fails =>
    simp only [StatsStep.apply]
    split
    · rename_i hw
      split
      · exact (h.answer_error _).unlock
      · rename_i stats hstats
        exact h.query hw hstats
    · exact h
  | store =>
    simp only [StatsStep.apply]
    split
    · rename_i stats db hw
      refine (h.store hw).answer_last (f := ⟨stats, db, w.clock⟩) (by simp) ?_
      show w.clock < w.clock + 30 * 10 ^ 9
      omega
    · exact h

end StatsInv

theorem StatsReachable.inv [Std.Refl R] [IsTrans Db R] (hw : StatsReachable R s₀ w) :
    StatsInv R s₀ w := by
  induction hw with
  | init clock => exact .init clock
  | step step _ hallowed ih => exact ih.step step hallowed

end Stats

section Handled

/-- Between two states, events were handled. -/
def Handled (L : EventListener) (s s' : Db) : Prop := ∃ calls, s' = handleRun L calls s

variable {L : EventListener}

instance : Std.Refl (Handled L) := ⟨fun _ => ⟨[], rfl⟩⟩

instance : IsTrans Db (Handled L) := ⟨by
  rintro a b c ⟨calls, rfl⟩ ⟨calls', rfl⟩
  exact ⟨calls ++ calls', (handleRun_append L calls calls' a).symm⟩⟩

theorem statsOf_advances {s₀ d d' : Db} (hs : s₀.tables.invoices = Table.empty)
    (hd : Handled L s₀ d) (hd' : Handled L d d') : (statsOf d).Advances (statsOf d') := by
  obtain ⟨pre, rfl⟩ := hd
  obtain ⟨post, rfl⟩ := hd'
  obtain ⟨hpre, hpost, hev⟩ := handleRun_rowsWf L pre post hs
  rw [handleRun_append] at hpost hev
  exact protocolStats_advances hpre hpost hev (handleRun_eventsLog L post _)

/-- While events are handled and requests of `/stats` run concurrently, each response is the stats
of a past state, cached less than 30 seconds before; the counters of a response are not below those
of any response before it; and the stats are cached at most once in 30 seconds. -/
theorem stats_answers_advance (s₀ : Db) (hs : s₀.tables.invoices = Table.empty) {w : StatsWorld}
    (hw : StatsReachable (Handled L) s₀ w) :
    (∀ a ∈ w.answers, ∀ stats, a.result = .ok stats → ∃ f ∈ w.fills, stats = statsOf f.db
        ∧ Handled L s₀ f.db ∧ f.cachedAt ≤ a.time ∧ a.time < f.cachedAt + 30 * 10 ^ 9)
      ∧ (w.answers.Pairwise fun a b => ∀ stats stats', a.result = .ok stats →
        b.result = .ok stats' → stats.Advances stats')
      ∧ w.fills.Pairwise fun f g => f.cachedAt + 30 * 10 ^ 9 ≤ g.cachedAt := by
  have h := hw.inv
  refine ⟨fun a ha stats hstats => ?_, h.order.imp fun hab stats stats' hstats hstats' => ?_,
    h.apart.imp And.right⟩
  · obtain ⟨f, hf, rfl, hle, hlt⟩ := h.answers a ha stats hstats
    have hsound := h.fills f hf
    exact ⟨f, hf, hsound.stats, hsound.base, hle, hlt⟩
  · obtain ⟨d, d', hd, hd', rfl, rfl⟩ := hab stats stats' hstats hstats'
    exact statsOf_advances hs hd hd'

/-- Two requests find nothing cached, and the second waits for what the first reads. -/
def recordedStatsSteps : List StatsStep :=
  [.request, .request, .check, .check, .lock, .query "r1" noFaults, .store, .lock]

def recordedStatsWorld : StatsWorld :=
  recordedStatsSteps.foldl (fun w step => step.apply w) (.init 0 freshDb)

theorem recordedStatsWorld_reachable :
    StatsReachable (Handled (recordedListener 3)) freshDb recordedStatsWorld := by
  have h₀ : StatsReachable (Handled (recordedListener 3)) freshDb (.init 0 freshDb) := .init 0
  have h₂ := (h₀.step .request trivial).step .request trivial
  have h₄ := (h₂.step .check trivial).step .check trivial
  have h₆ := (h₄.step .lock trivial).step (.query "r1" noFaults) trivial
  exact (h₆.step .store trivial).step .lock trivial

theorem stats_answers_advance_recorded :
    recordedStatsWorld.answers.length = 2 ∧ recordedStatsWorld.fills.length = 1
      ∧ recordedStatsWorld.answers.Pairwise fun a b => ∀ stats stats', a.result = .ok stats →
        b.result = .ok stats' → stats.Advances stats' :=
  ⟨rfl, rfl, (stats_answers_advance freshDb rfl recordedStatsWorld_reachable).2.1⟩

end Handled

end TrusTrove
