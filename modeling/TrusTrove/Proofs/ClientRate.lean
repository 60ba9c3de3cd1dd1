import TrusTrove.ClientLimiter

/-!
# What the per-client limiter admits

Forgetting a bucket for ten minutes' silence forgets nothing: a bucket of two seconds' burst is full
again long before. So while the map never overflows, a limiter answers like one that never evicts
(`Sim`), and each of its clients is a token bucket. Overflow removes one bucket, since no client key
is empty.
-/

namespace TrusTrove

open Sql PerClientRateLimiter

theorem getClientKey_ne_empty (r : ClientRequest) : getClientKey r ≠ "" := by
  unfold getClientKey
  split
  all_goals
    intro h
    have := congrArg String.length h
    simp [String.length_append] at this

/-! ## The size of the map -/

section Size

/-- Every bucket has a client. -/
def KeysNamed (rl : PerClientRateLimiter) : Prop := ∀ b ∈ rl.buckets.rows, b.clientKey ≠ ""

/-- The candidate of `evictOldest` is one of the buckets seen, once one was. -/
theorem foldl_older_mem : ∀ (l : List RouterBucket) (o : String × ℤ),
    (∀ b ∈ l, b.clientKey ≠ "") →
      (l.foldl older o).1 = o.1 ∧ (o.1 ≠ "" ∨ l = []) ∨ (l.foldl older o).1 ∈ l.map (·.clientKey)
  | [], o, _ => .inl ⟨rfl, .inr rfl⟩
  | b :: l, o, h => by
    have hb := h b List.mem_cons_self
    rcases foldl_older_mem l (older o b) fun c hc => h c (List.mem_cons_of_mem _ hc) with hl | hl
    · rw [List.foldl_cons, List.map_cons, List.mem_cons]
      by_cases ho : o.1 = "" ∨ b.last < o.2
      · have hnew : older o b = (b.clientKey, b.last) := if_pos ho
        exact .inr (.inl (by rw [hl.1, hnew]))
      · have hold : older o b = o := if_neg ho
        rw [not_or] at ho
        exact .inl ⟨by rw [hl.1, hold], .inl ho.1⟩
    · exact .inr (List.mem_cons_of_mem _ hl)

theorem evictOldest_length (order : RangeOrder) {rl : PerClientRateLimiter} (h : KeysNamed rl)
    (hne : rl.buckets.rows ≠ []) :
    (rl.evictOldest order).buckets.rows.length < rl.buckets.rows.length := by
  have hperm := order.perm rl.buckets.rows
  have hnamed : ∀ b ∈ order.range rl.buckets.rows, b.clientKey ≠ "" := fun b hb =>
    h b (hperm.mem_iff.mp hb)
  have hmem : ((order.range rl.buckets.rows).foldl older ("", 0)).1 ∈
      rl.buckets.rows.map (·.clientKey) := by
    rcases foldl_older_mem _ ("", 0) hnamed with ⟨-, ho | hnil⟩ | hmem
    · simp at ho
    · rw [hnil] at hperm
      exact absurd hperm.symm.eq_nil hne
    · exact (hperm.map _).mem_iff.mp hmem
  obtain ⟨b, hb, hkey⟩ := List.mem_map.mp hmem
  have hnot : ((order.range rl.buckets.rows).foldl older ("", 0)).1 ≠ "" := hkey ▸ h b hb
  simp only [evictOldest, hnot, if_false, Table.deleteWhere]
  rw [List.length_filter_lt_length_iff_exists]
  exact ⟨b, hb, by simp [hkey]⟩

theorem length_insertNew_le (t : Table RouterBucket RouterBucket.clientKey) (b : RouterBucket) :
    (t.insertNew b).rows.length ≤ t.rows.length + 1 := by
  unfold Table.insertNew
  split <;> simp

theorem mem_insertNew {t : Table RouterBucket RouterBucket.clientKey} {b c : RouterBucket}
    (h : c ∈ (t.insertNew b).rows) : c ∈ t.rows ∨ c = b := by
  unfold Table.insertNew at h
  split at h
  · exact .inl h
  · simpa using h

theorem mem_evictOldest {order : RangeOrder} {rl : PerClientRateLimiter} {b : RouterBucket}
    (h : b ∈ (rl.evictOldest order).buckets.rows) : b ∈ rl.buckets.rows := by
  simp only [evictOldest] at h
  split at h
  · exact h
  · exact List.mem_of_mem_filter h

theorem mem_setBucket {rl : PerClientRateLimiter} {b c : RouterBucket}
    (h : c ∈ (rl.setBucket b).buckets.rows) : ∃ d ∈ rl.buckets.rows, c.clientKey = d.clientKey := by
  simp only [setBucket, Table.update, Table.updateWhere, List.mem_map] at h
  obtain ⟨d, hd, rfl⟩ := h
  refine ⟨d, hd, ?_⟩
  split <;> rfl

theorem length_setBucket (rl : PerClientRateLimiter) (b : RouterBucket) :
    (rl.setBucket b).buckets.rows.length = rl.buckets.rows.length := by
  simp [setBucket, Table.update, Table.updateWhere]

theorem clientKey_bucketOf {rl : PerClientRateLimiter} {clientKey : String} {created : ℤ} :
    (rl.bucketOf clientKey created).clientKey = clientKey := by
  unfold bucketOf
  cases h : rl.buckets.find? clientKey with
  | none => rfl
  | some b => exact Table.key_of_find? h

/-- The map with one more client, whichever bucket an overflow removes. -/
theorem ensureBucket_size (order : RangeOrder) (clientKey : String) (created : ℤ)
    {rl : PerClientRateLimiter} (hkey : clientKey ≠ "") (hnamed : KeysNamed rl)
    (hsize : rl.buckets.rows.length ≤ rl.maxSize) :
    KeysNamed (rl.ensureBucket order clientKey created) ∧
      (rl.ensureBucket order clientKey created).buckets.rows.length ≤ rl.maxSize := by
  unfold ensureBucket
  split
  · exact ⟨hnamed, hsize⟩
  · have hins :
        KeysNamed { rl with buckets := rl.buckets.insertNew (rl.bucketOf clientKey created) } := by
      intro b hb
      rcases mem_insertNew hb with hb | rfl
      · exact hnamed b hb
      · rw [clientKey_bucketOf]
        exact hkey
    dsimp only
    split
    · have hlt := evictOldest_length order hins (List.ne_nil_of_length_pos (by dsimp only; omega))
      have := length_insertNew_le rl.buckets (rl.bucketOf clientKey created)
      refine ⟨fun b hb => hins b (mem_evictOldest hb), ?_⟩
      dsimp only at hlt
      omega
    · exact ⟨hins, not_lt.mp ‹_›⟩

/-- No call leaves more buckets than the limiter may hold. -/
theorem apply_size {rl : PerClientRateLimiter} (call : BucketCall) (hnamed : KeysNamed rl)
    (hsize : rl.buckets.rows.length ≤ rl.maxSize) :
    KeysNamed (call.apply rl) ∧ (call.apply rl).buckets.rows.length ≤ rl.maxSize := by
  cases call with
  | allow order r created now =>
    obtain ⟨h₁, h₂⟩ := ensureBucket_size order (getClientKey r) created (getClientKey_ne_empty r)
      hnamed hsize
    refine ⟨fun b hb => ?_, ?_⟩
    · obtain ⟨d, hd, hkey⟩ := mem_setBucket hb
      rw [hkey]
      exact h₁ d hd
    · simp only [BucketCall.apply, PerClientRateLimiter.allow, length_setBucket]
      exact h₂
  | evictStale now =>
    exact ⟨fun b hb => hnamed b (List.mem_of_mem_filter hb),
      (List.length_filter_le _ _).trans hsize⟩

theorem ensureBucket_maxSize (order : RangeOrder) (clientKey : String) (created : ℤ)
    (rl : PerClientRateLimiter) :
    (rl.ensureBucket order clientKey created).maxSize = rl.maxSize := by
  unfold ensureBucket evictOldest
  dsimp only
  split
  · rfl
  · split
    · split <;> rfl
    · rfl

theorem apply_maxSize (rl : PerClientRateLimiter) (call : BucketCall) :
    (call.apply rl).maxSize = rl.maxSize := by
  cases call with
  | allow order r created now => exact ensureBucket_maxSize order (getClientKey r) created rl
  | evictStale now => rfl

theorem foldl_apply_size : ∀ (calls : List BucketCall) (rl : PerClientRateLimiter), KeysNamed rl →
    rl.buckets.rows.length ≤ rl.maxSize →
      (calls.foldl BucketCall.apply rl).buckets.rows.length ≤ rl.maxSize
  | [], _, _, h => h
  | call :: calls, rl, hnamed, h => by
    obtain ⟨h₁, h₂⟩ := apply_size call hnamed h
    have := foldl_apply_size calls (call.apply rl) h₁ (by rwa [apply_maxSize])
    rwa [apply_maxSize] at this

end Size

/-! ## One bucket -/

section Bucket

/-- A bucket in seconds. -/
def RouterBucket.toBucket (b : RouterBucket) : TokenBucket.Bucket ℚ := ⟨b.tokens, seconds b.last⟩

theorem seconds_mono {a b : ℤ} (h : a ≤ b) : seconds a ≤ seconds b := by
  unfold seconds
  have : (a : ℚ) ≤ b := by exact_mod_cast h
  linarith

theorem seconds_sub (a b : ℤ) : seconds (a - b) = seconds a - seconds b := by
  unfold seconds
  push_cast
  ring

theorem timeSub_of_le {t u : ℤ} (h : u ≤ t) : timeSub t u = min maxDuration (t - u) := by
  unfold timeSub maxDuration
  omega

variable {rps : ℚ} {burst now : ℤ} {b : RouterBucket}

/-- A bucket that reaches the burst grants the request and keeps the rest. -/
theorem refillTake_full (h : (burst : ℚ) ≤ b.tokens + seconds (timeSub now b.last) * rps)
    (hb : 1 ≤ burst) :
    refillTake rps burst now b = (true, { b with tokens := (burst : ℚ) - 1, last := now }) := by
  have hcap : (if (burst : ℚ) < b.tokens + seconds (timeSub now b.last) * rps then (burst : ℚ)
      else b.tokens + seconds (timeSub now b.last) * rps) = burst := by
    split
    · rfl
    · exact le_antisymm (not_lt.mp ‹_›) h
  have hone : (1 : ℚ) ≤ burst := by exact_mod_cast hb
  simp only [refillTake, hcap, hone, if_true]

/-- The refill caps the level of the bucket, also where the elapsed time saturates. -/
theorem refillTake_eq_take (hr : 1 ≤ rps) (hb : (burst : ℚ) ≤ 2 * rps) (htok : 0 ≤ b.tokens)
    (hnow : b.last ≤ now) :
    (refillTake rps burst now b).1 =
        (TokenBucket.take rps (burst : ℚ) (seconds now) b.toBucket).1 ∧
      (refillTake rps burst now b).2.toBucket =
        (TokenBucket.take rps (burst : ℚ) (seconds now) b.toBucket).2 := by
  have hlevel : (if (burst : ℚ) < b.tokens + seconds (timeSub now b.last) * rps then (burst : ℚ)
      else b.tokens + seconds (timeSub now b.last) * rps) =
        TokenBucket.level rps (burst : ℚ) (seconds now) b.toBucket := by
    rw [timeSub_of_le hnow, TokenBucket.level, RouterBucket.toBucket, ← seconds_sub]
    by_cases hd : now - b.last ≤ maxDuration
    · rw [min_eq_right hd]
      rcases lt_or_ge (burst : ℚ) (b.tokens + seconds (now - b.last) * rps) with h | h
      · rw [if_pos h, min_eq_left h.le]
      · rw [if_neg (not_lt.mpr h), min_eq_right h]
    · have hfull (d : ℤ) (hle : maxDuration ≤ d) : (burst : ℚ) < b.tokens + seconds d * rps := by
        have hsec : (3 : ℚ) ≤ seconds d := by
          refine le_trans ?_ (seconds_mono hle)
          norm_num [seconds, maxDuration]
        nlinarith
      rw [min_eq_left (not_le.mp hd).le, if_pos (hfull _ le_rfl),
        min_eq_left (hfull _ (not_le.mp hd).le).le]
  simp only [refillTake, hlevel, TokenBucket.take]
  split <;> exact ⟨rfl, rfl⟩

theorem refillTake_tokens_nonneg (hr : 1 ≤ rps) (hb : (burst : ℚ) ≤ 2 * rps) (hpos : 0 ≤ burst)
    (htok : 0 ≤ b.tokens) (hnow : b.last ≤ now) : 0 ≤ (refillTake rps burst now b).2.tokens := by
  have h := (refillTake_eq_take hr hb htok hnow).2
  have htake := TokenBucket.tokens_take_nonneg (by linarith : (0 : ℚ) ≤ rps)
    (by exact_mod_cast hpos : (0 : ℚ) ≤ (burst : ℚ)) (b := b.toBucket) htok (seconds_mono hnow)
  rw [← h] at htake
  exact htake

theorem last_refillTake : (refillTake rps burst now b).2.last = now := by
  simp only [refillTake]
  split <;> split <;> rfl

end Bucket

/-! ## Forgetting nothing -/

section Simulation

/-- A limiter with eviction beside the same without: it lacks only buckets idle for ten minutes. -/
structure Sim (clock : ℤ) (rl u : PerClientRateLimiter) : Prop where
  rps : rl.rps = u.rps
  burst : rl.burst = u.burst
  same : ∀ k b, rl.buckets.find? k = some b → u.buckets.find? k = some b
  stale : ∀ k b, rl.buckets.find? k = none → u.buckets.find? k = some b →
    b.last + staleAfter ≤ clock

/-- The buckets of a limiter hold no debt and were last counted in the past. -/
structure Sound (clock : ℤ) (u : PerClientRateLimiter) : Prop where
  tokens : ∀ k b, u.buckets.find? k = some b → 0 ≤ b.tokens
  last : ∀ k b, u.buckets.find? k = some b → b.last ≤ clock

variable {rl u : PerClientRateLimiter} {clock created now : ℤ} {clientKey : String}

theorem find?_insert_bucketOf (clientKey : String) (created : ℤ) (k : String) :
    (rl.buckets.insertNew (rl.bucketOf clientKey created)).find? k =
      if clientKey = k then some (rl.bucketOf clientKey created) else rl.buckets.find? k := by
  rw [Table.find?_insertNew, clientKey_bucketOf]
  split_ifs with hk
  · subst hk
    unfold bucketOf
    cases rl.buckets.find? clientKey <;> rfl
  · rfl

theorem find?_allowUnevicted (k : String) :
    (rl.allowUnevicted clientKey created now).2.buckets.find? k =
      if k = clientKey then
        some (refillTake rl.rps rl.burst now (rl.bucketOf clientKey created)).2
      else rl.buckets.find? k := by
  have hkey : (refillTake rl.rps rl.burst now (rl.bucketOf clientKey created)).2.clientKey =
      clientKey := (clientKey_refillTake ..).trans clientKey_bucketOf
  simp only [allowUnevicted, setBucket, Table.find?_update, find?_insert_bucketOf, hkey, if_true]
  split_ifs with hk hk'
  · rw [Option.map_some, clientKey_bucketOf, Option.some.injEq]
    generalize (refillTake rl.rps rl.burst now (rl.bucketOf clientKey created)).2 = b at hkey
    rw [← hkey]
  · exact absurd hk'.symm hk
  · rfl

theorem allow_of_room (order : RangeOrder)
    (h : rl.buckets.find? clientKey = none → rl.buckets.rows.length < rl.maxSize) :
    rl.allow order clientKey created now = rl.allowUnevicted clientKey created now := by
  have hensure : rl.ensureBucket order clientKey created =
      { rl with buckets := rl.buckets.insertNew (rl.bucketOf clientKey created) } := by
    unfold ensureBucket
    split
    · rename_i b hb
      have hmem : (rl.bucketOf clientKey created).clientKey
          ∈ rl.buckets.rows.map (·.clientKey) := by
        rw [clientKey_bucketOf, ← Table.find?_isSome, hb]
        rfl
      rw [Table.insertNew, dif_pos hmem]
    · have hroom := h ‹_›
      have hlen := length_insertNew_le rl.buckets (rl.bucketOf clientKey created)
      dsimp only
      rw [if_neg (by omega)]
  simp only [PerClientRateLimiter.allow, allowUnevicted, hensure]

/-- A request on a bucket that is missing here and idle there is answered alike. -/
theorem bucketOf_sim (clientKey : String) (h : Sim clock rl u) (hs : Sound clock u) (hr : 1 ≤ u.rps)
    (hb : (u.burst : ℚ) = 2 * u.rps) (hc : clock ≤ created) (hn : created ≤ now) :
    refillTake rl.rps rl.burst now (rl.bucketOf clientKey created) =
      refillTake u.rps u.burst now (u.bucketOf clientKey created) := by
  rw [h.rps, h.burst]
  cases hrl : rl.buckets.find? clientKey with
  | some b =>
    unfold bucketOf
    rw [hrl, h.same _ b hrl]
    rfl
  | none =>
    cases hu : u.buckets.find? clientKey with
    | none =>
      unfold bucketOf
      rw [hrl, hu, h.burst]
    | some b =>
      have hone : 1 ≤ u.burst := by
        have : (1 : ℚ) ≤ u.burst := by linarith
        exact_mod_cast this
      have hidle := h.stale _ b hrl hu
      have hfresh : refillTake u.rps u.burst now (rl.bucketOf clientKey created) =
          (true, ⟨clientKey, (u.burst : ℚ) - 1, now⟩) := by
        unfold bucketOf
        rw [hrl, h.burst, Option.getD_none]
        refine refillTake_full ?_ hone
        have : (0 : ℚ) ≤ seconds (timeSub now created) := by
          rw [timeSub_of_le hn]
          exact div_nonneg (by exact_mod_cast le_min (by decide) (by omega)) (by norm_num)
        have := mul_nonneg this (by linarith : (0 : ℚ) ≤ u.rps)
        simpa using this
      have hold : refillTake u.rps u.burst now (u.bucketOf clientKey created) =
          (true, ⟨clientKey, (u.burst : ℚ) - 1, now⟩) := by
        have hkey : b.clientKey = clientKey := Table.key_of_find? hu
        have hbk : u.bucketOf clientKey created = b := by
          unfold bucketOf
          rw [hu, Option.getD_some]
        rw [hbk, refillTake_full ?_ hone, hkey]
        have hten : (600 : ℚ) ≤ seconds (timeSub now b.last) := by
          rw [timeSub_of_le (by unfold staleAfter at hidle; omega)]
          refine le_trans (by norm_num [seconds, staleAfter] : (600 : ℚ) ≤ seconds staleAfter) ?_
          refine seconds_mono (le_min (by decide) (by omega))
        have := hs.tokens _ b hu
        nlinarith
      rw [hfresh, hold]

theorem sim_allow (h : Sim clock rl u) (hs : Sound clock u) (hr : 1 ≤ u.rps)
    (hb : (u.burst : ℚ) = 2 * u.rps) (hc : clock ≤ created) (hn : created ≤ now) :
    Sim now (rl.allowUnevicted clientKey created now).2
      (u.allowUnevicted clientKey created now).2 := by
  have hreq := bucketOf_sim clientKey h hs hr hb hc hn
  refine ⟨h.rps, h.burst, fun k b hk => ?_, fun k b hk hu => ?_⟩
  · rw [find?_allowUnevicted] at hk ⊢
    split_ifs at hk ⊢ with hkey
    · rw [← hreq]
      exact hk
    · exact h.same k b hk
  · rw [find?_allowUnevicted] at hk hu
    split_ifs at hk hu with hkey
    exact (h.stale k b hk hu).trans (hc.trans hn)

theorem sound_allow (hs : Sound clock u) (hr : 1 ≤ u.rps) (hb : (u.burst : ℚ) = 2 * u.rps)
    (hc : clock ≤ created) (hn : created ≤ now) :
    Sound now (u.allowUnevicted clientKey created now).2 := by
  have hpos : 0 ≤ u.burst := by
    have : (0 : ℚ) ≤ u.burst := by linarith
    exact_mod_cast this
  have hbucket : 0 ≤ (u.bucketOf clientKey created).tokens ∧
      (u.bucketOf clientKey created).last ≤ now := by
    unfold bucketOf
    cases hu : u.buckets.find? clientKey with
    | none => exact ⟨by simpa using (by exact_mod_cast hpos : (0 : ℚ) ≤ (u.burst : ℚ)), hn⟩
    | some b => exact ⟨hs.tokens _ b hu, (hs.last _ b hu).trans (hc.trans hn)⟩
  refine ⟨fun k b hk => ?_, fun k b hk => ?_⟩
  · rw [find?_allowUnevicted] at hk
    split_ifs at hk with hkey
    · rw [Option.some.injEq] at hk
      rw [← hk]
      exact refillTake_tokens_nonneg hr hb.le hpos hbucket.1 hbucket.2
    · exact hs.tokens k b hk
  · rw [find?_allowUnevicted] at hk
    split_ifs at hk with hkey
    · rw [Option.some.injEq] at hk
      rw [← hk, last_refillTake]
    · exact (hs.last k b hk).trans (hc.trans hn)

theorem sim_evictStale (h : Sim clock rl u) (hc : clock ≤ now) : Sim now (rl.evictStale now) u := by
  refine ⟨h.rps, h.burst, fun k b hk => ?_, fun k b hk hu => ?_⟩
  · rw [evictStale, Table.find?_deleteWhere, Option.filter_eq_some_iff] at hk
    exact h.same k b hk.1
  · rw [evictStale, Table.find?_deleteWhere] at hk
    rcases hrl : rl.buckets.find? k with _ | b'
    · exact (h.stale k b hrl hu).trans hc
    · have hbb := h.same k b' hrl
      rw [hu, Option.some.injEq] at hbb
      subst hbb
      rw [hrl, Option.filter_eq_none_iff] at hk
      have := hk b rfl
      simp at this
      omega

end Simulation

/-! ## Runs -/

section Run

/-- Every bucket is of one of the clients. -/
def KeysIn (K : Finset String) (rl : PerClientRateLimiter) : Prop :=
  ∀ b ∈ rl.buckets.rows, b.clientKey ∈ K

variable {K : Finset String} {rl u : PerClientRateLimiter} {clock : ℤ}

theorem room_of_keysIn {clientKey : String} (hkeys : KeysIn K rl) (hK : K.card ≤ rl.maxSize)
    (hmem : clientKey ∈ K) (hnone : rl.buckets.find? clientKey = none) :
    rl.buckets.rows.length < rl.maxSize := by
  rw [Table.find?_eq_none] at hnone
  have hsub : (rl.buckets.rows.map (·.clientKey)).toFinset ⊂ K := by
    rw [Finset.ssubset_iff_of_subset]
    · exact ⟨clientKey, hmem, by simpa using hnone⟩
    · intro k hk
      obtain ⟨b, hb, rfl⟩ := List.mem_map.mp (List.mem_toFinset.mp hk)
      exact hkeys b hb
  have hcard := Finset.card_lt_card hsub
  rw [List.toFinset_card_of_nodup rl.buckets.nodup, List.length_map] at hcard
  omega

theorem keysIn_allow {clientKey : String} {created now : ℤ} (hkeys : KeysIn K rl)
    (hmem : clientKey ∈ K) : KeysIn K (rl.allowUnevicted clientKey created now).2 := by
  intro b hb
  obtain ⟨d, hd, hkey⟩ := mem_setBucket hb
  rw [hkey]
  rcases mem_insertNew hd with hd | rfl
  · exact hkeys d hd
  · rwa [clientKey_bucketOf]

/-- While the map holds all the clients, evicting idle buckets changes no answer. -/
theorem answers_eq_unevicted :
    ∀ (calls : List BucketCall) {rl u : PerClientRateLimiter} {clock : ℤ},
    Sim clock rl u → Sound clock u → 1 ≤ u.rps → (u.burst : ℚ) = 2 * u.rps →
    (clock :: calls.flatMap BucketCall.times).Pairwise (· ≤ ·) → KeysIn K rl →
    (∀ k ∈ calls.filterMap BucketCall.clientKey?, k ∈ K) → K.card ≤ rl.maxSize →
      answers calls rl = answersUnevicted calls u
  | [], _, _, _, _, _, _, _, _, _, _, _ => rfl
  | .allow order r created now :: calls, rl, u, clock, h, hs, hr, hb, ht, hkeys, hK, hcard => by
    have hmem : getClientKey r ∈ K := hK _ (by simp [BucketCall.clientKey?])
    simp only [List.flatMap_cons, BucketCall.times, List.cons_append, List.nil_append,
      List.pairwise_cons, List.mem_cons, forall_eq_or_imp] at ht
    obtain ⟨⟨hc, -, -⟩, ⟨hn, -⟩, hrest⟩ := ht
    have hallow : rl.allow order (getClientKey r) created now =
        rl.allowUnevicted (getClientKey r) created now :=
      allow_of_room order (room_of_keysIn hkeys hcard hmem)
    have hans : (rl.allowUnevicted (getClientKey r) created now).1 =
        (u.allowUnevicted (getClientKey r) created now).1 := by
      simp only [allowUnevicted, bucketOf_sim (getClientKey r) h hs hr hb hc hn]
    rw [answers, answersUnevicted, hallow, hans]
    congr 1
    exact answers_eq_unevicted calls (sim_allow h hs hr hb hc hn) (sound_allow hs hr hb hc hn) hr hb
      (List.pairwise_cons.mpr hrest) (keysIn_allow hkeys hmem)
      (fun k hk => hK k (by simp [BucketCall.clientKey?, hk])) hcard
  | .evictStale now :: calls, rl, u, clock, h, hs, hr, hb, ht, hkeys, hK, hcard => by
    simp only [List.flatMap_cons, BucketCall.times, List.cons_append, List.nil_append,
      List.pairwise_cons, List.mem_cons, forall_eq_or_imp] at ht
    obtain ⟨⟨hc, -⟩, hrest⟩ := ht
    rw [answers, answersUnevicted]
    refine answers_eq_unevicted calls (sim_evictStale h hc)
      ⟨hs.tokens, fun k b hk => (hs.last k b hk).trans hc⟩ hr hb (List.pairwise_cons.mpr hrest)
      (fun b hb => hkeys b (List.mem_of_mem_filter hb))
      (fun k hk => hK k (by simpa [BucketCall.clientKey?] using hk)) hcard

/-- When a client asks. -/
def requestTimes (clientKey : String) : List BucketCall → List ℤ
  | [] => []
  | .allow _ r _ now :: calls =>
    if getClientKey r = clientKey then now :: requestTimes clientKey calls
    else requestTimes clientKey calls
  | .evictStale _ :: calls => requestTimes clientKey calls

theorem requestTimes_sublist (clientKey : String) : ∀ calls : List BucketCall,
    (requestTimes clientKey calls).Sublist (calls.flatMap BucketCall.times)
  | [] => List.Sublist.slnil
  | .allow order r created now :: calls => by
    have ih := requestTimes_sublist clientKey calls
    rw [requestTimes, List.flatMap_cons]
    split
    · exact (ih.cons_cons now).cons created
    · exact (ih.cons now).cons created
  | .evictStale now :: calls => (requestTimes_sublist clientKey calls).cons now

/-- The bucket a client would find: its own, or a full one. -/
def Finds (u : PerClientRateLimiter) (clientKey : String) (clock : ℤ) (b : RouterBucket) : Prop :=
  u.buckets.find? clientKey = some b ∨ u.buckets.find? clientKey = none ∧
    b.tokens = u.burst ∧ b.last ≤ clock

/-- What the client finds decides the answer, whether the bucket is made now or was full before. -/
theorem refillTake_finds {clientKey : String} {b : RouterBucket} {created now : ℤ}
    (hf : Finds u clientKey clock b) (hr : 1 ≤ u.rps) (hb : (u.burst : ℚ) = 2 * u.rps)
    (hc : clock ≤ created) (hn : created ≤ now) :
    (refillTake u.rps u.burst now (u.bucketOf clientKey created)).1 =
        (refillTake u.rps u.burst now b).1 ∧
      (refillTake u.rps u.burst now (u.bucketOf clientKey created)).2.toBucket =
        (refillTake u.rps u.burst now b).2.toBucket := by
  rcases hf with hf | ⟨hf, htok, hlast⟩
  · simp [bucketOf, hf]
  · have hone : 1 ≤ u.burst := by
      have : (1 : ℚ) ≤ u.burst := by linarith
      exact_mod_cast this
    have hgain (t : ℤ) (ht : t ≤ now) : (0 : ℚ) ≤ seconds (timeSub now t) * u.rps := by
      rw [timeSub_of_le ht]
      refine mul_nonneg ?_ (by linarith)
      exact div_nonneg (by exact_mod_cast le_min (by decide) (by omega)) (by norm_num)
    have hfresh : refillTake u.rps u.burst now (u.bucketOf clientKey created) =
        (true, ⟨clientKey, (u.burst : ℚ) - 1, now⟩) := by
      simp only [bucketOf, hf, Option.getD_none]
      exact refillTake_full (by have := hgain created hn; simpa using this) hone
    rw [hfresh, refillTake_full (by rw [htok]; have := hgain b.last (by omega); linarith) hone]
    exact ⟨rfl, rfl⟩

theorem grantedTimes_cons (clientKey k : String) (t : ℤ) (ans : Bool)
    (l : List (String × ℤ × Bool)) : grantedTimes clientKey ((k, t, ans) :: l) =
      if k = clientKey ∧ ans then t :: grantedTimes clientKey l else grantedTimes clientKey l := by
  unfold grantedTimes
  by_cases h : k = clientKey ∧ ans
  · rw [if_pos h, List.filter_cons_of_pos (by simp [h.1, h.2]), List.map_cons]
  · rw [if_neg h, List.filter_cons_of_neg (by simpa using h)]

/-- What a client is granted is what its token bucket grants. -/
theorem granted_eq_grants (clientKey : String) : ∀ (calls : List BucketCall)
    {u : PerClientRateLimiter} {clock : ℤ} {b : RouterBucket},
    Finds u clientKey clock b → 0 ≤ b.tokens → b.last ≤ clock → 1 ≤ u.rps →
    (u.burst : ℚ) = 2 * u.rps → (clock :: calls.flatMap BucketCall.times).Pairwise (· ≤ ·) →
      (grantedTimes clientKey (answersUnevicted calls u)).map seconds =
        TokenBucket.grants u.rps (u.burst : ℚ) ((requestTimes clientKey calls).map seconds)
          b.toBucket
  | [], _, _, _, _, _, _, _, _, _ => rfl
  | .allow order r created now :: calls, u, clock, b, hf, htok, hlast, hr, hb, ht => by
    simp only [List.flatMap_cons, BucketCall.times, List.cons_append, List.nil_append,
      List.pairwise_cons, List.mem_cons, forall_eq_or_imp] at ht
    obtain ⟨⟨hc, -, -⟩, ⟨hn, -⟩, hrest⟩ := ht
    have hrest := List.pairwise_cons.mpr hrest
    have hbn : b.last ≤ now := hlast.trans (hc.trans hn)
    rw [answersUnevicted, requestTimes]
    by_cases hk : getClientKey r = clientKey
    · subst hk
      obtain ⟨hans, hbucket⟩ := refillTake_finds hf hr hb hc hn
      obtain ⟨htake, htake'⟩ := refillTake_eq_take hr hb.le htok hbn
      have htok' : 0 ≤ (refillTake u.rps u.burst now
          (u.bucketOf (getClientKey r) created)).2.tokens := by
        have heq := congrArg TokenBucket.Bucket.tokens hbucket
        have hpos : 0 ≤ u.burst := by
          have : (0 : ℚ) ≤ u.burst := by linarith
          exact_mod_cast this
        exact (refillTake_tokens_nonneg hr hb.le hpos htok hbn).trans_eq heq.symm
      have ih := granted_eq_grants (getClientKey r) calls
        (u := (u.allowUnevicted (getClientKey r) created now).2)
        (.inl (by rw [find?_allowUnevicted, if_pos rfl])) htok' last_refillTake.le hr hb hrest
      rw [hbucket, htake'] at ih
      rw [grantedTimes_cons, if_pos rfl, List.map_cons, TokenBucket.grants, ← htake, ← hans]
      simp only [true_and]
      split
      · rw [if_pos ‹_›, List.map_cons, ih]
        rfl
      · rw [if_neg ‹_›, ih]
        rfl
    · rw [grantedTimes_cons, if_neg (fun h => hk h.1), if_neg hk]
      refine granted_eq_grants clientKey calls (u := (u.allowUnevicted (getClientKey r) created
        now).2) ?_ htok hbn hr hb hrest
      unfold Finds
      rw [find?_allowUnevicted, if_neg (fun h => hk h.symm)]
      exact hf.imp_right fun h => ⟨h.1, h.2.1, hbn⟩
  | .evictStale now :: calls, u, clock, b, hf, htok, hlast, hr, hb, ht => by
    simp only [List.flatMap_cons, BucketCall.times, List.cons_append, List.nil_append,
      List.pairwise_cons, List.mem_cons, forall_eq_or_imp] at ht
    obtain ⟨⟨hc, -⟩, hrest⟩ := ht
    rw [answersUnevicted, requestTimes]
    refine granted_eq_grants clientKey calls ?_ htok (hlast.trans hc) hr hb
      (List.pairwise_cons.mpr hrest)
    exact hf.imp_right fun h => ⟨h.1, h.2.1, h.2.2.trans hc⟩

/-- A client of the limiter without eviction gets a burst and the rate in every interval. -/
theorem granted_between_le {clientKey : String} {calls : List BucketCall} {b : RouterBucket}
    (hf : Finds u clientKey clock b) (htok : 0 ≤ b.tokens) (hlast : b.last ≤ clock)
    (hr : 1 ≤ u.rps) (hb : (u.burst : ℚ) = 2 * u.rps)
    (ht : (clock :: calls.flatMap BucketCall.times).Pairwise (· ≤ ·)) {s e : ℤ} (hse : s ≤ e) :
    (((grantedTimes clientKey (answersUnevicted calls u)).filter fun t => s ≤ t ∧ t ≤ e).length : ℚ)
      ≤ u.burst + u.rps * seconds (e - s) := by
  have hsorted : (b.last :: requestTimes clientKey calls).Pairwise (· ≤ ·) := by
    have hsub := (requestTimes_sublist clientKey calls).cons_cons clock
    obtain ⟨h₁, h₂⟩ := List.pairwise_cons.mp (ht.sublist hsub)
    exact List.pairwise_cons.mpr ⟨fun t h => hlast.trans (h₁ t h), h₂⟩
  have hbound := @TokenBucket.length_grants_le ℚ _ _ u.rps u.burst (seconds s) (seconds e) _
    (by linarith) (by linarith) (seconds_mono hse) ((requestTimes clientKey calls).map seconds)
    b.toBucket htok (hsorted.map seconds fun _ _ h => seconds_mono h)
  rw [← granted_eq_grants clientKey calls hf htok hlast hr hb ht] at hbound
  rw [seconds_sub, mul_comm u.rps]
  refine le_trans ?_ hbound
  rw [TokenBucket.between, List.filter_map, List.length_map]
  exact_mod_cast (List.monotone_filter_right _ fun t h => by
    simp only [decide_eq_true_eq, Function.comp_apply] at h ⊢
    exact ⟨seconds_mono h.1, seconds_mono h.2⟩).length_le

end Run

theorem sim_start (rateLimitRPS : ℤ) (maxSize : ℕ) (clock : ℤ) :
    Sim clock (routerLimiter rateLimitRPS maxSize) (routerLimiter rateLimitRPS maxSize) ∧
      Sound clock (routerLimiter rateLimitRPS maxSize) :=
  ⟨⟨rfl, rfl, fun _ _ h => h, fun _ _ _ h => by simp [routerLimiter, newPerClientRateLimiter] at h⟩,
    ⟨fun _ _ h => by simp [routerLimiter, newPerClientRateLimiter] at h,
      fun _ _ h => by simp [routerLimiter, newPerClientRateLimiter] at h⟩⟩

theorem exists_clock {ts : List ℤ} (h : ts.Pairwise (· ≤ ·)) :
    ∃ clock, (clock :: ts).Pairwise (· ≤ ·) := by
  cases ts with
  | nil => exact ⟨0, by simp⟩
  | cons t ts =>
    refine ⟨t, List.pairwise_cons.mpr ⟨fun u hu => ?_, h⟩⟩
    rcases List.mem_cons.mp hu with rfl | hu
    · exact le_rfl
    · exact (List.pairwise_cons.mp h).1 u hu

/-- The router's limiter: among no more clients than it may hold it answers as if it never evicted,
and grants each of them at most a burst and the rate in every interval; and whatever clients ask, it
holds no more buckets than it may. -/
theorem client_limiter (rateLimitRPS : ℤ) (hr : 1 ≤ rateLimitRPS) (maxSize : ℕ)
    (calls : List BucketCall) (ht : (calls.flatMap BucketCall.times).Pairwise (· ≤ ·)) :
    (((calls.filterMap BucketCall.clientKey?).toFinset.card ≤ maxSize →
      answers calls (routerLimiter rateLimitRPS maxSize) =
          answersUnevicted calls (routerLimiter rateLimitRPS maxSize) ∧
        ∀ clientKey s e, s ≤ e →
          (((grantedTimes clientKey (answers calls (routerLimiter rateLimitRPS maxSize))).filter
            fun t => s ≤ t ∧ t ≤ e).length : ℚ)
              ≤ 2 * rateLimitRPS + rateLimitRPS * seconds (e - s))) ∧
    (calls.foldl BucketCall.apply (routerLimiter rateLimitRPS maxSize)).buckets.rows.length
      ≤ maxSize := by
  have hrps : (1 : ℚ) ≤ (routerLimiter rateLimitRPS maxSize).rps :=
    (by exact_mod_cast hr : (1 : ℚ) ≤ (rateLimitRPS : ℚ))
  have hburst : ((routerLimiter rateLimitRPS maxSize).burst : ℚ) =
      2 * (routerLimiter rateLimitRPS maxSize).rps := by
    simp only [routerLimiter, newPerClientRateLimiter]
    push_cast
    ring
  have hempty : (routerLimiter rateLimitRPS maxSize).buckets.rows = [] := rfl
  obtain ⟨clock, hclock⟩ := exists_clock ht
  obtain ⟨hsim, hsound⟩ := sim_start rateLimitRPS maxSize clock
  refine ⟨fun hkeys => ?_, ?_⟩
  · have hans := answers_eq_unevicted calls hsim hsound hrps hburst hclock
      (fun b hb => by simp [hempty] at hb) (fun k hk => List.mem_toFinset.mpr hk) hkeys
    refine ⟨hans, fun clientKey s e hse => ?_⟩
    have hfinds : Finds (routerLimiter rateLimitRPS maxSize) clientKey clock
        ⟨clientKey, (routerLimiter rateLimitRPS maxSize).burst, clock⟩ :=
      .inr ⟨rfl, rfl, le_rfl⟩
    have hpos : (0 : ℚ) ≤ (routerLimiter rateLimitRPS maxSize).burst := by linarith
    rw [hans]
    refine (granted_between_le hfinds hpos le_rfl hrps hburst hclock hse).trans_eq ?_
    rw [hburst]
    rfl
  · exact foldl_apply_size calls _ (fun b hb => by simp [hempty] at hb) (by simp [hempty])

/-- Ranging in the order of the rows. -/
def rowOrder : RangeOrder := ⟨id, fun _ => .refl _⟩

/-- Two clients of a limiter for two: one is forgotten after eleven minutes and comes back. -/
def forgottenClient : List BucketCall :=
  [.allow rowOrder ⟨some "GA", "10.0.0.1:80"⟩ 0 1, .allow rowOrder ⟨none, "10.0.0.1:80"⟩ 1 2,
    .evictStale (11 * 60 * 10 ^ 9),
    .allow rowOrder ⟨some "GA", "10.0.0.1:80"⟩ (11 * 60 * 10 ^ 9) (11 * 60 * 10 ^ 9)]

theorem client_limiter_forgotten :
    answers forgottenClient (routerLimiter 10 2)
      = answersUnevicted forgottenClient (routerLimiter 10 2)
      ∧ (forgottenClient.foldl BucketCall.apply (routerLimiter 10 2)).buckets.rows.length ≤ 2 := by
  have h := client_limiter 10 (by decide) 2 forgottenClient (by decide)
  exact ⟨(h.1 (by decide)).1, h.2⟩

end TrusTrove
