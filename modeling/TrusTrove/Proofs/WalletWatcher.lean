import TrusTrove.WalletWatcher

/-!
# What the watcher reports

The account the watcher compares with is always the one of the last poll. The network is the last
readable one until an account changes while the network is unreadable: the snapshot then takes over
the missing network (`Forgotten`), and the next readable one is reported even if it is the same. The
watcher is exact on a run if and only if the network never comes back unchanged after that.
-/

namespace TrusTrove

variable (toLowerCase : String → String) (baseline : FreighterSnapshot)

/-- The account selected at the last of some polls. -/
def lastAccount (rs : List PollResult) : Option String :=
  rs.foldl (fun _ p => orNull p.address) (orNull baseline.address)

/-- The last readable network of some polls. -/
def lastNetwork (rs : List PollResult) : Option String :=
  rs.foldl (fun known p => (normalizeNetwork toLowerCase p.network).or known) baseline.network

/-- Since the last readable network the account has changed. -/
def Forgotten (rs : List PollResult) : Prop :=
  ∃ before mid, rs = before ++ mid ∧ (∀ q ∈ mid, normalizeNetwork toLowerCase q.network = none) ∧
    ∃ q ∈ mid, orNull q.address ≠ lastAccount baseline before

/-- No network comes back unchanged after the account has changed while it was unreadable. -/
def NetworkKept (rs : List PollResult) : Prop :=
  ∀ before p rest, rs = before ++ p :: rest → normalizeNetwork toLowerCase p.network ≠ none →
    normalizeNetwork toLowerCase p.network = lastNetwork toLowerCase baseline before →
    ¬ Forgotten toLowerCase baseline before

def reportedAddress (calls : List WatchCall) : Option String :=
  calls.findSome? fun | .onChange c => c.address | .onError => none

def reportedDisconnection (calls : List WatchCall) : Bool :=
  calls.any fun | .onChange c => c.disconnected | .onError => false

def reportedNetwork (calls : List WatchCall) : Option String :=
  calls.findSome? fun | .onChange c => c.network | .onError => none

/-- What is expected of the watcher in a run. -/
structure WatchesExactly (events : List WatchEvent) : Prop where
  silent : ∀ pre e post, events = pre ++ e :: post → .stop ∈ pre → ∀ change,
    .onChange change ∉ (((Watcher.start baseline).after toLowerCase pre).step toLowerCase e).2
  single : ∀ pre post, events = pre ++ post →
    ((Watcher.start baseline).after toLowerCase pre).inFlight ≤ 1
  quiet : ∀ pre e post, events = pre ++ e :: post →
    ((Watcher.start baseline).after toLowerCase pre).receives e = none → ∀ change,
    .onChange change ∉ (((Watcher.start baseline).after toLowerCase pre).step toLowerCase e).2
  account : ∀ pre e post, events = pre ++ e :: post → ∀ p,
    ((Watcher.start baseline).after toLowerCase pre).receives e = some p →
    let known := lastAccount baseline ((Watcher.start baseline).results toLowerCase pre)
    let calls := (((Watcher.start baseline).after toLowerCase pre).step toLowerCase e).2
    reportedAddress calls = newValue (orNull p.address) known ∧
      reportedDisconnection calls = decide (orNull p.address = none ∧ known ≠ none)
  network : ∀ pre e post, events = pre ++ e :: post → ∀ p,
    ((Watcher.start baseline).after toLowerCase pre).receives e = some p →
    let known := lastNetwork toLowerCase baseline
      ((Watcher.start baseline).results toLowerCase pre)
    let calls := (((Watcher.start baseline).after toLowerCase pre).step toLowerCase e).2
    reportedNetwork calls = newValue (normalizeNetwork toLowerCase p.network) known

section Detect

variable {toLowerCase}

theorem orNull_of_ne {s : String} (h : s ≠ "") : orNull (some s) = some s := by
  simp [orNull, Option.filter, h]

theorem orNull_cases (s : Option String) : orNull s = none ∨ ∃ a, a ≠ "" ∧ s = some a := by
  rcases s with _ | a
  · exact .inl rfl
  · by_cases h : a = ""
    · exact .inl (by simp [orNull, Option.filter, h])
    · exact .inr ⟨a, h, rfl⟩

@[simp] theorem newValue_none (previous : Option String) : newValue none previous = none := by
  simp [newValue]

@[simp] theorem newValue_self (s : Option String) : newValue s s = none := by
  simp [newValue]

theorem newValue_of_ne {next previous : Option String} (h : next ≠ previous) :
    newValue next previous = next := if_pos h

theorem newValue_eq_none_iff {next previous : Option String} :
    newValue next previous = none ↔ next = none ∨ next = previous := by
  by_cases h : next = previous
  · simp [h]
  · simp [newValue_of_ne h, h]

/-- A change is reported where the account or the network is a new one, with these fields. -/
theorem detectChange_eq (previous : FreighterSnapshot) (p : PollResult) :
    let account := orNull p.address
    let known := orNull previous.address
    let network := newValue (normalizeNetwork toLowerCase p.network) previous.network
    detectChange previous (p.next toLowerCase)
      = if account ≠ known ∨ network ≠ none then
          some ⟨⟨newValue account known, decide (account = none ∧ known ≠ none), network⟩, previous⟩
        else none := by
  obtain ⟨pa, pn⟩ := previous
  simp only [detectChange, PollResult.next]
  rcases orNull_cases p.address with hp | ⟨a, ha, hp⟩ <;>
    rcases orNull_cases pa with hk | ⟨k, hk, rfl⟩
  · simp [hp, hk, Option.isSome_iff_ne_none]
  · simp [hp, orNull_of_ne hk]
  · have hne : some a ≠ pa := by
      rintro rfl
      simp [orNull_of_ne ha] at hk
    simp [hp, orNull_of_ne ha, hk, newValue_of_ne hne, newValue_of_ne (Option.some_ne_none a)]
  · by_cases hak : a = k
    · simp [hp, orNull_of_ne hk, hak, Option.isSome_iff_ne_none]
    · have hne : some a ≠ some k := fun h => hak (Option.some.inj h)
      simp [hp, orNull_of_ne ha, orNull_of_ne hk, hak, newValue_of_ne hne]

theorem detectChange_isSome {previous : FreighterSnapshot} {p : PollResult} :
    (detectChange previous (p.next toLowerCase)).isSome = true ↔
      orNull p.address ≠ orNull previous.address ∨
        newValue (normalizeNetwork toLowerCase p.network) previous.network ≠ none := by
  rw [detectChange_eq]
  split_ifs with h
  · exact ⟨fun _ => h, fun _ => rfl⟩
  · exact ⟨fun hnone => absurd hnone (by simp), fun h' => absurd h' h⟩

variable (toLowerCase) in
/-- What is reported at a poll. -/
theorem reported_fields (previous : FreighterSnapshot) (p : PollResult) :
    let calls := ((detectChange previous (p.next toLowerCase)).map WatchCall.onChange).toList
    reportedAddress calls = newValue (orNull p.address) (orNull previous.address) ∧
    reportedDisconnection calls
      = decide (orNull p.address = none ∧ orNull previous.address ≠ none) ∧
    reportedNetwork calls
      = newValue (normalizeNetwork toLowerCase p.network) previous.network := by
  simp only [detectChange_eq]
  split_ifs with h
  · simp [reportedAddress, reportedDisconnection, reportedNetwork]
  · rw [not_or, not_not, not_not] at h
    obtain ⟨haccount, hnetwork⟩ := h
    simp [reportedAddress, reportedDisconnection, reportedNetwork, haccount, hnetwork]

end Detect

section Known

theorem lastAccount_append (rs : List PollResult) (p : PollResult) :
    lastAccount baseline (rs ++ [p]) = orNull p.address := by
  simp [lastAccount]

theorem lastNetwork_append (rs : List PollResult) (p : PollResult) :
    lastNetwork toLowerCase baseline (rs ++ [p])
      = (normalizeNetwork toLowerCase p.network).or (lastNetwork toLowerCase baseline rs) := by
  simp [lastNetwork]

theorem not_forgotten_nil : ¬ Forgotten toLowerCase baseline [] := by
  rintro ⟨before, mid, h, -, q, hq, -⟩
  have hmid : mid = [] := (List.append_eq_nil_iff.1 h.symm).2
  simp [hmid] at hq

theorem forgotten_append (rs : List PollResult) (p : PollResult) :
    Forgotten toLowerCase baseline (rs ++ [p]) ↔ normalizeNetwork toLowerCase p.network = none ∧
      (Forgotten toLowerCase baseline rs ∨ orNull p.address ≠ lastAccount baseline rs) := by
  constructor
  · rintro ⟨before, mid, h, hmid, q, hq, hne⟩
    rcases List.eq_nil_or_concat mid with rfl | ⟨mid, p', rfl⟩
    · cases hq
    rw [List.concat_eq_append] at h hmid hq
    rw [← List.append_assoc] at h
    obtain ⟨rfl, rfl⟩ : rs = before ++ mid ∧ p = p' := by
      obtain ⟨hrs, hp⟩ := List.append_inj' h rfl
      exact ⟨hrs, by simpa using hp⟩
    refine ⟨hmid p (by simp), ?_⟩
    by_cases hforgot : ∃ q ∈ mid, orNull q.address ≠ lastAccount baseline before
    · obtain ⟨q', hq', hne'⟩ := hforgot
      exact .inl ⟨before, mid, rfl, fun x hx => hmid x (by simp [hx]), q', hq', hne'⟩
    · right
      have hsame : ∀ q ∈ mid, orNull q.address = lastAccount baseline before := fun q hq => by
        by_contra hne
        exact hforgot ⟨q, hq, hne⟩
      have hqp : q = p := by
        rcases List.mem_append.1 hq with hq | hq
        · exact absurd (hsame q hq) hne
        · simpa using hq
      have hlast : lastAccount baseline (before ++ mid) = lastAccount baseline before := by
        rcases List.eq_nil_or_concat mid with rfl | ⟨mid, r, rfl⟩
        · rw [List.append_nil]
        · rw [List.concat_eq_append, ← List.append_assoc, lastAccount_append]
          exact hsame r (by simp)
      rw [hlast]
      exact hqp ▸ hne
  · rintro ⟨hp, ⟨before, mid, rfl, hmid, q, hq, hne⟩ | hne⟩
    · refine ⟨before, mid ++ [p], by simp, fun x hx => ?_, q, by simp [hq], hne⟩
      rcases List.mem_append.1 hx with hx | hx
      · exact hmid x hx
      · rw [List.mem_singleton.1 hx, hp]
    · exact ⟨rs, [p], rfl, by simpa using hp, p, by simp, hne⟩

end Known

section Run

/-- The watcher after it has looked at some results. -/
structure Follows (w : Watcher) (rs : List PollResult) : Prop where
  account : orNull w.previous.address = lastAccount baseline rs
  network : ¬ Forgotten toLowerCase baseline rs →
    w.previous.network = lastNetwork toLowerCase baseline rs
  forgotten : Forgotten toLowerCase baseline rs → w.previous.network = none
  inFlight : w.inFlight = if w.polling then 1 else 0

variable {toLowerCase baseline}

theorem follows_poll {w : Watcher} {rs : List PollResult}
    (h : Follows toLowerCase baseline w rs) : Follows toLowerCase baseline w.poll rs := by
  unfold Watcher.poll
  split_ifs with hp
  · exact h
  · have hflight := h.inFlight
    simp only [Bool.or_eq_true, not_or, Bool.not_eq_true] at hp
    rw [hp.2] at hflight
    exact ⟨h.account, h.network, h.forgotten, by simp [hflight]⟩

theorem follows_settle {w : Watcher} {rs : List PollResult}
    (h : Follows toLowerCase baseline w rs) : Follows toLowerCase baseline w.settle rs := by
  refine ⟨h.account, h.network, h.forgotten, ?_⟩
  have := h.inFlight
  cases hp : w.polling <;> simp_all [Watcher.settle]

/-- A poll the watcher looks at. -/
theorem follows_result {w : Watcher} {rs : List PollResult} {p : PollResult}
    (h : Follows toLowerCase baseline w rs) :
    Follows toLowerCase baseline { w.settle with
      previous := if (detectChange w.previous (p.next toLowerCase)).isSome
        then p.next toLowerCase else w.previous } (rs ++ [p]) := by
  have hflight := (follows_settle h).inFlight
  have hnext : orNull (p.next toLowerCase).address = orNull p.address := by
    rcases orNull_cases p.address with hp | ⟨a, ha, hp⟩
    · rw [PollResult.next, hp]
      rfl
    · rw [PollResult.next, hp, orNull_of_ne ha, orNull_of_ne ha]
  by_cases hc : orNull p.address ≠ orNull w.previous.address ∨
      newValue (normalizeNetwork toLowerCase p.network) w.previous.network ≠ none
  · rw [if_pos (detectChange_isSome.2 hc)]
    refine ⟨by rw [lastAccount_append]; exact hnext, fun hnot => ?_, fun hf => ?_, hflight⟩
    · rw [lastNetwork_append]
      rcases hn : normalizeNetwork toLowerCase p.network with _ | n
      · rw [forgotten_append, ← h.account, hn, not_and, not_or] at hnot
        rw [hn, newValue_none] at hc
        exact absurd (hnot rfl).2 (not_not.2 (hc.resolve_right (not_not.2 rfl)))
      · exact hn
    · exact ((forgotten_append toLowerCase baseline rs p).1 hf).1
  · rw [if_neg (mt detectChange_isSome.1 hc)]
    rw [not_or, not_not, not_not, newValue_eq_none_iff] at hc
    obtain ⟨hsame, hnetwork⟩ := hc
    have hforgot : Forgotten toLowerCase baseline (rs ++ [p]) ↔
        normalizeNetwork toLowerCase p.network = none ∧ Forgotten toLowerCase baseline rs := by
      rw [forgotten_append, ← h.account]
      simp [hsame]
    refine ⟨by rw [lastAccount_append]; exact hsame.symm, fun hnot => ?_, fun hf => ?_, hflight⟩
    · rw [lastNetwork_append]
      rcases hn : normalizeNetwork toLowerCase p.network with _ | n
      · rw [hforgot, hn, not_and] at hnot
        exact h.network (hnot rfl)
      · rw [hn] at hnetwork
        exact (hnetwork.resolve_left (by simp)).symm
    · exact h.forgotten (hforgot.1 hf).2

theorem step_received {w : Watcher} {e : WatchEvent} {p : PollResult}
    (h : w.receives e = some p) :
    (w.step toLowerCase e).1 = { w.settle with
      previous := if (detectChange w.previous (p.next toLowerCase)).isSome
        then p.next toLowerCase else w.previous } ∧
    (w.step toLowerCase e).2
      = ((detectChange w.previous (p.next toLowerCase)).map WatchCall.onChange).toList := by
  cases e with
  | resolved result =>
    simp only [Watcher.receives] at h
    split_ifs at h with hno
    obtain rfl := Option.some.inj h
    obtain ⟨hflight, hstopped⟩ := not_or.1 hno
    simp only [Watcher.step, if_neg hflight, if_neg hstopped]
    split <;> simp_all [Watcher.settle]
  | timer => cases h
  | rejected => cases h
  | stop => cases h

theorem step_not_received {w : Watcher} {e : WatchEvent} {rs : List PollResult}
    (h : w.receives e = none) (hw : Follows toLowerCase baseline w rs) :
    Follows toLowerCase baseline (w.step toLowerCase e).1 rs ∧
      ∀ change, .onChange change ∉ (w.step toLowerCase e).2 := by
  cases e with
  | resolved result =>
    simp only [Watcher.receives] at h
    split_ifs at h with hno
    by_cases hflight : w.inFlight = 0
    · simpa [Watcher.step, hflight] using hw
    · simpa [Watcher.step, hflight, hno.resolve_left hflight] using follows_settle hw
  | timer => exact ⟨follows_poll hw, fun _ => List.not_mem_nil⟩
  | rejected =>
    by_cases hflight : w.inFlight = 0
    · simpa [Watcher.step, hflight] using hw
    · simpa [Watcher.step, hflight] using follows_settle hw
  | stop => exact ⟨⟨hw.account, hw.network, hw.forgotten, hw.inFlight⟩, fun _ => List.not_mem_nil⟩

variable (toLowerCase) in
theorem results_append (w : Watcher) (pre post : List WatchEvent) :
    w.results toLowerCase (pre ++ post)
      = w.results toLowerCase pre ++ (w.after toLowerCase pre).results toLowerCase post := by
  induction pre generalizing w with
  | nil => rfl
  | cons e pre ih =>
    rw [List.cons_append, Watcher.results, Watcher.results, ih, List.append_assoc]
    rfl

/-- Each result looked at comes with an event of the run. -/
theorem exists_event {events : List WatchEvent} : ∀ {w : Watcher} {rs rest : List PollResult}
    {p : PollResult}, w.results toLowerCase events = rs ++ p :: rest →
    ∃ pre e post, events = pre ++ e :: post ∧ w.results toLowerCase pre = rs ∧
      (w.after toLowerCase pre).receives e = some p := by
  induction events with
  | nil =>
    intro w rs rest p h
    simp [Watcher.results] at h
  | cons e events ih =>
    intro w rs rest p h
    rw [Watcher.results] at h
    cases he : w.receives e with
    | none =>
      rw [he] at h
      obtain ⟨pre, e', post, rfl, hrs, hp⟩ := ih h
      exact ⟨e :: pre, e', post, rfl, by rw [Watcher.results, he]; exact hrs, hp⟩
    | some q =>
      rw [he, Option.toList_some, List.singleton_append] at h
      rcases rs with _ | ⟨r, rs⟩
      · obtain ⟨rfl, -⟩ := List.cons.inj h
        exact ⟨[], e, events, rfl, rfl, he⟩
      · rw [List.cons_append] at h
        obtain ⟨rfl, hrest⟩ := List.cons.inj h
        obtain ⟨pre, e', post, rfl, hrs, hp⟩ := ih hrest
        exact ⟨e :: pre, e', post, rfl, by rw [Watcher.results, he, hrs]; rfl, hp⟩

variable (toLowerCase baseline) in
/-- At every point of a run the snapshot is that of the results so far. -/
theorem follows_after (events : List WatchEvent) :
    Follows toLowerCase baseline ((Watcher.start baseline).after toLowerCase events)
      ((Watcher.start baseline).results toLowerCase events) := by
  induction events using List.reverseRecOn with
  | nil =>
    exact ⟨rfl, fun _ => rfl, fun h => absurd h (not_forgotten_nil toLowerCase baseline), rfl⟩
  | append_singleton events e ih =>
    rw [results_append, Watcher.after, List.foldl_append]
    change Follows toLowerCase baseline
      (((Watcher.start baseline).after toLowerCase events).step toLowerCase e).1 _
    rw [Watcher.results, Watcher.results]
    cases he : ((Watcher.start baseline).after toLowerCase events).receives e with
    | none => simpa using (step_not_received he ih).1
    | some p =>
      rw [(step_received he).1]
      exact follows_result ih

theorem stopped_after {pre : List WatchEvent} (h : .stop ∈ pre) (w : Watcher) :
    (w.after toLowerCase pre).stopped = true := by
  have hstep (w : Watcher) (e : WatchEvent) (hs : w.stopped = true) :
      (w.step toLowerCase e).1.stopped = true := by
    cases e <;> simp only [Watcher.step, Watcher.poll] <;> split_ifs <;>
      simp_all [Watcher.settle]
  obtain ⟨before, post, rfl⟩ := List.append_of_mem h
  rw [Watcher.after, List.foldl_append, List.foldl_cons]
  have hstop : ∀ (events : List WatchEvent) (w : Watcher), w.stopped = true →
      (events.foldl (fun w e => (w.step toLowerCase e).1) w).stopped = true := by
    intro events
    induction events with
    | nil => exact fun _ hw => hw
    | cons e events ih => exact fun w hw => ih _ (hstep w e hw)
  exact hstop post _ rfl

theorem receives_eq_none_of_stopped {w : Watcher} (h : w.stopped = true) (e : WatchEvent) :
    w.receives e = none := by
  cases e <;> simp [Watcher.receives, h]

/-- What is reported as the network at a poll is what is expected unless the network is forgotten
and comes back. -/
theorem network_exact_iff {w : Watcher} {rs : List PollResult} {p : PollResult}
    (hw : Follows toLowerCase baseline w rs) :
    newValue (normalizeNetwork toLowerCase p.network) w.previous.network
        = newValue (normalizeNetwork toLowerCase p.network) (lastNetwork toLowerCase baseline rs) ↔
      (normalizeNetwork toLowerCase p.network ≠ none →
        normalizeNetwork toLowerCase p.network = lastNetwork toLowerCase baseline rs →
        ¬ Forgotten toLowerCase baseline rs) := by
  by_cases hf : Forgotten toLowerCase baseline rs
  · rw [hw.forgotten hf]
    rcases hn : normalizeNetwork toLowerCase p.network with _ | n
    · simp
    · rw [newValue_of_ne (Option.some_ne_none n)]
      by_cases hl : some n = lastNetwork toLowerCase baseline rs
      · simp [← hl, hf]
      · simp [newValue_of_ne hl, hl]
  · simp [hw.network hf, hf]

variable (toLowerCase baseline) in
/-- The watcher does what is expected of it in a run exactly when no network comes back unchanged
after the account has changed while it was unreadable. -/
theorem watchesExactly_iff (events : List WatchEvent) :
    WatchesExactly toLowerCase baseline events ↔
      NetworkKept toLowerCase baseline
        ((Watcher.start baseline).results toLowerCase events) := by
  have hfields {pre : List WatchEvent} {e : WatchEvent} {p : PollResult}
      (he : ((Watcher.start baseline).after toLowerCase pre).receives e = some p) :=
    reported_fields toLowerCase ((Watcher.start baseline).after toLowerCase pre).previous p
  constructor
  · intro h before p rest hsplit hreadable hsame
    obtain ⟨pre, e, post, rfl, rfl, he⟩ := exists_event hsplit
    have hw := follows_after toLowerCase baseline pre
    have hnetwork := h.network pre e post rfl p he
    simp only [(step_received he).2, (hfields he).2.2] at hnetwork
    exact (network_exact_iff hw).1 hnetwork hreadable hsame
  · intro h
    refine ⟨fun pre e post _ hstop => ?_, fun pre post _ => ?_, fun pre e post _ he => ?_,
      fun pre e post _ p he => ?_, fun pre e post hevents p he => ?_⟩
    · exact (step_not_received (receives_eq_none_of_stopped (stopped_after hstop _) e)
        (follows_after toLowerCase baseline pre)).2
    · rw [(follows_after toLowerCase baseline pre).inFlight]
      split_ifs <;> omega
    · exact (step_not_received he (follows_after toLowerCase baseline pre)).2
    · have hw := follows_after toLowerCase baseline pre
      simp only [(step_received he).2, ← hw.account]
      exact ⟨(hfields he).1, (hfields he).2.1⟩
    · have hw := follows_after toLowerCase baseline pre
      simp only [(step_received he).2, (hfields he).2.2]
      refine (network_exact_iff hw).2 fun hreadable hsame => h _ p
        ((((Watcher.start baseline).after toLowerCase pre).step toLowerCase e).1.results toLowerCase
          post) ?_ hreadable hsame
      rw [hevents, results_append, Watcher.results, he]
      rfl

/-- The account changes while the network is unreadable, and the network comes back unchanged: it is
reported as a change. -/
theorem not_watchesExactly_unchanged_network :
    ¬ WatchesExactly (fun s => String.ofList (s.toList.map Char.toLower))
      ⟨some "GA", some "testnet"⟩
      [.resolved ⟨some "GB", none⟩, .timer, .resolved ⟨some "GB", some "TESTNET"⟩] := by
  intro h
  have hnetwork := h.network [.resolved ⟨some "GB", none⟩, .timer]
    (.resolved ⟨some "GB", some "TESTNET"⟩) [] rfl ⟨some "GB", some "TESTNET"⟩ (by decide)
  revert hnetwork
  decide

end Run

end TrusTrove
