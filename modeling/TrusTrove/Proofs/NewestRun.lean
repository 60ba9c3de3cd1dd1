import TrusTrove.AsyncQuery

/-!
# The newest run of a query wins

What a component may show is said by the events alone: how many runs were started, whether a cleanup
came after the newest, and how the newest settled. The counter of the hook agrees with it: a run's
generation is the counter's value exactly while the run is the newest and no cleanup followed.
-/

namespace TrusTrove

variable {α ε : Type}

/-- The newest run: its place, whether it outlived no cleanup, and how it settled. -/
structure Latest (α ε : Type) where
  started : ℕ
  live : Bool
  outcome : Option (QueryOutcome α ε)

namespace Latest

def none : Latest α ε := ⟨0, false, .none⟩

def step (l : Latest α ε) : QueryEvent α ε → Latest α ε
  | .effect | .depsChange | .refetch => ⟨l.started + 1, true, .none⟩
  | .unmount => { l with live := false }
  | .settle i outcome => if i + 1 = l.started then { l with outcome := some outcome } else l

def after (events : List (QueryEvent α ε)) : Latest α ε := events.foldl step none

theorem step_settle_started (l : Latest α ε) (i : ℕ) (outcome : QueryOutcome α ε) :
    (l.step (.settle i outcome)).started = l.started := by
  simp only [step]
  split <;> rfl

theorem step_settle_live (l : Latest α ε) (i : ℕ) (outcome : QueryOutcome α ε) :
    (l.step (.settle i outcome)).live = l.live := by
  simp only [step]
  split <;> rfl

end Latest

/-- What the hook's state knows of the newest run. -/
structure Tracks (s : QueryState α ε) (l : Latest α ε) : Prop where
  started : s.runs.length = l.started
  current : ∀ j r, s.runs[j]? = some r → r.generation ≤ s.generation ∧
    (r.generation = s.generation ↔ l.live ∧ j + 1 = l.started)
  settled : ∀ j r, s.runs[j]? = some r → j + 1 = l.started →
    (r.settled = false ↔ l.outcome = none)
  loading : l.live ∨ l.started = 0 → (s.isLoading ↔ l.outcome = none)
  error : s.error ≠ none → ∃ reason, l.outcome = some (.rejected reason)

/-- The effect is in force only after a run it was not cleaned up after. -/
def MountedLive (s : QueryState α ε) (l : Latest α ε) : Prop :=
  s.Mounted → l.live ∨ l.started = 0

namespace QueryState

variable {s : QueryState α ε} {l : Latest α ε}

theorem tracks_initial : Tracks (initial : QueryState α ε) Latest.none :=
  ⟨rfl, by simp [initial], by simp [initial], by simp [initial, Latest.none], by simp [initial]⟩

theorem tracks_phase (h : Tracks s l) (phase : QueryPhase) : Tracks { s with phase } l :=
  ⟨h.started, h.current, h.settled, h.loading, h.error⟩

theorem getElem?_abort {j : ℕ} {r : QueryRun} (h : s.abort.runs[j]? = some r) :
    ∃ r₀, s.runs[j]? = some r₀ ∧ r.generation = r₀.generation ∧ r.settled = r₀.settled := by
  unfold abort at h
  split at h
  · exact ⟨r, h, rfl, rfl⟩
  · simp only [List.getElem?_modify, Option.map_eq_map, Option.map_eq_some_iff] at h
    obtain ⟨r₀, h₀, rfl⟩ := h
    refine ⟨r₀, h₀, ?_, ?_⟩ <;> split <;> rfl

theorem length_abort : s.abort.runs.length = s.runs.length := by
  unfold abort
  split <;> simp

theorem abort_cells : s.abort.generation = s.generation ∧ s.abort.isLoading = s.isLoading ∧
    s.abort.error = s.error ∧ s.abort.data = s.data ∧ s.abort.writes = s.writes ∧
      s.abort.phase = s.phase := by
  unfold abort
  split <;> simp

theorem tracks_abort (h : Tracks s l) : Tracks s.abort l := by
  obtain ⟨hg, hl, he, -, -, -⟩ := s.abort_cells
  refine ⟨length_abort.trans h.started, fun j r hr => ?_, fun j r hr hj => ?_, ?_, ?_⟩
  · obtain ⟨r₀, h₀, hgen, -⟩ := getElem?_abort hr
    rw [hgen, hg]
    exact h.current j r₀ h₀
  · obtain ⟨r₀, h₀, -, hset⟩ := getElem?_abort hr
    rw [hset]
    exact h.settled j r₀ h₀ hj
  · rw [hl]
    exact h.loading
  · rw [he]
    exact h.error

/-- A started run is the newest, alone carries the counter's value, and is loading. -/
theorem tracks_startRun (h : Tracks s l) : Tracks s.startRun ⟨l.started + 1, true, none⟩ := by
  have ha := tracks_abort h
  have hlen : s.abort.runs.length = l.started := ha.started
  refine ⟨by simp [startRun, setError, setIsLoading, hlen], fun j r hr => ?_, fun j r hr hj => ?_,
    by simp [startRun, setError, setIsLoading], by simp [startRun, setError]⟩
  · simp only [startRun, setError, setIsLoading, List.getElem?_append] at hr ⊢
    split at hr
    · obtain ⟨hle, -⟩ := ha.current j r hr
      simp only [true_and]
      omega
    · rw [List.getElem?_singleton] at hr
      split at hr
      · simp only [Option.some.injEq] at hr
        subst hr
        simp only [true_and, le_refl, true_iff]
        omega
      · simp at hr
  · simp only [startRun, setError, setIsLoading, List.getElem?_append] at hr
    rw [if_neg (by simp only at hj; omega), List.getElem?_singleton] at hr
    split at hr
    · simp only [Option.some.injEq] at hr
      simp [← hr]
    · simp at hr

/-- After a cleanup no run carries the counter's value. -/
theorem tracks_cleanup (h : Tracks s l) : Tracks s.cleanup { l with live := false } := by
  have hbump : Tracks { s with generation := s.generation + 1 } { l with live := false } := by
    refine ⟨h.started, fun j r hr => ?_, h.settled, fun hl => h.loading ?_, h.error⟩
    · obtain ⟨hle, -⟩ := h.current j r hr
      simp only [Bool.false_eq_true, false_and, iff_false]
      omega
    · exact .inr (by simpa using hl)
  have := tracks_abort hbump
  exact ⟨this.started, this.current, this.settled, this.loading, this.error⟩

section Finish

variable {newError : String → ε} {i : ℕ} {r : QueryRun} {outcome : QueryOutcome α ε}

/-- The state with a run marked as settled. -/
def markSettled (i : ℕ) (s : QueryState α ε) : QueryState α ε :=
  { s with runs := s.runs.modify i fun r => { r with settled := true } }

theorem finishRun_stale (h : r.generation ≠ s.generation) :
    s.finishRun newError i r outcome = s.markSettled i := by
  have hc (s' : QueryState α ε) (hs : s'.generation = s.generation) : isCurrent r s' = false := by
    simp [isCurrent, hs, h]
  cases outcome <;> simp [finishRun, hc, markSettled]

theorem finishRun_resolved (h : r.generation = s.generation) (a : α) :
    s.finishRun newError i r (.resolved a)
      = ((s.markSettled i).setData i a).setIsLoading false := by
  simp [finishRun, isCurrent, markSettled, setData, h]

theorem finishRun_rejected (h : r.generation = s.generation) (reason : Reason ε) :
    s.finishRun newError i r (.rejected reason) =
      (match asError newError reason with
        | some e => (s.markSettled i).setError i (some e)
        | none => s.markSettled i).setIsLoading false := by
  cases hr : asError newError reason <;> simp [finishRun, isCurrent, markSettled, setError, h, hr]

theorem getElem?_markSettled {j : ℕ} {r' : QueryRun} (h : (s.markSettled i).runs[j]? = some r') :
    ∃ r₀, s.runs[j]? = some r₀ ∧ r'.generation = r₀.generation ∧
      r'.settled = if i = j then true else r₀.settled := by
  simp only [markSettled, List.getElem?_modify, Option.map_eq_map, Option.map_eq_some_iff] at h
  obtain ⟨r₀, h₀, rfl⟩ := h
  refine ⟨r₀, h₀, ?_, ?_⟩ <;> split <;> rfl

/-- Marking a run keeps what is known of generations; the cells are left to the caller. -/
theorem tracks_of_markSettled {s' : QueryState α ε} (h : Tracks s l)
    (hruns : s'.runs = (s.markSettled i).runs) (hgen : s'.generation = s.generation)
    (hloading : l.live ∨ l.started = 0 →
      (s'.isLoading ↔ (l.step (.settle i outcome)).outcome = none))
    (herror : s'.error ≠ none →
      ∃ reason, (l.step (.settle i outcome)).outcome = some (.rejected reason)) :
    Tracks s' (l.step (.settle i outcome)) := by
  have hstarted := l.step_settle_started i outcome
  have hlive := l.step_settle_live i outcome
  refine ⟨?_, fun j r hr => ?_, fun j r hr hj => ?_, ?_, herror⟩
  · rw [hstarted, hruns, ← h.started]
    simp [markSettled]
  · rw [hruns] at hr
    obtain ⟨r₀, h₀, hg, -⟩ := getElem?_markSettled hr
    rw [hstarted, hlive, hgen, hg]
    exact h.current j r₀ h₀
  · rw [hruns] at hr
    obtain ⟨r₀, h₀, -, hset⟩ := getElem?_markSettled hr
    rw [hstarted] at hj
    rw [hset]
    simp only [Latest.step]
    by_cases hij : i = j
    · rw [if_pos hij, if_pos (by omega)]
      simp
    · rw [if_neg hij, if_neg (by omega)]
      exact h.settled j r₀ h₀ hj
  · rw [hstarted, hlive]
    exact hloading

theorem finishRun_phase : (s.finishRun newError i r outcome).phase = s.phase := by
  by_cases hgen : r.generation = s.generation
  · cases outcome with
    | resolved a => rw [finishRun_resolved hgen]; rfl
    | rejected reason =>
      rw [finishRun_rejected hgen]
      split <;> rfl
  · rw [finishRun_stale hgen]
    rfl

/-- The outcome of a run counts if it is the newest, and then the cells follow it unless a cleanup
came before. -/
theorem tracks_finishRun (h : Tracks s l) (hr : s.runs[i]? = some r) (hs : r.settled = false) :
    Tracks (s.finishRun newError i r outcome) (l.step (.settle i outcome)) := by
  have hcur := (h.current i r hr).2
  have hclear (hi : i + 1 = l.started) : s.error = none := by
    by_contra he
    obtain ⟨reason, ho⟩ := h.error he
    simp [(h.settled i r hr hi).mp hs] at ho
  by_cases hgen : r.generation = s.generation
  · obtain ⟨-, hi⟩ := hcur.mp hgen
    have hkept : (l.step (.settle i outcome)).outcome = some outcome := by
      simp [Latest.step, hi]
    cases outcome with
    | resolved a =>
      rw [finishRun_resolved hgen]
      refine tracks_of_markSettled h rfl rfl (fun _ => ?_) fun he => ?_
      · simp [setIsLoading, hkept]
      · exact absurd (hclear hi) he
    | rejected reason =>
      rw [finishRun_rejected hgen]
      refine tracks_of_markSettled h ?_ ?_ (fun _ => ?_) fun he => ⟨reason, hkept⟩
      · split <;> rfl
      · split <;> rfl
      · simp [setIsLoading, hkept]
  · rw [finishRun_stale hgen]
    by_cases hi : i + 1 = l.started
    · refine tracks_of_markSettled h rfl rfl (fun hl => ?_) fun he => ?_
      · have hlive : l.live := hl.resolve_right (by omega)
        exact absurd (hcur.mpr ⟨hlive, hi⟩) hgen
      · exact absurd (hclear hi) he
    · have hsame : l.step (.settle i outcome) = l := by simp [Latest.step, hi]
      refine tracks_of_markSettled h rfl rfl ?_ ?_
      · rw [hsame]
        exact h.loading
      · rw [hsame]
        exact h.error

end Finish

/-! ## Steps and runs -/

theorem tracks_step {newError : String → ε} {e : QueryEvent α ε} {s' : QueryState α ε}
    (h : Tracks s l) (hm : MountedLive s l) (he : s.step newError e = some s') :
    Tracks s' (l.step e) ∧ MountedLive s' (l.step e) := by
  cases e with
  | effect =>
    simp only [step, Option.ite_none_left_eq_some, Option.some.injEq] at he
    rw [← he.2]
    exact ⟨tracks_phase (tracks_startRun h) _, fun _ => .inl rfl⟩
  | depsChange =>
    simp only [step, Option.ite_none_right_eq_some, Option.some.injEq] at he
    rw [← he.2]
    have := tracks_startRun (tracks_cleanup h)
    exact ⟨this, fun _ => .inl rfl⟩
  | refetch =>
    simp only [step, Option.some.injEq] at he
    rw [← he]
    exact ⟨tracks_startRun h, fun _ => .inl rfl⟩
  | unmount =>
    simp only [step, Option.ite_none_right_eq_some, Option.some.injEq] at he
    rw [← he.2]
    exact ⟨tracks_phase (tracks_cleanup h) _, fun hp => absurd rfl hp⟩
  | settle i outcome =>
    simp only [step] at he
    split at he
    · simp at he
    · rename_i r hr
      simp only [Option.ite_none_left_eq_some, Option.some.injEq, Bool.not_eq_true] at he
      rw [← he.2]
      refine ⟨tracks_finishRun h hr he.1, fun hp => ?_⟩
      rw [Mounted, finishRun_phase] at hp
      rw [Latest.step_settle_started, Latest.step_settle_live]
      exact hm hp

theorem tracks_exec {newError : String → ε} : ∀ (events : List (QueryEvent α ε))
    {s s' : QueryState α ε} {l : Latest α ε}, Tracks s l → MountedLive s l →
      exec newError events s = some s' →
      Tracks s' (events.foldl Latest.step l) ∧ MountedLive s' (events.foldl Latest.step l)
  | [], _, _, _, h, hm, he => by
    simp only [exec, Option.some.injEq] at he
    exact he ▸ ⟨h, hm⟩
  | e :: events, _, _, _, h, hm, he => by
    simp only [exec, Option.bind_eq_some_iff] at he
    obtain ⟨s₁, h₁, he⟩ := he
    obtain ⟨ht, hm'⟩ := tracks_step h hm h₁
    exact tracks_exec events ht hm' he

/-- What one event writes, all of it by one run, and that the cells change by these writes alone. -/
structure WrittenBy (s s' : QueryState α ε) (run : ℕ) (new : List (CellWrite α ε)) : Prop where
  writes : s'.writes = s.writes ++ new
  run : ∀ w ∈ new, w.run = run
  unchanged : new = [] → s'.data = s.data ∧ s'.error = s.error

theorem writtenBy_startRun : WrittenBy s s.startRun s.runs.length [.error s.runs.length none] := by
  obtain ⟨-, -, -, -, hw, -⟩ := s.abort_cells
  exact ⟨by simp [startRun, setError, setIsLoading, hw, length_abort], by simp [CellWrite.run],
    by simp⟩

theorem cleanup_cells : s.cleanup.data = s.data ∧ s.cleanup.error = s.error ∧
    s.cleanup.writes = s.writes ∧ s.cleanup.runs.length = s.runs.length := by
  obtain ⟨-, -, he, hd, hw, -⟩ := abort_cells (s := { s with generation := s.generation + 1 })
  exact ⟨hd, he, hw, length_abort⟩

theorem writtenBy_finishRun (newError : String → ε) (i : ℕ) (r : QueryRun)
    (outcome : QueryOutcome α ε) : ∃ new,
      WrittenBy s (s.finishRun newError i r outcome) i new ∧
        (new ≠ [] → r.generation = s.generation) := by
  by_cases hgen : r.generation = s.generation
  · cases outcome with
    | resolved a =>
      rw [finishRun_resolved hgen]
      exact ⟨[.data i a], ⟨rfl, by simp [CellWrite.run], by simp⟩, fun _ => hgen⟩
    | rejected reason =>
      rw [finishRun_rejected hgen]
      split
      · exact ⟨[.error i _], ⟨rfl, by simp [CellWrite.run], by simp⟩, fun _ => hgen⟩
      · exact ⟨[], ⟨by simp [markSettled, setIsLoading], by simp, fun _ => ⟨rfl, rfl⟩⟩,
          fun _ => hgen⟩
  · rw [finishRun_stale hgen]
    exact ⟨[], ⟨by simp [markSettled], by simp, fun _ => ⟨rfl, rfl⟩⟩, by simp⟩

/-- Whatever an event writes is written by the newest run, and no cleanup came after its start. -/
theorem writtenBy_step {newError : String → ε} {e : QueryEvent α ε} {s' : QueryState α ε}
    (h : Tracks s l) (he : s.step newError e = some s') : ∃ run new, WrittenBy s s' run new ∧
      (new ≠ [] → run + 1 = (l.step e).started ∧ (l.step e).live) := by
  cases e with
  | effect =>
    simp only [step, Option.ite_none_left_eq_some, Option.some.injEq] at he
    rw [← he.2]
    have hw := writtenBy_startRun (s := s)
    exact ⟨_, _, ⟨hw.writes, hw.run, hw.unchanged⟩, fun _ => ⟨by rw [h.started]; rfl, rfl⟩⟩
  | depsChange =>
    simp only [step, Option.ite_none_right_eq_some, Option.some.injEq] at he
    rw [← he.2]
    obtain ⟨hd, herr, hcw, hlen⟩ := s.cleanup_cells
    have hw := writtenBy_startRun (s := s.cleanup)
    refine ⟨_, _, ⟨by rw [hw.writes, hcw], hw.run, fun hn => ?_⟩, fun _ => ⟨?_, rfl⟩⟩
    · simp at hn
    · rw [hlen, h.started]
      rfl
  | refetch =>
    simp only [step, Option.some.injEq] at he
    rw [← he]
    exact ⟨_, _, writtenBy_startRun, fun _ => ⟨by rw [h.started]; rfl, rfl⟩⟩
  | unmount =>
    simp only [step, Option.ite_none_right_eq_some, Option.some.injEq] at he
    rw [← he.2]
    obtain ⟨hd, herr, hcw, -⟩ := s.cleanup_cells
    exact ⟨0, [], ⟨by simp [hcw], by simp, fun _ => ⟨hd, herr⟩⟩, by simp⟩
  | settle i outcome =>
    simp only [step] at he
    split at he
    · simp at he
    · rename_i r hr
      simp only [Option.ite_none_left_eq_some, Option.some.injEq] at he
      rw [← he.2]
      obtain ⟨new, hw, hgen⟩ := writtenBy_finishRun (s := s) newError i r outcome
      refine ⟨i, new, hw, fun hn => ?_⟩
      rw [l.step_settle_started, l.step_settle_live]
      exact (((h.current i r hr).2).mp (hgen hn)).symm

/-- In every state a query hook can come to, the next event writes `data` and `error` only by the
newest run, started after every cleanup; `isLoading` says whether that run is pending, and an error
is its own. -/
theorem newest_run_wins {newError : String → ε} {events : List (QueryEvent α ε)}
    {s : QueryState α ε} (h : exec newError events initial = some s) :
    (∀ e s', s.step newError e = some s' → ∃ run new, WrittenBy s s' run new ∧
      (new ≠ [] → run + 1 = (Latest.after (events ++ [e])).started ∧
        (Latest.after (events ++ [e])).live)) ∧
    (s.Mounted → (s.isLoading ↔ (Latest.after events).outcome = none)) ∧
    (s.error ≠ none → ∃ reason, (Latest.after events).outcome = some (.rejected reason)) := by
  obtain ⟨ht, hm⟩ := tracks_exec events tracks_initial (fun _ => .inr rfl) h
  refine ⟨fun e s' he => ?_, fun hmounted => ht.loading (hm hmounted), ht.error⟩
  have := writtenBy_step ht he
  rwa [Latest.after, List.foldl_append]

/-- A run overtaken by a `refetch` resolves first. -/
def overtaken : List (QueryEvent ℕ String) := [.effect, .refetch, .settle 0 (.resolved 7)]

def afterOvertaken : QueryState ℕ String :=
  { data := none, isLoading := true, error := none, generation := 2, controller := some 1
    runs := [⟨1, true, true⟩, ⟨2, false, false⟩], phase := .active
    writes := [.error 0 none, .error 1 none] }

theorem newest_run_wins_overtaken :
    exec id overtaken initial = some afterOvertaken ∧
      (afterOvertaken.isLoading ↔ (Latest.after overtaken).outcome = none) :=
  ⟨rfl, (newest_run_wins (show exec id overtaken initial = some afterOvertaken from rfl)).2.1
    (by simp [Mounted, afterOvertaken])⟩

end QueryState

end TrusTrove
