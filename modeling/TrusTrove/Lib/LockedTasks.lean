import Mathlib

/-!
# Tasks that share a state under one lock

A `Task` is code that makes calls, each of which may fail: calls that do not touch the shared state,
accesses to it, and the lock around the accesses. `Always` is what holds at every point of a task
that runs alone, whatever fails; and when every task accesses the state under the lock only, what
holds of the tasks that run alone holds of any number that run interleaved (`rely`).
-/

namespace Locked

/-- Code over a shared state `δ` with results in `ρ`. A call is answered with a failure or none. -/
inductive Task (ε δ ρ : Type)
  | done (r : ρ)
  | call (k : Option ε → Task ε δ ρ)
  | access (f : Option ε → δ → δ) (k : Option ε → δ → Task ε δ ρ)
  | lock (k : Option ε → Task ε δ ρ)
  | unlock (r : ρ)

variable {ε δ ρ : Type}

namespace Task

/-- One call, with its answer. -/
def next : Task ε δ ρ → Option ε → δ → Task ε δ ρ × δ
  | done r, _, d => (done r, d)
  | call k, a, d => (k a, d)
  | access f k, a, d => (k a d, f a d)
  | lock k, a, d => (k a, d)
  | unlock r, _, d => (done r, d)

/-- A task that runs alone, after some answers. -/
def after : List (Option ε) → Task ε δ ρ → δ → Task ε δ ρ × δ
  | [], t, d => (t, d)
  | a :: as, t, d => after as (t.next a d).1 (t.next a d).2

theorem after_append (as bs : List (Option ε)) (t : Task ε δ ρ) (d : δ) :
    after (as ++ bs) t d = after bs (after as t d).1 (after as t d).2 := by
  induction as generalizing t d with
  | nil => rfl
  | cons a as ih => exact ih _ _

theorem after_done (as : List (Option ε)) (r : ρ) (d : δ) : after as (done r) d = (done r, d) := by
  induction as with
  | nil => rfl
  | cons a as ih => exact ih

/-- The result of a task that runs alone when no call fails. -/
def clean : Task ε δ ρ → δ → ρ × δ
  | done r, d => (r, d)
  | call k, d => (k none).clean d
  | access f k, d => (k none d).clean (f none d)
  | lock k, d => (k none).clean d
  | unlock r, d => (r, d)

/-- `P` holds at every point of a task that runs alone. -/
def Always (P : Task ε δ ρ → δ → Prop) (t : Task ε δ ρ) (d : δ) : Prop :=
  ∀ as, P (after as t d).1 (after as t d).2

section Always

variable {P P' : Task ε δ ρ → δ → Prop} {d : δ}

theorem Always.mono {t : Task ε δ ρ} (h : Always P t d) (hP : ∀ t d, P t d → P' t d) :
    Always P' t d := fun as => hP _ _ (h as)

theorem always_done {r : ρ} (h : P (done r) d) : Always P (done r) d := fun as => by
  rw [after_done]
  exact h

theorem always_next {t : Task ε δ ρ} (h : P t d)
    (hnext : ∀ a, Always P (t.next a d).1 (t.next a d).2) : Always P t d
  | [] => h
  | a :: as => hnext a as

theorem always_call {k : Option ε → Task ε δ ρ} (h : P (call k) d)
    (hk : ∀ a, Always P (k a) d) : Always P (call k) d := always_next h hk

theorem always_access {f : Option ε → δ → δ} {k : Option ε → δ → Task ε δ ρ} (h : P (access f k) d)
    (hk : ∀ a, Always P (k a d) (f a d)) : Always P (access f k) d := always_next h hk

theorem always_lock {k : Option ε → Task ε δ ρ} (h : P (lock k) d)
    (hk : ∀ a, Always P (k a) d) : Always P (lock k) d := always_next h hk

theorem always_unlock {r : ρ} (h : P (unlock r) d) (hr : P (done r) d) : Always P (unlock r) d :=
  always_next h fun _ => always_done hr

end Always

/-- The state is accessed under the lock only, which is taken once. -/
def Guarded : Bool → Task ε δ ρ → Prop
  | _, done _ => True
  | held, call k => ∀ a, Guarded held (k a)
  | held, access _ k => held = true ∧ ∀ a d, Guarded true (k a d)
  | held, lock k => held = false ∧ Guarded true (k none) ∧ ∀ e, Guarded false (k (some e))
  | held, unlock _ => held = true

end Task

/-- Tasks in the middle of their runs, and who holds the lock. -/
structure Sys (ι ε δ ρ : Type) where
  state : δ
  holder : Option ι
  tasks : ι → Task ε δ ρ

variable {ι : Type} [DecidableEq ι]

namespace Sys

/-- Who holds the lock after the task's call has been answered. A failed unlock keeps it. -/
def holderAfter (t : Task ε δ ρ) (i : ι) (a : Option ε) (holder : Option ι) : Option ι :=
  match t, a with
  | .lock _, none => some i
  | .unlock _, none => none
  | _, _ => holder

/-- The task waits for a lock that is held. -/
def blocked (t : Task ε δ ρ) (a : Option ε) (holder : Option ι) : Bool :=
  match t, a, holder with
  | .lock _, none, some _ => true
  | _, _, _ => false

/-- Task `x.1` makes its next call, answered by `x.2`; one that waits for the lock goes on
waiting. -/
def act (s : Sys ι ε δ ρ) (x : ι × Option ε) : Sys ι ε δ ρ :=
  let t := s.tasks x.1
  if blocked t x.2 s.holder then s
  else
    ⟨(t.next x.2 s.state).2, holderAfter t x.1 x.2 s.holder,
      Function.update s.tasks x.1 (t.next x.2 s.state).1⟩

/-- The tasks run interleaved. -/
def run (s : Sys ι ε δ ρ) (sched : List (ι × Option ε)) : Sys ι ε δ ρ := sched.foldl act s

section Rely

variable (R : δ → δ → Prop) (Q : ρ → δ → Prop) (start : ι → Task ε δ ρ)

/-- What a task that runs alone does, wherever it stops. -/
def Does (t : Task ε δ ρ) : Prop :=
  ∀ d, Task.Always (fun t' d' => R d d' ∧ ∀ r, t' = .done r → Q r d') t d

/-- Where an interleaved run is: the holder of the lock runs alone from the state it found, and no
other task has touched the state since. -/
structure Serial (s₀ b : δ) (s : Sys ι ε δ ρ) : Prop where
  base : R s₀ b
  free : s.holder = none → s.state = b
  held : ∀ i, s.holder = some i →
    (s.tasks i).Guarded true ∧ ∃ as, Task.after as (start i) b = (s.tasks i, s.state)
  others : ∀ i, s.holder ≠ some i → (s.tasks i).Guarded false ∧
    ((∃ as, ∀ d, Task.after as (start i) d = (s.tasks i, d)) ∨ ∃ r, s.tasks i = .done r)
  results : ∀ i r, s.holder ≠ some i → s.tasks i = .done r → Q r b

variable {R Q start} {s₀ b : δ} {s : Sys ι ε δ ρ}

theorem guarded_next {t : Task ε δ ρ} (h : t.Guarded true) (a : Option ε) (d : δ) :
    (t.next a d).1.Guarded true := by
  cases t with
  | done r => trivial
  | call k => exact h a
  | access f k => exact h.2 a d
  | lock k => exact absurd h.1 (by simp)
  | unlock r => trivial

/-- Outside the lock a task only moves itself. -/
theorem serial_quiet (hdoes : ∀ i, Does R Q (start i)) (h : Serial R Q start s₀ b s) {i : ι}
    {a : Option ε} (hi : s.holder ≠ some i) {t : Task ε δ ρ}
    (hnext : ∀ d, (s.tasks i).next a d = (t, d)) (ht : t.Guarded false) :
    Serial R Q start s₀ b ⟨s.state, s.holder, Function.update s.tasks i t⟩ := by
  have hpast : (∃ as, ∀ d, Task.after as (start i) d = (t, d)) ∨ ∃ r, t = .done r := by
    rcases (h.others i hi).2 with ⟨as, has⟩ | ⟨r, hr⟩
    · refine .inl ⟨as ++ [a], fun d => ?_⟩
      rw [Task.after_append, has]
      exact hnext d
    · refine .inr ⟨r, ?_⟩
      have := hnext s.state
      rw [hr] at this
      exact (congrArg Prod.fst this).symm
  refine ⟨h.base, h.free, fun j hj => ?_, fun j hj => ?_, fun j r hj hr => ?_⟩
  · have hji : j ≠ i := fun hji => hi (hji ▸ hj)
    simpa [Function.update_of_ne hji] using h.held j hj
  · rcases eq_or_ne j i with rfl | hji
    · simpa using ⟨ht, hpast⟩
    · simpa [Function.update_of_ne hji] using h.others j hj
  · rcases eq_or_ne j i with rfl | hji
    · simp only [Function.update_self] at hr
      rcases (h.others j hi).2 with ⟨as, has⟩ | ⟨r', hr'⟩
      · have hend := (hdoes j b (as ++ [a])).2 r
        rw [Task.after_append, has, Task.after, Task.after, hnext] at hend
        exact hend hr
      · have hsame := hnext s.state
        rw [hr'] at hsame
        obtain rfl : r' = r := by
          have := (congrArg Prod.fst hsame).trans hr
          exact Task.done.inj this
        exact h.results j r' hj hr'
    · simp only [ne_eq, hji, not_false_eq_true, Function.update_of_ne] at hr
      exact h.results j r hj hr

/-- A task that has the lock, or has just taken it. -/
theorem serial_holds (h : Serial R Q start s₀ b s) {i : ι} (hi : ∀ j ≠ i, s.holder ≠ some j)
    {t : Task ε δ ρ} {d : δ} (hg : t.Guarded true)
    (hafter : ∃ as, Task.after as (start i) b = (t, d)) :
    Serial R Q start s₀ b ⟨d, some i, Function.update s.tasks i t⟩ := by
  refine ⟨h.base, (nomatch ·), fun j hj => ?_, fun j hj => ?_, fun j r hj hr => ?_⟩
  · obtain rfl : i = j := Option.some.inj hj
    simpa using ⟨hg, hafter⟩
  · have hji : j ≠ i := fun hji => hj (hji ▸ rfl)
    simpa [Function.update_of_ne hji] using h.others j (hi j hji)
  · have hji : j ≠ i := fun hji => hj (hji ▸ rfl)
    simp only [ne_eq, hji, not_false_eq_true, Function.update_of_ne] at hr
    exact h.results j r (hi j hji) hr

/-- A task that gives the lock back leaves the state to the others as it is. -/
theorem serial_released (htrans : ∀ d d' d'', R d d' → R d' d'' → R d d'')
    (hstable : ∀ r d d', Q r d → R d d' → Q r d') (h : Serial R Q start s₀ b s) {i : ι}
    (hi : ∀ j ≠ i, s.holder ≠ some j) {r : ρ} {d : δ} (hd : R b d) (hr : Q r d) :
    Serial R Q start s₀ d ⟨d, none, Function.update s.tasks i (.done r)⟩ := by
  refine ⟨htrans _ _ _ h.base hd, fun _ => rfl, fun _ => (nomatch ·), fun j _ => ?_,
    fun j r' _ hr' => ?_⟩
  · rcases eq_or_ne j i with rfl | hji
    · simp [Task.Guarded]
    · simpa [Function.update_of_ne hji] using h.others j (hi j hji)
  · rcases eq_or_ne j i with rfl | hji
    · simp only [Function.update_self] at hr'
      exact Task.done.inj hr' ▸ hr
    · simp only [ne_eq, hji, not_false_eq_true, Function.update_of_ne] at hr'
      exact hstable _ _ _ (h.results j r' (hi j hji) hr') hd

/-- The holder of the lock goes on, or gives the lock back. -/
theorem serial_held (htrans : ∀ d d' d'', R d d' → R d' d'' → R d d'')
    (hstable : ∀ r d d', Q r d → R d d' → Q r d') (hdoes : ∀ i, Does R Q (start i))
    (h : Serial R Q start s₀ b s) {i : ι} (hi : s.holder = some i) (a : Option ε) :
    ∃ b', Serial R Q start s₀ b' (s.act (i, a)) := by
  obtain ⟨hg, as, has⟩ := h.held i hi
  have hafter : Task.after (as ++ [a]) (start i) b = (s.tasks i).next a s.state := by
    rw [Task.after_append, has]
    rfl
  have hothers : ∀ j ≠ i, s.holder ≠ some j := fun j hji hj =>
    hji (Option.some.inj (hj.symm.trans hi))
  have hkept (hb : blocked (s.tasks i) a s.holder = false)
      (hh : holderAfter (s.tasks i) i a s.holder = some i) :
      ∃ b', Serial R Q start s₀ b' (s.act (i, a)) := by
    have hact : s.act (i, a) = ⟨((s.tasks i).next a s.state).2, some i,
        Function.update s.tasks i ((s.tasks i).next a s.state).1⟩ := by
      simp [act, hb, hh]
    exact ⟨b, hact ▸ serial_holds h hothers (guarded_next hg a s.state) ⟨as ++ [a], hafter⟩⟩
  cases ht : s.tasks i with
  | done r | call k | access f k => exact hkept (by rw [ht]; rfl) (by rw [ht]; exact hi)
  | lock k =>
    rw [ht] at hg
    exact absurd hg.1 (by simp)
  | unlock r =>
    cases a with
    | some e => exact hkept (by rw [ht]; rfl) (by rw [ht]; exact hi)
    | none =>
      have hact : s.act (i, none) = ⟨s.state, none, Function.update s.tasks i (.done r)⟩ := by
        simp [act, ht, blocked, holderAfter, Task.next]
      have hstep := hdoes i b (as ++ [none])
      rw [hafter, ht] at hstep
      exact ⟨s.state, hact ▸ serial_released htrans hstable h hothers hstep.1 (hstep.2 r rfl)⟩

/-- A task without the lock goes on, waits for it or takes it. -/
theorem serial_other (hdoes : ∀ i, Does R Q (start i)) (h : Serial R Q start s₀ b s) {i : ι}
    (hi : s.holder ≠ some i) (a : Option ε) : Serial R Q start s₀ b (s.act (i, a)) := by
  have hg := (h.others i hi).1
  have hquiet {t : Task ε δ ρ} (hb : blocked (s.tasks i) a s.holder = false)
      (hh : holderAfter (s.tasks i) i a s.holder = s.holder)
      (hnext : ∀ d, (s.tasks i).next a d = (t, d)) (ht : t.Guarded false) :
      Serial R Q start s₀ b (s.act (i, a)) := by
    have hact : s.act (i, a) = ⟨s.state, s.holder, Function.update s.tasks i t⟩ := by
      simp [act, hb, hh, hnext]
    exact hact ▸ serial_quiet hdoes h hi hnext ht
  cases ht : s.tasks i with
  | done r =>
    exact hquiet (by rw [ht]; rfl) (by rw [ht]; rfl) (by rw [ht]; exact fun _ => rfl)
      (show (Task.done r).Guarded false from trivial)
  | call k =>
    rw [ht] at hg
    exact hquiet (by rw [ht]; rfl) (by rw [ht]; rfl) (by rw [ht]; exact fun _ => rfl) (hg a)
  | access f k =>
    rw [ht] at hg
    exact absurd hg.1 (by simp)
  | unlock r =>
    rw [ht] at hg
    exact absurd hg (by simp [Task.Guarded])
  | lock k =>
    rw [ht] at hg
    cases a with
    | some e =>
      exact hquiet (by rw [ht]; rfl) (by rw [ht]; rfl) (by rw [ht]; exact fun _ => rfl) (hg.2.2 e)
    | none =>
      cases hfree : s.holder with
      | some j =>
        have hact : s.act (i, none) = s := by simp [act, ht, hfree, blocked]
        exact hact.symm ▸ h
      | none =>
        have hact : s.act (i, none) = ⟨s.state, some i, Function.update s.tasks i (k none)⟩ := by
          simp [act, ht, hfree, blocked, holderAfter, Task.next]
        obtain ⟨as, has⟩ : ∃ as, ∀ d, Task.after as (start i) d = (s.tasks i, d) := by
          rcases (h.others i hi).2 with has | ⟨r, hr⟩
          · exact has
          · rw [ht] at hr
            cases hr
        rw [hact]
        refine serial_holds h (fun j _ => by simp [hfree]) hg.2.1 ⟨as ++ [none], ?_⟩
        rw [Task.after_append, has, ht, ← h.free hfree]
        simp [Task.after, Task.next]

theorem serial_act (htrans : ∀ d d' d'', R d d' → R d' d'' → R d d'')
    (hstable : ∀ r d d', Q r d → R d d' → Q r d') (hdoes : ∀ i, Does R Q (start i))
    (h : Serial R Q start s₀ b s) (x : ι × Option ε) :
    ∃ b', Serial R Q start s₀ b' (s.act x) := by
  by_cases hi : s.holder = some x.1
  · exact serial_held htrans hstable hdoes h hi x.2
  · exact ⟨b, serial_other hdoes h hi x.2⟩

variable (R Q start) in
/-- What holds of the tasks alone, wherever they stop, holds of them interleaved: the state is
related to the first one, and every result is one for the state as it is. -/
theorem rely (hrefl : ∀ d, R d d) (htrans : ∀ d d' d'', R d d' → R d' d'' → R d d'')
    (hstable : ∀ r d d', Q r d → R d d' → Q r d') (hdoes : ∀ i, Does R Q (start i))
    (hguard : ∀ i, (start i).Guarded false) (s₀ : δ) (sched : List (ι × Option ε)) :
    R s₀ (run ⟨s₀, none, start⟩ sched).state ∧
      ∀ i r, (run ⟨s₀, none, start⟩ sched).tasks i = .done r →
        Q r (run ⟨s₀, none, start⟩ sched).state := by
  have hserial : ∃ b, Serial R Q start s₀ b (run ⟨s₀, none, start⟩ sched) := by
    induction sched using List.reverseRecOn with
    | nil =>
      refine ⟨s₀, hrefl s₀, fun _ => rfl, fun _ => (nomatch ·),
        fun i _ => ⟨hguard i, .inl ⟨[], fun _ => rfl⟩⟩, fun i r _ hr => ?_⟩
      exact (hdoes i s₀ []).2 r hr
    | append_singleton sched x ih =>
      obtain ⟨b, hb⟩ := ih
      rw [run, List.foldl_append]
      exact serial_act htrans hstable hdoes hb x
  obtain ⟨b, hb⟩ := hserial
  cases hh : (run ⟨s₀, none, start⟩ sched).holder with
  | none =>
    rw [hb.free hh]
    exact ⟨hb.base, fun i r => hb.results i r (by simp [hh])⟩
  | some j =>
    obtain ⟨-, as, has⟩ := hb.held j hh
    have hstep := hdoes j b as
    rw [has] at hstep
    refine ⟨htrans _ _ _ hb.base hstep.1, fun i r hr => ?_⟩
    rcases eq_or_ne i j with rfl | hij
    · exact hstep.2 r hr
    · exact hstable _ _ _ (hb.results i r (by simp [hh, Ne.symm hij]) hr) hstep.1

end Rely

end Sys

end Locked
