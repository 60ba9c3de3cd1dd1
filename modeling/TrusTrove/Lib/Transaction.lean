import Mathlib

/-!
# Statements, faults and transactions

A `Prog` is code that issues SQL statements on two connections: its own transaction, whose tables
are `σ`, and the shared pool, whose tables are `π` and whose writes do not wait for the commit.
Every statement may fail, as an oracle over the running count of statements says. A statement that
fails on the transaction aborts it: later statements on it fail too, and so does the commit.

Four kinds of facts are carried through `bind`: a relation every statement respects
(`Respects`), that only a failed statement makes the code fail (`Succeeds`), that without faults it
returns (`Runs`), and that a run which ends unaborted is matched by one without faults (`Mirrors`,
`MirrorsOk`).
-/

namespace Sql

/-- A connection inside a transaction: what the transaction sees, the tables reached through the
pool, whether a failed statement has aborted the transaction, how many statements were issued
before, and whether any of them failed. -/
structure Conn (σ π : Type) where
  work : σ
  shared : π
  aborted : Bool
  tick : ℕ
  failed : Bool

/-- The database between transactions. -/
structure Store (σ π : Type) where
  tables : σ
  shared : π
  tick : ℕ
  failed : Bool

/-- Code that issues statements, under an oracle that says which of them fail. -/
def Prog (σ π ε α : Type) : Type := (ℕ → Bool) → Conn σ π → Except ε α × Conn σ π

/-- The oracle under which no statement fails. -/
def noFaults : ℕ → Bool := fun _ => false

variable {σ π ε α β ν : Type}

namespace Prog

protected def pure (a : α) : Prog σ π ε α := fun _ c => (.ok a, c)

protected def bind (m : Prog σ π ε α) (f : α → Prog σ π ε β) : Prog σ π ε β := fun O c =>
  match m O c with
  | (.ok a, c') => f a O c'
  | (.error e, c') => (.error e, c')

instance : Monad (Prog σ π ε) where
  pure := Prog.pure
  bind := Prog.bind

/-- Return an error without issuing a statement. -/
def fail (e : ε) : Prog σ π ε α := fun _ c => (.error e, c)

/-- A value or error computed without a statement. -/
def ofExcept : Except ε α → Prog σ π ε α
  | .ok a => pure a
  | .error e => fail e

/-- The result of `m`, its error included, as a value. -/
def attempt (m : Prog σ π ε α) : Prog σ π ε (Except ε α) := fun O c =>
  let r := m O c
  (.ok r.1, r.2)

/-- `m` with its error wrapped. -/
def mapError (g : ε → ε) (m : Prog σ π ε α) : Prog σ π ε α := fun O c =>
  let r := m O c
  (r.1.mapError g, r.2)

/-- One statement on the transaction. `f` is what it does, or the constraint it violates; `e` is
the error of a statement that fails for any other reason. -/
def onTx (e : ε) (f : σ → Except ε (α × σ)) : Prog σ π ε α := fun O c =>
  if c.aborted || O c.tick then
    (.error e, { c with aborted := true, tick := c.tick + 1, failed := true })
  else
    match f c.work with
    | .error e' => (.error e', { c with aborted := true, tick := c.tick + 1, failed := true })
    | .ok (a, w) => (.ok a, { c with work := w, tick := c.tick + 1 })

/-- One statement on the pool. -/
def onPool (e : ε) (f : π → Except ε (α × π)) : Prog σ π ε α := fun O c =>
  if O c.tick then (.error e, { c with tick := c.tick + 1, failed := true })
  else
    match f c.shared with
    | .error e' => (.error e', { c with tick := c.tick + 1, failed := true })
    | .ok (a, p) => (.ok a, { c with shared := p, tick := c.tick + 1 })

end Prog

/-- Run `m` in one transaction: roll it back when `m` fails or the commit does. What `m` wrote
through the pool stays either way. -/
def withTx (beginErr commitErr : ε) (m : Prog σ π ε α) (O : ℕ → Bool) (s : Store σ π) :
    Except ε α × Store σ π :=
  if O s.tick then (.error beginErr, { s with tick := s.tick + 1, failed := true })
  else
    let r := m O ⟨s.tables, s.shared, false, s.tick + 1, s.failed⟩
    match r.1 with
    | .error e => (.error e, ⟨s.tables, r.2.shared, r.2.tick, r.2.failed⟩)
    | .ok a =>
      if r.2.aborted || O r.2.tick then
        (.error commitErr, ⟨s.tables, r.2.shared, r.2.tick + 1, true⟩)
      else (.ok a, ⟨r.2.work, r.2.shared, r.2.tick + 1, r.2.failed⟩)

/-- Run `m` on the pool, for code that issues no statement after one that failed: each statement is
its own transaction. -/
def autocommit (m : Prog σ π ε α) (O : ℕ → Bool) (s : Store σ π) : Except ε α × Store σ π :=
  let r := m O ⟨s.tables, s.shared, false, s.tick, s.failed⟩
  (r.1, ⟨r.2.work, r.2.shared, r.2.tick, r.2.failed⟩)

section Bind

variable {O : ℕ → Bool} {c c' : Conn σ π} {a : α} {e : ε}

@[simp]
theorem pure_run (a : α) (O : ℕ → Bool) (c : Conn σ π) :
    (pure a : Prog σ π ε α) O c = (.ok a, c) := rfl

@[simp]
theorem fail_run (e : ε) (O : ℕ → Bool) (c : Conn σ π) :
    (Prog.fail e : Prog σ π ε α) O c = (.error e, c) := rfl

theorem bind_run (m : Prog σ π ε α) (f : α → Prog σ π ε β) (O : ℕ → Bool) (c : Conn σ π) :
    (m >>= f) O c = match m O c with
      | (.ok a, c') => f a O c'
      | (.error e, c') => (.error e, c') := rfl

theorem bind_run_ok {m : Prog σ π ε α} (f : α → Prog σ π ε β) (h : m O c = (.ok a, c')) :
    (m >>= f) O c = f a O c' := by
  rw [bind_run, h]

theorem bind_run_error {m : Prog σ π ε α} (f : α → Prog σ π ε β) (h : m O c = (.error e, c')) :
    (m >>= f) O c = (.error e, c') := by
  rw [bind_run, h]

/-- A bind that returns took both steps. -/
theorem bind_ok {m : Prog σ π ε α} {f : α → Prog σ π ε β} {b : β} {c₂ : Conn σ π}
    (h : (m >>= f) O c = (.ok b, c₂)) : ∃ a c₁, m O c = (.ok a, c₁) ∧ f a O c₁ = (.ok b, c₂) := by
  rw [bind_run] at h
  rcases hm : m O c with ⟨e | a, c₁⟩ <;> rw [hm] at h
  · simp at h
  · exact ⟨a, c₁, rfl, h⟩

@[simp]
theorem ofExcept_run (r : Except ε α) (O : ℕ → Bool) (c : Conn σ π) :
    (Prog.ofExcept r : Prog σ π ε α) O c = (r, c) := by
  cases r <;> rfl

theorem ofExcept_ok_bind (a : α) (f : α → Prog σ π ε β) : (Prog.ofExcept (.ok a) >>= f) = f a := by
  funext O c
  rw [bind_run_ok f (ofExcept_run (.ok a) O c)]

theorem ofExcept_bind_ok {r : Except ε α} {f : α → Prog σ π ε β} {b : β} {c₂ : Conn σ π}
    (h : (Prog.ofExcept r >>= f) O c = (.ok b, c₂)) : ∃ a, r = .ok a ∧ f a O c = (.ok b, c₂) := by
  obtain ⟨a, c₁, hr, hf⟩ := bind_ok h
  rw [ofExcept_run, Prod.mk.injEq] at hr
  obtain ⟨rfl, rfl⟩ := hr
  exact ⟨a, rfl, hf⟩

@[simp]
theorem attempt_run (m : Prog σ π ε α) (O : ℕ → Bool) (c : Conn σ π) :
    m.attempt O c = (.ok (m O c).1, (m O c).2) := rfl

@[simp]
theorem mapError_run (g : ε → ε) (m : Prog σ π ε α) (O : ℕ → Bool) (c : Conn σ π) :
    m.mapError g O c = ((m O c).1.mapError g, (m O c).2) := rfl

theorem mapError_eq_ok {g : ε → ε} {r : Except ε α} {a : α} :
    r.mapError g = .ok a ↔ r = .ok a := by
  cases r <;> simp [Except.mapError]

theorem mapError_ok {g : ε → ε} {m : Prog σ π ε α} (h : m.mapError g O c = (.ok a, c')) :
    m O c = (.ok a, c') := by
  rw [mapError_run, Prod.mk.injEq, mapError_eq_ok] at h
  exact Prod.ext h.1 h.2

end Bind

section Statement

variable {O : ℕ → Bool} {c : Conn σ π} {a : α} {e : ε}

/-- A statement on the transaction fails and aborts it, or does what it says. -/
theorem onTx_cases (e : ε) (f : σ → Except ε (α × σ)) (O : ℕ → Bool) (c : Conn σ π) :
    (∃ e' c', Prog.onTx e f O c = (.error e', c') ∧ c'.work = c.work ∧ c'.shared = c.shared
        ∧ c'.aborted = true ∧ c'.failed = true)
      ∨ ∃ a w, f c.work = .ok (a, w) ∧ c.aborted = false ∧ O c.tick = false
        ∧ Prog.onTx e f O c = (.ok a, { c with work := w, tick := c.tick + 1 }) := by
  unfold Prog.onTx
  split_ifs with h
  · exact .inl ⟨_, _, rfl, rfl, rfl, rfl, rfl⟩
  · rw [Bool.not_eq_true, Bool.or_eq_false_iff] at h
    rcases hf : f c.work with e' | ⟨a, w⟩
    · exact .inl ⟨_, _, rfl, rfl, rfl, rfl, rfl⟩
    · exact .inr ⟨a, w, rfl, h.1, h.2, rfl⟩

/-- A statement on the pool fails, or does what it says; the transaction does not notice. -/
theorem onPool_cases (e : ε) (f : π → Except ε (α × π)) (O : ℕ → Bool) (c : Conn σ π) :
    (∃ e' c', Prog.onPool e f O c = (.error e', c') ∧ c'.work = c.work ∧ c'.shared = c.shared
        ∧ c'.aborted = c.aborted ∧ c'.failed = true)
      ∨ ∃ a p, f c.shared = .ok (a, p) ∧ O c.tick = false
        ∧ Prog.onPool e f O c = (.ok a, { c with shared := p, tick := c.tick + 1 }) := by
  unfold Prog.onPool
  split_ifs with h
  · exact .inl ⟨_, _, rfl, rfl, rfl, rfl, rfl⟩
  · rcases hf : f c.shared with e' | ⟨a, p⟩
    · exact .inl ⟨_, _, rfl, rfl, rfl, rfl, rfl⟩
    · exact .inr ⟨a, p, rfl, by simpa using h, rfl⟩

theorem onTx_ok {f : σ → Except ε (α × σ)} {c' : Conn σ π} (h : Prog.onTx e f O c = (.ok a, c')) :
    ∃ w, f c.work = .ok (a, w) ∧ c' = { c with work := w, tick := c.tick + 1 } := by
  rcases onTx_cases e f O c with ⟨e', c₁, hr, -⟩ | ⟨b, w, hw, -, -, hr⟩ <;> rw [hr] at h
  · cases h
  · cases h
    exact ⟨w, hw, rfl⟩

theorem onPool_ok {f : π → Except ε (α × π)} {c' : Conn σ π}
    (h : Prog.onPool e f O c = (.ok a, c')) :
    ∃ p, f c.shared = .ok (a, p) ∧ c' = { c with shared := p, tick := c.tick + 1 } := by
  rcases onPool_cases e f O c with ⟨e', c₁, hr, -⟩ | ⟨b, p, hp, -, hr⟩ <;> rw [hr] at h
  · cases h
  · cases h
    exact ⟨p, hp, rfl⟩

theorem onTx_run (e : ε) {f : σ → Except ε (α × σ)} {w : σ} (hO : O c.tick = false)
    (hc : c.aborted = false) (hf : f c.work = .ok (a, w)) :
    Prog.onTx e f O c = (.ok a, { c with work := w, tick := c.tick + 1 }) := by
  simp [Prog.onTx, hO, hc, hf]

theorem onTx_failed (e : ε) (f : σ → Except ε (α × σ)) (hO : O c.tick = true) :
    Prog.onTx e f O c
      = (.error e, { c with aborted := true, tick := c.tick + 1, failed := true }) := by
  simp [Prog.onTx, hO]

theorem onPool_run (e : ε) {f : π → Except ε (α × π)} {p : π} (hO : O c.tick = false)
    (hf : f c.shared = .ok (a, p)) :
    Prog.onPool e f O c = (.ok a, { c with shared := p, tick := c.tick + 1 }) := by
  simp [Prog.onPool, hO, hf]

end Statement

section Respects

/-- Whatever fails, the tables a run leaves are related to those it found, and so are the tables
reached through the pool. -/
def Respects (R : σ → σ → Prop) (Q : π → π → Prop) (m : Prog σ π ε α) : Prop := ∀ O c,
  R c.work (m O c).2.work ∧ Q c.shared (m O c).2.shared

theorem Respects.mono {R R' : σ → σ → Prop} {Q : π → π → Prop} {m : Prog σ π ε α} (h : R ≤ R')
    (hm : Respects R Q m) : Respects R' Q m := fun O c => ⟨h _ _ (hm O c).1, (hm O c).2⟩

variable {R : σ → σ → Prop} {Q : π → π → Prop} [Std.Refl R] [IsTrans σ R] [Std.Refl Q] [IsTrans π Q]

omit [IsTrans σ R] [IsTrans π Q] in
theorem Respects.pure (a : α) : Respects R Q (pure a : Prog σ π ε α) :=
  fun _ c => ⟨refl_of R c.work, refl_of Q c.shared⟩

omit [IsTrans σ R] [IsTrans π Q] in
theorem Respects.fail (e : ε) : Respects R Q (Prog.fail e : Prog σ π ε α) :=
  fun _ c => ⟨refl_of R c.work, refl_of Q c.shared⟩

omit [IsTrans σ R] [IsTrans π Q] in
theorem Respects.ofExcept (r : Except ε α) : Respects R Q (Prog.ofExcept r : Prog σ π ε α) := by
  cases r with
  | ok a => exact .pure a
  | error e => exact .fail e

omit [Std.Refl R] [Std.Refl Q] in
theorem Respects.bind {m : Prog σ π ε α} {f : α → Prog σ π ε β} (hm : Respects R Q m)
    (hf : ∀ a, Respects R Q (f a)) : Respects R Q (m >>= f) := by
  intro O c
  have h₁ := hm O c
  rw [bind_run]
  rcases hr : m O c with ⟨e | a, c₁⟩ <;> rw [hr] at h₁
  · exact h₁
  · obtain ⟨h₂, h₃⟩ := hf a O c₁
    exact ⟨trans_of R h₁.1 h₂, trans_of Q h₁.2 h₃⟩

omit [Std.Refl R] [IsTrans σ R] [Std.Refl Q] [IsTrans π Q] in
theorem Respects.attempt {m : Prog σ π ε α} (hm : Respects R Q m) : Respects R Q m.attempt := hm

omit [Std.Refl R] [IsTrans σ R] [Std.Refl Q] [IsTrans π Q] in
theorem Respects.mapError {m : Prog σ π ε α} (g : ε → ε) (hm : Respects R Q m) :
    Respects R Q (m.mapError g) := hm

omit [IsTrans σ R] [IsTrans π Q] in
theorem Respects.onTx (e : ε) {f : σ → Except ε (α × σ)}
    (hf : ∀ w a w', f w = .ok (a, w') → R w w') :
    Respects R Q (Prog.onTx e f : Prog σ π ε α) := by
  intro O c
  rcases onTx_cases e f O c with ⟨e', c', h, hw, hs, -⟩ | ⟨a, w, hw, -, -, h⟩ <;> rw [h]
  · simp only [hw, hs]
    exact ⟨refl_of R c.work, refl_of Q c.shared⟩
  · exact ⟨hf _ _ _ hw, refl_of Q c.shared⟩

omit [IsTrans σ R] [IsTrans π Q] in
theorem Respects.onPool (e : ε) {f : π → Except ε (α × π)}
    (hf : ∀ p a p', f p = .ok (a, p') → Q p p') :
    Respects R Q (Prog.onPool e f : Prog σ π ε α) := by
  intro O c
  rcases onPool_cases e f O c with ⟨e', c', h, hw, hs, -⟩ | ⟨a, p, hp, -, h⟩ <;> rw [h]
  · simp only [hw, hs]
    exact ⟨refl_of R c.work, refl_of Q c.shared⟩
  · exact ⟨refl_of R c.work, hf _ _ _ hp⟩

omit [IsTrans σ R] [IsTrans π Q] in
theorem Respects.withTx {m : Prog σ π ε α} (hm : Respects R Q m) (eb ec : ε) (O : ℕ → Bool)
    (s : Store σ π) :
    R s.tables (withTx eb ec m O s).2.tables ∧ Q s.shared (withTx eb ec m O s).2.shared := by
  unfold Sql.withTx
  split_ifs
  · exact ⟨refl_of R s.tables, refl_of Q s.shared⟩
  · have h := hm O ⟨s.tables, s.shared, false, s.tick + 1, s.failed⟩
    simp only []
    split
    · exact ⟨refl_of R s.tables, h.2⟩
    · split_ifs
      · exact ⟨refl_of R s.tables, h.2⟩
      · exact h

end Respects

section Succeeds

/-- A run in which no statement failed returns a value. -/
def Succeeds (m : Prog σ π ε α) : Prop := ∀ O c, (m O c).2.failed = false → ∃ a, (m O c).1 = .ok a

theorem Succeeds.pure (a : α) : Succeeds (pure a : Prog σ π ε α) := fun _ _ _ => ⟨a, rfl⟩

/-- Nothing of a run that goes on past `m` failed, so `m` returned a value. -/
theorem Succeeds.run_bind {m : Prog σ π ε α} {f : α → Prog σ π ε β} (hm : Succeeds m)
    {O : ℕ → Bool} {c : Conn σ π} (h : ((m >>= f) O c).2.failed = false) :
    ∃ a c₁, m O c = (.ok a, c₁) := by
  rw [bind_run] at h
  rcases hr : m O c with ⟨e | a, c₁⟩ <;> rw [hr] at h
  · obtain ⟨a, ha⟩ := hm O c (by rw [hr]; exact h)
    rw [hr] at ha
    simp at ha
  · exact ⟨a, c₁, rfl⟩

theorem Succeeds.bind {m : Prog σ π ε α} {f : α → Prog σ π ε β} (hm : Succeeds m)
    (hf : ∀ a, Succeeds (f a)) : Succeeds (m >>= f) := by
  intro O c h
  obtain ⟨a, c₁, hr⟩ := hm.run_bind h
  rw [bind_run_ok _ hr] at h ⊢
  exact hf a O c₁ h

theorem Succeeds.attempt (m : Prog σ π ε α) : Succeeds m.attempt := fun _ _ _ => ⟨_, rfl⟩

theorem Succeeds.mapError {m : Prog σ π ε α} (g : ε → ε) (hm : Succeeds m) :
    Succeeds (m.mapError g) := by
  intro O c h
  obtain ⟨a, ha⟩ := hm O c h
  exact ⟨a, by rw [mapError_run, ha]; rfl⟩

theorem Succeeds.onTx (e : ε) (f : σ → Except ε (α × σ)) :
    Succeeds (Prog.onTx e f : Prog σ π ε α) := by
  intro O c h
  rcases onTx_cases e f O c with ⟨e', c', hr, -, -, -, hf⟩ | ⟨a, w, -, -, -, hr⟩
  · rw [hr] at h
    simp [hf] at h
  · exact ⟨a, by rw [hr]⟩

theorem Succeeds.onPool (e : ε) (f : π → Except ε (α × π)) :
    Succeeds (Prog.onPool e f : Prog σ π ε α) := by
  intro O c h
  rcases onPool_cases e f O c with ⟨e', c', hr, -, -, -, hf⟩ | ⟨a, p, -, -, hr⟩
  · rw [hr] at h
    simp [hf] at h
  · exact ⟨a, by rw [hr]⟩

end Succeeds

section Runs

/-- Without faults, a run on an unaborted transaction returns a value and leaves it unaborted. -/
def Runs (m : Prog σ π ε α) : Prop := ∀ c, c.aborted = false →
  ∃ a c', m noFaults c = (.ok a, c') ∧ c'.aborted = false

theorem Runs.pure (a : α) : Runs (pure a : Prog σ π ε α) := fun c hc => ⟨a, c, rfl, hc⟩

theorem Runs.bind_of {P : α → Prop} {m : Prog σ π ε α} {f : α → Prog σ π ε β} (hm : Runs m)
    (hP : ∀ O c a, (m O c).1 = .ok a → P a) (hf : ∀ a, P a → Runs (f a)) : Runs (m >>= f) := by
  intro c hc
  obtain ⟨a, c₁, h₁, hc₁⟩ := hm c hc
  obtain ⟨b, c₂, h₂, hc₂⟩ := hf a (hP noFaults c a (congrArg Prod.fst h₁)) c₁ hc₁
  exact ⟨b, c₂, (bind_run_ok f h₁).trans h₂, hc₂⟩

theorem Runs.bind {m : Prog σ π ε α} {f : α → Prog σ π ε β} (hm : Runs m) (hf : ∀ a, Runs (f a)) :
    Runs (m >>= f) :=
  hm.bind_of (P := fun _ => True) (fun _ _ _ _ => trivial) fun a _ => hf a

theorem Runs.attempt {m : Prog σ π ε α} (hm : Runs m) : Runs m.attempt := by
  intro c hc
  obtain ⟨a, c₁, h₁, hc₁⟩ := hm c hc
  exact ⟨.ok a, c₁, by rw [attempt_run, h₁], hc₁⟩

theorem Runs.mapError {m : Prog σ π ε α} (g : ε → ε) (hm : Runs m) : Runs (m.mapError g) := by
  intro c hc
  obtain ⟨a, c₁, h₁, hc₁⟩ := hm c hc
  exact ⟨a, c₁, by rw [mapError_run, h₁]; rfl, hc₁⟩

theorem Runs.onTx (e : ε) {f : σ → Except ε (α × σ)} (hf : ∀ w, ∃ a w', f w = .ok (a, w')) :
    Runs (Prog.onTx e f : Prog σ π ε α) := by
  intro c hc
  obtain ⟨a, w, hw⟩ := hf c.work
  exact ⟨a, _, onTx_run e rfl hc hw, hc⟩

theorem Runs.onPool (e : ε) {f : π → Except ε (α × π)} (hf : ∀ p, ∃ a p', f p = .ok (a, p')) :
    Runs (Prog.onPool e f : Prog σ π ε α) := by
  intro c hc
  obtain ⟨a, p, hp⟩ := hf c.shared
  exact ⟨a, _, onPool_run e rfl hp, hc⟩

end Runs

section Mirrors

variable {μ : Type} (u : σ → μ) (v : π → ν)

/-- `c'` shows the transaction what `c` does: the same view of its tables and of the pool's,
unaborted. -/
def Alike (c c' : Conn σ π) : Prop :=
  u c'.work = u c.work ∧ c'.aborted = false ∧ v c'.shared = v c.shared

/-- A run of `m` that ends unaborted started so, and `m'` without faults, from a like connection,
returns what it returned and leaves a like one. -/
def Mirrors (m m' : Prog σ π ε α) : Prop := ∀ O c, (m O c).2.aborted = false →
  c.aborted = false ∧ ∀ c', Alike u v c c' →
    (m' noFaults c').1 = (m O c).1 ∧ Alike u v (m O c).2 (m' noFaults c').2

/-- The same of the runs that return a value. -/
def MirrorsOk (m m' : Prog σ π ε α) : Prop := ∀ O c a, (m O c).1 = .ok a →
  (m O c).2.aborted = false → c.aborted = false ∧ ∀ c', Alike u v c c' →
    (m' noFaults c').1 = .ok a ∧ Alike u v (m O c).2 (m' noFaults c').2

variable {u v}

theorem Mirrors.toOk {m m' : Prog σ π ε α} (h : Mirrors u v m m') : MirrorsOk u v m m' := by
  intro O c a ha hc
  obtain ⟨h₁, h₂⟩ := h O c hc
  exact ⟨h₁, fun c' hc' => ⟨(h₂ c' hc').1.trans ha, (h₂ c' hc').2⟩⟩

theorem Mirrors.pure (a : α) : Mirrors u v (pure a : Prog σ π ε α) (pure a) :=
  fun _ _ hc => ⟨hc, fun _ h => ⟨rfl, h⟩⟩

theorem Mirrors.fail (e : ε) : Mirrors u v (Prog.fail e : Prog σ π ε α) (Prog.fail e) :=
  fun _ _ hc => ⟨hc, fun _ h => ⟨rfl, h⟩⟩

theorem Mirrors.ofExcept (r : Except ε α) :
    Mirrors u v (Prog.ofExcept r : Prog σ π ε α) (Prog.ofExcept r) := by
  cases r with
  | ok a => exact .pure a
  | error e => exact .fail e

theorem Mirrors.bind {m m' : Prog σ π ε α} {f f' : α → Prog σ π ε β} (hm : Mirrors u v m m')
    (hf : ∀ a, Mirrors u v (f a) (f' a)) : Mirrors u v (m >>= f) (m' >>= f') := by
  intro O c hc
  rw [bind_run] at hc ⊢
  rcases hr : m O c with ⟨e | a, c₁⟩ <;> rw [hr] at hc
  · obtain ⟨h₁, h₂⟩ := hm O c (by rw [hr]; exact hc)
    refine ⟨h₁, fun c' hc' => ?_⟩
    obtain ⟨h₃, h₄⟩ := h₂ c' hc'
    rw [hr] at h₄
    have h₅ : (m' noFaults c').1 = .error e := h₃.trans (by rw [hr])
    rw [bind_run_error f' (Prod.ext h₅ rfl)]
    exact ⟨rfl, h₄⟩
  · obtain ⟨h₅, h₆⟩ := hf a O c₁ hc
    obtain ⟨h₁, h₂⟩ := hm O c (by rw [hr]; exact h₅)
    refine ⟨h₁, fun c' hc' => ?_⟩
    obtain ⟨h₃, h₄⟩ := h₂ c' hc'
    rw [hr] at h₄
    have h₇ : (m' noFaults c').1 = .ok a := h₃.trans (by rw [hr])
    rw [bind_run_ok f' (Prod.ext h₇ rfl)]
    exact h₆ _ h₄

/-- A bind whose first step returns only values that satisfy `P`. -/
theorem MirrorsOk.bind {m m' : Prog σ π ε α} {f f' : α → Prog σ π ε β} {P : α → Prop}
    (hm : MirrorsOk u v m m') (hP : ∀ O c a, (m O c).1 = .ok a → P a)
    (hf : ∀ a, P a → MirrorsOk u v (f a) (f' a)) : MirrorsOk u v (m >>= f) (m' >>= f') := by
  intro O c b hb hc
  obtain ⟨a, c₁, hr, hfa⟩ := bind_ok (Prod.ext hb rfl)
  rw [bind_run_ok f hr] at hb hc ⊢
  obtain ⟨h₅, h₆⟩ := hf a (hP O c a (by rw [hr])) O c₁ b hb hc
  obtain ⟨h₁, h₂⟩ := hm O c a (by rw [hr]) (by rw [hr]; exact h₅)
  refine ⟨h₁, fun c' hc' => ?_⟩
  obtain ⟨h₃, h₄⟩ := h₂ c' hc'
  rw [hr] at h₄
  rw [bind_run_ok f' (Prod.ext h₃ rfl)]
  exact h₆ _ h₄

theorem Mirrors.attempt {m m' : Prog σ π ε α} (hm : Mirrors u v m m') :
    Mirrors u v m.attempt m'.attempt := by
  intro O c hc
  obtain ⟨h₁, h₂⟩ := hm O c hc
  refine ⟨h₁, fun c' hc' => ?_⟩
  obtain ⟨h₃, h₄⟩ := h₂ c' hc'
  exact ⟨congrArg Except.ok h₃, h₄⟩

theorem Mirrors.mapError {m m' : Prog σ π ε α} (g : ε → ε) (hm : Mirrors u v m m') :
    Mirrors u v (m.mapError g) (m'.mapError g) := by
  intro O c hc
  obtain ⟨h₁, h₂⟩ := hm O c hc
  refine ⟨h₁, fun c' hc' => ?_⟩
  obtain ⟨h₃, h₄⟩ := h₂ c' hc'
  exact ⟨congrArg (Except.mapError g) h₃, h₄⟩

theorem MirrorsOk.mapError {m m' : Prog σ π ε α} (g : ε → ε) (hm : MirrorsOk u v m m') :
    MirrorsOk u v (m.mapError g) (m'.mapError g) := by
  intro O c a ha hc
  obtain ⟨h₁, h₂⟩ := hm O c a (mapError_eq_ok.1 ha) hc
  refine ⟨h₁, fun c' hc' => ?_⟩
  obtain ⟨h₃, h₄⟩ := h₂ c' hc'
  exact ⟨mapError_eq_ok.2 h₃, h₄⟩

/-- A statement that does to the view of its tables what the other does. -/
theorem Mirrors.onTx (e : ε) {f f' : σ → Except ε (α × σ)}
    (hf : ∀ w w', u w' = u w → ∀ a x, f w = .ok (a, x) → ∃ x', f' w' = .ok (a, x') ∧ u x' = u x) :
    Mirrors u v (Prog.onTx e f : Prog σ π ε α) (Prog.onTx e f') := by
  intro O c hc
  rcases onTx_cases e f O c with ⟨e', c', hr, -, -, ha, -⟩ | ⟨a, w, hw, ha, -, hr⟩
  · rw [hr] at hc
    simp [ha] at hc
  · refine ⟨ha, fun c' hc' => ?_⟩
    obtain ⟨x, hx, hu⟩ := hf _ _ hc'.1 _ _ hw
    rw [onTx_run e rfl hc'.2.1 hx, hr]
    exact ⟨rfl, hu, hc'.2.1, hc'.2.2⟩

/-- A read through the pool of the view alone. -/
theorem MirrorsOk.onPool (e : ε) {f : π → Except ε (α × π)}
    (hf : ∀ p p', v p' = v p → ∀ a q, f p = .ok (a, q) → ∃ q', f p' = .ok (a, q') ∧ v q' = v q) :
    MirrorsOk u v (Prog.onPool e f : Prog σ π ε α) (Prog.onPool e f) := by
  intro O c a ha hc
  rcases onPool_cases e f O c with ⟨e', c', hr, -⟩ | ⟨b, p, hp, -, hr⟩
  · rw [hr] at ha
    simp at ha
  · rw [hr] at ha hc ⊢
    cases ha
    refine ⟨hc, fun c' hc' => ?_⟩
    obtain ⟨q, hq, hv⟩ := hf _ _ hc'.2.2 _ _ hp
    rw [onPool_run e rfl hq]
    exact ⟨rfl, hc'.1, hc'.2.1, hv⟩

/-- Work on the pool alone, that leaves the view as it was. -/
def PoolOnly (v : π → ν) (m : Prog σ π ε α) : Prop := ∀ O c, (m O c).2.work = c.work
  ∧ (m O c).2.aborted = c.aborted ∧ v (m O c).2.shared = v c.shared

theorem PoolOnly.ofExcept (r : Except ε α) : PoolOnly v (Prog.ofExcept r : Prog σ π ε α) := by
  intro O c
  rw [ofExcept_run]
  exact ⟨rfl, rfl, rfl⟩

theorem PoolOnly.bind {m : Prog σ π ε α} {f : α → Prog σ π ε β} (hm : PoolOnly v m)
    (hf : ∀ a, PoolOnly v (f a)) : PoolOnly v (m >>= f) := by
  intro O c
  have h₁ := hm O c
  rw [bind_run]
  rcases hr : m O c with ⟨e | a, c₁⟩ <;> rw [hr] at h₁
  · exact h₁
  · obtain ⟨h₂, h₃, h₄⟩ := hf a O c₁
    exact ⟨h₂.trans h₁.1, h₃.trans h₁.2.1, h₄.trans h₁.2.2⟩

theorem PoolOnly.mapError {m : Prog σ π ε α} (g : ε → ε) (hm : PoolOnly v m) :
    PoolOnly v (m.mapError g) := hm

theorem PoolOnly.onPool (e : ε) {f : π → Except ε (α × π)}
    (hf : ∀ p a p', f p = .ok (a, p') → v p' = v p) :
    PoolOnly v (Prog.onPool e f : Prog σ π ε α) := by
  intro O c
  rcases onPool_cases e f O c with ⟨e', c', h, hw, hs, ha, -⟩ | ⟨a, p, hp, -, h⟩ <;> rw [h]
  · exact ⟨hw, ha, congrArg v hs⟩
  · exact ⟨rfl, rfl, hf _ _ _ hp⟩

/-- Work on the pool whose result is dropped does not show. -/
theorem Mirrors.dropped {m m' : Prog σ π ε α} (hm : PoolOnly v m) (hm' : PoolOnly v m') :
    Mirrors u v (m.attempt >>= fun _ => (Pure.pure () : Prog σ π ε Unit))
      (m'.attempt >>= fun _ => Pure.pure ()) := by
  intro O c hc
  obtain ⟨h₁, h₂, h₃⟩ := hm O c
  refine ⟨h₂ ▸ hc, fun c' hc' => ⟨rfl, ?_⟩⟩
  obtain ⟨h₄, h₅, h₆⟩ := hm' noFaults c'
  exact ⟨(congrArg u h₄).trans (hc'.1.trans (congrArg u h₁).symm), h₅.trans hc'.2.1,
    h₆.trans (hc'.2.2.trans h₃.symm)⟩

end Mirrors

section WithTx

variable {m : Prog σ π ε α} {O : ℕ → Bool} {s : Store σ π} {eb ec : ε}

/-- A transaction that fails leaves its tables as they were. -/
theorem withTx_error {e : ε} (h : (withTx eb ec m O s).1 = .error e) :
    (withTx eb ec m O s).2.tables = s.tables := by
  unfold withTx at h ⊢
  split_ifs at h ⊢ with h₁
  · rfl
  · simp only [] at h ⊢
    split at h
    · rfl
    · split_ifs at h with h₂
      · rw [if_pos h₂]

/-- A body that leaves the pool's tables alone does so in its transaction. -/
theorem withTx_shared
    (h : (m O ⟨s.tables, s.shared, false, s.tick + 1, s.failed⟩).2.shared = s.shared) :
    (withTx eb ec m O s).2.shared = s.shared := by
  unfold withTx
  split_ifs
  · rfl
  · simp only []
    split
    · exact h
    · split_ifs <;> exact h

/-- A body that fails makes its transaction fail, and what it wrote through the pool stays. -/
theorem withTx_failed {e : ε} {c : Conn σ π} (hO : O s.tick = false)
    (h : m O ⟨s.tables, s.shared, false, s.tick + 1, s.failed⟩ = (.error e, c)) :
    withTx eb ec m O s = (.error e, ⟨s.tables, c.shared, c.tick, c.failed⟩) := by
  simp [withTx, hO, h]

/-- A transaction that returns ran `m` to its end unaborted and committed what it wrote. -/
theorem withTx_ok {a : α} (h : (withTx eb ec m O s).1 = .ok a) :
    ∃ c, m O ⟨s.tables, s.shared, false, s.tick + 1, s.failed⟩ = (.ok a, c) ∧ c.aborted = false
      ∧ withTx eb ec m O s = (.ok a, ⟨c.work, c.shared, c.tick + 1, c.failed⟩) := by
  unfold withTx at h ⊢
  split_ifs at h ⊢ with h₁
  simp only [] at h ⊢
  split at h
  · simp at h
  · rename_i b hb
    split_ifs at h with h₂
    cases h
    rw [Bool.not_eq_true, Bool.or_eq_false_iff] at h₂
    refine ⟨_, Prod.ext hb rfl, h₂.1, ?_⟩
    simp [h₂]

/-- The transaction without faults, from its body's run. -/
theorem withTx_run {a : α} {c : Conn σ π}
    (h : m noFaults ⟨s.tables, s.shared, false, s.tick + 1, s.failed⟩ = (.ok a, c))
    (hc : c.aborted = false) :
    withTx eb ec m noFaults s = (.ok a, ⟨c.work, c.shared, c.tick + 1, c.failed⟩) := by
  simp [withTx, noFaults] at h ⊢
  simp [h, hc]

/-- A transaction that returns is mirrored by one without faults. -/
theorem MirrorsOk.withTx {μ : Type} {u : σ → μ} {v : π → ν} {m' : Prog σ π ε α}
    (hm : MirrorsOk u v m m') {a : α} (h : (withTx eb ec m O s).1 = .ok a) {s' : Store σ π}
    (ht : u s'.tables = u s.tables) (hv : v s'.shared = v s.shared) :
    (Sql.withTx eb ec m' noFaults s').1 = .ok a
      ∧ u (Sql.withTx eb ec m' noFaults s').2.tables = u (Sql.withTx eb ec m O s).2.tables
      ∧ v (Sql.withTx eb ec m' noFaults s').2.shared = v (Sql.withTx eb ec m O s).2.shared := by
  obtain ⟨c, hc, hca, hr⟩ := withTx_ok h
  obtain ⟨-, h₂⟩ := hm O _ a (by rw [hc]) (by rw [hc]; exact hca)
  obtain ⟨h₃, h₄, h₅, h₆⟩ := h₂ ⟨s'.tables, s'.shared, false, s'.tick + 1, s'.failed⟩ ⟨ht, rfl, hv⟩
  rw [hc] at h₄ h₆
  rw [withTx_run (Prod.ext h₃ rfl) h₅, hr]
  exact ⟨rfl, h₄, h₆⟩

end WithTx

end Sql
