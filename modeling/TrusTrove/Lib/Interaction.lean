import Mathlib.Data.List.Basic
import Mathlib.Tactic

/-!
# Runs of asynchronous code

An `AsyncRun` is what code that awaits calls has done so far: the calls with their answers, and
whether it resolved, rejected or still runs. A contract on a run (`Ensures`) speaks of each call and
of the calls and the value of a run that resolved; it composes along `bind`. What must stand before
a call is a condition on the trace's prefixes (`Past`), which composes along append.
-/

namespace Interaction

inductive AsyncOutcome (ε α : Type)
  | resolved (a : α)
  | rejected (e : ε)
  | running
  deriving DecidableEq, Repr

structure AsyncRun (κ ε α : Type) where
  trace : List κ
  outcome : AsyncOutcome ε α

variable {κ ε α β : Type}

namespace AsyncRun

protected def pure (a : α) : AsyncRun κ ε α := ⟨[], .resolved a⟩

protected def bind (r : AsyncRun κ ε α) (f : α → AsyncRun κ ε β) : AsyncRun κ ε β :=
  match r.outcome with
  | .resolved a => ⟨r.trace ++ (f a).trace, (f a).outcome⟩
  | .rejected e => ⟨r.trace, .rejected e⟩
  | .running => ⟨r.trace, .running⟩

instance : Monad (AsyncRun κ ε) where
  pure := AsyncRun.pure
  bind := AsyncRun.bind

def throw (e : ε) : AsyncRun κ ε α := ⟨[], .rejected e⟩

/-- Code that has not got further. -/
def running : AsyncRun κ ε α := ⟨[], .running⟩

/-- A value or error computed without a call. -/
def ofExcept : Except ε α → AsyncRun κ ε α
  | .ok a => pure a
  | .error e => throw e

/-- One call and its answer. -/
def call (c : κ) (answer : Except ε α) : AsyncRun κ ε α :=
  ⟨[c], (ofExcept answer : AsyncRun κ ε α).outcome⟩

/-- `try r catch e => f e` -/
def recover (r : AsyncRun κ ε α) (f : ε → AsyncRun κ ε α) : AsyncRun κ ε α :=
  match r.outcome with
  | .rejected e => ⟨r.trace ++ (f e).trace, (f e).outcome⟩
  | .resolved a => ⟨r.trace, .resolved a⟩
  | .running => ⟨r.trace, .running⟩

/-- The attempts from one on while `again` says so, with `left` to follow and `wait` in between. -/
def retry (again : ε → Bool) (wait : ℕ → κ) (fn : ℕ → AsyncRun κ ε α) :
    (left attempt : ℕ) → AsyncRun κ ε α
  | 0, attempt => fn attempt
  | left + 1, attempt => (fn attempt).recover fun e =>
    if again e then do
      call (wait attempt) (.ok ())
      retry again wait fn left (attempt + 1)
    else throw e

/-- The run as a part of another kind of code. -/
def lift {κ' ε' : Type} (f : κ → κ') (g : ε → ε') (r : AsyncRun κ ε α) : AsyncRun κ' ε' α where
  trace := r.trace.map f
  outcome :=
    match r.outcome with
    | .resolved a => .resolved a
    | .rejected e => .rejected (g e)
    | .running => .running

def Settles (r : AsyncRun κ ε α) : Prop := r.outcome ≠ .running

/-- Every call meets `P`, and calls and value of a run that resolved meet `Q`. -/
structure Ensures (P : κ → Prop) (Q : List κ → α → Prop) (r : AsyncRun κ ε α) : Prop where
  calls : ∀ c ∈ r.trace, P c
  value : ∀ a, r.outcome = .resolved a → Q r.trace a

theorem bind_resolved {r : AsyncRun κ ε α} {f : α → AsyncRun κ ε β} {b : β}
    (h : (r >>= f).outcome = .resolved b) :
    ∃ a, r.outcome = .resolved a ∧ (f a).outcome = .resolved b := by
  change (AsyncRun.bind r f).outcome = _ at h
  unfold AsyncRun.bind at h
  split at h
  · exact ⟨_, ‹_›, h⟩
  · simp at h
  · simp at h

/-- The calls of a sequence: those of its first part, then those of the second if it resolved. -/
theorem bind_trace (r : AsyncRun κ ε α) (f : α → AsyncRun κ ε β) :
    ((∀ a, r.outcome ≠ .resolved a) ∧ (r >>= f).trace = r.trace) ∨
      ∃ a, r.outcome = .resolved a ∧ (r >>= f).trace = r.trace ++ (f a).trace := by
  change (_ ∧ (AsyncRun.bind r f).trace = _) ∨ ∃ a, _ ∧ (AsyncRun.bind r f).trace = _
  unfold AsyncRun.bind
  split
  · exact .inr ⟨_, ‹_›, rfl⟩
  · exact .inl ⟨by simp [*], rfl⟩
  · exact .inl ⟨by simp [*], rfl⟩

theorem bind_of_resolved {r : AsyncRun κ ε α} {a : α} (f : α → AsyncRun κ ε β)
    (h : r.outcome = .resolved a) :
    (r >>= f).trace = r.trace ++ (f a).trace ∧ (r >>= f).outcome = (f a).outcome := by
  change (AsyncRun.bind r f).trace = _ ∧ (AsyncRun.bind r f).outcome = _
  simp [AsyncRun.bind, h]

theorem bind_of_running {r : AsyncRun κ ε α} (f : α → AsyncRun κ ε β) (h : r.outcome = .running) :
    (r >>= f).outcome = .running := by
  change (AsyncRun.bind r f).outcome = _
  simp [AsyncRun.bind, h]

@[simp] theorem trace_pure (a : α) : (pure a : AsyncRun κ ε α).trace = [] := rfl

@[simp] theorem outcome_pure (a : α) : (pure a : AsyncRun κ ε α).outcome = .resolved a := rfl

@[simp] theorem trace_throw (e : ε) : (throw e : AsyncRun κ ε α).trace = [] := rfl

@[simp] theorem outcome_throw (e : ε) : (throw e : AsyncRun κ ε α).outcome = .rejected e := rfl

@[simp] theorem trace_call (c : κ) (x : Except ε α) : (call c x).trace = [c] := rfl

@[simp] theorem trace_ofExcept (x : Except ε α) : (ofExcept x : AsyncRun κ ε α).trace = [] := by
  cases x <;> rfl

theorem outcome_call (c : κ) (x : Except ε α) {a : α} :
    (call c x).outcome = .resolved a ↔ x = .ok a := by
  cases x <;> simp [call, ofExcept]

theorem outcome_ofExcept (x : Except ε α) {a : α} :
    (ofExcept x : AsyncRun κ ε α).outcome = .resolved a ↔ x = .ok a := by
  cases x <;> simp [ofExcept]

section Settles

theorem settles_pure (a : α) : (pure a : AsyncRun κ ε α).Settles := by simp [Settles]

theorem settles_throw (e : ε) : (throw e : AsyncRun κ ε α).Settles := by simp [Settles]

theorem settles_ofExcept (x : Except ε α) : (ofExcept x : AsyncRun κ ε α).Settles := by
  cases x <;> simp [Settles, ofExcept]

theorem settles_call (c : κ) (x : Except ε α) : (call c x).Settles := by
  cases x <;> simp [Settles, call, ofExcept]

theorem settles_bind {r : AsyncRun κ ε α} {f : α → AsyncRun κ ε β} (h : r.Settles)
    (hf : ∀ a, r.outcome = .resolved a → (f a).Settles) : (r >>= f).Settles := by
  change (AsyncRun.bind r f).outcome ≠ _
  unfold AsyncRun.bind
  split
  · exact hf _ ‹_›
  · simp
  · exact absurd ‹_› h

theorem settles_recover {r : AsyncRun κ ε α} {f : ε → AsyncRun κ ε α} (h : r.Settles)
    (hf : ∀ e, (f e).Settles) : (r.recover f).Settles := by
  unfold AsyncRun.recover
  split
  · exact hf _
  · simp [Settles]
  · exact absurd ‹_› h

end Settles

section Ensures

variable {P : κ → Prop} {Q : List κ → α → Prop} {R : List κ → β → Prop}

theorem ensures_pure {a : α} (h : Q [] a) : (pure a : AsyncRun κ ε α).Ensures P Q :=
  ⟨by simp, by simpa using h⟩

theorem ensures_throw (e : ε) : (throw e : AsyncRun κ ε α).Ensures P Q := ⟨by simp, by simp⟩

theorem ensures_ofExcept {x : Except ε α} (h : ∀ a, x = .ok a → Q [] a) :
    (ofExcept x : AsyncRun κ ε α).Ensures P Q :=
  ⟨by simp, fun a ha => by simpa using h a ((outcome_ofExcept x).mp ha)⟩

theorem ensures_call {c : κ} {x : Except ε α} (hc : P c) (h : ∀ a, x = .ok a → Q [c] a) :
    (call c x).Ensures P Q :=
  ⟨by simpa using hc, fun a ha => h a ((outcome_call c x).mp ha)⟩

theorem ensures_bind {r : AsyncRun κ ε α} {f : α → AsyncRun κ ε β} (h : r.Ensures P Q)
    (hf : ∀ l a, Q l a → (f a).Ensures P fun l' b => R (l ++ l') b) :
    (r >>= f).Ensures P R := by
  rcases bind_trace r f with ⟨hno, ht⟩ | ⟨a, ha, ht⟩
  · refine ⟨ht ▸ h.calls, fun b hb => ?_⟩
    obtain ⟨a, ha, -⟩ := bind_resolved hb
    exact absurd ha (hno a)
  · have hfa := hf _ _ (h.value a ha)
    refine ⟨fun c hc => ?_, fun b hb => ?_⟩
    · rw [ht, List.mem_append] at hc
      exact hc.elim (h.calls c) (hfa.calls c)
    · rw [ht]
      rw [(bind_of_resolved f ha).2] at hb
      exact hfa.value b hb

theorem ensures_recover {r : AsyncRun κ ε α} {f : ε → AsyncRun κ ε α} (h : r.Ensures P Q)
    (hf : ∀ e, (f e).Ensures P fun l a => Q (r.trace ++ l) a) : (r.recover f).Ensures P Q := by
  unfold AsyncRun.recover
  split
  · refine ⟨fun c hc => ?_, (hf _).value⟩
    rw [List.mem_append] at hc
    exact hc.elim (h.calls c) ((hf _).calls c)
  · rename_i a ha
    exact ⟨h.calls, fun b hb => h.value b (ha.trans hb)⟩
  · exact ⟨h.calls, by simp⟩

theorem ensures_retry {again : ε → Bool} {wait : ℕ → κ} {fn : ℕ → AsyncRun κ ε α}
    (h : ∀ k, (fn k).Ensures P Q) (hwait : ∀ k, P (wait k))
    (hQ : ∀ l l' a, Q l' a → Q (l ++ l') a) :
    ∀ left attempt, (retry again wait fn left attempt).Ensures P Q
  | 0, attempt => h attempt
  | left + 1, attempt => by
    refine ensures_recover (h attempt) fun e => ?_
    split
    · refine ensures_bind (Q := fun _ _ => True) (ensures_call (hwait attempt) (by simp))
        fun l _ _ => ⟨(ensures_retry h hwait hQ left (attempt + 1)).calls, fun a ha => ?_⟩
      exact hQ _ _ a (hQ l _ a ((ensures_retry h hwait hQ left (attempt + 1)).value a ha))
    · exact ensures_throw e

theorem lift_resolved {κ' ε' : Type} {f : κ → κ'} {g : ε → ε'} {r : AsyncRun κ ε α} {a : α} :
    (r.lift f g).outcome = .resolved a ↔ r.outcome = .resolved a := by
  rcases r with ⟨trace, outcome⟩
  cases outcome <;> simp [lift]

theorem ensures_lift {κ' ε' : Type} {f : κ → κ'} {g : ε → ε'} {P' : κ' → Prop}
    {Q' : List κ' → α → Prop} {r : AsyncRun κ ε α} (h : r.Ensures P Q)
    (hP : ∀ c, P c → P' (f c)) (hQ : ∀ l a, Q l a → Q' (l.map f) a) :
    (r.lift f g).Ensures P' Q' := by
  refine ⟨fun c hc => ?_, fun a ha => hQ _ a (h.value a (lift_resolved.1 ha))⟩
  obtain ⟨d, hd, rfl⟩ := List.mem_map.1 hc
  exact hP d (h.calls d hd)

theorem Ensures.mono {r : AsyncRun κ ε α} {P' : κ → Prop} {Q' : List κ → α → Prop}
    (h : r.Ensures P Q) (hP : ∀ c, P c → P' c) (hQ : ∀ l a, Q l a → Q' l a) : r.Ensures P' Q' :=
  ⟨fun c hc => hP c (h.calls c hc), fun a ha => hQ _ a (h.value a ha)⟩

end Ensures

section Count

variable {p : κ → Bool} {m n : ℕ}

theorem countP_bind_le {r : AsyncRun κ ε α} {f : α → AsyncRun κ ε β} (h : r.trace.countP p ≤ m)
    (hf : ∀ a, r.outcome = .resolved a → (f a).trace.countP p ≤ n) :
    (r >>= f).trace.countP p ≤ m + n := by
  rcases bind_trace r f with ⟨-, ht⟩ | ⟨a, ha, ht⟩
  · rw [ht]
    omega
  · rw [ht, List.countP_append]
    have := hf a ha
    omega

theorem countP_recover_le {r : AsyncRun κ ε α} {f : ε → AsyncRun κ ε α} (h : r.trace.countP p ≤ m)
    (hf : ∀ e, (f e).trace.countP p ≤ n) : (r.recover f).trace.countP p ≤ m + n := by
  unfold AsyncRun.recover
  split
  · rw [List.countP_append]
    have := hf ‹_›
    omega
  · exact h.trans (by omega)
  · exact h.trans (by omega)

end Count

end AsyncRun

/-! ## What stands before an entry of a trace -/

/-- Every entry stands in relation `B` to the entries before it. -/
def Past (B : List κ → κ → Prop) (l : List κ) : Prop :=
  ∀ before c after, l = before ++ c :: after → B before c

section Past

variable {B : List κ → κ → Prop}

theorem past_nil : Past B [] := by
  intro before c after h
  simp at h

theorem past_cons {c : κ} {l : List κ} (hc : B [] c) (hl : Past (fun before => B (c :: before)) l) :
    Past B (c :: l) := by
  intro before d after h
  cases before with
  | nil =>
    simp only [List.nil_append, List.cons.injEq] at h
    rwa [← h.1]
  | cons b before =>
    simp only [List.cons_append, List.cons.injEq] at h
    rw [← h.1]
    exact hl before d after h.2

theorem past_append {l l' : List κ} (hl : Past B l)
    (hl' : Past (fun before => B (l ++ before)) l') :
    Past B (l ++ l') := by
  induction l generalizing B with
  | nil => exact hl'
  | cons c l ih =>
    refine past_cons (hl [] c l rfl) (ih (fun before d after h => ?_) hl')
    exact hl (c :: before) d after (by rw [h, List.cons_append])

theorem Past.left {l l' : List κ} (h : Past B (l ++ l')) : Past B l :=
  fun before c after hl => h before c (after ++ l') (by simp [hl])

theorem past_bind {ε α β : Type} {r : AsyncRun κ ε α} {f : α → AsyncRun κ ε β} (h : Past B r.trace)
    (hf : ∀ a, r.outcome = .resolved a → Past (fun before => B (r.trace ++ before)) (f a).trace) :
    Past B (r >>= f).trace := by
  rcases AsyncRun.bind_trace r f with ⟨-, ht⟩ | ⟨a, ha, ht⟩
  · rwa [ht]
  · rw [ht]
    exact past_append h (hf a ha)

/-- As `past_bind`, where only what the first run ensures is known of it. -/
theorem Past.bind {ε α β : Type} {r : AsyncRun κ ε α} {f : α → AsyncRun κ ε β} {P : κ → Prop}
    {Q : List κ → α → Prop} (h : Past B r.trace) (hr : r.Ensures P Q)
    (hf : ∀ l a, Q l a → Past (fun before => B (l ++ before)) (f a).trace) :
    Past B (r >>= f).trace :=
  past_bind h fun a ha => hf _ a (hr.value a ha)

theorem Past.recover {ε α : Type} {r : AsyncRun κ ε α} {f : ε → AsyncRun κ ε α} (h : Past B r.trace)
    (hf : ∀ e, Past (fun before => B (r.trace ++ before)) (f e).trace) :
    Past B (r.recover f).trace := by
  unfold AsyncRun.recover
  split
  · exact past_append h (hf _)
  · exact h
  · exact h

theorem past_of_forall {l : List κ} (h : ∀ before, ∀ c ∈ l, B before c) : Past B l := by
  intro before c after hl
  exact h before c (by simp [hl])

theorem Past.mono {B' : List κ → κ → Prop} {l : List κ} (h : Past B l)
    (hB : ∀ before c, B before c → B' before c) : Past B' l :=
  fun before c after hl => hB before c (h before c after hl)

end Past

end Interaction
