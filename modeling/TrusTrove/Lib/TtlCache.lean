import Mathlib.Logic.Function.Basic
import Mathlib.Tactic.Linarith

/-!
# Caches whose items expire

An item is stored with the time it expires. Of a cache that is only written by storing for a fixed
time to live and by deleting, a lookup that finds an item unexpired finds what was stored less than
that time ago (`Backed.fresh`), however stores and deletions are interleaved with it.
-/

namespace TtlCache

/-- A value, and when it expires. -/
structure Item (β : Type) where
  value : β
  expiration : ℤ
  deriving DecidableEq, Repr

abbrev Cache (κ β : Type) := κ → Option (Item β)

variable {κ β : Type} [DecidableEq κ] {ttl : ℤ} {P Q : κ → β → ℤ → Prop} {c : Cache κ β}

def Item.expired (item : Item β) (now : ℤ) : Bool := item.expiration ≤ now

/-- `P k v t`: `v` was stored under `k` at `t`. -/
def Item.Backed (ttl : ℤ) (P : κ → β → ℤ → Prop) (k : κ) (item : Item β) : Prop :=
  P k item.value (item.expiration - ttl)

/-- What the cache holds has been stored. -/
def Backed (ttl : ℤ) (P : κ → β → ℤ → Prop) (c : Cache κ β) : Prop :=
  ∀ k item, c k = some item → item.Backed ttl P k

omit [DecidableEq κ] in
theorem Item.Backed.fresh {k : κ} {item : Item β} {now : ℤ} (h : item.Backed ttl P k)
    (hlive : item.expired now = false) : ∃ t, P k item.value t ∧ now < t + ttl := by
  refine ⟨item.expiration - ttl, h, ?_⟩
  simp only [Item.expired, decide_eq_false_iff_not, not_le] at hlive
  linarith

omit [DecidableEq κ] in
theorem Backed.empty : Backed ttl P (fun _ => none : Cache κ β) := by
  intro k item h
  cases h

omit [DecidableEq κ] in
theorem Backed.mono (h : Backed ttl P c) (hPQ : ∀ k v t, P k v t → Q k v t) : Backed ttl Q c :=
  fun k item hitem => hPQ _ _ _ (h k item hitem)

theorem Backed.delete (h : Backed ttl P c) (k : κ) : Backed ttl P (Function.update c k none) := by
  intro k' item hitem
  rcases eq_or_ne k' k with rfl | hne
  · rw [Function.update_self] at hitem
    cases hitem
  · rw [Function.update_of_ne hne] at hitem
    exact h k' item hitem

theorem Backed.set (h : Backed ttl P c) {k : κ} {v : β} {now : ℤ} (hv : P k v now) :
    Backed ttl P (Function.update c k (some ⟨v, now + ttl⟩)) := by
  intro k' item hitem
  rcases eq_or_ne k' k with rfl | hne
  · rw [Function.update_self] at hitem
    cases hitem
    rw [Item.Backed, add_sub_cancel_right]
    exact hv
  · rw [Function.update_of_ne hne] at hitem
    exact h k' item hitem

end TtlCache
