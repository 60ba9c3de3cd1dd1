import Mathlib

/-!
# Keyed tables

A table is its rows in insertion order, no two with the same key. `insertNew` is an insert that
does nothing on a conflict, `update` sets the row of a key where a guard holds. What a lookup finds
after either of them is all that is needed of the list behind the table.
-/

namespace Sql

/-- The rows of a table in insertion order, no two with the same key. -/
structure Table (ρ : Type) {κ : Type} (key : ρ → κ) where
  rows : List ρ
  nodup : (rows.map key).Nodup

namespace Table

variable {ρ κ : Type} {key : ρ → κ}

@[ext]
theorem ext {t u : Table ρ key} (h : t.rows = u.rows) : t = u := by
  cases t
  cases u
  subst h
  rfl

/-- The table with no rows. -/
def empty : Table ρ key := ⟨[], List.nodup_nil⟩

variable [DecidableEq κ]

/-- The row with key `k`. -/
def find? (t : Table ρ key) (k : κ) : Option ρ := t.rows.find? fun r => key r = k

/-- `INSERT … ON CONFLICT (key) DO NOTHING`. -/
def insertNew (t : Table ρ key) (r : ρ) : Table ρ key :=
  if h : key r ∈ t.rows.map key then t
  else ⟨t.rows ++ [r], by
    rw [List.map_append, List.nodup_append]
    refine ⟨t.nodup, by simp, fun a ha b hb hab => ?_⟩
    simp only [List.map_cons, List.map_nil, List.mem_singleton] at hb
    exact h (hb ▸ hab ▸ ha)⟩

/-- `UPDATE … SET f WHERE p`, for an `f` that keeps the key. -/
def updateWhere (t : Table ρ key) (p : ρ → Bool) (f : ρ → ρ) (hf : ∀ r, key (f r) = key r) :
    Table ρ key where
  rows := t.rows.map fun r => if p r then f r else r
  nodup := by
    have hkey : (key ∘ fun r => if p r = true then f r else r) = key := by
      funext r
      simp only [Function.comp_apply]
      split_ifs
      · exact hf r
      · rfl
    rw [List.map_map, hkey]
    exact t.nodup

/-- The row takes the place of the one with its key, or comes last. -/
def upsert (t : Table ρ key) (r : ρ) : Table ρ key :=
  (t.updateWhere (fun x => key x = key r) (fun x => if key x = key r then r else x) fun x => by
    split_ifs with h
    · exact h.symm
    · rfl).insertNew r

/-- `UPDATE … SET f WHERE key = k AND p`. -/
def update (t : Table ρ key) (k : κ) (p : ρ → Bool) (f : ρ → ρ) (hf : ∀ r, key (f r) = key r) :
    Table ρ key :=
  t.updateWhere (fun r => key r = k && p r) f hf

/-- `INSERT … ON CONFLICT (key) DO UPDATE SET f`. -/
def insertOrUpdate (t : Table ρ key) (r : ρ) (f : ρ → ρ) (hf : ∀ r, key (f r) = key r) :
    Table ρ key :=
  (t.update (key r) (fun _ => true) f hf).insertNew r

omit [DecidableEq κ] in
/-- `DELETE … WHERE p`. -/
def deleteWhere (t : Table ρ key) (p : ρ → Bool) : Table ρ key where
  rows := t.rows.filter fun r => !p r
  nodup := t.nodup.sublist (List.filter_sublist.map key)

section Where

variable {t : Table ρ key} {p : ρ → Bool} {f : ρ → ρ} {hf : ∀ r, key (f r) = key r}

omit [DecidableEq κ]

/-- What holds of the rows after an update: of those set, and of those it passes over. -/
theorem forall_updateWhere {P Q : ρ → Prop} (h : ∀ r ∈ t.rows, Q r)
    (hset : ∀ r, Q r → p r = true → P (f r)) (hkeep : ∀ r, Q r → p r = false → P r) :
    ∀ r ∈ (t.updateWhere p f hf).rows, P r := by
  intro r' hr'
  obtain ⟨r, hr, rfl⟩ := List.mem_map.1 hr'
  split_ifs with hp
  · exact hset r (h r hr) hp
  · exact hkeep r (h r hr) (Bool.eq_false_of_not_eq_true hp)

theorem mem_updateWhere {r : ρ} (h : r ∈ t.rows) (hp : p r = false) :
    r ∈ (t.updateWhere p f hf).rows := List.mem_map.2 ⟨r, h, by simp [hp]⟩

theorem updateWhere_eq_self (h : ∀ r ∈ t.rows, p r = false) : t.updateWhere p f hf = t :=
  ext ((List.map_congr_left fun r hr => by simp [h r hr]).trans t.rows.map_id)

theorem map_key_updateWhere : (t.updateWhere p f hf).rows.map key = t.rows.map key := by
  rw [updateWhere, List.map_map]
  refine List.map_congr_left fun r _ => ?_
  simp only [Function.comp_apply]
  split_ifs
  · exact hf r
  · rfl

theorem mem_deleteWhere {r : ρ} : r ∈ (t.deleteWhere p).rows ↔ r ∈ t.rows ∧ p r = false := by
  simp [deleteWhere]

theorem deleteWhere_eq_self (h : ∀ r ∈ t.rows, p r = false) : t.deleteWhere p = t :=
  ext (List.filter_eq_self.2 fun r hr => by simp [h r hr])

end Where

@[simp]
theorem find?_empty (k : κ) : (empty : Table ρ key).find? k = none := rfl

theorem key_of_find? {t : Table ρ key} {k : κ} {r : ρ} (h : t.find? k = some r) : key r = k := by
  simpa using List.find?_some h

theorem mem_of_find? {t : Table ρ key} {k : κ} {r : ρ} (h : t.find? k = some r) : r ∈ t.rows :=
  List.mem_of_find?_eq_some h

theorem find?_isSome {t : Table ρ key} {k : κ} :
    (t.find? k).isSome ↔ k ∈ t.rows.map key := by
  simp [find?, List.find?_isSome]

theorem find?_eq_none {t : Table ρ key} {k : κ} : t.find? k = none ↔ k ∉ t.rows.map key := by
  rw [← find?_isSome]
  cases t.find? k <;> simp

theorem find?_of_mem {t : Table ρ key} {r : ρ} (h : r ∈ t.rows) : t.find? (key r) = some r := by
  rcases hf : t.find? (key r) with _ | r'
  · rw [find?_eq_none] at hf
    exact absurd (List.mem_map_of_mem h) hf
  · rw [List.inj_on_of_nodup_map t.nodup (mem_of_find? hf) h (key_of_find? hf)]

theorem find?_insertNew (t : Table ρ key) (r : ρ) (k : κ) :
    (t.insertNew r).find? k = if key r = k then (t.find? k).or (some r) else t.find? k := by
  unfold insertNew
  split_ifs with hc hk hk
  · subst hk
    obtain ⟨r', hr'⟩ := Option.isSome_iff_exists.1 (find?_isSome.2 hc)
    rw [hr']
    rfl
  · rfl
  · subst hk
    simp [find?, List.find?_append]
  · simp [find?, List.find?_append, hk]

theorem find?_updateWhere (t : Table ρ key) (p : ρ → Bool) (f : ρ → ρ)
    (hf : ∀ r, key (f r) = key r) (k : κ) :
    (t.updateWhere p f hf).find? k = (t.find? k).map fun r => if p r then f r else r := by
  have hcomp : ((fun r => decide (key r = k)) ∘ fun r => if p r = true then f r else r)
      = fun r => decide (key r = k) := by
    funext r
    simp only [Function.comp_apply]
    split_ifs
    · rw [hf]
    · rfl
  simp only [find?, updateWhere, List.find?_map, hcomp]

theorem find?_update (t : Table ρ key) (k : κ) (p : ρ → Bool) (f : ρ → ρ)
    (hf : ∀ r, key (f r) = key r) (k' : κ) :
    (t.update k p f hf).find? k' =
      if k' = k then (t.find? k).map fun r => if p r then f r else r else t.find? k' := by
  rw [update, find?_updateWhere]
  rcases hr : t.find? k' with _ | r
  · split_ifs with hk
    · rw [← hk, hr]
      rfl
    · rfl
  · have hkey := key_of_find? hr
    split_ifs with hk
    · rw [← hk, hr]
      simp [hkey]
    · simp [hkey, hk]

theorem find?_upsert (t : Table ρ key) (r : ρ) (k : κ) :
    (t.upsert r).find? k = if key r = k then some r else t.find? k := by
  rw [upsert, find?_insertNew, find?_updateWhere]
  rcases hx : t.find? k with _ | x
  · simp
  · obtain rfl := key_of_find? hx
    by_cases h : key x = key r
    · simp [h]
    · simp [h, Ne.symm h]

theorem find?_insertOrUpdate (t : Table ρ key) (r : ρ) (f : ρ → ρ) (hf : ∀ r, key (f r) = key r)
    (k : κ) :
    (t.insertOrUpdate r f hf).find? k =
      if key r = k then some (((t.find? k).map f).getD r) else t.find? k := by
  rw [insertOrUpdate, find?_insertNew, find?_update]
  by_cases hk : key r = k
  · subst hk
    rcases t.find? (key r) with _ | x <;> simp
  · rw [if_neg hk, if_neg hk, if_neg (Ne.symm hk)]

/-- The rows with one key are the one a lookup finds. -/
theorem filter_key (t : Table ρ key) (k : κ) :
    t.rows.filter (key · = k) = (t.find? k).toList := by
  obtain ⟨rows, hnodup⟩ := t
  simp only [find?]
  induction rows with
  | nil => rfl
  | cons r rows ih =>
    obtain ⟨hr, hnodup⟩ := List.nodup_cons.mp hnodup
    by_cases hk : key r = k
    · have hrest : rows.filter (key · = k) = [] := by
        simp only [List.filter_eq_nil_iff, decide_eq_true_eq]
        exact fun x hx hxk => hr (hk.trans hxk.symm ▸ List.mem_map_of_mem hx)
      simp [hk, hrest]
    · simp [hk, ih hnodup]

theorem find?_deleteWhere (t : Table ρ key) (p : ρ → Bool) (k : κ) :
    (t.deleteWhere p).find? k = (t.find? k).filter fun r => !p r := by
  rcases hr : t.find? k with _ | r
  · rw [Option.filter_none, find?_eq_none]
    rw [find?_eq_none] at hr
    exact fun h => hr ((List.filter_sublist.map key).subset h)
  · obtain rfl := key_of_find? hr
    by_cases hp : p r = true
    · rw [Option.filter_some_neg (by simpa using hp), find?_eq_none, List.mem_map]
      rintro ⟨r', hmem, hkey⟩
      obtain ⟨hmem, hnot⟩ := List.mem_filter.mp hmem
      have := find?_of_mem hmem
      rw [hkey, hr, Option.some.injEq] at this
      simp [← this, hp] at hnot
    · have hmem : r ∈ (t.deleteWhere p).rows :=
        List.mem_filter.mpr ⟨mem_of_find? hr, by simpa using hp⟩
      rw [find?_of_mem hmem, Option.filter_some_pos (by simpa using hp)]

end Table

end Sql
