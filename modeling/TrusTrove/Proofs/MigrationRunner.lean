import TrusTrove.MigrationRunner
import TrusTrove.Proofs.MigrationNames

/-!
# The migration runner resumes where it stopped

Wherever a run stops, the tables are those after some first part of the files that were pending
(`AppliedUpTo`): the loop commits a file with its version or leaves the tables alone
(`always_migrateFrom`). What is pending afterwards is the rest, so a later run goes on there, and
runs under the lock have together the effect of one.
-/

namespace TrusTrove

open Locked

variable {σ : Type}

namespace MigrationDb

def versions (d : MigrationDb σ) : List String := d.schemaMigrations.getD []

/-- The files whose version is not recorded, in the order they are applied. -/
def pending (files : List String) (d : MigrationDb σ) : List String :=
  files.filter fun f => migrationVersion f ∉ d.versions

end MigrationDb

/-- One file: its statements and its version, both or neither. -/
def MigrationDir.applyFile (m : MigrationDir σ) (d : MigrationDb σ) (filename : String) :
    Except String (MigrationDb σ) := do
  let data ← m.exec (m.contents filename) d.data
  let versions ← insertVersion (migrationVersion filename) d.schemaMigrations
  .ok ⟨data, versions⟩

/-- Files one after another, on tables that `schema_migrations` is among. -/
def MigrationDir.applyFiles (m : MigrationDir σ) (d : MigrationDb σ) (files : List String) :
    Except String (MigrationDb σ) :=
  files.foldlM m.applyFile (ensureSchemaMigrationsTable d)

section Effect

variable {m : MigrationDir σ} {d d' : MigrationDb σ}

@[simp] theorem versions_ensure (d : MigrationDb σ) :
    (ensureSchemaMigrationsTable d).versions = d.versions := rfl

@[simp] theorem pending_ensure (files : List String) (d : MigrationDb σ) :
    (ensureSchemaMigrationsTable d).pending files = d.pending files := rfl

theorem ensure_of_some {versions : List String} (h : d.schemaMigrations = some versions) :
    ensureSchemaMigrationsTable d = d := by
  obtain ⟨data, _⟩ := d
  subst h
  rfl

theorem insertVersion_ok {version : String} {rows rows' : Option (List String)}
    (h : insertVersion version rows = .ok rows') :
    ∃ versions, rows = some versions ∧ rows' = some (versions ++ [version]) := by
  rcases rows with _ | versions
  · simp [insertVersion] at h
  · simp only [insertVersion] at h
    split_ifs at h
    exact ⟨versions, rfl, (Except.ok.inj h).symm⟩

theorem applyFile_ok {filename : String} (h : m.applyFile d filename = .ok d') :
    m.exec (m.contents filename) d.data = .ok d'.data ∧
      insertVersion (migrationVersion filename) d.schemaMigrations = .ok d'.schemaMigrations := by
  simp only [MigrationDir.applyFile, bind, Except.bind] at h
  split at h
  · cases h
  · split at h
    · cases h
    · obtain rfl := Except.ok.inj h
      exact ⟨‹_›, ‹_›⟩

theorem versions_applyFile {filename : String} (h : m.applyFile d filename = .ok d') :
    d'.versions = d.versions ++ [migrationVersion filename] := by
  obtain ⟨versions, hrows, hrows'⟩ := insertVersion_ok (applyFile_ok h).2
  simp [MigrationDb.versions, hrows, hrows']

theorem foldlM_applyFile_some : ∀ {files : List String} {d d' : MigrationDb σ},
    files.foldlM m.applyFile d = .ok d' → d.schemaMigrations.isSome →
    d'.schemaMigrations.isSome ∧ d'.versions = d.versions ++ files.map migrationVersion
  | [], d, d', h, hs => by
    obtain rfl := Except.ok.inj h
    simpa using hs
  | f :: files, d, d', h, hs => by
    rw [List.foldlM_cons] at h
    cases hf : m.applyFile d f with
    | error e => simp [hf, bind, Except.bind] at h
    | ok d₁ =>
      rw [hf] at h
      obtain ⟨versions, -, hrows⟩ := insertVersion_ok (applyFile_ok hf).2
      obtain ⟨hsome, hversions⟩ := foldlM_applyFile_some h (by simp [hrows])
      exact ⟨hsome, by rw [hversions, versions_applyFile hf]; simp⟩

theorem versions_applyFiles {files : List String} (h : m.applyFiles d files = .ok d') :
    ensureSchemaMigrationsTable d' = d' ∧
      d'.versions = d.versions ++ files.map migrationVersion := by
  obtain ⟨hsome, hversions⟩ := foldlM_applyFile_some h rfl
  obtain ⟨versions, hrows⟩ := Option.isSome_iff_exists.1 hsome
  exact ⟨ensure_of_some hrows, hversions⟩

theorem applyFiles_append {files files' : List String} (h : m.applyFiles d files = .ok d') :
    m.applyFiles d (files ++ files') = m.applyFiles d' files' := by
  rw [MigrationDir.applyFiles, List.foldlM_append, MigrationDir.applyFiles,
    (versions_applyFiles h).1]
  rw [MigrationDir.applyFiles] at h
  rw [h]
  rfl

end Effect

section Pending

variable {m : MigrationDir σ} {o : MapOrder} {files : List String}

theorem migrationVersion_injOn {a b : String} (ha : EndsInSql a) (hb : EndsInSql b)
    (h : migrationVersion a = migrationVersion b) : a = b := by
  obtain ⟨s, hs⟩ := ha
  obtain ⟨t, ht⟩ := hb
  have hstem {x : String} {u : List Char} (hx : u ++ ".sql".toList = x.toList) :
      migrationVersion x = String.ofList u := by
    have hsql : isSql x = true := isSql_iff.2 ⟨u, hx⟩
    rw [migrationVersion, if_pos hsql, ← hx]
    simp
  rw [hstem hs, hstem ht] at h
  have hst : s = t := by simpa using congrArg String.toList h
  exact String.toList_inj.1 (by rw [← hs, ← ht, hst])

/-- No two files have one version. -/
theorem nodup_versions (hfiles : validateMigrationNames o m.names = .ok files) :
    files.Pairwise (· < ·) ∧ (files.map migrationVersion).Nodup := by
  obtain ⟨hvalid, rfl⟩ := (validateMigrationNames_ok_iff m.names_nodup).1 hfiles
  have hnodup : (sortStrings (m.names.filter isMigration)).Nodup :=
    (sortStrings_perm _).nodup_iff.2 (m.names_nodup.filter _)
  have hends : ∀ f ∈ sortStrings (m.names.filter isMigration), EndsInSql f := fun f hf =>
    (migrationNamePattern_iff.1
      (List.mem_filter.1 ((sortStrings_perm _).mem_iff.1 hf)).2).endsInSql
  refine ⟨((sortStrings_pairwise _).and hnodup).imp fun h => lt_of_le_of_ne h.1 h.2, ?_⟩
  exact hnodup.map_on fun a ha b hb => migrationVersion_injOn (hends a ha) (hends b hb)

/-- What is pending once the first `k` pending files are applied. -/
theorem pending_applied (hnd : (files.map migrationVersion).Nodup) {d d' : MigrationDb σ} {k : ℕ}
    (h : d'.versions = d.versions ++ ((d.pending files).take k).map migrationVersion) :
    d'.pending files = (d.pending files).drop k := by
  have hsplit : d'.pending files
      = (d.pending files).filter fun f =>
        migrationVersion f ∉ ((d.pending files).take k).map migrationVersion := by
    generalize ((d.pending files).take k).map migrationVersion = done at h ⊢
    rw [MigrationDb.pending, MigrationDb.pending, List.filter_filter, h]
    refine List.filter_congr fun f _ => ?_
    simp [and_comm]
  have hnd' : ((d.pending files).map migrationVersion).Nodup :=
    hnd.sublist (List.filter_sublist.map _)
  rw [← List.take_append_drop k (d.pending files), List.map_append, List.nodup_append] at hnd'
  rw [hsplit]
  conv_lhs => rw [← List.take_append_drop k (d.pending files), List.filter_append]
  rw [List.filter_eq_nil_iff.2, List.filter_eq_self.2, List.nil_append]
  · intro f hf
    rw [List.take_append_drop]
    simp only [decide_eq_true_eq]
    intro hmem
    exact hnd'.2.2 _ hmem _ (List.mem_map_of_mem hf) rfl
  · intro f hf
    rw [List.take_append_drop]
    simp only [decide_eq_true_eq, not_not]
    exact List.mem_map_of_mem hf

/-- The first `k` files pending in `d` have been applied, and nothing else. -/
structure AppliedUpTo (m : MigrationDir σ) (files : List String) (d : MigrationDb σ) (k : ℕ)
    (d' : MigrationDb σ) : Prop where
  effect : m.applyFiles d ((d.pending files).take k) = .ok (ensureSchemaMigrationsTable d')

variable {d d' d'' : MigrationDb σ} {k : ℕ}

theorem AppliedUpTo.versions (h : AppliedUpTo m files d k d') :
    d'.versions = d.versions ++ ((d.pending files).take k).map migrationVersion := by
  simpa using (versions_applyFiles h.effect).2

theorem AppliedUpTo.pending (hnd : (files.map migrationVersion).Nodup)
    (h : AppliedUpTo m files d k d') :
    d'.pending files = (d.pending files).drop k := pending_applied hnd h.versions

theorem appliedUpTo_zero (d : MigrationDb σ) : AppliedUpTo m files d 0 d := ⟨rfl⟩

theorem applied_ensure (d : MigrationDb σ) :
    AppliedUpTo m files d 0 (ensureSchemaMigrationsTable d) := ⟨rfl⟩

theorem AppliedUpTo.trans (hnd : (files.map migrationVersion).Nodup) {l : ℕ}
    (h : AppliedUpTo m files d k d') (h' : AppliedUpTo m files d' l d'') :
    AppliedUpTo m files d (k + l) d'' := by
  constructor
  rw [List.take_add, applyFiles_append h.effect, ← h.pending hnd]
  exact h'.effect

theorem AppliedUpTo.next (h : AppliedUpTo m files d k d') {f : String} {versions : List String}
    (hrows : d'.schemaMigrations = some versions) (hf : (d.pending files)[k]? = some f)
    (hstep : m.applyFile d' f = .ok d'') : AppliedUpTo m files d (k + 1) d'' := by
  obtain ⟨_, _, hrows''⟩ := insertVersion_ok (applyFile_ok hstep).2
  constructor
  rw [List.take_add_one, hf, Option.toList_some, applyFiles_append h.effect, ensure_of_some hrows'',
    MigrationDir.applyFiles, ensure_of_some hrows, ensure_of_some hrows]
  simp [hstep, bind, Except.bind, pure, Except.pure]

end Pending

section Run

variable {m : MigrationDir σ} {files : List String}

/-- How a run may end that has applied `k` of the files that were pending: with all of them, before
the first, or with an error of the next one. -/
def Ends (pending : List String) (k : ℕ) : Except MigrationError Unit → Prop
  | .ok _ => pending.drop k = []
  | .error e => match e.file with
    | none => k = 0
    | some f => pending[k]? = some f

/-- Where a run that started from `d` may stop. -/
def Stops (m : MigrationDir σ) (files : List String) (d : MigrationDb σ) (t : MigrationTask σ)
    (d' : MigrationDb σ) : Prop :=
  ∃ k, AppliedUpTo m files d k d' ∧ ∀ r, t = .done r → Ends (d.pending files) k r

variable {d d' : MigrationDb σ} {k : ℕ}

theorem stops_of_applied (h : AppliedUpTo m files d k d') {t : MigrationTask σ}
    (ht : ∀ r, t ≠ .done r) :
    Stops m files d t d' := ⟨k, h, fun r hr => absurd hr (ht r)⟩

theorem always_unlock_of (h : AppliedUpTo m files d k d') {r : Except MigrationError Unit}
    (hr : Ends (d.pending files) k r) : Task.Always (Stops m files d) (.unlock r) d' :=
  Task.always_unlock (stops_of_applied h fun _ => nofun)
    ⟨k, h, fun _ hr' => Task.done.inj hr' ▸ hr⟩

theorem always_orElse {P : MigrationTask σ → MigrationDb σ → Prop} {a : Option String}
    {error : String → MigrationError} {stop : Except MigrationError Unit → MigrationTask σ}
    {t : MigrationTask σ} (hstop : ∀ err, Task.Always P (stop (.error (error err))) d')
    (ht : Task.Always P t d') : Task.Always P (orElse a error stop t) d' := by
  rcases a with _ | err
  · exact ht
  · exact hstop err

/-- A file is committed with its version, or the tables are as they were. -/
theorem always_applyMigration (h : AppliedUpTo m files d k d') {f : String}
    (hf : (d.pending files)[k]? = some f) {t : MigrationTask σ}
    (ht : ∀ d'', m.applyFile d' f = .ok d'' → Task.Always (Stops m files d) t d'') :
    Task.Always (Stops m files d) (applyMigration m f t) d' := by
  have hstop (e : MigrationError) (he : e.file = some f) :
      Task.Always (Stops m files d) (.unlock (.error e)) d' :=
    always_unlock_of h (by rw [Ends, he]; exact hf)
  have hgo {t : MigrationTask σ} (ht : ∀ r, t ≠ .done r) : Stops m files d t d' :=
    stops_of_applied h ht
  refine Task.always_call (hgo fun _ => nofun) fun a => always_orElse (fun err => hstop _ rfl) ?_
  refine Task.always_access (hgo fun _ => nofun) fun a => always_orElse (fun err => hstop _ rfl) ?_
  refine Task.always_call (hgo fun _ => nofun) fun a => ?_
  rcases hexec : answered a (m.exec (m.contents f) d'.data) with err | data
  · exact hstop _ rfl
  refine Task.always_call (hgo fun _ => nofun) fun a' => ?_
  rcases hins : answered a' (insertVersion (migrationVersion f) d'.schemaMigrations) with err | rows
  · exact hstop _ rfl
  refine Task.always_access (hgo fun _ => nofun) fun a'' => ?_
  rcases a'' with _ | err
  · refine ht _ ?_
    have hexec' : m.exec (m.contents f) d'.data = .ok data := by
      rcases a with _ | err
      · exact hexec
      · cases hexec
    have hins' : insertVersion (migrationVersion f) d'.schemaMigrations = .ok rows := by
      rcases a' with _ | err
      · exact hins
      · cases hins
    simp [MigrationDir.applyFile, hexec', hins', bind, Except.bind]
  · exact hstop _ rfl

/-- The loop goes through the pending files in order. -/
theorem always_migrateFrom (applied : List String) : ∀ (fs : List String) {k : ℕ}
    {d' : MigrationDb σ}, AppliedUpTo m files d k d' → d'.schemaMigrations.isSome →
    (fs.filter fun f => migrationVersion f ∉ applied) = (d.pending files).drop k →
    Task.Always (Stops m files d) (migrateFrom m applied fs) d'
  | [], k, d', h, _, hfs => always_unlock_of h hfs.symm
  | f :: fs, k, d', h, hsome, hfs => by
    unfold migrateFrom
    by_cases hf : migrationVersion f ∈ applied
    · rw [if_pos hf]
      exact always_migrateFrom applied fs h hsome (by simpa [hf] using hfs)
    · rw [if_neg hf]
      rw [List.filter_cons_of_pos (by simpa using hf)] at hfs
      have hnext : (d.pending files)[k]? = some f := by
        rw [← Nat.add_zero k, ← List.getElem?_drop, ← hfs]
        rfl
      obtain ⟨versions, hrows⟩ := Option.isSome_iff_exists.1 hsome
      refine always_applyMigration h hnext fun d'' hstep => ?_
      obtain ⟨_, _, hrows''⟩ := insertVersion_ok (applyFile_ok hstep).2
      refine always_migrateFrom applied fs (h.next hrows hnext hstep) (by simp [hrows'']) ?_
      rw [← List.drop_drop, ← hfs]
      simp

theorem always_migrateLocked (d : MigrationDb σ) :
    Task.Always (Stops m files d) (migrateLocked m files) d := by
  refine Task.always_access (stops_of_applied (appliedUpTo_zero d) fun _ => nofun) fun a => ?_
  rcases a with _ | err
  · refine Task.always_access (stops_of_applied (applied_ensure d) fun _ => nofun) fun a =>
      always_orElse (fun err => always_unlock_of (applied_ensure d) rfl) ?_
    exact always_migrateFrom _ files (applied_ensure d) rfl rfl
  · exact always_unlock_of (appliedUpTo_zero d) rfl

/-- A run that fails before it holds the lock. -/
theorem always_done_error (d : MigrationDb σ) {e : MigrationError} (he : e.file = none) :
    Task.Always (Stops m files d) (.done (.error e)) d :=
  Task.always_done ⟨0, appliedUpTo_zero d, fun _ hr => Task.done.inj hr ▸ by rw [Ends, he]⟩

theorem always_runMigration {o : MapOrder} (hfiles : validateMigrationNames o m.names = .ok files)
    (d : MigrationDb σ) : Task.Always (Stops m files d) (runMigration m o) d := by
  have hgo {t : MigrationTask σ} (ht : ∀ r, t ≠ .done r) : Stops m files d t d :=
    stops_of_applied (appliedUpTo_zero d) ht
  unfold runMigration
  rw [hfiles]
  refine Task.always_call (hgo fun _ => nofun) fun a => always_orElse
    (fun err => always_done_error d rfl) ?_
  refine Task.always_call (hgo fun _ => nofun) fun a => always_orElse
    (fun err => always_done_error d rfl) ?_
  refine Task.always_call (hgo fun _ => nofun) fun a => always_orElse
    (fun err => always_done_error d rfl) ?_
  exact Task.always_lock (hgo fun _ => nofun) fun a => always_orElse
    (fun err => always_done_error d rfl) (always_migrateLocked d)

/-- Without failures the loop applies every file it has left. -/
theorem clean_migrateFrom (applied : List String) : ∀ (fs : List String) {d d' : MigrationDb σ},
    (fs.filter fun f => migrationVersion f ∉ applied).foldlM m.applyFile d = .ok d' →
    (migrateFrom m applied fs).clean d = (.ok (), d')
  | [], d, d', h => by
    obtain rfl := Except.ok.inj h
    rfl
  | f :: fs, d, d', h => by
    unfold migrateFrom
    by_cases hf : migrationVersion f ∈ applied
    · rw [if_pos hf]
      exact clean_migrateFrom applied fs (by simpa [hf] using h)
    · rw [if_neg hf]
      rw [List.filter_cons_of_pos (by simpa using hf), List.foldlM_cons] at h
      cases hstep : m.applyFile d f with
      | error e => simp [hstep, bind, Except.bind] at h
      | ok d₁ =>
        rw [hstep] at h
        obtain ⟨hexec, hins⟩ := applyFile_ok hstep
        have hrest := clean_migrateFrom applied fs (d := d₁) h
        simpa [applyMigration, Task.clean, orElse, answered, hexec, hins] using hrest

theorem clean_runMigration {o : MapOrder} (hfiles : validateMigrationNames o m.names = .ok files)
    (h : m.applyFiles d (d.pending files) = .ok d') :
    (runMigration m o).clean d = (.ok (), d') := by
  have hrest := clean_migrateFrom (m := m) d.versions files (d := ensureSchemaMigrationsTable d) h
  unfold runMigration
  rw [hfiles]
  exact hrest

theorem guarded_orElse {held : Bool} {a : Option String} {error : String → MigrationError}
    {stop : Except MigrationError Unit → MigrationTask σ} {t : MigrationTask σ}
    (hstop : ∀ r, (stop r).Guarded held) (ht : t.Guarded held) :
    (orElse a error stop t).Guarded held := by
  rcases a with _ | err
  · exact ht
  · exact hstop _

theorem guarded_migrateFrom (applied : List String) :
    ∀ fs, (migrateFrom m applied fs).Guarded true
  | [] => rfl
  | f :: fs => by
    have hrest := guarded_migrateFrom applied fs
    have hstop (r : Except MigrationError Unit) : (Task.unlock r : MigrationTask σ).Guarded true :=
      rfl
    unfold migrateFrom
    split_ifs
    · exact hrest
    · refine fun a => guarded_orElse hstop ⟨rfl, fun a d => guarded_orElse hstop fun a => ?_⟩
      dsimp only
      split
      · exact hstop _
      · intro a
        dsimp only
        split
        · exact hstop _
        · exact ⟨rfl, fun a d => guarded_orElse hstop hrest⟩

/-- The tables are read and written with the lock held only. -/
theorem guarded_runMigration (o : MapOrder) : (runMigration m o).Guarded false := by
  have hdone (r : Except MigrationError Unit) : (Task.done r : MigrationTask σ).Guarded false :=
    trivial
  have hstop (r : Except MigrationError Unit) : (Task.unlock r : MigrationTask σ).Guarded true :=
    rfl
  refine fun a => guarded_orElse hdone fun a => guarded_orElse hdone ?_
  split
  · exact hdone _
  · refine fun a => guarded_orElse hdone ⟨rfl, ?_, fun e => trivial⟩
    exact ⟨rfl, fun a d => guarded_orElse hstop
      ⟨rfl, fun a d => guarded_orElse hstop (guarded_migrateFrom _ _)⟩⟩

variable {ι : Type} [DecidableEq ι]

/-- Runs under the lock have applied a first part of the pending files between them, and all of them
once one of the runs has succeeded. -/
theorem concurrent_runs {o : MapOrder} (hfiles : validateMigrationNames o m.names = .ok files)
    (d : MigrationDb σ) (orders : ι → MapOrder) (sched : List (ι × Option String)) :
    (∃ k, AppliedUpTo m files d k
      (Sys.run ⟨d, none, fun i => runMigration m (orders i)⟩ sched).state) ∧
    ∀ i, (Sys.run ⟨d, none, fun i => runMigration m (orders i)⟩ sched).tasks i = .done (.ok ()) →
      (Sys.run ⟨d, none, fun i => runMigration m (orders i)⟩ sched).state.pending files = [] := by
  have hnd := (nodup_versions hfiles).2
  have hvalid (i : ι) : validateMigrationNames (orders i) m.names = .ok files := by
    rw [validateMigrationNames_ok_iff m.names_nodup] at hfiles ⊢
    exact hfiles
  obtain ⟨hstate, hresults⟩ := Sys.rely (fun d d' => ∃ k, AppliedUpTo m files d k d')
    (fun r d => r = .ok () → d.pending files = []) (fun i => runMigration m (orders i))
    (fun d => ⟨0, appliedUpTo_zero d⟩)
    (fun d d' d'' => fun ⟨k, h⟩ ⟨l, h'⟩ => ⟨k + l, h.trans hnd h'⟩)
    (fun r d d' hr => fun ⟨k, h⟩ hok => by rw [h.pending hnd, hr hok, List.drop_nil])
    (fun i d => (always_runMigration (hvalid i) d).mono fun t d' => fun ⟨k, h, hends⟩ =>
      ⟨⟨k, h⟩, fun r hr hok => by
        have hdrop := hends r hr
        rw [hok] at hdrop
        rw [h.pending hnd]
        exact hdrop⟩)
    (fun i => guarded_runMigration (orders i)) d sched
  exact ⟨hstate, fun i hi => hresults i _ hi rfl⟩

/-- A run, whatever fails in it, leaves the first part of the pending files applied and recorded, up
to the file it failed on; a later run goes on with the rest; and interleaved runs that wait for each
other's lock have the effect of one. -/
theorem runMigration_resumes {o : MapOrder} (hfiles : validateMigrationNames o m.names = .ok files)
    (d : MigrationDb σ) :
    (d.pending files).Pairwise (· < ·) ∧
    (∀ as r d', (runMigration m o).after as d = (.done r, d') → ∃ k,
      m.applyFiles d ((d.pending files).take k) = .ok (ensureSchemaMigrationsTable d') ∧
      d'.versions = d.versions ++ ((d.pending files).take k).map migrationVersion ∧
      d'.pending files = (d.pending files).drop k ∧
      Ends (d.pending files) k r ∧
      ∀ d'', m.applyFiles d' ((d.pending files).drop k) = .ok d'' →
        (runMigration m o).clean d' = (.ok (), d'')) ∧
    ∀ (ι : Type) [DecidableEq ι] (orders : ι → MapOrder) (sched : List (ι × Option String)) s,
      s = Sys.run ⟨d, none, fun i => runMigration m (orders i)⟩ sched →
      (∃ k, m.applyFiles d ((d.pending files).take k) = .ok (ensureSchemaMigrationsTable s.state) ∧
        s.state.versions = d.versions ++ ((d.pending files).take k).map migrationVersion) ∧
      ((∃ i, s.tasks i = .done (.ok ())) →
        (runMigration m o).clean d = (.ok (), ensureSchemaMigrationsTable s.state)) := by
  obtain ⟨hsorted, hnd⟩ := nodup_versions hfiles
  refine ⟨hsorted.filter _, fun as r d' hrun => ?_, fun ι _ orders sched s hs => ?_⟩
  · obtain ⟨k, happlied, hends⟩ := always_runMigration hfiles d as
    rw [hrun] at happlied hends
    refine ⟨k, happlied.effect, happlied.versions, happlied.pending hnd, hends r rfl, ?_⟩
    intro d'' hrest
    rw [← happlied.pending hnd] at hrest
    exact clean_runMigration hfiles hrest
  · obtain ⟨⟨k, happlied⟩, hfinished⟩ := concurrent_runs hfiles d orders sched
    rw [← hs] at happlied hfinished
    refine ⟨⟨k, happlied.effect, happlied.versions⟩, fun ⟨i, hi⟩ => ?_⟩
    have hall : (d.pending files).take k = d.pending files := by
      have hdrop : (d.pending files).drop k = [] := by
        rw [← happlied.pending hnd]
        exact hfinished i hi
      rw [← List.take_append_drop k (d.pending files), hdrop]
      simp
    have heffect := happlied.effect
    rw [hall] at heffect
    exact clean_runMigration hfiles heffect

section Example

/-- Tables that are the list of the texts executed on them; one text is refused. -/
def sampleDir : MigrationDir (List String) where
  dir := "db/migrations"
  names := ["002_b.sql", "README.md", "001_a.sql", "003_c.sql"]
  names_nodup := by decide
  path f := "db/migrations/" ++ f
  contents f := f
  exec text done := .ok (done ++ [text])

theorem sampleDir_files : validateMigrationNames ⟨id, fun _ => .refl _⟩ sampleDir.names
    = .ok ["001_a.sql", "002_b.sql", "003_c.sql"] := by decide +kernel

/-- A run on tables that have the first file already, whose second commit fails, and the one after
it. -/
theorem runMigration_resumes_after_commit :
    (runMigration sampleDir ⟨id, fun _ => .refl _⟩).clean ⟨["001_a.sql", "002_b.sql"],
        some ["001_a", "002_b"]⟩
      = (.ok (), ⟨["001_a.sql", "002_b.sql", "003_c.sql"], some ["001_a", "002_b", "003_c"]⟩) := by
  have hrun : (runMigration sampleDir ⟨id, fun _ => .refl _⟩).after
      (List.replicate 11 none ++ [none, none, none, none, some "broken", none])
      ⟨["001_a.sql"], some ["001_a"]⟩
      = (.done (.error (.commit "003_c.sql" "broken")),
        ⟨["001_a.sql", "002_b.sql"], some ["001_a", "002_b"]⟩) := by
    unfold runMigration
    rw [sampleDir_files]
    rfl
  obtain ⟨k, -, -, -, hk, hclean⟩ := (runMigration_resumes sampleDir_files _).2.1 _ _ _ hrun
  have hpending : (⟨["001_a.sql"], some ["001_a"]⟩ : MigrationDb (List String)).pending
      ["001_a.sql", "002_b.sql", "003_c.sql"] = ["002_b.sql", "003_c.sql"] := by decide +kernel
  rw [hpending] at hk hclean
  obtain rfl : k = 1 := by
    rcases k with _ | _ | _ | k
    · simp [Ends, MigrationError.file] at hk
    · rfl
    · simp [Ends, MigrationError.file] at hk
    · simp [Ends, MigrationError.file] at hk
  exact hclean _ rfl

end Example

end Run

end TrusTrove
