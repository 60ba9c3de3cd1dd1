import TrusTrove.Lib.LockedTasks
import TrusTrove.MigrationNames

/-!
# The migration runner

`RunMigration` of `indexer/db/db.go`. A run takes the advisory lock, and each file is executed and
recorded in one transaction of its own, whose tables no other connection sees before the commit. A
call is answered with the text of its error, or succeeds; what the statements of a file do to the
tables other than `schema_migrations` is a parameter.
-/

namespace TrusTrove

open Locked

/-- The tables migrations are about, and the versions in `schema_migrations` once it exists. -/
structure MigrationDb (σ : Type) where
  data : σ
  schemaMigrations : Option (List String)
  deriving DecidableEq, Repr

/-- The directory of the migrations, and what their statements make of the tables. -/
structure MigrationDir (σ : Type) where
  dir : String
  names : List String
  names_nodup : names.Nodup
  /-- `filepath.Join(migrationDir, filename)` -/
  path : String → String
  contents : String → String
  exec : String → σ → Except String σ

variable {σ : Type}

/-- Where `RunMigration` returns an error, with the text of its cause. -/
inductive MigrationError
  | locate (envDir : String)
  | readDir (err : String)
  | names (err : String)
  | acquire (err : String)
  | lock (err : String)
  | ensure (err : String)
  | load (err : String)
  | readFile (filename err : String)
  | begin (filename err : String)
  | execute (filename err : String)
  | record (filename err : String)
  | commit (filename err : String)
  deriving DecidableEq, Repr

namespace MigrationError

/-- The text of the error. -/
def message (m : MigrationDir σ) : MigrationError → String
  | locate envDir =>
    if envDir = "" then "failed to locate migrations directory"
    else "INDEXER_MIGRATIONS_DIR set to " ++ envDir ++ " but not a valid directory"
  | readDir err => "failed to read migration directory " ++ m.dir ++ ": " ++ err
  | names err => "migration directory " ++ m.dir ++ ": " ++ err
  | acquire err => "failed to acquire connection for migration lock: " ++ err
  | lock err => "failed to acquire migration advisory lock: " ++ err
  | ensure err => "failed to ensure schema_migrations table: " ++ err
  | load err => "failed to load applied migrations: " ++ err
  | readFile filename err => "failed to read migration file " ++ m.path filename ++ ": " ++ err
  | begin _ err => "failed to begin migration transaction: " ++ err
  | execute filename err => "failed to execute migration " ++ filename ++ ": " ++ err
  | record filename err => "failed to record migration " ++ filename ++ ": " ++ err
  | commit filename err => "failed to commit migration " ++ filename ++ ": " ++ err

/-- The file that was being applied. -/
def file : MigrationError → Option String
  | locate _ | readDir _ | names _ | acquire _ | lock _ | ensure _ | load _ => none
  | readFile filename _ | begin filename _ | execute filename _ | record filename _
  | commit filename _ => some filename

end MigrationError

abbrev MigrationTask (σ : Type) := Task String (MigrationDb σ) (Except MigrationError Unit)

/-- `strings.TrimSuffix(filename, ".sql")` -/
def migrationVersion (filename : String) : String :=
  if isSql filename then String.ofList (filename.toList.take (filename.toList.length - 4))
  else filename

def ensureSchemaMigrationsTable (d : MigrationDb σ) : MigrationDb σ :=
  { d with schemaMigrations := some (d.schemaMigrations.getD []) }

/-- The `INSERT` of a version, `VARCHAR(255) PRIMARY KEY`. -/
def insertVersion (version : String) : Option (List String) → Except String (Option (List String))
  | none => .error "relation \"schema_migrations\" does not exist"
  | some versions =>
    if 255 < version.length then .error "value too long for type character varying(255)"
    else if version ∈ versions then
      .error "duplicate key value violates unique constraint \"schema_migrations_pkey\""
    else .ok (some (versions ++ [version]))

/-- A statement whose call may fail. -/
def answered {α : Type} (a : Option String) (result : Except String α) : Except String α :=
  match a with
  | some err => .error err
  | none => result

/-- `if err != nil` after a call: `stop` is how the function returns there. -/
def orElse (a : Option String) (error : String → MigrationError)
    (stop : Except MigrationError Unit → MigrationTask σ) (k : MigrationTask σ) : MigrationTask σ :=
  match a with
  | some err => stop (.error (error err))
  | none => k

/-- The body of the loop for a file that is not applied. A rollback leaves the tables as they were,
as does a connection that is lost. -/
def applyMigration (m : MigrationDir σ) (filename : String) (k : MigrationTask σ) :
    MigrationTask σ :=
  .call fun a => orElse a (.readFile filename) .unlock <|
  .access (fun _ d => d) fun a d => orElse a (.begin filename) .unlock <|
  .call fun a => match answered a (m.exec (m.contents filename) d.data) with
    | .error err => .unlock (.error (.execute filename err))
    | .ok data =>
      .call fun a => match answered a (insertVersion (migrationVersion filename) d.schemaMigrations)
        with
        | .error err => .unlock (.error (.record filename err))
        | .ok versions =>
          .access (fun a d => if a.isNone then ⟨data, versions⟩ else d) fun a _ =>
            orElse a (.commit filename) .unlock k

/-- The loop over the migration files. -/
def migrateFrom (m : MigrationDir σ) (applied : List String) : List String → MigrationTask σ
  | [] => .unlock (.ok ())
  | filename :: rest =>
    if migrationVersion filename ∈ applied then migrateFrom m applied rest
    else applyMigration m filename (migrateFrom m applied rest)

/-- What is done with the lock held. -/
def migrateLocked (m : MigrationDir σ) (migrationFiles : List String) : MigrationTask σ :=
  .access (fun a d => if a.isNone then ensureSchemaMigrationsTable d else d) fun a _ =>
    orElse a .ensure .unlock <|
  .access (fun _ d => d) fun a d => orElse a .load .unlock <|
  migrateFrom m (d.schemaMigrations.getD []) migrationFiles

/-- `RunMigration`. Where the directory is not found the answer is the environment's `envDir`. -/
def runMigration (m : MigrationDir σ) (o : MapOrder) : MigrationTask σ :=
  .call fun a => orElse a .locate .done <|
  .call fun a => orElse a .readDir .done <|
  match validateMigrationNames o m.names with
  | .error err => .done (.error (.names err))
  | .ok migrationFiles =>
    .call fun a => orElse a .acquire .done <|
    .lock fun a => orElse a .lock .done <|
    migrateLocked m migrationFiles

end TrusTrove
