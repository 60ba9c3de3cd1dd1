import TrusTrove.Lib.Regex

/-!
# The names of migration files

`validateMigrationNames` of `indexer/db/migration_names.go`. The numbers are the keys of a map,
which Go visits in an order of its own choosing.
-/

namespace TrusTrove

open Regex RegularExpression

/-- An order in which the keys of a map are visited. -/
structure MapOrder where
  visit : List String → List String
  perm : ∀ keys, (visit keys).Perm keys

/-- `sort.Strings` -/
def sortStrings (s : List String) : List String := s.insertionSort (· ≤ ·)

/-- `[a-z0-9_]` -/
def descriptionLetters : List Char := "abcdefghijklmnopqrstuvwxyz0123456789_".toList

/-- `^(\d{3})_[a-z0-9_]+\.sql$` -/
def migrationNamePattern : RegularExpression Char :=
  digit ^ 3 * (char '_' * (oneOrMore (oneOf descriptionLetters) * literal ".sql".toList))

/-- `^\d+_` -/
def migrationLookalikePattern : RegularExpression Char := oneOrMore digit * char '_'

def knownDuplicateMigrations : List (String × List String) :=
  [("009", ["009_add_webhook_subscriptions.sql", "009_webhooks.sql"])]

def isKnownDuplicate (number : String) (files : List String) : Bool :=
  match knownDuplicateMigrations.lookup number with
  | none => false
  | some allowed => allowed.length = files.length && sortStrings files = sortStrings allowed

/-- `strings.HasSuffix(name, ".sql")` -/
def isSql (name : String) : Bool := ".sql".toList.isSuffixOf name.toList

/-- The first group of a name that matches `migrationNamePattern`. -/
def migrationNumber (name : String) : String := String.ofList (name.toList.take 3)

/-- `byNumber[number] = append(byNumber[number], name)` -/
def appendFile (number name : String) : List (String × List String) → List (String × List String)
  | [] => [(number, [name])]
  | (key, files) :: rest =>
    if key = number then (key, files ++ [name]) :: rest
    else (key, files) :: appendFile number name rest

/-- The variables of `validateMigrationNames`. -/
structure NameScan where
  errs : List String
  byNumber : List (String × List String)
  migrations : List String

/-- The body of the loop over `names`. -/
def NameScan.next (s : NameScan) (name : String) : NameScan :=
  if !isSql name then
    if matchesPrefix migrationLookalikePattern name.toList then
      { s with errs := s.errs ++ [name ++ " looks like a migration but is not a .sql file"] }
    else s
  else if !migrationNamePattern.rmatch name.toList then
    { s with errs := s.errs ++ [name ++ " does not match NNN_lowercase_name.sql"] }
  else
    { s with
      byNumber := appendFile (migrationNumber name) name s.byNumber
      migrations := s.migrations ++ [name] }

/-- The body of the loop over `numbers`. -/
def duplicateError (byNumber : List (String × List String)) (number : String) : Option String :=
  let files := (byNumber.lookup number).getD []
  if files.length < 2 ∨ isKnownDuplicate number files then none
  else some ("duplicate migration number " ++ number ++ ": "
    ++ ", ".intercalate (sortStrings files) ++ " (each migration needs a unique NNN_ prefix)")

def validateMigrationNames (o : MapOrder) (names : List String) : Except String (List String) :=
  let s := names.foldl NameScan.next ⟨[], [], []⟩
  let numbers := sortStrings (o.visit (s.byNumber.map Prod.fst))
  let errs := s.errs ++ numbers.filterMap (duplicateError s.byNumber)
  if errs ≠ [] then .error ("invalid migration filenames: " ++ "\n".intercalate errs)
  else .ok (sortStrings s.migrations)

end TrusTrove
