import ControlCenter.Protocol
import ControlCenter.RunLogic
import ControlCenter.ZodSchema
import Mathlib.Algebra.GroupWithZero.Nat
import Mathlib.Algebra.Group.Int.Defs

/-! Forward-only migrations. Any number of runners with one list share a database with
other writers; a migration runs under the write lock, which one connection has at a time,
and what it has written is committed as a whole or not at all. -/
namespace ControlCenter.Migrations
open RunLogic

abbrev Counts := List (String × Nat)

-- An `up` is its statements; each throws or changes schema and data.
structure Migration (D : Type) where
  version : Int
  name : String
  expectedRowDelta : List (String × Int)
  up : List (D → Except String D)

structure RunMigrationsOptions (D : Type) where
  accHome : String
  migrations : List (Migration D)
  databasePath : Option String

structure MigrationRunResult where
  fromVersion : Int
  toVersion : Int
  appliedVersions : List Int
  backupPaths : List String
  deriving DecidableEq, Repr

inductive Failure where
  | version (databaseVersion newestKnownVersion : Int)
  | integrity (message : String)
  | other (message : String)
  deriving DecidableEq, Repr

structure File (D : Type) where
  version : Int
  data : D

structure Transaction (D : Type) where
  owner : Nat
  base : File D
  current : File D

structure Attempt (D : Type) where
  migration : Migration D
  rest : List (Migration D)
  preCounts : Counts
  backupPath : Option String
  result : MigrationRunResult

inductive Phase (D : Type) where
  | idle
  | reading
  | listing (pending : List (Migration D)) (result : MigrationRunResult)
  | counting (pending : List (Migration D)) (result : MigrationRunResult) (names : List String)
      (counts : Counts)
  | migrating (pending : List (Migration D)) (result : MigrationRunResult) (preCounts : Counts)
  | beginning (a : Attempt D)
  | rechecking (a : Attempt D)
  | skipping (a : Attempt D) (current : Int)
  | upgrading (a : Attempt D) (statements : List (D → Except String D))
  | versioning (a : Attempt D)
  | guarding (a : Attempt D)
  | committing (a : Attempt D) (postCounts : Counts)
  | checking (a : Attempt D) (postCounts : Counts)
  | rollingBack (failure : Failure)
  | returned (result : MigrationRunResult)
  | failed (failure : Failure)

structure Verdict (D : Type) where
  migration : Migration D
  lockCounts : Counts
  postCounts : Counts
  accepted : Bool

structure Applied (D : Type) where
  migration : Migration D
  before : File D
  after : File D

-- What has been applied and the verdicts are kept in the model alone.
structure Store (D : Type) where
  committed : File D
  transaction : Option (Transaction D)
  runners : Nat → Phase D
  applied : List (Applied D)
  verdicts : List (Verdict D)

def Store.opened {D : Type} (committed : File D) : Store D := ⟨committed,none,fun _ => .idle,[],[]⟩

structure Chance where
  fails : Option String
  fileSize : Nat
  timestamp : String
  integrity : Option String

inductive Event (D : Type) where
  | start (runner : Nat)
  | move (runner : Nat) (chance : Chance)
  -- A process is gone, and with it its connection.
  | crash (runner : Nat)
  -- Another connection commits a transaction of its own.
  | write (change : D → D)

section
variable {D : Type}

def assertMigrationFrom (previous : Int) : List (Migration D) → Except String Unit
  | [] => .ok ()
  | migration::rest =>
    if !ZodSchema.safeInteger migration.version || decide (migration.version < 1) then
      .error s!"Migration version must be a positive integer: {migration.version}"
    else if migration.version ≤ previous then
      .error s!"Migrations must be strictly ascending: {migration.version} after {previous}"
    else if Protocol.trim migration.name = "" then
      .error s!"Migration {migration.version} requires a name"
    else assertMigrationFrom migration.version rest

def assertMigrationList (migrations : List (Migration D)) : Except String Unit :=
  assertMigrationFrom 0 migrations

def newestKnown (migrations : List (Migration D)) : Int :=
  (migrations.getLast?.map Migration.version).getD 0

def readUserVersion (version : Int) : Except Failure Int :=
  if !ZodSchema.safeInteger version || decide (version < 0) then
    .error (.integrity s!"Invalid user_version: {version}")
  else .ok version

def rowsLost (migration : Migration D) (after : Counts) (table : String) (previousCount : Nat) :
    Option String :=
  match after.lookup table,migration.expectedRowDelta.lookup table with
  | none,some _ => none
  | none,none => some (s!"Migration {migration.version} ({migration.name}) dropped table " ++
      s!"{table} without declaring expectedRowDelta")
  | some nextCount,declared =>
    if (nextCount : Int) < previousCount + declared.getD 0 then
      some (s!"Migration {migration.version} ({migration.name}) lost rows in " ++
        s!"{table}: {previousCount} -> {nextCount} " ++
        s!"(minimum permitted {(previousCount : Int) + declared.getD 0})")
    else none

def assertNoRowsLost (after : Counts) (migration : Migration D) : Counts → Except Failure Unit
  | [] => .ok ()
  | (table,previousCount)::rest => match rowsLost migration after table previousCount with
    | some message => .error (.integrity message)
    | none => assertNoRowsLost after migration rest

def backupName (options : RunMigrationsOptions D) (version : Int) (timestamp : String) : String :=
  s!"{options.accHome}/backups/pre-v{version}-{timestamp}.sqlite"

def backupDatabase (options : RunMigrationsOptions D) (chance : Chance) (version : Int)
    (preCounts : Counts) : Option String := do
  let _ ← options.databasePath
  if chance.fileSize = 0 ∨ (preCounts.map Prod.snd).sum = 0 then none
  else some (backupName options version chance.timestamp)

def integrityMessage (a : Attempt D) (integrity : Option String) : String :=
  "Database failed PRAGMA integrity_check after migration " ++
    s!"{a.migration.version} ({a.migration.name}): " ++ integrity.getD "no result" ++ ". " ++
    match a.backupPath with
    | some path => s!"Restore the pre-migration backup: {path}"
    | none => "No pre-migration backup exists (database had no rows)."

def Store.to (s : Store D) (runner : Nat) (phase : Phase D) : Store D :=
  {s with runners := Function.update s.runners runner phase}

def Store.current (s : Store D) : File D := (s.transaction.map Transaction.current).getD s.committed

def Store.fail (s : Store D) (runner : Nat) (message : String) : Store D :=
  s.to runner (.failed (.other message))

def Store.rollBack (s : Store D) (runner : Nat) (failure : Failure) : Store D :=
  s.to runner (.rollingBack failure)

def Store.changed (s : Store D) (current : File D) : Store D :=
  {s with transaction := s.transaction.map fun t => {t with current}}

def Store.judged (s : Store D) (verdict : Verdict D) : Store D :=
  {s with verdicts := s.verdicts ++ [verdict]}

end

section
variable {D : Type} (counts : D → Counts) (keeps : Int → Int)
  (options : RunMigrationsOptions D) (chance : Chance) (s : Store D) (runner : Nat)

def read : Store D := match readUserVersion s.committed.version with
  | .error failure => s.to runner (.failed failure)
  | .ok fromVersion =>
    if newestKnown options.migrations < fromVersion then
      s.to runner (.failed (.version fromVersion (newestKnown options.migrations)))
    else
      let result : MigrationRunResult := ⟨fromVersion,fromVersion,[],[]⟩
      match options.migrations.filter fun m => decide (fromVersion < m.version) with
      | [] => s.to runner (.returned result)
      | pending => s.to runner (.listing pending result)

-- One table at a time: others may commit between two of them.
def count (pending : List (Migration D)) (result : MigrationRunResult) (counted : Counts) :
    List String → Store D
  | [] => s.to runner (.migrating pending result counted)
  | name::names => match (counts s.committed.data).lookup name with
    | none => s.fail runner s!"SQLITE_ERROR: no such table: {name}"
    | some n => s.to runner (.counting pending result names (counted ++ [(name,n)]))

def migrate (result : MigrationRunResult) (preCounts : Counts) : List (Migration D) → Store D
  | [] => s.to runner (.returned result)
  | migration::rest =>
    let backupPath := backupDatabase options chance migration.version preCounts
    s.to runner (.beginning ⟨migration,rest,preCounts,backupPath,
      {result with backupPaths := result.backupPaths ++ backupPath.toList}⟩)

def beginImmediate (a : Attempt D) : Store D := match s.transaction with
  | some _ => s.fail runner "SQLITE_BUSY: database is locked"
  | none => {s.to runner (.rechecking a) with
      transaction := some {owner := runner, base := s.committed, current := s.committed}}

def recheck (a : Attempt D) : Store D := match readUserVersion s.current.version with
  | .error failure => s.rollBack runner failure
  | .ok current =>
    if newestKnown options.migrations < current then
      s.rollBack runner (.version current (newestKnown options.migrations))
    else if a.migration.version ≤ current then s.to runner (.skipping a current)
    else s.to runner (.upgrading a a.migration.up)

def skip (a : Attempt D) (current : Int) : Store D :=
  {s.to runner (.listing a.rest {a.result with toVersion := current}) with transaction := none}

def upgrade (a : Attempt D) : List (D → Except String D) → Store D
  | [] => s.to runner (.versioning a)
  | statement::rest => match statement s.current.data with
    | .error message => s.rollBack runner (.other message)
    | .ok data => (s.changed {s.current with data}).to runner (.upgrading a rest)

def setVersion (a : Attempt D) : Store D :=
  (s.changed {s.current with version := keeps a.migration.version}).to runner (.guarding a)

def guardRows (a : Attempt D) : Store D :=
  let postCounts := counts s.current.data
  let verdict := assertNoRowsLost postCounts a.migration a.preCounts
  let lockCounts := counts ((s.transaction.map Transaction.base).getD s.committed).data
  let s := s.judged ⟨a.migration,lockCounts,postCounts,verdict.isOk⟩
  match verdict with
  | .error failure => s.rollBack runner failure
  | .ok () => s.to runner (.committing a postCounts)

def commit (a : Attempt D) (postCounts : Counts) : Store D :=
  {s.to runner (.checking a postCounts) with
    committed := s.current
    transaction := none
    applied := s.applied ++ [⟨a.migration,s.committed,s.current⟩]}

def check (a : Attempt D) (postCounts : Counts) : Store D :=
  if chance.integrity = some "ok" then s.to runner (.migrating a.rest {a.result with
    appliedVersions := a.result.appliedVersions ++ [a.migration.version]
    toVersion := a.migration.version} postCounts)
  else s.to runner (.failed (.integrity (integrityMessage a chance.integrity)))

def failing (message : String) : Phase D → Store D
  | .rechecking _ | .skipping _ _ | .upgrading _ _ | .versioning _ | .guarding _ | .committing _ _ =>
      s.rollBack runner (.other message)
  -- A ROLLBACK that fails is ignored; the connection keeps its transaction.
  | .rollingBack failure => s.to runner (.failed failure)
  | .idle | .returned _ | .failed _ => s
  | _ => s.fail runner message

def proceed : Phase D → Store D
  | .idle | .returned _ | .failed _ => s
  | .reading => read options s runner
  | .listing pending result =>
      s.to runner (.counting pending result ((counts s.committed.data).map Prod.fst) [])
  | .counting pending result names counted => count counts s runner pending result counted names
  | .migrating pending result preCounts => migrate options chance s runner result preCounts pending
  | .beginning a => beginImmediate s runner a
  | .rechecking a => recheck options s runner a
  | .skipping a current => skip s runner a current
  | .upgrading a statements => upgrade s runner a statements
  | .versioning a => setVersion keeps s runner a
  | .guarding a => guardRows counts s runner a
  | .committing a postCounts => commit s runner a postCounts
  | .checking a postCounts => check chance s runner a postCounts
  | .rollingBack failure => {s.to runner (.failed failure) with transaction := none}

def move : Store D := match chance.fails with
  | some message => failing s runner message (s.runners runner)
  | none => proceed counts keeps options chance s runner (s.runners runner)

def start : Store D := match s.runners runner,assertMigrationList options.migrations with
  | .idle,.ok () | .returned _,.ok () => s.to runner .reading
  | .idle,.error message | .returned _,.error message => s.fail runner message
  | _,_ => s

def crash : Store D := {s.to runner .idle with
  transaction := s.transaction.filter fun t => t.owner != runner}

def step : Event D → Store D
  | .start runner => start options s runner
  | .move runner chance => move counts keeps options chance s runner
  | .crash runner => crash s runner
  | .write change => match s.transaction with
    | some _ => s
    | none => {s with committed := {s.committed with data := change s.committed.data}}

end

end ControlCenter.Migrations
