/-
  **THE MIGRATION RUNNER** (`internal/pkg/xmysql/migrate.go`).

  `RunMigrations` reads which files were applied, and applies every other `.sql` file of the
  directory in the order of the names, cut at its semicolons. The first error ends the run. The
  database is a parameter (`Server`).
-/
import AiScheduler.Lib.Table
import AiScheduler.Cron.Expr

namespace AiScheduler.Xmysql

open Lib

/-! ## Cutting a file. -/

def splitSQLStatements (content : List Char) : List (List Char) :=
  ((Cron.split ';' content).map Cron.trimSpace).filter (fun statement => statement ≠ [])

/-! ## The database and the directory. -/

/-- The database: its answer to each request of the runner. -/
structure Server (σ : Type) where
  exec : List Char → σ → Except Err σ
  appliedFiles : σ → Except Err (List String)
  begin_ : σ → Except Err σ
  record : String → σ → Except Err σ
  commit : σ → Except Err σ
  rollback : σ → σ

/-- An entry of the migration directory, with what `os.ReadFile` gives for it. -/
structure DirEntry where
  name : String
  isDir : Bool := false
  content : Except Err String

/-- A directory: no name occurs twice. -/
abbrev Directory := Table DirEntry.name

/-- The database and what was sent to it so far, each statement with its file. -/
structure Session (σ : Type) where
  db : σ
  sent : List (String × List Char) := []

section Runner

variable {σ : Type} (server : Server σ)

/-- The loop over the statements of one file, inside its transaction. -/
def execStatements (name : String) :
    List (List Char) → Session σ → Except Err Unit × Session σ
  | [], s => (.ok (), s)
  | statement :: statements, s =>
    let sent := s.sent ++ [(name, statement)]
    match server.exec statement s.db with
    | .error e => (.error e, { db := server.rollback s.db, sent := sent })
    | .ok db => execStatements name statements { db := db, sent := sent }

/-- `filepath.Join(dir, name)` for a clean `dir`. -/
def join (dir name : String) : String := dir ++ "/" ++ name

/-- One pass of the loop over the files, for a file that is not applied yet. -/
def applyFile (dir : String) (file : DirEntry) (s : Session σ) : Except Err Unit × Session σ :=
  match file.content with
  | .error e => (.error (.wrap ("read migration file " ++ join dir file.name) e), s)
  | .ok content =>
    match server.begin_ s.db with
    | .error e => (.error (.wrap ("begin tx for " ++ file.name) e), s)
    | .ok db =>
      match execStatements server file.name (splitSQLStatements content.toList)
          { s with db := db } with
      | (.error e, s) => (.error (.wrap ("apply migration " ++ join dir file.name) e), s)
      | (.ok (), s) =>
        match server.record file.name s.db with
        | .error e =>
          (.error (.wrap ("record migration " ++ file.name) e),
            { s with db := server.rollback s.db })
        | .ok db =>
          match server.commit db with
          | .error e =>
            (.error (.wrap ("commit migration " ++ file.name) e), { s with db := db })
          | .ok db => (.ok (), { s with db := db })

/-- The loop over the files. -/
def applyFiles (dir : String) (applied : List String) :
    List DirEntry → Session σ → Except Err Unit × Session σ
  | [], s => (.ok (), s)
  | file :: files, s =>
    if file.name ∈ applied then applyFiles dir applied files s
    else
      match applyFile server dir file s with
      | (.error e, s) => (.error e, s)
      | (.ok (), s) => applyFiles dir applied files s

/-- The `.sql` files of a directory, by name (`sort.Strings` on the paths). -/
def migrationFiles (d : Directory) : List DirEntry :=
  (d.rows.filter (fun e => !e.isDir && e.name.endsWith ".sql")).insertionSort
    (fun a b => a.name ≤ b.name)

/-- The statement that creates the tracking table. -/
def trackingTable : List Char :=
  "CREATE TABLE IF NOT EXISTS schema_migrations (
		filename VARCHAR(255) PRIMARY KEY,
		applied_at DATETIME NOT NULL DEFAULT CURRENT_TIMESTAMP
	)".toList

/-- `RunMigrations`; `listing` is what `os.ReadDir` gives. -/
def runMigrations (dir : String) (listing : Except Err Directory) (db : σ) :
    Except Err Unit × Session σ :=
  match server.exec trackingTable db with
  | .error e => (.error (.wrap "create schema_migrations" e), { db := db })
  | .ok db =>
    -- a failed query counts as no file applied
    let applied := (server.appliedFiles db).toOption.getD []
    match listing with
    | .error e => (.error (.wrap "read migration dir" e), { db := db })
    | .ok d => applyFiles server dir applied (migrationFiles d) { db := db }

end Runner

end AiScheduler.Xmysql
