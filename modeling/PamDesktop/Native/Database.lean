import Mathlib.Algebra.Ring.Int.Defs
import PamDesktop.Foundations.Program
import PamDesktop.Native.GrantStore

/-!
# Databases

`DatabaseServices`: `prepare` opens the configured files and `dispatch` runs SQL that the frontend
sends on one of their connections. SQLite is not part of the program: it answers the calls of
`sqlite`, and a machine for this signature says what it does.
-/

namespace PamDesktop.Native

open Foundations Protocol

/-! ## Requests -/

inductive DatabaseOperation where
  | query | execute | transaction
deriving DecidableEq

structure DatabaseStatement where
  sql : String
  parameters : List Json := []

structure DatabaseRequest where
  windowId : String
  database : String
  operation : DatabaseOperation
  sql : String := ""
  parameters : List Json := []
  statements : List DatabaseStatement := []

def maxSqlBytes : Nat := 64 * 1024

def maxParameters : Nat := 1024

def maxRows : Nat := 10000

def maxColumns : Nat := 256

def maxTransactions : Nat := 256

/-- A value of SQLite. A real number is written as a decimal, if it is finite. -/
inductive SqlValue where
  | null
  | integer (value : Int)
  | real (value : Option String)
  | text (bytes : List UInt8)
  | blob (bytes : List UInt8)
deriving DecidableEq

def NativeError.disabled (capability : String) : NativeError :=
  ⟨.capabilityDisabled,
    "The " ++ capability ++ " capability is not enabled by the PHP application."⟩

/-- `database_error`. -/
def databaseError (error : String) : NativeError :=
  ⟨.nativeOperationFailed, "Database operation failed: " ++ error⟩

/-- `validate_statement`. -/
def validateStatement (sql : String) (parameters : List Json) : Except NativeError Unit :=
  if sql.toList.all isWhitespace || maxSqlBytes < sql.utf8ByteSize then
    .error (.invalid ("SQL statements must contain 1 to " ++ toString maxSqlBytes ++ " bytes."))
  else if maxParameters < parameters.length then
    .error (.tooLarge ("SQL statements accept at most " ++ toString maxParameters ++
      " parameters."))
  else .ok ()

/-- The closure of `sql_parameters`. -/
def sqlParameter : Json → Except NativeError SqlValue
  | .null => .ok .null
  | .bool value => .ok (.integer (if value then 1 else 0))
  | .number value =>
      if -(2 ^ 63) ≤ value ∧ value < 2 ^ 63 then .ok (.integer value)
      else if 0 ≤ value ∧ value < 2 ^ 64 then
        .error (.invalid "Unsigned SQL parameters must fit in i64.")
      else .ok (.real (some (toString value)))
  | .decimal text => .ok (.real (some text))
  | .string value => .ok (.text (osString value))
  | .array _ | .object _ =>
      .error (.invalid "SQL parameters must be null, booleans, numbers, or strings.")

/-- `sql_parameters`. -/
def sqlParameters (parameters : List Json) : Except NativeError (List SqlValue) :=
  parameters.mapM sqlParameter

/-- What a statement is run with, if it is accepted. -/
def acceptedValues (sql : String) (parameters : List Json) :
    Except NativeError (List SqlValue) := do
  validateStatement sql parameters
  sqlParameters parameters

/-- `json_value`. -/
def jsonValue : SqlValue → Except NativeError Json
  | .null => .ok .null
  | .integer value => .ok (.number value)
  | .real (some value) => .ok (.decimal value)
  | .real none => .error (.native "Cannot encode database value" "non-finite real")
  | .text bytes =>
      match String.fromUTF8? ⟨bytes.toArray⟩ with
      | some value => .ok (.string value)
      | none => .error (.invalid "Database text results must be valid UTF-8.")
  | .blob _ =>
      .error (.invalid "Blob columns require the streaming API and cannot use query().")

/-- One row of a result as an object. -/
def rowObject (names : List String) (row : List SqlValue) : Except NativeError Json := do
  let members ← (names.zip row).foldlM
    (fun members (name, value) => do
      let value ← jsonValue value
      .ok (insertEntry name value members)) []
  .ok (.object members)

/-! ## Calls of SQLite -/

/-- What `database.rs` asks of a connection, and of a statement with its text and its values. -/
inductive SqliteCall where
  | begin
  | commit
  | rollback
  | isAutocommit
  | execute (sql : String) (values : List SqlValue)
  | lastInsertRowId
  | prepare (sql : String)
  | query (sql : String) (values : List SqlValue)
  | next (sql : String) (values : List SqlValue)
  | finalize (sql : String)
deriving DecidableEq

/-- The answers: the names of the columns of a prepared statement, the next row if there is one,
the number of rows that were changed. -/
@[reducible] def SqliteCall.Reply : SqliteCall → Type
  | .begin | .commit | .rollback => Except String Unit
  | .isAutocommit => Bool
  | .execute _ _ => Except String Nat
  | .lastInsertRowId => Int
  | .prepare _ => Except String (List String)
  | .query _ _ => Except String Unit
  | .next _ _ => Except String (Option (List SqlValue))
  | .finalize _ => Unit

/-- The calls of SQLite. -/
abbrev sqlite : Signature := ⟨SqliteCall, SqliteCall.Reply⟩

abbrev Sql (α : Type) := Program sqlite NativeError α

/-- `map_err(database_error)?` of what a call answers. -/
def succeeds {α : Type} (answer : Except String α) : Sql α :=
  match answer with
  | .ok value => .done value
  | .error error => .fail (databaseError error)

/-! ## Dispatch -/

/-- `execute`. -/
def execute (sql : String) (parameters : List Json) : Sql Json := do
  let values ← Program.ofExcept (acceptedValues sql parameters)
  let changes ← Program.call (.execute sql values) succeeds
  Program.call .lastInsertRowId fun rowId =>
    .done (.object [("changes", .number (changes : Nat)), ("lastInsertRowId", .number rowId)])

/-- The loop of `query`, which stops at a row more than so many. -/
def fetchRows (sql : String) (values : List SqlValue) (names : List String) :
    Nat → List Json → Sql (List Json)
  | 0, rows => do
      match ← Program.call (.next sql values) succeeds with
      | none => .done rows.reverse
      | some _ =>
          .fail (.tooLarge ("Database queries are limited to " ++ toString maxRows ++ " rows."))
  | remaining + 1, rows => do
      match ← Program.call (.next sql values) succeeds with
      | none => .done rows.reverse
      | some row =>
          let object ← Program.ofExcept (rowObject names row)
          fetchRows sql values names remaining (object :: rows)

/-- The part of `query` in which the statement is prepared. -/
def queryRows (sql : String) (values : List SqlValue) (names : List String) : Sql (List Json) :=
  if maxColumns < names.length then
    .fail (.tooLarge ("Database results are limited to " ++ toString maxColumns ++ " columns."))
  else do
    Program.call (.query sql values) succeeds
    fetchRows sql values names maxRows []

/-- `query`. The statement is dropped at the end. -/
def query (sql : String) (parameters : List Json) : Sql Json := do
  let values ← Program.ofExcept (acceptedValues sql parameters)
  let names ← Program.call (.prepare sql) succeeds
  let rows ← (queryRows sql values names).attempt
  Program.call (.finalize sql) fun _ =>
    Program.ofExcept (rows.map fun rows => .object [("rows", .array rows)])

/-- `get("changes")` of a result. -/
def changesOf : Json → Nat
  | .object members =>
      match members.lookup "changes" with
      | some (.number value) => if value < 2 ^ 64 then value.toNat else 0
      | _ => 0
  | _ => 0

/-- The loop over the statements of a transaction: how many rows they change. -/
def executeAll : Nat → List DatabaseStatement → Sql Nat
  | affected, [] => .done affected
  | affected, statement :: rest => do
      let result ← execute statement.sql statement.parameters
      executeAll (min (affected + changesOf result) (2 ^ 64 - 1)) rest

/-- `Transaction::drop`: what is still open is rolled back. -/
def dropTransaction : Sql Unit :=
  .call .isAutocommit fun autocommit =>
    if autocommit then .done () else .call .rollback fun _ => .done ()

/-- The part of `dispatch` in which a transaction is alive. -/
def transactionBody (statements : List DatabaseStatement) : Sql Nat := do
  let affected ← executeAll 0 statements
  Program.call .commit succeeds
  .done affected

/-- The branch of `dispatch` for transactions. -/
def transaction (statements : List DatabaseStatement) : Sql Json :=
  if statements.isEmpty || maxTransactions < statements.length then
    .fail (.invalid ("Transactions require 1 to " ++ toString maxTransactions ++ " statements."))
  else do
    Program.call .begin succeeds
    let result ← (transactionBody statements).attempt
    dropTransaction
    Program.ofExcept (result.map fun affected => .object [("changes", .number (affected : Nat))])

/-- `require_write`. -/
def requireWrite (access : DatabaseAccess) : Except NativeError Unit :=
  if access = .readWrite then .ok ()
  else .error (.permission "The database is read-only.")

/-- `DatabaseHandle`: the access and the file of a connection. -/
structure DatabaseHandle where
  access : DatabaseAccess
  file : Location

/-- `DatabaseServices`. -/
structure DatabaseServices where
  handles : List (String × DatabaseHandle)

/-- `DatabaseServices::dispatch`, on the connection of the database that the request names. -/
def DatabaseServices.dispatch (services : DatabaseServices) (request : DatabaseRequest) :
    Sql Json :=
  match services.handles.lookup request.database with
  | none => .fail (.disabled ("database " ++ debugText request.database))
  | some handle =>
      match request.operation with
      | .query => query request.sql request.parameters
      | .execute => do
          Program.ofExcept (requireWrite handle.access)
          execute request.sql request.parameters
      | .transaction => do
          Program.ofExcept (requireWrite handle.access)
          transaction request.statements

/-! ## Opening the databases -/

/-- What the file system and SQLite answer to `prepare`. -/
structure DatabaseHost extends Build where
  createDirAll : Location → Except String Unit
  canonicalize : Location → Except String Location
  isSymlink : Location → Bool
  openWithFlags : Location → DatabaseAccess → Except String Unit
  busyTimeout : Location → Except String Unit
  pragmaUpdate : Location → String → Except String Unit

/-- `map_err`. -/
def describe {α : Type} (text : String) : Except String α → Except String α
  | .ok value => .ok value
  | .error error => .error (text ++ ": " ++ error)

/-- `safe_relative_path`: the normal components of the path. -/
def safeRelativePath (build : Build) (path : String) : Except String (List OsString) :=
  match projectComponents build path with
  | none => .error "database paths must be project-relative without parent components"
  | some names => .ok names

/-- The creation of the directory of a database. -/
def createParent (host : DatabaseHost) (parent : Location) (access : DatabaseAccess) :
    Except String Unit :=
  if access = .readWrite then
    describe ("cannot create database directory " ++ displayed parent) (host.createDirAll parent)
  else .ok ()

/-- Where the directory of a database really is, if that is in the project. A path without a
directory is the root itself. -/
def resolveDirectory (host : DatabaseHost) (projectRoot path : Location)
    (config : DatabaseConfig) : Except String Location :=
  if path.isEmpty then .ok []
  else do
    createParent host path.dropLast config.access
    let canonicalParent ←
      describe ("cannot resolve database directory " ++ displayed path.dropLast)
        (host.canonicalize path.dropLast)
    refuseIf (!projectRoot.isPrefixOf canonicalParent)
      ("database " ++ debugText config.name ++ " escapes the project root")
    .ok canonicalParent

/-- The two settings of a database that can be written. -/
def enableSettings (host : DatabaseHost) (path : Location) (config : DatabaseConfig) :
    Except String Unit :=
  if config.access = .readWrite then do
    describe ("cannot enable WAL for " ++ debugText config.name)
      (host.pragmaUpdate path "journal_mode")
    describe ("cannot enable foreign keys for " ++ debugText config.name)
      (host.pragmaUpdate path "foreign_keys")
  else .ok ()

/-- The body of the loop of `prepare`. SQLite opens the file in the resolved directory. -/
def prepareHandle (host : DatabaseHost) (projectRoot : Location) (config : DatabaseConfig) :
    Except String DatabaseHandle := do
  config.validate
  let relative ← safeRelativePath host.toBuild config.path
  let directory ← resolveDirectory host projectRoot (projectRoot ++ relative) config
  refuseIf (host.isSymlink (projectRoot ++ relative))
    ("database " ++ debugText config.name ++ " cannot be a symbolic link")
  describe ("cannot open database " ++ debugText config.name ++ " at " ++
    displayed (projectRoot ++ relative))
    (host.openWithFlags (projectRoot ++ relative) config.access)
  describe ("cannot configure database " ++ debugText config.name)
    (host.busyTimeout (projectRoot ++ relative))
  enableSettings host (projectRoot ++ relative) config
  .ok ⟨config.access, directory ++ (projectRoot ++ relative).getLast?.toList⟩

/-- The loop of `prepare`: a later database takes the place of one with its name. -/
def prepareHandles (host : DatabaseHost) (projectRoot : Location) :
    List (String × DatabaseHandle) → List DatabaseConfig →
      Except String (List (String × DatabaseHandle))
  | handles, [] => .ok handles
  | handles, config :: rest => do
      let handle ← prepareHandle host projectRoot config
      let others := handles.filter (·.1 ≠ config.name)
      prepareHandles host projectRoot ((config.name, handle) :: others) rest

/-- `DatabaseServices::prepare`. -/
def DatabaseServices.prepare (host : DatabaseHost) (projectRoot : Location)
    (configs : List DatabaseConfig) : Except String DatabaseServices := do
  let projectRoot ← describe "cannot resolve the database project root"
    (host.canonicalize projectRoot)
  let handles ← prepareHandles host projectRoot [] configs
  .ok ⟨handles⟩

end PamDesktop.Native
