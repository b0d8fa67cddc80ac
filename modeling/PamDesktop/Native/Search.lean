import PamDesktop.Foundations.PathText
import PamDesktop.Foundations.Transition
import PamDesktop.Native.Transactions

/-!
# The search index

`SearchServices::dispatch` without `Query`, which only reads: a table of documents in which `Index`
replaces the rows of a path and `Rebuild` puts one row for each file that it finds. The table does
not say that paths are different. `one_row_per_path_iff` says for which directory trees they are.
-/

namespace PamDesktop.Native

open Foundations Protocol

namespace Search

/-! ## Operations -/

/-- `MAX_CONTENT_BYTES`. -/
def maxContentBytes : Nat := 2 * 1024 * 1024

/-- A row of the table. -/
structure Document where
  path : String
  title : String
  content : String
deriving DecidableEq

/-- What the walk sees of an entry of a directory: an error, or its type, with the answers of
`read_dir`, or of `metadata` and `read_to_string`. -/
inductive Scanned where
  | failed (error : String)
  | uninspected (error : String)
  | symlink
  | directory (name : OsString) (denied : Option String) (entries : List Scanned)
  | file (name : OsString) (size : Option Nat) (content : Option String)
  | special

/-- A directory that is still to be read, with its path below the root. -/
structure Pending where
  path : List OsString
  denied : Option String
  entries : List Scanned

/-- `SearchRequest` for an operation that writes. For a rebuild it has what the walk over the
authorized target sees, if there is one. -/
inductive Request where
  | index (path title content : String)
  | remove (path : String)
  | rebuild (root : Option Pending)
  | clear

def deletePathSql : String := "DELETE FROM documents WHERE path = ?1"

def deleteAllSql : String := "DELETE FROM documents"

def insertSql : String := "INSERT INTO documents(path,title,content) VALUES(?1,?2,?3)"

def text (value : String) : SqlValue := .text (osString value)

/-- `map_err(search_error)?` of what a call answers. -/
def searched {α : Type} (answer : Except String α) : Sql α :=
  match answer with
  | .ok value => .done value
  | .error error => .fail (.native "Search index operation failed" error)

/-- What is done while a transaction is alive, which is committed in the end. -/
def committing {α : Type} (body : Sql α) : Sql α := do
  let value ← body
  Program.call .commit searched
  Program.done value

/-- A function with a transaction, which is dropped at its end. -/
def inTransaction {α : Type} (body : Sql α) : Sql α := do
  Program.call .begin searched
  let result ← (committing body).attempt
  dropTransaction
  Program.ofExcept result

/-- `index_document`. -/
def indexDocument (path title content : String) : Sql Json :=
  if path.isEmpty || 4096 < path.utf8ByteSize || maxContentBytes < content.utf8ByteSize then
    .fail (.invalid
      "Indexed documents require a bounded path and at most 2 MiB of UTF-8 content.")
  else inTransaction do
    let _ ← Program.call (.execute deletePathSql [text path]) searched
    let _ ← Program.call (.execute insertSql [text path, text title, text content]) searched
    Program.done (.object [("indexed", .number 1)])

/-- The separator that paths are built with. -/
def nativeSeparator (build : Build) : UInt8 := if build.operatingSystem = .windows then 92 else 47

/-- The path of a file below the root, as it is indexed. -/
def relativePath (build : Build) (names : List OsString) : String :=
  replaceChar '\\' '/' (toStringLossy (joinNames (nativeSeparator build) names))

/-- The row of an entry, if it is a file that is indexed. -/
def document (build : Build) (directory : List OsString) : Scanned → Option Document
  | .file name (some size) (some content) =>
      if maxContentBytes < size then none
      else some ⟨relativePath build (directory ++ [name]), toStringLossy name, content⟩
  | _ => none

/-- The loop over the entries of a directory: how many files have been indexed. -/
def scanEntries (build : Build) (directory : List OsString) : List Scanned → Nat → Sql Nat
  | [], indexed => .done indexed
  | .failed error :: _, _ => .fail (.native "Cannot scan search entry" error)
  | .uninspected error :: _, _ => .fail (.native "Cannot inspect search entry" error)
  | entry :: rest, indexed =>
      match document build directory entry with
      | none => scanEntries build directory rest indexed
      | some row => do
          let _ ← Program.call (.execute insertSql [text row.path, text row.title,
            text row.content]) searched
          scanEntries build directory rest (min (indexed + 1) (2 ^ 64 - 1))

/-- The directories among the entries, in the order in which they are pushed. -/
def subdirectories (directory : List OsString) : List Scanned → List Pending
  | [] => []
  | .directory name denied entries :: rest =>
      ⟨directory ++ [name], denied, entries⟩ :: subdirectories directory rest
  | _ :: rest => subdirectories directory rest

mutual

/-- How many directories there are among the entries and below. -/
def directoriesIn : List Scanned → Nat
  | [] => 0
  | entry :: rest => directoriesAt entry + directoriesIn rest
termination_by structural entries => entries

def directoriesAt : Scanned → Nat
  | .directory _ _ entries => directoriesIn entries + 1
  | .failed _ | .uninspected _ | .symlink | .file _ _ _ | .special => 0
termination_by structural entry => entry

end

/-- How many directories are still to be read. -/
def remaining (stack : List Pending) : Nat :=
  (stack.map fun directory => directoriesIn directory.entries + 1).sum

theorem remaining_subdirectories (directory : List OsString) (entries : List Scanned) :
    remaining (subdirectories directory entries) = directoriesIn entries := by
  induction entries with
  | nil => rfl
  | cons entry rest ih =>
      rw [directoriesIn, ← ih]
      cases entry with
      | directory name denied entries => rfl
      | failed | uninspected | symlink | file | special => exact (Nat.zero_add _).symm

theorem remaining_push (directory : Pending) (stack : List Pending) :
    remaining ((subdirectories directory.path directory.entries).reverse ++ stack) <
      remaining (directory :: stack) := by
  have hpushed := remaining_subdirectories directory.path directory.entries
  unfold remaining at hpushed ⊢
  rw [List.map_append, List.sum_append_nat, List.map_reverse, List.sum_reverse, hpushed,
    List.map_cons, List.sum_cons]
  omega

/-- The loop over the directories. -/
def scanDirectories (build : Build) (stack : List Pending) (indexed : Nat) : Sql Nat :=
  match stack with
  | [] => .done indexed
  | directory :: rest =>
      match directory.denied with
      | some error => .fail (.native "Cannot scan search root" error)
      | none =>
          (scanEntries build directory.path directory.entries indexed).bind fun indexed =>
            scanDirectories build
              ((subdirectories directory.path directory.entries).reverse ++ rest) indexed
termination_by remaining stack
decreasing_by exact remaining_push directory rest

/-- `rebuild`. -/
def rebuild (build : Build) (root : Pending) : Sql Json :=
  inTransaction do
    let _ ← Program.call (.execute deleteAllSql []) searched
    let indexed ← scanDirectories build [root] 0
    Program.done (.object [("indexed", .number (indexed : Nat))])

/-- A statement outside of a transaction, with the number of rows that it removes. -/
def removeRows (sql : String) (values : List SqlValue) : Sql Json := do
  let removed ← Program.call (.execute sql values) searched
  Program.done (.object [("removed", .number (removed : Nat))])

/-- `SearchServices::dispatch`. -/
def dispatch (build : Build) : Request → Sql Json
  | .index path title content => indexDocument path title content
  | .remove path => removeRows deletePathSql [text path]
  | .rebuild (some root) => rebuild build root
  | .rebuild none =>
      .fail (.invalid "Search rebuild requires an authorized filesystem target.")
  | .clear => removeRows deleteAllSql []

/-! ## What SQLite promises -/

/-- The session inside a transaction that the program has begun. -/
def opened (before contents : List Document) : Session (List Document) :=
  ⟨contents, some ⟨before, [], true⟩⟩

/-- What SQLite promises of a connection with the table: transactions, and what the statements of
the program do where they succeed. Any call can fail; a statement that does has no effect, or what
is open is rolled back. -/
structure Documents {σ : Type} (M : Machine sqlite σ) (view : σ → Session (List Document)) :
    Prop where
  begin_ok : ∀ s, (M.perform .begin s).1 = .ok () →
    (view s).control true .begin = some (view (M.perform .begin s).2)
  begin_error : ∀ s error, (M.perform .begin s).1 = .error error →
    view (M.perform .begin s).2 = view s
  commit_ok : ∀ s, (M.perform .commit s).1 = .ok () →
    (view s).control true .commit = some (view (M.perform .commit s).2)
  commit_error : ∀ s error, (M.perform .commit s).1 = .error error →
    view (M.perform .commit s).2 = view s ∨ view (M.perform .commit s).2 = (view s).rolledBack
  rollback : ∀ s, view (M.perform .rollback s).2 = (view s).rolledBack
  autocommit : ∀ s, (M.perform .isAutocommit s).1 = (view s).transaction.isNone ∧
    view (M.perform .isAutocommit s).2 = view s
  delete_path : ∀ s path changes,
    (M.perform (.execute deletePathSql [text path]) s).1 = .ok changes →
    view (M.perform (.execute deletePathSql [text path]) s).2 =
      ⟨(view s).contents.filter (·.path ≠ path), (view s).transaction⟩
  delete_all : ∀ s changes, (M.perform (.execute deleteAllSql []) s).1 = .ok changes →
    view (M.perform (.execute deleteAllSql []) s).2 = ⟨[], (view s).transaction⟩
  insert : ∀ s (row : Document) changes,
    (M.perform (.execute insertSql [text row.path, text row.title, text row.content]) s).1 =
      .ok changes →
    view (M.perform
      (.execute insertSql [text row.path, text row.title, text row.content]) s).2 =
      ⟨(view s).contents ++ [row], (view s).transaction⟩
  execute_error : ∀ s sql values error, (M.perform (.execute sql values) s).1 = .error error →
    view (M.perform (.execute sql values) s).2 = view s ∨
      view (M.perform (.execute sql values) s).2 = (view s).rolledBack

/-- In a transaction the program turns these contents into those, or fails and leaves what was
there before to be rolled back to. -/
def Changes {σ α : Type} (M : Machine sqlite σ) (view : σ → Session (List Document)) (p : Sql α)
    (contents result : List Document) : Prop :=
  ∀ s before, view s = opened before contents →
    (∀ value, (M.run p s).1 = .ok value → view (M.run p s).2 = opened before result) ∧
      ∀ error, (M.run p s).1 = .error error → (view (M.run p s).2).durable = before

/-- Outside of a transaction the program turns these contents into those, or fails and leaves them
as they were. -/
def Settles {σ α : Type} (M : Machine sqlite σ) (view : σ → Session (List Document)) (p : Sql α)
    (contents result : List Document) : Prop :=
  ∀ s, view s = ⟨contents, none⟩ →
    (∀ value, (M.run p s).1 = .ok value → view (M.run p s).2 = ⟨result, none⟩) ∧
      ∀ error, (M.run p s).1 = .error error → view (M.run p s).2 = ⟨contents, none⟩

/-- The rows of the files in a directory, in the order in which they are inserted. -/
def rowsOf (build : Build) (directory : List OsString) (entries : List Scanned) : List Document :=
  entries.filterMap (document build directory)

/-- The rows of all files, in the order in which they are inserted. -/
def documents (build : Build) (stack : List Pending) : List Document :=
  match stack with
  | [] => []
  | directory :: rest =>
      rowsOf build directory.path directory.entries ++
        documents build ((subdirectories directory.path directory.entries).reverse ++ rest)
termination_by remaining stack
decreasing_by exact remaining_push directory rest

/-- What an operation makes of the table if it succeeds. -/
def outcome (build : Build) (contents : List Document) : Request → List Document
  | .index path title content => contents.filter (·.path ≠ path) ++ [⟨path, title, content⟩]
  | .remove path => contents.filter (·.path ≠ path)
  | .rebuild (some root) => documents build [root]
  | .rebuild none => contents
  | .clear => []

section Runs

variable {σ α β : Type} {M : Machine sqlite σ} {view : σ → Session (List Document)}

theorem changes_done {value : α} {contents : List Document} :
    Changes M view (.done value) contents contents :=
  fun _ _ hs => ⟨fun _ _ => hs, fun _ herror => (by cases herror)⟩

theorem changes_fail {error : NativeError} {contents result : List Document} :
    Changes M view (.fail error : Sql α) contents result := by
  refine fun s before hs => ⟨fun _ hok => (by cases hok), fun _ _ => ?_⟩
  show (view s).durable = before
  rw [hs]
  rfl

theorem changes_bind {p : Sql α} {f : α → Sql β} {contents middle result : List Document}
    (hp : Changes M view p contents middle) (hf : ∀ value, Changes M view (f value) middle result) :
    Changes M view (p.bind f) contents result := by
  intro s before hs
  obtain ⟨hok, herror⟩ := hp s before hs
  rw [Machine.run_bind]
  cases hrun : M.run p s with
  | mk answer s' =>
      rw [hrun] at hok herror
      cases answer with
      | ok value => exact hf value s' before (hok value rfl)
      | error error => exact ⟨fun _ h => (by cases h), fun _ _ => herror error rfl⟩

/-- A statement in a transaction. -/
theorem changes_execute (hM : Documents M view) {sql : String} {values : List SqlValue}
    {contents result : List Document}
    (heffect : ∀ s changes, (M.perform (.execute sql values) s).1 = .ok changes →
      (view s).contents = contents →
      view (M.perform (.execute sql values) s).2 = ⟨result, (view s).transaction⟩) :
    Changes M view (.call (.execute sql values) searched) contents result := by
  intro s before hs
  cases hanswer : M.perform (.execute sql values) s with
  | mk answer s' =>
      have hok := heffect s
      have herror := hM.execute_error s sql values
      rw [hanswer] at hok herror
      simp only [Machine.run, hanswer]
      cases answer with
      | ok changes =>
          refine ⟨fun _ _ => ?_, fun _ h => (by cases h)⟩
          have hview := hok changes rfl (by rw [hs]; rfl)
          rw [hs] at hview
          exact hview
      | error error =>
          refine ⟨fun _ h => (by cases h), fun _ _ => ?_⟩
          have hdurable := durable_of_failed (herror error rfl)
          rw [hs] at hdurable
          exact hdurable

theorem changes_delete_path (hM : Documents M view) (path : String) (contents : List Document) :
    Changes M view (.call (.execute deletePathSql [text path]) searched) contents
      (contents.filter (·.path ≠ path)) :=
  changes_execute hM fun s changes hok hcontents => hcontents ▸ hM.delete_path s path changes hok

theorem changes_delete_all (hM : Documents M view) (contents : List Document) :
    Changes M view (.call (.execute deleteAllSql []) searched) contents [] :=
  changes_execute hM fun s changes hok _ => hM.delete_all s changes hok

theorem changes_insert (hM : Documents M view) (row : Document) (contents : List Document) :
    Changes M view (.call (.execute insertSql [text row.path, text row.title, text row.content])
      searched) contents (contents ++ [row]) :=
  changes_execute hM fun s changes hok hcontents => hcontents ▸ hM.insert s row changes hok

/-- What is left of a transaction that is dropped. -/
theorem dropped (hM : Documents M view) {s : σ} {contents : List Document}
    (hs : (view s).durable = contents) :
    (M.run dropTransaction s).1 = .ok () ∧ view (M.run dropTransaction s).2 = ⟨contents, none⟩ := by
  obtain ⟨hanswer, hview⟩ := drop_leaves_durable hM.autocommit hM.rollback s
  exact ⟨hanswer, hs ▸ hview⟩

/-- A transaction that is committed has made the changes of its body; otherwise what was there
before is rolled back to. -/
theorem committing_durable (hM : Documents M view) {body : Sql α}
    {before contents result : List Document} (hbody : Changes M view body contents result) {s : σ}
    (hs : view s = opened before contents) :
    (∀ value, (M.run (committing body) s).1 = .ok value →
        (view (M.run (committing body) s).2).durable = result) ∧
      ∀ error, (M.run (committing body) s).1 = .error error →
        (view (M.run (committing body) s).2).durable = before := by
  obtain ⟨hok, herror⟩ := hbody s before hs
  unfold committing
  rw [Program.bind_eq, Machine.run_bind]
  cases hrun : M.run body s with
  | mk answer s' =>
      rw [hrun] at hok herror
      cases answer with
      | error error => exact ⟨fun _ h => (by cases h), fun _ _ => herror error rfl⟩
      | ok value =>
          have hview := hok value rfl
          have hcommit := hM.commit_ok s'
          have hrefused := hM.commit_error s'
          simp only [Program.bind_eq, Program.call_bind, Machine.run]
          cases hanswer : M.perform .commit s' with
          | mk answer s'' =>
              rw [hanswer] at hcommit hrefused
              cases answer with
              | ok _ =>
                  refine ⟨fun _ _ => ?_, fun _ h => (by cases h)⟩
                  have hafter := hcommit rfl
                  rw [hview] at hafter
                  exact congrArg Session.durable (Option.some.inj hafter).symm
              | error error =>
                  refine ⟨fun _ h => (by cases h), fun _ _ => ?_⟩
                  have hafter := durable_of_failed (hrefused error rfl)
                  rw [hview] at hafter
                  exact hafter

/-- A transaction makes the changes of its body or none. -/
theorem settles_in_transaction (hM : Documents M view) {body : Sql α}
    {contents result : List Document} (hbody : Changes M view body contents result) :
    Settles M view (inTransaction body) contents result := by
  intro s hs
  have hbegin := hM.begin_ok s
  have hrefused := hM.begin_error s
  unfold inTransaction
  simp only [Program.bind_eq, Program.call_bind, Machine.run]
  cases hanswer : M.perform .begin s with
  | mk answer s' =>
      rw [hanswer] at hbegin hrefused
      cases answer with
      | error error =>
          exact ⟨fun _ h => (by cases h), fun _ _ => (hrefused error rfl).trans hs⟩
      | ok _ =>
          have hopened : view s' = opened contents contents := by
            have hafter := hbegin rfl
            rw [hs] at hafter
            exact (Option.some.inj hafter).symm
          obtain ⟨hok, herror⟩ := committing_durable hM hbody hopened
          rw [show searched (.ok ()) = Program.done () from rfl, Program.done_bind,
            Machine.run_bind, Machine.run_attempt]
          cases hrun : M.run (committing body) s' with
          | mk answer s'' =>
              rw [hrun] at hok herror
              dsimp only
              rw [Machine.run_bind]
              cases answer with
              | ok value =>
                  obtain ⟨hdrop, hview⟩ := dropped hM (hok value rfl)
                  rw [Machine.run_of_result hdrop]
                  exact ⟨fun _ _ => hview, fun _ h => (by cases h)⟩
              | error error =>
                  obtain ⟨hdrop, hview⟩ := dropped hM (herror error rfl)
                  rw [Machine.run_of_result hdrop]
                  exact ⟨fun _ h => (by cases h), fun _ _ => hview⟩

/-- A statement outside of a transaction takes effect or does not. -/
theorem settles_remove_rows (hM : Documents M view) {sql : String} {values : List SqlValue}
    {contents result : List Document}
    (heffect : ∀ s changes, (M.perform (.execute sql values) s).1 = .ok changes →
      (view s).contents = contents →
      view (M.perform (.execute sql values) s).2 = ⟨result, (view s).transaction⟩) :
    Settles M view (removeRows sql values) contents result := by
  intro s hs
  have hok := heffect s
  have hrefused := hM.execute_error s sql values
  unfold removeRows
  simp only [Program.bind_eq, Program.call_bind, Machine.run]
  cases hanswer : M.perform (.execute sql values) s with
  | mk answer s' =>
      rw [hanswer] at hok hrefused
      cases answer with
      | ok changes =>
          refine ⟨fun _ _ => ?_, fun _ h => (by cases h)⟩
          have hview := hok changes rfl (by rw [hs])
          rw [hs] at hview
          exact hview
      | error error =>
          refine ⟨fun _ h => (by cases h), fun _ _ => ?_⟩
          -- there is nothing open that could be rolled back
          obtain hsame | hback := hrefused error rfl
          · exact hsame.trans hs
          · rw [hs] at hback
            exact hback

/-! ## The walk -/

/-- A directory is read to its end or not at all. -/
theorem changes_scan_entries (hM : Documents M view) (build : Build) (directory : List OsString)
    (entries : List Scanned) (indexed : Nat) (contents : List Document) :
    Changes M view (scanEntries build directory entries indexed) contents
      (contents ++ rowsOf build directory entries) := by
  induction entries generalizing indexed contents with
  | nil =>
      rw [rowsOf, List.filterMap_nil, List.append_nil]
      exact changes_done
  | cons entry rest ih =>
      have hpassed : document build directory entry = none →
          Changes M view (scanEntries build directory rest indexed) contents
            (contents ++ rowsOf build directory (entry :: rest)) := by
        intro hrow
        rw [rowsOf, List.filterMap_cons_none hrow]
        exact ih indexed contents
      cases entry with
      | failed error => exact changes_fail
      | uninspected error => exact changes_fail
      | symlink => exact hpassed rfl
      | directory name denied entries => exact hpassed rfl
      | special => exact hpassed rfl
      | file name size content =>
          cases hrow : document build directory (.file name size content) with
          | none =>
              simp only [scanEntries, hrow]
              exact hpassed hrow
          | some row =>
              simp only [scanEntries, hrow]
              rw [rowsOf, List.filterMap_cons_some hrow, List.append_cons]
              exact changes_bind (changes_insert hM row contents) fun _ => ih _ _

/-- Every directory is read to its end, or the walk fails. -/
theorem changes_scan_directories (hM : Documents M view) (build : Build) (stack : List Pending)
    (indexed : Nat) (contents : List Document) :
    Changes M view (scanDirectories build stack indexed) contents
      (contents ++ documents build stack) := by
  match stack with
  | [] =>
      rw [scanDirectories, documents, List.append_nil]
      exact changes_done
  | directory :: rest =>
      rw [scanDirectories, documents, ← List.append_assoc]
      cases directory.denied with
      | some error => exact changes_fail
      | none =>
          exact changes_bind
            (changes_scan_entries hM build directory.path directory.entries indexed contents)
            fun indexed => changes_scan_directories hM build
              ((subdirectories directory.path directory.entries).reverse ++ rest) indexed _
termination_by remaining stack
decreasing_by exact remaining_push directory rest

/-- An operation has its outcome or changes nothing. -/
theorem settles_dispatch (hM : Documents M view) (build : Build) (request : Request)
    (contents : List Document) :
    Settles M view (dispatch build request) contents (outcome build contents request) := by
  cases request with
  | index path title content =>
      show Settles M view (indexDocument path title content) contents _
      unfold indexDocument
      split
      · exact fun s hs => ⟨fun _ h => (by cases h), fun _ _ => hs⟩
      · refine settles_in_transaction hM ?_
        exact changes_bind (changes_delete_path hM path contents) fun _ =>
          changes_bind (changes_insert hM ⟨path, title, content⟩ _) fun _ => changes_done
  | remove path =>
      exact settles_remove_rows hM fun s changes hok hcontents =>
        hcontents ▸ hM.delete_path s path changes hok
  | rebuild root =>
      cases root with
      | none => exact fun s hs => ⟨fun _ h => (by cases h), fun _ _ => hs⟩
      | some root =>
          refine settles_in_transaction hM ?_
          exact changes_bind (changes_delete_all hM contents) fun _ =>
            changes_bind (changes_scan_directories hM build [root] 0 []) fun _ => changes_done
  | clear => exact settles_remove_rows hM fun s changes hok _ => hM.delete_all s changes hok

/-! ## Rows and paths -/

/-- What was last indexed under a path. -/
def latest (build : Build) (index : String → Option Document) : Request → String → Option Document
  | .index path title content => Function.update index path (some ⟨path, title, content⟩)
  | .remove path => Function.update index path none
  | .rebuild (some root) => fun path => (documents build [root]).reverse.find? (·.path = path)
  | .rebuild none => index
  | .clear => fun _ => none

/-- At most one row per path, and that is what was last indexed. -/
structure Holds (rows : List Document) (index : String → Option Document) : Prop where
  distinct : (rows.map Document.path).Nodup
  rows_iff : ∀ row, row ∈ rows ↔ index row.path = some row

/-- Removing a path. -/
theorem holds_filter {rows : List Document} {index : String → Option Document}
    (h : Holds rows index) (path : String) :
    Holds (rows.filter (·.path ≠ path)) (Function.update index path none) where
  distinct := (List.filter_sublist.map Document.path).nodup h.distinct
  rows_iff row := by
    rw [List.mem_filter, h.rows_iff, decide_eq_true_iff]
    by_cases hpath : row.path = path
    · rw [hpath, Function.update_self]
      simp
    · rw [Function.update_of_ne hpath]
      exact and_iff_left hpath

/-- Adding a row under a path that has none. -/
theorem holds_append {rows : List Document} {index : String → Option Document}
    (h : Holds rows index) (row : Document) (hfree : index row.path = none) :
    Holds (rows ++ [row]) (Function.update index row.path (some row)) where
  distinct := by
    rw [List.map_append, List.map_singleton, List.nodup_append]
    refine ⟨h.distinct, List.nodup_singleton _, fun path hpath other hother heq => ?_⟩
    obtain ⟨earlier, hearlier, rfl⟩ := List.mem_map.mp hpath
    obtain rfl := List.mem_singleton.mp hother
    have hfound := (h.rows_iff earlier).mp hearlier
    rw [heq, hfree] at hfound
    cases hfound
  rows_iff other := by
    rw [List.mem_append, List.mem_singleton, h.rows_iff]
    by_cases hpath : other.path = row.path
    · rw [hpath, Function.update_self, hfree, Option.some_inj]
      simp [eq_comm]
    · rw [Function.update_of_ne hpath]
      refine or_iff_left fun heq => hpath ?_
      rw [heq]

/-- Rows that have just been inserted hold exactly if their paths differ. -/
theorem holds_rows_iff {rows : List Document} :
    Holds rows (fun path => rows.reverse.find? (·.path = path)) ↔
      (rows.map Document.path).Nodup := by
  refine ⟨Holds.distinct, fun hdistinct => ⟨hdistinct, fun row => ?_⟩⟩
  refine ⟨fun hmem => ?_, fun hfind => ?_⟩
  · have hsome : (rows.reverse.find? (·.path = row.path)).isSome :=
      List.find?_isSome.mpr ⟨row, List.mem_reverse.mpr hmem, decide_eq_true rfl⟩
    obtain ⟨other, hother⟩ := Option.isSome_iff_exists.mp hsome
    have hpath := List.find?_some hother
    have hmem' := List.mem_reverse.mp (List.mem_of_find?_eq_some hother)
    rw [hother]
    exact congrArg some (List.inj_on_of_nodup_map hdistinct hmem' hmem (of_decide_eq_true hpath))
  · exact List.mem_reverse.mp (List.mem_of_find?_eq_some hfind)

/-- An operation that succeeds keeps one row per path, if a rebuild finds different paths. -/
theorem holds_outcome_iff {build : Build} {rows : List Document} {index : String → Option Document}
    (h : Holds rows index) (request : Request) :
    Holds (outcome build rows request) (latest build index request) ↔
      match request with
      | .rebuild (some root) => ((documents build [root]).map Document.path).Nodup
      | _ => True := by
  cases request with
  | index path title content =>
      refine iff_of_true ?_ trivial
      have hadded := holds_append (holds_filter h path) ⟨path, title, content⟩
        (Function.update_self path none index)
      rw [Function.update_idem] at hadded
      exact hadded
  | remove path => exact iff_of_true (holds_filter h path) trivial
  | rebuild root =>
      cases root with
      | none => exact iff_of_true h trivial
      | some root => exact holds_rows_iff
  | clear =>
      exact iff_of_true ⟨List.nodup_nil, fun row => ⟨fun hmem => (by cases hmem),
        fun hnone => (by cases hnone)⟩⟩ trivial

end Runs

/-! ## Runs -/

section Conditions

variable {σ : Type} (M : Machine sqlite σ) (view : σ → Session (List Document)) (build : Build)

/-- Operations one after another, with what was last indexed under each path. -/
def operations : System (σ × (String → Option Document)) Request where
  next s request :=
    let (result, after) := M.run (dispatch build request) s.1
    some (after, if result.isOk then latest build s.2 request else s.2)

/-- The table has one row per path, and no transaction is open. -/
def Indexed (s : σ × (String → Option Document)) : Prop :=
  (view s.1).transaction = none ∧ Holds (view s.1).contents s.2

/-- An operation that fails leaves the table as it was. -/
def Retained (s : σ × (String → Option Document)) (request : Request) : Prop :=
  (M.run (dispatch build request) s.1).1.isOk = false →
    view (M.run (dispatch build request) s.1).2 = view s.1

/-- A rebuild that succeeds has found files with different paths. -/
def DistinctPaths (s : σ × (String → Option Document)) (request : Request) : Prop :=
  match request with
  | .rebuild (some root) => (M.run (dispatch build (.rebuild (some root))) s.1).1.isOk = true →
      ((documents build [root]).map Document.path).Nodup
  | _ => True

variable {M} {view} {build}

/-- What an operation does where no transaction is open. -/
theorem next_outcome (hM : Documents M view) {s : σ} (hs : (view s).transaction = none)
    (request : Request) :
    view (M.run (dispatch build request) s).2 =
      if (M.run (dispatch build request) s).1.isOk then
        ⟨outcome build (view s).contents request, none⟩
      else view s := by
  have hview : view s = ⟨(view s).contents, none⟩ := congrArg (Session.mk (view s).contents) hs
  obtain ⟨hok, herror⟩ := settles_dispatch hM build request (view s).contents s hview
  cases hrun : M.run (dispatch build request) s with
  | mk result after =>
      rw [hrun] at hok herror
      cases result with
      | ok value => exact hok value rfl
      | error error => exact (herror error rfl).trans hview.symm

/-- An operation keeps one row per path exactly if it finds different paths. -/
theorem next_indexed (hM : Documents M view) {s s' : σ × (String → Option Document)}
    {request : Request} (hs : Indexed view s)
    (h : (operations M build).next s request = some s') :
    DistinctPaths M build s request ↔ Indexed view s' := by
  obtain ⟨s, index⟩ := s
  obtain ⟨hclosed, hholds⟩ := hs
  have hview : view (M.run (dispatch build request) s).2 = _ := next_outcome hM hclosed request
  obtain rfl := Option.some.inj h
  unfold Indexed
  dsimp only
  rw [hview]
  cases hok : (M.run (dispatch build request) s).1.isOk with
  | false =>
      refine iff_of_true ?_ ⟨hclosed, hholds⟩
      match request with
      | .rebuild (some root) => exact fun h => absurd h (by rw [hok]; exact Bool.false_ne_true)
      | .rebuild none => exact trivial
      | .index path title content => exact trivial
      | .remove path => exact trivial
      | .clear => exact trivial
  | true =>
      have hiff : Holds (outcome build _ request) (latest build index request) ↔ _ :=
        holds_outcome_iff hholds request
      simp only [if_true, true_and]
      rw [hiff]
      match request with
      | .rebuild (some root) => exact ⟨fun h => h hok, fun h _ => h⟩
      | .rebuild none => exact Iff.rfl
      | .index path title content => exact Iff.rfl
      | .remove path => exact Iff.rfl
      | .clear => exact Iff.rfl

/-- In every run an operation that fails leaves the table as it was, and the table has one row per
path, with what was last indexed, exactly if every rebuild that succeeds has found files with
different paths. -/
theorem one_row_per_path_iff (hM : Documents M view) (build : Build)
    {s : σ × (String → Option Document)} (hs : Indexed view s) (requests : List Request) :
    (operations M build).Throughout (Retained M view build) s requests ∧
      ((operations M build).Always (Indexed view) s requests ↔
        (operations M build).Throughout (DistinctPaths M build) s requests) := by
  have hclosed : (operations M build).Always (fun s => (view s.1).transaction = none) s
      requests := by
    refine System.Throughout.always (C := fun _ _ => True)
      (System.throughout_of_events (fun _ _ _ => trivial) s) hs.1 fun s request s' hs _ h => ?_
    obtain rfl := Option.some.inj h
    have hview : view (M.run (dispatch build request) s.1).2 = _ := next_outcome hM hs request
    dsimp only
    rw [hview]
    split
    · rfl
    · exact hs
  constructor
  · refine hclosed.admits fun s request hs hfailed => ?_
    rw [next_outcome hM hs, hfailed]
    rfl
  · obtain ⟨final, hplay⟩ := System.play_total (M := operations M build) (fun _ _ => rfl) s requests
    exact System.always_iff_throughout (I := fun _ => True) ⟨trivial, hs⟩ hplay
      fun _ _ _ _ hs h => ⟨trivial, next_indexed hM hs h⟩

end Conditions

/-! ## A connection in memory -/

/-- The text of a value. -/
def ofText : SqlValue → Option String
  | .text bytes => String.fromUTF8? ⟨bytes.toArray⟩
  | _ => none

/-- What the statements of the program do to the rows. -/
def effect (sql : String) (values : List SqlValue) (rows : List Document) :
    Option (List Document) :=
  if sql = deleteAllSql then some []
  else if sql = deletePathSql then
    match values.mapM ofText with
    | some [path] => some (rows.filter (·.path ≠ path))
    | _ => none
  else if sql = insertSql then
    match values.mapM ofText with
    | some [path, title, content] => some (rows ++ [⟨path, title, content⟩])
    | _ => none
  else none

/-- A connection on which nothing fails that can succeed. -/
def memory : Machine sqlite (Session (List Document)) where
  perform
    | .begin, s =>
        match s.control true .begin with
        | some s' => (.ok (), s')
        | none => (.error "cannot start a transaction within a transaction", s)
    | .commit, s =>
        match s.control true .commit with
        | some s' => (.ok (), s')
        | none => (.error "cannot commit - no transaction is active", s)
    | .rollback, s => (.ok (), s.rolledBack)
    | .isAutocommit, s => (s.transaction.isNone, s)
    | .execute sql values, s =>
        match effect sql values s.contents with
        | some rows => (.ok 0, ⟨rows, s.transaction⟩)
        | none => (.error "SQL logic error", s)
    | .lastInsertRowId, s => (0, s)
    | .prepare _, s => (.ok [], s)
    | .query _ _, s => (.ok (), s)
    | .next _ _, s => (.ok none, s)
    | .finalize _, s => ((), s)
  partway _ _ _ := False

theorem of_text (value : String) : ofText (text value) = some value := from_utf8_os_string value

theorem effect_delete_path (path : String) (rows : List Document) :
    effect deletePathSql [text path] rows = some (rows.filter (·.path ≠ path)) := by
  unfold effect
  rw [if_neg (by decide), if_pos rfl]
  simp only [List.mapM_cons, List.mapM_nil, of_text]
  rfl

theorem effect_insert (row : Document) (rows : List Document) :
    effect insertSql [text row.path, text row.title, text row.content] rows =
      some (rows ++ [row]) := by
  unfold effect
  rw [if_neg (by decide), if_neg (by decide), if_pos rfl]
  simp only [List.mapM_cons, List.mapM_nil, of_text]
  rfl

/-- A statement that has an effect. -/
theorem memory_execute {sql : String} {values : List SqlValue} {s : Session (List Document)}
    {rows : List Document} (h : effect sql values s.contents = some rows) :
    memory.perform (.execute sql values) s = (.ok 0, ⟨rows, s.transaction⟩) := by
  simp only [memory, h]

theorem memory_documents : Documents memory id where
  begin_ok s h := by
    simp only [memory] at h ⊢
    cases hcontrol : s.control true .begin with
    | none =>
        rw [hcontrol] at h
        cases h
    | some s' => exact hcontrol
  begin_error s error h := by
    simp only [memory] at h ⊢
    cases hcontrol : s.control true .begin with
    | none => rfl
    | some s' =>
        rw [hcontrol] at h
        cases h
  commit_ok s h := by
    simp only [memory] at h ⊢
    cases hcontrol : s.control true .commit with
    | none =>
        rw [hcontrol] at h
        cases h
    | some s' => exact hcontrol
  commit_error s error h := by
    simp only [memory] at h ⊢
    cases hcontrol : s.control true .commit with
    | none => exact .inl rfl
    | some s' =>
        rw [hcontrol] at h
        cases h
  rollback s := rfl
  autocommit s := ⟨rfl, rfl⟩
  delete_path s path changes h := by
    rw [memory_execute (effect_delete_path path s.contents)]
    rfl
  delete_all s changes h := by
    rw [memory_execute (show effect _ _ s.contents = some [] from if_pos rfl)]
    rfl
  insert s row changes h := by
    rw [memory_execute (effect_insert row s.contents)]
    rfl
  execute_error s sql values error h := by
    refine .inl ?_
    simp only [memory] at h ⊢
    cases heffect : effect sql values s.contents with
    | none => rfl
    | some rows =>
        rw [heffect] at h
        cases h

/-- An empty index. -/
def empty : Session (List Document) × (String → Option Document) := (⟨[], none⟩, fun _ => none)

theorem empty_indexed : Indexed id empty :=
  ⟨rfl, List.nodup_nil, fun _ => ⟨fun hmem => (by cases hmem), fun hnone => (by cases hnone)⟩⟩

/-- A Linux host. -/
def linux : Build := ⟨.linux, "x86_64", false, fun _ => none⟩

/-- A file next to a directory with another. -/
def twoFiles (name : String) : Pending :=
  ⟨[], none, [.file (osString name) (some 1) (some "x"),
    .directory (osString "a") none [.file (osString "b") (some 1) (some "y")]]⟩

/-- A rebuild, and a document that is indexed after it. -/
theorem two_files_indexed :
    (operations memory linux).Always (Indexed id) empty
      [.rebuild (some (twoFiles "b")), .index "a/b" "b" "z"] := by
  refine (one_row_per_path_iff memory_documents linux empty_indexed _).2.mpr ?_
  exact ⟨fun _ => by decide +kernel, fun _ _ => ⟨trivial, fun _ _ => trivial⟩⟩

/-- The index after a rebuild in which a file is named like a path with the other separator. -/
def rebuilt : Session (List Document) :=
  (memory.run (dispatch linux (.rebuild (some (twoFiles "a\\b")))) empty.1).2

/-- That file is indexed under the path, which has two rows then. -/
theorem two_rows_for_one_path :
    Documents memory id ∧ rebuilt.contents = [⟨"a/b", "a\\b", "x"⟩, ⟨"a/b", "b", "y"⟩] ∧
      ¬ (operations memory linux).Always (Indexed id) empty
        [.rebuild (some (twoFiles "a\\b"))] := by
  have hrows : rebuilt.contents = [⟨"a/b", "a\\b", "x"⟩, ⟨"a/b", "b", "y"⟩] := by decide +kernel
  refine ⟨memory_documents, hrows, fun halways => ?_⟩
  have hdistinct : (rebuilt.contents.map Document.path).Nodup := (halways.2 _ rfl).2.distinct
  rw [hrows] at hdistinct
  exact absurd hdistinct (by decide)

end Search

end PamDesktop.Native
