import PamDesktop.Foundations.Savepoints
import PamDesktop.Native.Database

/-!
# Transactions of a database

`dispatch` opens a transaction, runs the statements of the frontend in it and rolls back what is
left of it when one fails. The statements can be about transactions themselves:
`all_or_nothing_iff` says for which lists the database is as before whenever `dispatch` fails.
-/

namespace PamDesktop.Native

open Foundations Protocol

/-- What SQLite promises about transactions. `view` is the session in a state of the machine and
`read` finds the statements that are about transactions. A commit can be refused at any time, and
some failures roll back what is open. -/
structure Transactional {σ α : Type} (M : Machine sqlite σ) (view : σ → Session α)
    (read : String → List SqlValue → Option Control) : Prop where
  begin : ∀ s, (view s).transaction = none → (M.perform .begin s).1 = .ok () ∧
    (view s).control true .begin = some (view (M.perform .begin s).2)
  commit_ok : ∀ s, (M.perform .commit s).1 = .ok () →
    (view s).control true .commit = some (view (M.perform .commit s).2)
  commit_error : ∀ s error, (M.perform .commit s).1 = .error error →
    view (M.perform .commit s).2 = view s ∨ view (M.perform .commit s).2 = (view s).rolledBack
  rollback : ∀ s, view (M.perform .rollback s).2 = (view s).rolledBack
  autocommit : ∀ s, (M.perform .isAutocommit s).1 = (view s).transaction.isNone ∧
    view (M.perform .isAutocommit s).2 = view s
  row_id : ∀ s, view (M.perform .lastInsertRowId s).2 = view s
  control_ok : ∀ s sql values statement changes, read sql values = some statement →
    (M.perform (.execute sql values) s).1 = .ok changes →
    (view s).control true statement = some (view (M.perform (.execute sql values) s).2)
  control_error : ∀ s sql values statement error, read sql values = some statement →
    (M.perform (.execute sql values) s).1 = .error error →
    view (M.perform (.execute sql values) s).2 = view s ∨
      view (M.perform (.execute sql values) s).2 = (view s).rolledBack
  other : ∀ s sql values, read sql values = none → ∃ outcome, (view s).apply outcome =
    ((M.perform (.execute sql values) s).1.isOk, view (M.perform (.execute sql values) s).2)

/-- What SQLite reads, up to the first statement that is not accepted. -/
def readings (read : String → List SqlValue → Option Control) :
    List DatabaseStatement → List (Option Control)
  | [] => []
  | statement :: rest =>
      match acceptedValues statement.sql statement.parameters with
      | .error _ => []
      | .ok values => read statement.sql values :: readings read rest

/-- The session in which nothing has changed and a transaction was begun. -/
def begun : Session Bool := ⟨false, some ⟨false, [], true⟩⟩

/-- None of the statements makes a change durable. -/
def Contained (read : String → List SqlValue → Option Control)
    (statements : List DatabaseStatement) : Prop :=
  (Session.marks (readings read statements) begun).durable = false

instance (read : String → List SqlValue → Option Control) (statements : List DatabaseStatement) :
    Decidable (Contained read statements) :=
  inferInstanceAs (Decidable (_ = _))

/-- A transaction of these statements on this database. -/
def transactionRequest (windowId database : String) (statements : List DatabaseStatement) :
    DatabaseRequest where
  windowId := windowId
  database := database
  operation := .transaction
  statements := statements

/-- A request is all or nothing, and leaves no transaction open. -/
structure Atomic {σ α : Type} (M : Machine sqlite σ) (view : σ → Session α)
    (request : Sql Json) (s : σ) : Prop where
  failed : ∀ error, (M.run request s).1 = .error error →
    (view (M.run request s).2).contents = (view s).contents
  closed : (view (M.run request s).2).transaction = none

section Runs

variable {σ α : Type} {M : Machine sqlite σ} {view : σ → Session α}
  {read : String → List SqlValue → Option Control}

/-- A failure leaves what is durable. -/
theorem durable_of_failed {s s' : Session α} (h : s' = s ∨ s' = s.rolledBack) :
    s'.durable = s.durable := by
  obtain rfl | rfl := h
  · rfl
  · rfl

theorem run_execute (statement : DatabaseStatement) (s : σ) :
    M.run (execute statement.sql statement.parameters) s =
      match acceptedValues statement.sql statement.parameters with
      | .error error => (.error error, s)
      | .ok values =>
          match M.perform (.execute statement.sql values) s with
          | (.error error, s') => (.error (databaseError error), s')
          | (.ok changes, s') =>
              (.ok (.object [("changes", .number (changes : Nat)),
                ("lastInsertRowId", .number (M.perform .lastInsertRowId s').1)]),
              (M.perform .lastInsertRowId s').2) := by
  unfold execute
  cases acceptedValues statement.sql statement.parameters with
  | error error => rfl
  | ok values =>
      simp only [bind, Program.bind, Program.ofExcept, Machine.run]
      cases hanswer : M.perform (.execute statement.sql values) s with
      | mk answer s' =>
          cases answer with
          | error error => rfl
          | ok changes => rfl

/-- A statement that runs is one that the flags know of; one that fails has done no more. -/
theorem execute_tracks (hM : Transactional M view read) {original : α} {flags : Session Bool}
    {s : σ} (h : Session.Tracks original flags (view s)) (statement : DatabaseStatement) :
    match M.run (execute statement.sql statement.parameters) s with
    | (.ok _, s') => ∃ values flags',
        acceptedValues statement.sql statement.parameters = .ok values ∧
        flags.mark (read statement.sql values) = some flags' ∧
        Session.Tracks original flags' (view s')
    | (.error _, s') => (view s').durable = (view s).durable ∨
        ∃ values flags',
          acceptedValues statement.sql statement.parameters = .ok values ∧
          flags.mark (read statement.sql values) = some flags' ∧
          Session.Tracks original flags' (view s') := by
  rw [run_execute]
  cases hvalues : acceptedValues statement.sql statement.parameters with
  | error error => exact .inl rfl
  | ok values =>
      dsimp only
      cases hanswer : M.perform (.execute statement.sql values) s with
      | mk answer s' =>
          dsimp only
          cases hread : read statement.sql values with
          | some control =>
              cases answer with
              | error error =>
                  have hafter := hM.control_error s _ _ _ error hread (by rw [hanswer])
                  rw [hanswer] at hafter
                  exact .inl (durable_of_failed hafter)
              | ok changes =>
                  have hcontrol := hM.control_ok s _ _ _ changes hread (by rw [hanswer])
                  rw [hanswer] at hcontrol
                  obtain ⟨flags', hmark, htracks⟩ := h.control hcontrol
                  refine ⟨values, flags', rfl, ?_, ?_⟩
                  · rw [hread]
                    exact hmark
                  · rw [hM.row_id]
                    exact htracks
          | none =>
              obtain ⟨outcome, houtcome⟩ := hM.other s _ _ hread
              rw [hanswer] at houtcome
              have hmark : flags.mark (read statement.sql values) =
                  some ⟨true, flags.transaction⟩ := by
                rw [hread]
                rfl
              cases answer with
              | error error =>
                  cases outcome with
                  | completed contents => cases (Prod.mk.inj houtcome).1
                  | stopped contents =>
                      refine .inr ⟨values, _, rfl, hmark, ?_⟩
                      rw [← (Prod.mk.inj houtcome).2]
                      exact h.completed contents
                  | undone =>
                      refine .inl ?_
                      rw [← (Prod.mk.inj houtcome).2]
                  | rolledBack =>
                      refine .inl ?_
                      rw [← (Prod.mk.inj houtcome).2]
                      rfl
              | ok changes =>
                  cases outcome with
                  | completed contents =>
                      refine ⟨values, _, rfl, hmark, ?_⟩
                      rw [hM.row_id, ← (Prod.mk.inj houtcome).2]
                      exact h.completed contents
                  | stopped contents => cases (Prod.mk.inj houtcome).1
                  | undone => cases (Prod.mk.inj houtcome).1
                  | rolledBack => cases (Prod.mk.inj houtcome).1

/-- The statements leave what is durable as it was, where their flags do. The induction carries
that the flags escape once they are durable. -/
theorem execute_all_durable (hM : Transactional M view read) {original : α}
    {statements : List DatabaseStatement} {flags : Session Bool} {s : σ} (affected : Nat)
    (hescape : flags.durable = true → flags.Escaped)
    (h : Session.Tracks original flags (view s))
    (hdurable : (Session.marks (readings read statements) flags).durable = false) :
    (view (M.run (executeAll affected statements) s).2).durable = original := by
  induction statements generalizing flags s affected with
  | nil => exact h.durable hdurable
  | cons statement rest ih =>
      have hnow : flags.durable = false := Session.durable_of_marks hescape hdurable
      have hnext : ∀ values flags',
          acceptedValues statement.sql statement.parameters = .ok values →
          flags.mark (read statement.sql values) = some flags' →
          (flags'.durable = true → flags'.Escaped) ∧
            (Session.marks (readings read rest) flags').durable = false := by
        intro values flags' hvalues hmark
        refine ⟨Session.escaped_mark hescape hmark, ?_⟩
        rw [readings, hvalues] at hdurable
        simpa only [Session.marks, hmark] using hdurable
      have hstep := execute_tracks hM h statement
      rw [executeAll, Program.bind_eq, Machine.run_bind]
      cases hrun : M.run (execute statement.sql statement.parameters) s with
      | mk result s' =>
          rw [hrun] at hstep
          cases result with
          | error error =>
              obtain hsame | ⟨values, flags', hvalues, hmark, htracks⟩ := hstep
              · show (view s').durable = original
                rw [hsame]
                exact h.durable hnow
              · obtain ⟨hescape', hdurable'⟩ := hnext values flags' hvalues hmark
                exact htracks.durable (Session.durable_of_marks hescape' hdurable')
          | ok result =>
              obtain ⟨values, flags', hvalues, hmark, htracks⟩ := hstep
              obtain ⟨hescape', hdurable'⟩ := hnext values flags' hvalues hmark
              exact ih _ hescape' htracks hdurable'

/-- What a transaction comes to before it is dropped. -/
theorem transaction_body_durable (hM : Transactional M view read) {original : α}
    {statements : List DatabaseStatement} {s : σ} (h : Session.Tracks original begun (view s))
    (hcontained : Contained read statements) {error : NativeError}
    (herror : (M.run (transactionBody statements) s).1 = .error error) :
    (view (M.run (transactionBody statements) s).2).durable = original := by
  have hescape : begun.durable = true → begun.Escaped := by
    intro hdurable
    cases hdurable
  have hall := execute_all_durable hM 0 hescape h hcontained
  unfold transactionBody at herror ⊢
  rw [Program.bind_eq, Machine.run_bind] at herror ⊢
  cases hrun : M.run (executeAll 0 statements) s with
  | mk result s' =>
      rw [hrun] at herror hall
      cases result with
      | error error => exact hall
      | ok affected =>
          have hcommit := hM.commit_error s'
          simp only [Program.bind_eq, Program.call_bind, Machine.run] at herror ⊢
          cases hanswer : M.perform .commit s' with
          | mk answer s'' =>
              rw [hanswer] at herror hcommit
              cases answer with
              | ok _ => cases herror
              | error error =>
                  exact (durable_of_failed (hcommit error rfl)).trans hall

/-- Dropping a transaction leaves none, and the durable contents. -/
theorem drop_leaves_durable
    (hautocommit : ∀ s, (M.perform .isAutocommit s).1 = (view s).transaction.isNone ∧
      view (M.perform .isAutocommit s).2 = view s)
    (hrollback : ∀ s, view (M.perform .rollback s).2 = (view s).rolledBack) (s : σ) :
    (M.run dropTransaction s).1 = .ok () ∧
      view (M.run dropTransaction s).2 = ⟨(view s).durable, none⟩ := by
  obtain ⟨hanswer, hview⟩ := hautocommit s
  unfold dropTransaction
  rw [Machine.run]
  cases hopen : (view s).transaction with
  | none =>
      rw [hopen] at hanswer
      rw [if_pos (show _ = true from hanswer)]
      refine ⟨rfl, ?_⟩
      show view (M.perform .isAutocommit s).2 = _
      rw [hview]
      unfold Session.durable
      rw [hopen]
      exact congrArg (Session.mk (view s).contents) hopen
  | some transaction =>
      rw [hopen] at hanswer
      have hanswer : (M.perform .isAutocommit s).1 = false := hanswer
      rw [if_neg (by rw [hanswer]; exact Bool.false_ne_true)]
      refine ⟨rfl, ?_⟩
      show view (M.perform .rollback (M.perform .isAutocommit s).2).2 = _
      rw [hrollback, hview]
      rfl

/-- A transaction ends with the result of its body and without what is not durable. -/
theorem run_transaction (hM : Transactional M view read) {statements : List DatabaseStatement}
    {s : σ} (hs : (view s).transaction = none)
    (hsize : (statements.isEmpty || decide (maxTransactions < statements.length)) = false) :
    ∃ s', (view s).control true .begin = some (view s') ∧
      ((M.run (transaction statements) s).1.isOk =
        (M.run (transactionBody statements) s').1.isOk) ∧
      view (M.run (transaction statements) s).2 =
        ⟨(view (M.run (transactionBody statements) s').2).durable, none⟩ := by
  obtain ⟨hanswer, hbegin⟩ := hM.begin s hs
  refine ⟨(M.perform .begin s).2, hbegin, ?_⟩
  obtain ⟨hdrop, hview⟩ := drop_leaves_durable hM.autocommit hM.rollback
    (M.run (transactionBody statements) (M.perform .begin s).2).2
  unfold transaction
  rw [if_neg (by rw [hsize]; exact Bool.false_ne_true)]
  simp only [Program.bind_eq, Program.call_bind, Machine.run, hanswer, succeeds,
    Program.done_bind, Machine.run_bind, Machine.run_attempt]
  rw [Machine.run_of_result hdrop]
  cases (M.run (transactionBody statements) (M.perform .begin s).2).1 with
  | ok affected => exact ⟨rfl, hview⟩
  | error error => exact ⟨rfl, hview⟩

/-- What a request for a transaction does on a database that can be written. -/
theorem dispatch_transaction {services : DatabaseServices} {database : String}
    {handle : DatabaseHandle} (hhandle : services.handles.lookup database = some handle)
    (hwrite : handle.access = .readWrite) (windowId : String)
    (statements : List DatabaseStatement) :
    services.dispatch (transactionRequest windowId database statements) =
      transaction statements := by
  unfold DatabaseServices.dispatch transactionRequest
  dsimp only
  rw [hhandle]
  dsimp only
  rw [requireWrite, if_pos hwrite]
  rfl

/-- What it does anywhere else: nothing. -/
theorem dispatch_refused {services : DatabaseServices} {database : String}
    {statements : List DatabaseStatement}
    (hrefused : ∀ handle, services.handles.lookup database = some handle →
      handle.access = .readWrite →
      (statements.isEmpty || decide (maxTransactions < statements.length)) = true)
    (windowId : String) : ∃ error,
      services.dispatch (transactionRequest windowId database statements) = .fail error := by
  cases hhandle : services.handles.lookup database with
  | none =>
      refine ⟨.disabled ("database " ++ debugText database), ?_⟩
      unfold DatabaseServices.dispatch transactionRequest
      dsimp only
      rw [hhandle]
  | some handle =>
      by_cases hwrite : handle.access = .readWrite
      · rw [dispatch_transaction hhandle hwrite, transaction,
          if_pos (hrefused handle hhandle hwrite)]
        exact ⟨_, rfl⟩
      · refine ⟨.permission "The database is read-only.", ?_⟩
        unfold DatabaseServices.dispatch transactionRequest
        dsimp only
        rw [hhandle]
        dsimp only
        rw [requireWrite, if_neg hwrite]
        rfl

end Runs

/-! ## A connection on which everything changes and nothing is committed -/

/-- A connection whose own commits are refused and on which other statements raise a flag. -/
def alarm (read : String → List SqlValue → Option Control) : Machine sqlite (Session Bool) where
  perform
    | .begin, s =>
        match s.control true .begin with
        | some s' => (.ok (), s')
        | none => (.error "cannot start a transaction within a transaction", s)
    | .commit, s =>
        (.error (if s.transaction.isSome then "database is locked"
          else "cannot commit - no transaction is active"), s)
    | .rollback, s => (.ok (), s.rolledBack)
    | .isAutocommit, s => (s.transaction.isNone, s)
    | .execute sql values, s =>
        match s.mark (read sql values) with
        | some s' => (.ok 0, s')
        | none => (.error "SQL logic error", s)
    | .lastInsertRowId, s => (0, s)
    | .prepare _, s => (.ok [], s)
    | .query _ _, s => (.ok (), s)
    | .next _ _, s => (.ok none, s)
    | .finalize _, s => ((), s)
  partway _ _ _ := False

theorem alarm_transactional (read : String → List SqlValue → Option Control) :
    Transactional (alarm read) id read where
  begin s hs := by
    obtain ⟨contents, transaction⟩ := s
    obtain rfl : transaction = none := hs
    exact ⟨rfl, rfl⟩
  commit_ok s h := by cases h
  commit_error s error _ := .inl rfl
  rollback s := rfl
  autocommit s := ⟨rfl, rfl⟩
  row_id s := rfl
  control_ok s sql values statement changes hread h := by
    have hmark : s.mark (read sql values) = s.control true statement := by
      rw [hread]
      rfl
    simp only [alarm, hmark] at h ⊢
    cases hcontrol : s.control true statement with
    | none =>
        rw [hcontrol] at h
        cases h
    | some s' => exact hcontrol
  control_error s sql values statement error hread h := by
    have hmark : s.mark (read sql values) = s.control true statement := by
      rw [hread]
      rfl
    simp only [alarm, hmark] at h ⊢
    cases hcontrol : s.control true statement with
    | none => exact .inl rfl
    | some s' =>
        rw [hcontrol] at h
        cases h
  other s sql values hread := by
    refine ⟨.completed true, ?_⟩
    have hmark : s.mark (read sql values) = some ⟨true, s.transaction⟩ := by
      rw [hread]
      rfl
    simp only [alarm, hmark]
    rfl

/-- The flag of the alarm follows the readings. -/
theorem alarm_execute_all (read : String → List SqlValue → Option Control) (affected : Nat)
    (statements : List DatabaseStatement) (s : Session Bool) :
    ((alarm read).run (executeAll affected statements) s).2 =
      Session.marks (readings read statements) s := by
  induction statements generalizing affected s with
  | nil => rfl
  | cons statement rest ih =>
      rw [executeAll, Program.bind_eq, Machine.run_bind, run_execute, readings]
      cases acceptedValues statement.sql statement.parameters with
      | error error => rfl
      | ok values =>
          cases hmark : s.mark (read statement.sql values) with
          | none => simp only [alarm, hmark, Session.marks]
          | some s' =>
              have hanswer : (alarm read).perform (.execute statement.sql values) s =
                  (.ok 0, s') := by
                simp only [alarm, hmark]
              simp only [Session.marks, hmark, hanswer]
              exact ih _ s'

/-- Its transactions fail. -/
theorem alarm_transaction_body (read : String → List SqlValue → Option Control)
    (statements : List DatabaseStatement) (s : Session Bool) :
    ((alarm read).run (transactionBody statements) s).1.isOk = false ∧
      ((alarm read).run (transactionBody statements) s).2 =
        Session.marks (readings read statements) s := by
  have hall := alarm_execute_all read 0 statements s
  unfold transactionBody
  rw [Program.bind_eq, Machine.run_bind]
  cases hrun : (alarm read).run (executeAll 0 statements) s with
  | mk result s' =>
      rw [hrun] at hall
      cases result with
      | error error => exact ⟨rfl, hall⟩
      | ok changes => exact ⟨rfl, hall⟩

/-- Whatever the other statements do, a request is all or nothing exactly if none of its statements
makes a change durable. -/
theorem all_or_nothing_iff (services : DatabaseServices) (windowId database : String)
    (statements : List DatabaseStatement) (read : String → List SqlValue → Option Control) :
    (∀ (σ α : Type) (M : Machine sqlite σ) (view : σ → Session α) (s : σ),
      Transactional M view read → (view s).transaction = none →
      Atomic M view
        (services.dispatch (transactionRequest windowId database statements)) s) ↔
      ∀ handle, services.handles.lookup database = some handle → handle.access = .readWrite →
        statements ≠ [] → statements.length ≤ maxTransactions → Contained read statements := by
  constructor
  · intro hall handle hhandle hwrite hne hlength
    have hsize : (statements.isEmpty || decide (maxTransactions < statements.length)) = false := by
      simp [hne, hlength]
    have h := hall (Session Bool) Bool (alarm read) id ⟨false, none⟩ (alarm_transactional read) rfl
    rw [dispatch_transaction hhandle hwrite] at h
    obtain ⟨s', hbegin, hok, hview⟩ :=
      run_transaction (alarm_transactional read) (s := ⟨false, none⟩) rfl hsize
    obtain rfl : s' = begun := (Option.some.inj hbegin).symm
    obtain ⟨hfailed, hmarks⟩ := alarm_transaction_body read statements begun
    rw [hfailed] at hok
    cases hresult : ((alarm read).run (transaction statements) ⟨false, none⟩).1 with
    | ok result =>
        rw [hresult] at hok
        cases hok
    | error error =>
        have hcontents := h.failed error hresult
        rw [hview, hmarks] at hcontents
        exact hcontents
  · intro hcontained σ α M view s hM hs
    by_cases hrefused : ∀ handle, services.handles.lookup database = some handle →
        handle.access = .readWrite →
        (statements.isEmpty || decide (maxTransactions < statements.length)) = true
    · obtain ⟨error, hfail⟩ := dispatch_refused hrefused windowId
      rw [hfail]
      exact ⟨fun _ _ => rfl, hs⟩
    · push Not at hrefused
      obtain ⟨handle, hhandle, hwrite, hsize⟩ := hrefused
      rw [ne_eq, Bool.not_eq_true] at hsize
      have hbounds : statements ≠ [] ∧ statements.length ≤ maxTransactions := by
        simpa using hsize
      rw [dispatch_transaction hhandle hwrite]
      obtain ⟨s', hbegin, hok, hview⟩ := run_transaction hM hs hsize
      have htracks : Session.Tracks (view s).contents begun (view s') := by
        have hstart : Session.Tracks (view s).contents ⟨false, none⟩ (view s) := by
          have hview : view s = ⟨(view s).contents, none⟩ :=
            congrArg (Session.mk (view s).contents) hs
          rw [hview]
          exact Session.tracks_start _
        obtain ⟨flags', hflags, htracks⟩ := hstart.control hbegin
        obtain rfl : flags' = begun := (Option.some.inj hflags).symm
        exact htracks
      refine ⟨fun error herror => ?_, by rw [hview]⟩
      have hcontained := hcontained handle hhandle hwrite hbounds.1 hbounds.2
      cases hbody : (M.run (transactionBody statements) s').1 with
      | ok affected =>
          rw [hbody, herror] at hok
          cases hok
      | error error' =>
          rw [hview]
          exact transaction_body_durable hM htracks hcontained hbody

/-! ## A statement that commits -/

/-- SQLite reads the statement `COMMIT`. -/
def readCommit (sql : String) (_ : List SqlValue) : Option Control :=
  if sql = "COMMIT" then some .commit else none

/-- One database that can be written. -/
def notesServices : DatabaseServices := ⟨[("app", ⟨.readWrite, [osString "app.sqlite"]⟩)]⟩

/-- An insertion and a `COMMIT`. -/
def insertAndCommit : DatabaseRequest :=
  transactionRequest "main" "app"
    [⟨"INSERT INTO notes (body) VALUES ('one')", []⟩, ⟨"COMMIT", []⟩]

/-- The call fails, and the row stays. -/
theorem commit_escapes : Transactional (alarm readCommit) id readCommit ∧
    ¬ Atomic (alarm readCommit) id (notesServices.dispatch insertAndCommit)
      ⟨false, none⟩ := by
  refine ⟨alarm_transactional readCommit, fun h => ?_⟩
  have hfails : ((alarm readCommit).run (notesServices.dispatch insertAndCommit)
      ⟨false, none⟩).1.isOk = false := by decide +kernel
  have hstays : ((alarm readCommit).run (notesServices.dispatch insertAndCommit)
      ⟨false, none⟩).2.contents = true := by decide +kernel
  cases hresult : ((alarm readCommit).run (notesServices.dispatch insertAndCommit)
      ⟨false, none⟩).1 with
  | ok result =>
      rw [hresult] at hfails
      cases hfails
  | error error =>
      have hcontents := h.failed error hresult
      rw [show (id _ : Session Bool).contents = true from hstays] at hcontents
      cases hcontents

end PamDesktop.Native
