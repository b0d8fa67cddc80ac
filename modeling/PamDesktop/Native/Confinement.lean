import PamDesktop.Native.Database

/-!
# The files of a database

`prepare` keeps the file of each database in the project. What a connection reaches after that is
up to the statements: `confined_iff` says for which requests every connection stays with the files
of its database.
-/

namespace PamDesktop.Native

open Foundations Protocol

/-! ## What statements reach -/

/-- What a statement opens that is not of a database of its connection. The directory is one in
which a `PRAGMA` puts the temporary files. -/
inductive Reach where
  | inside
  | attach (file : Location)
  | vacuumInto (file : Location)
  | temporaryFiles (directory : Location)
deriving DecidableEq

/-- The place that is named. -/
def Reach.place : Reach → Option Location
  | .inside => none
  | .attach file | .vacuumInto file | .temporaryFiles file => some file

/-- The suffixes of the files that SQLite keeps beside a database. -/
def sideSuffixes : List OsString := [osString "-journal", osString "-wal", osString "-shm"]

/-- SQLite uses the file for this place: it is there, below it or beside it. A transaction over
several databases has a journal whose name goes on after `-mj`. -/
def Owns (place file : Location) : Prop :=
  place <+: file ∨ ∃ directory name suffix, place = directory ++ [name] ∧
    file = directory ++ [name ++ suffix] ∧ (suffix ∈ sideSuffixes ∨ osString "-mj" <+: suffix)

/-- What a connection has attached, and every file that it has read or written. -/
structure Reached where
  places : Location → Prop
  touched : Location → Prop

/-- A statement adds no more than it names, and touches no more than what is there then. -/
structure Extends (reach : Reach) (before after : Reached) : Prop where
  places : ∀ place, after.places place → before.places place ∨ reach.place = some place
  touched : ∀ file, after.touched file → before.touched file ∨
    ∃ place, (before.places place ∨ reach.place = some place) ∧ Owns place file

/-- What a call can reach, where the statements can reach this. -/
def SqliteCall.reaches (reads : String → List SqlValue → Reach → Prop) :
    SqliteCall → Reach → Prop
  | .execute sql values, reach | .next sql values, reach => reads sql values reach
  | _, _ => False

/-- What SQLite promises about files: a call uses the databases that are attached and what its
statement names. -/
structure Filing {σ : Type} (M : Machine sqlite σ) (view : σ → Reached)
    (reads : String → List SqlValue → Reach → Prop) : Prop where
  call : ∀ call s, ∃ reach, (reach = .inside ∨ call.reaches reads reach) ∧
    Extends reach (view s) (view (M.perform call s).2)

/-! ## Requests one after another -/

/-- The connections after requests, each on the connection of its database. -/
def DatabaseServices.serve {σ : Type} (services : DatabaseServices) (M : Machine sqlite σ) :
    List DatabaseRequest → (String → σ) → String → σ
  | [], s => s
  | request :: rest, s =>
      services.serve M rest (Function.update s request.database
        (M.run (services.dispatch request) (s request.database)).2)

/-- Each connection has its database attached and has touched nothing else. -/
structure Opened {σ : Type} (services : DatabaseServices) (view : σ → Reached)
    (s : String → σ) : Prop where
  places : ∀ name handle, services.handles.lookup name = some handle →
    ∀ place, (view (s name)).places place → place = handle.file
  touched : ∀ name handle, services.handles.lookup name = some handle →
    ∀ file, (view (s name)).touched file → Owns handle.file file

/-- Each connection has touched its database only. -/
def Confined {σ : Type} (services : DatabaseServices) (view : σ → Reached) (s : String → σ) :
    Prop :=
  ∀ name handle, services.handles.lookup name = some handle →
    ∀ file, (view (s name)).touched file → Owns handle.file file

/-- The statements of a transaction that are run, up to the first that is not accepted. -/
def accepted : List DatabaseStatement → List (String × List SqlValue)
  | [] => []
  | statement :: rest =>
      match acceptedValues statement.sql statement.parameters with
      | .error _ => []
      | .ok values => (statement.sql, values) :: accepted rest

/-- One statement, if it is accepted. -/
def acceptedOne (sql : String) (parameters : List Json) : List (String × List SqlValue) :=
  match acceptedValues sql parameters with
  | .error _ => []
  | .ok values => [(sql, values)]

/-- The statements of a request that are run if those before them succeed. -/
def DatabaseRequest.statementsRun (request : DatabaseRequest) (access : DatabaseAccess) :
    List (String × List SqlValue) :=
  match request.operation with
  | .query => acceptedOne request.sql request.parameters
  | .execute =>
      if access = .readWrite then acceptedOne request.sql request.parameters else []
  | .transaction =>
      if access = .readWrite ∧ request.statements ≠ [] ∧
          request.statements.length ≤ maxTransactions then accepted request.statements
      else []

/-- The statement names nothing that is not of the database. -/
def Harmless (file : Location) (reach : Reach) : Prop :=
  ∀ place, reach.place = some place → ∀ other, Owns place other → Owns file other

/-! ## Staying with the database -/

section Staying

variable {σ : Type} {M : Machine sqlite σ} {view : σ → Reached}
  {reads : String → List SqlValue → Reach → Prop} {file : Location}

/-- What is attached and what was touched is of the database. -/
structure Stays (file : Location) (reached : Reached) : Prop where
  places : ∀ place, reached.places place → ∀ other, Owns place other → Owns file other
  touched : ∀ other, reached.touched other → Owns file other

/-- A harmless statement stays with the database. -/
theorem Stays.extends {reach : Reach} {before after : Reached} (h : Stays file before)
    (hharmless : Harmless file reach) (hextends : Extends reach before after) :
    Stays file after := by
  have hplaces : ∀ place, (before.places place ∨ reach.place = some place) →
      ∀ other, Owns place other → Owns file other := by
    intro place hplace
    obtain hplace | hplace := hplace
    · exact h.places place hplace
    · exact hharmless place hplace
  constructor
  · exact fun place hplace => hplaces place (hextends.places place hplace)
  · intro other hother
    obtain hbefore | ⟨place, hplace, howns⟩ := hextends.touched other hother
    · exact h.touched other hbefore
    · exact hplaces place hplace other howns

theorem harmless_inside : Harmless file .inside := nofun

/-- The call makes no harmful statement go on. -/
def HarmlessCall (reads : String → List SqlValue → Reach → Prop) (file : Location)
    (call : SqliteCall) : Prop :=
  ∀ reach, call.reaches reads reach → Harmless file reach

theorem stays_call (hM : Filing M view reads) {call : SqliteCall}
    (hcall : HarmlessCall reads file call) (s : σ) (h : Stays file (view s)) :
    Stays file (view (M.perform call s).2) := by
  obtain ⟨reach, hreach, hextends⟩ := hM.call call s
  obtain rfl | hreach := hreach
  · exact h.extends harmless_inside hextends
  · exact h.extends (hcall reach hreach) hextends

/-- What is said of the statements of a request. -/
def HarmlessRun (reads : String → List SqlValue → Reach → Prop) (file : Location)
    (statements : List (String × List SqlValue)) : Prop :=
  ∀ statement ∈ statements, ∀ reach, reads statement.1 statement.2 reach → Harmless file reach

theorem harmless_other {call : SqliteCall} (h : ∀ reach, ¬ call.reaches reads reach) :
    HarmlessCall reads file call := fun reach hreach => absurd hreach (h reach)

theorem uses_succeeds {α : Type} (allowed : SqliteCall → Prop) (answer : Except String α) :
    (succeeds answer).Uses allowed := by
  cases answer <;> trivial

theorem execute_uses {sql : String} {parameters : List Json}
    (h : HarmlessRun reads file (acceptedOne sql parameters)) :
    (execute sql parameters).Uses (HarmlessCall reads file) := by
  unfold execute
  unfold acceptedOne at h
  cases hvalues : acceptedValues sql parameters with
  | error error => trivial
  | ok values =>
      rw [hvalues] at h
      refine ⟨h (sql, values) (List.mem_singleton_self _), fun answer => ?_⟩
      refine (uses_succeeds _ answer).bind fun changes => ?_
      exact ⟨harmless_other fun _ => id, fun _ => trivial⟩

theorem execute_all_uses {statements : List DatabaseStatement} (affected : Nat)
    (h : HarmlessRun reads file (accepted statements)) :
    (executeAll affected statements).Uses (HarmlessCall reads file) := by
  induction statements generalizing affected with
  | nil => trivial
  | cons statement rest ih =>
      unfold accepted at h
      rw [executeAll]
      cases hvalues : acceptedValues statement.sql statement.parameters with
      | error error =>
          unfold execute
          rw [hvalues]
          trivial
      | ok values =>
          rw [hvalues] at h
          refine Program.Uses.bind (execute_uses ?_) fun result => ih _ fun other hother =>
            h other (List.mem_cons_of_mem _ hother)
          unfold acceptedOne
          rw [hvalues]
          intro other hother
          rw [List.mem_singleton.mp hother]
          exact h _ List.mem_cons_self

theorem transaction_uses {statements : List DatabaseStatement}
    (h : statements ≠ [] → statements.length ≤ maxTransactions →
      HarmlessRun reads file (accepted statements)) :
    (transaction statements).Uses (HarmlessCall reads file) := by
  unfold transaction
  split
  · trivial
  · rename_i hsize
    have hbounds : statements ≠ [] ∧ statements.length ≤ maxTransactions := by
      simpa using hsize
    have hbody : (transactionBody statements).Uses (HarmlessCall reads file) := by
      refine (execute_all_uses 0 (h hbounds.1 hbounds.2)).bind fun affected => ?_
      refine ⟨harmless_other fun _ => id, fun answer => ?_⟩
      exact (uses_succeeds _ answer).bind fun _ => trivial
    refine ⟨harmless_other fun _ => id, fun answer => (uses_succeeds _ answer).bind fun _ => ?_⟩
    refine hbody.attempt.bind fun result => ?_
    refine Program.Uses.bind ?_ fun _ => Program.uses_of_except _
    refine ⟨harmless_other fun _ => id, fun autocommit => ?_⟩
    dsimp only
    split
    · trivial
    · exact ⟨harmless_other fun _ => id, fun _ => trivial⟩

theorem fetch_rows_uses {sql : String} {values : List SqlValue} (names : List String)
    (remaining : Nat) (rows : List Json)
    (h : ∀ reach, reads sql values reach → Harmless file reach) :
    (fetchRows sql values names remaining rows).Uses (HarmlessCall reads file) := by
  induction remaining generalizing rows with
  | zero =>
      refine ⟨h, fun answer => (uses_succeeds _ answer).bind fun row => ?_⟩
      cases row <;> trivial
  | succ remaining ih =>
      refine ⟨h, fun answer => (uses_succeeds _ answer).bind fun row => ?_⟩
      cases row with
      | none => trivial
      | some row => exact (Program.uses_of_except _).bind fun object => ih _

theorem query_uses {sql : String} {parameters : List Json}
    (h : HarmlessRun reads file (acceptedOne sql parameters)) :
    (query sql parameters).Uses (HarmlessCall reads file) := by
  unfold query
  unfold acceptedOne at h
  cases hvalues : acceptedValues sql parameters with
  | error error => trivial
  | ok values =>
      rw [hvalues] at h
      have hreads : ∀ reach, reads sql values reach → Harmless file reach :=
        h (sql, values) (List.mem_singleton_self _)
      refine ⟨harmless_other fun _ => id, fun answer => ?_⟩
      refine (uses_succeeds _ answer).bind fun names => ?_
      have hrows : (queryRows sql values names).Uses (HarmlessCall reads file) := by
        unfold queryRows
        split
        · trivial
        · refine ⟨harmless_other fun _ => id, fun answer => ?_⟩
          exact (uses_succeeds _ answer).bind fun _ => fetch_rows_uses names _ _ hreads
      refine hrows.attempt.bind fun rows => ?_
      exact ⟨harmless_other fun _ => id, fun _ => Program.uses_of_except _⟩

/-- A request goes no further than its statements. -/
theorem dispatch_uses {services : DatabaseServices} {request : DatabaseRequest}
    {handle : DatabaseHandle} (hhandle : services.handles.lookup request.database = some handle)
    (h : HarmlessRun reads file (request.statementsRun handle.access)) :
    (services.dispatch request).Uses (HarmlessCall reads file) := by
  unfold DatabaseServices.dispatch
  unfold DatabaseRequest.statementsRun at h
  rw [hhandle]
  dsimp only
  cases hoperation : request.operation with
  | query =>
      rw [hoperation] at h
      exact query_uses h
  | execute =>
      rw [hoperation] at h
      by_cases hwrite : handle.access = .readWrite
      · dsimp only at h ⊢
        rw [if_pos hwrite] at h
        exact (Program.uses_of_except _).bind fun _ => execute_uses h
      · dsimp only
        rw [requireWrite, if_neg hwrite]
        trivial
  | transaction =>
      rw [hoperation] at h
      by_cases hwrite : handle.access = .readWrite
      · refine (Program.uses_of_except _).bind fun _ => transaction_uses fun hne hlength => ?_
        dsimp only at h
        rwa [if_pos ⟨hwrite, hne, hlength⟩] at h
      · dsimp only
        rw [requireWrite, if_neg hwrite]
        trivial

/-- A request whose statements are harmless stays with the database. -/
theorem stays_dispatch (hM : Filing M view reads) {services : DatabaseServices}
    {request : DatabaseRequest} {handle : DatabaseHandle}
    (hhandle : services.handles.lookup request.database = some handle)
    (h : HarmlessRun reads file (request.statementsRun handle.access)) {s : σ}
    (hs : Stays file (view s)) :
    Stays file (view (M.run (services.dispatch request) s).2) := by
  let inv : σ → Prop := fun s => Stays file (view s)
  have hcall : ∀ call s, HarmlessCall reads file call → inv s → inv (M.perform call s).2 :=
    fun call s hcall hs => stays_call hM hcall s hs
  have hend : inv (M.run (services.dispatch request) s).2 :=
    Machine.run_invariant hcall (dispatch_uses hhandle h) hs
  exact hend

/-- Requests whose statements are harmless stay with their databases. -/
theorem stays_serve (hM : Filing M view reads) {services : DatabaseServices}
    {requests : List DatabaseRequest} {s : String → σ}
    (h : ∀ request ∈ requests, ∀ handle,
      services.handles.lookup request.database = some handle →
      HarmlessRun reads handle.file (request.statementsRun handle.access))
    (hs : ∀ name handle, services.handles.lookup name = some handle →
      Stays handle.file (view (s name))) (name : String) (handle : DatabaseHandle)
    (hhandle : services.handles.lookup name = some handle) :
    Stays handle.file (view (services.serve M requests s name)) := by
  induction requests generalizing s with
  | nil => exact hs name handle hhandle
  | cons request rest ih =>
      refine ih (fun other hother => h other (List.mem_cons_of_mem _ hother)) ?_
      intro name handle hhandle
      by_cases hname : name = request.database
      · subst hname
        rw [Function.update_self]
        exact stays_dispatch hM hhandle (h request List.mem_cons_self handle hhandle)
          (hs _ handle hhandle)
      · rw [Function.update_of_ne hname]
        exact hs name handle hhandle

end Staying

/-! ## Connections that go as far as they can -/

/-- What a call that succeeds answers. -/
def SqliteCall.success : (call : SqliteCall) → call.Reply
  | .begin | .commit | .rollback => .ok ()
  | .isAutocommit => true
  | .execute _ _ => .ok 0
  | .lastInsertRowId => 0
  | .prepare _ => .ok []
  | .query _ _ => .ok ()
  | .next _ _ => .ok none
  | .finalize _ => ()

/-- What a call reaches, where the statements reach this. -/
def SqliteCall.picked (pick : String → List SqlValue → Reach) : SqliteCall → Reach
  | .execute sql values | .next sql values => pick sql values
  | _ => .inside

/-- What is named is attached and touched. -/
def Reached.extend (reached : Reached) (reach : Reach) : Reached where
  places place := reached.places place ∨ reach.place = some place
  touched file := reached.touched file ∨ ∃ place, reach.place = some place ∧ Owns place file

/-- Connections on which everything succeeds and the statements reach as far as this. -/
def recorder (pick : String → List SqlValue → Reach) : Machine sqlite Reached where
  perform call s := (call.success, s.extend (call.picked pick))
  partway _ _ _ := False

section Recording

variable {pick : String → List SqlValue → Reach}

theorem recorder_filing {reads : String → List SqlValue → Reach → Prop}
    (hpick : ∀ sql values, pick sql values = .inside ∨ reads sql values (pick sql values)) :
    Filing (recorder pick) id reads where
  call call s := by
    have hreach : call.picked pick = .inside ∨ call.reaches reads (call.picked pick) := by
      cases call with
      | execute sql values => exact hpick sql values
      | next sql values => exact hpick sql values
      | begin => exact .inl rfl
      | commit => exact .inl rfl
      | rollback => exact .inl rfl
      | isAutocommit => exact .inl rfl
      | lastInsertRowId => exact .inl rfl
      | prepare sql => exact .inl rfl
      | query sql values => exact .inl rfl
      | finalize sql => exact .inl rfl
    refine ⟨call.picked pick, hreach, fun place => id, fun file hfile => ?_⟩
    obtain hfile | ⟨place, hplace, howns⟩ := hfile
    · exact .inl hfile
    · exact .inr ⟨place, .inr hplace, howns⟩

/-- What was touched stays so. -/
theorem recorder_keeps {ε α : Type} (p : Program sqlite ε α) {s : Reached} {file : Location}
    (h : s.touched file) : ((recorder pick).run p s).2.touched file := by
  induction p generalizing s with
  | done value => exact h
  | fail error => exact h
  | call call next ih => exact ih _ (.inl h)

/-- What a call names is touched. -/
theorem recorder_touches {ε α : Type} {p : Program sqlite ε α} {s : Reached} {call : SqliteCall}
    (hcall : call ∈ (recorder pick).calls p s) {place file : Location}
    (hplace : (call.picked pick).place = some place) (howns : Owns place file) :
    ((recorder pick).run p s).2.touched file := by
  induction p generalizing s with
  | done value => cases hcall
  | fail error => cases hcall
  | call first next ih =>
      obtain rfl | hcall := List.mem_cons.mp hcall
      · have htouched : (s.extend (call.picked pick)).touched file :=
          .inr ⟨place, hplace, howns⟩
        exact recorder_keeps (next call.success) htouched
      · exact ih _ hcall

theorem recorder_execute (pick : String → List SqlValue → Reach) {sql : String}
    {parameters : List Json} {values : List SqlValue}
    (hvalues : acceptedValues sql parameters = .ok values) (s : Reached) :
    .execute sql values ∈ (recorder pick).calls (execute sql parameters) s ∧
      ∃ result s', (recorder pick).run (execute sql parameters) s = (.ok result, s') := by
  unfold execute
  rw [hvalues]
  exact ⟨List.mem_cons_self, _, _, rfl⟩

/-- Every statement of a transaction is run. -/
theorem recorder_execute_all {statements : List DatabaseStatement} (affected : Nat) (s : Reached)
    {statement : String × List SqlValue} (h : statement ∈ accepted statements) :
    .execute statement.1 statement.2 ∈
      (recorder pick).calls (executeAll affected statements) s := by
  induction statements generalizing affected s with
  | nil => cases h
  | cons first rest ih =>
      unfold accepted at h
      rw [executeAll, Program.bind_eq, Machine.calls_bind]
      cases hvalues : acceptedValues first.sql first.parameters with
      | error error =>
          rw [hvalues] at h
          cases h
      | ok values =>
          rw [hvalues] at h
          obtain ⟨hcall, result, s', hrun⟩ := recorder_execute pick hvalues s
          obtain rfl | h := List.mem_cons.mp h
          · exact List.mem_append_left _ hcall
          · rw [hrun]
            exact List.mem_append_right _ (ih _ s' h)

theorem recorder_transaction {statements : List DatabaseStatement} (hne : statements ≠ [])
    (hlength : statements.length ≤ maxTransactions) (s : Reached)
    {statement : String × List SqlValue} (h : statement ∈ accepted statements) :
    .execute statement.1 statement.2 ∈ (recorder pick).calls (transaction statements) s := by
  unfold transaction
  rw [if_neg (by simp [hne, hlength])]
  refine List.mem_cons_of_mem _ ?_
  show _ ∈ (recorder pick).calls (((transactionBody statements).attempt).bind _) _
  rw [Machine.calls_bind, Machine.calls_attempt]
  refine List.mem_append_left _ ?_
  unfold transactionBody
  rw [Program.bind_eq, Machine.calls_bind]
  exact List.mem_append_left _ (recorder_execute_all 0 _ h)

theorem recorder_query {sql : String} {parameters : List Json} {values : List SqlValue}
    (hvalues : acceptedValues sql parameters = .ok values) (s : Reached) :
    .next sql values ∈ (recorder pick).calls (query sql parameters) s := by
  unfold query
  rw [hvalues]
  refine List.mem_cons_of_mem _ (List.mem_cons_of_mem _ ?_)
  exact List.mem_cons_self

/-- Every statement of a request goes as far as it can. -/
theorem recorder_dispatch {services : DatabaseServices} {request : DatabaseRequest}
    {handle : DatabaseHandle} (hhandle : services.handles.lookup request.database = some handle)
    {statement : String × List SqlValue} (h : statement ∈ request.statementsRun handle.access)
    (s : Reached) :
    ∃ call ∈ (recorder pick).calls (services.dispatch request) s,
      call.picked pick = pick statement.1 statement.2 := by
  have hone : ∀ {sql : String} {parameters : List Json},
      statement ∈ acceptedOne sql parameters →
      acceptedValues sql parameters = .ok statement.2 ∧ sql = statement.1 := by
    intro sql parameters h
    unfold acceptedOne at h
    cases hvalues : acceptedValues sql parameters with
    | error error =>
        rw [hvalues] at h
        cases h
    | ok values =>
        rw [hvalues] at h
        rw [List.mem_singleton.mp h]
        exact ⟨rfl, rfl⟩
  unfold DatabaseServices.dispatch
  unfold DatabaseRequest.statementsRun at h
  rw [hhandle]
  dsimp only
  cases hoperation : request.operation with
  | query =>
      rw [hoperation] at h
      obtain ⟨hvalues, hsql⟩ := hone h
      refine ⟨_, recorder_query hvalues s, ?_⟩
      rw [hsql]
      rfl
  | execute =>
      rw [hoperation] at h
      dsimp only at h ⊢
      split at h
      · rename_i hwrite
        obtain ⟨hvalues, hsql⟩ := hone h
        rw [requireWrite, if_pos hwrite]
        refine ⟨_, (recorder_execute _ hvalues s).1, ?_⟩
        rw [hsql]
        rfl
      · cases h
  | transaction =>
      rw [hoperation] at h
      dsimp only at h ⊢
      split at h
      · rename_i hrun
        obtain ⟨hwrite, hne, hlength⟩ := hrun
        rw [requireWrite, if_pos hwrite]
        exact ⟨_, recorder_transaction hne hlength s h, rfl⟩
      · cases h

/-- What was touched stays so over the requests that follow. -/
theorem recorder_serve_keeps {services : DatabaseServices} (requests : List DatabaseRequest)
    {s : String → Reached} {name : String} {file : Location} (h : (s name).touched file) :
    (services.serve (recorder pick) requests s name).touched file := by
  induction requests generalizing s with
  | nil => exact h
  | cons request rest ih =>
      apply ih
      by_cases hname : name = request.database
      · subst hname
        rw [Function.update_self]
        exact recorder_keeps _ h
      · rw [Function.update_of_ne hname]
        exact h

/-- Every statement of every request goes as far as it can. -/
theorem recorder_serve {services : DatabaseServices} {requests : List DatabaseRequest}
    {request : DatabaseRequest} (hrequest : request ∈ requests) {handle : DatabaseHandle}
    (hhandle : services.handles.lookup request.database = some handle)
    {statement : String × List SqlValue} (h : statement ∈ request.statementsRun handle.access)
    {place file : Location} (hplace : (pick statement.1 statement.2).place = some place)
    (howns : Owns place file) (s : String → Reached) :
    (services.serve (recorder pick) requests s request.database).touched file := by
  induction requests generalizing s with
  | nil => cases hrequest
  | cons first rest ih =>
      obtain rfl | hrequest := List.mem_cons.mp hrequest
      · obtain ⟨call, hcall, hpicked⟩ := recorder_dispatch hhandle h (s request.database)
        refine recorder_serve_keeps rest ?_
        rw [Function.update_self]
        exact recorder_touches hcall (hpicked ▸ hplace) howns
      · exact ih hrequest _

end Recording

/-- Whatever else the statements do, the connections stay with their databases exactly if no
statement of the requests can name another place. -/
theorem confined_iff (services : DatabaseServices) (requests : List DatabaseRequest)
    (reads : String → List SqlValue → Reach → Prop) :
    (∀ (σ : Type) (M : Machine sqlite σ) (view : σ → Reached) (s : String → σ),
      Filing M view reads → Opened services view s →
      Confined services view (services.serve M requests s)) ↔
      ∀ request ∈ requests, ∀ handle,
        services.handles.lookup request.database = some handle →
        ∀ statement ∈ request.statementsRun handle.access,
        ∀ reach, reads statement.1 statement.2 reach → Harmless handle.file reach := by
  constructor
  · intro hall request hrequest handle hhandle statement hstatement reach hreach place hplace
      file howns
    classical
    let pick : String → List SqlValue → Reach := fun sql values =>
      if (sql, values) = statement then reach else .inside
    have hpick : ∀ sql values, pick sql values = .inside ∨ reads sql values (pick sql values) := by
      intro sql values
      by_cases heq : (sql, values) = statement
      · refine .inr ?_
        rw [show pick sql values = reach from if_pos heq]
        subst heq
        exact hreach
      · exact .inl (if_neg heq)
    let s : String → Reached := fun _ => ⟨fun _ => False, fun _ => False⟩
    have hconfined := hall Reached (recorder pick) id s (recorder_filing hpick)
      ⟨fun _ _ _ _ => False.elim, fun _ _ _ _ => False.elim⟩
    refine hconfined request.database handle hhandle file
      (recorder_serve hrequest hhandle hstatement ?_ howns s)
    rw [show pick statement.1 statement.2 = reach from if_pos rfl]
    exact hplace
  · intro h σ M view s hM hs name handle hhandle file hfile
    have hstart : ∀ name handle, services.handles.lookup name = some handle →
        Stays handle.file (view (s name)) := by
      intro name handle hhandle
      refine ⟨fun place hplace => ?_, hs.touched name handle hhandle⟩
      rw [hs.places name handle hhandle place hplace]
      exact fun other => id
    exact (stays_serve hM h hstart name handle hhandle).touched file hfile

/-! ## The configuration -/

theorem refuse_if_ok {condition : Bool} {error : String} {value : Unit}
    (h : refuseIf condition error = .ok value) : condition = false := by
  unfold refuseIf at h
  split at h
  · cases h
  · rename_i hcondition
    exact Bool.eq_false_iff.mpr hcondition

/-- The directory of a database is in the project. -/
theorem resolve_directory_ok {host : DatabaseHost} {projectRoot relative directory : Location}
    {config : DatabaseConfig}
    (h : resolveDirectory host projectRoot (projectRoot ++ relative) config = .ok directory) :
    projectRoot <+: directory := by
  unfold resolveDirectory at h
  split at h
  · rename_i hempty
    obtain ⟨rfl, _⟩ := List.append_eq_nil_iff.mp (List.isEmpty_iff.mp hempty)
    exact List.nil_prefix
  · obtain ⟨_, _, h⟩ := except_bind_ok.mp h
    obtain ⟨canonicalParent, _, h⟩ := except_bind_ok.mp h
    obtain ⟨_, hrefuse, h⟩ := except_bind_ok.mp h
    obtain rfl := Except.ok.inj h
    have hinside := refuse_if_ok hrefuse
    rw [Bool.not_eq_false'] at hinside
    exact List.isPrefixOf_iff_prefix.mp hinside

theorem prepare_handle_ok {host : DatabaseHost} {projectRoot : Location}
    {config : DatabaseConfig} {handle : DatabaseHandle}
    (h : prepareHandle host projectRoot config = .ok handle) : projectRoot <+: handle.file := by
  unfold prepareHandle at h
  obtain ⟨_, _, h⟩ := except_bind_ok.mp h
  obtain ⟨relative, _, h⟩ := except_bind_ok.mp h
  obtain ⟨directory, hdirectory, h⟩ := except_bind_ok.mp h
  obtain ⟨_, _, h⟩ := except_bind_ok.mp h
  obtain ⟨_, _, h⟩ := except_bind_ok.mp h
  obtain ⟨_, _, h⟩ := except_bind_ok.mp h
  obtain ⟨_, _, h⟩ := except_bind_ok.mp h
  obtain rfl := Except.ok.inj h
  exact (resolve_directory_ok hdirectory).trans (List.prefix_append _ _)

/-- The files of the databases that `prepare` opens are in the project. -/
theorem prepare_inside {host : DatabaseHost} {root : Location} {configs : List DatabaseConfig}
    {services : DatabaseServices} (h : DatabaseServices.prepare host root configs = .ok services) :
    ∃ projectRoot, host.canonicalize root = .ok projectRoot ∧
      ∀ entry ∈ services.handles, projectRoot <+: entry.2.file := by
  unfold DatabaseServices.prepare at h
  obtain ⟨projectRoot, hroot, h⟩ := except_bind_ok.mp h
  obtain ⟨handles, hhandles, h⟩ := except_bind_ok.mp h
  obtain rfl := Except.ok.inj h
  have hroot : host.canonicalize root = .ok projectRoot := by
    cases hresult : host.canonicalize root with
    | ok other =>
        rw [hresult] at hroot
        exact hroot
    | error error =>
        rw [hresult] at hroot
        cases hroot
  refine ⟨projectRoot, hroot, ?_⟩
  have hloop : ∀ (configs : List DatabaseConfig) (before after : List (String × DatabaseHandle)),
      (∀ entry ∈ before, projectRoot <+: entry.2.file) →
      prepareHandles host projectRoot before configs = .ok after →
      ∀ entry ∈ after, projectRoot <+: entry.2.file := by
    intro configs
    induction configs with
    | nil =>
        intro before after hbefore h
        obtain rfl := Except.ok.inj h
        exact hbefore
    | cons config rest ih =>
        intro before after hbefore h
        obtain ⟨handle, hhandle, h⟩ := except_bind_ok.mp h
        refine ih _ after (fun entry hentry => ?_) h
        obtain rfl | hentry := List.mem_cons.mp hentry
        · exact prepare_handle_ok hhandle
        · exact hbefore entry (List.mem_of_mem_filter hentry)
  exact hloop configs [] handles nofun hhandles

/-! ## A statement that attaches -/

/-- A file outside the project. -/
def otherFile : Location := [osString "etc", osString "other.sqlite"]

/-- What the statement can reach that attaches the file. -/
def readsAttach (sql : String) (_ : List SqlValue) (reach : Reach) : Prop :=
  sql = "ATTACH DATABASE '/etc/other.sqlite' AS other" ∧ reach = .attach otherFile

/-- Connections on which the statement succeeds. -/
def attaches (sql : String) (_ : List SqlValue) : Reach :=
  if sql = "ATTACH DATABASE '/etc/other.sqlite' AS other" then .attach otherFile else .inside

/-- A database that can only be read. -/
def catalog : DatabaseServices :=
  ⟨[("catalog", ⟨.read, [osString "project", osString "catalog.sqlite"]⟩)]⟩

/-- The query that attaches the file. -/
def attachQuery : DatabaseRequest where
  windowId := "main"
  database := "catalog"
  operation := .query
  sql := "ATTACH DATABASE '/etc/other.sqlite' AS other"

/-- The query touches the other file. -/
theorem attach_escapes :
    Filing (recorder attaches) id readsAttach ∧
      Opened catalog id (fun _ => ⟨fun _ => False, fun _ => False⟩) ∧
      ¬ Confined catalog id (catalog.serve (recorder attaches) [attachQuery]
        fun _ => ⟨fun _ => False, fun _ => False⟩) := by
  refine ⟨recorder_filing fun sql values => ?_, ⟨fun _ _ _ _ => False.elim,
    fun _ _ _ _ => False.elim⟩, fun h => ?_⟩
  · by_cases hsql : sql = "ATTACH DATABASE '/etc/other.sqlite' AS other"
    · exact .inr ⟨hsql, if_pos hsql⟩
    · exact .inl (if_neg hsql)
  · have hstatement : (attachQuery.sql, []) ∈ attachQuery.statementsRun .read := by
      have hvalues : acceptedValues attachQuery.sql attachQuery.parameters = .ok [] := by
        decide +kernel
      show (attachQuery.sql, []) ∈ acceptedOne attachQuery.sql attachQuery.parameters
      unfold acceptedOne
      rw [hvalues]
      exact List.mem_singleton_self _
    have hplace : (attaches attachQuery.sql []).place = some otherFile := by decide +kernel
    have hself : Owns otherFile otherFile := .inl (List.prefix_refl otherFile)
    have hhandle : catalog.handles.lookup "catalog" =
        some ⟨.read, [osString "project", osString "catalog.sqlite"]⟩ := rfl
    have htouched := recorder_serve (List.mem_singleton_self attachQuery) hhandle hstatement hplace
      hself fun _ => ⟨fun _ => False, fun _ => False⟩
    have howns := h "catalog" _ hhandle otherFile htouched
    obtain hprefix | ⟨directory, name, suffix, hplace, hfile, _⟩ := howns
    · revert hprefix
      decide +kernel
    · have hdirectory := congrArg List.head? hplace
      have hother := congrArg List.head? hfile
      cases directory with
      | nil => cases hplace
      | cons first rest =>
          have hfirst : osString "project" = first := Option.some.inj hdirectory
          have hsecond : osString "etc" = first := Option.some.inj hother
          have hdiffer : osString "project" ≠ osString "etc" := by decide +kernel
          exact hdiffer (hfirst.trans hsecond.symm)

end PamDesktop.Native
