import PamDesktop.Protocol.Bootstrap

/-!
# The job journal

`JobJournal` keeps the state of every persistent job in memory and rewrites a whole file at each
transition. The lock of the states is held while the file is written, so an update is one step
for the threads that share the journal. The JSON text of the file is modelled by what it encodes.
-/

namespace PamDesktop.Scheduler

open Protocol

/-- The largest `u64`. -/
def maxU64 : Nat := 2 ^ 64 - 1

/-- `u64::saturating_add`. -/
def saturatingAdd (a b : Nat) : Nat := min (a + b) maxU64

/-- `u64::saturating_mul`. -/
def saturatingMul (a b : Nat) : Nat := min (a * b) maxU64

/-- `JobRunState`. -/
inductive JobRunState where
  | pending | running
deriving DecidableEq

/-- The number of a run state in the file. -/
def JobRunState.code : JobRunState → Nat
  | .pending => 1
  | .running => 2

/-- `JobState`. The file may hold any number as the state. -/
structure JobState where
  state : Nat
  nextRunAtMs : Nat
  attempts : Nat
deriving DecidableEq

/-- The state that is recorded under each job identifier. -/
abbrev JobStates := String → Option JobState

/-- What is found at the path of a journal. -/
inductive JournalFile where
  | absent
  | states (states : JobStates)
  | unreadable (error : String)
  | undecodable (error : String)

/-- The journal files by their paths. -/
abbrev Disk := String → JournalFile

/-- The step of a journal update that fails, with the error of the operating system. -/
inductive JournalFault where
  | directory (error : String)
  | encode (error : String)
  | create (error : String)
  | persist (error : String)
  | publish (error : String)
deriving DecidableEq

/-- The error of an update. -/
def JournalFault.message : JournalFault → String
  | .directory error => "cannot create job journal directory: " ++ error
  | .encode error => "cannot encode job journal: " ++ error
  | .create error => "cannot create job journal: " ++ error
  | .persist error => "cannot persist job journal: " ++ error
  | .publish error => "cannot publish job journal: " ++ error

/-- `job_data_path` below the data directory of the operating system, if that is known. -/
def jobDataPath (base : Option String) (applicationId : String) : Except String String :=
  match base with
  | none => .error "cannot locate operating-system data directory for jobs"
  | some base => .ok (base ++ "/pam-desktop/" ++ applicationId ++ "/jobs.json")

/-- `JobJournal`: the path of its file and the states in memory. -/
structure JobJournal where
  path : String
  states : JobStates

namespace JobJournal

/-- `JobJournal::open_at`. -/
def openAt (disk : Disk) (path : String) : Except String JobJournal :=
  match disk path with
  | .absent => .ok ⟨path, fun _ => none⟩
  | .states states => .ok ⟨path, states⟩
  | .unreadable error => .error ("cannot read job journal: " ++ error)
  | .undecodable error => .error ("cannot decode job journal: " ++ error)

/-- `JobJournal::open`. -/
def openFor (base : Option String) (disk : Disk) (applicationId : String) :
    Except String JobJournal := do
  openAt disk (← jobDataPath base applicationId)

/-- `JobJournal::initial_delay`, in milliseconds. -/
def initialDelay (journal : JobJournal) (job : BackgroundJobConfig) (now : Nat) : Nat :=
  if job.persistent then
    match journal.states job.id with
    | none => job.initialDelayMs
    | some state =>
        if state.state = JobRunState.running.code then 0
        else state.nextRunAtMs - now
  else job.initialDelayMs

/-- `JobJournal::update`. The states in memory change even if the file cannot be replaced. -/
def update (journal : JobJournal) (disk : Disk) (fault : Option JournalFault) (id : String)
    (state : JobState) : JobJournal × Disk × Except String Unit :=
  let states : JobStates := Function.update journal.states id (some state)
  match fault with
  | some fault => ({ journal with states := states }, disk, .error fault.message)
  | none =>
      ({ journal with states := states }, Function.update disk journal.path (.states states), .ok ())

/-- `JobJournal::started`. -/
def started (journal : JobJournal) (disk : Disk) (fault : Option JournalFault)
    (job : BackgroundJobConfig) (attempt : Nat) : JobJournal × Disk × Except String Unit :=
  if job.persistent then
    journal.update disk fault job.id ⟨JobRunState.running.code, 0, attempt⟩
  else (journal, disk, .ok ())

/-- `JobJournal::finished`. -/
def finished (journal : JobJournal) (disk : Disk) (fault : Option JournalFault)
    (job : BackgroundJobConfig) (now : Nat) : JobJournal × Disk × Except String Unit :=
  if job.persistent then
    journal.update disk fault job.id
      ⟨JobRunState.pending.code, saturatingAdd now job.intervalMs, 0⟩
  else (journal, disk, .ok ())

end JobJournal

/-! ## What a file records of a job -/

/-- The entry of a job in the file at a path. -/
def Disk.entry (disk : Disk) (path id : String) : Option JobState :=
  match disk path with
  | .states states => states id
  | _ => none

/-- The entry says that the job is running. -/
def MarkedRunning (entry : Option JobState) : Prop :=
  ∃ state, entry = some state ∧ state.state = JobRunState.running.code

instance (entry : Option JobState) : Decidable (MarkedRunning entry) :=
  match entry with
  | none => .isFalse fun ⟨_, h, _⟩ => by cases h
  | some state =>
      decidable_of_iff (state.state = JobRunState.running.code)
        ⟨fun h => ⟨state, rfl, h⟩, fun ⟨_, heq, h⟩ => by cases heq; exact h⟩

/-- The two states are told apart. -/
theorem not_marked_pending (nextRunAtMs attempts : Nat) :
    ¬MarkedRunning (some ⟨JobRunState.pending.code, nextRunAtMs, attempts⟩) := by
  intro ⟨state, heq, hcode⟩
  cases heq
  cases hcode

/-- A job that the file records as running is due at once in the next schedule. -/
theorem marked_running_due {disk : Disk} {path : String} {job : BackgroundJobConfig}
    (hpersistent : job.persistent = true) (hrunning : MarkedRunning (disk.entry path job.id))
    (now : Nat) :
    ∃ journal, JobJournal.openAt disk path = .ok journal ∧ journal.initialDelay job now = 0 := by
  obtain ⟨state, hentry, hcode⟩ := hrunning
  unfold Disk.entry at hentry
  split at hentry
  · rename_i states hfile
    refine ⟨⟨path, states⟩, ?_, ?_⟩
    · rw [JobJournal.openAt, hfile]
    · show JobJournal.initialDelay ⟨path, states⟩ job now = 0
      rw [JobJournal.initialDelay, if_pos hpersistent]
      simp only [hentry]
      exact if_pos hcode
  · cases hentry

namespace JobJournal

variable {journal : JobJournal} {disk : Disk} {path : String}

@[simp] theorem update_path (fault : Option JournalFault) (id : String) (state : JobState) :
    (journal.update disk fault id state).1.path = journal.path := by
  cases fault <;> rfl

@[simp] theorem update_states (fault : Option JournalFault) (id : String) (state : JobState) :
    (journal.update disk fault id state).1.states =
      Function.update journal.states id (some state) := by
  cases fault <;> rfl

/-- After an update the file records for every job what the memory does. -/
theorem update_entry (id other : String) (state : JobState) :
    Disk.entry (journal.update disk none id state).2.1 journal.path other =
      (journal.update disk none id state).1.states other := by
  simp [update, Disk.entry]

end JobJournal

end PamDesktop.Scheduler
