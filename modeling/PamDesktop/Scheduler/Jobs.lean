import PamDesktop.Foundations.Transition
import PamDesktop.Scheduler.Journal
import PamDesktop.Worker.Client

/-!
# The threads of a schedule

`JobScene.step` is the closure that `start_with_dispatcher` gives to each thread, with `run_job`
inlined, cut at the points where another thread or the drop of the schedule can come in between.
What a thread finds out about its surroundings at such a point is a `Moment`, which a run chooses
freely. `interrupted_jobs_recorded_iff` is about every interleaving of the threads with the drop.
-/

namespace PamDesktop.Scheduler

open Foundations Protocol Worker

/-- `JOB_COMMAND`. -/
def jobCommand : String := "@pam/job"

/-- What PHP is asked for a job. -/
structure JobRequest where
  command : String
  windowId : String
  id : String
  runId : UInt64
  startedAtMs : Nat
  timeoutMs : Nat
deriving DecidableEq

/-- What a thread hands to the rest of the host: the events `pam.job.journal-failed`,
`pam.job.skipped` (with reason 1), `pam.job.started`, `pam.job.completed` and `pam.job.failed`, the
request to PHP, and the effects and events of the response. -/
inductive JobOutput (Value : Type) where
  | journalFailed (id message : String)
  | skipped (id : String) (runId : UInt64)
  | started (id : String) (runId : UInt64) (startedAtMs : Nat)
  | request (request : JobRequest)
  | effects (effects : List (Effect Value))
  | event (event : ClientEvent Value)
  | completed (id : String) (runId : UInt64) (result : Value)
  | failed (id : String) (runId : UInt64) (code : ErrorCode) (message : String)

/-- `EffectDispatcher`. -/
inductive EffectDispatcher where
  | ui | headless
deriving DecidableEq

variable {Value : Type}

/-- `EffectDispatcher::dispatch`. -/
def EffectDispatcher.dispatch (dispatcher : EffectDispatcher) (effects : List (Effect Value)) :
    List (JobOutput Value) :=
  match dispatcher, effects with
  | .ui, effect :: rest => [.effects (effect :: rest)]
  | _, _ => []

/-- Where a thread is. `delayed`, `backingOff` and `resting` are its three waits, `starting` and
`finishing` come before the two journal updates, and the others are inside `run_job`: before the
first check of the stop flag, before the lock of the supervisor, before the second check, and
before the response. -/
inductive JobPhase where
  | spawned
  | delayed (delay : Nat)
  | starting (attempt : Nat)
  | entering (attempt : Nat)
  | locking (attempt : Nat) (runId : UInt64) (startedAtMs : Nat)
  | checking (attempt : Nat) (runId : UInt64) (startedAtMs : Nat)
  | requesting (attempt : Nat) (runId : UInt64) (startedAtMs : Nat)
  | backingOff (attempt : Nat) (delay : Nat)
  | finishing
  | resting (delay : Nat)
  | ended
deriving DecidableEq

/-- A job thread. `interruption` is the attempt that the stop has ended; the code does not keep it. -/
structure JobThread where
  job : BackgroundJobConfig
  phase : JobPhase
  interruption : Option Nat
deriving DecidableEq

/-- What the next step of a thread meets: the clock, whether the lock of the supervisor is free,
what goes wrong with a journal update, and what `WorkerSupervisor::request` returns. -/
structure Moment (Value : Type) where
  now : Nat
  free : Bool
  fault : Option JournalFault
  result : Except WorkerRequestError (ResponseEnvelope Value)

/-- What all threads share: the files, NEXT_RUN_ID and what was handed out, in order. -/
structure JobWorld (Value : Type) where
  disk : Disk
  nextRunId : UInt64
  outputs : List (JobOutput Value)

/-- A thread with its journal and its world. -/
structure JobScene (Value : Type) where
  thread : JobThread
  journal : JobJournal
  world : JobWorld Value

/-- The next turn of the loop over the attempts, or its end. -/
def attemptFrom (job : BackgroundJobConfig) (attempt : Nat) : JobPhase :=
  if attempt ≤ job.maximumAttempts then .starting attempt else .finishing

/-- What follows an attempt that `run_job` reports as failed. -/
def afterFailure (job : BackgroundJobConfig) (attempt : Nat) : JobPhase :=
  if attempt < job.maximumAttempts then
    .backingOff attempt (saturatingMul job.retryBackoffMs (2 ^ (attempt - 1)))
  else .finishing

/-- `JobRequest` of a run. -/
def jobRequest (job : BackgroundJobConfig) (runId : UInt64) (startedAtMs : Nat) : JobRequest :=
  ⟨jobCommand, mainWindowId, job.id, runId, startedAtMs, job.timeoutMs⟩

/-- The code of a failed request. -/
def failureCode : WorkerRequestError → ErrorCode
  | .timedOut => .requestTimedOut
  | .cancelled => .requestCancelled
  | .crashed _ => .workerCrashed

/-- The message of a response that reports a failure. -/
def failureMessage (response : ResponseEnvelope Value) : String :=
  match response.error with
  | none => "PHP background job returned an unspecified failure."
  | some error => error.message

namespace JobScene

/-- The thread goes on at a phase. -/
def goto (scene : JobScene Value) (phase : JobPhase) : JobScene Value :=
  { scene with thread := { scene.thread with phase := phase } }

/-- The stop has ended this attempt. -/
def interrupt (scene : JobScene Value) (attempt : Nat) : JobScene Value :=
  { scene with thread := { scene.thread with interruption := some attempt } }

/-- Hand something out. -/
def emit (scene : JobScene Value) (outputs : List (JobOutput Value)) : JobScene Value :=
  { scene with world := { scene.world with outputs := scene.world.outputs ++ outputs } }

/-- After a journal update the thread goes on, or reports the error and ends. -/
def journaled (scene : JobScene Value) (updated : JobJournal × Disk × Except String Unit)
    (phase : JobPhase) : JobScene Value :=
  let scene := { scene with journal := updated.1, world := { scene.world with disk := updated.2.1 } }
  match updated.2.2 with
  | .ok () => scene.goto phase
  | .error error => (scene.emit [.journalFailed scene.thread.job.id error]).goto .ended

/-- The end of `run_job` once the request has returned. -/
def respond (scene : JobScene Value) (dispatcher : EffectDispatcher) (attempt : Nat)
    (runId : UInt64) (result : Except WorkerRequestError (ResponseEnvelope Value)) :
    JobScene Value :=
  let job := scene.thread.job
  match result with
  | .ok response =>
      if response.status = .success then
        (scene.emit (dispatcher.dispatch response.effects ++ response.events.map .event ++
          [.completed job.id runId response.payload])).goto .finishing
      else
        (scene.emit [.failed job.id runId .backgroundJobFailed (failureMessage response)]).goto
          (afterFailure job attempt)
  | .error error =>
      (scene.emit [.failed job.id runId (failureCode error) error.text]).goto
        (afterFailure job attempt)

/-- A step of a job thread, given its stop flag and its token. -/
def step (scene : JobScene Value) (dispatcher : EffectDispatcher) (stop cancelled : Bool)
    (moment : Moment Value) : Option (JobScene Value) :=
  let job := scene.thread.job
  match scene.thread.phase with
  | .spawned => some (scene.goto (.delayed (scene.journal.initialDelay job moment.now)))
  | .delayed _ => some (scene.goto (if stop then .ended else attemptFrom job 1))
  | .starting attempt =>
      some (scene.journaled (scene.journal.started scene.world.disk moment.fault job attempt)
        (.entering attempt))
  | .entering attempt =>
      if stop then some ((scene.interrupt attempt).goto (afterFailure job attempt))
      else
        let runId := scene.world.nextRunId
        let scene := { scene with world := { scene.world with nextRunId := runId + 1 } }
        some (scene.goto (.locking attempt runId moment.now))
  | .locking attempt runId startedAtMs =>
      if moment.free then some (scene.goto (.checking attempt runId startedAtMs))
      else
        match job.overlap with
        | .skip => some ((scene.emit [.skipped job.id runId]).goto .finishing)
        | .wait => none
  | .checking attempt runId startedAtMs =>
      if stop then some ((scene.interrupt attempt).goto (afterFailure job attempt))
      else
        some ((scene.emit [.started job.id runId startedAtMs,
          .request (jobRequest job runId startedAtMs)]).goto (.requesting attempt runId startedAtMs))
  | .requesting attempt runId _ =>
      -- only the drop of the schedule cancels the token
      match moment.result, cancelled with
      | .error .cancelled, false => none
      | .error .cancelled, true =>
          some ((scene.interrupt attempt).respond dispatcher attempt runId (.error .cancelled))
      | result, _ => some (scene.respond dispatcher attempt runId result)
  | .backingOff attempt _ =>
      if stop then some ((scene.interrupt attempt).goto .ended)
      else some (scene.goto (attemptFrom job (attempt + 1)))
  | .finishing =>
      some (scene.journaled (scene.journal.finished scene.world.disk moment.fault job moment.now)
        (.resting job.intervalMs))
  | .resting _ => some (scene.goto (if stop then .ended else attemptFrom job 1))
  | .ended => none

end JobScene

/-- `BackgroundScheduler`: its stop flag, how many of its tokens the drop has cancelled so far, and
its threads with the journal that they share. -/
structure BackgroundScheduler where
  dispatcher : EffectDispatcher
  journal : JobJournal
  stop : Bool
  cancelled : Nat
  threads : List JobThread

namespace BackgroundScheduler

/-- A thread that has been spawned for a job. -/
def spawned (job : BackgroundJobConfig) : JobThread := ⟨job, .spawned, none⟩

/-- The journal of a schedule is open, and it has no threads yet. -/
def opened (base : Option String) (disk : Disk) (dispatcher : EffectDispatcher)
    (applicationId : String) : Except String BackgroundScheduler := do
  .ok ⟨dispatcher, ← JobJournal.openFor base disk applicationId, false, 0, []⟩

/-- `BackgroundScheduler::start_with_dispatcher` in a system that can start all threads. A thread
that runs before the next one is started is one that runs first. -/
def start (base : Option String) (disk : Disk) (dispatcher : EffectDispatcher)
    (jobs : List BackgroundJobConfig) (applicationId : String) :
    Except String BackgroundScheduler := do
  let scheduler ← opened base disk dispatcher applicationId
  .ok { scheduler with threads := jobs.map spawned }

/-- A step of one of the threads. -/
def run (scheduler : BackgroundScheduler) (world : JobWorld Value) (index : Nat)
    (moment : Moment Value) : Option (BackgroundScheduler × JobWorld Value) :=
  match scheduler.threads[index]? with
  | none => none
  | some thread =>
      (JobScene.step ⟨thread, scheduler.journal, world⟩ scheduler.dispatcher scheduler.stop
        (index < scheduler.cancelled) moment).map fun scene =>
          ({ scheduler with
              journal := scene.journal, threads := scheduler.threads.set index scene.thread },
            scene.world)

/-- The first part of `drop`. -/
def stopAll (scheduler : BackgroundScheduler) : BackgroundScheduler :=
  { scheduler with stop := true }

/-- The second part of `drop`, one token after another. -/
def cancelNext (scheduler : BackgroundScheduler) : Option BackgroundScheduler :=
  if scheduler.stop ∧ scheduler.cancelled < scheduler.threads.length then
    some { scheduler with cancelled := scheduler.cancelled + 1 }
  else none

end BackgroundScheduler

/-- A thread takes a step, or the drop of the schedule does. -/
inductive ScheduleEvent (Value : Type) where
  | run (index : Nat) (moment : Moment Value)
  | stop
  | cancel

/-- A schedule in its world. -/
abbrev Schedule (Value : Type) := BackgroundScheduler × JobWorld Value

/-- A schedule as a system. -/
def scheduleSystem : System (Schedule Value) (ScheduleEvent Value) where
  next schedule
    | .run index moment => schedule.1.run schedule.2 index moment
    | .stop => some (schedule.1.stopAll, schedule.2)
    | .cancel => schedule.1.cancelNext.map (·, schedule.2)

/-! ## What one step does to the journal -/

/-- The next step of the thread replaces the file of the journal. -/
def JobThread.Publishes (thread : JobThread) (moment : Moment Value) : Prop :=
  thread.job.persistent = true ∧ moment.fault = none ∧
    (thread.phase = .finishing ∨ ∃ attempt, thread.phase = .starting attempt)

namespace JobScene

variable {scene scene' : JobScene Value} {dispatcher : EffectDispatcher} {stop cancelled : Bool}
  {moment : Moment Value}

/-- What the file of the journal records of a job. -/
def entry (scene : JobScene Value) (id : String) : Option JobState :=
  scene.world.disk.entry scene.journal.path id

/-- Only the phase and the interruption of the thread and what was handed out differ. -/
structure Quiet (scene scene' : JobScene Value) : Prop where
  journal : scene'.journal = scene.journal
  disk : scene'.world.disk = scene.world.disk
  job : scene'.thread.job = scene.thread.job

/-- What an update leaves behind: the state in memory in any case, the file unless it failed. -/
structure Updated (scene scene' : JobScene Value) (fault : Option JournalFault)
    (state : JobState) : Prop where
  path : scene'.journal.path = scene.journal.path
  states : scene'.journal.states =
    Function.update scene.journal.states scene.thread.job.id (some state)
  job : scene'.thread.job = scene.thread.job
  interruption : scene'.thread.interruption = scene.thread.interruption
  file : ∀ id, scene'.entry id = if fault = none then scene'.journal.states id else scene.entry id

theorem quiet_goto (phase : JobPhase) : Quiet scene (scene.goto phase) := ⟨rfl, rfl, rfl⟩

theorem quiet_emit (outputs : List (JobOutput Value)) (phase : JobPhase) :
    Quiet scene ((scene.emit outputs).goto phase) := ⟨rfl, rfl, rfl⟩

theorem quiet_interrupt (attempt : Nat) (phase : JobPhase) :
    Quiet scene ((scene.interrupt attempt).goto phase) := ⟨rfl, rfl, rfl⟩

theorem quiet_respond (attempt : Nat) (runId : UInt64)
    (result : Except WorkerRequestError (ResponseEnvelope Value)) :
    Quiet scene (scene.respond dispatcher attempt runId result) := by
  unfold respond
  split
  · split
    · exact ⟨rfl, rfl, rfl⟩
    · exact ⟨rfl, rfl, rfl⟩
  · exact ⟨rfl, rfl, rfl⟩

/-- An update of the journal, then the next phase or, if it failed, the end. -/
theorem updated_journaled (scene : JobScene Value) (fault : Option JournalFault) (state : JobState) (phase : JobPhase) :
    Updated scene
        (scene.journaled (scene.journal.update scene.world.disk fault scene.thread.job.id state)
          phase) fault state ∧
      (scene.journaled (scene.journal.update scene.world.disk fault scene.thread.job.id state)
        phase).thread.phase = if fault = none then phase else .ended := by
  cases fault with
  | none =>
      refine ⟨⟨rfl, rfl, rfl, rfl, fun id => ?_⟩, rfl⟩
      rw [if_pos rfl]
      exact JobJournal.update_entry scene.thread.job.id id state
  | some fault =>
      refine ⟨⟨rfl, rfl, rfl, rfl, fun id => ?_⟩, rfl⟩
      rfl

end JobScene

/-! ## What the phase of a thread says about the journal -/

/-- Both the memory and the file record the job as running. -/
structure Recorded (memory file : Option JobState) : Prop where
  memory : MarkedRunning memory
  file : MarkedRunning file

/-- What is known of a persistent job at each phase of its thread, from its state in memory and in
the file. A thread that has written that the job is done can be `resting` after an interruption, and
one that has failed to can be `ended`, only if the stop has ended the last attempt. -/
def Coherent (job : BackgroundJobConfig) (stop : Bool) (memory file : Option JobState)
    (interruption : Option Nat) : JobPhase → Prop
  | .spawned => interruption = none
  | .delayed _ => interruption = none
  | .starting attempt => interruption = none ∧ attempt ≤ job.maximumAttempts
  | .entering attempt =>
      interruption = none ∧ attempt ≤ job.maximumAttempts ∧ Recorded memory file
  | .locking attempt _ _ =>
      interruption = none ∧ attempt ≤ job.maximumAttempts ∧ Recorded memory file
  | .checking attempt _ _ =>
      interruption = none ∧ attempt ≤ job.maximumAttempts ∧ Recorded memory file
  | .requesting attempt _ _ =>
      interruption = none ∧ attempt ≤ job.maximumAttempts ∧ Recorded memory file
  | .backingOff attempt _ =>
      attempt < job.maximumAttempts ∧ Recorded memory file ∧
        (interruption = none ∨ interruption = some attempt ∧ stop = true)
  | .finishing =>
      Recorded memory file ∧
        (interruption = none ∨ interruption = some job.maximumAttempts ∧ stop = true)
  | .resting _ => interruption ≠ none → ¬MarkedRunning memory ∧ ¬MarkedRunning file
  | .ended => ∀ attempt, interruption = some attempt →
      (MarkedRunning memory ↔ attempt ≠ job.maximumAttempts)

section Coherent

variable {job : BackgroundJobConfig} {stop : Bool} {memory file : Option JobState}
  {interruption : Option Nat} {phase : JobPhase} {attempt : Nat}

/-- What follows a failed attempt, whether or not the stop has ended it. -/
theorem coherent_after_failure (hattempt : attempt ≤ job.maximumAttempts)
    (hrecorded : Recorded memory file)
    (hinterruption : interruption = none ∨ interruption = some attempt ∧ stop = true) :
    Coherent job stop memory file interruption (afterFailure job attempt) := by
  unfold afterFailure
  split
  · rename_i hlt
    exact ⟨hlt, hrecorded, hinterruption⟩
  · rename_i hlast
    obtain rfl : attempt = job.maximumAttempts := by omega
    exact ⟨hrecorded, hinterruption⟩

/-- The loop over the attempts goes on. -/
theorem coherent_attempt_from (hinterruption : interruption = none)
    (hattempt : attempt ≤ job.maximumAttempts) :
    Coherent job stop memory file interruption (attemptFrom job attempt) := by
  rw [attemptFrom, if_pos hattempt]
  exact ⟨hinterruption, hattempt⟩

/-- The stop flag is never taken back. -/
theorem Coherent.stopped (h : Coherent job stop memory file interruption phase) :
    Coherent job true memory file interruption phase := by
  cases phase with
  | backingOff attempt delay =>
      obtain ⟨hlt, hrecorded, hinterruption⟩ := h
      exact ⟨hlt, hrecorded, hinterruption.imp_right fun h => ⟨h.1, rfl⟩⟩
  | finishing =>
      obtain ⟨hrecorded, hinterruption⟩ := h
      exact ⟨hrecorded, hinterruption.imp_right fun h => ⟨h.1, rfl⟩⟩
  | _ => exact h

/-- Another thread has written the states in memory to the file. -/
theorem Coherent.written (h : Coherent job stop memory file interruption phase) :
    Coherent job stop memory memory interruption phase := by
  cases phase with
  | entering attempt => exact ⟨h.1, h.2.1, h.2.2.memory, h.2.2.memory⟩
  | locking attempt runId startedAtMs => exact ⟨h.1, h.2.1, h.2.2.memory, h.2.2.memory⟩
  | checking attempt runId startedAtMs => exact ⟨h.1, h.2.1, h.2.2.memory, h.2.2.memory⟩
  | requesting attempt runId startedAtMs => exact ⟨h.1, h.2.1, h.2.2.memory, h.2.2.memory⟩
  | backingOff attempt delay => exact ⟨h.1, ⟨h.2.1.memory, h.2.1.memory⟩, h.2.2⟩
  | finishing => exact ⟨⟨h.1.memory, h.1.memory⟩, h.2⟩
  | resting delay => exact fun hinterruption => ⟨(h hinterruption).1, (h hinterruption).1⟩
  | _ => exact h

end Coherent

/-- The file records an interrupted job as running. -/
def RecordedRunning (file : Option JobState) (interruption : Option Nat) : Prop :=
  interruption ≠ none → MarkedRunning file

/-- Once another thread writes the states in memory to the file, an interrupted job is still recorded
unless its last attempt was interrupted and its thread has ended. -/
theorem Coherent.recorded_written_iff {job : BackgroundJobConfig} {stop : Bool}
    {memory file : Option JobState} {interruption : Option Nat} {phase : JobPhase}
    (h : Coherent job stop memory file interruption phase)
    (hrecorded : RecordedRunning file interruption) :
    RecordedRunning memory interruption ↔
      (interruption = some job.maximumAttempts → phase ≠ .ended) := by
  have hmarked : MarkedRunning memory → phase ≠ .ended → (RecordedRunning memory interruption ↔
      (interruption = some job.maximumAttempts → phase ≠ .ended)) :=
    fun hmemory hphase => iff_of_true (fun _ => hmemory) fun _ => hphase
  have hnone : interruption = none → (RecordedRunning memory interruption ↔
      (interruption = some job.maximumAttempts → phase ≠ .ended)) := by
    rintro rfl
    exact iff_of_true (fun hne => absurd rfl hne) nofun
  cases phase with
  | spawned => exact hnone h
  | delayed delay => exact hnone h
  | starting attempt => exact hnone h.1
  | entering attempt => exact hnone h.1
  | locking attempt runId startedAtMs => exact hnone h.1
  | checking attempt runId startedAtMs => exact hnone h.1
  | requesting attempt runId startedAtMs => exact hnone h.1
  | backingOff attempt delay => exact hmarked h.2.1.memory nofun
  | finishing => exact hmarked h.1.memory nofun
  | resting delay =>
      apply hnone
      by_contra hne
      exact (h hne).2 (hrecorded hne)
  | ended =>
      constructor
      · intro hmemory hlast
        exact absurd rfl ((h _ hlast).mp (hmemory (by rw [hlast]; nofun)))
      · intro hnot hne
        obtain ⟨attempt, hattempt⟩ := Option.ne_none_iff_exists'.mp hne
        refine (h attempt hattempt).mpr ?_
        rintro rfl
        exact hnot hattempt rfl

namespace JobScene

variable {scene scene' : JobScene Value} {dispatcher : EffectDispatcher} {stop cancelled : Bool}
  {moment : Moment Value}

/-- `Coherent` of the job of the scene. -/
def Coherent (scene : JobScene Value) (stop : Bool) : Prop :=
  Scheduler.Coherent scene.thread.job stop (scene.journal.states scene.thread.job.id)
    (scene.entry scene.thread.job.id) scene.thread.interruption scene.thread.phase

/-- `RecordedRunning` of the job of the scene. -/
def RecordedRunning (scene : JobScene Value) : Prop :=
  Scheduler.RecordedRunning (scene.entry scene.thread.job.id) scene.thread.interruption

/-- A step without an update keeps what is known, and an interrupted job stays recorded. -/
structure Keeps (scene scene' : JobScene Value) (stop : Bool) : Prop where
  quiet : Quiet scene scene'
  coherent : scene'.Coherent stop
  recorded : scene'.RecordedRunning

/-- How the end of an attempt keeps it. -/
theorem keeps_respond {attempt : Nat} {runId : UInt64}
    {result : Except WorkerRequestError (ResponseEnvelope Value)}
    (hattempt : attempt ≤ scene.thread.job.maximumAttempts)
    (hrecorded : Recorded (scene.journal.states scene.thread.job.id)
      (scene.entry scene.thread.job.id))
    (hinterruption : scene.thread.interruption = none) :
    Keeps scene (scene.respond dispatcher attempt runId result) stop := by
  refine ⟨quiet_respond attempt runId result, ?_, ?_⟩
  · unfold respond
    split
    · split
      · exact ⟨hrecorded, .inl hinterruption⟩
      · exact coherent_after_failure hattempt hrecorded (.inl hinterruption)
    · exact coherent_after_failure hattempt hrecorded (.inl hinterruption)
  · intro hne
    refine absurd ?_ hne
    unfold respond
    split
    · split
      · exact hinterruption
      · exact hinterruption
    · exact hinterruption

/-- The stop has ended this attempt, and what follows does not touch the journal. -/
theorem keeps_interrupted {attempt : Nat} (hattempt : attempt ≤ scene.thread.job.maximumAttempts)
    (hrecorded : Recorded (scene.journal.states scene.thread.job.id)
      (scene.entry scene.thread.job.id)) (hstop : stop = true)
    (hquiet : Quiet scene scene')
    (hphase : scene'.thread.phase = afterFailure scene.thread.job attempt)
    (hinterruption : scene'.thread.interruption = some attempt) : Keeps scene scene' stop := by
  have hentry : scene'.entry scene.thread.job.id = scene.entry scene.thread.job.id := by
    unfold entry
    rw [hquiet.disk, hquiet.journal]
  refine ⟨hquiet, ?_, ?_⟩
  · unfold Coherent
    rw [hquiet.job, hquiet.journal, hentry, hphase, hinterruption]
    exact coherent_after_failure hattempt hrecorded (.inr ⟨rfl, hstop⟩)
  · intro _
    rw [hquiet.job, hentry]
    exact hrecorded.file

/-- The step does not touch the journal, and what it leads to is coherent. -/
theorem keeps_quiet (hrecorded : scene.RecordedRunning) (hquiet : Quiet scene scene')
    (hinterruption : scene'.thread.interruption = scene.thread.interruption)
    (hcoherent : Scheduler.Coherent scene.thread.job stop
      (scene.journal.states scene.thread.job.id) (scene.entry scene.thread.job.id)
      scene.thread.interruption scene'.thread.phase) : Keeps scene scene' stop := by
  have hentry : scene'.entry scene.thread.job.id = scene.entry scene.thread.job.id := by
    unfold entry
    rw [hquiet.disk, hquiet.journal]
  refine ⟨hquiet, ?_, ?_⟩
  · unfold Coherent
    rw [hquiet.job, hquiet.journal, hentry, hinterruption]
    exact hcoherent
  · unfold RecordedRunning
    rw [hquiet.job, hentry, hinterruption]
    exact hrecorded

/-- A job that is not persistent has nothing to do with the journal. -/
theorem step_not_persistent (hpersistent : scene.thread.job.persistent = false)
    (h : scene.step dispatcher stop cancelled moment = some scene') : Quiet scene scene' := by
  unfold step at h
  cases hphase : scene.thread.phase with
  | starting attempt =>
      simp only [hphase, JobJournal.started, hpersistent] at h
      cases h
      exact ⟨rfl, rfl, rfl⟩
  | finishing =>
      simp only [hphase, JobJournal.finished, hpersistent] at h
      cases h
      exact ⟨rfl, rfl, rfl⟩
  | requesting attempt runId startedAtMs =>
      simp only [hphase] at h
      split at h
      · cases h
      · cases h
        exact ⟨rfl, rfl, rfl⟩
      · cases h
        exact quiet_respond attempt runId _
  | _ =>
      simp only [hphase] at h
      repeat' split at h
      all_goals
        cases h
        try exact ⟨rfl, rfl, rfl⟩

/-- A step with an update. If it succeeds, an interrupted job stays recorded as running unless the
stop has ended its last attempt. -/
structure Updates (scene scene' : JobScene Value) (stop : Bool) (fault : Option JournalFault)
    (state : JobState) : Prop extends Updated scene scene' fault state where
  phase : scene.thread.phase = .finishing ∨ ∃ attempt, scene.thread.phase = .starting attempt
  coherent : scene'.Coherent stop
  recorded : fault = none → (scene'.RecordedRunning ↔
    scene.thread.interruption ≠ some scene.thread.job.maximumAttempts)

/-- The memory has the new state of the job. -/
theorem Updated.memory {fault : Option JournalFault} {state : JobState}
    (h : Updated scene scene' fault state) :
    scene'.journal.states scene'.thread.job.id = some state := by
  rw [h.job, h.states, Function.update_self]

/-- So has the file, if the update succeeds. -/
theorem Updated.written {fault : Option JournalFault} {state : JobState}
    (h : Updated scene scene' fault state) (hfault : fault = none) :
    scene'.entry scene'.thread.job.id = some state := by
  rw [h.file, if_pos hfault, h.memory]

/-- The start of an attempt is recorded. -/
theorem updates_started {attempt : Nat} {fault : Option JournalFault} {state : JobState}
    (hphase : scene.thread.phase = .starting attempt) (hnone : scene.thread.interruption = none)
    (hattempt : attempt ≤ scene.thread.job.maximumAttempts) (hstate : MarkedRunning (some state))
    (h : Updated scene scene' fault state)
    (hnext : scene'.thread.phase = if fault = none then .entering attempt else .ended) :
    Updates scene scene' stop fault state := by
  have hinterruption : scene'.thread.interruption = none := h.interruption.trans hnone
  refine ⟨h, .inr ⟨attempt, hphase⟩, ?_, ?_⟩
  · unfold Coherent
    rw [hnext, h.memory, hinterruption]
    split
    · rename_i hfault
      rw [h.written hfault, h.job]
      exact ⟨rfl, hattempt, hstate, hstate⟩
    · intro attempt' heq
      cases heq
  · intro _
    refine iff_of_true (fun hne => absurd hinterruption hne) ?_
    rw [hnone]
    nofun

/-- The end of the attempts is recorded. -/
theorem updates_finished {delay : Nat} {fault : Option JournalFault} {state : JobState}
    (hphase : scene.thread.phase = .finishing)
    (hinterruption : scene.thread.interruption = none ∨
      scene.thread.interruption = some scene.thread.job.maximumAttempts)
    (hstate : ¬MarkedRunning (some state)) (h : Updated scene scene' fault state)
    (hnext : scene'.thread.phase = if fault = none then .resting delay else .ended) :
    Updates scene scene' stop fault state := by
  refine ⟨h, .inl hphase, ?_, ?_⟩
  · unfold Coherent
    rw [hnext, h.memory, h.interruption]
    split
    · rename_i hfault
      rw [h.written hfault]
      exact fun _ => ⟨hstate, hstate⟩
    · intro attempt heq
      rw [h.job]
      refine iff_of_false hstate fun hne => ?_
      rcases hinterruption with hnone | hlast
      · rw [hnone] at heq
        cases heq
      · exact hne (Option.some.inj (heq.symm.trans hlast))
  · intro hfault
    unfold RecordedRunning Scheduler.RecordedRunning
    rw [h.written hfault, h.interruption]
    constructor
    · intro hmarked hlast
      exact hstate (hmarked (by rw [hlast]; nofun))
    · intro hnot hne
      exact absurd (hinterruption.resolve_right hnot) hne

/-- What a step of the thread of a persistent job does: it keeps the journal and what is known, or
it updates the journal, which happens at two phases only. -/
theorem step_cases (hpersistent : scene.thread.job.persistent = true)
    (hmaximum : 1 ≤ scene.thread.job.maximumAttempts) (hcancelled : cancelled = true → stop = true)
    (hcoherent : scene.Coherent stop) (hrecorded : scene.RecordedRunning)
    (h : scene.step dispatcher stop cancelled moment = some scene') :
    (Keeps scene scene' stop ∧ scene.thread.phase ≠ .finishing ∧
      ∀ attempt, scene.thread.phase ≠ .starting attempt) ∨
    ∃ state, Updates scene scene' stop moment.fault state := by
  have hknown := hcoherent
  unfold Coherent at hknown
  unfold step at h
  cases hphase : scene.thread.phase with
  | spawned =>
      simp only [hphase] at h hknown
      cases h
      exact .inl ⟨keeps_quiet hrecorded (quiet_goto _) rfl hknown, nofun, nofun⟩
  | delayed delay =>
      simp only [hphase] at h hknown
      cases h
      refine .inl ⟨keeps_quiet hrecorded (quiet_goto _) rfl ?_, nofun, nofun⟩
      cases stop with
      | false => exact coherent_attempt_from hknown hmaximum
      | true =>
          intro attempt hattempt
          rw [show scene.thread.interruption = none from hknown] at hattempt
          cases hattempt
  | starting attempt =>
      simp only [hphase] at h hknown
      cases h
      rw [JobJournal.started, if_pos hpersistent]
      obtain ⟨hupdated, hnext⟩ := updated_journaled scene moment.fault
        ⟨JobRunState.running.code, 0, attempt⟩ (.entering attempt)
      exact .inr ⟨_, updates_started hphase hknown.1 hknown.2 ⟨_, rfl, rfl⟩ hupdated hnext⟩
  | entering attempt =>
      simp only [hphase] at h hknown
      obtain ⟨hnone, hle, hmarked⟩ := hknown
      refine .inl ⟨?_, nofun, nofun⟩
      split at h
      · rename_i hstop
        cases h
        exact keeps_interrupted hle hmarked hstop (quiet_interrupt _ _) rfl rfl
      · cases h
        exact keeps_quiet hrecorded ⟨rfl, rfl, rfl⟩ rfl ⟨hnone, hle, hmarked⟩
  | locking attempt runId startedAtMs =>
      simp only [hphase] at h hknown
      refine .inl ⟨?_, nofun, nofun⟩
      split at h
      · cases h
        exact keeps_quiet hrecorded (quiet_goto _) rfl hknown
      · split at h
        · cases h
          exact keeps_quiet hrecorded (quiet_emit _ _) rfl ⟨hknown.2.2, .inl hknown.1⟩
        · cases h
  | checking attempt runId startedAtMs =>
      simp only [hphase] at h hknown
      obtain ⟨hnone, hle, hmarked⟩ := hknown
      refine .inl ⟨?_, nofun, nofun⟩
      split at h
      · rename_i hstop
        cases h
        exact keeps_interrupted hle hmarked hstop (quiet_interrupt _ _) rfl rfl
      · cases h
        exact keeps_quiet hrecorded (quiet_emit _ _) rfl ⟨hnone, hle, hmarked⟩
  | requesting attempt runId startedAtMs =>
      simp only [hphase] at h hknown
      obtain ⟨hnone, hle, hmarked⟩ := hknown
      refine .inl ⟨?_, nofun, nofun⟩
      split at h
      · cases h
      · cases h
        exact keeps_interrupted hle hmarked (hcancelled rfl) ⟨rfl, rfl, rfl⟩ rfl rfl
      · cases h
        exact keeps_respond hle hmarked hnone
  | backingOff attempt delay =>
      simp only [hphase] at h hknown
      obtain ⟨hlt, hmarked, hinterruption⟩ := hknown
      refine .inl ⟨?_, nofun, nofun⟩
      split at h
      · cases h
        refine ⟨quiet_interrupt _ _, ?_, fun _ => hmarked.file⟩
        intro attempt' heq
        cases heq
        exact iff_of_true hmarked.memory (Nat.ne_of_lt hlt)
      · rename_i hstop
        cases h
        refine keeps_quiet hrecorded (quiet_goto _) rfl (coherent_attempt_from ?_ hlt)
        exact hinterruption.resolve_right fun h => hstop h.2
  | finishing =>
      simp only [hphase] at h hknown
      cases h
      rw [JobJournal.finished, if_pos hpersistent]
      obtain ⟨hupdated, hnext⟩ := updated_journaled scene moment.fault
        ⟨JobRunState.pending.code, saturatingAdd moment.now scene.thread.job.intervalMs, 0⟩
        (.resting scene.thread.job.intervalMs)
      exact .inr ⟨_, updates_finished hphase (hknown.2.imp_right (·.1)) (not_marked_pending _ _)
        hupdated hnext⟩
  | resting delay =>
      simp only [hphase] at h hknown
      have hnone : scene.thread.interruption = none := by
        by_contra hne
        exact (hknown hne).2 (hrecorded hne)
      cases h
      refine .inl ⟨keeps_quiet hrecorded (quiet_goto _) rfl ?_, nofun, nofun⟩
      cases stop with
      | false => exact coherent_attempt_from hnone hmaximum
      | true =>
          intro attempt hattempt
          rw [hnone] at hattempt
          cases hattempt
  | ended =>
      simp only [hphase] at h
      cases h

end JobScene

/-! ## Every interleaving -/

/-- Every interrupted persistent job is recorded as running in the file, so that it is due at once
in the next schedule. -/
def InterruptedRecorded (schedule : Schedule Value) : Prop :=
  ∀ thread ∈ schedule.1.threads, thread.job.persistent = true → thread.interruption ≠ none →
    MarkedRunning (schedule.2.disk.entry schedule.1.journal.path thread.job.id) ∧
      ∀ now, ∃ journal,
        JobJournal.openAt schedule.2.disk schedule.1.journal.path = .ok journal ∧
          journal.initialDelay thread.job now = 0

/-- The step publishes no journal on behalf of a persistent job whose last attempt the stop has
ended, nor after the thread of such a job has ended. -/
def SparesLastAttempt (schedule : Schedule Value) (event : ScheduleEvent Value) : Prop :=
  ∀ index moment thread, event = .run index moment → schedule.1.threads[index]? = some thread →
    thread.Publishes moment → ∀ other lapsed, schedule.1.threads[other]? = some lapsed →
      lapsed.job.persistent = true → lapsed.interruption = some lapsed.job.maximumAttempts →
        other ≠ index ∧ lapsed.phase ≠ .ended

/-- The scene of a thread of the schedule. -/
def Schedule.scene (schedule : Schedule Value) (thread : JobThread) : JobScene Value :=
  ⟨thread, schedule.1.journal, schedule.2⟩

/-- The threads are those of the jobs, and what their phases say about the journal is true. -/
structure Consistent (jobs : List BackgroundJobConfig) (schedule : Schedule Value) : Prop where
  jobs : schedule.1.threads.map (·.job) = jobs
  cancelled : 0 < schedule.1.cancelled → schedule.1.stop = true
  coherent : ∀ thread ∈ schedule.1.threads, thread.job.persistent = true →
    (schedule.scene thread).Coherent schedule.1.stop

/-- What `InterruptedRecorded` says of each thread. -/
theorem interrupted_recorded_iff {schedule : Schedule Value} :
    InterruptedRecorded schedule ↔ ∀ thread ∈ schedule.1.threads, thread.job.persistent = true →
      (schedule.scene thread).RecordedRunning := by
  constructor
  · intro h thread hmem hpersistent hne
    exact (h thread hmem hpersistent hne).1
  · intro h thread hmem hpersistent hne
    have hmarked := h thread hmem hpersistent hne
    exact ⟨hmarked, marked_running_due hpersistent hmarked⟩

section Threads

variable {threads : List JobThread} {index other : Nat} {thread thread' one : JobThread}

/-- The threads after one of them has taken a step. -/
theorem mem_set_thread (hmem : one ∈ threads.set index thread') :
    one = thread' ∨ ∃ other, other ≠ index ∧ threads[other]? = some one := by
  obtain ⟨other, hother⟩ := List.mem_iff_getElem?.mp hmem
  rw [List.getElem?_set] at hother
  split at hother
  · split at hother
    · cases hother
      exact .inl rfl
    · cases hother
  · rename_i hne
    exact .inr ⟨other, fun h => hne h.symm, hother⟩

/-- Different threads have different jobs. -/
theorem other_job (hnodup : (threads.map (·.job.id)).Nodup) (hget : threads[index]? = some thread)
    (hother : threads[other]? = some one) (hne : other ≠ index) :
    one.job.id ≠ thread.job.id := by
  intro heq
  have hlt : other < (threads.map (·.job.id)).length := by
    rw [List.length_map]
    exact (List.getElem?_eq_some_iff.mp hother).1
  refine hne ((List.getElem?_inj hlt hnodup).mp ?_)
  rw [List.getElem?_map, List.getElem?_map, hget, hother]
  exact congrArg some heq

end Threads

section Run

variable {jobs : List BackgroundJobConfig} {schedule schedule' : Schedule Value}
  {scene' : JobScene Value} {index : Nat} {moment : Moment Value} {thread one : JobThread}

/-- The schedule after a step of a thread. -/
def Schedule.after (schedule : Schedule Value) (index : Nat) (scene : JobScene Value) :
    Schedule Value :=
  ({ schedule.1 with
      journal := scene.journal, threads := schedule.1.threads.set index scene.thread },
    scene.world)

/-- A step of the schedule is a step of one of its threads. -/
theorem run_some (schedule : Schedule Value) (h : schedule.1.run schedule.2 index moment = some schedule') :
    ∃ thread scene', schedule.1.threads[index]? = some thread ∧
      (schedule.scene thread).step schedule.1.dispatcher schedule.1.stop
        (index < schedule.1.cancelled) moment = some scene' ∧
      schedule' = schedule.after index scene' := by
  unfold BackgroundScheduler.run at h
  split at h
  · cases h
  · rename_i thread hget
    obtain ⟨scene', hstep, rfl⟩ := Option.map_eq_some_iff.mp h
    exact ⟨thread, scene', hget, hstep, rfl⟩

/-- A step that leaves the journal alone changes nothing for a thread. -/
theorem quiet_other (hquiet : JobScene.Quiet (schedule.scene thread) scene') (one : JobThread)
    (stop : Bool) :
    ((schedule.after index scene').scene one).Coherent stop =
        (schedule.scene one).Coherent stop ∧
      ((schedule.after index scene').scene one).RecordedRunning =
        (schedule.scene one).RecordedRunning := by
  have hjournal : scene'.journal = schedule.1.journal := hquiet.journal
  have hdisk : scene'.world.disk = schedule.2.disk := hquiet.disk
  have hentry : ((schedule.after index scene').scene one).entry one.job.id =
      (schedule.scene one).entry one.job.id := by
    show scene'.world.disk.entry scene'.journal.path _ = _
    rw [hjournal, hdisk]
    rfl
  refine ⟨?_, ?_⟩
  · show Coherent one.job stop (scene'.journal.states one.job.id) (JobScene.entry _ one.job.id)
      one.interruption one.phase = _
    rw [hjournal, hentry]
    rfl
  · show RecordedRunning (JobScene.entry _ one.job.id) one.interruption = _
    rw [hentry]
    rfl

/-- An update of the journal changes what the file records of another job only if it succeeds, and
then to what the memory had before. -/
theorem updated_other {fault : Option JournalFault} {state : JobState} {stop : Bool}
    (hupdated : JobScene.Updated (schedule.scene thread) scene' fault state)
    (hjob : one.job.id ≠ thread.job.id) (hcoherent : (schedule.scene one).Coherent stop)
    (hrecorded : (schedule.scene one).RecordedRunning) :
    ((schedule.after index scene').scene one).Coherent stop ∧
      (((schedule.after index scene').scene one).RecordedRunning ↔
        (fault = none → one.interruption = some one.job.maximumAttempts → one.phase ≠ .ended)) := by
  have hmemory : scene'.journal.states one.job.id = schedule.1.journal.states one.job.id := by
    rw [hupdated.states]
    exact Function.update_of_ne hjob _ _
  have hfile : ((schedule.after index scene').scene one).entry one.job.id =
      if fault = none then schedule.1.journal.states one.job.id
      else (schedule.scene one).entry one.job.id := by
    rw [← hmemory]
    exact hupdated.file one.job.id
  have hgoal : ((schedule.after index scene').scene one).Coherent stop =
      Coherent one.job stop (schedule.1.journal.states one.job.id)
        (((schedule.after index scene').scene one).entry one.job.id) one.interruption one.phase := by
    rw [← hmemory]
    rfl
  have hgoal' : ((schedule.after index scene').scene one).RecordedRunning =
      RecordedRunning (((schedule.after index scene').scene one).entry one.job.id)
        one.interruption := rfl
  rw [hgoal, hgoal', hfile]
  by_cases hfault : fault = none
  · rw [if_pos hfault]
    refine ⟨Coherent.written hcoherent, ?_⟩
    exact (Coherent.recorded_written_iff hcoherent hrecorded).trans
      ⟨fun h _ => h, fun h => h hfault⟩
  · rw [if_neg hfault]
    exact ⟨hcoherent, iff_of_true hrecorded fun h => absurd h hfault⟩

/-- The thread that takes a step keeps what is known, and it updates the journal only if that is
what its phase is for. -/
theorem run_cases (hpersistent : thread.job.persistent = true)
    (hmaximum : 1 ≤ thread.job.maximumAttempts) (hconsistent : Consistent jobs schedule)
    (hrecorded : InterruptedRecorded schedule) (hget : schedule.1.threads[index]? = some thread)
    (hstep : (schedule.scene thread).step schedule.1.dispatcher schedule.1.stop
      (index < schedule.1.cancelled) moment = some scene') :
    (JobScene.Keeps (schedule.scene thread) scene' schedule.1.stop ∧ ¬thread.Publishes moment) ∨
    ∃ state, JobScene.Updates (schedule.scene thread) scene' schedule.1.stop moment.fault state ∧
      (moment.fault = none → thread.Publishes moment) := by
  have hmem := List.mem_of_getElem? hget
  have hcancelled : decide (index < schedule.1.cancelled) = true → schedule.1.stop = true := by
    intro h
    refine hconsistent.cancelled ?_
    have := of_decide_eq_true h
    omega
  rcases JobScene.step_cases hpersistent hmaximum hcancelled
    (hconsistent.coherent thread hmem hpersistent)
    (interrupted_recorded_iff.mp hrecorded thread hmem hpersistent) hstep with
    ⟨hkeeps, hnot, hnot'⟩ | ⟨state, hupdates⟩
  · refine .inl ⟨hkeeps, ?_⟩
    intro ⟨_, _, hphase⟩
    rcases hphase with hphase | ⟨attempt, hphase⟩
    · exact hnot hphase
    · exact hnot' attempt hphase
  · exact .inr ⟨state, hupdates, fun hfault => ⟨hpersistent, hfault, hupdates.phase⟩⟩

/-- The threads are still those of the jobs. -/
theorem after_jobs (hget : schedule.1.threads[index]? = some thread)
    (hjob : scene'.thread.job = thread.job) :
    (schedule.after index scene').1.threads.map (·.job) = schedule.1.threads.map (·.job) := by
  show (schedule.1.threads.set index scene'.thread).map (·.job) = _
  rw [List.map_set, hjob]
  refine List.ext_getElem? fun i => ?_
  rw [List.getElem?_set]
  split
  · rename_i heq
    subst heq
    have hlt := (List.getElem?_eq_some_iff.mp hget).1
    rw [if_pos (by rwa [List.length_map]), List.getElem?_map, hget]
    rfl
  · rfl

/-- What has to be shown of the schedule after a step: the jobs are the same, and each thread, the
one that has taken the step and the others, is coherent and recorded. -/
theorem after_consistent (hconsistent : Consistent jobs schedule)
    (hget : schedule.1.threads[index]? = some thread) (hjob : scene'.thread.job = thread.job)
    (hown : thread.job.persistent = true → scene'.Coherent schedule.1.stop)
    (hothers : ∀ (other : Nat) one, other ≠ index → schedule.1.threads[other]? = some one →
      one.job.persistent = true →
        ((schedule.after index scene').scene one).Coherent schedule.1.stop) :
    Consistent jobs (schedule.after index scene') := by
  refine ⟨(after_jobs hget hjob).trans hconsistent.jobs, hconsistent.cancelled, ?_⟩
  intro one hmem hpersistent
  rcases mem_set_thread hmem with rfl | ⟨other, hne, hother⟩
  · exact hown (by rw [← hjob]; exact hpersistent)
  · exact hothers other one hne hother hpersistent

theorem after_recorded_iff (hget : schedule.1.threads[index]? = some thread)
    (hjob : scene'.thread.job = thread.job) :
    InterruptedRecorded (schedule.after index scene') ↔
      (thread.job.persistent = true → scene'.RecordedRunning) ∧
      ∀ (other : Nat) one, other ≠ index → schedule.1.threads[other]? = some one →
        one.job.persistent = true →
          ((schedule.after index scene').scene one).RecordedRunning := by
  have hlt := (List.getElem?_eq_some_iff.mp hget).1
  rw [interrupted_recorded_iff]
  constructor
  · intro h
    refine ⟨fun hpersistent => ?_, fun other one hne hother => ?_⟩
    · exact h scene'.thread (List.mem_set hlt _) (by rw [hjob]; exact hpersistent)
    · refine h one (List.mem_iff_getElem?.mpr ⟨other, ?_⟩)
      show (schedule.1.threads.set index scene'.thread)[other]? = some one
      rw [List.getElem?_set_ne (Ne.symm hne)]
      exact hother
  · intro ⟨hown, hothers⟩ one hmem hpersistent
    rcases mem_set_thread hmem with rfl | ⟨other, hne, hother⟩
    · exact hown (by rw [← hjob]; exact hpersistent)
    · exact hothers other one hne hother hpersistent

/-- An update breaks the record of an interrupted job exactly if it is not admitted. -/
theorem updates_step {state : JobState} (hnodup : (jobs.map (·.id)).Nodup)
    (hconsistent : Consistent jobs schedule) (hrecorded : InterruptedRecorded schedule)
    (hget : schedule.1.threads[index]? = some thread) (hpersistent : thread.job.persistent = true)
    (hupdates : JobScene.Updates (schedule.scene thread) scene' schedule.1.stop moment.fault state)
    (hpublishes : moment.fault = none → thread.Publishes moment) :
    Consistent jobs (schedule.after index scene') ∧
      (SparesLastAttempt schedule (.run index moment) ↔
        InterruptedRecorded (schedule.after index scene')) := by
  have hdistinct : (schedule.1.threads.map (·.job.id)).Nodup := by
    rw [← hconsistent.jobs, List.map_map] at hnodup
    exact hnodup
  have hother : ∀ (other : Nat) one, other ≠ index → schedule.1.threads[other]? = some one →
      one.job.persistent = true →
      ((schedule.after index scene').scene one).Coherent schedule.1.stop ∧
        (((schedule.after index scene').scene one).RecordedRunning ↔ (moment.fault = none →
          one.interruption = some one.job.maximumAttempts → one.phase ≠ .ended)) := by
    intro other one hne hother hone
    have hmem := List.mem_of_getElem? hother
    exact updated_other hupdates.toUpdated (other_job hdistinct hget hother hne)
      (hconsistent.coherent one hmem hone) (interrupted_recorded_iff.mp hrecorded one hmem hone)
  refine ⟨after_consistent hconsistent hget hupdates.job (fun _ => hupdates.coherent)
    fun other one hne hget' hone => (hother other one hne hget' hone).1, ?_⟩
  rw [after_recorded_iff hget hupdates.job]
  by_cases hfault : moment.fault = none
  · have hown := hupdates.recorded hfault
    constructor
    · intro hspares
      refine ⟨fun _ => hown.mpr fun hlast => ?_, fun other one hne hget' hone => ?_⟩
      · exact (hspares index moment thread rfl hget (hpublishes hfault) index thread hget
          hpersistent hlast).1 rfl
      · refine (hother other one hne hget' hone).2.mpr fun _ hlast => ?_
        exact (hspares index moment thread rfl hget (hpublishes hfault) other one hget' hone
          hlast).2
    · intro ⟨hthread, hthreads⟩ index' moment' thread' heq hget' _ other lapsed hlapsed hone hlast
      cases heq
      by_cases hne : other = index
      · subst hne
        cases hget.symm.trans hlapsed
        exact absurd hlast (hown.mp (hthread hpersistent))
      · exact ⟨hne, (hother other lapsed hne hlapsed hone).2.mp
          (hthreads other lapsed hne hlapsed hone) hfault hlast⟩
  · refine iff_of_true ?_ ⟨fun _ hne => ?_, fun other one hne hget' hone => ?_⟩
    · intro index' moment' thread' heq _ hpublished
      cases heq
      exact absurd hpublished.2.1 hfault
    · rw [hupdates.interruption] at hne
      rw [hupdates.job, hupdates.file, if_neg hfault]
      exact interrupted_recorded_iff.mp hrecorded thread (List.mem_of_getElem? hget) hpersistent hne
    · exact (hother other one hne hget' hone).2.mpr fun h => absurd h hfault

/-- A step of a thread keeps what is known, and it breaks the record of an interrupted job exactly
if it is not admitted. -/
theorem run_step (hnodup : (jobs.map (·.id)).Nodup) (hmaximum : ∀ job ∈ jobs, 1 ≤ job.maximumAttempts)
    (hconsistent : Consistent jobs schedule) (hrecorded : InterruptedRecorded schedule)
    (h : schedule.1.run schedule.2 index moment = some schedule') :
    Consistent jobs schedule' ∧
      (SparesLastAttempt schedule (.run index moment) ↔ InterruptedRecorded schedule') := by
  obtain ⟨thread, scene', hget, hstep, rfl⟩ := run_some schedule h
  have hothers : ∀ (other : Nat) one, schedule.1.threads[other]? = some one →
      one.job.persistent = true → (schedule.scene one).Coherent schedule.1.stop ∧
        (schedule.scene one).RecordedRunning := by
    intro other one hother hpersistent
    have hmem := List.mem_of_getElem? hother
    exact ⟨hconsistent.coherent one hmem hpersistent,
      interrupted_recorded_iff.mp hrecorded one hmem hpersistent⟩
  have hquiet : JobScene.Quiet (schedule.scene thread) scene' → ¬thread.Publishes moment →
      (thread.job.persistent = true → scene'.Coherent schedule.1.stop ∧ scene'.RecordedRunning) →
      Consistent jobs (schedule.after index scene') ∧
        (SparesLastAttempt schedule (.run index moment) ↔
          InterruptedRecorded (schedule.after index scene')) := by
    intro hquiet hnot hown
    refine ⟨after_consistent hconsistent hget hquiet.job (fun h => (hown h).1) ?_, ?_⟩
    · intro other one _ hother hpersistent
      rw [(quiet_other hquiet one _).1]
      exact (hothers other one hother hpersistent).1
    · refine iff_of_true ?_ ((after_recorded_iff hget hquiet.job).mpr ⟨fun h => (hown h).2, ?_⟩)
      · intro index' moment' thread' heq hget'
        cases heq
        cases hget.symm.trans hget'
        exact fun hpublishes => absurd hpublishes hnot
      · intro other one _ hother hpersistent
        rw [(quiet_other hquiet one schedule.1.stop).2]
        exact (hothers other one hother hpersistent).2
  cases hpersistent : thread.job.persistent with
  | false =>
      refine hquiet (JobScene.step_not_persistent hpersistent hstep) ?_ ?_
      · intro hpublishes
        cases hpersistent.symm.trans hpublishes.1
      · intro htrue
        cases hpersistent.symm.trans htrue
  | true =>
      have hmax : 1 ≤ thread.job.maximumAttempts := by
        refine hmaximum thread.job ?_
        rw [← hconsistent.jobs]
        exact List.mem_map_of_mem (List.mem_of_getElem? hget)
      rcases run_cases hpersistent hmax hconsistent hrecorded hget hstep with
        ⟨hkeeps, hnot⟩ | ⟨state, hupdates, hpublishes⟩
      · exact hquiet hkeeps.quiet hnot fun _ => ⟨hkeeps.coherent, hkeeps.recorded⟩
      · exact updates_step hnodup hconsistent hrecorded hget hpersistent hupdates hpublishes

end Run

/-- The drop of the schedule publishes nothing. -/
theorem spares_drop {schedule : Schedule Value} {event : ScheduleEvent Value}
    (h : ∀ index moment, event ≠ .run index moment) : SparesLastAttempt schedule event := by
  intro index moment thread heq
  exact absurd heq (h index moment)

/-- So does any other step. -/
theorem schedule_step {jobs : List BackgroundJobConfig} {schedule schedule' : Schedule Value}
    {event : ScheduleEvent Value} (hnodup : (jobs.map (·.id)).Nodup)
    (hmaximum : ∀ job ∈ jobs, 1 ≤ job.maximumAttempts) (hconsistent : Consistent jobs schedule)
    (hrecorded : InterruptedRecorded schedule)
    (h : scheduleSystem.next schedule event = some schedule') :
    Consistent jobs schedule' ∧
      (SparesLastAttempt schedule event ↔ InterruptedRecorded schedule') := by
  cases event with
  | run index moment => exact run_step hnodup hmaximum hconsistent hrecorded h
  | stop =>
      cases h
      refine ⟨⟨hconsistent.jobs, fun _ => rfl, ?_⟩, iff_of_true (spares_drop ?_) hrecorded⟩
      case refine_2 =>
        intro _ _ heq
        cases heq
      intro thread hmem hpersistent
      exact Coherent.stopped (hconsistent.coherent thread hmem hpersistent)
  | cancel =>
      obtain ⟨scheduler, hcancel, rfl⟩ := Option.map_eq_some_iff.mp h
      unfold BackgroundScheduler.cancelNext at hcancel
      split at hcancel
      · rename_i hstop
        cases hcancel
        refine ⟨⟨hconsistent.jobs, fun _ => hstop.1, hconsistent.coherent⟩,
          iff_of_true (spares_drop ?_) hrecorded⟩
        intro _ _ heq
        cases heq
      · cases hcancel

/-- A schedule that has just been started has interrupted nothing. -/
theorem start_consistent {base : Option String} {disk : Disk} {dispatcher : EffectDispatcher}
    {jobs : List BackgroundJobConfig} {applicationId : String} {scheduler : BackgroundScheduler}
    (h : BackgroundScheduler.start base disk dispatcher jobs applicationId = .ok scheduler)
    (world : JobWorld Value) :
    Consistent jobs (scheduler, world) ∧ InterruptedRecorded (scheduler, world) := by
  obtain ⟨opened, hopened, heq⟩ := except_bind_ok.mp h
  obtain ⟨journal, -, hopened⟩ := except_bind_ok.mp hopened
  cases hopened
  cases heq
  have hspawned : ∀ thread ∈ jobs.map BackgroundScheduler.spawned,
      thread.phase = .spawned ∧ thread.interruption = none := by
    intro thread hmem
    obtain ⟨job, -, rfl⟩ := List.mem_map.mp hmem
    exact ⟨rfl, rfl⟩
  refine ⟨⟨?_, ?_, ?_⟩, ?_⟩
  · rw [List.map_map]
    exact List.map_id jobs
  · intro hpos
    exact absurd hpos (Nat.lt_irrefl 0)
  · intro thread hmem _
    obtain ⟨hphase, hnone⟩ := hspawned thread hmem
    show Coherent _ _ _ _ thread.interruption thread.phase
    rw [hphase]
    exact hnone
  · intro thread hmem _ hne
    exact absurd (hspawned thread hmem).2 hne

/-- In every run of the schedule of an accepted bootstrap, every interrupted persistent job stays
recorded as running exactly if the last attempt of none is interrupted, or no journal is published
any more from where the thread of that job would record its end. -/
theorem interrupted_jobs_recorded_iff (platform : Platform) (bootstrap : Bootstrap)
    (hvalid : bootstrap.validate platform = .ok ()) (base : Option String)
    (dispatcher : EffectDispatcher) (world : JobWorld Value) (scheduler : BackgroundScheduler)
    (hstart : BackgroundScheduler.start base world.disk dispatcher bootstrap.backgroundJobs
      bootstrap.manifest.identifier = .ok scheduler)
    (events : List (ScheduleEvent Value)) (final : Schedule Value)
    (hplay : scheduleSystem.play (scheduler, world) events = some final) :
    scheduleSystem.Always InterruptedRecorded (scheduler, world) events ↔
      scheduleSystem.Throughout SparesLastAttempt (scheduler, world) events := by
  have hbootstrap := Bootstrap.validate_ok hvalid
  refine System.always_iff_throughout (I := Consistent bootstrap.backgroundJobs)
    (start_consistent hstart world) hplay ?_
  intro schedule event schedule' hconsistent hrecorded hnext
  exact schedule_step hbootstrap.jobs_nodup (fun job hjob => (hbootstrap.jobs job hjob).1)
    hconsistent hrecorded hnext

/-! ## Notes that are synchronized in the background -/

/-- The job that synchronizes the notes. -/
def notesSync (maximumAttempts : Nat) : BackgroundJobConfig where
  id := "sync"
  intervalMs := 60000
  timeoutMs := 5000
  persistent := true
  maximumAttempts := maximumAttempts

/-- The application with that job. -/
def notesJobs (maximumAttempts : Nat) : Bootstrap :=
  { notesBootstrap ["main"] notesWorkstation with backgroundJobs := [notesSync maximumAttempts] }

/-- Nothing has been recorded yet. -/
def notesJobWorld : JobWorld String := ⟨fun _ => .absent, 1, []⟩

/-- The schedule of the application when it starts. -/
def notesScheduler (maximumAttempts : Nat) : BackgroundScheduler where
  dispatcher := .ui
  journal :=
    ⟨"/home/notes/.local/share" ++ "/pam-desktop/" ++ "com.example.notes" ++ "/jobs.json",
      fun _ => none⟩
  stop := false
  cancelled := 0
  threads := [BackgroundScheduler.spawned (notesSync maximumAttempts)]

/-- A moment at which nothing stands in the way. -/
def notesMoment : Moment String := ⟨1000, true, none, .error .timedOut⟩

/-- The schedule is stopped between the record of the first attempt and its request. -/
def notesStopped : List (ScheduleEvent String) :=
  [.run 0 notesMoment, .run 0 notesMoment, .run 0 notesMoment, .stop, .run 0 notesMoment]

theorem notes_scheduler_started (maximumAttempts : Nat) :
    BackgroundScheduler.start (some "/home/notes/.local/share") notesJobWorld.disk .ui
      (notesJobs maximumAttempts).backgroundJobs (notesJobs maximumAttempts).manifest.identifier =
        .ok (notesScheduler maximumAttempts) := rfl

/-- While nothing is interrupted every step is admitted. -/
theorem spares_uninterrupted {schedule : Schedule Value} (event : ScheduleEvent Value)
    (h : ∀ thread ∈ schedule.1.threads, thread.interruption = none) :
    SparesLastAttempt schedule event := by
  intro _ _ _ _ _ _ other lapsed hlapsed _ hlast
  rw [h lapsed (List.mem_of_getElem? hlapsed)] at hlast
  cases hlast

/-- An interrupted first attempt of two stays recorded. -/
theorem notes_interrupted_recorded :
    scheduleSystem.Always InterruptedRecorded (notesScheduler 2, notesJobWorld) notesStopped := by
  refine (interrupted_jobs_recorded_iff notesPlatform (notesJobs 2) (by decide)
    (some "/home/notes/.local/share") .ui notesJobWorld (notesScheduler 2)
    (notes_scheduler_started 2) notesStopped _ rfl).mpr ?_
  refine ⟨spares_uninterrupted _ ?_, fun schedule hnext => ?_⟩
  · decide
  cases hnext
  refine ⟨spares_uninterrupted _ ?_, fun schedule hnext => ?_⟩
  · decide
  cases hnext
  refine ⟨spares_uninterrupted _ ?_, fun schedule hnext => ?_⟩
  · decide
  cases hnext
  refine ⟨spares_uninterrupted _ ?_, fun schedule hnext => ?_⟩
  · decide
  cases hnext
  exact ⟨spares_uninterrupted _ (by decide), fun _ _ => trivial⟩

/-- An interrupted only attempt is recorded as done. -/
theorem notes_interrupted_not_recorded : ∃ final,
    scheduleSystem.play (notesScheduler 1, notesJobWorld)
        (notesStopped ++ [.run 0 notesMoment]) = some final ∧
      ¬scheduleSystem.Always InterruptedRecorded (notesScheduler 1, notesJobWorld)
        (notesStopped ++ [.run 0 notesMoment]) := by
  refine ⟨_, rfl, fun halways => ?_⟩
  obtain ⟨hmarked, -⟩ := halways.last rfl _ List.mem_cons_self rfl (by decide)
  revert hmarked
  decide

end PamDesktop.Scheduler
