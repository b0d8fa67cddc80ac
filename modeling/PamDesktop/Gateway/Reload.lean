import PamDesktop.Foundations.Transition
import PamDesktop.Gateway.Isolation
import PamDesktop.Worker.Client

/-!
# Runtime reloads

`reload` replaces the primary worker first and publishes what belongs to its bootstrap piece by
piece at the end, while requests read these pieces one after another and restart workers that have
failed. What a boot, a check or a preparation comes to is part of the event. `reloads_atomic` says
in which runs the pieces stay together; read `ReloadAdmitted` for what it excludes.
-/

namespace PamDesktop.Gateway

open Foundations Protocol Worker

/-- What `spawn_ready_worker` returns. -/
abbrev Booted := Except String (WorkerClient × Protocol.Bootstrap)

/-- The supervisor after `WorkerSupervisor::restart`. -/
def restarted (supervisor : WorkerSupervisor) : Booted → WorkerSupervisor
  | .error _ => { supervisor with worker := none }
  | .ok (client, bootstrap) => ⟨some client, bootstrap, saturatingNext supervisor.generation⟩

/-- That is what the program of `restart` returns. -/
theorem restart_restarted {Value : Type} (host : WorkerHost Value) (supervisor : WorkerSupervisor) :
    supervisor.restart host =
      (dropProcess (supervisor.worker.map (·.pid))).bind fun _ =>
        (spawnReadyWorker host).attempt.bind fun outcome =>
          .done (outcome.map Prod.snd, restarted supervisor outcome) := by
  unfold WorkerSupervisor.restart
  simp only [Program.bind_eq]
  congr 1
  funext _
  congr 1
  funext outcome
  cases outcome with
  | error error => rfl
  | ok booted => rfl

/-- A worker pool: the bootstrap that it was asked for by, the choice of its workers, and the
workers. -/
structure PreparedPool where
  origin : Protocol.Bootstrap
  lanes : WorkerPool
  workers : List WorkerSupervisor

/-- What a reload replaces: the primary worker and, under locks of their own, the published
bootstrap, the native services, the updater, the plugins and the pool. Services and plugins are
given by the bootstrap that they were prepared from. -/
structure Runtime where
  supervisor : WorkerSupervisor
  bootstrap : Protocol.Bootstrap
  native : Protocol.Bootstrap
  updater : Protocol.Bootstrap
  plugins : Protocol.Bootstrap
  pool : PreparedPool

/-- The next write of `finish_runtime_reload`. -/
inductive Write where
  | native | bootstrap | updater | plugins | pool
deriving DecidableEq

/-- Where the reload is: the primary worker has booted a bootstrap, which was validated, for which
the native services were prepared, for which the plugins were prepared and the pool is being
started, or all of which is being published. `before` is what there was when the reload began. -/
inductive Stage where
  | idle
  | booted (before : Runtime) (bootstrap : Protocol.Bootstrap)
  | validated (before : Runtime) (bootstrap : Protocol.Bootstrap)
  | serviced (before : Runtime) (bootstrap : Protocol.Bootstrap)
  | forking (before : Runtime) (bootstrap : Protocol.Bootstrap) (workers : List WorkerSupervisor)
  | publishing (bootstrap : Protocol.Bootstrap) (pool : PreparedPool) (write : Write)

/-- What a request has read so far: its execution mode, the isolation, its key and the pool. -/
inductive Reads where
  | arrived
  | execution (mode : CommandExecution)
  | isolation (mode : CommandExecution) (processes : ProcessIsolation)
  | key (mode : CommandExecution) (processes : ProcessIsolation) (name : String)
  | pool (mode : CommandExecution) (processes : ProcessIsolation) (name : String)
      (prepared : PreparedPool)

/-- A request in `execute_request`. `since` numbers the bootstrap that was published when it made
its first read; the code does not keep it. -/
structure RunningRequest where
  request : CommandRequest
  reads : Reads
  since : Nat

/-- A reload that has failed, with what there was before and after it. -/
structure FailedReload where
  message : String
  before : Runtime
  after : Runtime

/-- The gateway during reloads and requests. `bootstraps` are all that were ever published, in
order, and `pools` the bootstraps of all pools that were. -/
structure GatewayRun where
  runtime : Runtime
  stage : Stage
  requests : List RunningRequest
  failed : List FailedReload
  bootstraps : List Protocol.Bootstrap
  pools : List Protocol.Bootstrap

/-- A request comes or makes its next read; a request has restarted the primary worker or a worker
of the pool; or the reload takes its next step: it restarts the primary worker, gets through a check
or a preparation, starts a worker of the pool, or goes on to publish. -/
inductive RuntimeEvent where
  | arrive (request : CommandRequest)
  | read (index : Nat)
  | restartPrimary (outcome : Booted)
  | restartWorker (index : Nat) (outcome : Booted)
  | reload (outcome : Booted)
  | prepare (result : Except String Unit)
  | fork (outcome : Booted)
  | publish

/-- The next read of a request, when so many bootstraps have been published. -/
def RunningRequest.read (running : RunningRequest) (runtime : Runtime) (published : Nat) :
    Option RunningRequest :=
  let request := running.request
  match running.reads with
  | .arrived =>
      some ⟨request, .execution (commandExecution runtime.bootstrap request.command), published⟩
  | .execution mode =>
      some { running with reads := .isolation mode runtime.bootstrap.workstation.isolation }
  | .isolation mode processes =>
      let name := isolationKey runtime.bootstrap request.windowId
      some { running with reads := .key mode processes name }
  | .key mode processes name =>
      some { running with reads := .pool mode processes name runtime.pool }
  | .pool _ _ _ _ => none

/-- The lane that `execute_request` takes with what it has read. -/
def Reads.route : Reads → Option (Route × WorkerPool)
  | .pool .stateful .shared _ prepared => some (.primary, prepared.lanes)
  | .pool .stateful _ name prepared => some (prepared.lanes.requestKeyed name)
  | .pool _ _ _ prepared => some prepared.lanes.request
  | _ => none

namespace GatewayRun

variable (run : GatewayRun)

/-- The end of a reload that has failed. -/
def fail (message : String) (before : Runtime) (after : Runtime) : GatewayRun :=
  { run with
      runtime := after, stage := .idle, failed := run.failed ++ [⟨message, before, after⟩] }

/-- The first step of a reload. -/
def reload (outcome : Booted) : GatewayRun :=
  let runtime := { run.runtime with supervisor := restarted run.runtime.supervisor outcome }
  match outcome with
  | .error message => run.fail message run.runtime runtime
  | .ok (_, bootstrap) => { run with runtime := runtime, stage := .booted run.runtime bootstrap }

/-- The result of `validate_bootstrap` or of a preparation, before the stage that follows. -/
def prepare (result : Except String Unit) (before : Runtime) (stage : Stage) : GatewayRun :=
  match result with
  | .error message => run.fail message before run.runtime
  | .ok () => { run with stage := stage }

/-- The next worker of the pool, or the end of `WorkerPool::prepare`. -/
def fork (outcome : Booted) (before : Runtime) (bootstrap : Protocol.Bootstrap)
    (workers : List WorkerSupervisor) : Option GatewayRun :=
  if workers.length < requestedParallelCount bootstrap then
    match outcome with
    | .error message => some (run.fail message before run.runtime)
    | .ok (client, booted) =>
        some { run with
                stage := .forking before bootstrap (workers ++ [⟨some client, booted, 1⟩]) }
  else none

/-- The next step of publishing. -/
def publish : Option GatewayRun :=
  let runtime := run.runtime
  match run.stage with
  | .forking _ bootstrap workers =>
      let count := requestedParallelCount bootstrap
      if workers.length < count then none
      else
        some { run with
                stage := .publishing bootstrap ⟨bootstrap, WorkerPool.prepare count, workers⟩ .native }
  | .publishing bootstrap pool .native =>
      some { run with
              runtime := { runtime with native := bootstrap }
              stage := .publishing bootstrap pool .bootstrap }
  | .publishing bootstrap pool .bootstrap =>
      some { run with
              runtime := { runtime with bootstrap := bootstrap }
              bootstraps := run.bootstraps ++ [bootstrap]
              stage := .publishing bootstrap pool .updater }
  | .publishing bootstrap pool .updater =>
      some { run with
              runtime := { runtime with updater := bootstrap }
              stage := .publishing bootstrap pool .plugins }
  | .publishing bootstrap pool .plugins =>
      some { run with
              runtime := { runtime with plugins := bootstrap }
              stage := .publishing bootstrap pool .pool }
  | .publishing bootstrap pool .pool =>
      some { run with
              runtime := { runtime with pool := pool }
              pools := run.pools ++ [bootstrap]
              stage := .idle }
  | _ => none

/-- A request makes its next read. -/
def read (index : Nat) : Option GatewayRun :=
  match run.requests[index]? with
  | none => none
  | some running =>
      (running.read run.runtime run.bootstraps.length).map fun running =>
        { run with requests := run.requests.set index running }

/-- A request has restarted the primary worker. The pool is started under its lock. -/
def restartPrimary (outcome : Booted) : Option GatewayRun :=
  match run.stage with
  | .forking _ _ _ => none
  | _ =>
      some { run with
              runtime :=
                { run.runtime with supervisor := restarted run.runtime.supervisor outcome } }

/-- A request has restarted a worker of the pool. -/
def restartWorker (index : Nat) (outcome : Booted) : GatewayRun :=
  { run with
      runtime :=
        { run.runtime with
            pool :=
              { run.runtime.pool with
                  workers := run.runtime.pool.workers.modify index (restarted · outcome) } } }

end GatewayRun

/-- The gateway as a system. -/
def runtimeSystem : System GatewayRun RuntimeEvent where
  next run event :=
    match event, run.stage with
    | .arrive request, _ =>
        if request.windowId ∈ run.runtime.bootstrap.windowIds then
          some { run with requests := run.requests ++ [⟨request, .arrived, 0⟩] }
        else none
    | .read index, _ => run.read index
    | .restartPrimary outcome, _ => run.restartPrimary outcome
    | .restartWorker index outcome, _ => some (run.restartWorker index outcome)
    | .reload outcome, .idle => some (run.reload outcome)
    | .prepare result, .booted before bootstrap =>
        some (run.prepare result before (.validated before bootstrap))
    | .prepare result, .validated before bootstrap =>
        some (run.prepare result before (.serviced before bootstrap))
    | .prepare result, .serviced before bootstrap =>
        some (run.prepare result before (.forking before bootstrap []))
    | .fork outcome, .forking before bootstrap workers =>
        run.fork outcome before bootstrap workers
    | .publish, _ => run.publish
    | _, _ => none

/-- `Gateway::start` with a primary worker and the workers of the pool. -/
def gatewayStart (supervisor : WorkerSupervisor) (workers : List WorkerSupervisor) : GatewayRun :=
  let bootstrap := supervisor.bootstrap
  { runtime :=
      { supervisor := supervisor, bootstrap := bootstrap, native := bootstrap, updater := bootstrap
        plugins := bootstrap
        pool := ⟨bootstrap, WorkerPool.prepare (requestedParallelCount bootstrap), workers⟩ }
    stage := .idle, requests := [], failed := [], bootstraps := [bootstrap], pools := [bootstrap] }

/-! ## What belongs together -/

/-- If the worker has a process, then it has booted this bootstrap. -/
def Boots (supervisor : WorkerSupervisor) (bootstrap : Protocol.Bootstrap) : Prop :=
  supervisor.worker ≠ none → supervisor.bootstrap = bootstrap

/-- Everything that a reload replaces originates from the published bootstrap. -/
structure Runtime.Coherent (runtime : Runtime) : Prop where
  primary : Boots runtime.supervisor runtime.bootstrap
  native : runtime.native = runtime.bootstrap
  updater : runtime.updater = runtime.bootstrap
  plugins : runtime.plugins = runtime.bootstrap
  pool : runtime.pool.origin = runtime.bootstrap
  workers : ∀ worker ∈ runtime.pool.workers, Boots worker runtime.bootstrap

/-- What a request has read is the execution mode, the isolation, the key and the pool of this
bootstrap. -/
def Reads.From (request : CommandRequest) (bootstrap : Protocol.Bootstrap) : Reads → Prop
  | .arrived => True
  | .execution mode => mode = commandExecution bootstrap request.command
  | .isolation mode processes =>
      mode = commandExecution bootstrap request.command ∧
        processes = bootstrap.workstation.isolation
  | .key mode processes name =>
      mode = commandExecution bootstrap request.command ∧
        processes = bootstrap.workstation.isolation ∧
        name = isolationKey bootstrap request.windowId
  | .pool mode processes name prepared =>
      mode = commandExecution bootstrap request.command ∧
        processes = bootstrap.workstation.isolation ∧
        name = isolationKey bootstrap request.windowId ∧ prepared.origin = bootstrap

/-- Between reloads everything originates from one bootstrap, failed reloads have changed nothing,
and what each request has read comes from one bootstrap. -/
structure ReloadsAtomic (run : GatewayRun) : Prop where
  coherent : run.stage = .idle → run.runtime.Coherent
  unchanged : ∀ reload ∈ run.failed, reload.after = reload.before
  requests : ∀ running ∈ run.requests, ∃ bootstrap, running.reads.From running.request bootstrap

/-- The bootstrap that is published or about to be. -/
def GatewayRun.expected (run : GatewayRun) : Protocol.Bootstrap :=
  match run.stage with
  | .idle => run.runtime.bootstrap
  | .booted _ bootstrap => bootstrap
  | .validated _ bootstrap => bootstrap
  | .serviced _ bootstrap => bootstrap
  | .forking _ bootstrap _ => bootstrap
  | .publishing bootstrap _ _ => bootstrap

/-- The next read of a request that began when so many bootstraps were published does not come too
late or, for the pool, too early: as many bootstraps, or pools, are published now. -/
def Reads.InTime (reads : Reads) (since bootstraps pools : Nat) : Prop :=
  match reads with
  | .arrived => True
  | .execution _ => since = bootstraps
  | .isolation _ _ => since = bootstraps
  | .key _ _ _ => since = pools
  | .pool _ _ _ _ => True

/-- No reload fails, except one that finds no primary worker to begin with. Workers that are
restarted, or started for the pool, boot the bootstrap that is published or about to be; the pool
that a reload is about to replace does not matter. No request makes its reads on both sides of the
publication of a bootstrap or of its pool. -/
def ReloadAdmitted (run : GatewayRun) : RuntimeEvent → Prop
  | .arrive _ => True
  | .read index => ∀ running, run.requests[index]? = some running →
      running.reads.InTime running.since run.bootstraps.length run.pools.length
  | .restartPrimary outcome => ∀ client bootstrap, outcome = .ok (client, bootstrap) →
      bootstrap = run.expected
  | .restartWorker _ outcome => run.stage = .idle →
      ∀ client bootstrap, outcome = .ok (client, bootstrap) → bootstrap = run.expected
  | .reload outcome => ∀ message, outcome = .error message → run.runtime.supervisor.worker = none
  | .prepare result => result = .ok ()
  | .fork outcome => ∃ client, outcome = .ok (client, run.expected)
  | .publish => True

/-- A request that has read everything from one bootstrap takes the lane that belongs to it. -/
theorem route_of_from {request : CommandRequest} {bootstrap : Protocol.Bootstrap}
    {mode : CommandExecution} {processes : ProcessIsolation} {name : String}
    {prepared : PreparedPool} (h : (Reads.pool mode processes name prepared).From request bootstrap) :
    (Reads.pool mode processes name prepared).route =
        some (routeCommand bootstrap prepared.lanes request) ∧ prepared.origin = bootstrap := by
  obtain ⟨rfl, rfl, rfl, horigin⟩ := h
  refine ⟨?_, horigin⟩
  unfold routeCommand
  cases hmode : commandExecution bootstrap request.command with
  | stateful =>
      cases hprocesses : bootstrap.workstation.isolation <;> simp [Reads.route]
  | parallel => rfl
  | background => rfl

/-! ## What holds at each stage -/

/-- The pieces that come before the next write are published. -/
def Written (runtime : Runtime) (bootstrap : Protocol.Bootstrap) : Write → Prop
  | .native => True
  | .bootstrap => runtime.native = bootstrap
  | .updater => runtime.native = bootstrap ∧ runtime.bootstrap = bootstrap
  | .plugins =>
      runtime.native = bootstrap ∧ runtime.bootstrap = bootstrap ∧ runtime.updater = bootstrap
  | .pool => runtime.native = bootstrap ∧ runtime.bootstrap = bootstrap ∧
      runtime.updater = bootstrap ∧ runtime.plugins = bootstrap

/-- All workers of a new pool have booted the bootstrap. -/
def AllBoot (workers : List WorkerSupervisor) (bootstrap : Protocol.Bootstrap) : Prop :=
  ∀ worker ∈ workers, Boots worker bootstrap

/-- What holds of the runtime at each stage. -/
def StageHolds (runtime : Runtime) : Stage → Prop
  | .idle => runtime.Coherent
  | .booted _ bootstrap => Boots runtime.supervisor bootstrap
  | .validated _ bootstrap => Boots runtime.supervisor bootstrap
  | .serviced _ bootstrap => Boots runtime.supervisor bootstrap
  | .forking _ bootstrap workers =>
      Boots runtime.supervisor bootstrap ∧ AllBoot workers bootstrap
  | .publishing bootstrap pool write =>
      Boots runtime.supervisor bootstrap ∧ pool.origin = bootstrap ∧
        AllBoot pool.workers bootstrap ∧ Written runtime bootstrap write

/-- The bootstrap whose pool is still to be published. -/
def Stage.behind : Stage → List Protocol.Bootstrap
  | .publishing bootstrap _ .updater => [bootstrap]
  | .publishing bootstrap _ .plugins => [bootstrap]
  | .publishing bootstrap _ .pool => [bootstrap]
  | _ => []

/-- The bootstraps and pools that were published. -/
structure Published (run : GatewayRun) : Prop where
  bootstrap : run.bootstraps.getLast? = some run.runtime.bootstrap
  pool : run.pools.getLast? = some run.runtime.pool.origin
  behind : run.bootstraps = run.pools ++ run.stage.behind

/-- What a request has read comes from the bootstrap that was published when it began. -/
def ReadSince (bootstraps : List Protocol.Bootstrap) (running : RunningRequest) : Prop :=
  running.reads = .arrived ∨ running.since ≤ bootstraps.length ∧
    ∃ bootstrap, (bootstraps.take running.since).getLast? = some bootstrap ∧
      running.reads.From running.request bootstrap

/-- The invariant of admitted runs. -/
structure Tidy (run : GatewayRun) : Prop where
  stage : StageHolds run.runtime run.stage
  published : Published run
  requests : ∀ running ∈ run.requests, ReadSince run.bootstraps running
  unchanged : ∀ reload ∈ run.failed, reload.after = reload.before

/-- It says what is claimed. -/
theorem Tidy.atomic {run : GatewayRun} (h : Tidy run) : ReloadsAtomic run := by
  constructor
  case coherent =>
    intro hidle
    have hstage := h.stage
    rw [hidle] at hstage
    exact hstage
  case unchanged => exact h.unchanged
  case requests =>
    intro running hmem
    rcases h.requests running hmem with harrived | ⟨-, bootstrap, -, hfrom⟩
    · refine ⟨run.runtime.bootstrap, ?_⟩
      rw [harrived]
      trivial
    · exact ⟨bootstrap, hfrom⟩

/-! ## One step -/

section Steps

variable {run run' : GatewayRun} {outcome : Booted} {bootstrap : Protocol.Bootstrap}

/-- A step that publishes nothing and that no request notices. -/
theorem Tidy.move (h : Tidy run) {runtime : Runtime} {stage : Stage}
    (hbootstrap : runtime.bootstrap = run.runtime.bootstrap)
    (hpool : runtime.pool.origin = run.runtime.pool.origin)
    (hbehind : stage.behind = run.stage.behind) (hstage : StageHolds runtime stage) :
    Tidy { run with runtime := runtime, stage := stage } := by
  refine ⟨hstage, ⟨?_, ?_, ?_⟩, h.requests, h.unchanged⟩
  · show run.bootstraps.getLast? = some runtime.bootstrap
    rw [hbootstrap]
    exact h.published.bootstrap
  · show run.pools.getLast? = some runtime.pool.origin
    rw [hpool]
    exact h.published.pool
  · show run.bootstraps = run.pools ++ stage.behind
    rw [hbehind]
    exact h.published.behind

/-- A worker is restarted with the bootstrap that it should boot, or not at all. -/
theorem restarted_boots (supervisor : WorkerSupervisor)
    (h : ∀ client booted, outcome = .ok (client, booted) → booted = bootstrap) :
    Boots (restarted supervisor outcome) bootstrap := by
  cases outcome with
  | error message => exact fun hne => absurd rfl hne
  | ok booted =>
      intro _
      exact h booted.1 booted.2 rfl

/-- At every stage the primary worker has booted the expected bootstrap, and nothing else depends
on it. -/
theorem StageHolds.restart_primary (h : StageHolds run.runtime run.stage)
    {supervisor : WorkerSupervisor} (hboots : Boots supervisor run.expected) :
    StageHolds { run.runtime with supervisor := supervisor } run.stage := by
  unfold GatewayRun.expected at hboots
  cases hstage : run.stage with
  | idle =>
      rw [hstage] at h hboots
      exact ⟨hboots, h.native, h.updater, h.plugins, h.pool, h.workers⟩
  | booted before bootstrap =>
      rw [hstage] at hboots
      exact hboots
  | validated before bootstrap =>
      rw [hstage] at hboots
      exact hboots
  | serviced before bootstrap =>
      rw [hstage] at hboots
      exact hboots
  | forking before bootstrap workers =>
      rw [hstage] at h hboots
      exact ⟨hboots, h.2⟩
  | publishing bootstrap pool write =>
      rw [hstage] at h hboots
      refine ⟨hboots, h.2.1, h.2.2.1, ?_⟩
      cases write <;> exact h.2.2.2

theorem tidy_restart_primary (h : Tidy run)
    (hadmitted : ReloadAdmitted run (.restartPrimary outcome))
    (hnext : run.restartPrimary outcome = some run') : Tidy run' := by
  have hstage := h.stage.restart_primary (restarted_boots run.runtime.supervisor hadmitted)
  unfold GatewayRun.restartPrimary at hnext
  split at hnext
  · cases hnext
  · cases hnext
    exact h.move rfl rfl rfl hstage

/-- The workers of the pool matter between reloads only. -/
theorem tidy_restart_worker (h : Tidy run) {index : Nat}
    (hadmitted : ReloadAdmitted run (.restartWorker index outcome)) :
    Tidy (run.restartWorker index outcome) := by
  refine h.move rfl rfl rfl ?_
  have hholds := h.stage
  cases hstage : run.stage with
  | idle =>
      rw [hstage] at hholds
      have hexpected : run.expected = run.runtime.bootstrap := by
        rw [GatewayRun.expected, hstage]
      refine ⟨hholds.primary, hholds.native, hholds.updater, hholds.plugins, hholds.pool, ?_⟩
      intro worker hmem
      obtain ⟨other, hget⟩ := List.mem_iff_getElem?.mp hmem
      rw [List.getElem?_modify] at hget
      obtain ⟨old, hold, rfl⟩ := Option.map_eq_some_iff.mp hget
      by_cases heq : index = other
      · rw [if_pos heq]
        show Boots _ run.runtime.bootstrap
        rw [← hexpected]
        exact restarted_boots old (hadmitted hstage)
      · rw [if_neg heq]
        exact hholds.workers old (List.mem_of_getElem? hold)
  | publishing bootstrap pool write =>
      rw [hstage] at hholds
      refine ⟨hholds.1, hholds.2.1, hholds.2.2.1, ?_⟩
      cases write <;> exact hholds.2.2.2
  | _ =>
      rw [hstage] at hholds
      exact hholds

/-- A reload begins with the primary worker, or it fails at once and finds nothing to lose. -/
theorem tidy_reload (h : Tidy run) (hidle : run.stage = .idle)
    (hadmitted : ReloadAdmitted run (.reload outcome)) : Tidy (run.reload outcome) := by
  cases outcome with
  | ok booted =>
      refine h.move rfl rfl (by rw [hidle]; rfl) ?_
      intro _
      rfl
  | error message =>
      have hnone : run.runtime.supervisor.worker = none := hadmitted message rfl
      have hsame : restarted run.runtime.supervisor (.error message) = run.runtime.supervisor := by
        unfold restarted
        rw [← hnone]
      have hrun : Tidy { run with runtime := run.runtime, stage := .idle } :=
        h.move rfl rfl (by rw [hidle]) (by rw [← hidle]; exact h.stage)
      unfold GatewayRun.reload GatewayRun.fail
      rw [hsame]
      refine ⟨hrun.stage, ⟨hrun.published.bootstrap, hrun.published.pool, hrun.published.behind⟩,
        hrun.requests, ?_⟩
      intro reload hmem
      rcases List.mem_append.mp hmem with hmem | hmem
      · exact h.unchanged reload hmem
      · obtain rfl := List.mem_singleton.mp hmem
        rfl

/-- A check or a preparation that succeeds. -/
theorem tidy_prepare (h : Tidy run) {result : Except String Unit} {before : Runtime} {stage : Stage}
    (hadmitted : ReloadAdmitted run (.prepare result)) (hbehind : stage.behind = run.stage.behind)
    (hstage : StageHolds run.runtime stage) : Tidy (run.prepare result before stage) := by
  obtain rfl : result = .ok () := hadmitted
  exact h.move rfl rfl hbehind hstage

theorem tidy_fork (h : Tidy run) {before : Runtime} {workers : List WorkerSupervisor}
    (hforking : run.stage = .forking before bootstrap workers)
    (hadmitted : ReloadAdmitted run (.fork outcome))
    (hnext : run.fork outcome before bootstrap workers = some run') : Tidy run' := by
  obtain ⟨client, rfl⟩ := hadmitted
  have hstage := h.stage
  rw [hforking] at hstage
  have hexpected : run.expected = bootstrap := by
    rw [GatewayRun.expected, hforking]
  unfold GatewayRun.fork at hnext
  split at hnext
  · cases hnext
    refine h.move rfl rfl (by rw [hforking]; rfl) ⟨hstage.1, ?_⟩
    intro worker hmem
    rcases List.mem_append.mp hmem with hmem | hmem
    · exact hstage.2 worker hmem
    · obtain rfl := List.mem_singleton.mp hmem
      exact fun _ => hexpected
  · cases hnext

/-- A bootstrap that is published does not disturb the requests that have begun. -/
theorem ReadSince.publish {bootstraps : List Protocol.Bootstrap} {running : RunningRequest}
    (h : ReadSince bootstraps running) (bootstrap : Protocol.Bootstrap) :
    ReadSince (bootstraps ++ [bootstrap]) running := by
  rcases h with harrived | ⟨hle, origin, hlast, hfrom⟩
  · exact .inl harrived
  · refine .inr ⟨?_, origin, ?_, hfrom⟩
    · rw [List.length_append]
      omega
    · rw [List.take_append_of_le_length hle]
      exact hlast

/-- Publishing, one write after another. -/
theorem tidy_publish (h : Tidy run) (hnext : run.publish = some run') : Tidy run' := by
  have hholds := h.stage
  have hbehind := h.published.behind
  unfold GatewayRun.publish at hnext
  split at hnext
  case h_1 before bootstrap workers hstage =>
    rw [hstage] at hholds
    dsimp only at hnext
    split at hnext
    · cases hnext
    · cases hnext
      exact h.move rfl rfl (by rw [hstage]; rfl) ⟨hholds.1, rfl, hholds.2, trivial⟩
  case h_2 bootstrap pool hstage =>
    rw [hstage] at hholds
    cases hnext
    exact h.move rfl rfl (by rw [hstage]; rfl) ⟨hholds.1, hholds.2.1, hholds.2.2.1, rfl⟩
  case h_3 bootstrap pool hstage =>
    rw [hstage] at hholds hbehind
    cases hnext
    refine ⟨⟨hholds.1, hholds.2.1, hholds.2.2.1, hholds.2.2.2, rfl⟩, ⟨?_, h.published.pool, ?_⟩,
      fun running hmem => (h.requests running hmem).publish bootstrap, h.unchanged⟩
    · exact List.getLast?_concat
    · show run.bootstraps ++ [bootstrap] = run.pools ++ [bootstrap]
      rw [hbehind]
      exact congrArg (· ++ [bootstrap]) (List.append_nil _)
  case h_4 bootstrap pool hstage =>
    rw [hstage] at hholds
    cases hnext
    obtain ⟨hprimary, hpool, hworkers, hnative, hbootstrap⟩ := hholds
    exact h.move rfl rfl (by rw [hstage]; rfl)
      ⟨hprimary, hpool, hworkers, hnative, hbootstrap, rfl⟩
  case h_5 bootstrap pool hstage =>
    rw [hstage] at hholds
    cases hnext
    obtain ⟨hprimary, hpool, hworkers, hnative, hbootstrap, hupdater⟩ := hholds
    exact h.move rfl rfl (by rw [hstage]; rfl)
      ⟨hprimary, hpool, hworkers, hnative, hbootstrap, hupdater, rfl⟩
  case h_6 bootstrap pool hstage =>
    rw [hstage] at hholds hbehind
    cases hnext
    obtain ⟨hprimary, hpool, hworkers, hnative, hbootstrap, hupdater, hplugins⟩ := hholds
    refine ⟨?_, ⟨h.published.bootstrap, ?_, ?_⟩, h.requests, h.unchanged⟩
    · constructor
      case primary => exact fun hne => (hprimary hne).trans hbootstrap.symm
      case native => exact hnative.trans hbootstrap.symm
      case updater => exact hupdater.trans hbootstrap.symm
      case plugins => exact hplugins.trans hbootstrap.symm
      case pool => exact hpool.trans hbootstrap.symm
      case workers => exact fun worker hmem hne => (hworkers worker hmem hne).trans hbootstrap.symm
    · show (run.pools ++ [bootstrap]).getLast? = some pool.origin
      rw [hpool]
      exact List.getLast?_concat
    · show run.bootstraps = (run.pools ++ [bootstrap]) ++ []
      rw [List.append_nil]
      exact hbehind
  case h_7 => cases hnext

/-- A read that is in time comes from the same bootstrap as those before it. -/
theorem ReadSince.read {running running' : RunningRequest} (hpublished : Published run)
    (h : ReadSince run.bootstraps running)
    (hintime : running.reads.InTime running.since run.bootstraps.length run.pools.length)
    (hread : running.read run.runtime run.bootstraps.length = some running') :
    ReadSince run.bootstraps running' := by
  have hnow : (run.bootstraps.take run.bootstraps.length).getLast? =
      some run.runtime.bootstrap := by
    rw [List.take_length]
    exact hpublished.bootstrap
  have hpool : (run.bootstraps.take run.pools.length).getLast? =
      some run.runtime.pool.origin := by
    rw [hpublished.behind, List.take_left]
    exact hpublished.pool
  obtain ⟨request, reads, since⟩ := running
  unfold RunningRequest.read at hread
  rcases h with harrived | ⟨hle, bootstrap, hlast, hfrom⟩
  · obtain rfl : reads = .arrived := harrived
    cases hread
    exact .inr ⟨Nat.le_refl _, run.runtime.bootstrap, hnow, rfl⟩
  · dsimp only at hle hlast hfrom
    cases reads with
    | arrived =>
        cases hread
        exact .inr ⟨Nat.le_refl _, run.runtime.bootstrap, hnow, rfl⟩
    | execution mode =>
        obtain rfl : since = run.bootstraps.length := hintime
        obtain rfl : run.runtime.bootstrap = bootstrap := Option.some.inj (hnow.symm.trans hlast)
        cases hread
        exact .inr ⟨hle, run.runtime.bootstrap, hlast, hfrom, rfl⟩
    | isolation mode processes =>
        obtain rfl : since = run.bootstraps.length := hintime
        obtain rfl : run.runtime.bootstrap = bootstrap := Option.some.inj (hnow.symm.trans hlast)
        cases hread
        exact .inr ⟨hle, run.runtime.bootstrap, hlast, hfrom.1, hfrom.2, rfl⟩
    | key mode processes name =>
        obtain rfl : since = run.pools.length := hintime
        obtain rfl : run.runtime.pool.origin = bootstrap := Option.some.inj (hpool.symm.trans hlast)
        cases hread
        exact .inr ⟨hle, run.runtime.pool.origin, hlast, hfrom.1, hfrom.2.1, hfrom.2.2, rfl⟩
    | pool mode processes name prepared => cases hread

theorem tidy_read (h : Tidy run) {index : Nat} (hadmitted : ReloadAdmitted run (.read index))
    (hnext : run.read index = some run') : Tidy run' := by
  unfold GatewayRun.read at hnext
  split at hnext
  · cases hnext
  · rename_i running hget
    obtain ⟨running', hread, rfl⟩ := Option.map_eq_some_iff.mp hnext
    have hknown := h.requests running (List.mem_of_getElem? hget)
    have hnew := hknown.read h.published (hadmitted running hget) hread
    refine ⟨h.stage, ⟨h.published.bootstrap, h.published.pool, h.published.behind⟩, ?_,
      h.unchanged⟩
    intro other hmem
    obtain hmem | rfl := List.mem_or_eq_of_mem_set hmem
    · exact h.requests other hmem
    · exact hnew

/-- A request that comes has read nothing yet. -/
theorem tidy_arrive (h : Tidy run) (request : CommandRequest) :
    Tidy { run with requests := run.requests ++ [⟨request, .arrived, 0⟩] } := by
  refine ⟨h.stage, ⟨h.published.bootstrap, h.published.pool, h.published.behind⟩, ?_, h.unchanged⟩
  intro running hmem
  rcases List.mem_append.mp hmem with hmem | hmem
  · exact h.requests running hmem
  · obtain rfl := List.mem_singleton.mp hmem
    exact .inl rfl

/-- Every admitted step keeps what belongs together. -/
theorem runtime_step {event : RuntimeEvent} (h : Tidy run) (hadmitted : ReloadAdmitted run event)
    (hnext : runtimeSystem.next run event = some run') : Tidy run' := by
  have hholds := h.stage
  cases event with
  | arrive request =>
      simp only [runtimeSystem] at hnext
      split at hnext
      · cases hnext
        exact tidy_arrive h request
      · cases hnext
  | read index => exact tidy_read h hadmitted hnext
  | restartPrimary outcome => exact tidy_restart_primary h hadmitted hnext
  | restartWorker index outcome =>
      cases hnext
      exact tidy_restart_worker h hadmitted
  | reload outcome =>
      cases hstage : run.stage <;> simp only [runtimeSystem, hstage] at hnext <;> cases hnext
      exact tidy_reload h hstage hadmitted
  | prepare result =>
      cases hstage : run.stage <;> simp only [runtimeSystem, hstage] at hnext <;> cases hnext
      all_goals rw [hstage] at hholds
      · exact tidy_prepare h hadmitted (by rw [hstage]; rfl) hholds
      · exact tidy_prepare h hadmitted (by rw [hstage]; rfl) hholds
      · exact tidy_prepare h hadmitted (by rw [hstage]; rfl) ⟨hholds, by intro worker hmem; cases hmem⟩
  | fork outcome =>
      cases hstage : run.stage with
      | forking before bootstrap workers =>
          simp only [runtimeSystem, hstage] at hnext
          exact tidy_fork h hstage hadmitted hnext
      | _ =>
          simp only [runtimeSystem, hstage] at hnext
          cases hnext
  | publish => exact tidy_publish h hnext

end Steps

/-- A gateway whose pool has booted the bootstrap of its primary worker starts tidy. -/
theorem gateway_start_tidy {supervisor : WorkerSupervisor} {workers : List WorkerSupervisor}
    (hworkers : AllBoot workers supervisor.bootstrap) : Tidy (gatewayStart supervisor workers) := by
  refine ⟨?_, ⟨rfl, rfl, rfl⟩, ?_, ?_⟩
  · exact ⟨fun _ => rfl, rfl, rfl, rfl, rfl, hworkers⟩
  · intro running hmem
    cases hmem
  · intro reload hmem
    cases hmem

/-- In every run of admitted steps reloads are atomic. -/
theorem reloads_atomic (supervisor : WorkerSupervisor) (workers : List WorkerSupervisor)
    (events : List RuntimeEvent) (hworkers : AllBoot workers supervisor.bootstrap)
    (hadmitted : runtimeSystem.Throughout ReloadAdmitted (gatewayStart supervisor workers) events) :
    runtimeSystem.Always ReloadsAtomic (gatewayStart supervisor workers) events :=
  (hadmitted.always (gateway_start_tidy hworkers) fun _ _ _ htidy hstep hnext =>
    runtime_step htidy hstep hnext).mono fun _ => Tidy.atomic

/-! ## Notes with a new version -/

/-- The application in this version. -/
def notesVersion (version : String) : Protocol.Bootstrap :=
  let notes := notesBootstrap ["main"] notesWorkstation
  { notes with manifest := { notes.manifest with version := version } }

/-- The gateway of the first version. -/
def notesGateway : GatewayRun := gatewayStart ⟨some ⟨0, 2⟩, notesVersion "1.0.0", 1⟩ []

/-- A command of the main window. -/
def notesCommand : CommandRequest := ⟨"main", "notes.save"⟩

/-- A request that reads all it needs. -/
def notesReads : List RuntimeEvent := [.arrive notesCommand, .read 0, .read 0, .read 0, .read 0]

/-- A reload to the next version. -/
def notesUpgrade : List RuntimeEvent :=
  [.reload (.ok (⟨1, 2⟩, notesVersion "1.1.0")), .prepare (.ok ()), .prepare (.ok ()),
    .prepare (.ok ()), .publish, .publish, .publish, .publish, .publish, .publish]

/-- A request and then a reload that succeeds. -/
theorem notes_upgrade_atomic :
    runtimeSystem.Always ReloadsAtomic notesGateway (notesReads ++ notesUpgrade) := by
  refine reloads_atomic ⟨some ⟨0, 2⟩, notesVersion "1.0.0", 1⟩ [] (notesReads ++ notesUpgrade)
    (by intro worker hmem; cases hmem) ?_
  refine ⟨trivial, fun run hnext => ?_⟩
  cases hnext
  refine ⟨?_, fun run hnext => ?_⟩
  · intro running hget
    cases hget
    trivial
  cases hnext
  refine ⟨?_, fun run hnext => ?_⟩
  · intro running hget
    cases hget
    rfl
  cases hnext
  refine ⟨?_, fun run hnext => ?_⟩
  · intro running hget
    cases hget
    rfl
  cases hnext
  refine ⟨?_, fun run _ => ?_⟩
  · intro running hget
    cases hget
    rfl
  refine System.throughout_of_events (fun event hmem run => ?_) run
  have hcases : event = .reload (.ok (⟨1, 2⟩, notesVersion "1.1.0")) ∨
      event = .prepare (.ok ()) ∨ event = .publish := by
    simpa [notesUpgrade] using hmem
  rcases hcases with rfl | rfl | rfl
  · intro message heq
    cases heq
  · rfl
  · trivial

/-- The next version names an entry that is not there: its worker stays all the same, under the
first version's bootstrap. -/
theorem notes_failed_reload_not_atomic : ∃ final,
    runtimeSystem.play notesGateway [.reload (.ok (⟨1, 2⟩, notesVersion "1.1.0")),
        .prepare (.error "desktop entry does not exist")] = some final ∧
      ¬runtimeSystem.Always ReloadsAtomic notesGateway
        [.reload (.ok (⟨1, 2⟩, notesVersion "1.1.0")),
          .prepare (.error "desktop entry does not exist")] := by
  refine ⟨_, rfl, fun halways => ?_⟩
  have hcoherent := (halways.last rfl).coherent rfl
  have hprimary : notesVersion "1.1.0" = notesVersion "1.0.0" := hcoherent.primary (by nofun)
  have hversion := congrArg (·.manifest.version) hprimary
  revert hversion
  decide

end PamDesktop.Gateway
