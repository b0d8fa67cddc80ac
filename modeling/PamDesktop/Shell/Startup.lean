import PamDesktop.Protocol.Bootstrap

/-!
# Starting the desktop host, warm or cold

`runDesktop` from the startup snapshot to the engine: `DesktopRuntime::prepare_interactive` and
`prepare`, the background agent, the single instance, crash reports, `into_parts` and the gateway.
What the machine answers is a record of parameters. `warm_start_iff` says when a start from a
snapshot takes the decisions of a start without one.
-/

namespace PamDesktop.Shell.Startup

open Protocol

/-- `SNAPSHOT_SCHEMA`. -/
def snapshotSchema : Nat := 1

/-- `SnapshotFile`. -/
structure SnapshotFile where
  schema : Nat
  protocol : Nat
  projectFingerprint : String
  bootstrap : Bootstrap
deriving DecidableEq

/-- What the machine answers during a start: `parse` is the decoder of the snapshot, `fingerprint`
is `StartupSnapshot::prepare`, `worker` is the bootstrap that `WorkerSupervisor::start` ends with
and `acquire` says whether the activation was forwarded. -/
structure Host where
  parse : List UInt8 → Option SnapshotFile
  fingerprint : Except String String
  validateBootstrap : Bootstrap → Except String Unit
  worker : Except String Bootstrap
  startThread : Except String Unit
  publish : Bootstrap → Except String Unit
  spawnAgent : Except String Unit
  acquire : String → List String → Except String Bool
  installCrashReports : String → Except String Unit
  buildEventLoop : Except String Unit
  startGateway : Bootstrap → Bool → Except String Unit
  arguments : List String

/-- What a start does that can be seen from outside. -/
structure Decisions where
  /-- `background_agent::spawn` is called. -/
  agent : Bool := false
  /-- The identifier and the arguments of `InstanceGuard::acquire`. -/
  instanceOf : Option (String × List String) := none
  forwarded : Bool := false
  /-- The application in whose name crash reports are installed. -/
  crashReports : Option String := none
  /-- The bootstrap that the gateway, the quick actions and the windows are built from. -/
  engine : Option Bootstrap := none
deriving DecidableEq

/-- The decisions of a start and how it ended. -/
structure Start where
  decisions : Decisions
  result : Except String Unit

/-- Go on with the answer, or end with the error. -/
def ask {α : Type} (answer : Except String α) (decisions : Decisions) (next : α → Start) : Start :=
  match answer with
  | .error error => ⟨decisions, .error error⟩
  | .ok value => next value

/-- `SupervisorPreparation`. -/
inductive Supervisor where
  | ready (bootstrap : Bootstrap)
  | starting
deriving DecidableEq

/-- `DesktopRuntime`; `publishes` says that it keeps the startup snapshot to publish it. -/
structure DesktopRuntime where
  supervisor : Supervisor
  bootstrap : Bootstrap
  snapshotHit : Bool
  publishes : Bool
deriving DecidableEq

namespace Host

variable (host : Host)

/-- `StartupSnapshot::load`. -/
def load (fingerprint : String) (cache : Option (List UInt8)) : Option Bootstrap := do
  let bytes ← cache
  let snapshot ← host.parse bytes
  if snapshot.schema ≠ snapshotSchema ∨ snapshot.protocol ≠ protocolVersion ∨
      snapshot.projectFingerprint ≠ fingerprint ∨
      host.validateBootstrap snapshot.bootstrap ≠ .ok () ∨
      snapshot.bootstrap.workstation.startupSnapshot = false then
    none
  else some snapshot.bootstrap

/-- `DesktopRuntime::prepare`. -/
def prepare (cache : Option (List UInt8)) : Except String DesktopRuntime := do
  let fingerprint ← host.fingerprint
  let cached := host.load fingerprint cache
  let bootstrap ← host.worker
  host.validateBootstrap bootstrap
  host.publish bootstrap
  .ok ⟨.ready bootstrap, bootstrap, cached = some bootstrap, false⟩

/-- `DesktopRuntime::prepare_interactive`. -/
def prepareInteractive (cache : Option (List UInt8)) : Except String DesktopRuntime := do
  let fingerprint ← host.fingerprint
  match host.load fingerprint cache with
  | none => host.prepare cache
  | some bootstrap => do
      host.startThread
      .ok ⟨.starting, bootstrap, true, true⟩

/-- `DesktopRuntime::into_parts`: the bootstrap of the worker, and whether the snapshot had it. -/
def intoParts (runtime : DesktopRuntime) : Except String (Bootstrap × Bool) := do
  let bootstrap ← match runtime.supervisor with
    | .ready bootstrap => .ok bootstrap
    | .starting => host.worker
  host.validateBootstrap bootstrap
  if runtime.publishes then host.publish bootstrap else .ok ()
  .ok (bootstrap, runtime.snapshotHit && runtime.bootstrap = bootstrap)

/-- `servo_engine::run` up to the event loop. -/
def runEngine (runtime : DesktopRuntime) (decisions : Decisions) : Start :=
  let installed := runtime.bootstrap.workstation.crashReports
  let identifier := runtime.bootstrap.manifest.identifier
  let decisions := { decisions with crashReports := if installed then some identifier else none }
  ask (if installed then host.installCrashReports identifier else .ok ()) decisions fun _ =>
  ask host.buildEventLoop decisions fun _ =>
  ask (host.intoParts runtime) decisions fun (bootstrap, snapshotHit) =>
  let late := bootstrap.workstation.crashReports && !installed
  let identifier := bootstrap.manifest.identifier
  let decisions :=
    { decisions with crashReports := if late then some identifier else decisions.crashReports }
  ask (if late then host.installCrashReports identifier else .ok ()) decisions fun _ =>
  ⟨{ decisions with engine := some bootstrap }, host.startGateway bootstrap snapshotHit⟩

/-- `run_desktop` once the runtime is prepared. -/
def proceed (runtime : DesktopRuntime) : Start :=
  let agent := runtime.bootstrap.workstation.backgroundAgent
  let identifier := runtime.bootstrap.manifest.identifier
  ask (if agent then host.spawnAgent else .ok ()) { agent } fun _ =>
  let decisions : Decisions := { agent, instanceOf := some (identifier, host.arguments) }
  ask (host.acquire identifier host.arguments) decisions fun forwarded =>
  if forwarded then ⟨{ decisions with forwarded := true }, .ok ()⟩
  else host.runEngine runtime decisions

/-- `run_desktop`. -/
def runDesktop (cache : Option (List UInt8)) : Start :=
  ask (host.prepareInteractive cache) {} host.proceed

/-- The bootstrap of the worker passes the checks of a start. -/
def Admits (reported : Bootstrap) : Prop :=
  host.validateBootstrap reported = .ok () ∧ host.publish reported = .ok ()

/-- The background agent is not in the way of the start. -/
def AgentReady (reported : Bootstrap) : Prop :=
  reported.workstation.backgroundAgent = true → host.spawnAgent = .ok ()

/-- The snapshot says of the early decisions what the worker says: whether there is an agent, under
which identifier the instance is acquired, and, where the instance is the primary one, whether
crash reports are installed; those that the snapshot lacks are installed later, once the event
loop is built. -/
structure Agrees (cached reported : Bootstrap) : Prop where
  agent : cached.workstation.backgroundAgent = reported.workstation.backgroundAgent
  identifier : host.AgentReady reported →
    cached.manifest.identifier = reported.manifest.identifier
  crashReports : host.AgentReady reported →
    host.acquire reported.manifest.identifier host.arguments = .ok false →
    (cached.workstation.crashReports = true → reported.workstation.crashReports = true) ∧
      (reported.workstation.crashReports = true →
        cached.workstation.crashReports = true ∨ host.buildEventLoop = .ok ())

end Host

section

variable {host : Host} {cached reported : Bootstrap}

/-- The runtime of a start from a snapshot. -/
abbrev warmRuntime (cached : Bootstrap) : DesktopRuntime := ⟨.starting, cached, true, true⟩

/-- The runtime of a start without one. -/
abbrev coldRuntime (reported : Bootstrap) : DesktopRuntime :=
  ⟨.ready reported, reported, false, false⟩

/-- An answer that is an error ends the start. -/
theorem ask_error {α : Type} {error : String} {decisions : Decisions} {next : α → Start} :
    ask (.error error) decisions next = ⟨decisions, .error error⟩ := rfl

theorem ask_ok {α : Type} {value : α} {decisions : Decisions} {next : α → Start} :
    ask (.ok value) decisions next = next value := rfl

/-- What holds of the decisions so far and of those of the rest holds of the decisions. -/
theorem ask_decisions {α : Type} {P : Decisions → Prop} {answer : Except String α}
    {decisions : Decisions} {next : α → Start} (hnow : P decisions)
    (hnext : ∀ value, P (next value).decisions) : P (ask answer decisions next).decisions := by
  cases answer with
  | error error => exact hnow
  | ok value => exact hnext value

/-- The handshake of a start from a snapshot ends with what the worker reports. -/
theorem into_parts_warm (hworker : host.worker = .ok reported) (hadmits : host.Admits reported) :
    host.intoParts (warmRuntime cached) = .ok (reported, decide (cached = reported)) := by
  unfold Host.intoParts
  rw [hworker]
  change (host.validateBootstrap reported).bind _ = _
  rw [hadmits.1]
  change (host.publish reported).bind _ = _
  rw [hadmits.2]
  rw [Bool.true_and]
  rfl

theorem into_parts_cold (hadmits : host.Admits reported) :
    host.intoParts (coldRuntime reported) = .ok (reported, false) := by
  unfold Host.intoParts
  change (host.validateBootstrap reported).bind _ = _
  rw [hadmits.1]
  rfl

/-- With the same identifier, the engine is started with the same decisions exactly when the
snapshot installs crash reports only where the worker does, and the late installation is not kept
back by the event loop. -/
theorem run_engine_same_iff (hworker : host.worker = .ok reported)
    (hadmits : host.Admits reported)
    (hidentifier : cached.manifest.identifier = reported.manifest.identifier)
    (decisions : Decisions) :
    (host.runEngine (warmRuntime cached) decisions).decisions =
        (host.runEngine (coldRuntime reported) decisions).decisions ↔
      (cached.workstation.crashReports = true → reported.workstation.crashReports = true) ∧
        (reported.workstation.crashReports = true →
          cached.workstation.crashReports = true ∨ host.buildEventLoop = .ok ()) := by
  simp only [Host.runEngine, into_parts_warm hworker hadmits, into_parts_cold hadmits, hidentifier]
  cases hcached : cached.workstation.crashReports <;>
    cases hreported : reported.workstation.crashReports <;>
    cases hloop : host.buildEventLoop <;>
    cases hinstall : host.installCrashReports reported.manifest.identifier <;>
    simp [ask, hreported, hinstall]

/-- The engine does not reconsider the agent and the instance. -/
theorem run_engine_keeps (runtime : DesktopRuntime) (decisions : Decisions) :
    (host.runEngine runtime decisions).decisions.agent = decisions.agent ∧
      (host.runEngine runtime decisions).decisions.instanceOf = decisions.instanceOf := by
  unfold Host.runEngine
  let kept (after : Decisions) : Prop :=
    after.agent = decisions.agent ∧ after.instanceOf = decisions.instanceOf
  exact ask_decisions (P := kept) ⟨rfl, rfl⟩ fun _ => ask_decisions (P := kept) ⟨rfl, rfl⟩ fun _ =>
    ask_decisions (P := kept) ⟨rfl, rfl⟩ fun _ => ask_decisions (P := kept) ⟨rfl, rfl⟩ fun _ =>
      ⟨rfl, rfl⟩

/-- The agent is started as the bootstrap at hand says. -/
theorem proceed_agent (runtime : DesktopRuntime) :
    (host.proceed runtime).decisions.agent = runtime.bootstrap.workstation.backgroundAgent := by
  unfold Host.proceed
  let kept (after : Decisions) : Prop :=
    after.agent = runtime.bootstrap.workstation.backgroundAgent
  refine ask_decisions (P := kept) rfl fun _ => ask_decisions (P := kept) rfl fun forwarded => ?_
  split
  · rfl
  · exact (run_engine_keeps _ _).1

/-- A start that gets past the agent acquires the instance. -/
theorem proceed_ready (runtime : DesktopRuntime) (hready : host.AgentReady runtime.bootstrap) :
    host.proceed runtime =
      let identifier := runtime.bootstrap.manifest.identifier
      let decisions : Decisions :=
        { agent := runtime.bootstrap.workstation.backgroundAgent
          instanceOf := some (identifier, host.arguments) }
      ask (host.acquire identifier host.arguments) decisions fun forwarded =>
        if forwarded then ⟨{ decisions with forwarded := true }, .ok ()⟩
        else host.runEngine runtime decisions := by
  have hagent : (if runtime.bootstrap.workstation.backgroundAgent then host.spawnAgent
      else .ok ()) = .ok () := by
    split
    · rename_i hagent
      exact hready hagent
    · rfl
  simp only [Host.proceed, hagent]
  rw [ask_ok]

/-- A start that fails at the agent takes no other decision. -/
theorem proceed_unready (runtime : DesktopRuntime) (hready : ¬ host.AgentReady runtime.bootstrap) :
    (host.proceed runtime).decisions = { agent := true } := by
  obtain ⟨hagent, hfails⟩ := Classical.not_imp.mp hready
  cases hspawn : host.spawnAgent with
  | ok value => exact absurd hspawn hfails
  | error error =>
      simp only [Host.proceed, hagent, if_true, hspawn]
      rw [ask_error]

theorem proceed_instance (runtime : DesktopRuntime) (hready : host.AgentReady runtime.bootstrap) :
    (host.proceed runtime).decisions.instanceOf =
      some (runtime.bootstrap.manifest.identifier, host.arguments) := by
  rw [proceed_ready runtime hready]
  let kept (after : Decisions) : Prop :=
    after.instanceOf = some (runtime.bootstrap.manifest.identifier, host.arguments)
  refine ask_decisions (P := kept) rfl fun forwarded => ?_
  split
  · rfl
  · exact (run_engine_keeps _ _).2

/-- Every start that gets to its decisions takes one. -/
theorem proceed_decides (runtime : DesktopRuntime) : (host.proceed runtime).decisions ≠ {} := by
  intro hnone
  have hagent : (host.proceed runtime).decisions.agent = _ := proceed_agent runtime
  rw [hnone] at hagent
  have hready : host.AgentReady runtime.bootstrap := by
    intro htrue
    rw [← hagent] at htrue
    cases htrue
  have hinstance := proceed_instance runtime hready
  rw [hnone] at hinstance
  cases hinstance

/-- Both runtimes lead to the same decisions exactly when the snapshot agrees with the worker. -/
theorem proceed_same_iff (hworker : host.worker = .ok reported) (hadmits : host.Admits reported) :
    (host.proceed (warmRuntime cached)).decisions =
        (host.proceed (coldRuntime reported)).decisions ↔ host.Agrees cached reported := by
  by_cases hagent : cached.workstation.backgroundAgent = reported.workstation.backgroundAgent
  · by_cases hready : host.AgentReady reported
    · have hready' : host.AgentReady cached := by
        rw [Host.AgentReady, hagent]
        exact hready
      by_cases hidentifier : cached.manifest.identifier = reported.manifest.identifier
      · rw [proceed_ready (warmRuntime cached) hready', proceed_ready (coldRuntime reported) hready]
        simp only [hidentifier, hagent]
        cases hacquire : host.acquire reported.manifest.identifier host.arguments with
        | error error =>
            refine ⟨fun _ => ⟨hagent, fun _ => hidentifier, fun _ hprimary => ?_⟩, fun _ => rfl⟩
            rw [hacquire] at hprimary
            cases hprimary
        | ok forwarded =>
            rw [ask_ok, ask_ok]
            cases forwarded with
            | true =>
                refine ⟨fun _ => ⟨hagent, fun _ => hidentifier, fun _ hprimary => ?_⟩,
                  fun _ => rfl⟩
                rw [hacquire] at hprimary
                cases hprimary
            | false =>
                rw [if_neg nofun, if_neg nofun,
                  run_engine_same_iff hworker hadmits hidentifier]
                exact ⟨fun hcrash => ⟨hagent, fun _ => hidentifier, fun _ _ => hcrash⟩,
                  fun hagrees => hagrees.crashReports hready hacquire⟩
      · constructor
        · intro hsame
          have hinstance := proceed_instance (warmRuntime cached) hready'
          rw [hsame, proceed_instance (coldRuntime reported) hready] at hinstance
          simp only [Option.some.injEq, Prod.mk.injEq] at hinstance
          exact absurd hinstance.1.symm hidentifier
        · intro hagrees
          exact absurd (hagrees.identifier hready) hidentifier
    · have hunready : ¬ host.AgentReady cached := by
        rw [Host.AgentReady, hagent]
        exact hready
      rw [proceed_unready (warmRuntime cached) hunready,
        proceed_unready (coldRuntime reported) hready]
      exact ⟨fun _ => ⟨hagent, fun h => absurd h hready, fun h => absurd h hready⟩, fun _ => rfl⟩
  · constructor
    · intro hsame
      have hwarm : (host.proceed (warmRuntime cached)).decisions.agent = _ :=
        proceed_agent (warmRuntime cached)
      rw [hsame, proceed_agent] at hwarm
      exact absurd hwarm.symm hagent
    · intro hagrees
      exact absurd hagrees.agent hagent

/-- A start from an accepted snapshot. -/
theorem run_desktop_warm {fingerprint : String} {bytes : List UInt8}
    (hfingerprint : host.fingerprint = .ok fingerprint)
    (hload : host.load fingerprint (some bytes) = some cached) :
    host.runDesktop (some bytes) =
      ask host.startThread {} fun _ => host.proceed (warmRuntime cached) := by
  unfold Host.runDesktop Host.prepareInteractive
  rw [hfingerprint]
  change ask (match host.load fingerprint (some bytes) with | none => _ | some bootstrap => _) _ _ =
    _
  rw [hload]
  cases hthread : host.startThread with
  | error error => rfl
  | ok value => rfl

/-- A start without a snapshot takes decisions only for a bootstrap that is admitted. -/
theorem run_desktop_cold {fingerprint : String}
    (hfingerprint : host.fingerprint = .ok fingerprint) (hworker : host.worker = .ok reported) :
    (host.Admits reported → host.runDesktop none = host.proceed (coldRuntime reported)) ∧
      (¬ host.Admits reported → (host.runDesktop none).decisions = {}) := by
  have hprepare : host.prepareInteractive none = (do
      host.validateBootstrap reported
      host.publish reported
      .ok (coldRuntime reported)) := by
    unfold Host.prepareInteractive Host.prepare
    rw [hfingerprint, hworker]
    rfl
  unfold Host.runDesktop
  rw [hprepare]
  constructor
  · intro hadmits
    rw [hadmits.1, hadmits.2]
    rfl
  · intro hadmits
    cases hvalid : host.validateBootstrap reported with
    | error error => rfl
    | ok value =>
        cases hpublish : host.publish reported with
        | error error => rfl
        | ok value' => exact absurd ⟨hvalid, hpublish⟩ hadmits

/-- A start from an accepted snapshot takes the decisions of a start without one exactly when the
snapshot agrees with the bootstrap that the worker reports, or when both end before any. -/
theorem warm_start_iff (host : Host) (fingerprint : String) (bytes : List UInt8)
    (cached reported : Bootstrap) (hfingerprint : host.fingerprint = .ok fingerprint)
    (hload : host.load fingerprint (some bytes) = some cached)
    (hworker : host.worker = .ok reported) :
    (host.runDesktop (some bytes)).decisions = (host.runDesktop none).decisions ↔
      (host.Admits reported ↔ host.startThread = .ok ()) ∧
        (host.Admits reported → host.Agrees cached reported) := by
  rw [run_desktop_warm hfingerprint hload]
  obtain ⟨hcold, hrefused⟩ := run_desktop_cold hfingerprint hworker
  by_cases hadmits : host.Admits reported
  · rw [hcold hadmits]
    cases hthread : host.startThread with
    | error error =>
        rw [ask_error]
        refine ⟨fun hsame => absurd hsame.symm (proceed_decides _), fun h => ?_⟩
        cases h.1.mp hadmits
    | ok value =>
        rw [ask_ok, proceed_same_iff hworker hadmits]
        exact ⟨fun h => ⟨⟨fun _ => rfl, fun _ => hadmits⟩, fun _ => h⟩, fun h => h.2 hadmits⟩
  · rw [hrefused hadmits]
    cases hthread : host.startThread with
    | error error =>
        rw [ask_error]
        exact ⟨fun _ => ⟨⟨fun h => absurd h hadmits, nofun⟩, fun h => absurd h hadmits⟩, fun _ => rfl⟩
    | ok value =>
        rw [ask_ok]
        refine ⟨fun hsame => absurd hsame (proceed_decides _), fun h => ?_⟩
        exact absurd (h.1.mpr rfl) hadmits

end

/-! ## The notes application -/

/-- A machine with one instance that grants everything; its snapshot file holds one bootstrap and
its worker reports another. -/
def notesHost (cached reported : Bootstrap) : Host where
  parse _ := some ⟨snapshotSchema, protocolVersion, "f1", cached⟩
  fingerprint := .ok "f1"
  validateBootstrap _ := .ok ()
  worker := .ok reported
  startThread := .ok ()
  publish _ := .ok ()
  spawnAgent := .ok ()
  acquire _ _ := .ok false
  installCrashReports _ := .ok ()
  buildEventLoop := .ok ()
  startGateway _ _ := .ok ()
  arguments := ["notes:open"]

/-- The notes with one window and this workstation. -/
def notesWith (workstation : WorkstationConfig) : Bootstrap := notesBootstrap ["main"] workstation

theorem notes_warm_start :
    ((notesHost (notesWith notesWorkstation) (notesWith notesWorkstation)).runDesktop
        (some [])).decisions =
      ((notesHost (notesWith notesWorkstation) (notesWith notesWorkstation)).runDesktop
        none).decisions := by
  refine (warm_start_iff _ "f1" [] (notesWith notesWorkstation) (notesWith notesWorkstation) rfl
    rfl rfl).mpr ⟨⟨fun _ => rfl, fun _ => ⟨rfl, rfl⟩⟩, fun _ => ?_⟩
  exact ⟨rfl, fun _ => rfl, fun _ _ => ⟨id, .inl⟩⟩

/-- An agent that the project has been given since: the snapshot is accepted and starts the
application without it. -/
theorem warm_start_without_agent :
    let host := notesHost (notesWith notesWorkstation)
      (notesWith { notesWorkstation with backgroundAgent := true })
    host.load "f1" (some []) = some (notesWith notesWorkstation) ∧
      (host.runDesktop (some [])).decisions.agent = false ∧
      (host.runDesktop none).decisions.agent = true := by
  exact ⟨rfl, rfl, rfl⟩

end PamDesktop.Shell.Startup
