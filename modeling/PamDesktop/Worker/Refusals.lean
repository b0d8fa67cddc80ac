import PamDesktop.Worker.Pipes

/-!
# Requests that are refused before anything is written

The size check of a client fails before any byte reaches the process, and the supervisor still
takes this for a failure of the process. `refused_request_kept_iff` says in which states the
refusal leaves everything as it was, in any environment: a `Machine` over the calls of the client.
-/

namespace PamDesktop.Worker

open Foundations Protocol

variable {Request Response ε Value σ τ : Type}

/-- The encoding under this identifier is over the limit. -/
def OverLimit (encode : Request → Except String (List UInt8)) (request : UInt64 → Request)
    (id : UInt64) : Prop :=
  ∃ encoded, encode (request id) = .ok encoded ∧ maxMessageBytes < encoded.length

/-- The process that was in place, if any, still is and was not stopped meanwhile. -/
structure Kept (before after : Option Pid) (calls : List (PipeCall Request)) : Prop where
  same : after = before
  running : ∀ pid, before = some pid → .stop pid ∉ calls

/-- The world after the process has been dropped. -/
def dropped (M : Machine (pipes Request Response) σ) : Option Pid → σ → σ
  | none, s => s
  | some pid, s => (M.perform (.stop pid) s).2

/-- A request over the limit makes no call. -/
theorem exchange_over_limit (dialect : Dialect Request Response ε) {refusal : ε}
    (hframe : dialect.frame = frame refusal) {request : UInt64 → Request} {nextId : UInt64}
    (h : OverLimit dialect.encode request nextId) (pid : Pid) (purpose : Purpose) (timeout : Nat)
    (token : CancellationToken) :
    ∃ error, exchange dialect pid nextId purpose request timeout token = .fail error := by
  obtain ⟨encoded, hencode, hlimit⟩ := h
  unfold exchange
  split
  · exact ⟨_, rfl⟩
  · have hrefused : frame refusal encoded = .error refusal := by
      rw [frame, if_pos hlimit]
    simp only [hencode, hframe, hrefused]
    exact ⟨_, rfl⟩

/-! ## The PHP worker -/

section Worker

variable {M : Machine (workerPipes Value) σ} {host : WorkerHost Value}

/-- The identifier of the next request. A new worker has used the first one to boot. -/
def WorkerSupervisor.nextId (supervisor : WorkerSupervisor) : UInt64 :=
  (supervisor.worker.map (·.nextId)).getD 2

/-- The request fails and leaves the same worker and generation in place. -/
def WorkerSupervisor.Untouched (M : Machine (workerPipes Value) σ) (host : WorkerHost Value)
    (supervisor : WorkerSupervisor) (number : Nat) (command : WorkerCommand Value) (timeout : Nat)
    (token : CancellationToken) (s : σ) : Prop :=
  ∃ error after s',
    M.run (supervisor.request host number command timeout token) s = (.ok (.error error, after), s') ∧
    after.generation = supervisor.generation ∧
    Kept (supervisor.worker.map (·.pid)) (after.worker.map (·.pid))
      (M.calls (supervisor.request host number command timeout token) s)

/-- No worker can be started. -/
def StartFails (M : Machine (workerPipes Value) σ) (host : WorkerHost Value) (s : σ) : Prop :=
  ∃ error s', M.run (spawnReadyWorker host) s = (.error error, s')

/-- A worker can be started, but no other after it. -/
def ReplacementFails (M : Machine (workerPipes Value) σ) (host : WorkerHost Value) (s : σ) : Prop :=
  ∃ client bootstrap s', M.run (spawnReadyWorker host) s = (.ok (client, bootstrap), s') ∧
    StartFails M host (dropped M (some client.pid) s')

/-- A request uses up one number. -/
theorem worker_request_id (host : WorkerHost Value) (client : WorkerClient) (purpose : Purpose)
    (command : WorkerCommand Value) (timeout : Nat) (token : CancellationToken) :
    (client.request host purpose command timeout token).Returns fun answered =>
      answered.2.nextId = client.nextId + 1 := by
  unfold WorkerClient.request
  exact Program.returns_bind fun response => rfl

theorem worker_boot_id (host : WorkerHost Value) (client : WorkerClient) :
    (client.boot host).Returns fun booted => booted.2.nextId = client.nextId + 1 := by
  unfold WorkerClient.boot
  refine ((worker_request_id host client _ _ _ _).mapError _).bind ?_
  intro answered hanswered
  obtain ⟨response, client⟩ := answered
  dsimp only
  split
  · trivial
  · split
    · exact hanswered
    · trivial

/-- A worker that is ready has answered one request. -/
theorem spawn_ready_worker_id (host : WorkerHost Value) :
    (spawnReadyWorker host).Returns fun ready => ready.1.nextId = 2 := by
  intro reply
  cases reply with
  | error error => trivial
  | ok pid =>
      refine (worker_boot_id host ⟨pid, 1⟩).attempt.bind ?_
      intro result hresult
      cases result with
      | error error => exact fun _ => trivial
      | ok booted =>
          obtain ⟨bootstrap, client⟩ := booted
          dsimp only
          split
          · exact fun _ => trivial
          · exact hresult _ rfl

/-- Dropping a process is one call or none. -/
theorem run_drop_process {α : Type} (pid : Option Pid)
    (f : Unit → Program (pipes Request Response) Empty α)
    (M : Machine (pipes Request Response) σ) (s : σ) :
    M.run ((dropProcess pid).bind f) s = M.run (f ()) (dropped M pid s) := by
  cases pid <;> rfl

theorem restart_refused (supervisor : WorkerSupervisor) {s s' : σ} {error : String}
    (h : M.run (spawnReadyWorker host) (dropped M (supervisor.worker.map (·.pid)) s) =
      (.error error, s')) :
    M.run (supervisor.restart host) s =
      (.ok (.error error, { supervisor with worker := none }), s') := by
  unfold WorkerSupervisor.restart
  rw [Program.bind_eq, run_drop_process, Program.bind_eq, Machine.run_bind, Machine.run_attempt, h]
  rfl

theorem restart_started (supervisor : WorkerSupervisor) {s s' : σ} {client : WorkerClient}
    {bootstrap : Bootstrap}
    (h : M.run (spawnReadyWorker host) (dropped M (supervisor.worker.map (·.pid)) s) =
      (.ok (client, bootstrap), s')) :
    M.run (supervisor.restart host) s =
      (.ok (.ok bootstrap, ⟨some client, bootstrap, saturatingNext supervisor.generation⟩), s') := by
  unfold WorkerSupervisor.restart
  rw [Program.bind_eq, run_drop_process, Program.bind_eq, Machine.run_bind, Machine.run_attempt, h]
  rfl

/-- A request that fails before its first call has its worker stopped and replaced. -/
theorem request_worker_fails (supervisor : WorkerSupervisor) {client : WorkerClient}
    {command : WorkerCommand Value} {number timeout : Nat} {token : CancellationToken}
    {error : WorkerRequestError}
    (h : exchange (workerDialect host) client.pid client.nextId (.request number) command.envelope
      timeout token = .fail error) :
    supervisor.requestWorker host client number command timeout token =
      (supervisor.restart host).bind fun restarted => .done (.error error, restarted.2) := by
  unfold WorkerSupervisor.requestWorker WorkerClient.request
  rw [h]
  rfl

/-- So has the refused request. -/
theorem request_worker_over_limit (supervisor : WorkerSupervisor) {client : WorkerClient}
    {command : WorkerCommand Value} (h : OverLimit host.encode command.envelope client.nextId)
    (number timeout : Nat) (token : CancellationToken) :
    ∃ error, supervisor.requestWorker host client number command timeout token =
      (supervisor.restart host).bind fun restarted => .done (.error error, restarted.2) := by
  obtain ⟨error, hexchange⟩ := exchange_over_limit (workerDialect host) rfl h client.pid
    (.request number) timeout token
  exact ⟨error, request_worker_fails supervisor hexchange⟩

/-- The outcome of a refused request, given what the restart comes to. -/
theorem request_worker_run {supervisor after : WorkerSupervisor} {client : WorkerClient}
    {command : WorkerCommand Value} (h : OverLimit host.encode command.envelope client.nextId)
    (number timeout : Nat) (token : CancellationToken) {s s' : σ}
    {result : Except String Bootstrap}
    (hrestart : M.run (supervisor.restart host) s = (.ok (result, after), s')) :
    ∃ error, M.run (supervisor.requestWorker host client number command timeout token) s =
      (.ok (.error error, after), s') := by
  obtain ⟨error, hrequest⟩ := request_worker_over_limit supervisor h number timeout token
  refine ⟨error, ?_⟩
  rw [hrequest, Machine.run_bind, hrestart]
  rfl

/-- A worker that is in place is stopped. -/
theorem retained_worker_stopped {supervisor : WorkerSupervisor} {client : WorkerClient}
    {command : WorkerCommand Value} (hclient : supervisor.worker = some client)
    (h : OverLimit host.encode command.envelope client.nextId) (number timeout : Nat)
    (token : CancellationToken) (s : σ) :
    PipeCall.stop client.pid ∈
      M.calls (supervisor.request host number command timeout token) s := by
  obtain ⟨error, hrequest⟩ := request_worker_over_limit supervisor h number timeout token
  have hcalls : supervisor.request host number command timeout token =
      (supervisor.restart host).bind fun restarted => .done (.error error, restarted.2) := by
    unfold WorkerSupervisor.request
    simp only [hclient]
    exact hrequest
  rw [hcalls, Machine.calls_bind]
  apply List.mem_append_left
  unfold WorkerSupervisor.restart
  simp only [hclient, Option.map_some, dropProcess]
  exact List.mem_cons_self

/-- Without a worker one is started first. -/
theorem request_starts {supervisor : WorkerSupervisor} (hnone : supervisor.worker = none)
    (number timeout : Nat) (command : WorkerCommand Value) (token : CancellationToken) {s s' : σ}
    {client : WorkerClient} {bootstrap : Bootstrap}
    (h : M.run (spawnReadyWorker host) s = (.ok (client, bootstrap), s')) :
    M.run (supervisor.request host number command timeout token) s =
      M.run (WorkerSupervisor.requestWorker host
        ⟨some client, bootstrap, saturatingNext supervisor.generation⟩ client number command
        timeout token) s' := by
  have hrestart := restart_started supervisor (by rw [hnone]; exact h)
  unfold WorkerSupervisor.request
  simp only [hnone, Program.bind_eq]
  rw [Machine.run_bind, hrestart]

theorem request_not_started {supervisor : WorkerSupervisor} (hnone : supervisor.worker = none)
    (number timeout : Nat) (command : WorkerCommand Value) (token : CancellationToken) {s s' : σ}
    {error : String} (h : M.run (spawnReadyWorker host) s = (.error error, s')) :
    M.run (supervisor.request host number command timeout token) s =
      (.ok (.error (.crashed error), { supervisor with worker := none }), s') := by
  have hrestart := restart_refused supervisor (by rw [hnone]; exact h)
  unfold WorkerSupervisor.request
  simp only [hnone, Program.bind_eq]
  rw [Machine.run_bind, hrestart]
  rfl

theorem saturating_next_eq {value : UInt64} :
    saturatingNext value = value ↔ value.toNat + 1 = UInt64.size := by
  unfold saturatingNext
  split
  · rename_i hlast
    exact ⟨fun _ => hlast, fun _ => rfl⟩
  · rename_i hlast
    constructor
    · intro heq
      have hnat := congrArg UInt64.toNat heq
      rw [UInt64.toNat_add] at hnat
      have hlt := value.toNat_lt
      have hsize : UInt64.size = 2 ^ 64 := rfl
      have hone : (1 : UInt64).toNat = 1 := rfl
      omega
    · exact fun h => absurd h hlast

/-- A refused request without a worker. -/
theorem absent_worker_untouched_iff {supervisor : WorkerSupervisor}
    {command : WorkerCommand Value} (hworker : supervisor.worker = none)
    (h : OverLimit host.encode command.envelope 2) (number timeout : Nat)
    (token : CancellationToken) (s : σ) :
    supervisor.Untouched M host number command timeout token s ↔
      StartFails M host s ∨
        supervisor.generation.toNat + 1 = UInt64.size ∧ ReplacementFails M host s := by
  have hvacuous : ∀ calls : List (PipeCall (RequestEnvelope Value)),
      Kept (supervisor.worker.map (·.pid)) none calls := by
    intro calls
    rw [hworker]
    refine ⟨rfl, ?_⟩
    intro pid hpid
    cases hpid
  cases hstart : M.run (spawnReadyWorker host) s with
  | mk result s' =>
      cases result with
      | error error =>
          have hrun := request_not_started hworker number timeout command token hstart
          exact ⟨fun _ => .inl ⟨error, s', hstart⟩, fun _ => ⟨_, _, _, hrun, rfl, hvacuous _⟩⟩
      | ok ready =>
          obtain ⟨client, bootstrap⟩ := ready
          have hid : client.nextId = 2 :=
            Machine.value_of_run (spawn_ready_worker_id host) (congrArg Prod.fst hstart)
          have hover : OverLimit host.encode command.envelope client.nextId := by
            rw [hid]
            exact h
          have hrun := request_starts hworker number timeout command token hstart
          cases hagain : M.run (spawnReadyWorker host) (dropped M (some client.pid) s') with
          | mk result s'' =>
              cases result with
              | error error =>
                  obtain ⟨refusal, hrefused⟩ := request_worker_run hover number timeout token
                    (restart_refused ⟨some client, bootstrap, _⟩ hagain)
                  rw [hrefused] at hrun
                  constructor
                  · intro huntouched
                    obtain ⟨_, _, _, hrun', hgeneration, -⟩ := huntouched
                    cases hrun.symm.trans hrun'
                    exact .inr ⟨saturating_next_eq.mp hgeneration, client, bootstrap, s', hstart,
                      error, s'', hagain⟩
                  · intro hcondition
                    obtain ⟨_, _, hfails⟩ | ⟨hlast, -⟩ := hcondition
                    · cases hstart.symm.trans hfails
                    · exact ⟨_, _, _, hrun, saturating_next_eq.mpr hlast, hvacuous _⟩
              | ok again =>
                  obtain ⟨client', bootstrap'⟩ := again
                  obtain ⟨refusal, hrefused⟩ := request_worker_run hover number timeout token
                    (restart_started ⟨some client, bootstrap, _⟩ hagain)
                  rw [hrefused] at hrun
                  constructor
                  · intro huntouched
                    obtain ⟨_, _, _, hrun', -, hkept⟩ := huntouched
                    cases hrun.symm.trans hrun'
                    have hsame := hkept.same
                    rw [hworker] at hsame
                    cases hsame
                  · intro hcondition
                    obtain ⟨_, _, hfails⟩ | ⟨-, _, _, _, hfirst, _, _, hfails⟩ := hcondition
                    · cases hstart.symm.trans hfails
                    · cases hstart.symm.trans hfirst
                      cases hagain.symm.trans hfails

end Worker

/-! ## Rust plugins -/

section Plugin

variable {M : Machine (pluginPipes Value) σ} {host : PluginHost Value}

/-- The identifier of the next request. A new process has used the first one to boot. -/
def PluginSlot.nextId (slot : PluginSlot) : UInt64 := (slot.client.map (·.nextId)).getD 2

/-- The invocation fails and leaves the same process in place. -/
def PluginSlot.Untouched (M : Machine (pluginPipes Value) σ) (host : PluginHost Value)
    (slot : PluginSlot) (number : Nat) (command : PluginCommand Value) (timeout : Option Nat)
    (token : CancellationToken) (s : σ) : Prop :=
  ∃ error after s',
    M.run (slot.invoke host number command timeout token) s = (.ok (.error error, after), s') ∧
    Kept (slot.client.map (·.pid)) (after.client.map (·.pid))
      (M.calls (slot.invoke host number command timeout token) s)

/-- No process with the expected metadata can be started. -/
def PluginStartFails (M : Machine (pluginPipes Value) σ) (host : PluginHost Value)
    (expected : Option PluginMetadata) (s : σ) : Prop :=
  ∃ error s', M.run (spawnReadyPlugin host expected) s = (.error error, s')

/-- A process that exports the command can be started, but no other after it. -/
def PluginReplacementFails (M : Machine (pluginPipes Value) σ) (host : PluginHost Value)
    (expected : Option PluginMetadata) (command : String) (s : σ) : Prop :=
  ∃ client metadata s',
    M.run (spawnReadyPlugin host expected) s = (.ok (client, metadata), s') ∧
    metadata.commands.contains command = true ∧
    PluginStartFails M host (some metadata) (dropped M (some client.pid) s')

/-- A request uses up one number. -/
theorem plugin_request_id (host : PluginHost Value) (client : PluginClient) (purpose : Purpose)
    (command : PluginCommand Value) (timeout : Nat) (token : CancellationToken) :
    (client.request host purpose command timeout token).Returns fun answered =>
      answered.2.nextId = client.nextId + 1 := by
  unfold PluginClient.request
  exact Program.returns_bind fun response => rfl

theorem plugin_boot_id (host : PluginHost Value) (client : PluginClient) :
    (client.boot host).Returns fun booted => booted.2.nextId = client.nextId + 1 := by
  unfold PluginClient.boot
  refine ((plugin_request_id host client _ _ _ _).mapError _).bind ?_
  intro answered hanswered
  obtain ⟨response, client⟩ := answered
  dsimp only
  split
  · split <;> trivial
  · split
    · exact hanswered
    · trivial

/-- A plugin that is ready has answered one request. -/
theorem spawn_ready_plugin_id (host : PluginHost Value) (expected : Option PluginMetadata) :
    (spawnReadyPlugin host expected).Returns fun ready => ready.1.nextId = 2 := by
  intro reply
  cases reply with
  | error error => trivial
  | ok pid =>
      refine (plugin_boot_id host ⟨pid, 1⟩).attempt.bind ?_
      intro result hresult
      cases result with
      | error error => exact fun _ => trivial
      | ok booted =>
          obtain ⟨metadata, client⟩ := booted
          dsimp only
          split
          · exact fun _ => trivial
          · exact hresult _ rfl

theorem plugin_restart_refused (slot : PluginSlot) {s s' : σ} {error : String}
    (h : M.run (spawnReadyPlugin host slot.metadata) (dropped M (slot.client.map (·.pid)) s) =
      (.error error, s')) :
    M.run (slot.restart host) s = (.ok (.error error, { slot with client := none }), s') := by
  unfold PluginSlot.restart
  rw [Program.bind_eq, run_drop_process, Program.bind_eq, Machine.run_bind, Machine.run_attempt, h]
  rfl

theorem plugin_restart_started (slot : PluginSlot) {s s' : σ} {client : PluginClient}
    {metadata : PluginMetadata}
    (h : M.run (spawnReadyPlugin host slot.metadata) (dropped M (slot.client.map (·.pid)) s) =
      (.ok (client, metadata), s')) :
    M.run (slot.restart host) s = (.ok (.ok (), ⟨some metadata, some client⟩), s') := by
  unfold PluginSlot.restart
  rw [Program.bind_eq, run_drop_process, Program.bind_eq, Machine.run_bind, Machine.run_attempt, h]
  rfl

/-- The refused invocation makes no call of its own: the process is stopped and replaced. -/
theorem invoke_client_over_limit (slot : PluginSlot) {client : PluginClient}
    {command : PluginCommand Value} (h : OverLimit host.encode command.envelope client.nextId)
    (hexports : slot.exports command.command = true) (number : Nat) (timeout : Option Nat)
    (token : CancellationToken) :
    ∃ error, slot.invokeClient host client number command timeout token =
      (slot.restart host).bind fun restarted => .done (.error error, restarted.2) := by
  obtain ⟨error, hexchange⟩ := exchange_over_limit (pluginDialect host) rfl h client.pid
    (.request number) (timeout.getD host.timeoutMs) token
  refine ⟨error, ?_⟩
  unfold PluginSlot.invokeClient PluginClient.request
  rw [if_pos hexports, hexchange]
  rfl

/-- A command that is not exported is refused without a call. -/
theorem invoke_client_unknown (host : PluginHost Value) (slot : PluginSlot) (client : PluginClient)
    {command : PluginCommand Value} (hexports : slot.exports command.command = false)
    (number : Nat) (timeout : Option Nat) (token : CancellationToken) :
    ∃ error, slot.invokeClient host client number command timeout token =
      .done (.error error, slot) := by
  refine ⟨⟨.unknownCommand, "Rust plugin " ++ debugText host.id ++ " does not export command " ++
    debugText command.command ++ "."⟩, ?_⟩
  unfold PluginSlot.invokeClient
  rw [if_neg (by rw [hexports]; decide)]

theorem invoke_client_run (slot : PluginSlot) {after : PluginSlot} {client : PluginClient}
    {command : PluginCommand Value} (h : OverLimit host.encode command.envelope client.nextId)
    (hexports : slot.exports command.command = true) (number : Nat) (timeout : Option Nat)
    (token : CancellationToken) {s s' : σ} {result : Except String Unit}
    (hrestart : M.run (slot.restart host) s = (.ok (result, after), s')) :
    ∃ error, M.run (slot.invokeClient host client number command timeout token) s =
      (.ok (.error error, after), s') := by
  obtain ⟨error, hinvoke⟩ := invoke_client_over_limit slot h hexports number timeout token
  refine ⟨error, ?_⟩
  rw [hinvoke, Machine.run_bind, hrestart]
  rfl

/-- A process that is in place is stopped. -/
theorem retained_plugin_stopped {slot : PluginSlot} {client : PluginClient}
    {command : PluginCommand Value} (hclient : slot.client = some client)
    (h : OverLimit host.encode command.envelope client.nextId)
    (hexports : slot.exports command.command = true) (number : Nat) (timeout : Option Nat)
    (token : CancellationToken) (s : σ) :
    PipeCall.stop client.pid ∈ M.calls (slot.invoke host number command timeout token) s := by
  obtain ⟨error, hinvoke⟩ := invoke_client_over_limit slot h hexports number timeout token
  have hcalls : slot.invoke host number command timeout token =
      (slot.restart host).bind fun restarted => .done (.error error, restarted.2) := by
    unfold PluginSlot.invoke
    simp only [hclient]
    exact hinvoke
  rw [hcalls, Machine.calls_bind]
  apply List.mem_append_left
  unfold PluginSlot.restart
  simp only [hclient, Option.map_some, dropProcess]
  exact List.mem_cons_self

/-- Without a process one is started first. -/
theorem invoke_starts {slot : PluginSlot} (hnone : slot.client = none) (number : Nat)
    (command : PluginCommand Value) (timeout : Option Nat) (token : CancellationToken) {s s' : σ}
    {client : PluginClient} {metadata : PluginMetadata}
    (h : M.run (spawnReadyPlugin host slot.metadata) s = (.ok (client, metadata), s')) :
    M.run (slot.invoke host number command timeout token) s =
      M.run (PluginSlot.invokeClient host ⟨some metadata, some client⟩ client number command
        timeout token) s' := by
  have hrestart := plugin_restart_started slot (by rw [hnone]; exact h)
  unfold PluginSlot.invoke
  simp only [hnone, Program.bind_eq]
  rw [Machine.run_bind, hrestart]

theorem invoke_not_started {slot : PluginSlot} (hnone : slot.client = none) (number : Nat)
    (command : PluginCommand Value) (timeout : Option Nat) (token : CancellationToken) {s s' : σ}
    {error : String} (h : M.run (spawnReadyPlugin host slot.metadata) s = (.error error, s')) :
    M.run (slot.invoke host number command timeout token) s =
      (.ok (.error (.unavailable error), { slot with client := none }), s') := by
  have hrestart := plugin_restart_refused slot (by rw [hnone]; exact h)
  unfold PluginSlot.invoke
  simp only [hnone, Program.bind_eq]
  rw [Machine.run_bind, hrestart]
  rfl

/-- A refused invocation with a process in place. -/
theorem retained_plugin_untouched_iff {slot : PluginSlot} {client : PluginClient}
    {command : PluginCommand Value} (hclient : slot.client = some client)
    (h : OverLimit host.encode command.envelope client.nextId) (number : Nat)
    (timeout : Option Nat) (token : CancellationToken) (s : σ) :
    slot.Untouched M host number command timeout token s ↔
      slot.exports command.command = false := by
  constructor
  · intro huntouched
    obtain ⟨_, _, _, -, hkept⟩ := huntouched
    apply Bool.eq_false_iff.mpr
    intro hexports
    exact hkept.running client.pid (by rw [hclient]; rfl)
      (retained_plugin_stopped hclient h hexports number timeout token s)
  · intro hexports
    obtain ⟨error, hunknown⟩ := invoke_client_unknown host slot client hexports number timeout
      token
    have hinvoke : slot.invoke host number command timeout token =
        .done (.error error, slot) := by
      unfold PluginSlot.invoke
      simp only [hclient]
      exact hunknown
    refine ⟨error, slot, s, by rw [hinvoke]; rfl, rfl, ?_⟩
    intro pid _
    rw [hinvoke]
    exact List.not_mem_nil

/-- A refused invocation without a process. -/
theorem absent_plugin_untouched_iff {slot : PluginSlot} {command : PluginCommand Value}
    (hclient : slot.client = none) (h : OverLimit host.encode command.envelope 2) (number : Nat)
    (timeout : Option Nat) (token : CancellationToken) (s : σ) :
    slot.Untouched M host number command timeout token s ↔
      PluginStartFails M host slot.metadata s ∨
        PluginReplacementFails M host slot.metadata command.command s := by
  have hvacuous : ∀ calls : List (PipeCall (PluginRequestEnvelope Value)),
      Kept (slot.client.map (·.pid)) none calls := by
    intro calls
    rw [hclient]
    refine ⟨rfl, ?_⟩
    intro pid hpid
    cases hpid
  have hgone : ∀ {after : PluginSlot} {client : PluginClient}
      {calls : List (PipeCall (PluginRequestEnvelope Value))}, after.client = some client →
        ¬Kept (slot.client.map (·.pid)) (after.client.map (·.pid)) calls := by
    intro after client calls hafter hkept
    have hsame := hkept.same
    rw [hclient, hafter] at hsame
    cases hsame
  cases hstart : M.run (spawnReadyPlugin host slot.metadata) s with
  | mk result s' =>
      cases result with
      | error error =>
          have hrun := invoke_not_started hclient number command timeout token hstart
          exact ⟨fun _ => .inl ⟨error, s', hstart⟩, fun _ => ⟨_, _, _, hrun, hvacuous _⟩⟩
      | ok ready =>
          obtain ⟨client, metadata⟩ := ready
          have hid : client.nextId = 2 :=
            Machine.value_of_run (spawn_ready_plugin_id host _) (congrArg Prod.fst hstart)
          have hover : OverLimit host.encode command.envelope client.nextId := by
            rw [hid]
            exact h
          have hrun := invoke_starts hclient number command timeout token hstart
          cases hexports : metadata.commands.contains command.command with
          | false =>
              obtain ⟨refusal, hunknown⟩ := invoke_client_unknown host
                ⟨some metadata, some client⟩ client hexports number timeout token
              rw [hunknown] at hrun
              constructor
              · intro huntouched
                obtain ⟨_, _, _, hrun', hkept⟩ := huntouched
                cases hrun.symm.trans hrun'
                exact absurd hkept (hgone rfl)
              · intro hcondition
                obtain ⟨_, _, hfails⟩ | ⟨_, _, _, hfirst, hcontains, -⟩ := hcondition
                · cases hstart.symm.trans hfails
                · cases hstart.symm.trans hfirst
                  rw [hexports] at hcontains
                  cases hcontains
          | true =>
              cases hagain : M.run (spawnReadyPlugin host (some metadata))
                  (dropped M (some client.pid) s') with
              | mk result s'' =>
                  cases result with
                  | error error =>
                      obtain ⟨refusal, hrefused⟩ := invoke_client_run ⟨some metadata, some client⟩
                        hover hexports number timeout token
                        (plugin_restart_refused ⟨some metadata, some client⟩ hagain)
                      rw [hrefused] at hrun
                      exact ⟨fun _ => .inr ⟨client, metadata, s', hstart, hexports, error, s'',
                        hagain⟩, fun _ => ⟨_, _, _, hrun, hvacuous _⟩⟩
                  | ok again =>
                      obtain ⟨client', metadata'⟩ := again
                      obtain ⟨refusal, hrefused⟩ := invoke_client_run ⟨some metadata, some client⟩
                        hover hexports number timeout token
                        (plugin_restart_started ⟨some metadata, some client⟩ hagain)
                      rw [hrefused] at hrun
                      constructor
                      · intro huntouched
                        obtain ⟨_, _, _, hrun', hkept⟩ := huntouched
                        cases hrun.symm.trans hrun'
                        exact absurd hkept (hgone rfl)
                      · intro hcondition
                        obtain ⟨_, _, hfails⟩ | ⟨_, _, _, hfirst, -, _, _, hfails⟩ := hcondition
                        · cases hstart.symm.trans hfails
                        · cases hstart.symm.trans hfirst
                          cases hagain.symm.trans hfails

end Plugin

/-! ## Both supervisors -/

/-- A request that the size check refuses leaves everything in place exactly where no process is in
place and none can be put there, or where a plugin refuses the command before the size check. -/
theorem refused_request_kept_iff (host : WorkerHost Value) (pluginHost : PluginHost Value) :
    (∀ (M : Machine (workerPipes Value) σ) (supervisor : WorkerSupervisor) (number : Nat)
        (command : WorkerCommand Value) (timeout : Nat) (token : CancellationToken) (s : σ),
      OverLimit host.encode command.envelope supervisor.nextId →
        (supervisor.Untouched M host number command timeout token s ↔
          supervisor.worker = none ∧ (StartFails M host s ∨
            supervisor.generation.toNat + 1 = UInt64.size ∧ ReplacementFails M host s))) ∧
    ∀ (M : Machine (pluginPipes Value) τ) (slot : PluginSlot) (number : Nat)
        (command : PluginCommand Value) (timeout : Option Nat) (token : CancellationToken) (s : τ),
      OverLimit pluginHost.encode command.envelope slot.nextId →
        (slot.Untouched M pluginHost number command timeout token s ↔
          slot.client ≠ none ∧ slot.exports command.command = false ∨
          slot.client = none ∧ (PluginStartFails M pluginHost slot.metadata s ∨
            PluginReplacementFails M pluginHost slot.metadata command.command s)) := by
  constructor
  · intro M supervisor number command timeout token s h
    rw [WorkerSupervisor.nextId] at h
    cases hworker : supervisor.worker with
    | none =>
        rw [hworker] at h
        rw [absent_worker_untouched_iff hworker h]
        simp
    | some client =>
        rw [hworker] at h
        constructor
        · intro huntouched
          obtain ⟨_, _, _, -, -, hkept⟩ := huntouched
          exact absurd (retained_worker_stopped hworker h number timeout token s)
            (hkept.running client.pid (by rw [hworker]; rfl))
        · intro hcondition
          cases hcondition.1
  · intro M slot number command timeout token s h
    rw [PluginSlot.nextId] at h
    cases hclient : slot.client with
    | none =>
        rw [hclient] at h
        rw [absent_plugin_untouched_iff hclient h]
        simp
    | some client =>
        rw [hclient] at h
        rw [retained_plugin_untouched_iff hclient h]
        simp

/-! ## A note that is too long -/

/-- The command that saves a note of this many letters. -/
def notesSaveLetters (letters : Nat) : WorkerCommand NotesValue :=
  ⟨"notes.save", "main", .text (String.ofList (List.replicate letters 'a'))⟩

theorem notes_over_limit (id : UInt64) :
    OverLimit notesWorkerHost.encode (notesSaveLetters (maxMessageBytes + 1)).envelope id := by
  refine ⟨_, rfl, ?_⟩
  have hjson : (notesSaveLetters (maxMessageBytes + 1)).payload.json =
      "\"" ++ String.ofList (List.replicate (maxMessageBytes + 1) 'a') ++ "\"" := rfl
  have hpayload : ((notesSaveLetters (maxMessageBytes + 1)).envelope id).payload =
      (notesSaveLetters (maxMessageBytes + 1)).payload := rfl
  rw [notesEncode, hpayload, hjson]
  simp only [os_string_append, os_string_letters, List.length_append, List.length_replicate]
  omega

/-- Without a worker, and when none can be started, there is nothing to lose. -/
theorem notes_absent_kept :
    (WorkerSupervisor.mk none (notesBootstrap ["main"] notesWorkstation) 1).Untouched World.machine
      notesWorkerHost 0 (notesSaveLetters (maxMessageBytes + 1)) 5000 .unshared
      { notesWorld with spawnRefusal := some "No such file or directory (os error 2)" } :=
  ((refused_request_kept_iff (τ := Unit) notesWorkerHost notesPluginHost).1 World.machine _ _ _ _ _ _
    (notes_over_limit _)).mpr ⟨rfl, .inl ⟨_, _, rfl⟩⟩

/-- The worker that has just booted is stopped for a note that never reaches it. -/
theorem notes_worker_not_kept :
    OverLimit notesWorkerHost.encode (notesSaveLetters (maxMessageBytes + 1)).envelope
      (notesSupervisor 2).nextId ∧
    ¬(notesSupervisor 2).Untouched World.machine notesWorkerHost 0
      (notesSaveLetters (maxMessageBytes + 1)) 5000 .unshared notesWorld := by
  have hclient : (notesSupervisor 2).worker = some ⟨0, 2⟩ := rfl
  refine ⟨notes_over_limit _, ?_⟩
  intro huntouched
  obtain ⟨_, _, _, -, -, hkept⟩ := huntouched
  exact hkept.running 0 rfl (retained_worker_stopped hclient (notes_over_limit 2) 0 5000 .unshared
    notesWorld)

end PamDesktop.Worker
