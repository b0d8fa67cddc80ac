import PamDesktop.Foundations.Program
import PamDesktop.Protocol.Bootstrap
import PamDesktop.Worker.Framing

/-!
# The clients of worker and plugin processes

`WorkerSupervisor` and `PluginSlot` as programs over the calls that they make to the operating
system. Both keep one process, talk to it through a client that numbers its requests, and replace
the process after every error of the client. `exchange` is what the two clients have in common.
-/

namespace PamDesktop.Worker

open Foundations Protocol

/-- The identifier of a process. -/
abbrev Pid := Nat

/-- `CancellationToken`. A default token that is not shared is never cancelled. -/
inductive CancellationToken where
  | unshared
  | shared (id : Nat)
deriving DecidableEq

/-- For what a line is written: to boot a process or for a request to the supervisor. The record
of a run tells lines apart by it. -/
inductive Purpose where
  | boot
  | request (number : Nat)
deriving DecidableEq

/-- What a turn of waiting for the reader thread gives. -/
inductive Poll (Response : Type) where
  | response (response : Response)
  | failed (message : String)
  | timeout
  | disconnected

/-- The calls of a client. `spawn` starts a process with its pipes and its reader thread and
`stop` is the drop of the client. -/
inductive PipeCall (Request : Type) where
  | spawn
  | write (pid : Pid) (purpose : Purpose) (request : Request) (line : List UInt8)
  | isCancelled (token : Nat)
  | deadlinePassed
  | receive (pid : Pid)
  | stop (pid : Pid)

/-- The calls with their replies. -/
def pipes (Request Response : Type) : Signature where
  Call := PipeCall Request
  Reply
    | .spawn => Except String Pid
    | .write _ _ _ _ => Except String Unit
    | .isCancelled _ => Bool
    | .deadlinePassed => Bool
    | .receive _ => Poll Response
    | .stop _ => Unit

variable {Request Response ε : Type}

/-! ## Requests -/

/-- Where the two clients differ: the encoding of a request, the check of a response and the
errors. -/
structure Dialect (Request Response ε : Type) where
  encode : Request → Except String (List UInt8)
  frame : List UInt8 → Except ε (List UInt8)
  validateFor : Response → UInt64 → Except String Unit
  overflow : ε
  unencodable : String → ε
  unwritable : String → ε
  cancelled : ε
  timedOut : ε
  invalid : String → ε
  failed : String → ε
  disconnected : ε

/-- `CancellationToken::is_cancelled`. -/
def CancellationToken.isCancelled : CancellationToken → Program (pipes Request Response) ε Bool
  | .unshared => .done false
  | .shared id => .call (.isCancelled id) .done

/-- CANCELLATION_POLL_INTERVAL, in milliseconds. -/
def cancellationPollInterval : Nat := 20

/-- The waiting loop of a request. Each turn that ends with a time-out has lasted for an interval
or until the deadline, so the turns before the deadline are limited. -/
def awaitResponse (dialect : Dialect Request Response ε) (pid : Pid) (requestId : UInt64)
    (token : CancellationToken) : Nat → Program (pipes Request Response) ε Response
  | 0 => do
      if ← token.isCancelled then .fail dialect.cancelled
      else .fail dialect.timedOut
  | turns + 1 => do
      if ← token.isCancelled then .fail dialect.cancelled
      else
        .call .deadlinePassed fun (passed : Bool) =>
          if passed then .fail dialect.timedOut
          else
            .call (.receive pid) fun
              | .response response =>
                  match dialect.validateFor response requestId with
                  | .ok () => .done response
                  | .error error => .fail (dialect.invalid error)
              | .failed error => .fail (dialect.failed error)
              | .timeout => awaitResponse dialect pid requestId token turns
              | .disconnected => .fail dialect.disconnected

/-- `request` of a client whose next identifier is given. The timeout is in milliseconds. -/
def exchange (dialect : Dialect Request Response ε) (pid : Pid) (nextId : UInt64)
    (purpose : Purpose) (request : UInt64 → Request) (timeout : Nat) (token : CancellationToken) :
    Program (pipes Request Response) ε Response :=
  if nextId.toNat + 1 = UInt64.size then .fail dialect.overflow
  else
    match dialect.encode (request nextId) with
    | .error error => .fail (dialect.unencodable error)
    | .ok encoded =>
        match dialect.frame encoded with
        | .error error => .fail error
        | .ok line =>
            .call (.write pid purpose (request nextId) line) fun
              | .error error => .fail (dialect.unwritable error)
              | .ok () =>
                  awaitResponse dialect pid nextId token (timeout / cancellationPollInterval + 1)

/-- BOOT_TIMEOUT and PLUGIN_BOOT_TIMEOUT, in milliseconds. -/
def bootTimeout : Nat := 10000

/-- Drop a new client with the error that its owner returns. -/
def dropWith {α : Type} (pid : Pid) (error : String) : Program (pipes Request Response) String α :=
  .call (.stop pid) fun () => .fail error

/-- `take` on the client of this process, if there is one. -/
def dropProcess : Option Pid → Program (pipes Request Response) Empty Unit
  | none => .done ()
  | some pid => .call (.stop pid) .done

/-! ## The PHP worker -/

/-- What the supervisor works with: the JSON encoder and decoder and the platform. -/
structure WorkerHost (Value : Type) where
  platform : Platform
  null : Value
  encode : RequestEnvelope Value → Except String (List UInt8)
  decodeBootstrap : Value → Except String Bootstrap

variable {Value : Type}

/-- The calls of the supervisor. -/
abbrev workerPipes (Value : Type) : Signature :=
  pipes (RequestEnvelope Value) (ResponseEnvelope Value)

/-- The `Display` text of a request error. -/
def WorkerRequestError.text : WorkerRequestError → String
  | .timedOut => "the PHP command exceeded its deadline"
  | .cancelled => "the PHP command was cancelled"
  | .crashed message => "the PHP worker stopped: " ++ message

/-- How `WorkerClient::request` encodes, checks and fails. -/
def workerDialect (host : WorkerHost Value) :
    Dialect (RequestEnvelope Value) (ResponseEnvelope Value) WorkerRequestError where
  encode := host.encode
  frame := frameWorkerRequest
  validateFor := ResponseEnvelope.validateFor
  overflow := .crashed "worker request id overflow"
  unencodable error := .crashed ("cannot serialize worker request: " ++ error)
  unwritable error := .crashed ("cannot write to PHP worker: " ++ error)
  cancelled := .cancelled
  timedOut := .timedOut
  invalid := .crashed
  failed := .crashed
  disconnected := .crashed "PHP response channel disconnected"

/-- `worker_failure`. -/
def workerFailure (response : ResponseEnvelope Value) : String :=
  match response.error with
  | none => "PHP worker returned an unspecified failure"
  | some error => "PHP worker error " ++ toString error.code.number ++ ": " ++ error.message

/-- `WorkerClient`: its process and the identifier of its next request. -/
structure WorkerClient where
  pid : Pid
  nextId : UInt64
deriving DecidableEq

/-- A command with its window and payload, as the caller of `request` passes it. -/
structure WorkerCommand (Value : Type) where
  command : String
  windowId : String
  payload : Value

/-- The request that a command is sent as. -/
def WorkerCommand.envelope (command : WorkerCommand Value) (id : UInt64) : RequestEnvelope Value :=
  .forWindow id command.command command.windowId command.payload

/-- `WorkerClient::request`. -/
def WorkerClient.request (host : WorkerHost Value) (client : WorkerClient) (purpose : Purpose)
    (command : WorkerCommand Value) (timeout : Nat) (token : CancellationToken) :
    Program (workerPipes Value) WorkerRequestError (ResponseEnvelope Value × WorkerClient) := do
  let response ← exchange (workerDialect host) client.pid client.nextId purpose command.envelope
    timeout token
  .done (response, { client with nextId := client.nextId + 1 })

/-- `WorkerClient::boot`. -/
def WorkerClient.boot (host : WorkerHost Value) (client : WorkerClient) :
    Program (workerPipes Value) String (Bootstrap × WorkerClient) := do
  let (response, client) ← (client.request host .boot ⟨bootCommand, mainWindowId, host.null⟩
    bootTimeout .unshared).mapError WorkerRequestError.text
  if response.status = .failure then .fail (workerFailure response)
  else
    match host.decodeBootstrap response.payload with
    | .ok bootstrap => .done (bootstrap, client)
    | .error error => .fail ("worker returned an invalid bootstrap contract: " ++ error)

/-- `spawn_ready_worker`. The client is dropped when it does not boot. -/
def spawnReadyWorker (host : WorkerHost Value) :
    Program (workerPipes Value) String (WorkerClient × Bootstrap) :=
  .call .spawn fun
    | .error error => .fail error
    | .ok pid => do
        match ← (WorkerClient.boot host ⟨pid, 1⟩).attempt with
        | .error error => dropWith pid error
        | .ok (bootstrap, client) =>
            match bootstrap.validate host.platform with
            | .error error => dropWith pid error
            | .ok () => .done (client, bootstrap)

/-- `WorkerSupervisor`, without the project and the executable that it starts. -/
structure WorkerSupervisor where
  worker : Option WorkerClient
  bootstrap : Bootstrap
  generation : UInt64

/-- `u64::saturating_add` of one. -/
def saturatingNext (value : UInt64) : UInt64 :=
  if value.toNat + 1 = UInt64.size then value else value + 1

/-- `WorkerSupervisor::start_with_executable`. -/
def WorkerSupervisor.start (host : WorkerHost Value) :
    Program (workerPipes Value) String WorkerSupervisor := do
  let (worker, bootstrap) ← spawnReadyWorker host
  .done ⟨some worker, bootstrap, 1⟩

/-- `WorkerSupervisor::restart`. The old worker is gone before the new one is started. -/
def WorkerSupervisor.restart (host : WorkerHost Value) (supervisor : WorkerSupervisor) :
    Program (workerPipes Value) Empty (Except String Bootstrap × WorkerSupervisor) := do
  dropProcess (supervisor.worker.map (·.pid))
  match ← (spawnReadyWorker host).attempt with
  | .error error => .done (.error error, { supervisor with worker := none })
  | .ok (worker, bootstrap) =>
      .done (.ok bootstrap, ⟨some worker, bootstrap, saturatingNext supervisor.generation⟩)

/-- `WorkerSupervisor::request` once there is a worker. -/
def WorkerSupervisor.requestWorker (host : WorkerHost Value) (supervisor : WorkerSupervisor)
    (client : WorkerClient) (number : Nat) (command : WorkerCommand Value) (timeout : Nat)
    (token : CancellationToken) : Program (workerPipes Value) Empty
      (Except WorkerRequestError (ResponseEnvelope Value) × WorkerSupervisor) := do
  match ← (client.request host (.request number) command timeout token).attempt with
  | .ok (response, client) => .done (.ok response, { supervisor with worker := some client })
  | .error error => do
      -- never retried: the command may have had its effect before the worker stopped
      let (_, supervisor) ← supervisor.restart host
      .done (.error error, supervisor)

/-- `WorkerSupervisor::request`. -/
def WorkerSupervisor.request (host : WorkerHost Value) (supervisor : WorkerSupervisor)
    (number : Nat) (command : WorkerCommand Value) (timeout : Nat) (token : CancellationToken) :
    Program (workerPipes Value) Empty
      (Except WorkerRequestError (ResponseEnvelope Value) × WorkerSupervisor) :=
  match supervisor.worker with
  | some client => supervisor.requestWorker host client number command timeout token
  | none => do
      match ← supervisor.restart host with
      | (.error error, supervisor) => .done (.error (.crashed error), supervisor)
      | (.ok _, supervisor) =>
          match supervisor.worker with
          | none => .done (.error (.crashed "worker was ensured above"), supervisor)
          | some client => supervisor.requestWorker host client number command timeout token

/-! ## Rust plugins -/

/-- What a plugin slot works with: its configuration, the JSON encoder and the decoder. The call
`spawn` stands for `verify_integrity` and `PluginClient::spawn`. -/
structure PluginHost (Value : Type) where
  id : String
  executable : String
  timeoutMs : Nat
  null : Value
  encode : PluginRequestEnvelope Value → Except String (List UInt8)
  decodeMetadata : Value → Except String PluginMetadata

/-- The calls of a plugin slot. -/
abbrev pluginPipes (Value : Type) : Signature :=
  pipes (PluginRequestEnvelope Value) (PluginResponseEnvelope Value)

/-- `PluginError::unavailable`. -/
def PluginError.unavailable (message : String) : PluginError := ⟨.pluginUnavailable, message⟩

/-- `PluginError::failed`. -/
def PluginError.failed (message : String) : PluginError := ⟨.pluginFailed, message⟩

/-- How `PluginClient::request` encodes, checks and fails. -/
def pluginDialect (host : PluginHost Value) :
    Dialect (PluginRequestEnvelope Value) (PluginResponseEnvelope Value) PluginError where
  encode := host.encode
  frame := framePluginRequest
  validateFor := PluginResponseEnvelope.validateFor
  overflow := .failed "Rust plugin request id overflow."
  unencodable error := .failed ("Cannot encode plugin request: " ++ error)
  unwritable error := .unavailable ("Cannot write to Rust plugin: " ++ error)
  cancelled := ⟨.requestCancelled, "Rust plugin invocation was cancelled."⟩
  timedOut := ⟨.requestTimedOut, "Rust plugin invocation exceeded its deadline."⟩
  invalid := .failed
  failed := .unavailable
  disconnected := .unavailable "Rust plugin response channel disconnected."

/-- `PluginClient`: its process and the identifier of its next request. -/
structure PluginClient where
  pid : Pid
  nextId : UInt64
deriving DecidableEq

/-- A plugin command with its payload. -/
structure PluginCommand (Value : Type) where
  command : String
  payload : Value

/-- The request that a plugin command is sent as. -/
def PluginCommand.envelope (command : PluginCommand Value) (id : UInt64) :
    PluginRequestEnvelope Value :=
  .new id command.command command.payload

/-- `PluginClient::request`. -/
def PluginClient.request (host : PluginHost Value) (client : PluginClient) (purpose : Purpose)
    (command : PluginCommand Value) (timeout : Nat) (token : CancellationToken) :
    Program (pluginPipes Value) PluginError (PluginResponseEnvelope Value × PluginClient) := do
  let response ← exchange (pluginDialect host) client.pid client.nextId purpose command.envelope
    timeout token
  .done (response, { client with nextId := client.nextId + 1 })

/-- `PluginClient::boot`. -/
def PluginClient.boot (host : PluginHost Value) (client : PluginClient) :
    Program (pluginPipes Value) String (PluginMetadata × PluginClient) := do
  let (response, client) ← (client.request host .boot ⟨pluginBootCommand, host.null⟩ bootTimeout
    .unshared).mapError PluginError.message
  if response.status = .failure then
    match response.error with
    | none => .fail "Rust plugin rejected its boot request"
    | some error => .fail ("Rust plugin boot failed: " ++ error.message)
  else
    match host.decodeMetadata response.payload with
    | .ok metadata => .done (metadata, client)
    | .error error => .fail ("Rust plugin returned invalid metadata: " ++ error)

/-- `PluginSlot`, without its configuration. -/
structure PluginSlot where
  metadata : Option PluginMetadata
  client : Option PluginClient

/-- The checks of `PluginSlot::restart` on what a new process says about itself. -/
def checkMetadata (host : PluginHost Value) (expected : Option PluginMetadata)
    (metadata : PluginMetadata) : Except String Unit := do
  metadata.validate
  if metadata.identifier ≠ host.id then
    .error ("Rust plugin at " ++ host.executable ++ " identifies as " ++
      debugText metadata.identifier ++ ", expected " ++ debugText host.id)
  else
    match expected with
    | none => .ok ()
    | some expected =>
        if metadata ≠ expected then
          .error ("Rust plugin " ++ debugText host.id ++ " changed metadata while recovering")
        else .ok ()

/-- The part of `PluginSlot::restart` that starts a process. It is dropped when a check fails. -/
def spawnReadyPlugin (host : PluginHost Value) (expected : Option PluginMetadata) :
    Program (pluginPipes Value) String (PluginClient × PluginMetadata) :=
  .call .spawn fun
    | .error error => .fail error
    | .ok pid => do
        match ← (PluginClient.boot host ⟨pid, 1⟩).attempt with
        | .error error => dropWith pid error
        | .ok (metadata, client) =>
            match checkMetadata host expected metadata with
            | .error error => dropWith pid error
            | .ok () => .done (client, metadata)

/-- `PluginSlot::restart`. -/
def PluginSlot.restart (host : PluginHost Value) (slot : PluginSlot) :
    Program (pluginPipes Value) Empty (Except String Unit × PluginSlot) := do
  dropProcess (slot.client.map (·.pid))
  match ← (spawnReadyPlugin host slot.metadata).attempt with
  | .error error => .done (.error error, { slot with client := none })
  | .ok (client, metadata) => .done (.ok (), ⟨some metadata, some client⟩)

/-- `PluginInvocation`. -/
structure PluginInvocation (Value : Type) where
  payload : Value
  events : List (ClientEvent Value)

/-- The result of an invocation that was answered. -/
def PluginInvocation.ofResponse (response : PluginResponseEnvelope Value) :
    Except PluginError (PluginInvocation Value) :=
  if response.status = .failure then
    match response.error with
    | none => .error (.failed "Rust plugin returned an unspecified failure.")
    | some error => .error ⟨error.code, error.message⟩
  else .ok ⟨response.payload, response.events⟩

/-- The plugin exports the command. Its metadata is loaded with its first client. -/
def PluginSlot.exports (slot : PluginSlot) (command : String) : Bool :=
  match slot.metadata with
  | none => false
  | some metadata => metadata.commands.contains command

/-- `PluginSlot::invoke` once there is a client. -/
def PluginSlot.invokeClient (host : PluginHost Value) (slot : PluginSlot) (client : PluginClient)
    (number : Nat) (command : PluginCommand Value) (timeout : Option Nat)
    (token : CancellationToken) : Program (pluginPipes Value) Empty
      (Except PluginError (PluginInvocation Value) × PluginSlot) :=
  if slot.exports command.command then do
    match ← (client.request host (.request number) command (timeout.getD host.timeoutMs)
      token).attempt with
    | .ok (response, client) =>
        .done (PluginInvocation.ofResponse response, { slot with client := some client })
    | .error error => do
        let (_, slot) ← slot.restart host
        .done (.error error, slot)
  else
    .done (.error ⟨.unknownCommand, "Rust plugin " ++ debugText host.id ++
      " does not export command " ++ debugText command.command ++ "."⟩, slot)

/-- `PluginSlot::invoke`. -/
def PluginSlot.invoke (host : PluginHost Value) (slot : PluginSlot) (number : Nat)
    (command : PluginCommand Value) (timeout : Option Nat) (token : CancellationToken) :
    Program (pluginPipes Value) Empty
      (Except PluginError (PluginInvocation Value) × PluginSlot) :=
  match slot.client with
  | some client => slot.invokeClient host client number command timeout token
  | none => do
      match ← slot.restart host with
      | (.error error, slot) => .done (.error (.unavailable error), slot)
      | (.ok (), slot) =>
          match slot.client with
          | none => .done (.error (.unavailable "plugin client was ensured above"), slot)
          | some client => slot.invokeClient host client number command timeout token

/-! ## The worker of the notes application -/

/-- The JSON values in its traffic. `bootstrap` is the answer to the boot command. -/
inductive NotesValue where
  | null
  | bootstrap
  | text (value : String)
deriving DecidableEq

/-- The JSON text of a value. The bootstrap is never sent. -/
def NotesValue.json : NotesValue → String
  | .null => "null"
  | .bootstrap => "\x7b\x7d"
  | .text value => "\"" ++ value ++ "\""

/-- The request as JSON. The names and texts of notes need no escapes. -/
def notesEncode (request : RequestEnvelope NotesValue) : List UInt8 :=
  osString ("\x7b\"version\":" ++ toString request.version ++ ",\"id\":" ++ toString request.id ++
    ",\"kind\":1,\"command\":\"" ++ request.command ++ "\",\"windowId\":\"" ++
    request.windowId ++ "\",\"payload\":" ++ request.payload.json ++ "\x7d")

/-- The host of the notes worker. -/
def notesWorkerHost : WorkerHost NotesValue where
  platform := notesPlatform
  null := .null
  encode request := .ok (notesEncode request)
  decodeBootstrap
    | .bootstrap => .ok (notesBootstrap ["main"] notesWorkstation)
    | _ => .error "invalid type: string, expected struct Bootstrap"

/-- The worker's answer to a request. -/
def notesResponse (id : UInt64) (payload : NotesValue) : ResponseEnvelope NotesValue where
  version := 6
  id := id
  kind := .response
  status := .success
  payload := payload
  effects := []
  events := []
  error := none

/-- The host of a plugin of the application, which is never booted. -/
def notesPluginHost : PluginHost NotesValue where
  id := "search"
  executable := "/opt/notes/plugins/search"
  timeoutMs := 5000
  null := .null
  encode request := .ok (osString ("\x7b\"version\":1,\"id\":" ++ toString request.id ++
    ",\"kind\":1,\"command\":\"" ++ request.command ++ "\",\"payload\":" ++
    request.payload.json ++ "\x7d"))
  decodeMetadata _ := .error "invalid type: null, expected struct PluginMetadata"

end PamDesktop.Worker
