import PamDesktop.Php.Manifest

/-!
# Capabilities, background jobs and plugins in PHP

The resources of `Capabilities`, `BackgroundJob` and `RustPlugin` check their values where they are
constructed, and `Capabilities` that no two of its resources share a name.
-/

namespace PamDesktop.Php

open Foundations Protocol

/-! ## Files and databases -/

/-- The properties of `FileSystemRoot`. -/
structure FileSystemRootValues where
  name : String
  path : String
  access : FileAccess

/-- `FileSystemRoot::__construct`. -/
def FileSystemRootValues.check (values : FileSystemRootValues) : Except String Unit := do
  Identifier.assert (osString values.name) "The filesystem root identifier"
  if trim (osString values.path) == [] || values.path.toList.contains '\x00' then
    .error "The filesystem root path cannot be empty."

/-- `FileSystemRoot`. -/
structure FileSystemRoot extends FileSystemRootValues where
  checked : toFileSystemRootValues.check = .ok ()

namespace FileSystemRoot

def make (values : FileSystemRootValues) : Except String FileSystemRoot :=
  construct values.check fun checked => { values with checked }

/-- `FileSystemRoot::read`. -/
def read (name path : String) : Except String FileSystemRoot := make { name, path, access := .read }

/-- `FileSystemRoot::write`. -/
def write (name path : String) : Except String FileSystemRoot :=
  make { name, path, access := .write }

/-- `FileSystemRoot::readWrite`. -/
def readWrite (name path : String) : Except String FileSystemRoot :=
  make { name, path, access := .readWrite }

/-- `FileSystemRoot::toArray`. -/
def toArray (root : FileSystemRoot) : PhpValue :=
  Serving.named [("name", Serving.phpText root.name), ("path", Serving.phpText root.path),
    ("access", .int (root.access.ctorIdx + 1))]

end FileSystemRoot

/-- The properties of `Database`. -/
structure DatabaseValues where
  name : String
  path : String
  access : DatabaseAccess

/-- `Database::__construct`. A path of blanks is accepted. -/
def DatabaseValues.check (values : DatabaseValues) : Except String Unit := do
  Identifier.assert (osString values.name) "The database identifier"
  if values.path == "" || values.path.toList.contains '\x00' then
    .error "The database path must not be empty."

/-- `Database`. -/
structure Database extends DatabaseValues where
  checked : toDatabaseValues.check = .ok ()

namespace Database

def make (values : DatabaseValues) : Except String Database :=
  construct values.check fun checked => { values with checked }

/-- `Database::read`. -/
def read (name path : String) : Except String Database := make { name, path, access := .read }

/-- `Database::readWrite`. -/
def readWrite (name path : String) : Except String Database :=
  make { name, path, access := .readWrite }

/-- `Database::toArray`. -/
def toArray (database : Database) : PhpValue :=
  Serving.named [("name", Serving.phpText database.name), ("path", Serving.phpText database.path),
    ("access", .int (database.access.ctorIdx + 1))]

end Database

/-! ## Commands -/

/-- `~(^|[\/])\.\.([\/]|$)~`. What PHP reads of this pattern has one backslash in a class, which
escapes the slash. -/
def executablePattern : Pattern :=
  .seq (.alt .start (.byte (· == 47))) (.seq (.byte (· == 46)) (.seq (.byte (· == 46))
    (.alt (.byte (· == 47)) .finish)))

/-- The properties of `ProcessCommand`. -/
structure ProcessCommandValues where
  name : String
  executable : String
  arguments : List String
  argumentPolicy : ProcessArgumentPolicy

/-- `ProcessCommand::__construct`. -/
def ProcessCommandValues.check (values : ProcessCommandValues) : Except String Unit := do
  Identifier.assert (osString values.name) "The process command identifier"
  if values.executable == "" || values.executable.toList.contains '\x00' ||
      (osString values.executable).head? == some 47 ||
      executablePattern.pregMatch (osString values.executable) then
    .error "Process executables must use a safe project-relative path."
  else if 32 < values.arguments.length then
    .error "Process commands cannot declare more than 32 fixed arguments."
  else if values.arguments.any fun argument =>
      1024 < (osString argument).length || argument.toList.contains '\x00' then
    .error "A fixed process argument is invalid."

/-- `ProcessCommand`. -/
structure ProcessCommand extends ProcessCommandValues where
  checked : toProcessCommandValues.check = .ok ()

namespace ProcessCommand

def make (values : ProcessCommandValues) : Except String ProcessCommand :=
  construct values.check fun checked => { values with checked }

/-- `ProcessCommand::executable`. -/
def ofExecutable (name path : String) : Except String ProcessCommand :=
  make { name, executable := path, arguments := [], argumentPolicy := .fixed }

/-- The methods of `ProcessCommand`. -/
inductive Call where
  | arguments (arguments : List String)
  | allowArguments (enabled : Bool)

def call (process : ProcessCommand) : Call → Except String ProcessCommand
  | .arguments arguments => make { process.toProcessCommandValues with arguments }
  | .allowArguments enabled =>
      make { process.toProcessCommandValues with
        argumentPolicy := if enabled then .append else .fixed }

/-- `ProcessCommand::toArray`. -/
def toArray (process : ProcessCommand) : PhpValue :=
  Serving.named [("name", Serving.phpText process.name),
    ("executable", Serving.phpText process.executable),
    ("arguments", Serving.phpList (process.arguments.map Serving.phpText)),
    ("argumentPolicy", .int (process.argumentPolicy.ctorIdx + 1))]

end ProcessCommand

/-! ## Origins -/

/-- The parts that `parse_url` finds, with the query. -/
structure OriginParts extends UrlParts where
  query : Option (List UInt8)

section Origins

-- `parse_url`
variable (parseUrl : List UInt8 → Option OriginParts)

/-- The properties of `HttpOrigin`. -/
structure HttpOriginValues where
  name : String
  origin : String

/-- `HttpOrigin::__construct`. -/
def HttpOriginValues.check (values : HttpOriginValues) : Except String Unit := do
  Identifier.assert (osString values.name) "The HTTP origin identifier"
  if !(parseUrl (osString values.origin)).any fun parts =>
      (parts.scheme.getD []).map lowerByte == osString "https" && parts.host.getD [] != [] &&
        parts.user.isNone && parts.pass.isNone && parts.query.isNone && parts.fragment.isNone then
    .error "Native HTTP origins must be credential-free HTTPS URLs without query or fragment."

/-- `HttpOrigin`. -/
structure HttpOrigin extends HttpOriginValues where
  checked : toHttpOriginValues.check parseUrl = .ok ()

namespace HttpOrigin

variable {parseUrl}

/-- `HttpOrigin::allow`. -/
def allow (name origin : String) : Except String (HttpOrigin parseUrl) :=
  let values : HttpOriginValues :=
    { name, origin := String.ofList (origin.toList.rdropWhile (· == '/')) }
  construct (values.check parseUrl) fun checked => { values with checked }

/-- `HttpOrigin::toArray`. -/
def toArray (origin : HttpOrigin parseUrl) : PhpValue :=
  Serving.named [("name", Serving.phpText origin.name), ("origin", Serving.phpText origin.origin)]

end HttpOrigin

/-! ## Capabilities -/

/-- The properties of `Capabilities`. -/
structure CapabilitiesValues where
  filesystemRoots : List FileSystemRoot
  dialogsEnabled : Bool
  clipboardReadEnabled : Bool
  clipboardWriteEnabled : Bool
  notificationsEnabled : Bool
  dragAndDropEnabled : Bool
  databases : List Database
  systemInformationEnabled : Bool
  httpOrigins : List (HttpOrigin parseUrl)
  secretsEnabled : Bool
  processes : List ProcessCommand
  desktopPortalEnabled : Bool

/-- A loop of the constructor of `Capabilities`, with the names that are taken. -/
def takeNames {α : Type} (name message : α → String) (names : List String) :
    List α → Except String (List String)
  | [] => .ok names
  | resource :: rest =>
      if names.contains (name resource) then .error (message resource)
      else takeNames name message (name resource :: names) rest

/-- The message for a native resource whose name is taken. -/
def alreadyAuthorized (name : String) : String :=
  "Native resource " ++ name ++ " is already authorized."

variable {parseUrl}

/-- `Capabilities::__construct`. -/
def CapabilitiesValues.check (values : CapabilitiesValues parseUrl) : Except String Unit := do
  let names ← takeNames (·.name)
    (fun root => "Filesystem root " ++ root.name ++ " is already authorized.") []
    values.filesystemRoots
  let names ← takeNames (·.name) (fun database => alreadyAuthorized database.name) names
    values.databases
  let names ← takeNames (·.name) (fun origin => alreadyAuthorized origin.name) names
    values.httpOrigins
  let _ ← takeNames (·.name) (fun process => alreadyAuthorized process.name) names
    values.processes

variable (parseUrl)

/-- `Capabilities`. -/
structure Capabilities extends CapabilitiesValues parseUrl where
  checked : toCapabilitiesValues.check = .ok ()

variable {parseUrl}

namespace Capabilities

def make (values : CapabilitiesValues parseUrl) : Except String (Capabilities parseUrl) :=
  construct values.check fun checked => { values with checked }

/-- `Capabilities::none`. -/
def none : Capabilities parseUrl where
  filesystemRoots := []
  dialogsEnabled := false
  clipboardReadEnabled := false
  clipboardWriteEnabled := false
  notificationsEnabled := false
  dragAndDropEnabled := false
  databases := []
  systemInformationEnabled := false
  httpOrigins := []
  secretsEnabled := false
  processes := []
  desktopPortalEnabled := false
  checked := rfl

/-- The methods of `Capabilities`. -/
inductive Call (parseUrl : List UInt8 → Option OriginParts) where
  | filesystem (roots : List FileSystemRoot)
  | dialogs (enabled : Bool)
  | clipboard (read write : Bool)
  | notifications (enabled : Bool)
  | dragAndDrop (enabled : Bool)
  | database (databases : List Database)
  | systemInformation (enabled : Bool)
  | http (origins : List (HttpOrigin parseUrl))
  | secrets (enabled : Bool)
  | process (commands : List ProcessCommand)
  | desktopPortal (enabled : Bool)

def call (capabilities : Capabilities parseUrl) :
    Call parseUrl → Except String (Capabilities parseUrl)
  | .filesystem roots =>
      make { capabilities.toCapabilitiesValues with
        filesystemRoots := capabilities.filesystemRoots ++ roots }
  | .dialogs enabled =>
      make { capabilities.toCapabilitiesValues with dialogsEnabled := enabled }
  | .clipboard read write =>
      make { capabilities.toCapabilitiesValues with
        clipboardReadEnabled := read, clipboardWriteEnabled := write }
  | .notifications enabled =>
      make { capabilities.toCapabilitiesValues with notificationsEnabled := enabled }
  | .dragAndDrop enabled =>
      make { capabilities.toCapabilitiesValues with dragAndDropEnabled := enabled }
  | .database databases =>
      make { capabilities.toCapabilitiesValues with
        databases := capabilities.databases ++ databases }
  | .systemInformation enabled =>
      make { capabilities.toCapabilitiesValues with systemInformationEnabled := enabled }
  | .http origins =>
      make { capabilities.toCapabilitiesValues with
        httpOrigins := capabilities.httpOrigins ++ origins }
  | .secrets enabled =>
      make { capabilities.toCapabilitiesValues with secretsEnabled := enabled }
  | .process commands =>
      make { capabilities.toCapabilitiesValues with
        processes := capabilities.processes ++ commands }
  | .desktopPortal enabled =>
      make { capabilities.toCapabilitiesValues with desktopPortalEnabled := enabled }

/-- `Capabilities::toArray`. -/
def toArray (capabilities : Capabilities parseUrl) : PhpValue :=
  Serving.named [
    ("filesystemRoots",
      Serving.phpList (capabilities.filesystemRoots.map FileSystemRoot.toArray)),
    ("dialogs", .bool capabilities.dialogsEnabled),
    ("clipboardRead", .bool capabilities.clipboardReadEnabled),
    ("clipboardWrite", .bool capabilities.clipboardWriteEnabled),
    ("notifications", .bool capabilities.notificationsEnabled),
    ("dragAndDrop", .bool capabilities.dragAndDropEnabled),
    ("databases", Serving.phpList (capabilities.databases.map Database.toArray)),
    ("systemInformation", .bool capabilities.systemInformationEnabled),
    ("httpOrigins", Serving.phpList (capabilities.httpOrigins.map HttpOrigin.toArray)),
    ("secrets", .bool capabilities.secretsEnabled),
    ("processes", Serving.phpList (capabilities.processes.map ProcessCommand.toArray)),
    ("desktopPortal", .bool capabilities.desktopPortalEnabled)]

end Capabilities

end Origins

/-! ## Background jobs -/

/-- `BackgroundJob::MIN_INTERVAL_MS`. -/
def minIntervalMs : Int := 1000

/-- `BackgroundJob::MAX_INTERVAL_MS`. -/
def maxIntervalMs : Int := 86400000

/-- The properties of `BackgroundJob`. -/
structure BackgroundJobValues where
  intervalMilliseconds : Int
  initialDelayMilliseconds : Int
  timeoutMilliseconds : Int
  overlapPolicy : JobOverlapPolicy
  persistent : Bool
  maximumAttempts : Int
  retryBackoffMilliseconds : Int

/-- `BackgroundJob::__construct`. -/
def BackgroundJobValues.check (values : BackgroundJobValues) : Except String Unit :=
  if values.intervalMilliseconds < minIntervalMs ∨ maxIntervalMs < values.intervalMilliseconds then
    .error ("Background job intervals must be between " ++ toString minIntervalMs ++ " and " ++
      toString maxIntervalMs ++ " milliseconds.")
  else if values.maximumAttempts < 1 ∨ 10 < values.maximumAttempts then
    .error "Background job attempts must be between 1 and 10."
  else if values.retryBackoffMilliseconds < 100 ∨
      maxIntervalMs < values.retryBackoffMilliseconds then
    .error "Background job retry backoff must be between 100ms and one day."
  else if values.initialDelayMilliseconds < 0 ∨ maxIntervalMs < values.initialDelayMilliseconds then
    .error ("Background job initial delays must be between 0 and " ++ toString maxIntervalMs ++
      " milliseconds.")
  else if values.timeoutMilliseconds < 100 ∨ 120000 < values.timeoutMilliseconds then
    .error ("Background job timeouts must be between 100 and 120000 milliseconds.")
  else .ok ()

/-- `BackgroundJob`. -/
structure BackgroundJob extends BackgroundJobValues where
  checked : toBackgroundJobValues.check = .ok ()

namespace BackgroundJob

def make (values : BackgroundJobValues) : Except String BackgroundJob :=
  construct values.check fun checked => { values with checked }

/-- `BackgroundJob::every`. -/
def every (milliseconds : Int) : Except String BackgroundJob :=
  make { intervalMilliseconds := milliseconds, initialDelayMilliseconds := milliseconds,
         timeoutMilliseconds := min milliseconds 30000, overlapPolicy := .skip,
         persistent := false, maximumAttempts := 1, retryBackoffMilliseconds := 1000 }

/-- The methods of `BackgroundJob`. -/
inductive Call where
  | initialDelay (milliseconds : Int)
  | runOnStart
  | timeout (milliseconds : Int)
  | overlap (policy : JobOverlapPolicy)
  | persistent (maximumAttempts retryBackoffMilliseconds : Int)

def call (job : BackgroundJob) : Call → Except String BackgroundJob
  | .initialDelay milliseconds =>
      make { job.toBackgroundJobValues with initialDelayMilliseconds := milliseconds }
  | .runOnStart => make { job.toBackgroundJobValues with initialDelayMilliseconds := 0 }
  | .timeout milliseconds =>
      make { job.toBackgroundJobValues with timeoutMilliseconds := milliseconds }
  | .overlap policy => make { job.toBackgroundJobValues with overlapPolicy := policy }
  | .persistent maximumAttempts retryBackoffMilliseconds =>
      make { job.toBackgroundJobValues with
        persistent := true, maximumAttempts, retryBackoffMilliseconds }

/-- `BackgroundJob::toArray`. -/
def toArray (job : BackgroundJob) (id : String) : Except String PhpValue := do
  Identifier.assert (osString id) "The background job identifier"
  return Serving.named [("id", Serving.phpText id), ("intervalMs", .int job.intervalMilliseconds),
    ("initialDelayMs", .int job.initialDelayMilliseconds),
    ("timeoutMs", .int job.timeoutMilliseconds), ("overlap", .int (job.overlapPolicy.ctorIdx + 1)),
    ("persistent", .bool job.persistent), ("maximumAttempts", .int job.maximumAttempts),
    ("retryBackoffMs", .int job.retryBackoffMilliseconds)]

end BackgroundJob

/-! ## Plugins -/

/-- The bytes of a text, one after the other. -/
def literal : List UInt8 → Pattern
  | [] => .many .empty
  | byte :: rest => .seq (.byte (· == byte)) (literal rest)

/-- `~\A(?:\.git|\.pam|dist|node_modules|target)(?:[\\/]|$)~D`. -/
def reservedPattern : Pattern :=
  .seq .start (.seq (.alt (literal (osString ".git")) (.alt (literal (osString ".pam"))
    (.alt (literal (osString "dist")) (.alt (literal (osString "node_modules"))
      (literal (osString "target")))))) (.alt (.byte slashByte) .ending))

/-- `RustPlugin::assertProjectPath`. -/
def assertPluginPath (path : String) : Except String Unit :=
  if path == "" || path.toList.contains '\x00' || (osString path).head? == some 47 ||
      (osString path).head? == some 92 || drivePattern.pregMatch (osString path) ||
      parentPattern.pregMatch (osString path) || reservedPattern.pregMatch (osString path) then
    .error "Rust plugin executables must use a bundled project-relative path."
  else .ok ()

/-- The loops that check paths one by one. -/
def assertPluginPaths : List String → Except String Unit
  | [] => .ok ()
  | path :: rest => do
      assertPluginPath path
      assertPluginPaths rest

/-- The properties of `PluginPermissions`. -/
structure PluginPermissionsValues where
  filesystemRoots : List String
  network : Bool
  shell : Bool
  devices : Bool

/-- `PluginPermissions::__construct`. `dedup` counts what `array_unique` counts. -/
def PluginPermissionsValues.check (values : PluginPermissionsValues) : Except String Unit :=
  if 16 < values.filesystemRoots.length then
    .error "A plugin can authorize at most 16 filesystem roots."
  else if values.filesystemRoots.dedup.length ≠ values.filesystemRoots.length then
    .error "Plugin filesystem roots cannot be duplicated."
  else assertPluginPaths values.filesystemRoots

/-- `PluginPermissions`. -/
structure PluginPermissions extends PluginPermissionsValues where
  checked : toPluginPermissionsValues.check = .ok ()

namespace PluginPermissions

/-- `new PluginPermissions()`. -/
def none : PluginPermissions where
  filesystemRoots := []
  network := false
  shell := false
  devices := false
  checked := rfl

/-- `PluginPermissions::toArray`. -/
def toArray (permissions : PluginPermissions) : PhpValue :=
  Serving.named [
    ("filesystemRoots", Serving.phpList (permissions.filesystemRoots.map Serving.phpText)),
    ("network", .bool permissions.network), ("shell", .bool permissions.shell),
    ("devices", .bool permissions.devices)]

end PluginPermissions

/-- The properties of `RustPlugin`. -/
structure RustPluginValues where
  id : String
  executable : String
  arguments : List String
  timeoutMilliseconds : Int
  sha256 : Option String
  sandboxMode : PluginSandboxMode
  permissions : PluginPermissions

/-- `RustPlugin::__construct`. -/
def RustPluginValues.check (values : RustPluginValues) : Except String Unit := do
  Identifier.assert (osString values.id) "The Rust plugin identifier"
  assertPluginPath values.executable
  if 32 < values.arguments.length then
    .error "Rust plugins cannot declare more than 32 arguments."
  else if values.arguments.any fun argument =>
      1024 < (osString argument).length || argument.toList.contains '\x00' then
    .error "A Rust plugin process argument is invalid."
  else if values.timeoutMilliseconds < 100 ∨ 120000 < values.timeoutMilliseconds then
    .error "Rust plugin timeouts must be between 100 and 120000 milliseconds."

/-- `RustPlugin`. Only `integrity` sets a digest. -/
structure RustPlugin extends RustPluginValues where
  checked : toRustPluginValues.check = .ok ()
  digest : ∀ digest, sha256 = some digest → publicKeyPattern.pregMatch (osString digest) = true

namespace RustPlugin

def make (values : RustPluginValues)
    (digest : ∀ digest, values.sha256 = some digest →
      publicKeyPattern.pregMatch (osString digest) = true) : Except String RustPlugin :=
  construct values.check fun checked => { values with checked, digest }

/-- `RustPlugin::executable`. -/
def ofExecutable (id path : String) : Except String RustPlugin :=
  make { id, executable := path, arguments := [], timeoutMilliseconds := 30000, sha256 := none,
         sandboxMode := .inherited, permissions := .none } nofun

/-- The methods of `RustPlugin`. -/
inductive Call where
  | arguments (arguments : List String)
  | timeout (milliseconds : Int)
  | integrity (sha256 : String)
  | sandbox (mode : PluginSandboxMode) (permissions : Option PluginPermissions)

def call (plugin : RustPlugin) : Call → Except String RustPlugin
  | .arguments arguments => make { plugin.toRustPluginValues with arguments } plugin.digest
  | .timeout milliseconds =>
      make { plugin.toRustPluginValues with timeoutMilliseconds := milliseconds } plugin.digest
  | .integrity sha256 =>
      if h : publicKeyPattern.pregMatch (osString sha256) = true then
        make { plugin.toRustPluginValues with sha256 := some sha256 } fun _ hdigest =>
          Option.some.inj hdigest ▸ h
      else .error "Rust plugin integrity must be a lowercase SHA-256 digest."
  | .sandbox mode permissions =>
      make { plugin.toRustPluginValues with
        sandboxMode := mode, permissions := permissions.getD .none } plugin.digest

/-- `RustPlugin::toArray`. -/
def toArray (plugin : RustPlugin) : PhpValue :=
  Serving.named [("id", Serving.phpText plugin.id),
    ("executable", Serving.phpText plugin.executable),
    ("arguments", Serving.phpList (plugin.arguments.map Serving.phpText)),
    ("timeoutMs", .int plugin.timeoutMilliseconds),
    ("sha256", plugin.sha256.elim .null Serving.phpText),
    ("sandbox", .int (plugin.sandboxMode.ctorIdx + 1)),
    ("permissions", plugin.permissions.toArray)]

end RustPlugin

end PamDesktop.Php
