import PamDesktop.Php.BuilderAgreement
import PamDesktop.Php.Capabilities

/-!
# Capabilities, background jobs, plugins and the host

`NativeCapabilities::validate`, `BackgroundJobConfig::validate` and `RustPluginConfig::validate`
check what the host has read of the arrays that PHP builds. `grants_agree_iff` says which of them
it accepts.
-/

namespace PamDesktop.Php

open Foundations Protocol

/-! ## Resources -/

/-- The last check of a validator. -/
theorem last_check_ok {refused : Bool} {error : String} :
    (if refused = true then Except.error error else pure PUnit.unit) = Except.ok () ↔
      refused = false := by
  cases refused with
  | false => exact iff_of_true rfl rfl
  | true => exact iff_of_false nofun nofun

/-- No line feed stands behind the name. -/
def StrictName (name : String) : Prop := (osString name).getLast? ≠ some 10

/-- What the host reads of a root. -/
def FileSystemRoot.config (root : FileSystemRoot) : FileSystemRootConfig where
  name := root.name
  path := root.path
  access := root.access

theorem FileSystemRoot.accepted_iff (root : FileSystemRoot) :
    root.config.validate = .ok () ↔
      StrictName root.name ∧ root.path.toList.all isWhitespace = false := by
  obtain ⟨hname, hpath⟩ := check_bind_ok.mp root.checked
  have hzero := (Bool.or_eq_false_iff.mp (last_check_ok.mp hpath)).2
  unfold FileSystemRootConfig.validate
  rw [check_bind_ok, FileSystemRoot.config, identifier_accepted_iff hname, last_check_ok, hzero,
    Bool.or_false]
  exact Iff.rfl

/-- What the host reads of a database. -/
def Database.config (database : Database) : DatabaseConfig where
  name := database.name
  path := database.path
  access := database.access

theorem Database.accepted_iff (database : Database) :
    database.config.validate = .ok () ↔ StrictName database.name := by
  obtain ⟨hname, hpath⟩ := check_bind_ok.mp database.checked
  obtain ⟨hempty, hzero⟩ := Bool.or_eq_false_iff.mp (last_check_ok.mp hpath)
  have htext : decide (database.path.toList = []) = false := by
    simpa using hempty
  unfold DatabaseConfig.validate
  rw [check_bind_ok, Database.config, identifier_accepted_iff hname, last_check_ok, htext, hzero]
  exact and_iff_left rfl

/-- The host finds an origin that it trusts in the text. -/
def trustedOrigin (platform : Platform) (origin : String) : Bool :=
  match platform.parseOrigin origin with
  | .ok url => url.scheme == "https" && url.host.isSome && url.username == "" &&
      url.password.isNone && url.query.isNone && url.fragment.isNone
  | .error _ => false

/-- What the host reads of an origin. -/
def HttpOrigin.config {parseUrl : List UInt8 → Option OriginParts}
    (origin : HttpOrigin parseUrl) : HttpOriginConfig where
  name := origin.name
  origin := origin.origin

theorem HttpOrigin.accepted_iff {parseUrl : List UInt8 → Option OriginParts}
    (origin : HttpOrigin parseUrl) (platform : Platform) :
    origin.config.validate platform = .ok () ↔
      StrictName origin.name ∧ trustedOrigin platform origin.origin = true := by
  have hname := (check_bind_ok.mp origin.checked).1
  unfold HttpOriginConfig.validate
  rw [check_bind_ok, HttpOrigin.config, identifier_accepted_iff hname]
  refine and_congr_right fun _ => ?_
  unfold trustedOrigin
  cases platform.parseOrigin origin.origin with
  | error error => exact iff_of_false nofun nofun
  | ok url =>
      refine last_check_ok.trans ?_
      simp [and_assoc]

/-! ## Commands -/

/-- On Windows, a path with `..` between separators. -/
def climbs (build : Build) (path : String) : Bool :=
  build.operatingSystem == .windows &&
    ((osString path).splitOnP build.separator).contains [46, 46]

/-- Without backslashes for separators the pattern of PHP finds `..`. -/
theorem climbs_iff (build : Build) {path : String}
    (hparent : executablePattern.pregMatch (osString path) = false) :
    ((osString path).splitOnP build.separator).contains [46, 46] = climbs build path := by
  unfold climbs
  cases hwindows : build.operatingSystem == .windows with
  | true => rw [Bool.true_and]
  | false =>
      -- only the slash separates, and the pattern sees it
      have hseparator : ∀ byte, build.separator byte = true → (byte == 47) = true := by
        intro byte hbyte
        simpa [Build.separator, hwindows] using hbyte
      rw [Bool.false_and]
      by_contra hcontains
      rw [Bool.not_eq_false, List.contains_iff_mem] at hcontains
      have hmatch : executablePattern.pregMatch (osString path) = true :=
        segment_matched hseparator hcontains
      rw [hmatch] at hparent
      cases hparent

/-- What the host reads of a command. -/
def ProcessCommand.config (process : ProcessCommand) : ProcessCommandConfig where
  name := process.name
  executable := process.executable
  arguments := process.arguments
  argumentPolicy := process.argumentPolicy

/-- What PHP has made sure of about a command. -/
theorem ProcessCommand.checked_parts (process : ProcessCommand) :
    Identifier.assert (osString process.name) "The process command identifier" = .ok () ∧
      osString process.executable ≠ [] ∧ '\x00' ∉ process.executable.toList ∧
      (osString process.executable).head? ≠ some 47 ∧
      executablePattern.pregMatch (osString process.executable) = false ∧
      process.arguments.length ≤ 32 ∧
      (process.arguments.any fun argument =>
        1024 < argument.utf8ByteSize || argument.toList.contains '\x00') = false := by
  obtain ⟨hname, hchecked⟩ := check_bind_ok.mp process.checked
  split at hchecked
  · cases hchecked
  · rename_i hpath
    split at hchecked
    · cases hchecked
    · rename_i hcount
      have harguments := last_check_ok.mp hchecked
      simp only [Bool.or_eq_true, not_or, beq_iff_eq, Bool.not_eq_true, List.contains_iff_mem]
        at hpath
      obtain ⟨⟨⟨hempty, hzero⟩, hslash⟩, hparent⟩ := hpath
      exact ⟨hname, fun hbytes => hempty (os_string_empty.mp hbytes), hzero, hslash, hparent,
        Nat.not_lt.mp hcount, harguments⟩

theorem ProcessCommand.accepted_iff (process : ProcessCommand) (build : Build) :
    process.config.validate build = .ok () ↔ StrictName process.name ∧
      rooted build process.executable = false ∧ climbs build process.executable = false := by
  obtain ⟨hname, hnonempty, hzero, hslash, hparent, hcount, harguments⟩ := process.checked_parts
  have htext : process.executable.toList ≠ [] := by
    intro hnil
    rw [os_string_encode, hnil] at hnonempty
    exact hnonempty rfl
  unfold ProcessCommandConfig.validate
  rw [check_bind_ok, check_bind_ok, ProcessCommand.config, identifier_accepted_iff hname]
  refine and_congr_right fun _ => ?_
  unfold validateRelativeProjectPath
  rw [project_components_none build hnonempty hslash, climbs_iff build hparent,
    decide_eq_false htext, Bool.false_or, Bool.eq_false_iff.mpr (mt List.contains_iff_mem.mp hzero),
    Bool.false_or, last_check_ok, harguments, decide_eq_false (Nat.not_lt.mpr hcount),
    Bool.or_false, and_iff_left rfl, ← Bool.or_eq_false_iff]
  cases rooted build process.executable || climbs build process.executable with
  | false => exact iff_of_true rfl rfl
  | true => exact iff_of_false nofun nofun

/-! ## Capabilities -/

/-- The host takes the names that PHP has taken, if it accepts the resources one by one. -/
theorem each_bind_ok {α β γ : Type} (config : α → β) (key : β → String)
    {check : β → Except String Unit} {duplicate : β → String} {name message : α → String}
    {seen names : List String} {items : List α} {next : List String → Except String γ} {value : γ}
    (hkey : ∀ item, key (config item) = name item)
    (h : takeNames name message seen items = .ok names) :
    (validateEach check key duplicate seen (items.map config) >>= next) = .ok value ↔
      (∀ item ∈ items, check (config item) = .ok ()) ∧ next names = .ok value := by
  -- the set of the host holds the names of PHP at every item
  induction items generalizing seen with
  | nil =>
      cases h
      exact ⟨fun hnext => ⟨fun _ hmem => absurd hmem List.not_mem_nil, hnext⟩, fun h => h.2⟩
  | cons item rest ih =>
      rw [takeNames] at h
      split at h
      · cases h
      · rename_i hfresh
        rw [List.map_cons, validateEach, bind_assoc, check_bind_ok, hkey, if_neg hfresh, ih h,
          List.forall_mem_cons, and_assoc]

namespace Capabilities

variable {parseUrl : List UInt8 → Option OriginParts}

/-- What the host reads of capabilities. -/
def config (capabilities : Capabilities parseUrl) : NativeCapabilities where
  filesystemRoots := capabilities.filesystemRoots.map FileSystemRoot.config
  dialogs := capabilities.dialogsEnabled
  clipboardRead := capabilities.clipboardReadEnabled
  clipboardWrite := capabilities.clipboardWriteEnabled
  notifications := capabilities.notificationsEnabled
  dragAndDrop := capabilities.dragAndDropEnabled
  databases := capabilities.databases.map Database.config
  systemInformation := capabilities.systemInformationEnabled
  httpOrigins := capabilities.httpOrigins.map HttpOrigin.config
  secrets := capabilities.secretsEnabled
  processes := capabilities.processes.map ProcessCommand.config
  desktopPortal := capabilities.desktopPortalEnabled

/-- The capabilities that the host accepts. No line feed stands behind a name, the path of a root
is not blank in Unicode either, the host trusts the origins, and on Windows no executable begins
with a backslash or a drive or leads to a parent directory. -/
structure Portable (capabilities : Capabilities parseUrl) (platform : Platform) : Prop where
  roots : ∀ root ∈ capabilities.filesystemRoots,
    StrictName root.name ∧ root.path.toList.all isWhitespace = false
  databases : ∀ database ∈ capabilities.databases, StrictName database.name
  origins : ∀ origin ∈ capabilities.httpOrigins,
    StrictName origin.name ∧ trustedOrigin platform origin.origin = true
  processes : ∀ process ∈ capabilities.processes, StrictName process.name ∧
    rooted platform.toBuild process.executable = false ∧
    climbs platform.toBuild process.executable = false

theorem accepted_iff (capabilities : Capabilities parseUrl) (platform : Platform) :
    capabilities.config.validate platform = .ok () ↔ capabilities.Portable platform := by
  have hchecked := capabilities.checked
  unfold CapabilitiesValues.check at hchecked
  obtain ⟨roots, hroots, hchecked⟩ := except_bind_ok.mp hchecked
  obtain ⟨databases, hdatabases, hchecked⟩ := except_bind_ok.mp hchecked
  obtain ⟨origins, horigins, hchecked⟩ := except_bind_ok.mp hchecked
  obtain ⟨processes, hprocesses, -⟩ := except_bind_ok.mp hchecked
  unfold NativeCapabilities.validate
  dsimp only [config]
  rw [each_bind_ok FileSystemRoot.config (·.name) (fun _ => rfl) hroots,
    each_bind_ok Database.config (·.name) (fun _ => rfl) hdatabases,
    each_bind_ok HttpOrigin.config (·.name) (fun _ => rfl) horigins,
    each_bind_ok ProcessCommand.config (·.name) (fun _ => rfl) hprocesses]
  simp only [FileSystemRoot.accepted_iff, Database.accepted_iff, HttpOrigin.accepted_iff,
    ProcessCommand.accepted_iff]
  constructor
  · intro ⟨hroots, hdatabases, horigins, hprocesses, _⟩
    exact ⟨hroots, hdatabases, horigins, hprocesses⟩
  · intro h
    exact ⟨h.roots, h.databases, h.origins, h.processes, rfl⟩

end Capabilities

/-! ## Background jobs -/

theorem not_outside {low high value : Nat} (hlow : low ≤ value) (hhigh : value ≤ high) :
    ¬ (decide (value < low) || decide (high < value)) = true := by
  rw [Bool.or_eq_true, decide_eq_true_iff, decide_eq_true_iff]
  omega

/-- A duration of at most one day is read. -/
theorem decode_duration {value : Int} (hpositive : 0 ≤ value) (h : value ≤ 86400000) :
    (Codec.unsigned 64).decode (.number value) = some value.toNat := by
  have hbound : ((2 ^ 64 : Nat) : Int) = 18446744073709551616 := rfl
  exact if_pos ⟨hpositive, by omega⟩

namespace BackgroundJob

/-- What PHP has made sure of about a job. -/
theorem checked_parts (job : BackgroundJob) :
    (1000 ≤ job.intervalMilliseconds ∧ job.intervalMilliseconds ≤ 86400000) ∧
      (1 ≤ job.maximumAttempts ∧ job.maximumAttempts ≤ 10) ∧
      (100 ≤ job.retryBackoffMilliseconds ∧ job.retryBackoffMilliseconds ≤ 86400000) ∧
      (0 ≤ job.initialDelayMilliseconds ∧ job.initialDelayMilliseconds ≤ 86400000) ∧
      100 ≤ job.timeoutMilliseconds ∧ job.timeoutMilliseconds ≤ 120000 := by
  have hchecked := job.checked
  unfold BackgroundJobValues.check minIntervalMs maxIntervalMs at hchecked
  split at hchecked
  · cases hchecked
  · split at hchecked
    · cases hchecked
    · split at hchecked
      · cases hchecked
      · split at hchecked
        · cases hchecked
        · split at hchecked
          · cases hchecked
          · omega

/-- What the host reads of a job. -/
def config (job : BackgroundJob) (id : String) : BackgroundJobConfig where
  id := id
  intervalMs := job.intervalMilliseconds.toNat
  initialDelayMs := job.initialDelayMilliseconds.toNat
  timeoutMs := job.timeoutMilliseconds.toNat
  overlap := job.overlapPolicy
  persistent := job.persistent
  maximumAttempts := job.maximumAttempts.toNat
  retryBackoffMs := job.retryBackoffMilliseconds.toNat

/-- The bounds of PHP are those of the host. -/
theorem accepted_iff (job : BackgroundJob) {id : String}
    (hid : Identifier.assert (osString id) "The background job identifier" = .ok ()) :
    (job.config id).validate = .ok () ↔ StrictName id := by
  obtain ⟨hinterval, hattempts, hbackoff, hdelay, htimeout⟩ := job.checked_parts
  have hmaximum : Protocol.maxIntervalMs = 86400000 := rfl
  have hshortest : minCommandTimeoutMs = 100 := rfl
  have hlongest : maxCommandTimeoutMs = 120000 := rfl
  have hdelay' : ¬ Protocol.maxIntervalMs < job.initialDelayMilliseconds.toNat := by omega
  unfold BackgroundJobConfig.validate
  rw [check_bind_ok, config, identifier_accepted_iff hid]
  refine and_iff_left ?_
  dsimp only
  rw [if_neg (not_outside (by omega) (by omega)), if_neg hdelay',
    if_neg (not_outside (by omega) (by omega)), if_neg (not_outside (by omega) (by omega)),
    if_neg (not_outside (by omega) (by omega))]
  rfl

/-- The members of the job. -/
def members (job : BackgroundJob) (id : String) : List (String × Json) :=
  [("id", .string id), ("intervalMs", .number job.intervalMilliseconds),
    ("initialDelayMs", .number job.initialDelayMilliseconds),
    ("timeoutMs", .number job.timeoutMilliseconds),
    ("overlap", JobOverlapPolicy.codec.encode job.overlapPolicy),
    ("persistent", .bool job.persistent), ("maximumAttempts", .number job.maximumAttempts),
    ("retryBackoffMs", .number job.retryBackoffMilliseconds)]

theorem decode_attempts {value : Int} (hpositive : 0 ≤ value) (h : value ≤ 10) :
    (Codec.unsigned 8).decode (.number value) = some value.toNat := by
  have hbound : ((2 ^ 8 : Nat) : Int) = 256 := rfl
  exact if_pos ⟨hpositive, by omega⟩

theorem decode_members (job : BackgroundJob) (id : String) :
    BackgroundJobConfig.codec.decode (.object (job.members id)) = some (job.config id) := by
  obtain ⟨hinterval, hattempts, hbackoff, hdelay, htimeout⟩ := job.checked_parts
  -- the host leaves members at their defaults out, but reads them where PHP prints them
  have hoverlap := JobOverlapPolicy.codec.decode_encode job.overlapPolicy trivial
  have hreadInterval := decode_duration (by omega) hinterval.2
  have hreadDelay := decode_duration hdelay.1 hdelay.2
  have hreadTimeout := decode_duration (show 0 ≤ job.timeoutMilliseconds by omega) (by omega)
  have hreadAttempts := decode_attempts (by omega) hattempts.2
  have hreadBackoff := decode_duration (by omega) hbackoff.2
  unfold members BackgroundJobConfig.codec Record.codec Record.skipped Record.defaulted
    Record.required Record.field Record.start
  simp [List.lookup_cons, Field.read, decode_text, decode_bool, hoverlap, hreadInterval, hreadDelay,
    hreadTimeout, hreadAttempts, hreadBackoff]
  rfl

end BackgroundJob

/-! ## Plugins -/

theorem plugin_path_project {path label : String} (h : assertPluginPath path = .ok ()) :
    assertProjectPath path label = .ok () := by
  unfold assertPluginPath at h
  split at h
  · cases h
  · rename_i hvalid
    rw [Bool.not_eq_true, Bool.or_eq_false_iff] at hvalid
    unfold assertProjectPath
    rw [hvalid.1]
    rfl

theorem plugin_path_accepted_iff {build : Build} {path label : String}
    (h : assertPluginPath path = .ok ()) :
    validateRelativeProjectPath build path label = .ok () ↔ rooted build path = false :=
  have hproject : assertProjectPath path "" = .ok () := plugin_path_project h
  project_path_accepted_iff hproject

theorem plugin_paths_checked {paths : List String} (h : assertPluginPaths paths = .ok ()) :
    ∀ path ∈ paths, assertPluginPath path = .ok () := by
  induction paths with
  | nil => exact fun _ hmem => absurd hmem List.not_mem_nil
  | cons path rest ih =>
      obtain ⟨hpath, hrest⟩ := check_bind_ok.mp h
      exact List.forall_mem_cons.mpr ⟨hpath, ih hrest⟩

/-- Distinct names can all be taken. -/
theorem take_names_distinct {α : Type} {name message : α → String} {seen : List String}
    {items : List α} (hnodup : (items.map name).Nodup)
    (hfresh : ∀ item ∈ items, name item ∉ seen) :
    ∃ names, takeNames name message seen items = .ok names := by
  induction items generalizing seen with
  | nil => exact ⟨seen, rfl⟩
  | cons item rest ih =>
      rw [List.map_cons, List.nodup_cons] at hnodup
      have hitem : seen.contains (name item) ≠ true :=
        mt List.contains_iff_mem.mp (hfresh item List.mem_cons_self)
      rw [takeNames, if_neg hitem]
      refine ih hnodup.2 fun other hother hmem => ?_
      obtain heq | hmem := List.mem_cons.mp hmem
      · exact hnodup.1 (heq ▸ List.mem_map_of_mem hother)
      · exact hfresh other (List.mem_cons_of_mem _ hother) hmem

/-- What PHP has made sure of about permissions. -/
theorem PluginPermissions.checked_parts (permissions : PluginPermissions) :
    permissions.filesystemRoots.length ≤ 16 ∧ permissions.filesystemRoots.Nodup ∧
      ∀ root ∈ permissions.filesystemRoots, assertPluginPath root = .ok () := by
  have hchecked := permissions.checked
  unfold PluginPermissionsValues.check at hchecked
  split at hchecked
  · cases hchecked
  · rename_i hcount
    split at hchecked
    · cases hchecked
    · rename_i hdistinct
      exact ⟨Nat.not_lt.mp hcount, nodup_of_dedup (not_not.mp hdistinct),
        plugin_paths_checked hchecked⟩

/-- What the host reads of permissions. -/
def PluginPermissions.config (permissions : PluginPermissions) : Protocol.PluginPermissions where
  filesystemRoots := permissions.filesystemRoots
  network := permissions.network
  shell := permissions.shell
  devices := permissions.devices

namespace RustPlugin

/-- What the host reads of a plugin. -/
def config (plugin : RustPlugin) : RustPluginConfig where
  id := plugin.id
  executable := plugin.executable
  arguments := plugin.arguments
  timeoutMs := plugin.timeoutMilliseconds.toNat
  sha256 := plugin.sha256
  sandbox := plugin.sandboxMode
  permissions := plugin.permissions.config

/-- The plugins that the host accepts: no line feed stands behind the identifier, and on Windows
no path begins with a drive. -/
structure Portable (plugin : RustPlugin) (build : Build) : Prop where
  id : StrictName plugin.id
  executable : rooted build plugin.executable = false
  roots : ∀ root ∈ plugin.permissions.filesystemRoots, rooted build root = false

/-- What PHP has made sure of about a plugin. -/
theorem checked_parts (plugin : RustPlugin) :
    Identifier.assert (osString plugin.id) "The Rust plugin identifier" = .ok () ∧
      assertPluginPath plugin.executable = .ok () ∧ plugin.arguments.length ≤ 32 ∧
      (plugin.arguments.any fun argument =>
        1024 < argument.utf8ByteSize || argument.toList.contains '\x00') = false ∧
      100 ≤ plugin.timeoutMilliseconds ∧ plugin.timeoutMilliseconds ≤ 120000 := by
  obtain ⟨hid, hchecked⟩ := check_bind_ok.mp plugin.checked
  obtain ⟨hexecutable, hchecked⟩ := check_bind_ok.mp hchecked
  split at hchecked
  · cases hchecked
  · rename_i hcount
    split at hchecked
    · cases hchecked
    · rename_i harguments
      split at hchecked
      · cases hchecked
      · rename_i htimeout
        exact ⟨hid, hexecutable, Nat.not_lt.mp hcount, Bool.eq_false_iff.mpr harguments, by omega,
          by omega⟩

/-- The checks of the host, one by one. -/
theorem validate_parts (plugin : RustPluginConfig) (build : Build) :
    plugin.validate build = .ok () ↔
      validateIdentifier plugin.id "Rust plugin" = .ok () ∧
      validateRelativeProjectPath build plugin.executable "Rust plugin executable" = .ok () ∧
      plugin.arguments.length ≤ 32 ∧
      (plugin.arguments.any fun argument =>
        1024 < argument.utf8ByteSize || argument.toList.contains '\x00') = false ∧
      (100 ≤ plugin.timeoutMs ∧ plugin.timeoutMs ≤ 120000) ∧
      (∀ digest, plugin.sha256 = some digest →
        validateLowerHex digest 64 "Rust plugin SHA-256 digest" = .ok ()) ∧
      plugin.permissions.filesystemRoots.length ≤ 16 ∧
      (validateEach
        (fun root => validateRelativeProjectPath build root "Rust plugin filesystem root") (·)
        (fun root => "Rust plugin " ++ debugText plugin.id ++
          " declares duplicate filesystem root " ++ debugText root) []
        plugin.permissions.filesystemRoots >>= fun _ => pure ()) = .ok () := by
  have hminimum : minCommandTimeoutMs = 100 := rfl
  have hmaximum : maxCommandTimeoutMs = 120000 := rfl
  have htimeout : (decide (plugin.timeoutMs < minCommandTimeoutMs) ||
      decide (maxCommandTimeoutMs < plugin.timeoutMs)) = false ↔
        100 ≤ plugin.timeoutMs ∧ plugin.timeoutMs ≤ 120000 := by
    rw [Bool.or_eq_false_iff, decide_eq_false_iff_not, decide_eq_false_iff_not]
    omega
  unfold RustPluginConfig.validate
  rw [check_bind_ok, check_bind_ok, check_bind_ok, check_bind_ok, check_bind_ok, refuse_if_ok,
    refuse_if_ok, refuse_if_ok, decide_eq_false_iff_not, Nat.not_lt, htimeout]
  dsimp only
  -- the checks after the digest are a continuation of both cases
  cases plugin.sha256 with
  | none =>
      rw [check_bind_ok, check_bind_ok, refuse_if_ok, decide_eq_false_iff_not, Nat.not_lt]
      simp
  | some digest =>
      rw [check_bind_ok, check_bind_ok, refuse_if_ok, decide_eq_false_iff_not, Nat.not_lt]
      simp

theorem accepted_iff (plugin : RustPlugin) (build : Build) :
    plugin.config.validate build = .ok () ↔ plugin.Portable build := by
  obtain ⟨hid, hexecutable, hcount, harguments, hshort, hlong⟩ := plugin.checked_parts
  obtain ⟨hroots, hnodup, hpaths⟩ := plugin.permissions.checked_parts
  -- PHP counts the distinct roots, where the host takes them one by one
  have hids : (plugin.permissions.filesystemRoots.map id).Nodup := by rwa [List.map_id]
  obtain ⟨names, hnames⟩ : ∃ names, takeNames id id [] plugin.permissions.filesystemRoots =
      .ok names := take_names_distinct hids fun _ _ => List.not_mem_nil
  rw [validate_parts, config, PluginPermissions.config, identifier_accepted_iff hid,
    plugin_path_accepted_iff hexecutable, ← List.map_id plugin.permissions.filesystemRoots,
    each_bind_ok id (·) (fun _ => rfl) hnames]
  constructor
  · intro ⟨hname, hrooted, _, _, _, _, _, haccepted, _⟩
    exact ⟨hname, hrooted, fun root hroot =>
      (plugin_path_accepted_iff (hpaths root hroot)).mp (haccepted root hroot)⟩
  · intro h
    refine ⟨h.id, h.executable, hcount, harguments, ⟨?_, ?_⟩, ?_, ?_, ?_, rfl⟩
    · show 100 ≤ plugin.timeoutMilliseconds.toNat
      omega
    · show plugin.timeoutMilliseconds.toNat ≤ 120000
      omega
    · exact fun digest hsha => public_key_accepted (plugin.digest digest hsha)
    · exact (List.length_map id).trans_le hroots
    · exact fun root hroot =>
        (plugin_path_accepted_iff (hpaths root hroot)).mpr (h.roots root hroot)

/-- The members of the plugin, with `null` for a digest that there is not. -/
def members (plugin : RustPlugin) : List (String × Json) :=
  [("id", .string plugin.id), ("executable", .string plugin.executable),
    ("arguments", .array (plugin.arguments.map Json.string)),
    ("timeoutMs", .number plugin.timeoutMilliseconds),
    ("sha256", (Codec.text.option Codec.text_ne_null).encode plugin.sha256),
    ("sandbox", PluginSandboxMode.codec.encode plugin.sandboxMode),
    ("permissions", Protocol.PluginPermissions.codec.encode plugin.permissions.config)]

theorem decode_members (plugin : RustPlugin) :
    RustPluginConfig.codec.decode (.object plugin.members) = some plugin.config := by
  obtain ⟨-, -, -, -, hshort, hlong⟩ := plugin.checked_parts
  have harguments : Codec.text.list.decode (.array (plugin.arguments.map Json.string)) =
      some plugin.arguments :=
    Codec.text.list.decode_encode plugin.arguments fun _ _ => trivial
  have htimeout := decode_duration (show 0 ≤ plugin.timeoutMilliseconds by omega)
    (by omega)
  have hdigest := (Codec.text.option Codec.text_ne_null).decode_encode plugin.sha256
    fun _ _ => trivial
  have hsandbox := PluginSandboxMode.codec.decode_encode plugin.sandboxMode trivial
  have hpermissions := Protocol.PluginPermissions.codec.decode_encode plugin.permissions.config (by
    simp [Protocol.PluginPermissions.codec])
  unfold members RustPluginConfig.codec Record.codec Record.optional Record.skipped Record.defaulted
    Record.required Record.field Record.start
  simp [List.lookup_cons, Field.read, decode_text, harguments, htimeout, hdigest, hsandbox,
    hpermissions]
  rfl

end RustPlugin

/-! ## The wire -/

section Wire

open Serving

variable {floatText : PhpFloat → String} {parseUrl : List UInt8 → Option OriginParts} {depth : Nat}

theorem file_access_number (access : FileAccess) :
    Json.number ((access.ctorIdx : Int) + 1) = FileAccess.codec.encode access := by
  cases access <;> rfl

theorem database_access_number (access : DatabaseAccess) :
    Json.number ((access.ctorIdx : Int) + 1) = DatabaseAccess.codec.encode access := by
  cases access <;> rfl

theorem argument_policy_number (policy : ProcessArgumentPolicy) :
    Json.number ((policy.ctorIdx : Int) + 1) = ProcessArgumentPolicy.codec.encode policy := by
  cases policy <;> rfl

theorem overlap_number (policy : JobOverlapPolicy) :
    Json.number ((policy.ctorIdx : Int) + 1) = JobOverlapPolicy.codec.encode policy := by
  cases policy <;> rfl

theorem sandbox_number (mode : PluginSandboxMode) :
    Json.number ((mode.ctorIdx : Int) + 1) = PluginSandboxMode.codec.encode mode := by
  cases mode <;> rfl

theorem encode_root (root : FileSystemRoot) (hdepth : depth < maxJsonDepth) :
    jsonEncode floatText depth root.toArray =
      some (FileSystemRootConfig.codec.encode root.config) := by
  have hmembers : encodeNamed floatText (depth + 1) [("name", phpText root.name),
      ("path", phpText root.path), ("access", .int (root.access.ctorIdx + 1))] =
        some [("name", .string root.name), ("path", .string root.path),
          ("access", FileAccess.codec.encode root.access)] := by
    rw [← file_access_number]
    exact encode_members_cons (encode_text _ _) (encode_members_cons (encode_text _ _)
      (encode_members_cons rfl rfl))
  rw [FileSystemRoot.toArray, encode_named _ _ hdepth, hmembers]
  rfl

theorem encode_database (database : Database) (hdepth : depth < maxJsonDepth) :
    jsonEncode floatText depth database.toArray =
      some (DatabaseConfig.codec.encode database.config) := by
  have hmembers : encodeNamed floatText (depth + 1) [("name", phpText database.name),
      ("path", phpText database.path), ("access", .int (database.access.ctorIdx + 1))] =
        some [("name", .string database.name), ("path", .string database.path),
          ("access", DatabaseAccess.codec.encode database.access)] := by
    rw [← database_access_number]
    exact encode_members_cons (encode_text _ _) (encode_members_cons (encode_text _ _)
      (encode_members_cons rfl rfl))
  rw [Database.toArray, encode_named _ _ hdepth, hmembers]
  rfl

theorem encode_origin (origin : HttpOrigin parseUrl) (hdepth : depth < maxJsonDepth) :
    jsonEncode floatText depth origin.toArray =
      some (HttpOriginConfig.codec.encode origin.config) := by
  have hmembers : encodeNamed floatText (depth + 1) [("name", phpText origin.name),
      ("origin", phpText origin.origin)] =
        some [("name", .string origin.name), ("origin", .string origin.origin)] :=
    encode_members_cons (encode_text _ _) (encode_members_cons (encode_text _ _) rfl)
  rw [HttpOrigin.toArray, encode_named _ _ hdepth, hmembers]
  rfl

theorem encode_process (process : ProcessCommand) (hdepth : depth + 1 < maxJsonDepth) :
    jsonEncode floatText depth process.toArray =
      some (ProcessCommandConfig.codec.encode process.config) := by
  have hmembers : encodeNamed floatText (depth + 1) [("name", phpText process.name),
      ("executable", phpText process.executable),
      ("arguments", phpList (process.arguments.map phpText)),
      ("argumentPolicy", .int (process.argumentPolicy.ctorIdx + 1))] =
        some [("name", .string process.name), ("executable", .string process.executable),
          ("arguments", .array (process.arguments.map Json.string)),
          ("argumentPolicy", ProcessArgumentPolicy.codec.encode process.argumentPolicy)] := by
    rw [← argument_policy_number]
    exact encode_members_cons (encode_text _ _) (encode_members_cons (encode_text _ _)
      (encode_members_cons (encode_texts _ hdepth) (encode_members_cons rfl rfl)))
  rw [ProcessCommand.toArray, encode_named _ _ (by omega), hmembers]
  rfl

/-- What PHP prints for capabilities is what the host prints for what it reads. -/
theorem encode_capabilities (capabilities : Capabilities parseUrl) :
    jsonEncode floatText 0 capabilities.toArray =
      some (NativeCapabilities.codec.encode capabilities.config) := by
  rw [Capabilities.toArray, encode_named _ _ (by decide)]
  have hroots : jsonEncode floatText 1
      (phpList (capabilities.filesystemRoots.map FileSystemRoot.toArray)) = some
        (FileSystemRootConfig.codec.list.encode capabilities.config.filesystemRoots) := by
    rw [encode_items _ (by decide) fun root => encode_root root (by decide)]
    exact congrArg (some ∘ Json.array) List.map_map.symm
  have hdatabases : jsonEncode floatText 1
      (phpList (capabilities.databases.map Database.toArray)) = some
        (DatabaseConfig.codec.list.encode capabilities.config.databases) := by
    rw [encode_items _ (by decide) fun database => encode_database database (by decide)]
    exact congrArg (some ∘ Json.array) List.map_map.symm
  have horigins : jsonEncode floatText 1
      (phpList (capabilities.httpOrigins.map HttpOrigin.toArray)) = some
        (HttpOriginConfig.codec.list.encode capabilities.config.httpOrigins) := by
    rw [encode_items _ (by decide) fun origin => encode_origin origin (by decide)]
    exact congrArg (some ∘ Json.array) List.map_map.symm
  have hprocesses : jsonEncode floatText 1
      (phpList (capabilities.processes.map ProcessCommand.toArray)) = some
        (ProcessCommandConfig.codec.list.encode capabilities.config.processes) := by
    rw [encode_items _ (by decide) fun process => encode_process process (by decide)]
    exact congrArg (some ∘ Json.array) List.map_map.symm
  refine Option.map_eq_some_iff.mpr ⟨_, ?_, rfl⟩
  refine encode_members_cons hroots ?_
  refine encode_members_cons rfl (encode_members_cons rfl ?_)
  refine encode_members_cons rfl (encode_members_cons rfl ?_)
  refine encode_members_cons rfl ?_
  refine encode_members_cons hdatabases (encode_members_cons rfl ?_)
  refine encode_members_cons horigins (encode_members_cons rfl ?_)
  exact encode_members_cons hprocesses (encode_members_cons rfl rfl)

/-- The host reads capabilities in what PHP prints for the array, and accepts them. -/
def CapabilitiesAccepted (platform : Platform) (floatText : PhpFloat → String) (array : PhpValue) :
    Prop :=
  ∃ json capabilities, jsonEncode floatText 0 array = some json ∧
    NativeCapabilities.codec.decode json = some capabilities ∧
      capabilities.validate platform = .ok ()

theorem capabilities_accepted_iff (platform : Platform) (capabilities : Capabilities parseUrl) :
    CapabilitiesAccepted platform floatText capabilities.toArray ↔
      capabilities.Portable platform := by
  have hdecode := NativeCapabilities.codec.decode_encode capabilities.config
    (NativeCapabilities.codec_valid _)
  exact (read_accepted_iff (encode_capabilities capabilities) hdecode).trans
    (capabilities.accepted_iff platform)

theorem encode_job (job : BackgroundJob) {id : String} {array : PhpValue}
    (h : job.toArray id = .ok array) :
    Identifier.assert (osString id) "The background job identifier" = .ok () ∧
      jsonEncode floatText 0 array = some (.object (job.members id)) := by
  obtain ⟨hid, harray⟩ := check_bind_ok.mp h
  cases harray
  refine ⟨hid, ?_⟩
  rw [encode_named _ _ (by decide), BackgroundJob.members, ← overlap_number]
  refine Option.map_eq_some_iff.mpr ⟨_, ?_, rfl⟩
  refine encode_members_cons (encode_text _ _) (encode_members_cons rfl ?_)
  refine encode_members_cons rfl (encode_members_cons rfl ?_)
  refine encode_members_cons rfl (encode_members_cons rfl ?_)
  exact encode_members_cons rfl (encode_members_cons rfl rfl)

/-- The host reads a job in what PHP prints for the array, and accepts it. -/
def JobAccepted (floatText : PhpFloat → String) (array : PhpValue) : Prop :=
  ∃ json job, jsonEncode floatText 0 array = some json ∧
    BackgroundJobConfig.codec.decode json = some job ∧ job.validate = .ok ()

theorem job_accepted_iff (job : BackgroundJob) {id : String} {array : PhpValue}
    (h : job.toArray id = .ok array) : JobAccepted floatText array ↔ StrictName id := by
  obtain ⟨hid, hjson⟩ := encode_job job h
  exact (read_accepted_iff hjson (job.decode_members id)).trans (job.accepted_iff hid)

theorem encode_permissions (permissions : PluginPermissions) (hdepth : depth + 1 < maxJsonDepth) :
    jsonEncode floatText depth permissions.toArray =
      some (Protocol.PluginPermissions.codec.encode permissions.config) := by
  have hmembers : encodeNamed floatText (depth + 1) [
      ("filesystemRoots", phpList (permissions.filesystemRoots.map phpText)),
      ("network", .bool permissions.network), ("shell", .bool permissions.shell),
      ("devices", .bool permissions.devices)] =
        some [("filesystemRoots", .array (permissions.filesystemRoots.map Json.string)),
          ("network", .bool permissions.network), ("shell", .bool permissions.shell),
          ("devices", .bool permissions.devices)] :=
    encode_members_cons (encode_texts _ hdepth) (encode_members_cons rfl
      (encode_members_cons rfl (encode_members_cons rfl rfl)))
  rw [PluginPermissions.toArray, encode_named _ _ (by omega), hmembers]
  rfl

theorem encode_plugin (plugin : RustPlugin) :
    jsonEncode floatText 0 plugin.toArray = some (.object plugin.members) := by
  have hdigest : jsonEncode floatText 1 (plugin.sha256.elim .null phpText) =
      some ((Codec.text.option Codec.text_ne_null).encode plugin.sha256) := by
    cases plugin.sha256 with
    | none => rfl
    | some digest => exact encode_text _ _
  rw [RustPlugin.toArray, encode_named _ _ (by decide), RustPlugin.members, ← sandbox_number]
  refine Option.map_eq_some_iff.mpr ⟨_, ?_, rfl⟩
  refine encode_members_cons (encode_text _ _) (encode_members_cons (encode_text _ _) ?_)
  refine encode_members_cons (encode_texts _ (by decide)) (encode_members_cons rfl ?_)
  refine encode_members_cons hdigest (encode_members_cons rfl ?_)
  exact encode_members_cons (encode_permissions _ (by decide)) rfl

/-- The host reads a plugin in what PHP prints for the array, and accepts it. -/
def PluginAccepted (build : Build) (floatText : PhpFloat → String) (array : PhpValue) : Prop :=
  ∃ json plugin, jsonEncode floatText 0 array = some json ∧
    RustPluginConfig.codec.decode json = some plugin ∧ plugin.validate build = .ok ()

theorem plugin_accepted_iff (build : Build) (plugin : RustPlugin) :
    PluginAccepted build floatText plugin.toArray ↔ plugin.Portable build :=
  (read_accepted_iff (encode_plugin plugin) plugin.decode_members).trans (plugin.accepted_iff build)

end Wire

/-! ## Runs -/

/-- The values of a job that runs every minute. -/
def minuteValues : BackgroundJobValues where
  intervalMilliseconds := 60000
  initialDelayMilliseconds := 60000
  timeoutMilliseconds := 30000
  overlapPolicy := .skip
  persistent := false
  maximumAttempts := 1
  retryBackoffMilliseconds := 1000

/-- A command whose path leads to a parent directory by backslashes. -/
def climbingValues : ProcessCommandValues where
  name := "tool"
  executable := "bin\\..\\..\\tool.exe"
  arguments := []
  argumentPolicy := .fixed

/-- PHP accepts the command, and the host refuses it on Windows. -/
theorem climbing_refused : ∃ (process : ProcessCommand)
    (capabilities : Capabilities fun _ => none),
    ProcessCommand.ofExecutable "tool" "bin\\..\\..\\tool.exe" = .ok process ∧
      Capabilities.none.call (.process [process]) = .ok capabilities ∧
        ¬CapabilitiesAccepted { notesPlatform with operatingSystem := .windows }
          Serving.oneAndHalf capabilities.toArray := by
  have hchecked : climbingValues.check = .ok () := by decide +kernel
  let process : ProcessCommand := ⟨climbingValues, hchecked⟩
  have htaken : ({ Capabilities.none.toCapabilitiesValues with
      processes := [process] } : CapabilitiesValues fun _ => none).check = .ok () := rfl
  refine ⟨process, _, construct_ok hchecked, construct_ok htaken, ?_⟩
  intro haccepted
  have hmem : process ∈ [process] := List.mem_singleton_self process
  have hclimbs := (((capabilities_accepted_iff _ _).mp haccepted).processes process hmem).2.2
  have hfound : climbs { notesPlatform with operatingSystem := .windows }
      "bin\\..\\..\\tool.exe" = true := by decide +kernel
  exact absurd (hfound.symm.trans hclimbs) (by decide)

end PamDesktop.Php
