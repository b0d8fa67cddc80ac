import PamDesktop.Protocol.Envelope

/-!
# The bootstrap contract

What a PHP worker declares when it boots, with `Bootstrap::validate` and the checks of its parts
in the order of the source. Maps of the source are lists of entries in the order of their keys.
Read `Bootstrap.validate` first, and `Bootstrap.Valid` for what the rest of the development uses.
-/

namespace PamDesktop.Protocol

open Foundations

/-! ## Data -/

inductive WindowTheme where
  | system | light | dark
deriving DecidableEq

inductive MenuItemKind where
  | command | checkbox | separator | submenu
deriving DecidableEq

inductive TrayCloseBehavior where
  | exit | hide
deriving DecidableEq

inductive JobOverlapPolicy where
  | skip | wait
deriving DecidableEq

inductive FileAccess where
  | read | write | readWrite
deriving DecidableEq

inductive DatabaseAccess where
  | read | readWrite
deriving DecidableEq

inductive CommandExecution where
  | stateful | parallel | background
deriving DecidableEq

inductive ProcessIsolation where
  | shared | perWindow | perWorkspace
deriving DecidableEq

inductive RenderBackend where
  | automatic | gpu | software
deriving DecidableEq

inductive WindowRole where
  | primary | child | modal | popover | panel | palette
deriving DecidableEq

inductive InstallerScope where
  | currentUser | machine
deriving DecidableEq

inductive ReleaseChannel where
  | stable | beta | nightly
deriving DecidableEq

inductive ProcessArgumentPolicy where
  | fixed | append
deriving DecidableEq

inductive PluginSandboxMode where
  | inherited | strict
deriving DecidableEq

structure ProcessCommandConfig where
  name : String
  executable : String
  arguments : List String := []
  argumentPolicy : ProcessArgumentPolicy
deriving DecidableEq

structure CommandConfig where
  name : String
  execution : CommandExecution
deriving DecidableEq

structure DatabaseConfig where
  name : String
  path : String
  access : DatabaseAccess
deriving DecidableEq

structure HttpOriginConfig where
  name : String
  origin : String
deriving DecidableEq

structure FileSystemRootConfig where
  name : String
  path : String
  access : FileAccess
deriving DecidableEq

structure NativeCapabilities where
  filesystemRoots : List FileSystemRootConfig := []
  dialogs : Bool := false
  clipboardRead : Bool := false
  clipboardWrite : Bool := false
  notifications : Bool := false
  dragAndDrop : Bool := false
  databases : List DatabaseConfig := []
  systemInformation : Bool := false
  httpOrigins : List HttpOriginConfig := []
  secrets : Bool := false
  processes : List ProcessCommandConfig := []
  desktopPortal : Bool := false
deriving DecidableEq

structure MenuItemConfig where
  kind : MenuItemKind
  id : String := ""
  label : String := ""
  enabled : Bool := true
  checked : Bool := false
  accelerator : Option String := none
  items : List MenuItemConfig := []

mutual

/-- The derived `PartialEq`. -/
def MenuItemConfig.same : MenuItemConfig → MenuItemConfig → Bool
  | ⟨kind, id, label, enabled, checked, accelerator, items⟩,
    ⟨kind', id', label', enabled', checked', accelerator', items'⟩ =>
      decide (kind = kind' ∧ id = id' ∧ label = label' ∧ enabled = enabled' ∧ checked = checked' ∧
        accelerator = accelerator') && sameItems items items'

/-- The same entries in the same order. -/
def sameItems : List MenuItemConfig → List MenuItemConfig → Bool
  | [], [] => true
  | item :: items, item' :: items' => item.same item' && sameItems items items'
  | _, _ => false

end

mutual

theorem MenuItemConfig.same_iff : ∀ item item' : MenuItemConfig,
    item.same item' = true ↔ item = item'
  | ⟨kind, id, label, enabled, checked, accelerator, items⟩,
    ⟨kind', id', label', enabled', checked', accelerator', items'⟩ => by
      rw [MenuItemConfig.same, Bool.and_eq_true, decide_eq_true_iff, same_items_iff items items']
      simp only [MenuItemConfig.mk.injEq, and_assoc]

theorem same_items_iff : ∀ items items' : List MenuItemConfig,
    sameItems items items' = true ↔ items = items'
  | [], [] => by simp [sameItems]
  | [], item :: items => by simp [sameItems]
  | item :: items, [] => by simp [sameItems]
  | item :: items, item' :: items' => by
      rw [sameItems, Bool.and_eq_true, MenuItemConfig.same_iff item item',
        same_items_iff items items', List.cons.injEq]

end

instance : DecidableEq MenuItemConfig := fun item item' =>
  decidable_of_iff (item.same item' = true) (item.same_iff item')

structure MenuConfig where
  id : String
  label : String
  items : List MenuItemConfig
deriving DecidableEq

structure TrayConfig where
  menuId : String
  tooltip : String
  closeBehavior : TrayCloseBehavior := .exit
deriving DecidableEq

structure GlobalShortcutConfig where
  id : String
  accelerator : String
deriving DecidableEq

structure QuickActionConfig where
  id : String
  label : String
  description : String := ""
deriving DecidableEq

structure ShellConfig where
  menus : List MenuConfig := []
  tray : Option TrayConfig := none
  shortcuts : List GlobalShortcutConfig := []
  quickActions : List QuickActionConfig := []
deriving DecidableEq

structure BackgroundJobConfig where
  id : String
  intervalMs : Nat
  initialDelayMs : Nat := 0
  timeoutMs : Nat
  overlap : JobOverlapPolicy := .skip
  persistent : Bool := false
  maximumAttempts : Nat := 1
  retryBackoffMs : Nat := 1000
deriving DecidableEq

structure PluginPermissions where
  filesystemRoots : List String := []
  network : Bool := false
  shell : Bool := false
  devices : Bool := false
deriving DecidableEq

structure RustPluginConfig where
  id : String
  executable : String
  arguments : List String := []
  timeoutMs : Nat
  sha256 : Option String := none
  sandbox : PluginSandboxMode := .inherited
  permissions : PluginPermissions := {}
deriving DecidableEq

structure WindowConfig where
  id : String
  entry : String
  title : String
  width : Nat
  height : Nat
  minWidth : Nat
  minHeight : Nat
  resizable : Bool
  visible : Bool
  theme : WindowTheme
  decorated : Bool := true
  transparent : Bool := false
  alwaysOnTop : Bool := false
  maximized : Bool := false
  fullscreen : Bool := false
deriving DecidableEq

structure PerformanceBudgetConfig where
  coldStartMilliseconds : Nat := 1500
  warmStartMilliseconds : Nat := 500
  idleMemoryMegabytes : Nat := 180
  idleCpuBasisPoints : Nat := 100
  ipcP95Microseconds : Nat := 5000
  frameP95Microseconds : Nat := 16667
deriving DecidableEq

structure WindowProfileConfig where
  role : WindowRole
  parent : Option String := none
  restore : Bool := false
  rememberMonitor : Bool := false
  detachableTabs : Bool := false
deriving DecidableEq

/-- The profiles of the windows by identifier, one for each. -/
structure WindowProfiles where
  entries : List (String × WindowProfileConfig) := []
  sorted : entries.Pairwise (fun first second => first.1 < second.1) := by decide
deriving DecidableEq

/-- The profile of a window. -/
def WindowProfiles.get (profiles : WindowProfiles) (id : String) : Option WindowProfileConfig :=
  profiles.entries.lookup id

structure WorkstationConfig where
  singleInstance : Bool := true
  forwardArguments : Bool := true
  backgroundAgent : Bool := false
  persistentServices : Bool := false
  isolation : ProcessIsolation := .shared
  processPoolSize : Nat := 2
  workspaceRestore : Bool := true
  autosaveMilliseconds : Nat := 2000
  recoveryJournal : Bool := true
  idleSleepMilliseconds : Nat := 30000
  startupSnapshot : Bool := true
  lazyPlugins : Bool := true
  treeShaking : Bool := true
  renderBackend : RenderBackend := .automatic
  dirtyRegions : Bool := true
  accessibility : Bool := true
  devtools : Bool := true
  crashReports : Bool := true
  installerScope : InstallerScope := .currentUser
  releaseChannel : ReleaseChannel := .stable
  performance : PerformanceBudgetConfig := {}
  windows : WindowProfiles := {}
deriving DecidableEq

/-- The declared parent of a window. -/
def WorkstationConfig.parentOf (workstation : WorkstationConfig) (id : String) : Option String :=
  (workstation.windows.get id).bind (·.parent)

structure Bootstrap where
  manifest : ApplicationManifest
  windows : List WindowConfig
  commandTimeoutMs : Nat
  parallelWorkerCount : Nat := 2
  commands : List CommandConfig := []
  capabilities : NativeCapabilities := {}
  shell : ShellConfig := {}
  backgroundJobs : List BackgroundJobConfig := []
  rustPlugins : List RustPluginConfig := []
  phpPlugins : List String := []
  workstation : WorkstationConfig := {}
deriving DecidableEq

/-- The parts of a parsed URL that the check of an origin looks at. -/
structure OriginUrl extends ParsedUrl where
  query : Option String

/-- What the checks of a bootstrap are compiled against. -/
structure Platform extends Build where
  parseOrigin : String → Except String OriginUrl

/-! ## Checks -/

/-- `MIN_COMMAND_TIMEOUT_MS`. -/
def minCommandTimeoutMs : Nat := 100

/-- `MAX_COMMAND_TIMEOUT_MS`. -/
def maxCommandTimeoutMs : Nat := 120000

/-- `MAX_INTERVAL_MS` of a background job. -/
def maxIntervalMs : Nat := 86400000

/-- The error of a check that fails on this condition. -/
def refuseIf (condition : Bool) (error : String) : Except String Unit :=
  if condition then .error error else .ok ()

/-- The loops that check items one by one and insert their keys into a set. -/
def validateEach {α : Type} (check : α → Except String Unit) (key duplicate : α → String)
    (seen : List String) : List α → Except String (List String)
  | [] => .ok seen
  | item :: rest => do
      check item
      if seen.contains (key item) then .error (duplicate item)
      else validateEach check key duplicate (key item :: seen) rest

/-- `str::to_ascii_lowercase`. -/
def asciiLowercase (value : String) : String := String.ofList (value.toList.map toAsciiLowercase)

/-- The modifiers of an accelerator; `seen` holds those already accepted. -/
def validateModifiers (value : String) (seen : List String) :
    List (List Char) → Except String Unit
  | [] => .ok ()
  | modifier :: rest =>
      let normalized := asciiLowercase (String.ofList modifier)
      if !(["alt", "ctrl", "control", "shift", "super", "cmd", "command", "cmdorctrl"].contains
          normalized) || seen.contains normalized then
        .error ("keyboard accelerator " ++ debugText value ++
          " has an invalid or duplicate modifier")
      else validateModifiers value (normalized :: seen) rest

/-- `validate_accelerator`. -/
def validateAccelerator (value : String) : Except String Unit :=
  if value.toList = [] || 64 < value.utf8ByteSize || value.toList.any isWhitespace then
    .error "keyboard accelerators must contain 1-64 non-whitespace characters"
  else
    let tokens := value.toList.splitOn '+'
    if tokens.contains [] then
      .error ("keyboard accelerator " ++ debugText value ++ " is malformed")
    else do
      validateModifiers value [] tokens.dropLast
      let key := tokens.getLast?.getD []
      if 24 < (String.ofList key).utf8ByteSize || !key.all isAsciiAlphanumeric then
        .error ("keyboard accelerator " ++ debugText value ++ " has an invalid key")

/-- `WindowConfig::validate`. -/
def WindowConfig.validate (build : Build) (window : WindowConfig) : Except String Unit := do
  validateIdentifier window.id "window"
  if window.entry.toList = [] || (projectComponents build window.entry).isNone then
    .error ("entry for window " ++ debugText window.id ++ " must be a relative project path")
  else if window.title.toList.all isWhitespace then .error "window title cannot be empty"
  else if window.width < window.minWidth || window.height < window.minHeight then
    .error "window size cannot be smaller than its minimum size"
  else if window.minWidth < 320 || window.minHeight < 240 then
    .error "minimum window size must be at least 320x240"

/-- `FileSystemRootConfig::validate`. -/
def FileSystemRootConfig.validate (root : FileSystemRootConfig) : Except String Unit := do
  validateIdentifier root.name "filesystem root"
  if root.path.toList.all isWhitespace || root.path.toList.contains '\x00' then
    .error ("filesystem root " ++ debugText root.name ++ " must declare a non-empty path")

/-- `DatabaseConfig::validate`. -/
def DatabaseConfig.validate (database : DatabaseConfig) : Except String Unit := do
  validateIdentifier database.name "database"
  if database.path.toList = [] || database.path.toList.contains '\x00' then
    .error ("database " ++ debugText database.name ++ " has an invalid path")

/-- `HttpOriginConfig::validate`. -/
def HttpOriginConfig.validate (platform : Platform) (config : HttpOriginConfig) :
    Except String Unit := do
  validateIdentifier config.name "HTTP origin"
  match platform.parseOrigin config.origin with
  | .error error =>
      .error ("HTTP origin " ++ debugText config.name ++ " is invalid: " ++ error)
  | .ok url =>
      if url.scheme ≠ "https" || url.host.isNone || url.username ≠ "" || url.password.isSome ||
          url.query.isSome || url.fragment.isSome then
        .error ("HTTP origin " ++ debugText config.name ++
          " must be a credential-free HTTPS URL without query or fragment")

/-- `ProcessCommandConfig::validate`. -/
def ProcessCommandConfig.validate (build : Build) (process : ProcessCommandConfig) :
    Except String Unit := do
  validateIdentifier process.name "process command"
  validateRelativeProjectPath build process.executable "process executable"
  if 32 < process.arguments.length || process.arguments.any (fun argument =>
      1024 < argument.utf8ByteSize || argument.toList.contains '\x00') then
    .error ("process command " ++ debugText process.name ++ " has invalid fixed arguments")

/-- The message for a native resource whose name is taken. -/
def duplicateResource (name : String) : String :=
  "native resource identifier " ++ debugText name ++ " is duplicated"

/-- `NativeCapabilities::validate`. -/
def NativeCapabilities.validate (platform : Platform) (capabilities : NativeCapabilities) :
    Except String Unit := do
  let names ← validateEach FileSystemRootConfig.validate (·.name)
    (fun root => "filesystem root identifier " ++ debugText root.name ++ " is duplicated") []
    capabilities.filesystemRoots
  let names ← validateEach DatabaseConfig.validate (·.name)
    (fun database => duplicateResource database.name) names capabilities.databases
  let names ← validateEach (HttpOriginConfig.validate platform) (·.name)
    (fun origin => duplicateResource origin.name) names capabilities.httpOrigins
  let _ ← validateEach (ProcessCommandConfig.validate platform.toBuild) (·.name)
    (fun process => duplicateResource process.name) names capabilities.processes

mutual

/-- `MenuItemConfig::validate`. The set of identifiers and the number of items are passed on. -/
def validateMenuItem (depth : Nat) (ids : List String) (count : Nat) :
    MenuItemConfig → Except String (List String × Nat)
  | ⟨kind, id, label, _, checked, accelerator, items⟩ =>
      if 8 < depth then .error "native menu nesting cannot exceed eight levels"
      else
        match kind with
        | .separator =>
            if id ≠ "" || label ≠ "" || checked || accelerator.isSome || !items.isEmpty then
              .error "menu separators cannot define identity, text, state, or children"
            else .ok (ids, count + 1)
        | .command | .checkbox => do
            validateIdentifier id "menu item"
            validateText label "menu item label" 80 false
            if ids.contains id then
              .error ("menu item identifier " ++ debugText id ++ " is duplicated")
            else if !items.isEmpty then
              .error ("menu item " ++ debugText id ++ " cannot contain children")
            else if kind = .command && checked then
              .error ("command menu item " ++ debugText id ++ " cannot be checked")
            else
              match accelerator with
              | some accelerator =>
                  validateAccelerator accelerator
                  .ok (id :: ids, count + 1)
              | none => .ok (id :: ids, count + 1)
        | .submenu => do
            validateIdentifier id "submenu"
            validateText label "submenu label" 80 false
            if ids.contains id then
              .error ("menu item identifier " ++ debugText id ++ " is duplicated")
            else if checked || accelerator.isSome || items.isEmpty then
              .error ("submenu " ++ debugText id ++
                " must contain children and cannot be checked or accelerated")
            else validateMenuItems (depth + 1) (id :: ids) (count + 1) items
termination_by structural item => item

/-- The loop over the items of a menu. -/
def validateMenuItems (depth : Nat) (ids : List String) (count : Nat) :
    List MenuItemConfig → Except String (List String × Nat)
  | [] => .ok (ids, count)
  | item :: rest => do
      let (ids, count) ← validateMenuItem depth ids count item
      validateMenuItems depth ids count rest
termination_by structural items => items

end

/-- `MenuConfig::validate`. -/
def MenuConfig.validate (ids : List String) (count : Nat) (menu : MenuConfig) :
    Except String (List String × Nat) := do
  validateIdentifier menu.id "menu"
  validateText menu.label "menu label" 80 false
  if menu.items.isEmpty then
    .error ("menu " ++ debugText menu.id ++ " must contain at least one item")
  else validateMenuItems 1 ids count menu.items

/-- The loop over the menus of a shell: their identifiers and the number of items. -/
def validateMenus (menuIds ids : List String) (count : Nat) :
    List MenuConfig → Except String (List String × Nat)
  | [] => .ok (menuIds, count)
  | menu :: rest => do
      let (ids, count) ← menu.validate ids count
      if menuIds.contains menu.id then
        .error ("menu identifier " ++ debugText menu.id ++ " is duplicated")
      else validateMenus (menu.id :: menuIds) ids count rest

/-- `TrayConfig::validate`. -/
def TrayConfig.validate (tray : TrayConfig) : Except String Unit := do
  validateIdentifier tray.menuId "tray menu"
  validateText tray.tooltip "tray tooltip" 128 false

/-- `GlobalShortcutConfig::validate`. -/
def GlobalShortcutConfig.validate (shortcut : GlobalShortcutConfig) : Except String Unit := do
  validateIdentifier shortcut.id "global shortcut"
  validateAccelerator shortcut.accelerator

/-- The loop over the global shortcuts, with the identifiers and the accelerators accepted. -/
def validateShortcuts (ids accelerators : List String) :
    List GlobalShortcutConfig → Except String Unit
  | [] => .ok ()
  | shortcut :: rest => do
      shortcut.validate
      if ids.contains shortcut.id then
        .error ("global shortcut identifier " ++ debugText shortcut.id ++ " is duplicated")
      else if accelerators.contains (asciiLowercase shortcut.accelerator) then
        .error ("global shortcut accelerator " ++ debugText shortcut.accelerator ++
          " is duplicated")
      else
        let accelerators := asciiLowercase shortcut.accelerator :: accelerators
        validateShortcuts (shortcut.id :: ids) accelerators rest

/-- `QuickActionConfig::validate`. -/
def QuickActionConfig.validate (action : QuickActionConfig) : Except String Unit := do
  validateIdentifier action.id "quick action"
  validateText action.label "quick action label" 80 false
  validateText action.description "quick action description" 160 true

/-- `ShellConfig::validate`. -/
def ShellConfig.validate (shell : ShellConfig) : Except String Unit := do
  let (menuIds, count) ← validateMenus [] [] 0 shell.menus
  refuseIf (256 < count)
    "native menus cannot contain more than 256 items"
  refuseIf (1 < shell.menus.length)
    "the stable Linux shell accepts one tray menu per application"
  refuseIf (!shell.menus.isEmpty && shell.tray.isNone)
    "native menus require a tray configuration on Linux"
  match shell.tray with
  | some tray => do
      tray.validate
      if !menuIds.contains tray.menuId then
        .error ("tray menu " ++ debugText tray.menuId ++ " is not registered in the shell")
  | none => .ok ()
  validateShortcuts [] [] shell.shortcuts
  refuseIf (10 < shell.quickActions.length)
    "desktop applications cannot register more than ten quick actions"
  let _ ← validateEach QuickActionConfig.validate (·.id)
    (fun action => "quick action identifier " ++ debugText action.id ++ " is duplicated") []
    shell.quickActions

/-- `BackgroundJobConfig::validate`. -/
def BackgroundJobConfig.validate (job : BackgroundJobConfig) : Except String Unit := do
  validateIdentifier job.id "background job"
  if job.intervalMs < 1000 || maxIntervalMs < job.intervalMs then
    .error ("background job " ++ debugText job.id ++ " interval must be between 1000 and " ++
      toString maxIntervalMs ++ " milliseconds")
  else if maxIntervalMs < job.initialDelayMs then
    .error ("background job " ++ debugText job.id ++ " initial delay cannot exceed " ++
      toString maxIntervalMs ++ " milliseconds")
  else if job.timeoutMs < minCommandTimeoutMs || maxCommandTimeoutMs < job.timeoutMs then
    .error ("background job " ++ debugText job.id ++ " timeout must be between " ++
      toString minCommandTimeoutMs ++ " and " ++ toString maxCommandTimeoutMs ++ " milliseconds")
  else if job.maximumAttempts < 1 || 10 < job.maximumAttempts then
    .error ("background job " ++ debugText job.id ++ " attempts must be between 1 and 10")
  else if job.retryBackoffMs < 100 || maxIntervalMs < job.retryBackoffMs then
    .error ("background job " ++ debugText job.id ++ " retry backoff must be between 100 and " ++
      toString maxIntervalMs ++ " milliseconds")

/-- `RustPluginConfig::validate`. -/
def RustPluginConfig.validate (build : Build) (plugin : RustPluginConfig) :
    Except String Unit := do
  validateIdentifier plugin.id "Rust plugin"
  validateRelativeProjectPath build plugin.executable "Rust plugin executable"
  refuseIf (32 < plugin.arguments.length)
    ("Rust plugin " ++ debugText plugin.id ++ " cannot declare more than 32 arguments")
  refuseIf (plugin.arguments.any fun argument =>
      1024 < argument.utf8ByteSize || argument.toList.contains '\x00')
    ("Rust plugin " ++ debugText plugin.id ++ " has an invalid process argument")
  refuseIf (plugin.timeoutMs < minCommandTimeoutMs || maxCommandTimeoutMs < plugin.timeoutMs)
    ("Rust plugin " ++ debugText plugin.id ++ " timeout must be between " ++
      toString minCommandTimeoutMs ++ " and " ++ toString maxCommandTimeoutMs ++ " milliseconds")
  match plugin.sha256 with
  | some digest => validateLowerHex digest 64 "Rust plugin SHA-256 digest"
  | none => .ok ()
  refuseIf (16 < plugin.permissions.filesystemRoots.length)
    ("Rust plugin " ++ debugText plugin.id ++ " cannot authorize more than 16 filesystem roots")
  let _ ← validateEach
    (fun root => validateRelativeProjectPath build root "Rust plugin filesystem root") (·)
    (fun root => "Rust plugin " ++ debugText plugin.id ++ " declares duplicate filesystem root " ++
      debugText root) [] plugin.permissions.filesystemRoots

/-- Whether the role of a window asks for a parent. -/
def WindowRole.needsParent : WindowRole → Bool
  | .child | .modal | .popover => true
  | .primary | .panel | .palette => false

/-- The loop over the profiles of the windows. -/
def validateProfiles (windows : List String) :
    List (String × WindowProfileConfig) → Except String Unit
  | [] => .ok ()
  | (id, profile) :: rest => do
      validateIdentifier id "workstation window"
      if !windows.contains id then
        .error ("workstation window profile " ++ debugText id ++ " is not registered")
      else if profile.role.needsParent ≠ profile.parent.isSome then
        .error ("workstation window " ++ debugText id ++ " has an invalid parent contract")
      else
        match profile.parent with
        | some parent =>
            if !windows.contains parent then
              .error ("workstation parent window " ++ debugText parent ++ " is not registered")
            else validateProfiles windows rest
        | none => validateProfiles windows rest

/-- `WorkstationConfig::validate`. -/
def WorkstationConfig.validate (windows : List String) (config : WorkstationConfig) :
    Except String Unit := do
  refuseIf (config.processPoolSize < 1 || 16 < config.processPoolSize)
    "workstation process pool must contain 1 to 16 workers"
  refuseIf (config.autosaveMilliseconds < 250 || 3600000 < config.autosaveMilliseconds)
    "workstation autosave must be between 250ms and one hour"
  refuseIf (config.idleSleepMilliseconds < 100 || 3600000 < config.idleSleepMilliseconds)
    "workstation idle sleep must be between 100ms and one hour"
  let budget := config.performance
  refuseIf (budget.coldStartMilliseconds = 0 || budget.warmStartMilliseconds = 0 ||
      budget.idleMemoryMegabytes = 0 || budget.idleCpuBasisPoints = 0 ||
      budget.ipcP95Microseconds = 0 || budget.frameP95Microseconds = 0)
    "workstation performance budgets must be positive"
  validateProfiles windows config.windows.entries

/-- `Bootstrap::validate`. -/
def Bootstrap.validate (platform : Platform) (bootstrap : Bootstrap) : Except String Unit := do
  bootstrap.manifest.validate platform.toBuild
  refuseIf (bootstrap.windows = [])
    "desktop applications must register at least one window"
  refuseIf (bootstrap.commandTimeoutMs < minCommandTimeoutMs ||
      maxCommandTimeoutMs < bootstrap.commandTimeoutMs)
    ("command timeout must be between " ++ toString minCommandTimeoutMs ++ " and " ++
      toString maxCommandTimeoutMs ++ " milliseconds")
  refuseIf (bootstrap.parallelWorkerCount < 1 || 16 < bootstrap.parallelWorkerCount)
    "parallel worker count must be between 1 and 16"
  let _ ← validateEach (fun command => validateIdentifier command.name "command") (·.name)
    (fun command => "command identifier " ++ debugText command.name ++ " is duplicated") []
    bootstrap.commands
  let identifiers ← validateEach (WindowConfig.validate platform.toBuild) (·.id)
    (fun window => "window identifier " ++ debugText window.id ++ " is duplicated") []
    bootstrap.windows
  refuseIf (!identifiers.contains mainWindowId)
    ("desktop applications must register the " ++ debugText mainWindowId ++ " window")
  bootstrap.capabilities.validate platform
  bootstrap.shell.validate
  bootstrap.workstation.validate identifiers
  let _ ← validateEach BackgroundJobConfig.validate (·.id)
    (fun job => "background job identifier " ++ debugText job.id ++ " is duplicated") []
    bootstrap.backgroundJobs
  let _ ← validateEach (RustPluginConfig.validate platform.toBuild) (·.id)
    (fun plugin => "Rust plugin identifier " ++ debugText plugin.id ++ " is duplicated") []
    bootstrap.rustPlugins
  let _ ← validateEach (fun plugin => validateIdentifier plugin "PHP plugin") (·)
    (fun plugin => "PHP plugin identifier " ++ debugText plugin ++ " is duplicated") []
    bootstrap.phpPlugins

/-! ## What an accepted bootstrap satisfies -/

/-- A check that passes. -/
theorem refuse_if_ok {condition : Bool} {error : String} :
    refuseIf condition error = .ok () ↔ condition = false := by
  cases condition <;> simp [refuseIf]

/-- Each item of an accepted list passes its check, and no key occurs twice. -/
theorem validate_each_ok {α : Type} {check : α → Except String Unit} {key duplicate : α → String}
    {seen keys : List String} {items : List α}
    (h : validateEach check key duplicate seen items = .ok keys) :
    (∀ item ∈ items, check item = .ok ()) ∧ (items.map key).Nodup ∧
      (∀ item ∈ items, key item ∉ seen) ∧
      ∀ name, name ∈ keys ↔ name ∈ seen ∨ name ∈ items.map key := by
  induction items generalizing seen with
  | nil =>
      obtain rfl : seen = keys := by simpa [validateEach] using h
      simp
  | cons item rest ih =>
      rw [validateEach] at h
      obtain ⟨⟨⟩, hcheck, h⟩ := except_bind_ok.mp h
      split at h
      · cases h
      · rename_i hfresh
        have hfresh : key item ∉ seen := by simpa using hfresh
        obtain ⟨hchecks, hnodup, hnew, hkeys⟩ := ih h
        refine ⟨?_, ?_, ?_, ?_⟩
        · intro other hother
          rcases List.mem_cons.mp hother with rfl | hother
          · exact hcheck
          · exact hchecks other hother
        · rw [List.map_cons, List.nodup_cons]
          refine ⟨?_, hnodup⟩
          intro hmem
          obtain ⟨other, hother, hsame⟩ := List.mem_map.mp hmem
          exact hnew other hother (by rw [hsame]; exact List.mem_cons_self)
        · intro other hother
          rcases List.mem_cons.mp hother with rfl | hother
          · exact hfresh
          · exact fun hmem => hnew other hother (List.mem_cons_of_mem _ hmem)
        · intro name
          rw [hkeys name, List.mem_cons, List.map_cons, List.mem_cons]
          exact ⟨fun h => by tauto, fun h => by tauto⟩

/-- The windows of a bootstrap by identifier. -/
def Bootstrap.windowIds (bootstrap : Bootstrap) : List String := bootstrap.windows.map (·.id)

/-- A profile that fits the windows of a bootstrap. -/
structure ProfileValid (windows : List String) (id : String) (profile : WindowProfileConfig) :
    Prop where
  registered : id ∈ windows
  contract : profile.role.needsParent = profile.parent.isSome
  parent : ∀ parent, profile.parent = some parent → parent ∈ windows

theorem validate_profiles_ok {windows : List String}
    {entries : List (String × WindowProfileConfig)}
    (h : validateProfiles windows entries = .ok ()) :
    ∀ entry ∈ entries, ProfileValid windows entry.1 entry.2 := by
  induction entries with
  | nil =>
      intro entry hentry
      cases hentry
  | cons entry rest ih =>
      obtain ⟨id, profile⟩ := entry
      rw [validateProfiles] at h
      obtain ⟨⟨⟩, -, h⟩ := except_bind_ok.mp h
      split at h
      · cases h
      · rename_i hregistered
        split at h
        · cases h
        · rename_i hcontract
          have hhead : ProfileValid windows id profile ∧ validateProfiles windows rest = .ok () := by
            split at h
            · rename_i parent hparent
              split at h
              · cases h
              · rename_i hwindow
                refine ⟨⟨by simpa using hregistered, by simpa using hcontract, ?_⟩, h⟩
                intro other hother
                rw [hparent] at hother
                cases hother
                simpa using hwindow
            · rename_i hparent
              refine ⟨⟨by simpa using hregistered, by simpa using hcontract, ?_⟩, h⟩
              intro other hother
              rw [hparent] at hother
              cases hother
          intro entry hentry
          rcases List.mem_cons.mp hentry with rfl | hentry
          · exact hhead.1
          · exact ih hhead.2 entry hentry

/-- What the rest of the program relies on in an accepted bootstrap. -/
structure Bootstrap.Valid (bootstrap : Bootstrap) : Prop where
  windows_nodup : bootstrap.windowIds.Nodup
  main : mainWindowId ∈ bootstrap.windowIds
  workers : 1 ≤ bootstrap.parallelWorkerCount ∧ bootstrap.parallelWorkerCount ≤ 16
  pool : 1 ≤ bootstrap.workstation.processPoolSize ∧ bootstrap.workstation.processPoolSize ≤ 16
  profiles : ∀ entry ∈ bootstrap.workstation.windows.entries,
    ProfileValid bootstrap.windowIds entry.1 entry.2
  commands_nodup : (bootstrap.commands.map (·.name)).Nodup
  jobs : ∀ job ∈ bootstrap.backgroundJobs, 1 ≤ job.maximumAttempts ∧ job.maximumAttempts ≤ 10
  jobs_nodup : (bootstrap.backgroundJobs.map (·.id)).Nodup

/-- The profiles are checked against the identifiers of the windows. -/
theorem WorkstationConfig.validate_ok {windows : List String} {config : WorkstationConfig}
    (h : config.validate windows = .ok ()) :
    (1 ≤ config.processPoolSize ∧ config.processPoolSize ≤ 16) ∧
      validateProfiles windows config.windows.entries = .ok () := by
  unfold WorkstationConfig.validate at h
  obtain ⟨⟨⟩, hpool, h⟩ := except_bind_ok.mp h
  obtain ⟨⟨⟩, -, h⟩ := except_bind_ok.mp h
  obtain ⟨⟨⟩, -, h⟩ := except_bind_ok.mp h
  obtain ⟨⟨⟩, -, h⟩ := except_bind_ok.mp h
  have hpool := refuse_if_ok.mp hpool
  simp only [Bool.or_eq_false_iff, decide_eq_false_iff_not] at hpool
  exact ⟨by omega, h⟩

/-- Attempts are between one and ten. -/
theorem BackgroundJobConfig.attempts_of_validate {job : BackgroundJobConfig}
    (h : job.validate = .ok ()) : 1 ≤ job.maximumAttempts ∧ job.maximumAttempts ≤ 10 := by
  unfold BackgroundJobConfig.validate at h
  obtain ⟨⟨⟩, -, h⟩ := except_bind_ok.mp h
  split at h
  · cases h
  · split at h
    · cases h
    · split at h
      · cases h
      · split at h
        · cases h
        · rename_i hattempts
          simp only [Bool.or_eq_true, decide_eq_true_eq, not_or] at hattempts
          omega

/-- An accepted bootstrap is valid. -/
theorem Bootstrap.validate_ok {platform : Platform} {bootstrap : Bootstrap}
    (h : bootstrap.validate platform = .ok ()) : bootstrap.Valid := by
  unfold Bootstrap.validate at h
  obtain ⟨⟨⟩, -, h⟩ := except_bind_ok.mp h
  obtain ⟨⟨⟩, -, h⟩ := except_bind_ok.mp h
  obtain ⟨⟨⟩, -, h⟩ := except_bind_ok.mp h
  obtain ⟨⟨⟩, hworkers, h⟩ := except_bind_ok.mp h
  obtain ⟨commands, hcommands, h⟩ := except_bind_ok.mp h
  obtain ⟨identifiers, hwindows, h⟩ := except_bind_ok.mp h
  obtain ⟨⟨⟩, hmain, h⟩ := except_bind_ok.mp h
  obtain ⟨⟨⟩, -, h⟩ := except_bind_ok.mp h
  obtain ⟨⟨⟩, -, h⟩ := except_bind_ok.mp h
  obtain ⟨⟨⟩, hworkstation, h⟩ := except_bind_ok.mp h
  obtain ⟨jobs, hjobs, -⟩ := except_bind_ok.mp h
  have hworkers := refuse_if_ok.mp hworkers
  simp only [Bool.or_eq_false_iff, decide_eq_false_iff_not] at hworkers
  have hmain := refuse_if_ok.mp hmain
  obtain ⟨-, hnodup, -, hidentifiers⟩ := validate_each_ok hwindows
  obtain ⟨hpool, hprofiles⟩ := WorkstationConfig.validate_ok hworkstation
  have hids : ∀ name, name ∈ identifiers ↔ name ∈ bootstrap.windowIds := by
    intro name
    rw [hidentifiers]
    simp [Bootstrap.windowIds]
  constructor
  case windows_nodup => exact hnodup
  case main => exact (hids _).mp (by simpa using hmain)
  case workers => omega
  case pool => exact hpool
  case profiles =>
    intro entry hentry
    obtain ⟨hregistered, hcontract, hparent⟩ := validate_profiles_ok hprofiles entry hentry
    exact ⟨(hids _).mp hregistered, hcontract, fun parent h => (hids _).mp (hparent parent h)⟩
  case commands_nodup => exact (validate_each_ok hcommands).2.1
  case jobs =>
    intro job hjob
    exact BackgroundJobConfig.attempts_of_validate ((validate_each_ok hjobs).1 job hjob)
  case jobs_nodup => exact (validate_each_ok hjobs).2.1

/-- What is found under a key is an entry. -/
theorem mem_of_lookup {β : Type} {entries : List (String × β)} {id : String} {value : β}
    (h : entries.lookup id = some value) : (id, value) ∈ entries := by
  obtain ⟨before, after, rfl, -⟩ := List.lookup_eq_some_iff.mp h
  exact List.mem_append_right _ List.mem_cons_self

/-- The declared parents of a valid bootstrap belong to registered windows and are registered
themselves. -/
theorem Bootstrap.Valid.parent_registered {bootstrap : Bootstrap} (hvalid : bootstrap.Valid)
    {id parent : String} (h : bootstrap.workstation.parentOf id = some parent) :
    id ∈ bootstrap.windowIds ∧ parent ∈ bootstrap.windowIds := by
  obtain ⟨profile, hprofile, hparent⟩ := Option.bind_eq_some_iff.mp h
  have hvalid := hvalid.profiles (id, profile) (mem_of_lookup hprofile)
  exact ⟨hvalid.registered, hvalid.parent parent hparent⟩

/-! ## The notes application -/

/-- A build for Linux without any URL parser. -/
def notesPlatform : Platform where
  operatingSystem := .linux
  architecture := "x86_64"
  debugAssertions := false
  parseUrl _ := none
  parseOrigin _ := .error "relative URL without a base"

/-- A window of the application. -/
def notesWindow (id : String) : WindowConfig where
  id := id
  entry := "resources/app.html"
  title := "Notes"
  width := 800
  height := 600
  minWidth := 320
  minHeight := 240
  resizable := true
  visible := true
  theme := .system

/-- A workstation that sets nothing. -/
def notesWorkstation : WorkstationConfig := {}

/-- The application with these windows and this workstation. -/
def notesBootstrap (ids : List String) (workstation : WorkstationConfig) : Bootstrap where
  manifest :=
    { identifier := "com.example.notes", name := "Notes", version := "1.0.0", description := ""
      publisher := "Example", category := .utility, icon := "icon.png" }
  windows := ids.map notesWindow
  commandTimeoutMs := 5000
  workstation := workstation

end PamDesktop.Protocol
