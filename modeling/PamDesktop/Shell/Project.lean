import PamDesktop.Foundations.Disk
import PamDesktop.Protocol.Bootstrap

/-!
# Projects

`Project::discover` and the checks of a bootstrap against the files of a project. Texts of a
bootstrap are joined to the root of the project and resolved by the operating system, so a link
may lead them anywhere: `resolvePath` is that resolution, and each check says what it wants of
the result.
-/

namespace PamDesktop.Shell

open Foundations Protocol

/-- Whether a path asks for a directory by its end: a separator or `.` comes last. -/
def endsInDirectory (build : Build) (text : String) : Bool :=
  [some [], some [46]].contains ((osString text).splitOnP build.separator).getLast?

/-- `canonicalize` of a path joined to a directory. The path has normal and `.` components only. -/
def resolvePath (build : Build) (disk : Disk) (root : Location) (text : String) :
    Except PathError Location :=
  match disk.canonicalize root ((projectComponents build text).getD []) with
  | .error error => .error error
  | .ok resolved =>
      if endsInDirectory build text && !Disk.isDirectory (disk.find resolved) then
        .error .notADirectory
      else .ok resolved

/-- `is_file` of a path joined to a directory. -/
def isFileAt (build : Build) (disk : Disk) (root : Location) (text : String) : Bool :=
  match resolvePath build disk root text with
  | .error _ => false
  | .ok resolved => Disk.isFile (disk.find resolved)

/-- A path joined to a directory, for messages. -/
def displayJoined (root : Location) (text : String) : String := displayed root ++ "/" ++ text

/-- `EXE_SUFFIX`. -/
def exeSuffix (build : Build) : String :=
  if build.operatingSystem = .windows then ".exe" else ""

structure Project where
  root : Location
  application : Location
deriving DecidableEq

/-- `Project::discover`. -/
def Project.discover (build : Build) (disk : Disk) (path : Location) : Except String Project :=
  match disk.canonicalize [] path with
  | .error error => .error ("cannot resolve project " ++ displayed path ++ ": " ++ error.text)
  | .ok root => do
      refuseIf (!Disk.isDirectory (disk.find root))
        ("project " ++ displayed root ++ " is not a directory")
      refuseIf (!isFileAt build disk root "app.php")
        (displayJoined root "app.php" ++
          " is missing; create the project with `pam init --template desktop`")
      refuseIf (!isFileAt build disk root "composer.json")
        (displayed root ++ " has no composer.json")
      refuseIf (!isFileAt build disk root "vendor/autoload.php")
        "vendor/autoload.php is missing; run `composer install` in the project"
      .ok ⟨root, root ++ [osString "app.php"]⟩

/-! ## Icons -/

/-- The extension of the last name, in lower case. -/
def lowerExtension (names : List OsString) : Option OsString :=
  (names.getLast?.bind extension).map fun bytes =>
    bytes.map fun byte => if 65 ≤ byte && byte ≤ 90 then byte + 32 else byte

/-- `PNG_SIGNATURE`. -/
def pngSignature : List UInt8 := [0x89, 0x50, 0x4E, 0x47, 0x0D, 0x0A, 0x1A, 0x0A]

/-- `u32::from_be_bytes` of the four bytes from an offset. -/
def beNumber (contents : List UInt8) (offset : Nat) : Nat :=
  ((contents.drop offset).take 4).foldl (fun value byte => value * 256 + byte.toNat) 0

/-- `validate_png_icon`. -/
def validatePngIcon (contents : List UInt8) : Except String Unit := do
  refuseIf (contents.length < 24 || contents.take 8 != pngSignature ||
      (contents.drop 12).take 4 != osString "IHDR")
    "application PNG icon has an invalid header"
  let width := beNumber contents 16
  let height := beNumber contents 20
  refuseIf (width != height || width < 64 || 1024 < width)
    "application PNG icon must be square and between 64px and 1024px"

/-- `str::contains`. -/
def containsText (needle text : List Char) : Bool := text.tails.any (needle.isPrefixOf ·)

/-- `validate_svg_icon`. -/
def validateSvgIcon (contents : List UInt8) : Except String Unit :=
  match String.fromUTF8? ⟨contents.toArray⟩ with
  | none => .error "application SVG icon must contain valid UTF-8"
  | some source =>
      let normalized := source.toList.map toAsciiLowercase
      refuseIf (!containsText "<svg".toList normalized ||
          containsText "<script".toList normalized ||
          containsText "<!doctype".toList normalized ||
          containsText "href=\"http".toList normalized ||
          containsText "href='http".toList normalized)
        ("application SVG icon must be self-contained and cannot include scripts or remote " ++
          "resources")

/-- The part of `resolve_icon` that reads the extension and the contents. -/
def validateIcon (extension : Option OsString) (contents : List UInt8) : Except String Unit :=
  if extension = some (osString "png") then validatePngIcon contents
  else if extension = some (osString "svg") then validateSvgIcon contents
  else .error "application icon must use the PNG or SVG extension"

/-- `MAX_ICON_BYTES`. -/
def maxIconBytes : Nat := 2 * 1024 * 1024

namespace Project

variable (build : Build) (disk : Disk) (project : Project)

/-! ## Resolving the paths of a bootstrap -/

/-- `Project::public_root`. -/
def publicRoot : Except String Location :=
  match resolvePath build disk project.root "resources" with
  | .error error =>
      .error ("cannot resolve desktop resources directory " ++
        displayJoined project.root "resources" ++ ": " ++ error.text)
  | .ok resolved => do
      refuseIf (!Disk.isDirectory (disk.find resolved) || !project.root.isPrefixOf resolved)
        ("desktop resources directory is invalid: " ++ displayed resolved)
      .ok resolved

/-- `Project::resolve_public_asset`. -/
def resolvePublicAsset (asset label : String) : Except String Location :=
  if asset ≠ "" ∧ (projectComponents build asset).isNone then
    .error (label ++ " must be a relative path inside the project")
  else
    match resolvePath build disk project.root asset with
    | .error error =>
        .error ("cannot resolve " ++ label ++ " " ++ displayJoined project.root asset ++ ": " ++
          error.text)
    | .ok resolved => do
        let resources ← project.publicRoot build disk
        refuseIf (!resources.isPrefixOf resolved)
          (label ++ " must be inside " ++ displayed resources ++ ": " ++ displayed resolved)
        .ok resolved

/-- `Project::resolve_entry`. -/
def resolveEntry (entry : String) : Except String Location := do
  let resolved ← project.resolvePublicAsset build disk entry "desktop entry"
  refuseIf (!Disk.isFile (disk.find resolved))
    ("desktop entry is not a file: " ++ displayed resolved)
  .ok resolved

/-- `Project::resolve_icon`. -/
def resolveIcon (icon : String) : Except String Location := do
  let resolved ← project.resolvePublicAsset build disk icon "application icon"
  match disk.find resolved with
  | some (.file contents _) =>
      refuseIf (maxIconBytes < contents.length)
        ("application icon must be a file no larger than " ++ toString maxIconBytes ++
          " bytes: " ++ displayed resolved)
      validateIcon (lowerExtension resolved) contents
      .ok resolved
  | _ =>
      .error ("application icon must be a file no larger than " ++ toString maxIconBytes ++
        " bytes: " ++ displayed resolved)

/-- The first components that `resolve_plugin_executable` refuses. -/
def unbundledDirectories : List OsString :=
  [".git", ".pam", "dist", "node_modules", "target"].map osString

/-- The file that a plugin is started from: with the suffix of executables only if there is
none without it. -/
def pluginCandidate (root : Location) (executable : String) : String :=
  if !isFileAt build disk root executable && exeSuffix build != "" &&
      isFileAt build disk root (executable ++ exeSuffix build) then
    executable ++ exeSuffix build
  else executable

/-- `Project::resolve_plugin_executable`. -/
def resolvePluginExecutable (executable : String) : Except String Location := do
  refuseIf (executable ≠ "" &&
      match normalComponents build.separator (build.operatingSystem == .windows)
        (osString executable) with
      | none => true
      | some names => names.head?.any unbundledDirectories.contains)
    "Rust plugin executables must use a bundled project-relative path"
  let candidate := pluginCandidate build disk project.root executable
  match resolvePath build disk project.root candidate with
  | .error error =>
      .error ("cannot resolve Rust plugin executable " ++
        displayJoined project.root candidate ++ ": " ++ error.text)
  | .ok resolved =>
      match project.root.isPrefixOf resolved, disk.find resolved with
      | true, some (.file _ mode) => do
          refuseIf (build.operatingSystem != .windows && mode &&& 0o111 == 0)
            ("Rust plugin file is not executable: " ++ displayed resolved)
          .ok resolved
      | _, _ =>
          .error ("Rust plugin executable is not a regular project file: " ++ displayed resolved)

/-- `Project::validate_bootstrap`. -/
def validateBootstrap (platform : Platform) (disk : Disk) (project : Project)
    (bootstrap : Bootstrap) : Except String Unit := do
  bootstrap.validate platform
  bootstrap.windows.forM fun window => do
    let _ ← project.resolveEntry platform.toBuild disk window.entry
  let _ ← project.resolveIcon platform.toBuild disk bootstrap.manifest.icon
  bootstrap.rustPlugins.forM fun plugin => do
    let _ ← project.resolvePluginExecutable platform.toBuild disk plugin.executable

end Project

/-! ## What the checks accept -/

/-- A check of every item that passes. -/
theorem for_m_ok {α : Type} {check : α → Except String Unit} {items : List α} :
    items.forM check = .ok () ↔ ∀ item ∈ items, check item = .ok () := by
  induction items with
  | nil => exact iff_of_true rfl (fun _ h => absurd h List.not_mem_nil)
  | cons item rest ih =>
      show (check item >>= fun _ => rest.forM check) = .ok () ↔ _
      rw [except_bind_ok, List.forall_mem_cons, ← ih]
      constructor
      · rintro ⟨⟨⟩, hitem, hrest⟩
        exact ⟨hitem, hrest⟩
      · rintro ⟨hitem, hrest⟩
        exact ⟨(), hitem, hrest⟩

/-- A check that passes before something else succeeds. -/
theorem refuse_then_ok {α : Type} {condition : Bool} {error : String}
    {next : Unit → Except String α} {value : α} :
    (refuseIf condition error >>= next) = .ok value ↔
      condition = false ∧ next () = .ok value := by
  rw [except_bind_ok]
  constructor
  · rintro ⟨⟨⟩, hcheck, hnext⟩
    exact ⟨refuse_if_ok.mp hcheck, hnext⟩
  · rintro ⟨hcheck, hnext⟩
    exact ⟨(), refuse_if_ok.mpr hcheck, hnext⟩

/-- `projectComponents` depends on the target only in that Windows has two separators. -/
theorem project_components_target {build : Build} {text : String} {names : List OsString}
    (h : ∀ windows : Bool,
      let segments := (osString text).splitOnP fun byte => byte == 47 || (windows && byte == 92)
      ¬ (segments.head? = some [] ∨ (windows && hasDrive (osString text)) = true ∨
        segments.contains [46, 46] = true) ∧
      segments.filter (fun segment => segment ≠ [] ∧ segment ≠ [46]) = names) :
    (projectComponents build text).getD [] = names := by
  obtain ⟨hplain, hnames⟩ := h (build.operatingSystem == .windows)
  have hsome : projectComponents build text = some names :=
    (if_neg hplain).trans (congrArg some hnames)
  rw [hsome]
  rfl

/-- A path that ends in a name, whatever the target separates with. -/
theorem ends_in_name {build : Build} {text : String}
    (h : ∀ windows : Bool, [some [], some [46]].contains
      ((osString text).splitOnP fun byte => byte == 47 || (windows && byte == 92)).getLast? =
        false) : endsInDirectory build text = false :=
  h (build.operatingSystem == .windows)

theorem components_app {build : Build} :
    (projectComponents build "app.php").getD [] = [osString "app.php"] :=
  project_components_target (by decide)

theorem components_composer {build : Build} :
    (projectComponents build "composer.json").getD [] = [osString "composer.json"] :=
  project_components_target (by decide)

theorem components_autoload {build : Build} :
    (projectComponents build "vendor/autoload.php").getD [] =
      [osString "vendor", osString "autoload.php"] :=
  project_components_target (by decide)

theorem components_resources {build : Build} :
    (projectComponents build "resources").getD [] = [osString "resources"] :=
  project_components_target (by decide)

/-- Where a path joined to a directory leads. -/
theorem resolve_path_ok {build : Build} {disk : Disk} {root place : Location} {text : String}
    {names : List OsString} (hnames : (projectComponents build text).getD [] = names) :
    resolvePath build disk root text = .ok place ↔ disk.canonicalize root names = .ok place ∧
      (endsInDirectory build text = true → Disk.isDirectory (disk.find place) = true) := by
  unfold resolvePath
  rw [hnames]
  cases hplace : disk.canonicalize root names with
  | error error =>
      constructor
      · intro h
        cases h
      · intro h
        cases h.1
  | ok resolved =>
      dsimp only
      split
      · rename_i hrefused
        rw [Bool.and_eq_true, Bool.not_eq_true'] at hrefused
        constructor
        · intro h
          cases h
        · rintro ⟨heq, hdirectory⟩
          cases heq
          rw [hdirectory hrefused.1] at hrefused
          cases hrefused.2
      · rename_i haccepted
        constructor
        · intro h
          cases h
          refine ⟨rfl, fun hends => ?_⟩
          rw [hends, Bool.true_and, Bool.not_eq_true', Bool.not_eq_false] at haccepted
          exact haccepted
        · intro h
          exact h.1

/-- A path joined to a directory is a file if it leads to one. -/
theorem is_file_at_resolved {build : Build} {disk : Disk} {root : Location} {text : String} :
    isFileAt build disk root text = true ↔ ∃ place, resolvePath build disk root text = .ok place ∧
      Disk.isFile (disk.find place) = true := by
  unfold isFileAt
  cases resolvePath build disk root text with
  | error error =>
      constructor
      · intro h
        cases h
      · rintro ⟨place, hplace, _⟩
        cases hplace
  | ok resolved =>
      constructor
      · intro h
        exact ⟨resolved, rfl, h⟩
      · rintro ⟨place, hplace, h⟩
        cases hplace
        exact h

/-- It does not ask for a directory then. -/
theorem is_file_at_iff {build : Build} {disk : Disk} {root : Location} {text : String}
    {names : List OsString} (hnames : (projectComponents build text).getD [] = names) :
    isFileAt build disk root text = true ↔ endsInDirectory build text = false ∧
      ∃ place, disk.canonicalize root names = .ok place ∧
        Disk.isFile (disk.find place) = true := by
  rw [is_file_at_resolved]
  constructor
  · rintro ⟨place, hplace, hfile⟩
    obtain ⟨hcanonical, hdirectory⟩ := (resolve_path_ok hnames).mp hplace
    refine ⟨?_, place, hcanonical, hfile⟩
    rw [← Bool.not_eq_true]
    intro hends
    exact Disk.not_file_and_directory hfile (hdirectory hends)
  · rintro ⟨hends, place, hcanonical, hfile⟩
    refine ⟨place, (resolve_path_ok hnames).mpr ⟨hcanonical, fun h => ?_⟩, hfile⟩
    rw [hends] at h
    cases h

/-- Only a path with a name in it leads from a directory to a file. -/
theorem components_of_file {build : Build} {disk : Disk} {root : Location} {text : String}
    (hroot : Disk.isDirectory (disk.find root) = true)
    (h : isFileAt build disk root text = true) :
    ∃ names, projectComponents build text = some names ∧ names ≠ [] := by
  obtain ⟨_, place, hplace, hfile⟩ := (is_file_at_iff rfl).mp h
  cases hnames : projectComponents build text with
  | none =>
      rw [hnames] at hplace
      cases hplace
      exact absurd hroot (Disk.not_file_and_directory hfile)
  | some names =>
      refine ⟨names, rfl, ?_⟩
      rintro rfl
      rw [hnames] at hplace
      cases hplace
      exact absurd hroot (Disk.not_file_and_directory hfile)

/-! ## What the checks of a project accept -/

theorem discover_ok {build : Build} {disk : Disk} {path : Location} {project : Project} :
    Project.discover build disk path = .ok project ↔
      ∃ root, project = ⟨root, root ++ [osString "app.php"]⟩ ∧
        disk.canonicalize [] path = .ok root ∧ Disk.isDirectory (disk.find root) = true ∧
        isFileAt build disk root "app.php" = true ∧
        isFileAt build disk root "composer.json" = true ∧
        isFileAt build disk root "vendor/autoload.php" = true := by
  unfold Project.discover
  cases disk.canonicalize [] path with
  | error error =>
      constructor
      · intro h
        cases h
      · rintro ⟨root, _, hroot, _⟩
        cases hroot
  | ok root =>
      simp only [refuse_then_ok, Bool.not_eq_eq_eq_not, Bool.not_false]
      constructor
      · rintro ⟨hdirectory, happ, hcomposer, hautoload, heq⟩
        cases heq
        exact ⟨root, rfl, rfl, hdirectory, happ, hcomposer, hautoload⟩
      · rintro ⟨other, heq, hother, hdirectory, happ, hcomposer, hautoload⟩
        cases hother
        exact ⟨hdirectory, happ, hcomposer, hautoload, heq ▸ rfl⟩

namespace Project

variable {build : Build} {disk : Disk} {project : Project}

theorem public_root_ok {resources : Location} :
    project.publicRoot build disk = .ok resources ↔
      resolvePath build disk project.root "resources" = .ok resources ∧
        Disk.isDirectory (disk.find resources) = true ∧ project.root <+: resources := by
  unfold publicRoot
  cases resolvePath build disk project.root "resources" with
  | error error =>
      constructor
      · intro h
        cases h
      · intro h
        cases h.1
  | ok resolved =>
      simp only [refuse_then_ok, Bool.or_eq_false_iff, Bool.not_eq_eq_eq_not,
        Bool.not_false, List.isPrefixOf_iff_prefix]
      constructor
      · rintro ⟨⟨hdirectory, hinside⟩, heq⟩
        cases heq
        exact ⟨rfl, hdirectory, hinside⟩
      · rintro ⟨heq, hdirectory, hinside⟩
        cases heq
        exact ⟨⟨hdirectory, hinside⟩, rfl⟩

/-- An asset leads into the public directory. -/
structure PublicAsset (build : Build) (disk : Disk) (project : Project) (asset : String)
    (resolved : Location) : Prop where
  relative : ¬ (asset ≠ "" ∧ (projectComponents build asset).isNone = true)
  resolves : resolvePath build disk project.root asset = .ok resolved
  inside : ∃ resources, project.publicRoot build disk = .ok resources ∧ resources <+: resolved

theorem resolve_public_asset_ok {asset label : String} {resolved : Location} :
    project.resolvePublicAsset build disk asset label = .ok resolved ↔
      PublicAsset build disk project asset resolved := by
  unfold resolvePublicAsset
  by_cases hrelative : asset ≠ "" ∧ (projectComponents build asset).isNone = true
  · rw [if_pos hrelative]
    constructor
    · intro h
      cases h
    · intro h
      exact absurd hrelative h.relative
  · rw [if_neg hrelative]
    cases hplace : resolvePath build disk project.root asset with
    | error error =>
        constructor
        · intro h
          cases h
        · intro h
          rw [h.resolves] at hplace
          cases hplace
    | ok place =>
        rw [except_bind_ok]
        simp only [refuse_then_ok, Bool.not_eq_eq_eq_not, Bool.not_false,
          List.isPrefixOf_iff_prefix]
        constructor
        · rintro ⟨resources, hresources, hinside, heq⟩
          cases heq
          exact ⟨hrelative, hplace, resources, hresources, hinside⟩
        · intro h
          obtain ⟨resources, hresources, hinside⟩ := h.inside
          rw [h.resolves] at hplace
          cases hplace
          exact ⟨resources, hresources, hinside, rfl⟩

theorem resolve_entry_ok {entry : String} {resolved : Location} :
    project.resolveEntry build disk entry = .ok resolved ↔
      PublicAsset build disk project entry resolved ∧
        Disk.isFile (disk.find resolved) = true := by
  unfold resolveEntry
  rw [except_bind_ok]
  simp only [resolve_public_asset_ok, refuse_then_ok, Bool.not_eq_eq_eq_not, Bool.not_false]
  constructor
  · rintro ⟨place, hplace, hfile, heq⟩
    cases heq
    exact ⟨hplace, hfile⟩
  · rintro ⟨hplace, hfile⟩
    exact ⟨resolved, hplace, hfile, rfl⟩

theorem resolve_icon_ok {icon : String} {resolved : Location} :
    project.resolveIcon build disk icon = .ok resolved ↔
      PublicAsset build disk project icon resolved ∧
        ∃ contents mode, disk.find resolved = some (.file contents mode) ∧
          contents.length ≤ maxIconBytes ∧
          validateIcon (lowerExtension resolved) contents = .ok () := by
  unfold resolveIcon
  rw [except_bind_ok]
  constructor
  · rintro ⟨place, hplace, h⟩
    have hplace := resolve_public_asset_ok.mp hplace
    split at h
    · rename_i contents mode hfind
      rw [refuse_then_ok, decide_eq_false_iff_not, Nat.not_lt] at h
      obtain ⟨hlength, h⟩ := h
      obtain ⟨_, hvalid, heq⟩ := except_bind_ok.mp h
      cases heq
      exact ⟨hplace, contents, mode, hfind, hlength, hvalid⟩
    · cases h
  · rintro ⟨hplace, contents, mode, hfind, hlength, hvalid⟩
    refine ⟨resolved, resolve_public_asset_ok.mpr hplace, ?_⟩
    rw [hfind]
    dsimp only
    rw [refuse_then_ok, decide_eq_false_iff_not, Nat.not_lt]
    exact ⟨hlength, except_bind_ok.mpr ⟨(), hvalid, rfl⟩⟩

/-- A path that `resolve_plugin_executable` does not refuse before it looks at the disk. -/
def NamesBundled (build : Build) (executable : String) : Prop :=
  (executable ≠ "" && match normalComponents build.separator (build.operatingSystem == .windows)
      (osString executable) with
    | none => true
    | some names => names.head?.any unbundledDirectories.contains) = false

theorem resolve_plugin_executable_ok {executable : String} {resolved : Location} :
    project.resolvePluginExecutable build disk executable = .ok resolved ↔
      NamesBundled build executable ∧
        resolvePath build disk project.root
          (pluginCandidate build disk project.root executable) = .ok resolved ∧
        project.root <+: resolved ∧ ∃ contents mode,
          disk.find resolved = some (.file contents mode) ∧
          (build.operatingSystem ≠ .windows → mode &&& 0o111 ≠ 0) := by
  unfold resolvePluginExecutable
  rw [refuse_then_ok]
  constructor
  · rintro ⟨hnames, h⟩
    refine ⟨hnames, ?_⟩
    dsimp only at h
    split at h
    · cases h
    · rename_i place hplace
      split at h
      · rename_i contents mode hinside hfind
        obtain ⟨hmode, heq⟩ := refuse_then_ok.mp h
        cases heq
        refine ⟨hplace, List.isPrefixOf_iff_prefix.mp hinside, contents, mode, hfind, ?_⟩
        intro hunix hzero
        simp [hunix, hzero] at hmode
      · cases h
  · rintro ⟨hnames, hplace, hinside, contents, mode, hfind, hmode⟩
    refine ⟨hnames, ?_⟩
    dsimp only
    rw [hplace]
    dsimp only
    rw [List.isPrefixOf_iff_prefix.mpr hinside, hfind]
    refine refuse_then_ok.mpr ⟨?_, rfl⟩
    by_cases hwindows : build.operatingSystem = .windows
    · simp [hwindows]
    · simp [hmode hwindows]

theorem validate_bootstrap_ok {platform : Platform} {bootstrap : Bootstrap} :
    project.validateBootstrap platform disk bootstrap = .ok () ↔
      bootstrap.validate platform = .ok () ∧
        (∀ window ∈ bootstrap.windows, ∃ resolved,
          project.resolveEntry platform.toBuild disk window.entry = .ok resolved) ∧
        (∃ resolved, project.resolveIcon platform.toBuild disk bootstrap.manifest.icon =
          .ok resolved) ∧
        ∀ plugin ∈ bootstrap.rustPlugins, ∃ resolved,
          project.resolvePluginExecutable platform.toBuild disk plugin.executable =
            .ok resolved := by
  have hignored : ∀ {result : Except String Location},
      (do let _ ← result : Except String Unit) = .ok () ↔ ∃ resolved, result = .ok resolved := by
    intro result
    cases result with
    | error error =>
        constructor
        · intro h
          cases h
        · rintro ⟨resolved, h⟩
          cases h
    | ok resolved => exact iff_of_true rfl ⟨resolved, rfl⟩
  unfold validateBootstrap
  rw [except_bind_ok]
  constructor
  · rintro ⟨⟨⟩, hvalid, h⟩
    obtain ⟨⟨⟩, hwindows, h⟩ := except_bind_ok.mp h
    obtain ⟨resolved, hicon, hplugins⟩ := except_bind_ok.mp h
    refine ⟨hvalid, fun window hwindow => ?_, ⟨resolved, hicon⟩, fun plugin hplugin => ?_⟩
    · exact hignored.mp (for_m_ok.mp hwindows window hwindow)
    · exact hignored.mp (for_m_ok.mp hplugins plugin hplugin)
  · rintro ⟨hvalid, hwindows, ⟨resolved, hicon⟩, hplugins⟩
    refine ⟨(), hvalid, except_bind_ok.mpr ⟨(), ?_, except_bind_ok.mpr ⟨resolved, hicon, ?_⟩⟩⟩
    · exact for_m_ok.mpr fun window hwindow => hignored.mpr (hwindows window hwindow)
    · exact for_m_ok.mpr fun plugin hplugin => hignored.mpr (hplugins plugin hplugin)

end Project

end PamDesktop.Shell
