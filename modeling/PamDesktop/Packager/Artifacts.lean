import Mathlib.Data.List.DropRight
import PamDesktop.Packager.Entry

/-!
# Names of artifacts

`ArtifactNames` gives every format of a package its name in the output directory. The names of one
application are apart from each other and from the workspace of a build (`names_apart`).
-/

namespace PamDesktop.Packager

open Foundations Protocol

/-! ## The names -/

/-- `PackageFormat`. -/
inductive PackageFormat where
  | directory | portable | debian | native | appImage | rpm | pkg | msi
deriving DecidableEq

/-- `ArtifactNames`. -/
structure ArtifactNames where
  bundle : String
  portable : String
  debian : String
  native : String
  appimage : String
  rpm : String
  pkg : String
  msi : String
  executable : String
  architecture : String

/-- `debian_architecture`. -/
def debianArchitecture (architecture : String) : Except String String :=
  if architecture = "x86_64" then .ok "amd64"
  else if architecture = "aarch64" then .ok "arm64"
  else .error ("Debian packaging does not yet map architecture " ++ debugText architecture)

/-- The name of the Debian package. -/
def debianName (build : Build) (executable version : String) : Except String String :=
  if build.operatingSystem = .linux then do
    let architecture ← debianArchitecture build.architecture
    .ok (executable ++ "_" ++ version ++ "_" ++ architecture ++ ".deb")
  else .ok (executable ++ "-" ++ version ++ "-" ++ build.architecture ++ ".deb")

/-- The other names. -/
def namesWith (build : Build) (executable version debian : String) : ArtifactNames :=
  let architecture := build.architecture
  let bundle := executable ++ "-" ++ version ++ "-" ++ build.operatingSystem.name ++ "-" ++
    architecture
  { bundle
    portable := bundle ++ if build.operatingSystem = .linux then ".tar.gz" else ".zip"
    debian
    native := executable ++ "-" ++ version ++ "-" ++ architecture ++
      if build.operatingSystem = .macos then ".dmg" else ".msix"
    appimage := executable ++ "-" ++ version ++ "-" ++ architecture ++ ".AppImage"
    rpm := executable ++ "-" ++ version ++ "." ++ architecture ++ ".rpm"
    pkg := executable ++ "-" ++ version ++ "-" ++ architecture ++ ".pkg"
    msi := executable ++ "-" ++ version ++ "-" ++ architecture ++ ".msi"
    executable
    architecture }

/-- `ArtifactNames::new`. -/
def ArtifactNames.new (build : Build) (manifest : ApplicationManifest) :
    Except String ArtifactNames := do
  let executable := String.ofList (Activation.executableName manifest)
  let debian ← debianName build executable manifest.version
  .ok (namesWith build executable manifest.version debian)

/-- The name of the artifact of a format. -/
def ArtifactNames.of (names : ArtifactNames) : PackageFormat → String
  | .directory => names.bundle
  | .portable => names.portable
  | .debian => names.debian
  | .native => names.native
  | .appImage => names.appimage
  | .rpm => names.rpm
  | .pkg => names.pkg
  | .msi => names.msi

/-- The name of a workspace, from the number of the process and random bytes in hexadecimal. -/
def workspaceName (process random : String) : String :=
  ".pam-desktop-build-" ++ process ++ "-" ++ random

/-! ## Extensions -/

/-- What follows the last dot of a name. -/
def fileExtension (name : String) : List Char := name.toList.rtakeWhile (· ≠ '.')

theorem file_extension_append {name ending : String} {first extension : List Char}
    (hending : ending.toList = first ++ '.' :: extension) (hextension : '.' ∉ extension) :
    fileExtension (name ++ ending) = extension := by
  unfold fileExtension List.rtakeWhile
  rw [String.toList_append, hending, ← List.append_assoc, List.reverse_append, List.reverse_cons,
    List.append_assoc, List.takeWhile_append_of_pos]
  · simp
  · intro c hc
    refine decide_eq_true fun heq => hextension ?_
    rwa [← heq, ← List.mem_reverse]

/-- After the last dot is all that has no dot. -/
theorem mem_file_extension {name : String} {first last : List Char} {c : Char}
    (hname : name.toList = first ++ last) (hlast : '.' ∉ last) (hc : c ∈ last) :
    c ∈ fileExtension name := by
  unfold fileExtension List.rtakeWhile
  rw [hname, List.reverse_append, List.takeWhile_append_of_pos, List.mem_reverse]
  · exact List.mem_append_left _ (List.mem_reverse.mpr hc)
  · intro c hc
    refine decide_eq_true fun heq => hlast ?_
    rwa [← heq, ← List.mem_reverse]

/-- The extensions of the artifacts that are files. -/
def extensionOf (build : Build) : PackageFormat → List Char
  | .directory => []
  | .portable => if build.operatingSystem = .linux then ['g', 'z'] else ['z', 'i', 'p']
  | .debian => ['d', 'e', 'b']
  | .native => if build.operatingSystem = .macos then ['d', 'm', 'g'] else ['m', 's', 'i', 'x']
  | .appImage => ['A', 'p', 'p', 'I', 'm', 'a', 'g', 'e']
  | .rpm => ['r', 'p', 'm']
  | .pkg => ['p', 'k', 'g']
  | .msi => ['m', 's', 'i']

variable {build : Build} {manifest : ApplicationManifest} {names : ArtifactNames}

theorem artifact_names_ok (h : ArtifactNames.new build manifest = .ok names) :
    ∃ debian, debianName build names.executable manifest.version = .ok debian ∧
      names = namesWith build names.executable manifest.version debian ∧
      names.executable.toList = Activation.executableName manifest := by
  obtain ⟨debian, hdebian, hnames⟩ := except_bind_ok.mp h
  cases hnames
  exact ⟨debian, hdebian, rfl, String.toList_ofList⟩

theorem debian_name_ok {executable version debian : String}
    (h : debianName build executable version = .ok debian) :
    ∃ rest : String, debian = executable ++ rest ++ ".deb" := by
  unfold debianName at h
  split at h
  · obtain ⟨architecture, -, h⟩ := except_bind_ok.mp h
    cases h
    exact ⟨"_" ++ version ++ "_" ++ architecture, by simp only [String.append_assoc]⟩
  · cases h
    exact ⟨"-" ++ version ++ "-" ++ build.architecture, by simp only [String.append_assoc]⟩

/-- No extension has a dot or a dash. -/
theorem extension_plain (build : Build) (format : PackageFormat) :
    '.' ∉ extensionOf build format ∧ '-' ∉ extensionOf build format := by
  cases format
  case portable => by_cases h : build.operatingSystem = .linux <;> simp [extensionOf, h]
  case native => by_cases h : build.operatingSystem = .macos <;> simp [extensionOf, h]
  all_goals simp [extensionOf]

theorem extension_of_file (hnames : ArtifactNames.new build manifest = .ok names)
    {format : PackageFormat} (hformat : format ≠ .directory) :
    fileExtension (names.of format) = extensionOf build format := by
  obtain ⟨debian, hdebian, hfields, -⟩ := artifact_names_ok hnames
  obtain ⟨hdot, -⟩ := extension_plain build format
  rw [hfields]
  cases format with
  | directory => exact absurd rfl hformat
  | portable =>
      unfold ArtifactNames.of namesWith extensionOf
      dsimp only
      split
      · exact file_extension_append (show ".tar.gz".toList = ['.', 't', 'a', 'r'] ++ _ from rfl)
          (by decide)
      · exact file_extension_append (show ".zip".toList = [] ++ _ from rfl) (by decide)
  | debian =>
      obtain ⟨rest, rfl⟩ := debian_name_ok hdebian
      exact file_extension_append (show ".deb".toList = [] ++ _ from rfl) hdot
  | native =>
      unfold ArtifactNames.of namesWith extensionOf
      dsimp only
      split
      · exact file_extension_append (show ".dmg".toList = [] ++ _ from rfl) (by decide)
      · exact file_extension_append (show ".msix".toList = [] ++ _ from rfl) (by decide)
  | appImage => exact file_extension_append (show ".AppImage".toList = [] ++ _ from rfl) hdot
  | rpm => exact file_extension_append (show ".rpm".toList = [] ++ _ from rfl) hdot
  | pkg => exact file_extension_append (show ".pkg".toList = [] ++ _ from rfl) hdot
  | msi => exact file_extension_append (show ".msi".toList = [] ++ _ from rfl) hdot

theorem extension_injective {format other : PackageFormat} (hformat : format ≠ .directory)
    (hother : other ≠ .directory) (h : extensionOf build format = extensionOf build other) :
    format = other := by
  unfold extensionOf at h
  cases format <;> cases other <;> simp at * <;> split_ifs at h <;> simp at h

/-- The name of a bundle does not end like the name of a file. -/
theorem dash_of_directory (harchitecture : '.' ∉ build.architecture.toList)
    (hnames : ArtifactNames.new build manifest = .ok names) :
    '-' ∈ fileExtension (names.of .directory) := by
  obtain ⟨debian, -, hfields, -⟩ := artifact_names_ok hnames
  have hname : (names.of .directory).toList = (names.executable ++ "-" ++ manifest.version ++ "-" ++
      build.operatingSystem.name).toList ++ '-' :: build.architecture.toList := by
    rw [hfields]
    simp [ArtifactNames.of, namesWith]
  exact mem_file_extension hname (by simpa using harchitecture) List.mem_cons_self

/-- The names of an application are apart. -/
theorem names_injective (harchitecture : '.' ∉ build.architecture.toList)
    (hnames : ArtifactNames.new build manifest = .ok names) {format other : PackageFormat}
    (h : names.of format = names.of other) : format = other := by
  have hdash := dash_of_directory harchitecture hnames
  by_cases hformat : format = .directory
  · by_cases hother : other = .directory
    · rw [hformat, hother]
    · rw [← hformat, h, extension_of_file hnames hother] at hdash
      exact absurd hdash (extension_plain build other).2
  · by_cases hother : other = .directory
    · rw [← hother, ← h, extension_of_file hnames hformat] at hdash
      exact absurd hdash (extension_plain build format).2
    · have hextension : extensionOf build format = extensionOf build other := by
        rw [← extension_of_file hnames hformat, h, extension_of_file hnames hother]
      exact extension_injective hformat hother hextension

/-- Every name begins with the name of the executable. -/
theorem names_begin (hnames : ArtifactNames.new build manifest = .ok names)
    (format : PackageFormat) : ∃ rest : String, names.of format = names.executable ++ rest := by
  obtain ⟨debian, hdebian, hfields, -⟩ := artifact_names_ok hnames
  obtain ⟨rest, hrest⟩ := debian_name_ok hdebian
  rw [hfields]
  cases format with
  | debian => exact ⟨rest ++ ".deb", by rw [← String.append_assoc]; exact hrest⟩
  | _ =>
      simp only [ArtifactNames.of, namesWith, String.append_assoc]
      exact ⟨_, rfl⟩

/-- A workspace is hidden. -/
theorem workspace_hidden (process random : String) :
    ∃ rest, (workspaceName process random).toList = '.' :: rest := by
  have hdot : ".pam-desktop-build-" = "." ++ "pam-desktop-build-" := by decide
  have hfirst (rest : String) : ("." ++ rest).toList = '.' :: rest.toList := by simp
  have hname : workspaceName process random =
      "." ++ ("pam-desktop-build-" ++ process ++ "-" ++ random) := by
    unfold workspaceName
    simp only [hdot, String.append_assoc]
  exact ⟨_, hname ▸ hfirst _⟩

/-- No artifact has the name of a workspace. -/
theorem names_ne_workspace (hvalid : manifest.validate build = .ok ())
    (hnames : ArtifactNames.new build manifest = .ok names) (format : PackageFormat)
    (process random : String) : names.of format ≠ workspaceName process random := by
  obtain ⟨debian, -, -, hexecutable⟩ := artifact_names_ok hnames
  obtain ⟨rest, hbegin⟩ := names_begin hnames format
  intro heq
  obtain ⟨hidden, hfirst⟩ := workspace_hidden process random
  rw [← heq, hbegin, String.toList_append, hexecutable] at hfirst
  have hpieces : manifest.identifier.toList.splitOn '.' ≠ [] := List.splitOn_ne_nil '.' _
  have hpiece : Activation.executableName manifest ∈ manifest.identifier.toList.splitOn '.' := by
    rw [Activation.executableName, List.getLast?_eq_some_getLast hpieces]
    exact List.getLast_mem hpieces
  obtain ⟨first, others, hcons⟩ :=
    List.exists_cons_of_ne_nil (Activation.executable_name_nonempty hvalid)
  rw [hcons] at hfirst hpiece
  cases hfirst
  exact separator_not_mem _ hpiece List.mem_cons_self

theorem version_flat {version : String} (h : validateVersion version = .ok ()) :
    '/' ∉ version.toList := by
  unfold validateVersion at h
  split at h
  · cases h
  · rename_i hchecks
    simp only [Bool.or_eq_true, not_or, Bool.not_eq_true', Bool.not_eq_false] at hchecks
    intro hmem
    exact absurd (List.all_eq_true.mp hchecks.2 _ hmem) (by decide)

theorem debian_name_flat {executable version debian : String}
    (hexecutable : '/' ∉ executable.toList) (hversion : '/' ∉ version.toList)
    (harchitecture : '/' ∉ build.architecture.toList)
    (h : debianName build executable version = .ok debian) : '/' ∉ debian.toList := by
  unfold debianName at h
  split at h
  · obtain ⟨architecture, hdebian, h⟩ := except_bind_ok.mp h
    cases h
    have hflat : '/' ∉ architecture.toList := by
      unfold debianArchitecture at hdebian
      split at hdebian
      · cases hdebian
        decide
      · split at hdebian
        · cases hdebian
          decide
        · cases hdebian
    simp [hexecutable, hversion, hflat]
  · cases h
    simp [hexecutable, hversion, harchitecture]

/-- An artifact is in the output directory itself. -/
theorem names_flat (hvalid : manifest.validate build = .ok ())
    (hsystem : '/' ∉ build.operatingSystem.name.toList)
    (harchitecture : '/' ∉ build.architecture.toList)
    (hnames : ArtifactNames.new build manifest = .ok names) (format : PackageFormat) :
    '/' ∉ (names.of format).toList := by
  obtain ⟨debian, hdebian, hfields, hexecutable⟩ := artifact_names_ok hnames
  have hversion : '/' ∉ manifest.version.toList := by
    unfold ApplicationManifest.validate at hvalid
    obtain ⟨⟨⟩, -, hvalid⟩ := except_bind_ok.mp hvalid
    obtain ⟨⟨⟩, -, hvalid⟩ := except_bind_ok.mp hvalid
    obtain ⟨⟨⟩, hversion, -⟩ := except_bind_ok.mp hvalid
    exact version_flat hversion
  have hprogram : '/' ∉ names.executable.toList := fun hmem => by
    rw [hexecutable] at hmem
    have hcharacter := (ApplicationManifest.validate_ok hvalid).identifier _
      (Activation.executable_name_characters hmem)
    exact absurd hcharacter (by decide)
  have hflat := debian_name_flat hprogram hversion harchitecture hdebian
  rw [hfields]
  cases format with
  | directory => simp [ArtifactNames.of, namesWith, hprogram, hversion, hsystem, harchitecture]
  | portable =>
      unfold ArtifactNames.of namesWith
      dsimp only
      split <;> simp [hprogram, hversion, hsystem, harchitecture]
  | debian => exact hflat
  | native =>
      unfold ArtifactNames.of namesWith
      dsimp only
      split <;> simp [hprogram, hversion, harchitecture]
  | _ => simp [ArtifactNames.of, namesWith, hprogram, hversion, harchitecture]

end PamDesktop.Packager
