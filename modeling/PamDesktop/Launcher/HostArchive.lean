import Mathlib.Algebra.GroupWithZero.Nat
import PamDesktop.Foundations.Lists
import PamDesktop.Foundations.PathText
import PamDesktop.Foundations.SemanticVersion
import PamDesktop.Foundations.Serde
import PamDesktop.Updater.Publish

/-!
# Host archives

The packager and the verifier of portable host archives, and what the Composer launcher does with
an archive that it downloads. Read `host_archive_installs_iff` for the archives that the launcher
can use.
-/

namespace PamDesktop.Launcher

open Foundations Protocol Updater

/-! ## Libraries -/

/-- A regular file in a tar archive, or another member. -/
structure Member where
  name : String
  mode : Nat
  isFile : Bool
  contents : List UInt8

/-- `manifest.json`. -/
structure Manifest where
  version : String
  target : String
  files : List (String × Nat × String)

/-- The manifest with its keys in order. -/
def Manifest.json (manifest : Manifest) : Json :=
  .object [
    ("apiVersion", .number 1),
    ("files", .array (manifest.files.map fun (path, bytes, sha256) =>
      .object [("bytes", .number bytes), ("path", .string path), ("sha256", .string sha256)])),
    ("protocolVersion", .number 6),
    ("schemaVersion", .number 1),
    ("target", .string manifest.target),
    ("version", .string manifest.version)]

/-- What the scripts use of their standard libraries. The tar archives of `tarfile` are read by
`tarfile` and by `PharData`, and compressed archives are decompressed by both. -/
structure Library where
  sha256 : List UInt8 → List UInt8
  gzip : Nat → List UInt8 → List UInt8
  gunzip : List UInt8 → Option (List UInt8)
  tar : List Member → List UInt8
  untar : List UInt8 → Option (List Member)
  /-- `json.dumps` with an indent of two and sorted keys, and the line feed after it. -/
  dumps : Manifest → List UInt8
  loads : List UInt8 → Option Json
  /-- `\d` of a pattern over texts. -/
  isDecimal : Char → Bool
  repr : String → String

/-- What is written is read back. -/
structure Library.Lawful (library : Library) : Prop where
  sha256_length : ∀ bytes, (library.sha256 bytes).length = 32
  gunzip_gzip : ∀ epoch bytes, library.gunzip (library.gzip epoch bytes) = some bytes
  untar_tar : ∀ members, library.untar (library.tar members) = some members
  loads_dumps : ∀ manifest, library.loads (library.dumps manifest) = some manifest.json
  decimal_ascii : ∀ c, c.toNat < 128 → library.isDecimal c = c.isDigit

/-- `hexdigest` of SHA-256. -/
def Library.digest (library : Library) (bytes : List UInt8) : List Char :=
  (library.sha256 bytes).flatMap hexPair

/-! ## The packager -/

/-- `TARGETS`. -/
def targets : List (String × String) :=
  [("aarch64-apple-darwin", ""), ("x86_64-apple-darwin", ""),
    ("x86_64-pc-windows-msvc", ".exe"), ("aarch64-pc-windows-msvc", ".exe")]

/-- One digit or more. -/
def matchNumber (digit : Char → Bool) (text : List Char) : Option (List Char) :=
  if (text.takeWhile digit).isEmpty then none else some (text.dropWhile digit)

def matchDot : List Char → Option (List Char)
  | '.' :: rest => some rest
  | _ => none

/-- `(?:[+-][0-9A-Za-z.-]+)?` up to the end. -/
def matchSuffix : List Char → Bool
  | [] => true
  | c :: rest =>
      (c == '+' || c == '-') && !rest.isEmpty &&
        rest.all fun c => c.isAlphanum || c == '.' || c == '-'

/-- `VERSION.fullmatch`, over the characters that count as digits. -/
def matchVersion (digit : Char → Bool) (text : List Char) : Bool :=
  (((((matchNumber digit text).bind matchDot).bind (matchNumber digit)).bind matchDot).bind
    (matchNumber digit)).any matchSuffix

/-- What the packager finds: the regular files among the binaries, what one prints for
`--version`, the licence, whether the archive exists, and the integer of `SOURCE_DATE_EPOCH`. -/
structure Workspace where
  binary : String → Option (List UInt8)
  observed : List UInt8 → Except String String
  license : List UInt8
  archiveExists : Bool
  epoch : Option Int
  windows : Bool

/-- The archive and the text of the checksum file. -/
structure Artifact where
  archive : List UInt8
  checksum : List Char

/-- The name of the package. -/
def packageName (version target : String) : String := "pam-desktop-" ++ version ++ "-" ++ target

def archiveName (version target : String) : String := packageName version target ++ ".tar.gz"

/-- `FILES` with their contents. -/
def hostFiles (license host launcher : List UInt8) : List (String × List UInt8) :=
  [("LICENSE", license), ("bin/pam-desktop", host), ("bin/pam-desktop-launcher", launcher)]

/-- The manifest of the files. -/
def hostManifest (library : Library) (version target : String)
    (files : List (String × List UInt8)) : Manifest where
  version := version
  target := target
  files := files.map fun (path, bytes) =>
    (path, bytes.length, String.ofList (library.digest bytes))

/-- `add_file`. -/
def addFile (package : String) (file : String × List UInt8) : Member where
  name := package ++ "/" ++ file.1
  mode := if ['b', 'i', 'n', '/'].isPrefixOf file.1.toList then 0o755 else 0o644
  isFile := true
  contents := file.2

/-- The members of the archive. -/
def hostMembers (library : Library) (version target : String)
    (license host launcher : List UInt8) : List Member :=
  let files := hostFiles license host launcher
  let manifest := library.dumps (hostManifest library version target files)
  (files ++ [("manifest.json", manifest)]).map (addFile (packageName version target))

/-- `fail`. -/
def failPackager {α : Type} (message : String) : Except String α :=
  .error ("pam-desktop portable packager: " ++ message)

/-- A binary of the host. -/
def requireBinary (workspace : Workspace) (name file : String) :
    Except String (List UInt8) :=
  match workspace.binary file with
  | some bytes => .ok bytes
  | none => failPackager ("missing or unsafe " ++ name ++ " binary: " ++ file)

/-- `removeprefix`. -/
def removePrefix (front text : String) : String :=
  String.ofList ((text.toList.dropPrefix? front.toList).getD text.toList)

/-- The checksum file; the end of a line is the one of the platform. -/
def checksumText (library : Library) (windows : Bool) (name : String) (archive : List UInt8) :
    List Char :=
  library.digest archive ++ "  ".toList ++ name.toList ++
    (if windows then ['\r', '\n'] else ['\n'])

/-- `main`, for a version and a target. File systems take names of at most 255 characters, and the
time of a compressed archive is a number of 32 bits. -/
def package (library : Library) (workspace : Workspace) (argument target : String) :
    Except String Artifact := do
  let version := removePrefix "v" argument
  match targets.lookup target, matchVersion Char.isDigit version.toList with
  | some suffix, true =>
      match workspace.epoch with
      | some (.ofNat epoch) =>
          let host ← requireBinary workspace "pam-desktop" ("pam-desktop" ++ suffix)
          let launcher ← requireBinary workspace "pam-desktop-launcher"
            ("pam-desktop-launcher" ++ suffix)
          let observed ← workspace.observed host
          if observed ≠ "pam-desktop " ++ version then
            failPackager ("host version mismatch: " ++ library.repr observed)
          else if workspace.archiveExists then
            failPackager ("refusing to replace existing artifact " ++ archiveName version target)
          else if 255 < (archiveName version target ++ ".sha256").length then
            .error "File name too long"
          else if 4294967295 < epoch then
            .error "'L' format requires 0 <= number <= 4294967295"
          else
            let members := hostMembers library version target workspace.license host launcher
            let archive := library.gzip epoch (library.tar members)
            let name := archiveName version target
            .ok ⟨archive, checksumText library workspace.windows name archive⟩
      | _ => failPackager "SOURCE_DATE_EPOCH must be a non-negative integer"
  | _, _ => failPackager "invalid version or unsupported native target"

/-! ## The verifier -/

/-- `fail`. -/
def failVerifier {α : Type} (message : String) : Except String α :=
  .error ("pam-desktop portable verifier: " ++ message)

/-- The characters at which `split()` divides an ASCII text. -/
def isSpace (c : Char) : Bool :=
  (9 ≤ c.toNat && c.toNat ≤ 13) || (28 ≤ c.toNat && c.toNat ≤ 32)

/-- `split()[0]` of a text. -/
def firstWord (text : List Char) : Option (List Char) :=
  match (text.dropWhile isSpace).takeWhile (!isSpace ·) with
  | [] => none
  | word => some word

/-- `PurePosixPath(name).parts`. -/
def posixParts (name : String) : List (List Char) :=
  let parts := (name.toList.splitOn '/').filter fun part => part ≠ [] && part ≠ ['.']
  match name.toList with
  | '/' :: '/' :: '/' :: _ => ['/'] :: parts
  | '/' :: '/' :: _ => ['/', '/'] :: parts
  | '/' :: _ => ['/'] :: parts
  | _ => parts

/-- The first part of every name, if they agree. -/
def commonRoot : List (List (List Char)) → Option (List Char)
  | [] => none
  | parts :: rest =>
      parts.head?.bind fun root => if rest.all (·.head? = some root) then some root else none

/-- A member by its path below the root. -/
def readMember (member : Member) : Except String (List (List Char) × List UInt8) :=
  if member.name.toList.head? = some '/' ∨ ['.', '.'] ∈ posixParts member.name ∨ !member.isFile then
    failVerifier ("unsafe archive member " ++ member.name)
  else .ok ((posixParts member.name).tail, member.contents)

/-- What a dictionary has under a key; of two entries it keeps the last. -/
def getKey {κ α : Type} [DecidableEq κ] (key : κ) (entries : List (κ × α)) : Option α :=
  entries.reverse.lookup key

/-- `manifest.get`. -/
def getMember (name : String) : Json → Option Json
  | .object members => getKey name members
  | _ => none

/-- `expected_files`, as paths. -/
def expectedFiles : List (List (List Char)) :=
  [["LICENSE".toList], ["bin".toList, "pam-desktop".toList],
    ["bin".toList, "pam-desktop-launcher".toList], ["manifest.json".toList]]

/-- The path of a file below the root. -/
def pathText (path : List (List Char)) : String := String.ofList (['/'].intercalate path)

/-- The checks on the manifest but those of the files. -/
def manifestContract (library : Library) (manifest : Json) (target : String) : Bool :=
  (match getMember "schemaVersion" manifest, getMember "apiVersion" manifest,
      getMember "protocolVersion" manifest with
    | some (.number 1), some (.number 1), some (.number 6) => true
    | _, _, _ => false) &&
  (match getMember "target" manifest, getMember "version" manifest with
    | some (.string found), some (.string version) =>
        found == target && matchVersion library.isDecimal version.toList
    | _, _ => false)

/-- The entries of the manifest by their paths. -/
def declaredFiles (manifest : Json) : List (String × Json) :=
  match getMember "files" manifest with
  | some (.array entries) => entries.filterMap fun entry =>
      match getMember "path" entry with
      | some (.string path) => some (path, entry)
      | _ => none
  | _ => []

/-- The check of a file against its entry. -/
def verifyFile (library : Library) (declared : List (String × Json)) (path : List (List Char))
    (payload : List UInt8) : Bool :=
  match (getKey (pathText path) declared).bind (getMember "bytes"),
      (getKey (pathText path) declared).bind (getMember "sha256") with
  | some (.number bytes), some (.string digest) =>
      bytes == payload.length && digest.toList == library.digest payload
  | _, _ => false

/-- `main`, from the contents of the archive on. -/
def verifyFiles (library : Library) (files : List (List (List Char) × List UInt8))
    (target : String) : Except String Unit :=
  if !(files.all (expectedFiles.contains ·.1)) ||
      !(expectedFiles.all (files.map (·.1)).contains) then
    failVerifier "archive file set does not match the portable host contract"
  else
    match (getKey ["manifest.json".toList] files).bind library.loads with
    | none => .error "Expecting value"
    | some manifest =>
        if !manifestContract library manifest target then
          failVerifier "manifest contract mismatch"
        else
          match (expectedFiles.filter (· ≠ ["manifest.json".toList])).find? fun path =>
              !(getKey path files).any (verifyFile library (declaredFiles manifest) path) with
          | some path => failVerifier ("manifest digest mismatch for " ++ pathText path)
          | none => .ok ()

/-- `main`, for an archive, the file next to it and a target. -/
def verify (library : Library) (archive : List UInt8) (checksum : List Char) (target : String) :
    Except String Unit :=
  match firstWord checksum with
  | none => .error "list index out of range"
  | some word =>
      if word.length ≠ 64 || word.map Char.toLower ≠ library.digest archive then
        failVerifier "archive checksum mismatch"
      else
        match (library.gunzip archive).bind library.untar with
        | none => .error "not a gzip file"
        | some members =>
            match commonRoot (members.map (posixParts ·.name)) with
            | none => failVerifier "archive must contain one package root"
            | some _ => do
                let files ← members.mapM readMember
                verifyFiles library files target

/-! ## The launcher -/

/-- `MAX_ARCHIVE_BYTES`. -/
def maxArchiveBytes : Nat := 536870912

/-- `MAX_EXTRACTED_BYTES`. -/
def maxExtractedBytes : Nat := 1073741824

/-- `PHP_OS_FAMILY`. -/
inductive Family where
  | linux | darwin | windows | other
deriving DecidableEq

/-- `fail`. -/
def failLauncher {α : Type} (message : String) : Except String α :=
  .error ("pam-desktop: " ++ message)

/-- `$architecture`, from the machine in lower case. -/
def architecture (machine : String) : Except String String :=
  if machine = "x86_64" ∨ machine = "amd64" then .ok "x86_64"
  else if machine = "arm64" ∨ machine = "aarch64" then .ok "aarch64"
  else failLauncher ("unsupported architecture " ++ machine)

/-- `target`. -/
def target (family : Family) (machine : String) : Except String String := do
  let architecture ← architecture (String.ofList (machine.toList.map Char.toLower))
  match family with
  | .linux =>
      .ok (if architecture = "x86_64" then "x86_64-unknown-linux-gnu"
        else "aarch64-unknown-linux-gnu")
  | .darwin => .ok (architecture ++ "-apple-darwin")
  | .windows =>
      .ok (if architecture = "x86_64" then "x86_64-pc-windows-msvc" else "aarch64-pc-windows-msvc")
  | .other => failLauncher "the native desktop host supports Linux, macOS and Windows"

/-- What can be downloaded. -/
structure Release where
  archive : String → Option (List UInt8)
  checksum : String → Option (List Char)

/-- `$release`. -/
def releaseUrl (version : String) : String :=
  "https://github.com/push-in/pam-desktop/releases/download/v" ++ version

/-- `download`. -/
def download {α : Type} (file : String → Option (List α)) (url : String) :
    Except String (List α) :=
  match file url with
  | none => failLauncher ("cannot download " ++ url)
  | some items =>
      if maxArchiveBytes < items.length then
        failLauncher "native host download exceeds the 512 MiB safety limit"
      else .ok items

/-- The characters that `trim` takes off. -/
def isTrimmed (c : Char) : Bool :=
  c == ' ' || c == '\t' || c == '\n' || c == '\r' || c == '\x00' || c == '\x0b'

/-- The characters at which `strtok` divides. -/
def isBlank (c : Char) : Bool := c == ' ' || c == '\t'

/-- `trim` and `strtok`. -/
def firstToken (text : List Char) : List Char :=
  (((text.dropWhile isTrimmed).rdropWhile isTrimmed).dropWhile isBlank).takeWhile (!isBlank ·)

/-- A member outside the directory that the archive is extracted to. -/
def unsafePath (relative : List Char) : Bool :=
  let parts := relative.splitOn '/'
  relative.isEmpty || relative.head? == some '/' || parts.contains ['.', '.'] ||
    parts.getLast? == some ['.', '.', '\n']

/-- `extractArchive`: the members below the directory of the package. -/
def extractArchive (library : Library) (archive : List UInt8) (package : String) :
    Except String (List Member) :=
  match (library.gunzip archive).bind library.untar with
  | none => failLauncher "cannot extract native host archive"
  | some members =>
      if members.any fun member => unsafePath member.name.toList then
        failLauncher "native host archive contains an unsafe path"
      else if maxExtractedBytes < (members.map (·.contents.length)).sum then
        failLauncher "native host archive exceeds the 1 GiB extraction limit"
      else
        let inside := members.filter fun member =>
          (package ++ "/").toList.isPrefixOf member.name.toList
        if inside.isEmpty then
          failLauncher "native host archive has no expected package directory"
        else .ok inside

/-- The suffix of executables. -/
def suffixOf (family : Family) : String := if family = .windows then ".exe" else ""

/-- `execute`: what is started. Only on Windows a file need not be executable. -/
def execute (family : Family) (binary : Member) : Except String (List UInt8) :=
  if family = .windows ∨ binary.mode / 64 % 2 = 1 then .ok binary.contents
  else failLauncher ("cannot start native host " ++ binary.name)

/-- What the launcher does with what it downloaded, up to the host that it executes. -/
def useArchive (library : Library) (family : Family) (package : String) (archive : List UInt8)
    (checksum : List Char) : Except String (List UInt8) := do
  let expected := (firstToken checksum).map Char.toLower
  if expected.length ≠ 64 ∨ expected ≠ (library.digest archive).map Char.toLower then
    failLauncher "native host archive checksum verification failed"
  else
    let members ← extractArchive library archive package
    match members.find? (·.name = package ++ "/bin/pam-desktop" ++ suffixOf family) with
    | none => failLauncher "verified archive does not contain the native desktop host"
    | some binary => execute family binary

/-- What the launcher of a version does where no host is cached. -/
def install (library : Library) (family : Family) (machine version : String) (release : Release) :
    Except String (List UInt8) := do
  let triple ← target family machine
  let url := releaseUrl version ++ "/" ++ archiveName version triple
  let archive ← download release.archive url
  let checksum ← download release.checksum (url ++ ".sha256")
  useArchive library family (packageName version triple) archive checksum

/-- The archive and its checksum, published as the release of a version. -/
def Artifact.published (artifact : Artifact) (version target : String) : Release :=
  let url := releaseUrl version ++ "/" ++ archiveName version target
  { archive := fun requested => if requested = url then some artifact.archive else none
    checksum := fun requested =>
      if requested = url ++ ".sha256" then some artifact.checksum else none }

/-! ## Digests -/

variable {library : Library}

/-- The digits of a digest. -/
theorem digest_char {bytes : List UInt8} {c : Char} (h : c ∈ library.digest bytes) :
    c.toLower = c ∧ isSpace c = false ∧ isTrimmed c = false ∧ isBlank c = false := by
  obtain ⟨byte, -, hc⟩ := List.mem_flatMap.mp h
  have hdigit : c ∈ hexDigits := by
    rcases List.mem_cons.mp hc with rfl | hc
    · exact get_default_mem (by decide) _
    · exact List.mem_singleton.mp hc ▸ get_default_mem (by decide) _
  have hall : ∀ c ∈ hexDigits,
      (c.toLower == c && !isSpace c && !isTrimmed c && !isBlank c) = true :=
    List.all_eq_true.mp (by decide)
  simpa only [Bool.and_eq_true, beq_iff_eq, Bool.not_eq_true', and_assoc] using hall c hdigit

theorem digest_length (hlibrary : library.Lawful) (bytes : List UInt8) :
    (library.digest bytes).length = 64 := by
  have hpair : ∀ bytes : List UInt8, (bytes.flatMap hexPair).length = 2 * bytes.length := by
    intro bytes
    induction bytes with
    | nil => rfl
    | cons byte rest ih =>
        rw [List.flatMap_cons, List.length_append, ih, List.length_cons]
        show 2 + 2 * rest.length = _
        omega
  rw [Library.digest, hpair, hlibrary.sha256_length]

theorem digest_lower (bytes : List UInt8) :
    (library.digest bytes).map Char.toLower = library.digest bytes :=
  (List.map_congr_left fun _ hc => (digest_char hc).1).trans (List.map_id' _)

/-! ## Versions -/

variable {digit : Char → Bool}

theorem match_number_some {text rest : List Char} (h : matchNumber digit text = some rest) :
    ∃ number, text = number ++ rest ∧ number ≠ [] ∧ ∀ c ∈ number, digit c = true := by
  rw [matchNumber, Option.ite_none_left_eq_some] at h
  obtain ⟨hne, heq⟩ := h
  refine ⟨text.takeWhile digit, ?_, fun hnil => hne (by rw [hnil]; rfl), fun c hc => ?_⟩
  · rw [← Option.some.inj heq, List.takeWhile_append_dropWhile]
  · exact List.mem_takeWhile_imp hc

theorem match_number_append {number rest : List Char} (hne : number ≠ [])
    (hnumber : ∀ c ∈ number, digit c = true) (hrest : ∀ c ∈ rest.head?, digit c = false) :
    matchNumber digit (number ++ rest) = some rest := by
  rw [matchNumber, take_while_append hnumber hrest, drop_while_append hnumber hrest, if_neg]
  simpa using hne

theorem match_dot_some {text rest : List Char} (h : matchDot text = some rest) :
    text = '.' :: rest := by
  unfold matchDot at h
  split at h
  · rw [Option.some.inj h]
  · cases h

/-- What a version is made of. -/
theorem match_version_parts {text : List Char} (h : matchVersion digit text = true) :
    ∃ major minor patch suffix, text = major ++ '.' :: (minor ++ '.' :: (patch ++ suffix)) ∧
      (∀ number ∈ [major, minor, patch], number ≠ [] ∧ ∀ c ∈ number, digit c = true) ∧
      matchSuffix suffix = true := by
  obtain ⟨suffix, hsuffix, hmatch⟩ := (Option.any_eq_true _ _).mp h
  obtain ⟨afterSecond, hsecond, hpatch⟩ := Option.bind_eq_some_iff.mp hsuffix
  obtain ⟨afterMinor, hminor, hdot⟩ := Option.bind_eq_some_iff.mp hsecond
  obtain ⟨afterFirst, hfirst, hnumber⟩ := Option.bind_eq_some_iff.mp hminor
  obtain ⟨afterMajor, hmajor, hfirstDot⟩ := Option.bind_eq_some_iff.mp hfirst
  obtain ⟨major, rfl, hfirstNumber⟩ := match_number_some hmajor
  obtain rfl := match_dot_some hfirstDot
  obtain ⟨minor, rfl, hsecondNumber⟩ := match_number_some hnumber
  obtain rfl := match_dot_some hdot
  obtain ⟨patch, rfl, hthirdNumber⟩ := match_number_some hpatch
  refine ⟨major, minor, patch, suffix, rfl, fun number hnumber => ?_, hmatch⟩
  rcases List.mem_cons.mp hnumber with rfl | hnumber
  · exact hfirstNumber
  · rcases List.mem_cons.mp hnumber with rfl | hnumber
    · exact hsecondNumber
    · exact List.mem_singleton.mp hnumber ▸ hthirdNumber

/-- The characters of a version. -/
theorem version_char {text : List Char} (h : matchVersion Char.isDigit text = true) {c : Char}
    (hc : c ∈ text) : c.isAlphanum = true ∨ c ∈ ['.', '+', '-'] := by
  obtain ⟨major, minor, patch, suffix, rfl, hnumbers, hsuffix⟩ := match_version_parts h
  have hdigit : ∀ number ∈ [major, minor, patch], c ∈ number →
      c.isAlphanum = true ∨ c ∈ ['.', '+', '-'] := by
    intro number hnumber hmem
    refine .inl ?_
    rw [Char.isAlphanum, (hnumbers number hnumber).2 c hmem, Bool.or_true]
  have hrest : c ∈ suffix → c.isAlphanum = true ∨ c ∈ ['.', '+', '-'] := by
    intro hmem
    cases suffix with
    | nil => cases hmem
    | cons first rest =>
        simp only [matchSuffix, Bool.and_eq_true, Bool.or_eq_true, beq_iff_eq,
          List.all_eq_true] at hsuffix
        rcases List.mem_cons.mp hmem with rfl | hmem
        · rcases hsuffix.1.1 with rfl | rfl
          · exact .inr (by decide)
          · exact .inr (by decide)
        · rcases hsuffix.2 c hmem with (halnum | rfl) | rfl
          · exact .inl halnum
          · exact .inr (by decide)
          · exact .inr (by decide)
  simp only [List.mem_append, List.mem_cons] at hc
  rcases hc with hc | rfl | hc | rfl | hc | hc
  · exact hdigit major (by simp) hc
  · exact .inr (by decide)
  · exact hdigit minor (by simp) hc
  · exact .inr (by decide)
  · exact hdigit patch (by simp) hc
  · exact hrest hc

/-- A version is one for whatever counts as a digit besides those of ASCII. -/
theorem version_decimal (hlibrary : library.Lawful) {text : List Char}
    (h : matchVersion Char.isDigit text = true) : matchVersion library.isDecimal text = true := by
  obtain ⟨major, minor, patch, suffix, rfl, hnumbers, hsuffix⟩ := match_version_parts h
  have hdecimal : ∀ number ∈ [major, minor, patch], ∀ c ∈ number, library.isDecimal c = true := by
    intro number hnumber c hc
    have hdigit := (hnumbers number hnumber).2 c hc
    rw [hlibrary.decimal_ascii c (identifier_char_ascii (digit_allowed hdigit))]
    exact hdigit
  have hdot : library.isDecimal '.' = false := hlibrary.decimal_ascii '.' (by decide)
  have hend : ∀ c ∈ suffix.head?, library.isDecimal c = false := by
    intro c hc
    cases suffix with
    | nil => cases hc
    | cons first rest =>
        obtain rfl := Option.some.inj hc
        simp only [matchSuffix, Bool.and_eq_true, Bool.or_eq_true, beq_iff_eq] at hsuffix
        rcases hsuffix.1.1 with rfl | rfl
        · exact hlibrary.decimal_ascii '+' (by decide)
        · exact hlibrary.decimal_ascii '-' (by decide)
  have hnext : ∀ rest : List Char, ∀ c ∈ ('.' :: rest).head?, library.isDecimal c = false :=
    fun rest c hc => Option.some.inj hc ▸ hdot
  rw [matchVersion,
    match_number_append (hnumbers major (by simp)).1 (hdecimal major (by simp)) (hnext _)]
  show ((((matchNumber library.isDecimal _).bind matchDot).bind _).any matchSuffix) = true
  rw [match_number_append (hnumbers minor (by simp)).1 (hdecimal minor (by simp)) (hnext _)]
  show ((matchNumber library.isDecimal _).any matchSuffix) = true
  rw [match_number_append (hnumbers patch (by simp)).1 (hdecimal patch (by simp)) hend]
  exact hsuffix

/-! ## Packaged archives -/

/-- What a packager that succeeds has found and written. -/
structure Packaged (library : Library) (workspace : Workspace) (version triple suffix : String)
    (epoch : Nat) (host launcher : List UInt8) (artifact : Artifact) : Prop where
  listed : targets.lookup triple = some suffix
  valid : matchVersion Char.isDigit version.toList = true
  found : workspace.binary ("pam-desktop" ++ suffix) = some host
  name : (archiveName version triple ++ ".sha256").length ≤ 255
  archive : artifact.archive = library.gzip epoch
    (library.tar (hostMembers library version triple workspace.license host launcher))
  checksum : artifact.checksum =
    checksumText library workspace.windows (archiveName version triple) artifact.archive

theorem require_binary_ok {workspace : Workspace} {name file : String} {bytes : List UInt8}
    (h : requireBinary workspace name file = .ok bytes) : workspace.binary file = some bytes := by
  unfold requireBinary at h
  split at h
  · rename_i found hfound
    rw [hfound, Except.ok.inj h]
  · cases h

theorem package_ok {workspace : Workspace} {argument triple : String} {artifact : Artifact}
    (h : package library workspace argument triple = .ok artifact) :
    ∃ suffix epoch host launcher,
      Packaged library workspace (removePrefix "v" argument) triple suffix epoch host launcher
        artifact := by
  unfold package at h
  dsimp only at h
  split at h
  · rename_i suffix htarget hversion
    split at h
    · rename_i epoch hepoch
      obtain ⟨host, hhost, h⟩ := except_bind_ok.mp h
      obtain ⟨launcher, -, h⟩ := except_bind_ok.mp h
      obtain ⟨observed, -, h⟩ := except_bind_ok.mp h
      split at h
      · cases h
      · split at h
        · cases h
        · split at h
          · cases h
          · rename_i hname
            split at h
            · cases h
            · obtain rfl := Except.ok.inj h
              exact ⟨suffix, epoch, host, launcher, htarget, hversion, require_binary_ok hhost,
                Nat.le_of_not_lt hname, rfl, rfl⟩
    · cases h
  · cases h

/-- The names of members. -/
theorem member_name (package path : String) :
    (package ++ "/" ++ path).toList = package.toList ++ '/' :: path.toList := by
  rw [String.toList_append, String.toList_append, List.append_assoc]
  rfl

/-- The name of a package has no slash. -/
theorem package_plain {version triple suffix : String}
    (hversion : matchVersion Char.isDigit version.toList = true)
    (htarget : targets.lookup triple = some suffix) :
    '/' ∉ (packageName version triple).toList := by
  have htriple : '/' ∉ triple.toList := by
    have hmem : ∀ pair ∈ targets, '/' ∉ pair.1.toList := by decide
    exact hmem _ (mem_of_lookup htarget)
  intro hmem
  simp only [packageName, String.toList_append, List.mem_append] at hmem
  rcases hmem with ((hmem | hmem) | hmem) | hmem
  · exact absurd hmem (by decide)
  · exact absurd (version_char hversion hmem) (by decide)
  · exact absurd hmem (by decide)
  · exact htriple hmem

/-- It begins with a letter. -/
theorem package_head (version triple : String) :
    ∃ rest, (packageName version triple).toList = 'p' :: rest := by
  refine ⟨"am-desktop-".toList ++ version.toList ++ "-".toList ++ triple.toList, ?_⟩
  rw [packageName, String.toList_append, String.toList_append, String.toList_append]
  rfl

theorem posix_parts_inside {package : String} (hplain : '/' ∉ package.toList)
    (hhead : ∃ rest, package.toList = 'p' :: rest) (path : String) :
    posixParts (package ++ "/" ++ path) = package.toList ::
      (path.toList.splitOn '/').filter fun part => part ≠ [] && part ≠ ['.'] := by
  obtain ⟨rest, hrest⟩ := hhead
  have hsplit : (package ++ "/" ++ path).toList.splitOn '/' =
      package.toList :: path.toList.splitOn '/' := by
    rw [member_name, split_append hplain, List.splitOn_cons_eq_if_modifyHead, if_pos (by simp)]
    show (package.toList ++ []) :: _ = _
    rw [List.append_nil]
  have hname : (package ++ "/" ++ path).toList = 'p' :: (rest ++ '/' :: path.toList) := by
    rw [member_name, hrest]
    rfl
  rw [posixParts, hsplit, hname, hrest]
  rfl

/-! ## The verifier on a packaged archive -/

/-- The parts of a path below the root. -/
def partsBelow (path : String) : List (List Char) :=
  (path.toList.splitOn '/').filter fun part => part ≠ [] && part ≠ ['.']

theorem read_member_inside {package : String} (hplain : '/' ∉ package.toList)
    (hhead : ∃ rest, package.toList = 'p' :: rest) {file : String × List UInt8}
    (hfile : ['.', '.'] ∉ partsBelow file.1) :
    readMember (addFile package file) = .ok (partsBelow file.1, file.2) := by
  have hparts : posixParts (addFile package file).name =
      package.toList :: partsBelow file.1 := posix_parts_inside hplain hhead file.1
  obtain ⟨rest, hrest⟩ := hhead
  have hname : (addFile package file).name.toList = 'p' :: (rest ++ '/' :: file.1.toList) := by
    rw [addFile, member_name, hrest]
    rfl
  have hsafe : ¬ ((addFile package file).name.toList.head? = some '/' ∨
      ['.', '.'] ∈ posixParts (addFile package file).name ∨
      !(addFile package file).isFile) := by
    rw [hname, hparts, hrest, List.mem_cons]
    rintro (hslash | (hdots | hdots) | hfile)
    · cases hslash
    · cases hdots
    · exact hfile hdots
    · cases hfile
  rw [readMember, if_neg hsafe, hparts]
  rfl

theorem read_members_inside {package : String} (hplain : '/' ∉ package.toList)
    (hhead : ∃ rest, package.toList = 'p' :: rest)
    {files : List (String × List UInt8)} (hfiles : ∀ file ∈ files, ['.', '.'] ∉ partsBelow file.1) :
    (files.map (addFile package)).mapM readMember =
      .ok (files.map fun file => (partsBelow file.1, file.2)) := by
  induction files with
  | nil => rfl
  | cons file rest ih =>
      rw [List.map_cons, List.mapM_cons,
        read_member_inside hplain hhead (hfiles file List.mem_cons_self),
        ih fun other hother => hfiles other (List.mem_cons_of_mem file hother)]
      rfl

/-- The word in front of two blanks. -/
theorem first_word_append {word rest : List Char} (hne : word ≠ [])
    (hword : ∀ c ∈ word, isSpace c = false) : firstWord (word ++ ' ' :: rest) = some word := by
  obtain ⟨c, tail, rfl⟩ := List.exists_cons_of_ne_nil hne
  have hdrop : ((c :: tail) ++ ' ' :: rest).dropWhile isSpace = (c :: tail) ++ ' ' :: rest :=
    List.dropWhile_cons_of_neg (by simp [hword c List.mem_cons_self])
  have htake : ((c :: tail) ++ ' ' :: rest).takeWhile (!isSpace ·) = c :: tail :=
    take_while_append (fun other hother => by simp [hword other hother])
      fun other hother => by rw [← Option.some.inj hother]; rfl
  rw [firstWord, hdrop, htake]

theorem common_root_inside {package : String} (hplain : '/' ∉ package.toList)
    (hhead : ∃ rest, package.toList = 'p' :: rest)
    {files : List (String × List UInt8)} (hne : files ≠ []) :
    commonRoot ((files.map (addFile package)).map (posixParts ·.name)) =
      some package.toList := by
  have hparts : (files.map (addFile package)).map (posixParts ·.name) =
      files.map fun file => package.toList :: partsBelow file.1 := by
    rw [List.map_map]
    exact List.map_congr_left fun file _ => posix_parts_inside hplain hhead file.1
  obtain ⟨file, rest, rfl⟩ := List.exists_cons_of_ne_nil hne
  rw [hparts, List.map_cons, commonRoot]
  simp

/-- The manifest of packaged files keeps its contract. -/
theorem manifest_contract_holds (hlibrary : library.Lawful) {version triple : String}
    (hversion : matchVersion Char.isDigit version.toList = true)
    (files : List (String × List UInt8)) :
    manifestContract library (hostManifest library version triple files).json triple = true := by
  have hdecimal := version_decimal hlibrary hversion
  have hschema : getMember "schemaVersion" (hostManifest library version triple files).json =
      some (.number 1) := rfl
  have hapi : getMember "apiVersion" (hostManifest library version triple files).json =
      some (.number 1) := rfl
  have hprotocol : getMember "protocolVersion" (hostManifest library version triple files).json =
      some (.number 6) := rfl
  have htarget : getMember "target" (hostManifest library version triple files).json =
      some (.string triple) := rfl
  have hname : getMember "version" (hostManifest library version triple files).json =
      some (.string version) := rfl
  rw [manifestContract, hschema, hapi, hprotocol, htarget, hname]
  simp [hdecimal]

/-- The files of a package and its manifest, by their paths below the root. -/
def packedFiles (license host launcher manifest : List UInt8) :
    List (List (List Char) × List UInt8) :=
  [(["LICENSE".toList], license), (["bin".toList, "pam-desktop".toList], host),
    (["bin".toList, "pam-desktop-launcher".toList], launcher), (["manifest.json".toList], manifest)]

theorem parts_of_names : partsBelow "LICENSE" = ["LICENSE".toList] ∧
    partsBelow "bin/pam-desktop" = ["bin".toList, "pam-desktop".toList] ∧
    partsBelow "bin/pam-desktop-launcher" = ["bin".toList, "pam-desktop-launcher".toList] ∧
    partsBelow "manifest.json" = ["manifest.json".toList] := by
  decide

theorem names_safe : unsafePath "LICENSE".toList = false ∧
    unsafePath "bin/pam-desktop".toList = false ∧
    unsafePath "bin/pam-desktop-launcher".toList = false ∧
    unsafePath "manifest.json".toList = false := by
  decide

/-- A file and its entry in the manifest. -/
theorem verify_entry {declared : List (String × Json)} {path : List (List Char)} {name : String}
    {payload : List UInt8} (h : getKey (pathText path) declared = some (.object
      [("bytes", .number payload.length), ("path", .string name),
        ("sha256", .string (String.ofList (library.digest payload)))])) :
    verifyFile library declared path payload = true := by
  rw [verifyFile, h]
  show ((payload.length : Int) == payload.length &&
    (String.ofList (library.digest payload)).toList == library.digest payload) = true
  rw [String.toList_ofList, beq_self_eq_true, beq_self_eq_true, Bool.and_true]

/-- Every file has its entry in the manifest. -/
theorem files_verified (version triple : String) (license host launcher manifest : List UInt8) :
    (expectedFiles.filter (· ≠ ["manifest.json".toList])).find? (fun path =>
      !(getKey path (packedFiles license host launcher manifest)).any (verifyFile library
        (declaredFiles (hostManifest library version triple
          (hostFiles license host launcher)).json) path)) = none := by
  have hpaths : expectedFiles.filter (· ≠ ["manifest.json".toList]) =
      [["LICENSE".toList], ["bin".toList, "pam-desktop".toList],
        ["bin".toList, "pam-desktop-launcher".toList]] := by decide
  have hlicense : getKey ["LICENSE".toList] (packedFiles license host launcher manifest) =
      some license := rfl
  have hhost : getKey ["bin".toList, "pam-desktop".toList]
      (packedFiles license host launcher manifest) = some host := rfl
  have hlauncher : getKey ["bin".toList, "pam-desktop-launcher".toList]
      (packedFiles license host launcher manifest) = some launcher := rfl
  rw [hpaths, List.find?_eq_none]
  intro path hpath
  simp only [List.mem_cons, List.not_mem_nil, or_false] at hpath
  rcases hpath with rfl | rfl | rfl
  · rw [hlicense, Option.any_some, verify_entry rfl]; decide
  · rw [hhost, Option.any_some, verify_entry rfl]; decide
  · rw [hlauncher, Option.any_some, verify_entry rfl]; decide

/-- The verifier accepts the files. -/
theorem contents_verified (hlibrary : library.Lawful) {version triple : String}
    (hversion : matchVersion Char.isDigit version.toList = true)
    (license host launcher : List UInt8) :
    verifyFiles library (packedFiles license host launcher (library.dumps
      (hostManifest library version triple (hostFiles license host launcher)))) triple =
      .ok () := by
  have hset : ∀ manifest : List UInt8,
      (!((packedFiles license host launcher manifest).all (expectedFiles.contains ·.1)) ||
        !(expectedFiles.all ((packedFiles license host launcher manifest).map (·.1)).contains)) =
      false := fun _ => rfl
  have hmanifest : ∀ manifest : Manifest, (getKey ["manifest.json".toList]
      (packedFiles license host launcher (library.dumps manifest))).bind library.loads =
      some manifest.json := hlibrary.loads_dumps
  rw [verifyFiles, hset, hmanifest]
  simp only [manifest_contract_holds hlibrary hversion, files_verified, Bool.not_true,
    Bool.false_eq_true, if_false]

/-- The verifier accepts what the packager wrote. -/
theorem verify_packed (hlibrary : library.Lawful) {workspace : Workspace}
    {version triple suffix : String} {epoch : Nat} {host launcher : List UInt8}
    {artifact : Artifact}
    (h : Packaged library workspace version triple suffix epoch host launcher artifact) :
    verify library artifact.archive artifact.checksum triple = .ok () := by
  have hplain := package_plain h.valid h.listed
  have hhead := package_head version triple
  have hdigest := digest_length hlibrary artifact.archive
  have hword : firstWord artifact.checksum = some (library.digest artifact.archive) := by
    rw [h.checksum, checksumText, List.append_assoc, List.append_assoc]
    refine first_word_append (fun hnil => ?_) fun c hc => (digest_char hc).2.1
    rw [hnil] at hdigest
    cases hdigest
  have hmembers : (library.gunzip artifact.archive).bind library.untar =
      some (hostMembers library version triple workspace.license host launcher) := by
    rw [h.archive, hlibrary.gunzip_gzip]
    exact hlibrary.untar_tar _
  have hread : (hostMembers library version triple workspace.license host launcher).mapM
      readMember = .ok (packedFiles workspace.license host launcher
        (library.dumps (hostManifest library version triple
          (hostFiles workspace.license host launcher)))) := by
    obtain ⟨hlicense, hhost, hlauncher, hmanifest⟩ := parts_of_names
    refine (read_members_inside hplain hhead ?_).trans (congrArg Except.ok ?_)
    · intro file hfile
      simp only [hostFiles, List.cons_append, List.nil_append, List.mem_cons, List.not_mem_nil,
        or_false] at hfile
      rcases hfile with rfl | rfl | rfl | rfl
      · rw [hlicense]; decide
      · rw [hhost]; decide
      · rw [hlauncher]; decide
      · rw [hmanifest]; decide
    · show [(partsBelow "LICENSE", _), (partsBelow "bin/pam-desktop", _),
        (partsBelow "bin/pam-desktop-launcher", _), (partsBelow "manifest.json", _)] = _
      rw [hlicense, hhost, hlauncher, hmanifest]
      rfl
  have hroot : commonRoot ((hostMembers library version triple workspace.license host
      launcher).map (posixParts ·.name)) = some (packageName version triple).toList :=
    common_root_inside hplain hhead (List.cons_ne_nil _ _)
  simp only [verify, hword, digest_lower, hdigest, hmembers, hroot, hread, ne_eq, not_true_eq_false,
    decide_false, Bool.or_false, Bool.false_eq_true, if_false]
  exact contents_verified hlibrary h.valid workspace.license host launcher

/-! ## The launcher on a packaged archive -/

/-- The suffix of the platform is the one of its target. -/
theorem suffix_of_target {family : Family} {machine triple suffix : String}
    (htarget : target family machine = .ok triple) (hlisted : targets.lookup triple = some suffix) :
    suffixOf family = suffix := by
  obtain ⟨architecture, harchitecture, h⟩ := except_bind_ok.mp htarget
  have hknown : architecture = "x86_64" ∨ architecture = "aarch64" := by
    unfold Launcher.architecture at harchitecture
    split at harchitecture
    · exact .inl (Except.ok.inj harchitecture).symm
    · split at harchitecture
      · exact .inr (Except.ok.inj harchitecture).symm
      · cases harchitecture
  cases family with
  | linux =>
      obtain rfl := Except.ok.inj h
      rcases hknown with rfl | rfl
      · cases (show none = some suffix from hlisted)
      · cases (show none = some suffix from hlisted)
  | darwin =>
      obtain rfl := Except.ok.inj h
      rcases hknown with rfl | rfl
      · exact Option.some.inj hlisted
      · exact Option.some.inj hlisted
  | windows =>
      obtain rfl := Except.ok.inj h
      rcases hknown with rfl | rfl
      · exact Option.some.inj hlisted
      · exact Option.some.inj hlisted
  | other => cases h

/-- The word in front of two blanks. -/
theorem first_token_append {word rest line : List Char} (hne : word ≠ [])
    (hword : ∀ c ∈ word, isTrimmed c = false ∧ isBlank c = false)
    (hlast : ∀ c ∈ (' ' :: rest).getLast?, isTrimmed c = false)
    (hline : ∀ c ∈ line, isTrimmed c = true) :
    firstToken (word ++ ' ' :: rest ++ line) = word := by
  obtain ⟨c, tail, rfl⟩ := List.exists_cons_of_ne_nil hne
  obtain ⟨htrimmed, hblank⟩ := hword c List.mem_cons_self
  have hfirst : ((c :: tail) ++ ' ' :: rest ++ line).dropWhile isTrimmed =
      (c :: tail) ++ ' ' :: rest ++ line := List.dropWhile_cons_of_neg (by simp [htrimmed])
  have htrim : ((c :: tail) ++ ' ' :: rest ++ line).rdropWhile isTrimmed =
      (c :: tail) ++ ' ' :: rest :=
    rdrop_while_append hline fun last h =>
      hlast last (by rwa [List.getLast?_append_of_ne_nil _ (List.cons_ne_nil _ _)] at h)
  have hdrop : ((c :: tail) ++ ' ' :: rest).dropWhile isBlank = (c :: tail) ++ ' ' :: rest :=
    List.dropWhile_cons_of_neg (by simp [hblank])
  rw [firstToken, hfirst, htrim, hdrop]
  exact take_while_append (fun other hother => by simp [hword other hother])
    fun other hother => by rw [← Option.some.inj hother]; rfl

/-- A member below the directory of the package. -/
theorem inside_safe {package : String} (hplain : '/' ∉ package.toList)
    (hhead : ∃ rest, package.toList = 'p' :: rest) {path : String}
    (hpath : unsafePath path.toList = false) :
    unsafePath (package ++ "/" ++ path).toList = false := by
  obtain ⟨rest, hrest⟩ := hhead
  have hsplit : (package ++ "/" ++ path).toList.splitOn '/' =
      package.toList :: path.toList.splitOn '/' := by
    rw [member_name, split_append hplain, List.splitOn_cons_eq_if_modifyHead, if_pos (by simp)]
    show (package.toList ++ []) :: _ = _
    rw [List.append_nil]
  have hname : (package ++ "/" ++ path).toList = 'p' :: (rest ++ '/' :: path.toList) := by
    rw [member_name, hrest]
    rfl
  simp only [unsafePath, Bool.or_eq_false_iff] at hpath ⊢
  obtain ⟨⟨-, hdots⟩, hlast⟩ := hpath
  have hpieces := List.splitOn_ne_nil '/' path.toList
  refine ⟨⟨⟨by rw [hname]; rfl, by rw [hname]; rfl⟩, ?_⟩, ?_⟩
  · rw [hsplit, List.contains_cons, hdots, hrest]
    rfl
  · rw [hsplit, List.getLast?_cons_of_ne_nil hpieces]
    exact hlast

/-- Whether the members of an archive, all in one directory, are extracted. -/
theorem extract_packed (hlibrary : library.Lawful) {package : String}
    (hplain : '/' ∉ package.toList) (hhead : ∃ rest, package.toList = 'p' :: rest)
    {epoch : Nat} {files : List (String × List UInt8)} (hne : files ≠ [])
    (hsafe : ∀ file ∈ files, unsafePath file.1.toList = false) :
    extractArchive library (library.gzip epoch (library.tar (files.map (addFile package))))
        package =
      if maxExtractedBytes < (files.map (·.2.length)).sum then
        failLauncher "native host archive exceeds the 1 GiB extraction limit"
      else .ok (files.map (addFile package)) := by
  have hread : (library.gunzip (library.gzip epoch
      (library.tar (files.map (addFile package))))).bind library.untar =
      some (files.map (addFile package)) := by
    rw [hlibrary.gunzip_gzip]
    exact hlibrary.untar_tar _
  have hnone : (files.map (addFile package)).any
      (fun member => unsafePath member.name.toList) = false := by
    rw [List.any_eq_false]
    intro member hmember
    obtain ⟨file, hfile, rfl⟩ := List.mem_map.mp hmember
    rw [addFile, inside_safe hplain hhead (hsafe file hfile)]
    exact Bool.false_ne_true
  have hsizes : (files.map (addFile package)).map (·.contents.length) =
      files.map (·.2.length) := List.map_map
  have hinside : (files.map (addFile package)).filter (fun member =>
      (package ++ "/").toList.isPrefixOf member.name.toList) =
      files.map (addFile package) := by
    rw [List.filter_eq_self]
    intro member hmember
    obtain ⟨file, -, rfl⟩ := List.mem_map.mp hmember
    rw [List.isPrefixOf_iff_prefix]
    exact ⟨file.1.toList, by simp [addFile]⟩
  have hsome : (files.map (addFile package)).isEmpty = false := by
    rw [List.isEmpty_eq_false_iff]
    exact fun hnil => hne (List.map_eq_nil_iff.mp hnil)
  simp only [extractArchive, hread, hnone, hsizes, hinside, hsome, Bool.false_eq_true, if_false]

/-- Two members of a package have the same name only if they have the same path. -/
theorem member_name_iff (package first second : String) :
    package ++ "/" ++ first = package ++ "/" ++ second ↔ first = second := by
  rw [← String.toList_inj, member_name, member_name, List.append_cancel_left_eq, List.cons_eq_cons,
    and_iff_right rfl, String.toList_inj]

/-- The host is found where the executables of the platform have no suffix. -/
theorem find_host (package : String) (license host launcher manifest : List UInt8)
    {suffix : String} (hsuffix : suffix = "" ∨ suffix = ".exe") :
    ((hostFiles license host launcher ++ [("manifest.json", manifest)]).map
        (addFile package)).find? (·.name = package ++ "/bin/pam-desktop" ++ suffix) =
      if suffix = "" then some (addFile package ("bin/pam-desktop", host)) else none := by
  have hname : ∀ suffix, package ++ "/bin/pam-desktop" ++ suffix =
      package ++ "/" ++ ("bin/pam-desktop" ++ suffix) := by
    intro suffix
    rw [← String.toList_inj]
    simp
  have hfind : ∀ path, ((hostFiles license host launcher ++ [("manifest.json", manifest)]).map
      (addFile package)).find? (·.name = package ++ "/" ++ path) =
      ((hostFiles license host launcher ++ [("manifest.json", manifest)]).find?
        (·.1 = path)).map (addFile package) := by
    intro path
    rw [List.find?_map]
    refine congrArg _ (congrArg (List.find? · _) ?_)
    funext file
    exact decide_eq_decide.mpr (member_name_iff package file.1 path)
  rw [hname, hfind]
  rcases hsuffix with rfl | rfl
  · rfl
  · rfl

theorem download_ok {α : Type} {file : String → Option (List α)} {url : String}
    {items : List α} (h : file url = some items) {found : List α} :
    download file url = .ok found ↔ items = found ∧ items.length ≤ maxArchiveBytes := by
  simp only [download, h]
  split
  · rename_i hlong
    exact iff_of_false (fun hok => nomatch hok) fun hfound => absurd hlong (by omega)
  · rename_i hshort
    rw [Except.ok.injEq]
    exact ⟨fun heq => ⟨heq, Nat.le_of_not_lt hshort⟩, And.left⟩

/-- The checksum file is short, and the launcher finds the digest in it. -/
theorem checksum_read (hlibrary : library.Lawful) {windows : Bool} {version triple : String}
    {archive : List UInt8} (hname : (archiveName version triple ++ ".sha256").length ≤ 255) :
    (checksumText library windows (archiveName version triple) archive).length ≤ maxArchiveBytes ∧
      firstToken (checksumText library windows (archiveName version triple) archive) =
        library.digest archive := by
  have hdigest := digest_length hlibrary archive
  have hline : ∀ c ∈ (if windows then ['\r', '\n'] else ['\n'] : List Char),
      isTrimmed c = true :=
    List.all_eq_true.mp (by cases windows <;> rfl)
  constructor
  · have hend : (if windows then ['\r', '\n'] else ['\n'] : List Char).length ≤ 2 := by
      cases windows <;> decide
    have hlength : (archiveName version triple).toList.length ≤ 255 := by
      rw [String.length_append] at hname
      rw [String.length_toList]
      omega
    simp only [checksumText, List.length_append, hdigest, maxArchiveBytes]
    show 64 + 2 + _ + _ ≤ 536870912
    omega
  · have hlast : ∀ c ∈ (' ' :: ' ' :: (archiveName version triple).toList).getLast?,
        isTrimmed c = false := by
      intro c hc
      have hz : (' ' :: ' ' :: (archiveName version triple).toList).getLast? = some 'z' := by
        rw [archiveName, String.toList_append, ← List.cons_append, ← List.cons_append,
          List.getLast?_append_of_ne_nil _ (by decide)]
        rfl
      rw [hz] at hc
      exact Option.some.inj hc ▸ rfl
    have htoken := first_token_append (fun hnil => by rw [hnil] at hdigest; cases hdigest)
      (fun c hc => (digest_char hc).2.2) hlast hline
    rw [← htoken, checksumText]
    exact congrArg firstToken (by simp)

/-- What the launcher makes of a packaged archive that it has downloaded. -/
theorem use_packed (hlibrary : library.Lawful) {workspace : Workspace}
    {version triple suffix : String} {epoch : Nat} {host launcher : List UInt8}
    {artifact : Artifact}
    (h : Packaged library workspace version triple suffix epoch host launcher artifact)
    {family : Family} (hsuffix : suffixOf family = suffix) :
    useArchive library family (packageName version triple) artifact.archive artifact.checksum =
        .ok host ↔
      suffix = "" ∧
        ((hostMembers library version triple workspace.license host launcher).map
          (·.contents.length)).sum ≤ maxExtractedBytes := by
  have hdigest := digest_length hlibrary artifact.archive
  have htoken : firstToken artifact.checksum = library.digest artifact.archive := by
    rw [h.checksum]
    exact (checksum_read hlibrary h.name).2
  have hchecked : ¬ ((library.digest artifact.archive).length ≠ 64 ∨
      library.digest artifact.archive ≠ library.digest artifact.archive) := by
    rw [hdigest]
    exact fun hbad => hbad.elim (fun hlength => hlength rfl) fun hdiffer => hdiffer rfl
  have hsafe : ∀ file ∈ hostFiles workspace.license host launcher ++ [("manifest.json",
      library.dumps (hostManifest library version triple
        (hostFiles workspace.license host launcher)))],
      unsafePath file.1.toList = false := by
    intro file hfile
    simp only [hostFiles, List.cons_append, List.nil_append, List.mem_cons, List.not_mem_nil,
      or_false] at hfile
    obtain ⟨hlicense, hhost, hlauncher, hmanifest⟩ := names_safe
    rcases hfile with rfl | rfl | rfl | rfl
    · exact hlicense
    · exact hhost
    · exact hlauncher
    · exact hmanifest
  have hne : hostFiles workspace.license host launcher ++ [("manifest.json",
      library.dumps (hostManifest library version triple
        (hostFiles workspace.license host launcher)))] ≠ [] := List.cons_ne_nil _ _
  have hends : suffix = "" ∨ suffix = ".exe" := by
    rw [← hsuffix, suffixOf]
    split
    · exact .inr rfl
    · exact .inl rfl
  have hsizes : ∀ files : List (String × List UInt8),
      ((files.map (addFile (packageName version triple))).map (·.contents.length)) =
        files.map (·.2.length) := fun _ => List.map_map
  rw [useArchive, htoken, digest_lower, if_neg hchecked, h.archive, hostMembers, hsizes,
    extract_packed hlibrary (package_plain h.valid h.listed) (package_head version triple) hne
      hsafe]
  split
  · rename_i hlarge
    exact iff_of_false (fun hok => nomatch hok) fun hfits => absurd hlarge (by omega)
  · rename_i hfits
    rw [and_iff_left (Nat.le_of_not_lt hfits)]
    show (match List.find? _ _ with
      | none => failLauncher _
      | some binary => execute family binary) = .ok host ↔ suffix = ""
    rw [hsuffix, find_host _ _ _ _ _ hends]
    split
    · rename_i hnone
      exact iff_of_false (fun hok => nomatch hok) fun hempty => by
        rw [if_pos hempty] at hnone
        cases hnone
    · rename_i binary hbinary
      obtain ⟨hempty, hmember⟩ := Option.ite_none_right_eq_some.mp hbinary
      obtain rfl := Option.some.inj hmember
      have hbinary : ['b', 'i', 'n', '/'].isPrefixOf "bin/pam-desktop".toList = true := by decide
      have hmode : (addFile (packageName version triple) ("bin/pam-desktop", host)).mode = 0o755 :=
        if_pos hbinary
      exact iff_of_true (if_pos (.inr (by rw [hmode]))) hempty

/-- What the launcher of the platform makes of a packaged archive. -/
theorem install_packed (hlibrary : library.Lawful) {workspace : Workspace}
    {version triple suffix : String} {epoch : Nat} {host launcher : List UInt8}
    {artifact : Artifact}
    (h : Packaged library workspace version triple suffix epoch host launcher artifact)
    {family : Family} {machine : String} (htarget : target family machine = .ok triple) :
    install library family machine version (artifact.published version triple) = .ok host ↔
      suffix = "" ∧ artifact.archive.length ≤ maxArchiveBytes ∧
        ((hostMembers library version triple workspace.license host launcher).map
          (·.contents.length)).sum ≤ maxExtractedBytes := by
  have huse := use_packed hlibrary h (suffix_of_target htarget h.listed)
  have hshort : artifact.checksum.length ≤ maxArchiveBytes := by
    rw [h.checksum]
    exact (checksum_read hlibrary h.name).1
  have harchive : (artifact.published version triple).archive
      (releaseUrl version ++ "/" ++ archiveName version triple) = some artifact.archive :=
    if_pos rfl
  have hchecksum : (artifact.published version triple).checksum
      (releaseUrl version ++ "/" ++ archiveName version triple ++ ".sha256") =
      some artifact.checksum := if_pos rfl
  rw [install, htarget]
  show (download _ _ >>= fun archive => download _ _ >>= fun checksum =>
    useArchive library family (packageName version triple) archive checksum) = .ok host ↔ _
  simp only [except_bind_ok, download_ok harchive, download_ok hchecksum]
  constructor
  · rintro ⟨_, ⟨rfl, hlength⟩, _, ⟨rfl, -⟩, hused⟩
    obtain ⟨hnone, hextracted⟩ := huse.mp hused
    exact ⟨hnone, hlength, hextracted⟩
  · rintro ⟨hnone, hlength, hextracted⟩
    exact ⟨_, ⟨rfl, hlength⟩, _, ⟨rfl, hshort⟩, huse.mpr ⟨hnone, hextracted⟩⟩

/-- What the files in an archive take. -/
def Artifact.extracted (library : Library) (artifact : Artifact) : Nat :=
  (((library.gunzip artifact.archive).bind library.untar).map fun members =>
    (members.map (·.contents.length)).sum).getD 0

/-- The verifier accepts every archive that the packager has written, and the launcher of the
platform executes the packaged host, exactly if the executables of the target have no suffix and
the archive keeps the limits of the launcher. -/
theorem host_archive_installs_iff (hlibrary : library.Lawful) {workspace : Workspace}
    {argument triple : String} {artifact : Artifact}
    (hpackage : package library workspace argument triple = .ok artifact) {family : Family}
    {machine : String} (htarget : target family machine = .ok triple) :
    let version := removePrefix "v" argument
    ∃ suffix host, targets.lookup triple = some suffix ∧
      workspace.binary ("pam-desktop" ++ suffix) = some host ∧
      ((verify library artifact.archive artifact.checksum triple = .ok () ∧
          install library family machine version (artifact.published version triple) = .ok host) ↔
        suffix = "" ∧ artifact.archive.length ≤ maxArchiveBytes ∧
          artifact.extracted library ≤ maxExtractedBytes) := by
  obtain ⟨suffix, epoch, host, launcher, h⟩ := package_ok hpackage
  have hextracted : artifact.extracted library =
      ((hostMembers library (removePrefix "v" argument) triple workspace.license host
        launcher).map (·.contents.length)).sum := by
    rw [Artifact.extracted, h.archive, hlibrary.gunzip_gzip]
    show ((library.untar _).map _).getD 0 = _
    rw [hlibrary.untar_tar]
    rfl
  refine ⟨suffix, host, h.listed, h.found, ?_⟩
  rw [and_iff_right (verify_packed hlibrary h), install_packed hlibrary h htarget, hextracted]

/-! ## Stored archives -/

/-- Texts of bytes, each after its length. -/
def pack : List (List UInt8) → List UInt8
  | [] => []
  | piece :: rest => List.replicate piece.length 1 ++ 0 :: (piece ++ pack rest)

/-- The texts that have been packed. -/
def unpack : Nat → List UInt8 → Option (List (List UInt8))
  | _, [] => some []
  | 0, _ => none
  | fuel + 1, bytes =>
      let length := (bytes.takeWhile (· == 1)).length
      let rest := (bytes.dropWhile (· == 1)).drop 1
      (unpack fuel (rest.drop length)).map (rest.take length :: ·)

theorem unpack_pack {pieces : List (List UInt8)} {fuel : Nat} (h : pieces.length ≤ fuel) :
    unpack fuel (pack pieces) = some pieces := by
  induction pieces generalizing fuel with
  | nil => cases fuel <;> rfl
  | cons piece rest ih =>
      rw [List.length_cons] at h
      obtain ⟨fuel, rfl⟩ : ∃ less, fuel = less + 1 := ⟨fuel - 1, by omega⟩
      have hones : ∀ byte ∈ List.replicate piece.length (1 : UInt8), (byte == 1) = true :=
        fun byte hbyte => by rw [List.eq_of_mem_replicate hbyte]; rfl
      have hzero : ∀ byte ∈ ((0 : UInt8) :: (piece ++ pack rest)).head?, (byte == 1) = false :=
        fun byte hbyte => by rw [← Option.some.inj hbyte]; rfl
      have hne : pack (piece :: rest) ≠ [] :=
        List.append_ne_nil_of_right_ne_nil _ (List.cons_ne_nil _ _)
      obtain ⟨first, bytes, hbytes⟩ := List.exists_cons_of_ne_nil hne
      have hstep : unpack (fuel + 1) (pack (piece :: rest)) =
          (unpack fuel ((piece ++ pack rest).drop piece.length)).map
            ((piece ++ pack rest).take piece.length :: ·) := by
        rw [hbytes, unpack, ← hbytes, pack, take_while_append hones hzero,
          drop_while_append hones hzero, List.length_replicate]
        · rfl
        · exact List.cons_ne_nil first bytes
      rw [hstep, List.drop_left, List.take_left, ih (Nat.le_of_succ_le_succ h)]
      rfl

theorem length_le_pack (pieces : List (List UInt8)) : pieces.length ≤ (pack pieces).length := by
  induction pieces with
  | nil => exact Nat.le_refl 0
  | cons piece rest ih =>
      rw [pack, List.length_cons, List.length_append, List.length_cons, List.length_append]
      omega

/-- The parts of members. -/
def memberPieces (members : List Member) : List (List UInt8) :=
  members.flatMap fun member => [osString member.name, List.replicate member.mode 0,
    if member.isFile then [1] else [], member.contents]

/-- The members of such parts. -/
def piecesMembers : List (List UInt8) → Option (List Member)
  | [] => some []
  | name :: mode :: kind :: contents :: rest => do
      let name ← String.fromUTF8? ⟨name.toArray⟩
      let rest ← piecesMembers rest
      return ⟨name, mode.length, !kind.isEmpty, contents⟩ :: rest
  | _ => none

theorem members_read (members : List Member) :
    piecesMembers (memberPieces members) = some members := by
  induction members with
  | nil => rfl
  | cons member rest ih =>
      have hkind : (if member.isFile then ([1] : List UInt8) else []).isEmpty = !member.isFile := by
        cases member.isFile <;> rfl
      rw [memberPieces] at ih
      simp only [memberPieces, List.flatMap_cons, List.cons_append, List.nil_append, piecesMembers,
        from_utf8_os_string, ih, List.length_replicate, hkind, Bool.not_not, Option.bind_eq_bind,
        Option.bind_some]
      rfl

/-- The parts of a manifest. -/
def manifestPieces (manifest : Manifest) : List (List UInt8) :=
  osString manifest.version :: osString manifest.target ::
    manifest.files.flatMap fun (path, bytes, sha256) =>
      [osString path, List.replicate bytes 0, osString sha256]

/-- The files of such parts. -/
def piecesFiles : List (List UInt8) → Option (List (String × Nat × String))
  | [] => some []
  | path :: bytes :: sha256 :: rest => do
      let path ← String.fromUTF8? ⟨path.toArray⟩
      let sha256 ← String.fromUTF8? ⟨sha256.toArray⟩
      let rest ← piecesFiles rest
      return (path, bytes.length, sha256) :: rest
  | _ => none

/-- The manifest of such parts. -/
def piecesManifest : List (List UInt8) → Option Manifest
  | version :: target :: files => do
      let version ← String.fromUTF8? ⟨version.toArray⟩
      let target ← String.fromUTF8? ⟨target.toArray⟩
      let files ← piecesFiles files
      return ⟨version, target, files⟩
  | _ => none

theorem files_read (files : List (String × Nat × String)) :
    piecesFiles (files.flatMap fun (path, bytes, sha256) =>
      [osString path, List.replicate bytes 0, osString sha256]) = some files := by
  induction files with
  | nil => rfl
  | cons file rest ih =>
      obtain ⟨path, bytes, sha256⟩ := file
      simp only [List.flatMap_cons, List.cons_append, List.nil_append, piecesFiles,
        from_utf8_os_string, ih, List.length_replicate, Option.bind_eq_bind, Option.bind_some]
      rfl

theorem manifest_read (manifest : Manifest) :
    piecesManifest (manifestPieces manifest) = some manifest := by
  simp only [manifestPieces, piecesManifest, from_utf8_os_string, files_read,
    Option.bind_eq_bind, Option.bind_some]
  rfl

/-- A library that stores what it packs. -/
def storingLibrary : Library where
  sha256 _ := List.replicate 32 0
  gzip _ bytes := bytes
  gunzip := some
  tar members := pack (memberPieces members)
  untar bytes := (unpack bytes.length bytes).bind piecesMembers
  dumps manifest := pack (manifestPieces manifest)
  loads bytes := ((unpack bytes.length bytes).bind piecesManifest).map Manifest.json
  isDecimal := Char.isDigit
  repr text := text

theorem storing_lawful : storingLibrary.Lawful where
  sha256_length _ := List.length_replicate
  gunzip_gzip _ _ := rfl
  untar_tar members :=
    (congrArg (Option.bind · piecesMembers) (unpack_pack (length_le_pack _))).trans
      (members_read members)
  loads_dumps manifest :=
    congrArg (Option.map Manifest.json)
      ((congrArg (Option.bind · piecesManifest)
        (unpack_pack (length_le_pack (manifestPieces manifest)))).trans (manifest_read manifest))
  decimal_ascii _ _ := rfl

/-- Two binaries of a version, for any target. -/
def builtBinaries (version : String) : Workspace where
  binary
    | "pam-desktop" | "pam-desktop.exe" => some [1, 2, 3]
    | "pam-desktop-launcher" | "pam-desktop-launcher.exe" => some [4, 5]
    | _ => none
  observed _ := .ok ("pam-desktop " ++ version)
  license := [6]
  archiveExists := false
  epoch := some 0
  windows := false

/-- The archive of the binaries. -/
def builtArchive (version triple : String) : Artifact :=
  let archive := storingLibrary.tar (hostMembers storingLibrary version triple [6] [1, 2, 3] [4, 5])
  ⟨archive, checksumText storingLibrary false (archiveName version triple) archive⟩

/-- A release candidate for macOS. -/
theorem macos_host_installs :
    package storingLibrary (builtBinaries "1.3.4-rc.1") "v1.3.4-rc.1" "x86_64-apple-darwin" =
        .ok (builtArchive "1.3.4-rc.1" "x86_64-apple-darwin") ∧
      install storingLibrary .darwin "x86_64" "1.3.4-rc.1"
        ((builtArchive "1.3.4-rc.1" "x86_64-apple-darwin").published "1.3.4-rc.1"
          "x86_64-apple-darwin") = .ok [1, 2, 3] := by
  have hpackage : package storingLibrary (builtBinaries "1.3.4-rc.1") "v1.3.4-rc.1"
      "x86_64-apple-darwin" = .ok (builtArchive "1.3.4-rc.1" "x86_64-apple-darwin") := rfl
  have htarget : target .darwin "x86_64" = .ok "x86_64-apple-darwin" := rfl
  have hsizes : (builtArchive "1.3.4-rc.1" "x86_64-apple-darwin").archive.length ≤
        maxArchiveBytes ∧
      (builtArchive "1.3.4-rc.1" "x86_64-apple-darwin").extracted storingLibrary ≤
        maxExtractedBytes := by
    decide +kernel
  obtain ⟨suffix, host, hsuffix, hhost, hiff⟩ :=
    host_archive_installs_iff storing_lawful hpackage htarget
  obtain rfl : "" = suffix := Option.some.inj hsuffix
  obtain rfl : [1, 2, 3] = host := Option.some.inj hhost
  exact ⟨hpackage, (hiff.mpr ⟨rfl, hsizes⟩).2⟩

/-- On Windows the launcher looks for a name that the packager has not given the host. -/
theorem windows_host_missing :
    package storingLibrary (builtBinaries "1.3.4") "1.3.4" "x86_64-pc-windows-msvc" =
        .ok (builtArchive "1.3.4" "x86_64-pc-windows-msvc") ∧
      target .windows "AMD64" = .ok "x86_64-pc-windows-msvc" ∧
      install storingLibrary .windows "AMD64" "1.3.4"
        ((builtArchive "1.3.4" "x86_64-pc-windows-msvc").published "1.3.4"
          "x86_64-pc-windows-msvc") =
        .error "pam-desktop: verified archive does not contain the native desktop host" := by
  refine ⟨rfl, rfl, ?_⟩
  decide +kernel

end PamDesktop.Launcher
