import PamDesktop.Protocol.Manifest

/-!
# Verification of a bundle directory

`verifyBundle` and `verifyReplacement` as the update helper runs them on a directory tree: the
manifest is read and validated, and then every file of the tree is matched against the files it
declares. `Host` collects what lies outside the source: the build, SHA-256, the JSON parser and
the programs the helper starts.
-/

namespace PamDesktop.Updater

open Foundations Protocol

/-- `MAX_BUNDLE_MANIFEST_BYTES`. -/
def maxBundleManifestBytes : Nat := 10 * 1024 * 1024

/-- One file that a bundle manifest declares. -/
structure InstalledBundleFile where
  path : String
  bytes : Nat
  sha256 : String

/-- The part of a bundle's `manifest.json` that the updater reads. -/
structure InstalledBundleManifest where
  schemaVersion : Nat
  protocolVersion : Nat
  application : ApplicationManifest
  files : List InstalledBundleFile

/-- The journal of a swap in progress, bound to the archive it installs. -/
structure UpdateTransaction where
  schemaVersion : Nat
  archiveSha256 : String
deriving DecidableEq

/-- How an external program ended. -/
structure ExitStatus where
  success : Bool
  text : String

/-- What the updater runs on: the build, the crates it links and the programs it starts.
`extract` lists the entries an archive unpacks to, and `processExists pid poll` is the answer of
the process table to the given poll. -/
structure Host extends Build where
  parentDirectory : String
  sha256 : List UInt8 → String
  parseBundleManifest : List UInt8 → Except String InstalledBundleManifest
  encodeTransaction : UpdateTransaction → List UInt8
  decodeTransaction : List UInt8 → Except String UpdateTransaction
  codesign : Option Node → Except String ExitStatus
  extract : List UInt8 → Except String (List (OsString × Node))
  processExists : Nat → Nat → Except String Bool
  spawn : String → Except String Unit

/-- The reasons for which a file operation is refused. -/
inductive IoError where
  | notFound | alreadyExists | notADirectory | isADirectory | directoryNotEmpty | unreadable
deriving DecidableEq

/-- The text of a refusal, as the standard library prints it on Linux. -/
def IoError.text : IoError → String
  | .notFound => "No such file or directory (os error 2)"
  | .alreadyExists => "File exists (os error 17)"
  | .notADirectory => "Not a directory (os error 20)"
  | .isADirectory => "Is a directory (os error 21)"
  | .directoryNotEmpty => "Directory not empty (os error 39)"
  | .unreadable => "Invalid argument (os error 22)"

/-- What a path that ends at this node resolves to. -/
def followed : Option Node → Option Node
  | some (.symlink target) => target
  | node => node

/-- The node that `name` leads to inside a directory, links in the directory's place followed. -/
def child (name : OsString) (node : Option Node) : Option Node :=
  (followed node).bind (Node.entry name)

/-- Open a file, links followed, and read it whole. -/
def readFile (node : Option Node) : Except IoError (List UInt8) :=
  match followed node with
  | none => .error .notFound
  | some (.file bytes) => .ok bytes
  | some (.directory _) => .error .isADirectory
  | some _ => .error .unreadable

/-- A path below a root, for messages. -/
def displayPath (root : String) (relative : List OsString) : String :=
  "/".intercalate (root :: relative.map toStringLossy)

/-- The path of a file relative to the bundle, for messages. -/
def displayRelative (relative : List OsString) : String :=
  "/".intercalate (relative.map toStringLossy)

/-- `validate_relative_path`, keeping the components of the accepted path. -/
def validateRelativePath (host : Host) (path label : String) : Except String (List OsString) :=
  match normalComponents host.separator (host.operatingSystem == .windows) (osString path) with
  | some components => .ok components
  | none => .error (label ++ " must be a normalized relative path")

/-- `verify_file_hash`, on the contents of the file. -/
def verifyFileHash (host : Host) (path : String) (bytes : List UInt8) (expected : String) :
    Except String Unit :=
  if host.sha256 bytes ≠ expected then .error ("SHA-256 mismatch for " ++ path) else .ok ()

/-- The files that a manifest declares, by path. A path may be declared once. -/
def declaredFiles (host : Host) (expected : List (List OsString × Nat × String)) :
    List InstalledBundleFile → Except String (List (List OsString × Nat × String))
  | [] => .ok expected
  | file :: rest => do
      let relative ← validateRelativePath host file.path "bundle file"
      if (expected.map Prod.fst).contains relative then
        .error ("bundle manifest path " ++ debugText file.path ++ " is duplicated")
      else declaredFiles host ((relative, file.bytes, file.sha256) :: expected) rest

mutual

/-- `bundle_files`: every file of the tree with its relative path, except the manifest at the
root. Links and special files are refused. -/
def bundleFiles (root : String) (directory : List OsString) :
    List (OsString × Node) → Except String (List (List OsString × List UInt8))
  | [] => .ok []
  | item :: rest => do
      let inside ← entryFiles root directory item
      let others ← bundleFiles root directory rest
      .ok (inside ++ others)
termination_by structural entries => entries

/-- The part of `bundle_files` for one directory entry. -/
def entryFiles (root : String) (directory : List OsString) :
    OsString × Node → Except String (List (List OsString × List UInt8))
  | (name, node) => nodeFiles root directory name node
termination_by structural item => item

/-- The part of `bundle_files` for one type of file. -/
def nodeFiles (root : String) (directory : List OsString) (name : OsString) :
    Node → Except String (List (List OsString × List UInt8))
  | .symlink _ =>
      .error ("bundle contains a symbolic link: " ++ displayPath root (directory ++ [name]))
  | .directory entries => bundleFiles root (directory ++ [name]) entries
  | .file bytes =>
      if directory = [] ∧ name = osString "manifest.json" then .ok []
      else .ok [(directory ++ [name], bytes)]
  | .special =>
      .error ("bundle contains a special file: " ++ displayPath root (directory ++ [name]))
termination_by structural node => node

end

/-- Match the files of the tree one by one against those still expected. -/
def matchFiles (host : Host) (root : String) (expected : List (List OsString × Nat × String)) :
    List (List OsString × List UInt8) → Except String (List (List OsString × Nat × String))
  | [] => .ok expected
  | (relative, bytes) :: rest =>
      match expected.lookup relative with
      | none => .error ("bundle contains an undeclared file: " ++ displayRelative relative)
      | some (length, sha256) => do
          if bytes.length ≠ length then
            .error ("bundle file size mismatch: " ++ displayRelative relative)
          verifyFileHash host (displayPath root relative) bytes sha256
          matchFiles host root (expected.filter fun item => item.1 ≠ relative) rest

/-- The first half of `verify_bundle`: read, parse and validate `manifest.json`. -/
def readBundleManifest (host : Host) (tree : Option Node) :
    Except String InstalledBundleManifest := do
  let source ←
    match readFile (child (osString "manifest.json") tree) with
    | .ok source => .ok source
    | .error .notFound => .error ("cannot open bundle manifest: " ++ IoError.notFound.text)
    | .error error => .error ("cannot read bundle manifest: " ++ error.text)
  if maxBundleManifestBytes < source.length then
    .error "bundle manifest exceeds the size limit"
  let manifest ←
    match host.parseBundleManifest source with
    | .ok manifest => .ok manifest
    | .error error => .error ("invalid bundle manifest: " ++ error)
  if manifest.schemaVersion ≠ 1 ∨ manifest.protocolVersion ≠ Protocol.protocolVersion then
    .error "bundle manifest uses an unsupported schema or protocol"
  manifest.application.validate host.toBuild
  .ok manifest

/-- `verify_bundle`. -/
def verifyBundle (host : Host) (root : String) (tree : Option Node) : Except String Unit := do
  let manifest ← readBundleManifest host tree
  let expected ← declaredFiles host [] manifest.files
  let actual ←
    match followed tree with
    | some (.directory entries) => bundleFiles root [] entries
    | _ => .error ("cannot inspect bundle directory: " ++ IoError.notADirectory.text)
  if actual.length ≠ expected.length then
    .error "bundle contents do not match the signed artifact manifest"
  let missing ← matchFiles host root expected actual
  if missing ≠ [] then .error "bundle is missing files declared by its manifest"

/-- Where the bundle proper lies inside a directory of this name: the runtime of a macOS
application, otherwise the directory itself. -/
def bundleRoot (fileName : OsString) (tree : Option Node) : Option Node :=
  if extension fileName = some (osString "app") then
    child (osString "runtime") (child (osString "Resources") (child (osString "Contents") tree))
  else tree

/-- `verify_replacement`, on the directory at a path with this file name. -/
def verifyReplacement (host : Host) (fileName : OsString) (root : String) (tree : Option Node) :
    Except String Unit :=
  if extension fileName = some (osString "app") then do
    if host.operatingSystem ≠ .macos then
      .error "macOS application updates cannot be installed on this platform"
    match host.codesign tree with
    | .error error => .error ("cannot start macOS signature verification: " ++ error)
    | .ok status =>
        if !status.success then
          .error ("macOS application signature verification failed with status " ++ status.text)
    verifyBundle host (root ++ "/Contents/Resources/runtime") (bundleRoot fileName tree)
  else verifyBundle host root tree

/-- An accepted bundle has a manifest that reads, parses and validates. -/
theorem verify_bundle_manifest {host : Host} {root : String} {tree : Option Node}
    (h : verifyBundle host root tree = .ok ()) :
    ∃ manifest, readBundleManifest host tree = .ok manifest := by
  unfold verifyBundle at h
  cases hread : readBundleManifest host tree with
  | ok manifest => exact ⟨manifest, rfl⟩
  | error error => simp [hread, bind, Except.bind] at h

/-- An accepted replacement has a manifest at its bundle root. -/
theorem verify_replacement_manifest {host : Host} {fileName : OsString} {root : String}
    {tree : Option Node} (h : verifyReplacement host fileName root tree = .ok ()) :
    ∃ manifest, readBundleManifest host (bundleRoot fileName tree) = .ok manifest := by
  unfold verifyReplacement at h
  by_cases happ : extension fileName = some (osString "app")
  · rw [if_pos happ] at h
    simp only [bind, Except.bind] at h
    repeat' split at h
    all_goals first
      | cases h
      | exact verify_bundle_manifest h
  · rw [if_neg happ] at h
    rw [bundleRoot, if_neg happ]
    exact verify_bundle_manifest h

/-- Away from macOS applications, the name of a directory does not decide what it is. -/
theorem verify_replacement_plain {host : Host} {fileName : OsString} (root : String)
    (tree : Option Node) (h : extension fileName ≠ some (osString "app")) :
    verifyReplacement host fileName root tree = verifyBundle host root tree := by
  rw [verifyReplacement, if_neg h]

/-! ## Where the bundle lies

The path of a bundle is used for messages and for the extension of its last component. -/

mutual

/-- The root only appears in the messages of `bundle_files`. -/
theorem bundle_files_root {root root' : String} : ∀ {directory : List OsString}
    {entries : List (OsString × Node)} {files : List (List OsString × List UInt8)},
    bundleFiles root directory entries = .ok files →
    bundleFiles root' directory entries = .ok files
  | _, [], _, h => by simpa [bundleFiles] using h
  | directory, item :: rest, files, h => by
      simp only [bundleFiles, bind, Except.bind] at h ⊢
      cases hitem : entryFiles root directory item with
      | error error => simp [hitem] at h
      | ok inside =>
          cases hrest : bundleFiles root directory rest with
          | error error => simp [hitem, hrest] at h
          | ok others =>
              rw [entry_files_root hitem, bundle_files_root hrest]
              simpa [hitem, hrest] using h

theorem entry_files_root {root root' : String} : ∀ {directory : List OsString}
    {item : OsString × Node} {files : List (List OsString × List UInt8)},
    entryFiles root directory item = .ok files → entryFiles root' directory item = .ok files
  | _, (name, node), _, h => by
      simp only [entryFiles] at h ⊢
      exact node_files_root h

theorem node_files_root {root root' : String} : ∀ {directory : List OsString} {name : OsString}
    {node : Node} {files : List (List OsString × List UInt8)},
    nodeFiles root directory name node = .ok files → nodeFiles root' directory name node = .ok files
  | _, _, .directory entries, _, h => by
      simp only [nodeFiles] at h ⊢
      exact bundle_files_root h
  | _, _, .file bytes, _, h => by simpa [nodeFiles] using h
  | _, _, .symlink target, _, h => by simp [nodeFiles] at h
  | _, _, .special, _, h => by simp [nodeFiles] at h

end

/-- The same for the comparison of the files. -/
theorem match_files_root {host : Host} {root : String} (root' : String)
    {expected missing : List (List OsString × Nat × String)}
    {actual : List (List OsString × List UInt8)}
    (h : matchFiles host root expected actual = .ok missing) :
    matchFiles host root' expected actual = .ok missing := by
  induction actual generalizing expected with
  | nil => simpa [matchFiles] using h
  | cons file rest ih =>
      obtain ⟨relative, bytes⟩ := file
      simp only [matchFiles, verifyFileHash, bind, Except.bind] at h ⊢
      cases hdeclared : expected.lookup relative with
      | none => simp [hdeclared] at h
      | some declared =>
          obtain ⟨length, sha256⟩ := declared
          by_cases hlength : bytes.length = length
          · by_cases hsha : host.sha256 bytes = sha256
            · simp only [hdeclared, hlength, hsha, ne_eq, not_true_eq_false, ite_false] at h ⊢
              exact ih h
            · simp [hdeclared, hlength, hsha] at h
          · simp [hdeclared, hlength] at h

/-- A bundle is accepted wherever it lies. -/
theorem verify_bundle_root {host : Host} {root : String} (root' : String) {tree : Option Node}
    (h : verifyBundle host root tree = .ok ()) : verifyBundle host root' tree = .ok () := by
  unfold verifyBundle at h ⊢
  simp only [except_bind_ok] at h ⊢
  obtain ⟨manifest, hmanifest, expected, hexpected, h⟩ := h
  refine ⟨manifest, hmanifest, expected, hexpected, ?_⟩
  cases htree : followed tree with
  | none => simp [htree, bind, Except.bind] at h
  | some node =>
      cases node with
      | file _ | symlink _ | special => simp [htree, bind, Except.bind] at h
      | directory entries =>
          simp only [htree, except_bind_ok] at h ⊢
          obtain ⟨actual, hactual, h⟩ := h
          refine ⟨actual, bundle_files_root hactual, ?_⟩
          by_cases hcount : actual.length = expected.length
          · simp only [hcount, ne_eq, not_true_eq_false, ite_false, except_bind_ok] at h ⊢
            obtain ⟨missing, hmatch, hmissing⟩ := h
            exact ⟨missing, match_files_root root' hmatch, hmissing⟩
          · simp [hcount, bind, Except.bind] at h

end PamDesktop.Updater
