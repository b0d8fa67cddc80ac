import Mathlib.Data.List.Forall2
import PamDesktop.Foundations.PathText
import PamDesktop.Updater.Inventory

/-!
# The manifest that the packager writes

`write_bundle_manifest` with its own walk over the bundle. The packager leaves out every file named
`manifest.json`, the updater only the one at the root, and the packager replaces backslashes in
paths. `packaged_bundle_iff` says for which trees the two still agree.
-/

namespace PamDesktop.Packager

open Foundations Protocol Updater

/-- `BundleFile`. -/
structure BundleFile where
  path : String
  bytes : Nat
  sha256 : String
deriving DecidableEq

/-- `RuntimeManifest`. -/
structure RuntimeManifest where
  pamDesktop : String
  pam : String
deriving DecidableEq

/-- `TargetManifest`. -/
structure TargetManifest where
  operatingSystem : String
  architecture : String
  abi : String
deriving DecidableEq

/-- `BundleManifest`. -/
structure BundleManifest where
  schemaVersion : Nat
  apiVersion : Nat
  protocolVersion : Nat
  application : ApplicationManifest
  runtime : RuntimeManifest
  target : TargetManifest
  sourceDateEpoch : Nat
  files : List BundleFile
deriving DecidableEq

/-- What the packager runs on besides the host: how it was built, the answer of `pam --version`,
the variable SOURCE_DATE_EPOCH and the JSON encoder. -/
structure Tools extends Host where
  targetEnvironment : String
  packageVersion : String
  binaryVersion : Except String String
  configuredSourceDateEpoch : Except String (Option Nat)
  encode : BundleManifest → Except String (List UInt8)

/-- `PUBLIC_API_VERSION`. -/
def publicApiVersion : Nat := 1

/-- `DEFAULT_SOURCE_DATE_EPOCH`. -/
def defaultSourceDateEpoch : Nat := 0

/-- `source_date_epoch`. -/
def sourceDateEpoch (tools : Tools) : Except String Nat := do
  let configured ← tools.configuredSourceDateEpoch
  .ok (configured.getD defaultSourceDateEpoch)

/-- `target_abi`. -/
def targetAbi (tools : Tools) : String :=
  if tools.operatingSystem = .windows ∧ tools.targetEnvironment = "msvc" then "msvc"
  else if tools.operatingSystem = .windows then "gnu"
  else if tools.operatingSystem = .macos then "darwin"
  else if tools.targetEnvironment = "musl" then "musl"
  else "glibc"

/-- The separator that paths are built with. -/
def nativeSeparator (host : Host) : UInt8 := if host.operatingSystem = .windows then 92 else 47

/-- `portable_relative`, on the components of the path below the root. -/
def portableRelative (host : Host) (root : String) (relative : List OsString) :
    Except String String :=
  match String.fromUTF8? ⟨(joinNames (nativeSeparator host) relative).toArray⟩ with
  | none => .error ("bundle path is not valid UTF-8: " ++ displayPath root relative)
  | some value => .ok (replaceChar '\\' '/' value)

mutual

/-- `visit` of `bundle_files`. Links and special files are passed over. -/
def visit (host : Host) (root : String) (directory : List OsString) :
    List (OsString × Node) → Except String (List BundleFile)
  | [] => .ok []
  | item :: rest => do
      let inside ← visitEntry host root directory item
      let others ← visit host root directory rest
      .ok (inside ++ others)
termination_by structural entries => entries

/-- The part of `visit` for one directory entry. -/
def visitEntry (host : Host) (root : String) (directory : List OsString) :
    OsString × Node → Except String (List BundleFile)
  | (name, node) => visitNode host root directory name node
termination_by structural item => item

/-- The part of `visit` for one type of file. -/
def visitNode (host : Host) (root : String) (directory : List OsString) (name : OsString) :
    Node → Except String (List BundleFile)
  | .directory entries => visit host root (directory ++ [name]) entries
  | .file bytes =>
      if name = osString "manifest.json" then .ok []
      else do
        let path ← portableRelative host root (directory ++ [name])
        .ok [⟨path, bytes.length, host.sha256 bytes⟩]
  | .symlink _ => .ok []
  | .special => .ok []
termination_by structural node => node

end

/-- `bundle_files`. -/
def bundleFiles (host : Host) (root : String) (entries : List (OsString × Node)) :
    Except String (List BundleFile) := do
  let files ← visit host root [] entries
  .ok (files.mergeSort fun left right => left.path ≤ right.path)

/-- Put a node under a name in a directory, in the place of what was there. -/
def setEntry (name : OsString) (node : Node) : List (OsString × Node) → List (OsString × Node)
  | [] => [(name, node)]
  | item :: rest => if item.1 = name then (name, node) :: rest else item :: setEntry name node rest

/-- What `fs::write` leaves of a node, or why it fails. -/
def overwrite (bytes : List UInt8) : Option Node → Except IoError Node
  | none => .ok (.file bytes)
  | some (.file _) => .ok (.file bytes)
  | some (.directory _) => .error .isADirectory
  | some (.symlink (some (.directory _))) => .error .isADirectory
  | some (.symlink (some .special)) => .ok (.symlink (some .special))
  | some (.symlink _) => .ok (.symlink (some (.file bytes)))
  | some .special => .ok .special

/-- `write_bundle_manifest`: the entries of the bundle directory afterwards. -/
def writeBundleManifest (tools : Tools) (root : String) (application : ApplicationManifest)
    (entries : List (OsString × Node)) : Except String (List (OsString × Node)) := do
  let epoch ← sourceDateEpoch tools
  let files ← bundleFiles tools.toHost root entries
  let manifest : BundleManifest :=
    { schemaVersion := 1
      apiVersion := publicApiVersion
      protocolVersion := Protocol.protocolVersion
      application := application
      runtime :=
        { pamDesktop := tools.packageVersion
          pam := match tools.binaryVersion with
            | .ok version => version
            | .error _ => "unknown" }
      target :=
        { operatingSystem := tools.operatingSystem.name
          architecture := tools.architecture
          abi := targetAbi tools }
      sourceDateEpoch := epoch
      files := files }
  match tools.encode manifest with
  | .error error => .error ("cannot serialize bundle manifest: " ++ error)
  | .ok encoded =>
      match overwrite encoded ((Node.directory entries).entry (osString "manifest.json")) with
      | .error error => .error ("cannot write bundle manifest: " ++ error.text)
      | .ok node => .ok (setEntry (osString "manifest.json") node entries)

/-! ## What the claim is about -/

/-- A file name that the target allows, in UTF-8. -/
structure ValidName (host : Host) (name : OsString) : Prop where
  text : ∃ value : String, osString value = name
  normal : NormalName host.separator (host.operatingSystem == .windows) name

/-- The updater reads back what the packager encodes. -/
def Decodes (tools : Tools) : Prop :=
  ∀ manifest bytes, tools.encode manifest = .ok bytes →
    tools.parseBundleManifest bytes = .ok
      ⟨manifest.schemaVersion, manifest.protocolVersion, manifest.application,
        manifest.files.map fun file => ⟨file.path, file.bytes, file.sha256⟩⟩

/-- The manifest of a bundle directory, if it is a regular file, is within the size limit. -/
def WithinLimit (entries : List (OsString × Node)) : Prop :=
  ∀ bytes, (Node.directory entries).entry (osString "manifest.json") = some (.file bytes) →
    bytes.length ≤ maxBundleManifestBytes

/-- Some file has other contents, is gone or has been added. -/
inductive Tampered (files files' : List FileAt) : Prop where
  | changed (path bytes bytes') : (path, bytes) ∈ files → (path, bytes') ∈ files' →
      bytes ≠ bytes' → Tampered files files'
  | removed (path bytes) : (path, bytes) ∈ files → path ∉ files'.map Prod.fst →
      Tampered files files'
  | added (path bytes) : (path, bytes) ∈ files' → path ∉ files.map Prod.fst →
      Tampered files files'

/-- No two different contents among these files have one digest. -/
def CollisionFree (host : Host) (files files' : List FileAt) : Prop :=
  ∀ file ∈ files, ∀ file' ∈ files', host.sha256 file.2 = host.sha256 file'.2 → file.2 = file'.2

/-- The bundle is accepted, and after any change to its files it is not. -/
structure Guarded (host : Host) (entries : List (OsString × Node)) : Prop where
  accepted : ∀ root, verifyBundle host root (some (.directory entries)) = .ok ()
  tamper : ∀ root entries', (Node.directory entries').Distinct →
    child (osString "manifest.json") (some (.directory entries')) =
      child (osString "manifest.json") (some (.directory entries)) →
    CollisionFree host (contents entries) (contents entries') →
    Tampered (contents entries) (contents entries') →
    verifyBundle host root (some (.directory entries')) ≠ .ok ()

/-- No file below the root directory is named like the manifest, and no path that is not on
Windows has a backslash. -/
def Portable (host : Host) (entries : List (OsString × Node)) : Prop :=
  ∀ file ∈ contents entries, file.1.getLast? ≠ some (osString "manifest.json") ∧
    (host.operatingSystem ≠ .windows → ∀ name ∈ file.1, (92 : UInt8) ∉ name)

/-! ## Tampering -/

/-- What changes in a verified bundle is seen, whoever wrote its manifest. -/
theorem tampered_not_verified {host : Host} {root root' : String}
    {entries entries' : List (OsString × Node)} (hdistinct : (Node.directory entries).Distinct)
    (hdistinct' : (Node.directory entries').Distinct)
    (hmanifest : child (osString "manifest.json") (some (.directory entries')) =
      child (osString "manifest.json") (some (.directory entries)))
    (hcollision : CollisionFree host (contents entries) (contents entries'))
    (h : verifyBundle host root (some (.directory entries)) = .ok ())
    (htampered : Tampered (contents entries) (contents entries')) :
    verifyBundle host root' (some (.directory entries')) ≠ .ok () := by
  intro h'
  have hperm := verified_records hdistinct hdistinct' hmanifest.symm h h'
  have hthere : ∀ file ∈ contents entries, ∃ file' ∈ contents entries',
      file'.1 = file.1 ∧ host.sha256 file'.2 = host.sha256 file.2 := by
    intro file hfile
    obtain ⟨file', hfile', hrecord⟩ :=
      List.mem_map.mp (hperm.subset (List.mem_map_of_mem hfile))
    simp only [recordOf, Prod.mk.injEq] at hrecord
    exact ⟨file', hfile', hrecord.1, hrecord.2.2⟩
  cases htampered with
  | changed path bytes bytes' hfile hfile' hne =>
      obtain ⟨file', hmem, hpath, hsha⟩ := hthere _ hfile
      have hsame : file' = (path, bytes') :=
        List.inj_on_of_nodup_map (contents_nodup hdistinct') hmem hfile' hpath
      rw [hsame] at hsha
      exact hne (hcollision _ hfile _ hfile' hsha.symm)
  | removed path bytes hfile hgone =>
      obtain ⟨file', hmem, hpath, -⟩ := hthere _ hfile
      exact hgone (List.mem_map.mpr ⟨file', hmem, hpath⟩)
  | added path bytes hfile hnew =>
      obtain ⟨file, hmem, hrecord⟩ :=
        List.mem_map.mp (hperm.symm.subset (List.mem_map_of_mem hfile))
      simp only [recordOf, Prod.mk.injEq] at hrecord
      exact hnew (List.mem_map.mpr ⟨file, hmem, hrecord.1⟩)

/-! ## The walk of the packager -/

/-- The packager lists the file. -/
def isListed (file : FileAt) : Bool := file.1.getLast? ≠ some (osString "manifest.json")

/-- An entry of the manifest describes a file. -/
structure Lists (host : Host) (root : String) (file : FileAt) (entry : BundleFile) : Prop where
  path : portableRelative host root file.1 = .ok entry.path
  bytes : entry.bytes = file.2.length
  sha256 : entry.sha256 = host.sha256 file.2

mutual

/-- A successful walk lists every file that is not named like the manifest. -/
theorem visit_ok {host : Host} {root : String} : ∀ {directory : List OsString}
    {entries : List (OsString × Node)} {files : List BundleFile},
    visit host root directory entries = .ok files →
      List.Forall₂ (Lists host root) ((placed directory (filesBelow entries)).filter isListed) files
  | _, [], files, h => by
      rw [visit] at h
      cases h
      exact List.Forall₂.nil
  | directory, item :: rest, files, h => by
      rw [visit] at h
      obtain ⟨inside, hinside, h⟩ := except_bind_ok.mp h
      obtain ⟨others, hothers, h⟩ := except_bind_ok.mp h
      cases h
      rw [filesBelow, placed_append, List.filter_append]
      exact List.rel_append (visit_entry_ok hinside) (visit_ok hothers)

theorem visit_entry_ok {host : Host} {root : String} : ∀ {directory : List OsString}
    {item : OsString × Node} {files : List BundleFile},
    visitEntry host root directory item = .ok files →
      List.Forall₂ (Lists host root) ((placed directory (filesUnder item)).filter isListed) files
  | directory, (name, node), files, h => by
      rw [visitEntry] at h
      rw [placed_under]
      exact visit_node_ok h

theorem visit_node_ok {host : Host} {root : String} : ∀ {directory : List OsString}
    {name : OsString} {node : Node} {files : List BundleFile},
    visitNode host root directory name node = .ok files →
      List.Forall₂ (Lists host root)
        ((placed (directory ++ [name]) (filesAt node)).filter isListed) files
  | directory, name, .directory entries, files, h => by
      rw [visitNode] at h
      rw [filesAt]
      exact visit_ok h
  | directory, name, .file bytes, files, h => by
      rw [visitNode] at h
      have hplaced : placed (directory ++ [name]) (filesAt (.file bytes)) =
          [(directory ++ [name], bytes)] := by
        simp [placed, filesAt]
      rw [hplaced]
      split at h
      · rename_i hname
        cases h
        rw [hname, List.filter_cons_of_neg (by simp [isListed])]
        exact List.Forall₂.nil
      · rename_i hname
        obtain ⟨path, hpath, h⟩ := except_bind_ok.mp h
        cases h
        rw [List.filter_cons_of_pos (by simpa [isListed] using hname)]
        exact List.Forall₂.cons ⟨hpath, rfl, rfl⟩ List.Forall₂.nil
  | directory, name, .symlink target, files, h => by
      rw [visitNode] at h
      cases h
      exact List.Forall₂.nil
  | directory, name, .special, files, h => by
      rw [visitNode] at h
      cases h
      exact List.Forall₂.nil

end

/-! ## Paths in the manifest -/

/-- No path in the manifest has a backslash. -/
theorem portable_no_backslash {host : Host} {root : String} {relative : List OsString}
    {path : String} (h : portableRelative host root relative = .ok path) :
    (92 : UInt8) ∉ osString path := by
  unfold portableRelative at h
  split at h
  · cases h
  · cases h
    rw [os_string_replace_char (by decide) (by decide)]
    intro hmem
    obtain ⟨byte, -, hbyte⟩ := List.mem_map.mp hmem
    split at hbyte
    · exact absurd hbyte (by decide)
    · rename_i hne
      exact hne hbyte

/-- A path whose names have no backslash is read back from the manifest. -/
theorem portable_relative_valid {host : Host} {root : String} {relative : List OsString}
    {path : String} (hne : relative ≠ []) (hnames : ∀ name ∈ relative, ValidName host name)
    (hbackslash : ∀ name ∈ relative, (92 : UInt8) ∉ name)
    (h : portableRelative host root relative = .ok path) (label : String) :
    validateRelativePath host path label = .ok relative := by
  unfold portableRelative at h
  split at h
  · cases h
  · rename_i value hvalue
    cases h
    have hjoined : osString (replaceChar '\\' '/' value) = joinNames 47 relative := by
      rw [os_string_replace_char (by decide) (by decide), os_string_from_utf8 hvalue]
      have hkeep : ∀ name ∈ relative, ∀ byte ∈ name,
          (if byte = UInt8.ofNat ('\\').toNat then UInt8.ofNat ('/').toNat else byte) = byte := by
        intro name hname byte hbyte
        apply if_neg
        rintro rfl
        exact hbackslash name hname hbyte
      rw [join_names_map _ hkeep]
      congr 1
      unfold nativeSeparator
      split <;> decide
    have hcomponents : normalComponents host.separator (host.operatingSystem == .windows)
        (joinNames 47 relative) = some relative :=
      normal_components_join (by simp [Build.separator]) (by decide) hne
        fun name hname => (hnames name hname).normal
    rw [validateRelativePath, hjoined, hcomponents]

/-! ## The tree with its manifest -/

theorem valid_manifest_name (host : Host) : ValidName host (osString "manifest.json") where
  text := ⟨"manifest.json", rfl⟩
  normal := by
    have hplain : ∀ byte ∈ osString "manifest.json", byte ≠ 47 ∧ byte ≠ 92 ∧ byte ≠ 58 := by
      decide +kernel
    refine ⟨by decide, by decide, by decide, ?_, fun _ h => (hplain 58 h).2.2 rfl⟩
    intro byte hbyte
    simp [Build.separator, (hplain byte hbyte).1, (hplain byte hbyte).2.1]

theorem set_entry_entry (name : OsString) (node : Node) (entries : List (OsString × Node)) :
    (Node.directory (setEntry name node entries)).entry name = some node := by
  induction entries with
  | nil => simp [setEntry, Node.entry]
  | cons item rest ih =>
      rw [setEntry]
      split
      · simp [Node.entry]
      · rename_i hne
        simpa [Node.entry, hne] using ih

theorem mem_set_entry {name : OsString} {node : Node} {entries : List (OsString × Node)}
    {item : OsString × Node} (h : item ∈ setEntry name node entries) :
    item = (name, node) ∨ item ∈ entries := by
  induction entries with
  | nil => exact .inl (by simpa [setEntry] using h)
  | cons first rest ih =>
      rw [setEntry] at h
      split at h
      · rcases List.mem_cons.mp h with rfl | h
        · exact .inl rfl
        · exact .inr (List.mem_cons_of_mem _ h)
      · rcases List.mem_cons.mp h with rfl | h
        · exact .inr List.mem_cons_self
        · exact (ih h).imp_right (List.mem_cons_of_mem _)

/-- A plain tree stays plain. -/
theorem set_entry_plain {valid : OsString → Prop} {entries : List (OsString × Node)}
    (h : PlainEntries valid entries) {name : OsString} {node : Node} (hname : valid name)
    (hnode : node.Plain valid) : PlainEntries valid (setEntry name node entries) where
  nodup := by
    induction entries with
    | nil => simp [setEntry]
    | cons first rest ih =>
        have hfirst := List.nodup_cons.mp h.nodup
        rw [setEntry]
        split
        · rename_i heq
          exact heq ▸ h.nodup
        · rename_i hne
          refine List.nodup_cons.mpr ⟨?_, ih h.tail⟩
          intro hmem
          obtain ⟨item, hitem, heq⟩ := List.mem_map.mp hmem
          rcases mem_set_entry hitem with rfl | hitem
          · exact hne heq.symm
          · exact hfirst.1 (heq ▸ List.mem_map_of_mem hitem)
  names item hitem := by
    rcases mem_set_entry hitem with rfl | hitem
    · exact hname
    · exact h.names item hitem
  plain item hitem := by
    rcases mem_set_entry hitem with rfl | hitem
    · exact hnode
    · exact h.plain item hitem

/-- The manifest is no content. -/
theorem manifest_no_content (bytes : List UInt8) :
    (filesUnder (osString "manifest.json", .file bytes)).filter isContent = [] := by
  simp [filesUnder, filesAt, isContent]

/-- Writing the manifest leaves the contents as they are. -/
theorem contents_set_entry {entries : List (OsString × Node)} (bytes : List UInt8)
    (h : ∀ node, (Node.directory entries).entry (osString "manifest.json") = some node →
      ∃ old, node = .file old) :
    contents (setEntry (osString "manifest.json") (.file bytes) entries) = contents entries := by
  unfold contents
  induction entries with
  | nil => simp [setEntry, filesBelow, manifest_no_content]
  | cons first rest ih =>
      obtain ⟨name, node⟩ := first
      rw [setEntry]
      split
      · rename_i hname
        obtain rfl : name = osString "manifest.json" := hname
        obtain ⟨old, rfl⟩ := h node (by simp [Node.entry])
        rw [filesBelow, filesBelow, List.filter_append, List.filter_append, manifest_no_content,
          manifest_no_content]
      · rename_i hname
        rw [filesBelow, filesBelow, List.filter_append, List.filter_append, ih]
        intro node' hnode'
        apply h
        have hne : ¬name = osString "manifest.json" := hname
        simpa [Node.entry, hne] using hnode'

/-- What `write_bundle_manifest` leaves in a plain directory. -/
structure Written (tools : Tools) (application : ApplicationManifest)
    (entries tree : List (OsString × Node)) (root : String) : Prop where
  plain : PlainEntries (ValidName tools.toHost) tree
  same : contents tree = contents entries
  manifest : ∃ bytes manifest files,
    (Node.directory tree).entry (osString "manifest.json") = some (.file bytes) ∧
    tools.encode manifest = .ok bytes ∧ manifest.schemaVersion = 1 ∧
    manifest.protocolVersion = Protocol.protocolVersion ∧ manifest.application = application ∧
    manifest.files.Perm files ∧
    List.Forall₂ (Lists tools.toHost root) ((filesBelow entries).filter isListed) files

theorem write_ok {tools : Tools} {root : String} {application : ApplicationManifest}
    {entries tree : List (OsString × Node)}
    (hplain : PlainEntries (ValidName tools.toHost) entries)
    (h : writeBundleManifest tools root application entries = .ok tree) :
    Written tools application entries tree root := by
  unfold writeBundleManifest at h
  obtain ⟨epoch, -, h⟩ := except_bind_ok.mp h
  obtain ⟨files, hfiles, h⟩ := except_bind_ok.mp h
  unfold bundleFiles at hfiles
  obtain ⟨visited, hvisited, hfiles⟩ := except_bind_ok.mp hfiles
  cases hfiles
  dsimp only at h
  split at h
  · cases h
  · rename_i encoded hencoded
    split at h
    · cases h
    · rename_i node hnode
      cases h
      -- in a plain directory there is a file under the name, or nothing
      have hplace : (∀ old, (Node.directory entries).entry (osString "manifest.json") = some old →
          ∃ bytes, old = .file bytes) ∧ node = .file encoded := by
        cases hold : (Node.directory entries).entry (osString "manifest.json") with
        | none =>
            rw [hold] at hnode
            cases hnode
            exact ⟨fun _ h => (by cases h), rfl⟩
        | some old =>
            have hkind : old.Plain (ValidName tools.toHost) := by
              simp only [Node.entry, Option.map_eq_some_iff] at hold
              obtain ⟨item, hitem, rfl⟩ := hold
              exact hplain.plain item (List.mem_of_find?_eq_some hitem)
            rw [hold] at hnode
            cases hkind with
            | file bytes =>
                cases hnode
                exact ⟨fun old h => ⟨bytes, (Option.some.inj h).symm⟩, rfl⟩
            | directory _ _ _ _ => cases hnode
      obtain ⟨hold, rfl⟩ := hplace
      refine ⟨set_entry_plain hplain (valid_manifest_name _) (.file encoded),
        contents_set_entry encoded hold, ?_⟩
      refine ⟨encoded, _, visited, set_entry_entry _ _ _, hencoded, rfl, rfl, rfl,
        List.mergeSort_perm _ _, ?_⟩
      have hvisit := visit_ok hvisited
      rwa [placed_root] at hvisit

/-! ## Agreement -/

/-- The manifest as the updater reads it. -/
def installedFiles (files : List BundleFile) : List InstalledBundleFile :=
  files.map fun file => ⟨file.path, file.bytes, file.sha256⟩

/-- Where the updater looks for a declared file. -/
def declaredPath (host : Host) (path : String) : List OsString :=
  (normalComponents host.separator (host.operatingSystem == .windows) (osString path)).getD []

/-- The record of a declared file. -/
def declaredRecord (host : Host) (file : BundleFile) : FileRecord :=
  (declaredPath host file.path, file.bytes, file.sha256)

theorem declared_path_valid {host : Host} {path label : String} {components : List OsString}
    (h : validateRelativePath host path label = .ok components) :
    declaredPath host path = components := by
  unfold validateRelativePath at h
  rw [declaredPath]
  split at h
  · rename_i accepted haccepted
    cases h
    rw [haccepted]
    rfl
  · cases h

theorem isListed_isContent {file : FileAt} (h : isListed file = true) : isContent file = true := by
  obtain ⟨path, bytes⟩ := file
  simp only [isListed, decide_eq_true_eq] at h
  simp only [isContent, decide_eq_true_eq]
  rintro rfl
  exact h rfl

/-- In a portable tree the packager lists all contents. -/
theorem portable_listed {host : Host} {entries : List (OsString × Node)}
    (h : Portable host entries) : (filesBelow entries).filter isListed = contents entries := by
  apply List.filter_congr
  intro file hfile
  cases hcontent : isContent file with
  | true =>
      have hmem : file ∈ contents entries := List.mem_filter.mpr ⟨hfile, hcontent⟩
      simpa [isListed] using (h file hmem).1
  | false =>
      apply Bool.eq_false_iff.mpr
      intro hlisted
      rw [isListed_isContent hlisted] at hcontent
      cases hcontent

/-- The files below a plain directory have a name. -/
theorem contents_path_ne_nil {entries : List (OsString × Node)} {file : FileAt}
    (h : file ∈ contents entries) : file.1 ≠ [] := by
  obtain ⟨item, -, inner, -, rfl⟩ := mem_files_below.mp (List.mem_filter.mp h).1
  simp

/-- The names in the paths are valid. -/
theorem contents_names {host : Host} {entries : List (OsString × Node)}
    (h : PlainEntries (ValidName host) entries) :
    ∀ file ∈ contents entries, ∀ name ∈ file.1, ValidName host name := by
  intro file hfile
  obtain ⟨hnodup, hnames, hplain⟩ := h
  have hmem : file ∈ filesAt (.directory entries) := by
    rw [filesAt]
    exact (List.mem_filter.mp hfile).1
  exact (Node.Plain.directory entries hnodup hnames hplain).names_valid file hmem

/-- No valid name on Windows has a backslash. -/
theorem portable_names {host : Host} {entries : List (OsString × Node)}
    (hplain : PlainEntries (ValidName host) entries) (h : Portable host entries) :
    ∀ file ∈ contents entries, ∀ name ∈ file.1, (92 : UInt8) ∉ name := by
  intro file hfile name hname hmem
  by_cases hwindows : host.operatingSystem = .windows
  · have hseparator := (contents_names hplain file hfile name hname).normal.plain 92 hmem
    simp [Build.separator, hwindows] at hseparator
  · exact (h file hfile).2 hwindows name hname hmem

/-- What stands right has a partner on the left. -/
theorem exists_of_mem_right {α β : Type} {R : α → β → Prop} {left : List α} {right : List β}
    (h : List.Forall₂ R left right) {b : β} (hb : b ∈ right) : ∃ a ∈ left, R a b := by
  induction h with
  | nil => cases hb
  | cons hfirst _ ih =>
      rcases List.mem_cons.mp hb with rfl | hb
      · exact ⟨_, List.mem_cons_self, hfirst⟩
      · obtain ⟨a, ha, hab⟩ := ih hb
        exact ⟨a, List.mem_cons_of_mem _ ha, hab⟩

/-- The updater reads the manifest back. -/
theorem written_read {tools : Tools} {root : String} {application : ApplicationManifest}
    {entries tree : List (OsString × Node)} (h : Written tools application entries tree root)
    (happlication : application.validate tools.toBuild = .ok ()) (hdecodes : Decodes tools)
    (hlimit : WithinLimit tree) :
    ∃ manifest files listed,
      readBundleManifest tools.toHost (some (.directory tree)) = .ok manifest ∧
      manifest.files = installedFiles files ∧ files.Perm listed ∧
      List.Forall₂ (Lists tools.toHost root) ((filesBelow entries).filter isListed) listed := by
  obtain ⟨bytes, manifest, listed, hentry, hencode, hschema, hprotocol, happ, hperm, hlists⟩ :=
    h.manifest
  have hread : readFile (child (osString "manifest.json") (some (.directory tree))) =
      .ok bytes := by
    have hchild : child (osString "manifest.json") (some (.directory tree)) = some (.file bytes) :=
      hentry
    rw [hchild]
    rfl
  have hparsed := hdecodes manifest bytes hencode
  refine ⟨⟨manifest.schemaVersion, manifest.protocolVersion, manifest.application,
    installedFiles manifest.files⟩, manifest.files, listed, ?_, rfl, hperm, hlists⟩
  have hsize : ¬maxBundleManifestBytes < bytes.length := Nat.not_lt.mpr (hlimit bytes hentry)
  have hversions : ¬(manifest.schemaVersion ≠ 1 ∨
      manifest.protocolVersion ≠ Protocol.protocolVersion) := by
    simp [hschema, hprotocol]
  have hvalid : manifest.application.validate tools.toBuild = .ok () := happ ▸ happlication
  unfold readBundleManifest
  rw [hread]
  show (if maxBundleManifestBytes < bytes.length then _ else _) = _
  rw [if_neg hsize]
  simp only [hparsed]
  show (if manifest.schemaVersion ≠ 1 ∨ manifest.protocolVersion ≠ Protocol.protocolVersion
    then _ else _) = _
  rw [if_neg hversions]
  show (manifest.application.validate tools.toBuild >>= fun _ => _) = _
  rw [hvalid]
  rfl

/-- The packaged bundle of a portable tree is accepted. -/
theorem portable_verified {tools : Tools} {root root' : String} {application : ApplicationManifest}
    {entries tree : List (OsString × Node)} (hplain : PlainEntries (ValidName tools.toHost) entries)
    (hwritten : Written tools application entries tree root)
    (happlication : application.validate tools.toBuild = .ok ()) (hdecodes : Decodes tools)
    (hlimit : WithinLimit tree) (hportable : Portable tools.toHost entries) :
    verifyBundle tools.toHost root' (some (.directory tree)) = .ok () := by
  obtain ⟨manifest, files, listed, hread, hfiles, hperm, hlists⟩ :=
    written_read hwritten happlication hdecodes hlimit
  have hdistinct : (Node.directory tree).Distinct :=
    (Node.Plain.directory tree hwritten.plain.nodup hwritten.plain.names
      hwritten.plain.plain).distinct
  have hkeys : ((contents entries).map Prod.fst).Nodup :=
    hwritten.same ▸ contents_nodup hdistinct
  rw [portable_listed hportable] at hlists
  have hvalid : ∀ file entry, file ∈ contents entries ∧ Lists tools.toHost root file entry →
      validateRelativePath tools.toHost entry.path "bundle file" = .ok file.1 :=
    fun file entry h =>
      portable_relative_valid (contents_path_ne_nil h.1) (contents_names hplain file h.1)
        (portable_names hplain hportable file h.1) h.2.path "bundle file"
  have hboth : List.Forall₂
      (fun file entry => file ∈ contents entries ∧ Lists tools.toHost root file entry)
      (contents entries) listed :=
    (List.forall₂_and_left _ _).mpr ⟨fun _ h => h, hlists⟩
  -- each entry of the manifest is declared under the path of its file
  have hrecords : (contents entries).map (recordOf tools.toHost) =
      listed.map (declaredRecord tools.toHost) := by
    rw [← List.forall₂_eq_eq_eq, List.forall₂_map_left_iff, List.forall₂_map_right_iff]
    refine hboth.imp ?_
    intro file entry h
    rw [recordOf, declaredRecord, declared_path_valid (hvalid file entry h), h.2.bytes, h.2.sha256]
  have hpaths : ∀ entry ∈ listed, validateRelativePath tools.toHost entry.path "bundle file" =
      .ok (declaredPath tools.toHost entry.path) := by
    intro entry hentry
    obtain ⟨file, -, h⟩ := exists_of_mem_right hboth hentry
    rw [hvalid file entry h, declared_path_valid (hvalid file entry h)]
  have hinstalled : (manifest.files.map fun file => declaredPath tools.toHost file.path).Perm
      ((contents entries).map Prod.fst) := by
    have hfst : (contents entries).map Prod.fst =
        listed.map fun entry => declaredPath tools.toHost entry.path := by
      have := congrArg (List.map Prod.fst) hrecords
      rwa [List.map_map, List.map_map] at this
    rw [hfiles, installedFiles, List.map_map, hfst]
    exact hperm.map _
  obtain ⟨expected, hexpected⟩ :
      ∃ expected, declaredFiles tools.toHost [] manifest.files = .ok expected := by
    apply declared_files_distinct fun file => declaredPath tools.toHost file.path
    · rw [hfiles]
      intro file hfile
      obtain ⟨entry, hentry, rfl⟩ := List.mem_map.mp hfile
      exact hpaths entry (hperm.subset hentry)
    · exact hinstalled.nodup_iff.mpr hkeys
    · exact fun _ _ => List.not_mem_nil
  obtain ⟨hfresh, hexpected_mem⟩ := declared_files_ok hexpected List.nodup_nil
  refine (verify_bundle_iff hdistinct).mpr
    ⟨manifest, expected, hread, hexpected, bundle_files_contents hwritten.plain, ?_⟩
  rw [hwritten.same]
  refine (List.perm_ext_iff_of_nodup hfresh.of_map (records_nodup hkeys).of_map).mpr ?_
  intro record
  rw [hexpected_mem, hrecords, List.mem_map, hfiles]
  constructor
  · intro h
    obtain h | ⟨file, hfile, hpath, hrecord⟩ := h
    · cases h
    · obtain ⟨entry, hentry, rfl⟩ := List.mem_map.mp hfile
      refine ⟨entry, hperm.subset hentry, ?_⟩
      rw [declaredRecord, declared_path_valid hpath]
      exact Prod.ext rfl hrecord.symm
  · intro h
    obtain ⟨entry, hentry, rfl⟩ := h
    exact .inr ⟨_, List.mem_map_of_mem (hperm.symm.subset hentry), hpaths entry hentry, rfl⟩

/-- A tree whose packaged bundle is accepted is portable. -/
theorem verified_portable {tools : Tools} {root root' : String} {application : ApplicationManifest}
    {entries tree : List (OsString × Node)} (hplain : PlainEntries (ValidName tools.toHost) entries)
    (hwritten : Written tools application entries tree root)
    (happlication : application.validate tools.toBuild = .ok ()) (hdecodes : Decodes tools)
    (hlimit : WithinLimit tree)
    (h : verifyBundle tools.toHost root' (some (.directory tree)) = .ok ()) :
    Portable tools.toHost entries := by
  obtain ⟨manifest, files, listed, hread, hfiles, hperm, hlists⟩ :=
    written_read hwritten happlication hdecodes hlimit
  have hdistinct : (Node.directory tree).Distinct :=
    (Node.Plain.directory tree hwritten.plain.nodup hwritten.plain.names
      hwritten.plain.plain).distinct
  obtain ⟨manifest', expected, hread', hexpected, -, hrecords⟩ :=
    (verify_bundle_iff hdistinct).mp h
  rw [hread] at hread'
  cases hread'
  obtain ⟨-, hexpected⟩ := declared_files_ok hexpected List.nodup_nil
  -- every file is declared by an entry that the packager made from a file it lists
  have hdeclared : ∀ file ∈ contents entries, ∃ origin entry,
      origin ∈ (filesBelow entries).filter isListed ∧ Lists tools.toHost root origin entry ∧
      validateRelativePath tools.toHost entry.path "bundle file" = .ok file.1 := by
    intro file hfile
    have hrecord : recordOf tools.toHost file ∈ expected := by
      apply hrecords.symm.subset
      rw [hwritten.same]
      exact List.mem_map_of_mem hfile
    obtain hmem | ⟨installed, hinstalled, hpath, -⟩ := (hexpected _).mp hrecord
    · cases hmem
    · rw [hfiles] at hinstalled
      obtain ⟨entry, hentry, rfl⟩ := List.mem_map.mp hinstalled
      obtain ⟨origin, horigin, hlist⟩ := exists_of_mem_right hlists (hperm.subset hentry)
      exact ⟨origin, entry, horigin, hlist, hpath⟩
  have hbackslash : ∀ file ∈ contents entries, ∀ name ∈ file.1, (92 : UInt8) ∉ name := by
    intro file hfile name hname hmem
    obtain ⟨origin, entry, -, hlist, hpath⟩ := hdeclared file hfile
    unfold validateRelativePath at hpath
    split at hpath
    · rename_i components hcomponents
      cases hpath
      exact portable_no_backslash hlist.path
        (normal_components_bytes hcomponents name hname 92 hmem)
    · cases hpath
  intro file hfile
  refine ⟨?_, fun _ => hbackslash file hfile⟩
  obtain ⟨origin, entry, horigin, hlist, hpath⟩ := hdeclared file hfile
  obtain ⟨hbelow, hlisted⟩ := List.mem_filter.mp horigin
  have hcontent : origin ∈ contents entries :=
    List.mem_filter.mpr ⟨hbelow, isListed_isContent hlisted⟩
  have hsame := portable_relative_valid (contents_path_ne_nil hcontent)
    (contents_names hplain origin hcontent) (hbackslash origin hcontent) hlist.path "bundle file"
  rw [hsame] at hpath
  rw [← Except.ok.inj hpath]
  simpa [isListed] using hlisted

/-- The packager and the updater agree exactly on the portable trees. -/
theorem packaged_bundle_iff (tools : Tools) (root : String) (application : ApplicationManifest)
    (entries tree : List (OsString × Node))
    (hplain : (Node.directory entries).Plain (ValidName tools.toHost))
    (happlication : application.validate tools.toBuild = .ok ()) (hdecodes : Decodes tools)
    (hwrite : writeBundleManifest tools root application entries = .ok tree)
    (hlimit : WithinLimit tree) : Guarded tools.toHost tree ↔ Portable tools.toHost entries := by
  have hwritten := write_ok hplain.entries hwrite
  have hdistinct : (Node.directory tree).Distinct :=
    (Node.Plain.directory tree hwritten.plain.nodup hwritten.plain.names
      hwritten.plain.plain).distinct
  constructor
  · intro h
    exact verified_portable hplain.entries hwritten happlication hdecodes hlimit (h.accepted root)
  · intro h
    have haccepted : ∀ root', verifyBundle tools.toHost root' (some (.directory tree)) = .ok () :=
      fun root' => portable_verified hplain.entries hwritten happlication hdecodes hlimit h
    refine ⟨haccepted, ?_⟩
    intro root' entries' hdistinct' hmanifest hcollision htampered
    exact tampered_not_verified hdistinct hdistinct' hmanifest hcollision (haccepted root) htampered

/-! ## Bundles of an application called Notes

`notesSources` is bundled with one PHP file, `notesLibrary` with a library that ships a file
`manifest.json` of its own. -/

/-- The application that the bundles belong to. -/
def notesApplication : ApplicationManifest where
  identifier := "com.example.notes"
  name := "Notes"
  version := "1.0.0"
  description := ""
  publisher := "Example"
  category := .utility
  icon := "icon.png"

/-- The bundle directory with one PHP file. -/
def notesSources : List (OsString × Node) :=
  [(osString "app", .directory [(osString "index.php", .file (osString "<?php\n"))])]

/-- The bundle directory with a library and its own manifest. -/
def notesLibrary : List (OsString × Node) :=
  [(osString "vendor", .directory [(osString "manifest.json", .file (osString "\x7b\x7d\n"))])]

/-- How the packager lists the PHP file. -/
def notesIndex : BundleFile :=
  ⟨"app/index.php", 6, "00aba3928cd622ad67c0f81ecd5aa8699e07f8f4908c045fe34f6a2dc0067b37"⟩

/-- The manifest of Notes with these files. -/
def notesManifest (files : List BundleFile) : BundleManifest where
  schemaVersion := 1
  apiVersion := 1
  protocolVersion := 6
  application := notesApplication
  runtime := ⟨"1.3.4", "1.3.4"⟩
  target := ⟨"linux", "x86_64", "glibc"⟩
  sourceDateEpoch := 0
  files := files

/-- The manifest as JSON, around the text of the files. -/
def notesJson (files : String) : OsString :=
  osString ("\n".intercalate
    ["\x7b", "  \"schemaVersion\": 1,", "  \"apiVersion\": 1,", "  \"protocolVersion\": 6,",
      "  \"application\": \x7b", "    \"identifier\": \"com.example.notes\",",
      "    \"name\": \"Notes\",", "    \"version\": \"1.0.0\",", "    \"description\": \"\",",
      "    \"publisher\": \"Example\",", "    \"category\": 6,", "    \"icon\": \"icon.png\",",
      "    \"bundleExcludes\": [],", "    \"lifecycle\": \x7b", "      \"urlSchemes\": [],",
      "      \"mimeTypes\": [],", "      \"autostart\": false", "    \x7d", "  \x7d,",
      "  \"runtime\": \x7b", "    \"pamDesktop\": \"1.3.4\",", "    \"pam\": \"1.3.4\"", "  \x7d,",
      "  \"target\": \x7b", "    \"operatingSystem\": \"linux\",",
      "    \"architecture\": \"x86_64\",", "    \"abi\": \"glibc\"", "  \x7d,",
      "  \"sourceDateEpoch\": 0,", "  \"files\": " ++ files, "\x7d"])

/-- The JSON text of the PHP file in the list. -/
def notesIndexJson : String :=
  "\n".intercalate
    ["[", "    \x7b", "      \"path\": \"app/index.php\",", "      \"bytes\": 6,",
      "      \"sha256\": \"" ++ notesIndex.sha256 ++ "\"", "    \x7d", "  ]"]

/-- A packager on Linux that knows the files of Notes. -/
def notesTools : Tools where
  operatingSystem := .linux
  architecture := "x86_64"
  debugAssertions := false
  parseUrl _ := none
  parentDirectory := "/opt"
  sha256 bytes :=
    if bytes = osString "<?php\n" then notesIndex.sha256
    else if bytes = osString "\x7b\x7d\n" then
      "ca3d163bab055381827226140568f3bef7eaac187cebd76878e0b63e9e442356"
    else ""
  parseBundleManifest bytes :=
    if bytes = notesJson notesIndexJson then
      .ok ⟨1, 6, notesApplication, [⟨notesIndex.path, notesIndex.bytes, notesIndex.sha256⟩]⟩
    else if bytes = notesJson "[]" then .ok ⟨1, 6, notesApplication, []⟩
    else .error "expected value at line 1 column 1"
  encodeTransaction _ := []
  decodeTransaction _ := .error "expected value at line 1 column 1"
  codesign _ := .error "No such file or directory (os error 2)"
  extract _ := .error "portable archive extraction failed with status exit status: 2"
  processExists _ _ := .ok false
  spawn _ := .ok ()
  targetEnvironment := "gnu"
  packageVersion := "1.3.4"
  binaryVersion := .ok "1.3.4"
  configuredSourceDateEpoch := .ok none
  encode manifest :=
    if manifest = notesManifest [notesIndex] then .ok (notesJson notesIndexJson)
    else if manifest = notesManifest [] then .ok (notesJson "[]")
    else .error "the manifest is not one of Notes"

/-- What the packaging of both directories evaluates to, and the verification of the second. -/
theorem notes_packaging_evaluated :
    (notesJson "[]" ≠ notesJson notesIndexJson ∧
      notesApplication.validate notesTools.toBuild = .ok () ∧
      (notesJson notesIndexJson).length ≤ maxBundleManifestBytes ∧
      (notesJson "[]").length ≤ maxBundleManifestBytes) ∧
    (visit notesTools.toHost "/build" [] notesSources = .ok [notesIndex] ∧
      notesTools.encode (notesManifest [notesIndex]) = .ok (notesJson notesIndexJson) ∧
      (Node.directory notesSources).entry (osString "manifest.json") = none) ∧
    (visit notesTools.toHost "/build" [] notesLibrary = .ok [] ∧
      notesTools.encode (notesManifest []) = .ok (notesJson "[]") ∧
      (Node.directory notesLibrary).entry (osString "manifest.json") = none) ∧
    (∀ file ∈ contents notesSources, file.1.getLast? ≠ some (osString "manifest.json") ∧
      (notesTools.operatingSystem ≠ .windows → ∀ name ∈ file.1, (92 : UInt8) ∉ name)) ∧
    verifyBundle notesTools.toHost "/opt/notes" (some (.directory
        (setEntry (osString "manifest.json") (.file (notesJson "[]")) notesLibrary))) =
      .error "bundle contents do not match the signed artifact manifest" := by
  decide +kernel

theorem notes_decodes : Decodes notesTools := by
  intro manifest bytes h
  simp only [notesTools] at h
  split at h
  · rename_i hmanifest
    cases h
    rw [hmanifest]
    simp only [notesTools, if_true]
    rfl
  · split at h
    · rename_i hmanifest
      cases h
      have hother := notes_packaging_evaluated.1.1
      rw [hmanifest]
      simp only [notesTools, hother, if_true, if_false]
      rfl
    · cases h

theorem notes_application_valid : notesApplication.validate notesTools.toBuild = .ok () :=
  notes_packaging_evaluated.1.2.1

/-- The names in the bundles are valid. -/
theorem notes_valid_name {name : String}
    (h : name ∈ ["app", "index.php", "vendor", "manifest.json"]) :
    ValidName notesTools.toHost (osString name) := by
  refine ⟨⟨name, rfl⟩, ?_⟩
  have hnames : ∀ name ∈ ["app", "index.php", "vendor", "manifest.json"], osString name ≠ [] ∧
      osString name ≠ [46] ∧ osString name ≠ [46, 46] ∧
      ∀ byte ∈ osString name, notesTools.separator byte = false := by
    decide +kernel
  obtain ⟨hnonempty, hcurrent, hparent, hplain⟩ := hnames name h
  exact ⟨hnonempty, hcurrent, hparent, hplain, fun hdrives => by cases hdrives⟩

/-- A directory with one file in it. -/
theorem notes_plain {directory name : String} (bytes : List UInt8)
    (hdirectory : directory ∈ ["app", "index.php", "vendor", "manifest.json"])
    (hname : name ∈ ["app", "index.php", "vendor", "manifest.json"]) :
    (Node.directory [(osString directory, .directory [(osString name, .file bytes)])]).Plain
      (ValidName notesTools.toHost) := by
  refine .directory _ (List.nodup_singleton _) ?_ ?_
  · intro item hitem
    obtain rfl := List.mem_singleton.mp hitem
    exact notes_valid_name hdirectory
  · intro item hitem
    obtain rfl := List.mem_singleton.mp hitem
    refine .directory _ (List.nodup_singleton _) ?_ ?_
    · intro item hitem
      obtain rfl := List.mem_singleton.mp hitem
      exact notes_valid_name hname
    · intro item hitem
      obtain rfl := List.mem_singleton.mp hitem
      exact .file bytes

/-- What is written when the walk lists nothing or one file. -/
theorem notes_written {entries : List (OsString × Node)} {files : List BundleFile}
    {encoded : List UInt8} (hvisit : visit notesTools.toHost "/build" [] entries = .ok files)
    (hshort : files.mergeSort (fun left right => left.path ≤ right.path) = files)
    (hencode : notesTools.encode (notesManifest files) = .ok encoded)
    (hnew : (Node.directory entries).entry (osString "manifest.json") = none) :
    writeBundleManifest notesTools "/build" notesApplication entries =
      .ok (setEntry (osString "manifest.json") (.file encoded) entries) := by
  have hfiles : bundleFiles notesTools.toHost "/build" entries = .ok files := by
    rw [bundleFiles, hvisit]
    show Except.ok (files.mergeSort _) = Except.ok files
    rw [hshort]
  unfold writeBundleManifest
  refine except_bind_ok.mpr ⟨0, rfl, ?_⟩
  refine except_bind_ok.mpr ⟨files, hfiles, ?_⟩
  dsimp only
  split
  · rename_i error herror
    cases hencode.symm.trans herror
  · rename_i bytes hbytes
    cases hencode.symm.trans hbytes
    rw [hnew]
    rfl

theorem notes_sources_written :
    writeBundleManifest notesTools "/build" notesApplication notesSources =
      .ok (setEntry (osString "manifest.json") (.file (notesJson notesIndexJson)) notesSources) := by
  have hshort : [notesIndex].mergeSort (fun left right => left.path ≤ right.path) = [notesIndex] :=
    List.mergeSort_singleton _
  obtain ⟨hvisit, hencode, hnew⟩ := notes_packaging_evaluated.2.1
  exact notes_written hvisit hshort hencode hnew

theorem notes_library_written :
    writeBundleManifest notesTools "/build" notesApplication notesLibrary =
      .ok (setEntry (osString "manifest.json") (.file (notesJson "[]")) notesLibrary) := by
  have hshort : ([] : List BundleFile).mergeSort (fun left right => left.path ≤ right.path) = [] :=
    List.mergeSort_nil
  obtain ⟨hvisit, hencode, hnew⟩ := notes_packaging_evaluated.2.2.1
  exact notes_written hvisit hshort hencode hnew

/-- Both manifests are short. -/
theorem notes_within_limit {encoded : List UInt8} {entries : List (OsString × Node)}
    (h : encoded.length ≤ maxBundleManifestBytes) :
    WithinLimit (setEntry (osString "manifest.json") (.file encoded) entries) := by
  intro bytes hbytes
  rw [set_entry_entry] at hbytes
  cases hbytes
  exact h

/-- The bundle with the PHP file is accepted and guarded. -/
theorem notes_sources_guarded : Guarded notesTools.toHost
    (setEntry (osString "manifest.json") (.file (notesJson notesIndexJson)) notesSources) :=
  (packaged_bundle_iff notesTools "/build" notesApplication notesSources _
    (notes_plain _ (by decide) (by decide)) notes_application_valid notes_decodes
    notes_sources_written (notes_within_limit notes_packaging_evaluated.1.2.2.1)).mpr
    notes_packaging_evaluated.2.2.2.1

/-- The bundle with the library is packaged and then refused. -/
theorem notes_library_refused :
    (Node.directory notesLibrary).Plain (ValidName notesTools.toHost) ∧
    notesApplication.validate notesTools.toBuild = .ok () ∧ Decodes notesTools ∧
    ∃ tree, writeBundleManifest notesTools "/build" notesApplication notesLibrary = .ok tree ∧
      WithinLimit tree ∧ verifyBundle notesTools.toHost "/opt/notes" (some (.directory tree)) =
        .error "bundle contents do not match the signed artifact manifest" :=
  ⟨notes_plain _ (by decide) (by decide), notes_application_valid, notes_decodes, _,
    notes_library_written, notes_within_limit notes_packaging_evaluated.1.2.2.2,
    notes_packaging_evaluated.2.2.2.2⟩

end PamDesktop.Packager
