import PamDesktop.Updater.Installation

/-!
# Updates that are interrupted again and again

A helper can be killed at any point and started again for the same archive, any number of times.
`Attempts` is such a history. `install_safe` says what one run does to the stages of a swap; here
it is composed over a whole history: no history loses both the old and the new bundle, an archive
that is still there can be installed, and the old bundle survives as the backup.
-/

namespace PamDesktop.Updater

open Foundations Protocol

/-- Runs of the helper on one bundle and one archive, one after another, each killed at some point
or ended, and each started in an admitted state. -/
def Attempts (host : Host) (name stage : OsString) (sha256 : String)
    (admitted : FileSystem → Prop) : FileSystem → FileSystem → Prop :=
  Relation.ReflTransGen fun before after => admitted before ∧
    ∃ pid options, options.bundle = name ∧ options.archive = stage ∧ options.sha256 = sha256 ∧
      (machine host).Leaves (apply host pid options) before after

/-- The bundle slot or the backup slot holds a bundle that verification accepts as the bundle. -/
def HasBundle (host : Host) (name : OsString) (fs : FileSystem) : Prop :=
  ∃ node, Accepted host (.at (.bundle name)) node ∧
    (fs (.bundle name) = some node ∨ fs (.previous name) = some node)

variable {host : Host} {name stage root : OsString} {sha256 : String} {old new : Node}
  {start fs fs' : FileSystem} {swapStage : SwapStage} {admitted : FileSystem → Prop}

/-- At every stage one of the two bundles is in one of the two slots. -/
theorem AtStage.has_bundle (h : AtStage host name sha256 old new swapStage fs)
    (hold : Accepted host (.at (.bundle name)) old) : HasBundle host name fs := by
  cases swapStage with
  | settled => exact ⟨old, hold, .inl h.2⟩
  | journaled => exact ⟨old, hold, .inl h.2.1⟩
  | vacated | installed => exact ⟨old, hold, .inr h.2.2⟩
  | committed => exact ⟨new, h.2.2.2, .inl h.2.1⟩

/-- A commit is a settled bundle of its own, from which the same archive can be installed again. -/
theorem AtStage.settled_again (h : AtStage host name sha256 old new .committed fs) :
    AtStage host name sha256 new new .settled fs := ⟨h.1, h.2.1⟩

/-- Every state of a swap is one from which the next run swaps the old bundle, or, after the
commit, the new bundle for itself. -/
theorem InSwap.before_commit (h : InSwap host name stage sha256 old new start fs) :
    ∃ present, (present = old ∨ present = new) ∧ Own name stage start fs ∧
      ∃ swapStage ≠ .committed, AtStage host name sha256 present new swapStage fs := by
  obtain ⟨⟨swapStage, hstage⟩, hown⟩ := h
  by_cases hcommitted : swapStage = .committed
  · subst hcommitted
    exact ⟨new, .inr rfl, hown, .settled, by simp, hstage.settled_again⟩
  · exact ⟨old, .inl rfl, hown, swapStage, hcommitted, hstage⟩

/-- What a history of attempts preserves: a swap of the old or of the new bundle for the new one. -/
theorem attempts_in_swap (hjournal : Journals host sha256) (hold : old.isDirectory = true)
    (hnew : new.isDirectory = true) (hunpacks : Unpacks host stage root new start)
    (hsettled : AtStage host name sha256 old new .settled start)
    (hruns : Attempts host name stage sha256 admitted start fs) :
    ∃ present, (present = old ∨ present = new) ∧
      InSwap host name stage sha256 present new start fs := by
  induction hruns with
  | refl => exact ⟨old, .inl rfl, hsettled.in_swap (Own.refl start)⟩
  | tail _ hrun ih =>
      obtain ⟨present, hpresent, hswap⟩ := ih
      obtain ⟨-, pid, options, rfl, rfl, rfl, hleaves⟩ := hrun
      obtain ⟨from_, hfrom, hown, swapStage, hstage, hat⟩ := hswap.before_commit
      have hfromOld : from_ = old ∨ from_ = new := by
        rcases hfrom with rfl | rfl
        · exact hpresent
        · exact .inr rfl
      have hfromDir : from_.isDirectory = true := by
        rcases hfromOld with rfl | rfl
        · exact hold
        · exact hnew
      exact ⟨from_, hfromOld,
        (apply_safe pid hjournal hfromDir hnew hat hstage hown hunpacks).of_leaves hleaves⟩

/-- What verification has to say about both bundles for an interrupted update to recover: the
slots can be reused, both bundles are accepted in the backup slot, and the new one in its place. -/
structure Reversible (host : Host) (name stage : OsString) (old new : Node) (start : FileSystem) :
    Prop where
  tidy : Tidy name stage start
  backup : Accepted host (.at (.previous name)) old
  installed : Accepted host (.at (.bundle name)) new
  backupAgain : Accepted host (.at (.previous name)) new

/-- Unless the bundle or its replacement is a macOS application, verification does not depend on
the slot, and an update is reversible as soon as its slots can be reused. -/
theorem plain_reversible (htidy : Tidy name stage start)
    (hold : Accepted host (.at (.bundle name)) old)
    (hnew : Accepted host (.entry (.expanded stage) root) new)
    (hname : ¬ (Path.at (.bundle name)).isApplication host)
    (hroot : ¬ (Path.entry (.expanded stage) root).isApplication host) :
    Reversible host name stage old new start where
  tidy := htidy
  backup := hold.move hname (previous_not_application host name)
  installed := hnew.move hroot hname
  backupAgain := hnew.move hroot (previous_not_application host name)

/-- One more uninterrupted run from any state of a swap installs the archive that is there. -/
theorem install_completes (hjournal : Journals host sha256) (hold : old.isDirectory = true)
    (hnew : new.isDirectory = true) (hunpacks : Unpacks host stage root new start)
    (hrecover : Recoverable host name stage root sha256 old new start)
    (hat : AtStage host name sha256 old new swapStage fs) (hstage : swapStage ≠ .committed)
    (hown : Own name stage start fs) (harchive : fs (.archive stage) ≠ none) (pid : Nat)
    {options : ApplyOptions} (hname : options.bundle = name) (hstaged : options.archive = stage)
    (hdigest : options.sha256 = sha256) (hexits : ParentExits host options.parentPid) :
    ∃ fs', (machine host).run (install host pid options) fs = (.ok (), fs') ∧
      AtStage host name sha256 old new .committed fs' := by
  subst hname hstaged hdigest
  have hrun := (install_safe pid hjournal hold hnew hat hstage hown hunpacks).of_run.2
  rcases hresult : (machine host).run (install host pid options) fs with ⟨result, fs'⟩
  cases result with
  | ok => exact ⟨fs', rfl, by simpa [hresult] using hrun⟩
  | error error =>
      simp only [hresult] at hrun
      exact absurd ⟨harchive, hexits, hrecover⟩ hrun

/-- A verified bundle `old` and a staged archive with a verified replacement `new`, before the
first run of the helper. -/
structure Staged (host : Host) (name stage root : OsString) (sha256 : String) (old new : Node)
    (start : FileSystem) : Prop where
  bundle : start (.bundle name) = some old
  bundleDirectory : old.isDirectory = true
  bundleAccepted : Accepted host (.at (.bundle name)) old
  transaction : start (.transaction name) = none
  hashes : Hashes host stage sha256 start
  unpacks : Unpacks host stage root new start
  newDirectory : new.isDirectory = true
  newAccepted : Accepted host (.entry (.expanded stage) root) new

/-- An update that is interrupted any number of times never loses both bundles, and as long as its
archive is there, one more run installs it. -/
theorem interrupted_installation_recovers (hjournal : Journals host sha256)
    (hstaged : Staged host name stage root sha256 old new start)
    (hreversible : Reversible host name stage old new start)
    (hruns : Attempts host name stage sha256 (fun _ => True) start fs) :
    HasBundle host name fs ∧
      ∀ pid options, options.bundle = name → options.archive = stage → options.sha256 = sha256 →
        ParentExits host options.parentPid → fs (.archive stage) ≠ none →
        ∃ fs', (machine host).run (install host pid options) fs = (.ok (), fs') ∧
          fs' (.bundle name) = some new ∧ fs' (.transaction name) = none := by
  obtain ⟨present, hpresent, hswap⟩ := attempts_in_swap hjournal hstaged.bundleDirectory
    hstaged.newDirectory hstaged.unpacks ⟨hstaged.transaction, hstaged.bundle⟩ hruns
  have haccepted : Accepted host (.at (.bundle name)) present := by
    rcases hpresent with rfl | rfl
    · exact hstaged.bundleAccepted
    · exact hreversible.installed
  refine ⟨?_, fun pid options hname hstage hdigest hexits harchive => ?_⟩
  · obtain ⟨⟨swapStage, hat⟩, -⟩ := hswap
    exact hat.has_bundle haccepted
  · obtain ⟨from_, hfrom, hown, swapStage, hbefore, hat⟩ := hswap.before_commit
    have hfromOld : from_ = old ∨ from_ = new := by
      rcases hfrom with rfl | rfl
      · exact hpresent
      · exact .inr rfl
    have hrecover : Recoverable host name stage root sha256 from_ new start ∧
        from_.isDirectory = true := by
      rcases hfromOld with rfl | rfl
      · exact ⟨⟨hreversible.tidy, hstaged.hashes, hstaged.newAccepted, hreversible.installed,
          hstaged.bundleAccepted, hreversible.backup⟩, hstaged.bundleDirectory⟩
      · exact ⟨⟨hreversible.tidy, hstaged.hashes, hstaged.newAccepted, hreversible.installed,
          hreversible.installed, hreversible.backupAgain⟩, hstaged.newDirectory⟩
    obtain ⟨fs', hrun, hcommitted⟩ := install_completes hjournal hrecover.2 hstaged.newDirectory
      hstaged.unpacks hrecover.1 hat hbefore hown harchive pid hname hstage hdigest hexits
    exact ⟨fs', hrun, hcommitted.2.1, hcommitted.1⟩

/-! ## An application called Notes

Version 1.0.0 is installed and 1.0.1 is staged, on Linux as the directory `notes` and on macOS as
the application `Notes.app`. -/

/-- The key that the feed of Notes is verified with. -/
def notesPublicKey : String := "3d4017c3e843895a92b70aa74d1b7ebc9c982ccf2ec4968cc0cd55f12af4660c"

/-- The application that the manifests of Notes declare. -/
def notesApplication (version : String) : ApplicationManifest where
  identifier := "com.example.notes"
  name := "Notes"
  version := version
  description := ""
  publisher := "Example"
  category := .utility
  icon := "icon.png"
  updates := some ⟨"https://example.com/notes.json", "stable", notesPublicKey, .automatic⟩

/-- The `manifest.json` of a version of Notes, which has no other file. -/
def notesManifest (version : String) : OsString :=
  osString ("\x7b\"schemaVersion\":1,\"protocolVersion\":6,\"application\":\x7b" ++
    "\"identifier\":\"com.example.notes\",\"name\":\"Notes\",\"version\":\"" ++ version ++
    "\",\"description\":\"\",\"publisher\":\"Example\",\"category\":6," ++
    "\"icon\":\"icon.png\",\"updates\":\x7b\"endpoint\":\"https://example.com/notes.json\"," ++
    "\"channel\":\"stable\",\"publicKey\":\"" ++ notesPublicKey ++
    "\",\"policy\":3\x7d\x7d,\"files\":[]\x7d")

/-- A directory that holds the manifest of a version of Notes. -/
def notesBundle (version : String) : Node :=
  .directory [(osString "manifest.json", .file (notesManifest version))]

/-- The macOS application around it. -/
def notesApp (version : String) : Node :=
  .directory [(osString "Contents", .directory [(osString "Resources",
    .directory [(osString "runtime", notesBundle version)])])]

/-- The gzipped tar archive of `notes` in version 1.0.1. -/
@[irreducible] def notesArchive : List UInt8 :=
  [31, 139, 8, 0, 0, 0, 0, 0, 2, 3, 237, 146, 79, 75, 196, 48, 16, 197, 251, 81, 36, 231, 210, 38,
   253, 223, 189, 123, 18, 60, 122, 17, 15, 233, 116, 106, 35, 109, 18, 154, 172, 40, 203, 126,
   119, 167, 89, 87, 80, 244, 184, 34, 216, 223, 101, 146, 201, 240, 222, 192, 139, 54, 30, 93,
   26, 93, 20, 78, 212, 101, 25, 42, 241, 181, 126, 115, 174, 105, 62, 186, 42, 163, 95, 96, 239,
   188, 92, 200, 50, 250, 159, 232, 144, 255, 44, 181, 26, 208, 249, 228, 201, 25, 125, 145, 252,
   171, 162, 248, 49, 255, 178, 172, 63, 231, 47, 68, 197, 41, 127, 190, 229, 127, 113, 14, 204,
   193, 136, 179, 188, 195, 197, 41, 163, 217, 78, 196, 204, 46, 198, 27, 48, 211, 71, 175, 138,
   153, 180, 118, 82, 32, 125, 184, 31, 152, 234, 81, 123, 53, 40, 92, 216, 142, 129, 153, 19,
   124, 145, 179, 157, 48, 9, 255, 137, 197, 76, 203, 25, 233, 233, 246, 253, 250, 124, 150, 98,
   34, 225, 137, 160, 78, 143, 14, 22, 101, 79, 130, 140, 26, 118, 223, 77, 202, 141, 65, 241,
   250, 164, 70, 93, 178, 196, 71, 179, 188, 134, 37, 20, 132, 225, 181, 36, 86, 63, 210, 243,
   222, 246, 114, 117, 160, 149, 80, 247, 214, 40, 237, 105, 96, 244, 222, 186, 93, 154, 158, 151,
   162, 5, 211, 176, 88, 248, 223, 171, 234, 40, 181, 198, 137, 70, 41, 253, 46, 24, 5, 123, 184,
   65, 114, 98, 121, 95, 112, 81, 67, 142, 77, 145, 55, 109, 41, 219, 172, 171, 185, 148, 117,
   209, 139, 174, 198, 14, 90, 104, 155, 12, 96, 200, 16, 138, 182, 106, 0, 56, 244, 101, 57, 136,
   76, 14, 69, 85, 113, 88, 229, 12, 169, 145, 86, 126, 60, 198, 108, 80, 211, 186, 227, 253, 195,
   49, 218, 216, 216, 216, 248, 43, 188, 1, 2, 151, 240, 20, 0, 10, 0, 0]

/-- The zip archive of `Notes.app` in version 1.0.1. -/
@[irreducible] def notesAppArchive : List UInt8 :=
  [80, 75, 3, 4, 20, 0, 0, 0, 8, 0, 0, 0, 33, 0, 249, 223, 112, 242, 245, 0, 0, 0, 111, 1, 0, 0,
   50, 0, 0, 0, 78, 111, 116, 101, 115, 46, 97, 112, 112, 47, 67, 111, 110, 116, 101, 110, 116,
   115, 47, 82, 101, 115, 111, 117, 114, 99, 101, 115, 47, 114, 117, 110, 116, 105, 109, 101, 47,
   109, 97, 110, 105, 102, 101, 115, 116, 46, 106, 115, 111, 110, 61, 142, 203, 110, 132, 48, 12,
   69, 255, 197, 107, 4, 132, 55, 236, 103, 85, 169, 203, 110, 170, 46, 130, 99, 134, 84, 33, 137,
   72, 166, 106, 53, 226, 223, 107, 50, 157, 174, 44, 95, 91, 231, 158, 59, 4, 92, 105, 147, 111,
   180, 7, 237, 44, 76, 34, 3, 191, 187, 232, 208, 153, 255, 172, 203, 64, 122, 111, 52, 202, 152,
   246, 59, 104, 69, 54, 234, 69, 211, 14, 19, 160, 219, 114, 250, 150, 155, 55, 148, 91, 23, 41,
   64, 6, 86, 110, 196, 167, 215, 191, 245, 235, 137, 2, 145, 151, 185, 224, 68, 81, 192, 93, 251,
   7, 16, 56, 240, 183, 217, 232, 176, 38, 226, 229, 65, 227, 148, 43, 233, 234, 246, 159, 36,
   161, 49, 61, 159, 35, 247, 246, 202, 231, 155, 87, 242, 108, 96, 37, 178, 202, 59, 109, 35, 63,
   172, 49, 250, 48, 21, 197, 83, 138, 5, 139, 36, 150, 127, 6, 38, 48, 117, 149, 214, 146, 225,
   215, 16, 229, 156, 138, 82, 61, 190, 16, 55, 65, 173, 154, 82, 244, 88, 211, 208, 212, 195,
   216, 202, 177, 154, 251, 82, 202, 190, 81, 98, 238, 105, 198, 17, 199, 161, 66, 92, 42, 194,
   102, 236, 6, 196, 18, 85, 219, 46, 162, 146, 75, 211, 117, 37, 158, 56, 199, 52, 102, 213, 199,
   145, 193, 162, 205, 233, 248, 254, 113, 252, 2, 80, 75, 1, 2, 20, 3, 20, 0, 0, 0, 8, 0, 0, 0,
   33, 0, 249, 223, 112, 242, 245, 0, 0, 0, 111, 1, 0, 0, 50, 0, 0, 0, 0, 0, 0, 0, 0, 0, 0, 0,
   128, 1, 0, 0, 0, 0, 78, 111, 116, 101, 115, 46, 97, 112, 112, 47, 67, 111, 110, 116, 101, 110,
   116, 115, 47, 82, 101, 115, 111, 117, 114, 99, 101, 115, 47, 114, 117, 110, 116, 105, 109, 101,
   47, 109, 97, 110, 105, 102, 101, 115, 116, 46, 106, 115, 111, 110, 80, 75, 5, 6, 0, 0, 0, 0, 1,
   0, 1, 0, 96, 0, 0, 0, 69, 1, 0, 0, 0, 0]

/-- The SHA-256 digest of `notesArchive`. -/
def notesDigest : String := "befd04b42848bc57d40633f97e84d25ae53eea54e2d5cc2aae8970989b01e041"

/-- The SHA-256 digest of `notesAppArchive`. -/
def notesAppDigest : String := "e19de80e97dfa7514469720a358d641683824cef6bed7f422aafd49b52801a0c"

/-- A host that knows the files of Notes: every application is signed, no other process runs. -/
def notesHost (operatingSystem : OperatingSystem) : Host where
  operatingSystem := operatingSystem
  architecture := "x86_64"
  debugAssertions := false
  parseUrl url :=
    if url.toList.take 8 = "https://".toList then
      some ⟨"https", some (.domain "example.com"), "", none, none⟩
    else none
  parentDirectory := "/opt"
  sha256 bytes :=
    if bytes = notesArchive then notesDigest
    else if bytes = notesAppArchive then notesAppDigest
    else ""
  parseBundleManifest bytes :=
    if bytes = notesManifest "1.0.0" then .ok ⟨1, 6, notesApplication "1.0.0", []⟩
    else if bytes = notesManifest "1.0.1" then .ok ⟨1, 6, notesApplication "1.0.1", []⟩
    else .error "expected value at line 1 column 1"
  encodeTransaction transaction :=
    osString ("\x7b\"schemaVersion\":" ++ toString transaction.schemaVersion ++
      ",\"archiveSha256\":\"" ++ transaction.archiveSha256 ++ "\"\x7d")
  decodeTransaction bytes :=
    if bytes = osString ("\x7b\"schemaVersion\":1,\"archiveSha256\":\"" ++ notesDigest ++ "\"\x7d")
    then .ok ⟨1, notesDigest⟩
    else if bytes =
        osString ("\x7b\"schemaVersion\":1,\"archiveSha256\":\"" ++ notesAppDigest ++ "\"\x7d")
    then .ok ⟨1, notesAppDigest⟩
    else .error "expected value at line 1 column 1"
  codesign _ := .ok ⟨true, "exit status: 0"⟩
  extract bytes :=
    if bytes = notesArchive then .ok [(osString "notes", notesBundle "1.0.1")]
    else if bytes = notesAppArchive then .ok [(osString "Notes.app", notesApp "1.0.1")]
    else .error "portable archive extraction failed with status exit status: 2"
  processExists _ _ := .ok false
  spawn _ := .ok ()

/-- Version 1.0.0 installed in `/opt` and 1.0.1 staged beside it. -/
def notesStart (name : OsString) (bundle : Node) (archive : List UInt8) : FileSystem :=
  (FileSystem.set (fun _ => none) (.bundle name) (some bundle)).set (.archive (osString "stage"))
    (some (.file archive))

/-- The update of `notes` on Linux. -/
def notesOptions : ApplyOptions := ⟨1, osString "notes", osString "stage", notesDigest, none⟩

/-- The update of `Notes.app` on macOS. -/
def notesAppOptions : ApplyOptions :=
  ⟨1, osString "Notes.app", osString "stage", notesAppDigest, none⟩

/-- Nothing but the bundle and the archive is there at first. -/
theorem notes_start_tidy (name : OsString) (bundle : Node) (archive : List UInt8) :
    Tidy name (osString "stage") (notesStart name bundle archive) := by
  intro location _
  cases location <;> simp [Location.Fits, notesStart, Clearable, Stageable]

/-- What the helper for `notes` leaves behind when it is killed after some calls. -/
def notesKilled (calls : Nat) : FileSystem :=
  ((machine (notesHost .linux)).runSteps calls
    (apply (notesHost .linux) 7 notesOptions,
      notesStart (osString "notes") (notesBundle "1.0.0") notesArchive)).2

/-- The same for `Notes.app`. -/
def notesAppKilled (calls : Nat) : FileSystem :=
  ((machine (notesHost .macos)).runSteps calls
    (apply (notesHost .macos) 7 notesAppOptions,
      notesStart (osString "Notes.app") (notesApp "1.0.0") notesAppArchive)).2

theorem notes_killed_leaves (calls : Nat) : (machine (notesHost .linux)).Leaves
    (apply (notesHost .linux) 7 notesOptions)
    (notesStart (osString "notes") (notesBundle "1.0.0") notesArchive) (notesKilled calls) :=
  Machine.leaves_run_steps ..

theorem notes_app_killed_leaves (calls : Nat) : (machine (notesHost .macos)).Leaves
    (apply (notesHost .macos) 7 notesAppOptions)
    (notesStart (osString "Notes.app") (notesApp "1.0.0") notesAppArchive) (notesAppKilled calls) :=
  Machine.leaves_run_steps ..

/-- What the installation of `notes` evaluates to: its journal, the verification of both bundles, and
the runs that are killed with the bundle in the backup slot and with the journal removed. -/
theorem notes_evaluated :
    ((notesHost .linux).decodeTransaction ((notesHost .linux).encodeTransaction ⟨1, notesDigest⟩) =
        .ok ⟨1, notesDigest⟩ ∧
      ((notesHost .linux).encodeTransaction ⟨1, notesDigest⟩).length ≤ maxTransactionBytes ∧
      (notesHost .linux).sha256 notesArchive = notesDigest) ∧
    (verifyReplacement (notesHost .linux)
        ((Path.at (.bundle (osString "notes"))).fileName (notesHost .linux))
        ((Path.at (.bundle (osString "notes"))).display (notesHost .linux))
        (some (notesBundle "1.0.0")) = .ok () ∧
      verifyReplacement (notesHost .linux)
        ((Path.entry (.expanded (osString "stage")) (osString "notes")).fileName (notesHost .linux))
        ((Path.entry (.expanded (osString "stage")) (osString "notes")).display (notesHost .linux))
        (some (notesBundle "1.0.1")) = .ok () ∧
      ¬ extension ((Path.at (.bundle (osString "notes"))).fileName (notesHost .linux)) =
        some (osString "app") ∧
      ¬ extension ((Path.entry (.expanded (osString "stage")) (osString "notes")).fileName
        (notesHost .linux)) = some (osString "app")) ∧
    ((notesKilled 19 (.archive (osString "stage"))).isSome = true ∧
      (notesKilled 19 (.bundle (osString "notes"))).isSome = false ∧
      ((machine (notesHost .linux)).run (apply (notesHost .linux) 8 notesOptions)
        (notesKilled 19)).1 = .ok ()) ∧
    ((notesKilled 22 (.archive (osString "stage"))).isSome = true ∧
      ((machine (notesHost .linux)).run (apply (notesHost .linux) 8 notesOptions)
        (notesKilled 22)).1 = .ok () ∧
      (readFile (child (osString "manifest.json")
        (((machine (notesHost .linux)).run (apply (notesHost .linux) 8 notesOptions)
          (notesKilled 22)).2 (.previous (osString "notes"))))).toOption =
        some (notesManifest "1.0.1") ∧
      (readFile (child (osString "manifest.json") (some (notesBundle "1.0.0")))).toOption ≠
        some (notesManifest "1.0.1")) := by
  decide +kernel

/-- The same for `Notes.app`, up to the run that does not recover. -/
theorem notes_app_evaluated :
    ((notesHost .macos).decodeTransaction
        ((notesHost .macos).encodeTransaction ⟨1, notesAppDigest⟩) = .ok ⟨1, notesAppDigest⟩ ∧
      ((notesHost .macos).encodeTransaction ⟨1, notesAppDigest⟩).length ≤ maxTransactionBytes ∧
      (notesHost .macos).sha256 notesAppArchive = notesAppDigest ∧
      notesAppArchive ≠ notesArchive) ∧
    (verifyReplacement (notesHost .macos)
        ((Path.at (.bundle (osString "Notes.app"))).fileName (notesHost .macos))
        ((Path.at (.bundle (osString "Notes.app"))).display (notesHost .macos))
        (some (notesApp "1.0.0")) = .ok () ∧
      verifyReplacement (notesHost .macos)
        ((Path.entry (.expanded (osString "stage")) (osString "Notes.app")).fileName
          (notesHost .macos))
        ((Path.entry (.expanded (osString "stage")) (osString "Notes.app")).display
          (notesHost .macos)) (some (notesApp "1.0.1")) = .ok ()) ∧
    (notesAppKilled 19 (.archive (osString "stage"))).isSome = true ∧
      ((machine (notesHost .macos)).run (install (notesHost .macos) 8 notesAppOptions)
        (notesAppKilled 19)).1 ≠ .ok () := by
  decide +kernel

theorem notes_journals : Journals (notesHost .linux) notesDigest :=
  ⟨notes_evaluated.1.1, notes_evaluated.1.2.1⟩

theorem notes_extract :
    (notesHost .linux).extract notesArchive = .ok [(osString "notes", notesBundle "1.0.1")] := by
  simp only [notesHost, if_true]

theorem notes_app_extract : (notesHost .macos).extract notesAppArchive =
    .ok [(osString "Notes.app", notesApp "1.0.1")] := by
  simp only [notesHost, notes_app_evaluated.1.2.2.2, if_true, if_false]

theorem notes_staged : Staged (notesHost .linux) (osString "notes") (osString "stage")
    (osString "notes") notesDigest (notesBundle "1.0.0") (notesBundle "1.0.1")
    (notesStart (osString "notes") (notesBundle "1.0.0") notesArchive) where
  bundle := by simp [notesStart]
  bundleDirectory := rfl
  bundleAccepted := notes_evaluated.2.1.1
  transaction := by simp [notesStart]
  hashes := ⟨notesArchive, by simp [notesStart, readFile, followed], notes_evaluated.1.2.2⟩
  unpacks := ⟨notesArchive, by simp [notesStart, readFile, followed], notes_extract⟩
  newDirectory := rfl
  newAccepted := notes_evaluated.2.1.2.1

theorem notes_app_staged : Staged (notesHost .macos) (osString "Notes.app") (osString "stage")
    (osString "Notes.app") notesAppDigest (notesApp "1.0.0") (notesApp "1.0.1")
    (notesStart (osString "Notes.app") (notesApp "1.0.0") notesAppArchive) where
  bundle := by simp [notesStart]
  bundleDirectory := rfl
  bundleAccepted := notes_app_evaluated.2.1.1
  transaction := by simp [notesStart]
  hashes := ⟨notesAppArchive, by simp [notesStart, readFile, followed],
    notes_app_evaluated.1.2.2.1⟩
  unpacks := ⟨notesAppArchive, by simp [notesStart, readFile, followed], notes_app_extract⟩
  newDirectory := rfl
  newAccepted := notes_app_evaluated.2.1.2

/-- The old bundle of `notes` is in the backup slot when the helper is killed. -/
theorem notes_installation_recovers : HasBundle (notesHost .linux) (osString "notes")
      (notesKilled 19) ∧
    ∃ fs', (machine (notesHost .linux)).run (install (notesHost .linux) 8 notesOptions)
        (notesKilled 19) = (.ok (), fs') ∧
      fs' (.bundle (osString "notes")) = some (notesBundle "1.0.1") ∧
      fs' (.transaction (osString "notes")) = none := by
  have hreversible : Reversible (notesHost .linux) (osString "notes") (osString "stage")
      (notesBundle "1.0.0") (notesBundle "1.0.1")
      (notesStart (osString "notes") (notesBundle "1.0.0") notesArchive) :=
    plain_reversible (notes_start_tidy _ _ _) notes_staged.bundleAccepted notes_staged.newAccepted
      notes_evaluated.2.1.2.2.1 notes_evaluated.2.1.2.2.2
  have hruns : Attempts (notesHost .linux) (osString "notes") (osString "stage") notesDigest
      (fun _ => True) (notesStart (osString "notes") (notesBundle "1.0.0") notesArchive)
      (notesKilled 19) :=
    .single ⟨trivial, 7, notesOptions, rfl, rfl, rfl, notes_killed_leaves 19⟩
  have hrecovers := interrupted_installation_recovers notes_journals notes_staged hreversible hruns
  have harchive := notes_evaluated.2.2.1.1
  exact ⟨hrecovers.1, hrecovers.2 8 notesOptions rfl rfl rfl ⟨0, by decide, rfl, by omega⟩
    (Option.isSome_iff_ne_none.mp harchive)⟩

/-- `Notes.app` does not recover: in the backup slot its name ends in `.previous`, so verification
takes it for a plain bundle and misses the manifest. -/
theorem renamed_application_not_recovered :
    Staged (notesHost .macos) (osString "Notes.app") (osString "stage") (osString "Notes.app")
        notesAppDigest (notesApp "1.0.0") (notesApp "1.0.1")
        (notesStart (osString "Notes.app") (notesApp "1.0.0") notesAppArchive) ∧
      Tidy (osString "Notes.app") (osString "stage")
        (notesStart (osString "Notes.app") (notesApp "1.0.0") notesAppArchive) ∧
      Attempts (notesHost .macos) (osString "Notes.app") (osString "stage") notesAppDigest
        (fun _ => True) (notesStart (osString "Notes.app") (notesApp "1.0.0") notesAppArchive)
        (notesAppKilled 19) ∧
      ParentExits (notesHost .macos) notesAppOptions.parentPid ∧
      (notesAppKilled 19 (.archive (osString "stage"))).isSome = true ∧
      ((machine (notesHost .macos)).run (install (notesHost .macos) 8 notesAppOptions)
        (notesAppKilled 19)).1 ≠ .ok () := by
  refine ⟨notes_app_staged, notes_start_tidy _ _ _, ?_, ⟨0, by decide, rfl, by omega⟩, ?_, ?_⟩
  · exact .single ⟨trivial, 7, notesAppOptions, rfl, rfl, rfl, notes_app_killed_leaves 19⟩
  · exact notes_app_evaluated.2.2.1
  · exact notes_app_evaluated.2.2.2

/-- The states in which a run may start without using up the backup: the archive is there, and the
swap is not already committed, unless it has replaced a bundle by itself. -/
def Unfinished (host : Host) (name stage : OsString) (sha256 : String) (old new : Node)
    (fs : FileSystem) : Prop :=
  fs (.archive stage) ≠ none ∧ (AtStage host name sha256 old new .committed fs → old = new)

/-- From an unfinished state the next run swaps the old bundle. -/
theorem InSwap.resumes (h : InSwap host name stage sha256 old new start fs)
    (hunfinished : Unfinished host name stage sha256 old new fs) :
    Own name stage start fs ∧
      ∃ swapStage ≠ .committed, AtStage host name sha256 old new swapStage fs := by
  obtain ⟨⟨swapStage, hstage⟩, hown⟩ := h
  by_cases hcommitted : swapStage = .committed
  · subst hcommitted
    obtain rfl := hunfinished.2 hstage
    exact ⟨hown, .settled, by simp, hstage.settled_again⟩
  · exact ⟨hown, swapStage, hcommitted, hstage⟩

/-- What a history of attempts from unfinished states preserves: the swap of the old bundle. -/
theorem unfinished_attempts_in_swap (hjournal : Journals host sha256)
    (hold : old.isDirectory = true) (hnew : new.isDirectory = true)
    (hunpacks : Unpacks host stage root new start)
    (hsettled : AtStage host name sha256 old new .settled start)
    (hruns : Attempts host name stage sha256 (Unfinished host name stage sha256 old new) start fs) :
    InSwap host name stage sha256 old new start fs := by
  induction hruns with
  | refl => exact hsettled.in_swap (Own.refl start)
  | tail _ hrun ih =>
      obtain ⟨hunfinished, pid, options, rfl, rfl, rfl, hleaves⟩ := hrun
      obtain ⟨hown, swapStage, hstage, hat⟩ := ih.resumes hunfinished
      exact (apply_safe pid hjournal hold hnew hat hstage hown hunpacks).of_leaves hleaves

/-- Under a journal of another archive no history of attempts changes the files. -/
theorem foreign_attempts_keep {node : Node} (hforeign : Foreign host sha256 node)
    (htransaction : start (.transaction name) = some node)
    (hruns : Attempts host name stage sha256 admitted start fs) : fs = start := by
  induction hruns with
  | refl => rfl
  | tail _ hrun ih =>
      obtain ⟨-, pid, options, rfl, rfl, rfl, hleaves⟩ := hrun
      subst ih
      exact (apply_blocked (fun s => s = _) pid htransaction hforeign rfl).of_leaves hleaves

/-- However often an update is interrupted, once a run succeeds the backup is the bundle that was
installed before the first run, provided that no run starts after the commit of another. -/
theorem rollback_version_kept (hjournal : Journals host sha256)
    (hbundle : start (.bundle name) = some old) (hold : old.isDirectory = true)
    (hpending : ∀ node, start (.transaction name) = some node → Foreign host sha256 node)
    (hunpacks : Unpacks host stage root new start) (hnew : new.isDirectory = true)
    (hruns : Attempts host name stage sha256 (Unfinished host name stage sha256 old new) start fs)
    (hlast : Unfinished host name stage sha256 old new fs) {pid : Nat} {options : ApplyOptions}
    (hname : options.bundle = name) (hstaged : options.archive = stage)
    (hdigest : options.sha256 = sha256)
    (hrun : (machine host).run (apply host pid options) fs = (.ok (), fs')) :
    fs' (.previous name) = some old ∧ fs' (.bundle name) = some new := by
  subst hname hstaged hdigest
  cases htransaction : start (.transaction options.bundle) with
  | none =>
      have hswap := unfinished_attempts_in_swap hjournal hold hnew hunpacks
        ⟨htransaction, hbundle⟩ hruns
      obtain ⟨hown, swapStage, hstage, hat⟩ := hswap.resumes hlast
      have hend := (apply_safe pid hjournal hold hnew hat hstage hown hunpacks).of_run.2
      simp only [hrun] at hend
      exact ⟨hend.2.2.1, hend.2.1⟩
  | some node =>
      have hforeign := hpending node htransaction
      obtain rfl := foreign_attempts_keep hforeign htransaction hruns
      have hend := (apply_blocked (fun _ => True) pid htransaction hforeign trivial).of_run.2
      simp only [hrun] at hend

/-- The helper for `notes` is killed while the old bundle is in the backup slot, and runs again. -/
theorem notes_rollback_version_kept :
    (((machine (notesHost .linux)).run (apply (notesHost .linux) 8 notesOptions)
        (notesKilled 19)).2 (.previous (osString "notes")) = some (notesBundle "1.0.0") ∧
      ((machine (notesHost .linux)).run (apply (notesHost .linux) 8 notesOptions)
        (notesKilled 19)).2 (.bundle (osString "notes")) = some (notesBundle "1.0.1")) := by
  have hstart : Unfinished (notesHost .linux) (osString "notes") (osString "stage") notesDigest
      (notesBundle "1.0.0") (notesBundle "1.0.1")
      (notesStart (osString "notes") (notesBundle "1.0.0") notesArchive) := by
    refine ⟨by simp [notesStart], fun hcommitted => ?_⟩
    simpa [notesStart] using hcommitted.2.2.1
  have hlast : Unfinished (notesHost .linux) (osString "notes") (osString "stage") notesDigest
      (notesBundle "1.0.0") (notesBundle "1.0.1") (notesKilled 19) := by
    obtain ⟨harchive, hbundle, -⟩ := notes_evaluated.2.2.1
    refine ⟨Option.isSome_iff_ne_none.mp harchive, fun hcommitted => ?_⟩
    rw [hcommitted.2.1] at hbundle
    cases hbundle
  have hrun := notes_evaluated.2.2.1.2.2
  exact rollback_version_kept notes_journals notes_staged.bundle notes_staged.bundleDirectory
    (fun node hnode => by simp [notesStart] at hnode) notes_staged.unpacks notes_staged.newDirectory
    (.single ⟨hstart, 7, notesOptions, rfl, rfl, rfl, notes_killed_leaves 19⟩) hlast rfl rfl rfl
    (Machine.run_of_result hrun)

/-- Killed between the removal of the journal and that of the archive, the helper swaps the new
bundle for itself when it runs again, and the old one is gone. -/
theorem rollback_version_consumed :
    Attempts (notesHost .linux) (osString "notes") (osString "stage") notesDigest
        (fun fs => fs (.archive (osString "stage")) ≠ none)
        (notesStart (osString "notes") (notesBundle "1.0.0") notesArchive) (notesKilled 22) ∧
      (notesKilled 22 (.archive (osString "stage"))).isSome = true ∧
      ((machine (notesHost .linux)).run (apply (notesHost .linux) 8 notesOptions)
        (notesKilled 22)).1 = .ok () ∧
      ((machine (notesHost .linux)).run (apply (notesHost .linux) 8 notesOptions)
        (notesKilled 22)).2 (.previous (osString "notes")) ≠ some (notesBundle "1.0.0") := by
  obtain ⟨harchive, hrun, hother, hold⟩ := notes_evaluated.2.2.2
  refine ⟨?_, harchive, hrun, fun hkept => hold ?_⟩
  · exact .single ⟨by simp [notesStart], 7, notesOptions, rfl, rfl, rfl, notes_killed_leaves 22⟩
  · rwa [hkept] at hother

end PamDesktop.Updater
