import PamDesktop.Updater.Volume

/-!
# The update helper

`apply` as a program of file operations, and the functions it is made of. `install` is all of
`apply` up to the relaunch, which both of its successful exits end with. A helper is named by
its process id, because its journal is staged under that id.
-/

namespace PamDesktop.Updater

open Foundations Protocol

/-- `MAX_TRANSACTION_BYTES`. -/
def maxTransactionBytes : Nat := 4 * 1024

/-- `PARENT_EXIT_TIMEOUT` in polls of 250 milliseconds: the last one is made after it passed. -/
def parentExitPolls : Nat := 120000 / 250 + 2

/-- `RecoveryOutcome`. -/
inductive RecoveryOutcome where
  | ready
  | alreadyInstalled
deriving DecidableEq

/-- `ApplyOptions`: the bundle by its name in the parent directory, the archive by the stage
that holds it. -/
structure ApplyOptions where
  parentPid : Nat
  bundle : OsString
  archive : OsString
  sha256 : String
  launcher : Option String

/-- `resolve_bundle_target`, for a bundle of the parent directory. -/
def resolveBundleTarget (name : OsString) : Helper Unit := do
  match ← lookup (.at (.bundle name)) with
  | none => pure ()
  | some (.directory _) => pure ()
  | some _ => bail "installed bundle must be a regular directory, never a symlink"

/-- `Path::canonicalize` of the staged archive. -/
def resolveArchive (stage : OsString) : Helper Unit := do
  match followed (← lookup (.at (.archive stage))) with
  | none => bail ("cannot resolve staged update archive: " ++ IoError.notFound.text)
  | some _ => pure ()

/-- `verify_file_hash` on the staged archive. -/
def verifyArchiveHash (host : Host) (stage : OsString) (sha256 : String) : Helper Unit := do
  let path := (Location.archive stage).display host
  match readFile (← lookup (.at (.archive stage))) with
  | .ok bytes => check (verifyFileHash host path bytes sha256)
  | .error .notFound => bail ("cannot open " ++ path ++ ": " ++ IoError.notFound.text)
  | .error error => bail ("cannot hash " ++ path ++ ": " ++ error.text)

/-- The polling loop of `wait_for_parent`. -/
def pollParent (pid : Nat) : Nat → Nat → Helper Unit
  | 0, _ => bail "timed out waiting for the desktop host to exit"
  | polls + 1, poll =>
      .call (.processExists pid poll) fun
        | .ok false => pure ()
        | .ok true => pollParent pid polls (poll + 1)
        | .error error => bail error

/-- `wait_for_parent`. -/
def waitForParent (pid : Nat) : Helper Unit := pollParent pid parentExitPolls 0

/-- `scoped_directory_exists`. -/
def scopedDirectoryExists (location : Location) (label : String) : Helper Bool := do
  match ← lookup (.at location) with
  | some (.directory _) => pure true
  | some _ => bail (label ++ " must be a regular directory")
  | none => pure false

/-- `remove_scoped_directory`. -/
def removeScopedDirectory (location : Location) (label : String) : Helper Unit := do
  match ← lookup (.at location) with
  | some (.directory _) =>
      (removeDirAll location).orFail fun error => "cannot remove " ++ label ++ ": " ++ error.text
  | some _ => bail (label ++ " must be a regular directory")
  | none => bail ("cannot inspect " ++ label ++ ": " ++ IoError.notFound.text)

/-- `if path.exists() { remove_scoped_directory(path)? }`. -/
def clearSlot (location : Location) (label : String) : Helper Unit := do
  if Node.present (← lookup (.at location)) then removeScopedDirectory location label
  else pure ()

/-- `verify_replacement` on a path. -/
def verifyAt (host : Host) (path : Path) : Helper (Except String Unit) := do
  let node ← lookup path
  pure (verifyReplacement host (path.fileName host) (path.display host) node)

/-- `verify_replacement(..).map_err(..)?`. -/
def requireVerified (host : Host) (path : Path) (message : String) : Helper Unit := do
  match ← verifyAt host path with
  | .ok () => pure ()
  | .error error => bail (message ++ error)

/-- `read_update_transaction`: whether a journal for this archive is pending. -/
def readUpdateTransaction (host : Host) (name : OsString) (expectedSha256 : String) :
    Helper Bool := do
  match ← lookup (.at (.transaction name)) with
  | none => pure false
  | some (.file bytes) =>
      if maxTransactionBytes < bytes.length then
        bail "update transaction is not a bounded regular file"
      else
        match readFile (← lookup (.at (.transaction name))) with
        | .error error => bail ("cannot read update transaction: " ++ error.text)
        | .ok bytes =>
            match host.decodeTransaction bytes with
            | .error error => bail ("cannot decode update transaction: " ++ error)
            | .ok transaction =>
                if transaction.schemaVersion ≠ 1 ∨ transaction.archiveSha256 ≠ expectedSha256 then
                  bail "update transaction does not match the staged archive"
                else pure true
  | some _ => bail "update transaction is not a bounded regular file"

/-- The closure of `write_update_transaction`: stage the journal and publish it by renaming. -/
def publishTransaction (host : Host) (pid : Nat) (name : OsString) (sha256 : String) :
    Helper Unit := do
  let temporary := Location.transactionStaging name pid
  (createNew temporary).orFail fun error => "cannot create update transaction: " ++ error.text
  (writeAll temporary (host.encodeTransaction ⟨1, sha256⟩)).orFail fun error =>
    "cannot persist update transaction: " ++ error.text
  (rename (.at temporary) (.transaction name)).orFail fun error =>
    "cannot publish update transaction: " ++ error.text

/-- `write_update_transaction`. -/
def writeUpdateTransaction (host : Host) (pid : Nat) (name : OsString) (sha256 : String) :
    Helper Unit := do
  let temporary := Location.transactionStaging name pid
  if Node.present (← lookup (.at temporary)) then
    (removeFile temporary).orFail fun error =>
      "cannot reset update transaction staging file: " ++ error.text
  else pure ()
  let result ← (publishTransaction host pid name sha256).attempt
  let _ ← removeFile temporary
  check result

/-- `reconcile_interrupted_update` when the journal is pending and both directories exist. -/
def reconcileBoth (host : Host) (name : OsString) : Helper RecoveryOutcome := do
  match ← verifyAt host (.at (.bundle name)) with
  | .ok () => do
      (removeFile (.transaction name)).orFail fun error =>
        "cannot finish recovered update transaction: " ++ error.text
      pure .alreadyInstalled
  | .error _ => do
      requireVerified host (.at (.previous name)) "update backup cannot be recovered: "
      clearSlot (.failed name) "failed update bundle"
      (rename (.at (.bundle name)) (.failed name)).orFail fun error =>
        "cannot quarantine interrupted replacement: " ++ error.text
      (rename (.at (.previous name)) (.bundle name)).orFail fun error =>
        "cannot restore interrupted update backup: " ++ error.text
      (removeFile (.transaction name)).orFail fun error =>
        "cannot finish update rollback transaction: " ++ error.text
      pure .ready

/-- `reconcile_interrupted_update` when only the backup exists. -/
def reconcileBackup (host : Host) (name : OsString) : Helper RecoveryOutcome := do
  requireVerified host (.at (.previous name)) "update backup cannot be recovered: "
  (rename (.at (.previous name)) (.bundle name)).orFail fun error =>
    "cannot restore interrupted update backup: " ++ error.text
  (removeFile (.transaction name)).orFail fun error =>
    "cannot finish update recovery transaction: " ++ error.text
  pure .ready

/-- `reconcile_interrupted_update` when only the bundle exists. -/
def reconcileBundle (host : Host) (name : OsString) : Helper RecoveryOutcome := do
  requireVerified host (.at (.bundle name)) "installed bundle cannot resume update: "
  (removeFile (.transaction name)).orFail fun error =>
    "cannot reset unstarted update transaction: " ++ error.text
  pure .ready

/-- `reconcile_interrupted_update`. -/
def reconcileInterruptedUpdate (host : Host) (name : OsString) (expectedSha256 : String) :
    Helper RecoveryOutcome := do
  match ← readUpdateTransaction host name expectedSha256 with
  | false => do
      if Node.isDir (← lookup (.at (.bundle name))) then pure .ready
      else bail "installed bundle is missing and no recovery transaction exists"
  | true => do
      let bundleExists ← scopedDirectoryExists (.bundle name) "installed bundle"
      let backupExists ← scopedDirectoryExists (.previous name) "update recovery backup"
      match bundleExists, backupExists with
      | true, true => reconcileBoth host name
      | false, true => reconcileBackup host name
      | true, false => reconcileBundle host name
      | false, false =>
          bail ("installed bundle and its recovery backup are both missing; " ++
            "refusing destructive recovery")

/-- `single_extracted_root`. -/
def singleExtractedRoot (stage : OsString) : Helper Path := do
  match ← lookup (.at (.expanded stage)) with
  | some (.directory [(name, .directory _)]) => pure (.entry (.expanded stage) name)
  | some (.directory [_]) => bail "portable update root must be a directory"
  | some (.directory _) => bail "portable update must contain exactly one bundle directory"
  | _ => bail ("cannot inspect extracted update: " ++ IoError.notADirectory.text)

/-- The extraction step of `apply`: reset `expanded`, unpack the archive into it and verify the
single directory that comes out. -/
def expandReplacement (host : Host) (stage : OsString) : Helper Path := do
  let expanded := Location.expanded stage
  if Node.present (← lookup (.at expanded)) then
    (removeDirAll expanded).orFail fun error =>
      "cannot reset update extraction directory: " ++ error.text
  else pure ()
  (createDir expanded).orFail fun error =>
    "cannot create update extraction directory: " ++ error.text
  extractArchive (.archive stage) expanded
  let replacement ← singleExtractedRoot stage
  requireVerified host replacement ""
  pure replacement

/-- The end of a failed swap: put the backup back and say whether that worked. -/
def rollBack (name : OsString) (succeeded : String) (failed : IoError → String) : Helper Unit := do
  match ← rename (.at (.previous name)) (.bundle name) with
  | .ok () => do
      let _ ← removeFile (.transaction name)
      bail succeeded
  | .error error => bail (failed error)

/-- The swap of `apply` once the bundle has been moved to its backup slot: move the replacement
in, verify it in place, and roll back if either fails. -/
def installReplacement (host : Host) (name : OsString) (replacement : Path) : Helper Unit := do
  match ← rename replacement (.bundle name) with
  | .error error =>
      rollBack name
        ("cannot install the replacement bundle; rollback succeeded: " ++ error.text)
        fun rollback => "cannot install the replacement bundle (" ++ error.text ++
          ") and rollback failed (" ++ rollback.text ++ ")"
  | .ok () => do
      match ← verifyAt host (.at (.bundle name)) with
      | .ok () => pure ()
      | .error error => do
          let _ ← rename (.at (.bundle name)) (.failed name)
          rollBack name
            ("installed bundle verification failed; rollback succeeded: " ++ error)
            fun rollback => "installed bundle verification failed (" ++ error ++
              ") and rollback failed (" ++ rollback.text ++ ")"

/-- `cleanup_update_stage`. -/
def cleanupUpdateStage (stage : OsString) : Helper Unit := do
  clearSlot (.expanded stage) "update extraction directory"
  if Node.present (← lookup (.at (.archive stage))) then
    (removeFile (.archive stage)).orFail fun error =>
      "cannot remove installed update archive: " ++ error.text
  else pure ()

/-- The part of `apply` that replaces the bundle, entered when nothing is left to recover. -/
def swap (host : Host) (pid : Nat) (options : ApplyOptions) : Helper Unit := do
  let replacement ← expandReplacement host options.archive
  clearSlot (.previous options.bundle) "previous update backup"
  clearSlot (.failed options.bundle) "failed update bundle"
  writeUpdateTransaction host pid options.bundle options.sha256
  (rename (.at (.bundle options.bundle)) (.previous options.bundle)).orFail fun error =>
    "cannot move the installed bundle to backup: " ++ error.text
  installReplacement host options.bundle replacement
  (removeFile (.transaction options.bundle)).orFail fun error =>
    "update installed but transaction cleanup failed: " ++ error.text

/-- `apply` before the relaunch, run by the process `pid`. -/
def install (host : Host) (pid : Nat) (options : ApplyOptions) : Helper Unit := do
  resolveBundleTarget options.bundle
  resolveArchive options.archive
  verifyArchiveHash host options.archive options.sha256
  waitForParent options.parentPid
  match ← reconcileInterruptedUpdate host options.bundle options.sha256 with
  | .alreadyInstalled => cleanupUpdateStage options.archive
  | .ready => do
      swap host pid options
      cleanupUpdateStage options.archive

/-- `relaunch`. -/
def relaunch (host : Host) (bundle : OsString) (launcher : Option String) : Helper Unit := do
  match launcher with
  | none => pure ()
  | some launcher => do
      let _ ← check (validateRelativePath host launcher "update relaunch path")
      let executable := (Location.bundle bundle).display host ++ "/" ++ launcher
      (Program.call (.spawn executable) .done : Helper (Except String Unit)).orFail fun error =>
        "update installed but application relaunch failed: " ++ error

/-- `apply`, run by the process `pid`. -/
def apply (host : Host) (pid : Nat) (options : ApplyOptions) : Helper Unit := do
  install host pid options
  relaunch host options.bundle options.launcher

end PamDesktop.Updater
