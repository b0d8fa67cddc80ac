import Mathlib.Logic.Function.Basic
import PamDesktop.Foundations.Program
import PamDesktop.Updater.Bundle

/-!
# The directory an update helper works in

The installed bundle, its sibling slots and the update stages all lie in one parent directory.
A `Location` is one of the paths the helper computes there, a `FileSystem` says what each
location holds, and `machine` says what each file operation does to it. A recursive removal, an
extraction and a write can be cut off half way; every other operation is atomic.
-/

namespace PamDesktop.Updater

open Foundations Protocol

/-- The paths of an update: those beside the bundle called `name`, and those inside the update
stage called `stage`. -/
inductive Location where
  | bundle (name : OsString)
  | previous (name : OsString)
  | failed (name : OsString)
  | transaction (name : OsString)
  | transactionStaging (name : OsString) (pid : Nat)
  | archive (stage : OsString)
  | expanded (stage : OsString)
deriving DecidableEq

/-- `archive_name`. -/
def archiveName (host : Host) : String :=
  if host.operatingSystem = .linux then "update.tar.gz" else "update.zip"

/-- The last component of the path of a location. -/
def Location.fileName (host : Host) : Location → OsString
  | .bundle name => name
  | .previous name => osString ("." ++ toStringLossy name ++ ".previous")
  | .failed name => osString ("." ++ toStringLossy name ++ ".failed")
  | .transaction name => osString ("." ++ toStringLossy name ++ ".update-transaction.json")
  | .transactionStaging name pid =>
      osString ("." ++ toStringLossy name ++ ".update-transaction.json.tmp." ++ toString pid)
  | .archive _ => osString (archiveName host)
  | .expanded _ => osString "expanded"

/-- The path of a location, for messages. -/
def Location.display (host : Host) : Location → String
  | .archive stage => displayPath host.parentDirectory [stage, osString (archiveName host)]
  | .expanded stage => displayPath host.parentDirectory [stage, osString "expanded"]
  | location => displayPath host.parentDirectory [location.fileName host]

/-- A path that can be read or moved away: a location, or a direct entry of a directory. -/
inductive Path where
  | at (location : Location)
  | entry (directory : Location) (name : OsString)
deriving DecidableEq

/-- The last component of a path. -/
def Path.fileName (host : Host) : Path → OsString
  | .at location => location.fileName host
  | .entry _ name => name

/-- The path, for messages. -/
def Path.display (host : Host) : Path → String
  | .at location => location.display host
  | .entry directory name => directory.display host ++ "/" ++ toStringLossy name

/-- What the locations hold. -/
abbrev FileSystem := Location → Option Node

namespace FileSystem

/-- Replace what a location holds. -/
def set (fs : FileSystem) (location : Location) (node : Option Node) : FileSystem :=
  Function.update fs location node

@[simp] theorem set_same (fs : FileSystem) (location : Location) (node : Option Node) :
    fs.set location node location = node := Function.update_self ..

@[simp] theorem set_of_ne (fs : FileSystem) {location other : Location} (node : Option Node)
    (h : other ≠ location) : fs.set location node other = fs other :=
  Function.update_of_ne h ..

@[simp] theorem set_set (fs : FileSystem) (location : Location) (first second : Option Node) :
    (fs.set location first).set location second = fs.set location second :=
  Function.update_idem ..

@[simp] theorem set_self (fs : FileSystem) (location : Location) :
    fs.set location (fs location) = fs := Function.update_eq_self ..

theorem set_comm (fs : FileSystem) {location other : Location} (h : location ≠ other)
    (node node' : Option Node) :
    (fs.set location node).set other node' = (fs.set other node').set location node :=
  Function.update_comm h ..

/-- What a path holds. -/
def lookup (fs : FileSystem) : Path → Option Node
  | .at location => fs location
  | .entry directory name => (fs directory).bind (Node.entry name)

/-- Take away what a path holds. -/
def detach (fs : FileSystem) : Path → FileSystem
  | .at location => fs.set location none
  | .entry directory name =>
      match fs directory with
      | some (.directory entries) =>
          fs.set directory (some (.directory (entries.filter fun item => item.1 ≠ name)))
      | _ => fs

/-- Why a node cannot be renamed onto what the target holds. -/
def obstacle : Node → Option Node → Option IoError
  | _, none => none
  | .directory _, some (.directory []) => none
  | .directory _, some (.directory _) => some .directoryNotEmpty
  | .directory _, some _ => some .notADirectory
  | _, some (.directory _) => some .isADirectory
  | _, some _ => none

/-- `fs::rename`. -/
def rename (fs : FileSystem) (source : Path) (target : Location) :
    Except IoError Unit × FileSystem :=
  match fs.lookup source with
  | none => (.error .notFound, fs)
  | some node =>
      match obstacle node (fs target) with
      | some error => (.error error, fs)
      | none => (.ok (), (fs.detach source).set target (some node))

/-- `fs::create_dir`. -/
def createDir (fs : FileSystem) (location : Location) : Except IoError Unit × FileSystem :=
  match fs location with
  | none => (.ok (), fs.set location (some (.directory [])))
  | some _ => (.error .alreadyExists, fs)

/-- `fs::remove_dir_all`, completed. A link is itself removed, not what it resolves to. -/
def removeDirAll (fs : FileSystem) (location : Location) : Except IoError Unit × FileSystem :=
  match fs location with
  | none => (.error .notFound, fs)
  | some (.directory _) => (.ok (), fs.set location none)
  | some (.symlink _) => (.ok (), fs.set location none)
  | some _ => (.error .notADirectory, fs)

/-- `fs::remove_file`. -/
def removeFile (fs : FileSystem) (location : Location) : Except IoError Unit × FileSystem :=
  match fs location with
  | none => (.error .notFound, fs)
  | some (.directory _) => (.error .isADirectory, fs)
  | some _ => (.ok (), fs.set location none)

/-- `OpenOptions::create_new`: an empty file that did not exist before. -/
def createNew (fs : FileSystem) (location : Location) : Except IoError Unit × FileSystem :=
  match fs location with
  | none => (.ok (), fs.set location (some (.file [])))
  | some _ => (.error .alreadyExists, fs)

/-- `write_all` and `sync_all` on a file that was just created. -/
def writeAll (fs : FileSystem) (location : Location) (bytes : List UInt8) :
    Except IoError Unit × FileSystem :=
  match fs location with
  | some (.file _) => (.ok (), fs.set location (some (.file bytes)))
  | _ => (.error .notFound, fs)

/-- `extract_archive`, completed: the platform's program unpacks the archive into a directory. -/
def extract (host : Host) (fs : FileSystem) (archive target : Location) :
    Except String Unit × FileSystem :=
  match readFile (fs archive) with
  | .error _ => (.error "portable archive extraction failed with status exit status: 2", fs)
  | .ok bytes =>
      match host.extract bytes with
      | .error error => (.error error, fs)
      | .ok entries => (.ok (), fs.set target (some (.directory entries)))

end FileSystem

/-- The operations of the helper. `lookup` stands for every way of reading: metadata, contents
and whole trees. -/
inductive Call where
  | lookup (path : Path)
  | rename (source : Path) (target : Location)
  | createDir (location : Location)
  | removeDirAll (location : Location)
  | removeFile (location : Location)
  | createNew (location : Location)
  | writeAll (location : Location) (bytes : List UInt8)
  | extract (archive target : Location)
  | processExists (pid poll : Nat)
  | spawn (program : String)

/-- The answer to each operation. -/
abbrev Call.Reply : Call → Type
  | .lookup _ => Option Node
  | .rename _ _ | .createDir _ | .removeDirAll _ | .removeFile _ | .createNew _
  | .writeAll _ _ => Except IoError Unit
  | .extract _ _ | .spawn _ => Except String Unit
  | .processExists _ _ => Except String Bool

/-- The operations with their answers. -/
abbrev files : Signature := ⟨Call, Call.Reply⟩

/-- A part of the update helper: it ends with a value or with the text of an error. -/
abbrev Helper := Program files String

/-- A completed operation. -/
def perform (host : Host) : (call : Call) → FileSystem → call.Reply × FileSystem
  | .lookup path, fs => (fs.lookup path, fs)
  | .rename source target, fs => fs.rename source target
  | .createDir location, fs => fs.createDir location
  | .removeDirAll location, fs => fs.removeDirAll location
  | .removeFile location, fs => fs.removeFile location
  | .createNew location, fs => fs.createNew location
  | .writeAll location bytes, fs => fs.writeAll location bytes
  | .extract archive target, fs => fs.extract host archive target
  | .processExists pid poll, fs => (host.processExists pid poll, fs)
  | .spawn program, fs => (host.spawn program, fs)

/-- What can be seen of an operation that is under way: a removal has taken away part of the
tree, an extraction has produced any part of its result, a write has written a prefix. -/
inductive Partway : Call → FileSystem → FileSystem → Prop where
  | removeDirAll (location : Location) (fs : FileSystem) (node node' : Node) :
      fs location = some node → node.Unlinked node' →
      Partway (.removeDirAll location) fs (fs.set location (some node'))
  | extract (archive target : Location) (fs : FileSystem) (before after : List (OsString × Node)) :
      fs target = some (.directory before) →
      Partway (.extract archive target) fs (fs.set target (some (.directory after)))
  | writeAll (location : Location) (bytes written before : List UInt8) (fs : FileSystem) :
      fs location = some (.file before) → written <+: bytes →
      Partway (.writeAll location bytes) fs (fs.set location (some (.file written)))

/-- The file operations as a machine. -/
abbrev machine (host : Host) : Machine files FileSystem := ⟨perform host, Partway⟩

/-- Read a path. -/
def lookup (path : Path) : Helper (Option Node) := .call (.lookup path) .done

/-- `fs::rename`, with its result. -/
def rename (source : Path) (target : Location) : Helper (Except IoError Unit) :=
  .call (.rename source target) .done

/-- `fs::create_dir`, with its result. -/
def createDir (location : Location) : Helper (Except IoError Unit) :=
  .call (.createDir location) .done

/-- `fs::remove_dir_all`, with its result. -/
def removeDirAll (location : Location) : Helper (Except IoError Unit) :=
  .call (.removeDirAll location) .done

/-- `fs::remove_file`, with its result. -/
def removeFile (location : Location) : Helper (Except IoError Unit) :=
  .call (.removeFile location) .done

/-- Create a file that did not exist, with its result. -/
def createNew (location : Location) : Helper (Except IoError Unit) :=
  .call (.createNew location) .done

/-- Write a file that was just created, with its result. -/
def writeAll (location : Location) (bytes : List UInt8) : Helper (Except IoError Unit) :=
  .call (.writeAll location bytes) .done

/-- `extract_archive`. -/
def extractArchive (archive target : Location) : Helper Unit :=
  (Program.call (.extract archive target) .done : Helper (Except String Unit)).orFail id

/-- End with an error. -/
def bail {α : Type} (message : String) : Helper α := .fail message

/-- Go on with a computed result, or end with its error. -/
def check {α : Type} (result : Except String α) : Helper α := .ofExcept result

/-! ## Outcomes of a rename -/

namespace FileSystem

/-- A rename onto a free target goes through. -/
theorem rename_free (fs : FileSystem) (source : Path) (target : Location) {node : Node}
    (hsource : fs.lookup source = some node) (htarget : fs target = none) :
    fs.rename source target = (.ok (), (fs.detach source).set target (some node)) := by
  simp [rename, hsource, htarget, obstacle]

/-- A rename goes through or changes nothing. -/
theorem rename_cases (fs : FileSystem) (source : Path) (target : Location) {node : Node}
    (hsource : fs.lookup source = some node) :
    (∃ error, fs.rename source target = (.error error, fs)) ∨
      fs.rename source target = (.ok (), (fs.detach source).set target (some node)) := by
  cases hobstacle : obstacle node (fs target) with
  | none => simp [rename, hsource, hobstacle]
  | some error => simp [rename, hsource, hobstacle]

/-- A dangling link is not there for `exists` and yet stands in the way of a directory. -/
theorem rename_onto_dangling (fs : FileSystem) (source : Path) (target : Location)
    {entries : List (OsString × Node)} (hsource : fs.lookup source = some (.directory entries))
    (habsent : Node.present (fs target) = false) (hheld : fs target ≠ none) :
    fs.rename source target = (.error .notADirectory, fs) := by
  cases htarget : fs target with
  | none => exact absurd htarget hheld
  | some node =>
      cases node with
      | symlink link => simp [rename, hsource, htarget, obstacle]
      | file _ | directory _ | special => simp [htarget, Node.present] at habsent

end FileSystem

/-! ## Rules for the operations

An atomic operation is one transition, so `Safe` of a program that starts with one is the
invariant now and `Safe` of the rest after it. `simp` runs a program forward with these. -/

section Rules

variable {host : Host} {inv : FileSystem → Prop} {α : Type} {ok : α → FileSystem → Prop}
  {err : String → FileSystem → Prop} {fs : FileSystem}

@[simp] theorem safe_done {value : α} :
    (machine host).Safe inv ok err (.done value) fs ↔ inv fs ∧ ok value fs := Iff.rfl

@[simp] theorem safe_fail {error : String} :
    (machine host).Safe inv ok err (.fail error : Helper α) fs ↔ inv fs ∧ err error fs := Iff.rfl

@[simp] theorem safe_lookup {path : Path} {next : Option Node → Helper α} :
    (machine host).Safe inv ok err (.call (.lookup path) next) fs ↔
      inv fs ∧ (machine host).Safe inv ok err (next (fs.lookup path)) fs :=
  Machine.Safe.call_iff fun _ h => nomatch h

@[simp] theorem safe_rename {source : Path} {target : Location}
    {next : Except IoError Unit → Helper α} :
    (machine host).Safe inv ok err (.call (.rename source target) next) fs ↔
      inv fs ∧ (machine host).Safe inv ok err (next (fs.rename source target).1)
        (fs.rename source target).2 :=
  Machine.Safe.call_iff fun _ h => nomatch h

@[simp] theorem safe_create_dir {location : Location} {next : Except IoError Unit → Helper α} :
    (machine host).Safe inv ok err (.call (.createDir location) next) fs ↔
      inv fs ∧ (machine host).Safe inv ok err (next (fs.createDir location).1)
        (fs.createDir location).2 :=
  Machine.Safe.call_iff fun _ h => nomatch h

@[simp] theorem safe_remove_file {location : Location} {next : Except IoError Unit → Helper α} :
    (machine host).Safe inv ok err (.call (.removeFile location) next) fs ↔
      inv fs ∧ (machine host).Safe inv ok err (next (fs.removeFile location).1)
        (fs.removeFile location).2 :=
  Machine.Safe.call_iff fun _ h => nomatch h

@[simp] theorem safe_create_new {location : Location} {next : Except IoError Unit → Helper α} :
    (machine host).Safe inv ok err (.call (.createNew location) next) fs ↔
      inv fs ∧ (machine host).Safe inv ok err (next (fs.createNew location).1)
        (fs.createNew location).2 :=
  Machine.Safe.call_iff fun _ h => nomatch h

@[simp] theorem safe_process_exists {pid poll : Nat} {next : Except String Bool → Helper α} :
    (machine host).Safe inv ok err (.call (.processExists pid poll) next) fs ↔
      inv fs ∧ (machine host).Safe inv ok err (next (host.processExists pid poll)) fs :=
  Machine.Safe.call_iff fun _ h => nomatch h

@[simp] theorem safe_spawn {program : String} {next : Except String Unit → Helper α} :
    (machine host).Safe inv ok err (.call (.spawn program) next) fs ↔
      inv fs ∧ (machine host).Safe inv ok err (next (host.spawn program)) fs :=
  Machine.Safe.call_iff fun _ h => nomatch h

/-- A required rename that goes through. -/
theorem safe_rename_ok {fs' : FileSystem} {source : Path} {target : Location}
    {message : IoError → String} {next : Unit → Helper α}
    (hmove : fs.rename source target = (.ok (), fs')) (hinv : inv fs)
    (hnext : (machine host).Safe inv ok err (next ()) fs') :
    (machine host).Safe inv ok err (((rename source target).orFail message).bind next) fs := by
  simp [rename, Program.orFail, hmove, hinv, hnext]

/-- A required rename that goes through and ends its part of the program. -/
theorem safe_rename_last {fs' : FileSystem} {source : Path} {target : Location}
    {message : IoError → String} {ok : Unit → FileSystem → Prop}
    (hmove : fs.rename source target = (.ok (), fs')) (hinv : inv fs) (hinv' : inv fs')
    (hok : ok () fs') :
    (machine host).Safe inv ok err ((rename source target).orFail message) fs := by
  simp [rename, Program.orFail, hmove, hinv, hinv', hok]

/-- A required rename that is refused. -/
theorem safe_rename_refused {error : IoError} {source : Path} {target : Location}
    {message : IoError → String} {next : Unit → Helper α}
    (hmove : fs.rename source target = (.error error, fs)) (hinv : inv fs)
    (herr : err (message error) fs) :
    (machine host).Safe inv ok err (((rename source target).orFail message).bind next) fs := by
  simp [rename, Program.orFail, hmove, hinv, herr]

/-- A required rename of something that is there, whatever becomes of it. -/
theorem safe_rename_either {source : Path} {target : Location} {node : Node}
    {message : IoError → String} {next : Unit → Helper α}
    (hsource : fs.lookup source = some node) (hinv : inv fs) (herr : ∀ error, err error fs)
    (hnext : (machine host).Safe inv ok err (next ()) ((fs.detach source).set target (some node))) :
    (machine host).Safe inv ok err (((rename source target).orFail message).bind next) fs := by
  rcases fs.rename_cases source target hsource with ⟨error, hmove⟩ | hmove
  · exact safe_rename_refused hmove hinv (herr _)
  · exact safe_rename_ok hmove hinv hnext

/-- A required removal of a file, whatever becomes of it. -/
theorem safe_remove_file_either {location : Location} {message : IoError → String}
    {next : Unit → Helper α} (hinv : inv fs) (herr : ∀ error, err error fs)
    (hnext : (machine host).Safe inv ok err (next ()) (fs.set location none)) :
    (machine host).Safe inv ok err (((removeFile location).orFail message).bind next) fs := by
  cases hnode : fs location with
  | none => simp [removeFile, Program.orFail, FileSystem.removeFile, hnode, hinv, herr]
  | some node =>
      cases node <;>
        simp [removeFile, Program.orFail, FileSystem.removeFile, hnode, hinv, herr, hnext]

/-- A required removal of a file that is there. -/
theorem safe_remove_file_ok {location : Location} {bytes : List UInt8}
    {message : IoError → String} {next : Unit → Helper α}
    (hfile : fs location = some (.file bytes)) (hinv : inv fs)
    (hnext : (machine host).Safe inv ok err (next ()) (fs.set location none)) :
    (machine host).Safe inv ok err (((removeFile location).orFail message).bind next) fs := by
  simp [removeFile, Program.orFail, FileSystem.removeFile, hfile, hinv, hnext]

/-- A required removal of a file that is there and that ends its part of the program. -/
theorem safe_remove_file_last {location : Location} {bytes : List UInt8}
    {message : IoError → String} {ok : Unit → FileSystem → Prop}
    (hfile : fs location = some (.file bytes)) (hinv : inv fs) (hinv' : inv (fs.set location none))
    (hok : ok () (fs.set location none)) :
    (machine host).Safe inv ok err ((removeFile location).orFail message) fs := by
  simp [removeFile, Program.orFail, FileSystem.removeFile, hfile, hinv, hinv', hok]

/-- A recursive removal of a directory: any directory can be left in its place. -/
theorem safe_remove_dir_all {location : Location} {entries : List (OsString × Node)}
    {next : Except IoError Unit → Helper α}
    (hdir : fs location = some (.directory entries))
    (hpart : ∀ entries, inv (fs.set location (some (.directory entries))))
    (hnext : (machine host).Safe inv ok err (next (.ok ())) (fs.set location none)) :
    (machine host).Safe inv ok err (.call (.removeDirAll location) next) fs := by
  refine Machine.Safe.call_partway
    (fun s => ∃ entries, s = fs.set location (some (.directory entries)))
    ⟨entries, by rw [← hdir, FileSystem.set_self]⟩ ?_ ?_ ?_
  · rintro _ s' ⟨entries, rfl⟩ hstep
    cases hstep with
    | removeDirAll _ _ node node' hold hunlinked =>
        cases node' with
        | directory entries' => exact ⟨entries', FileSystem.set_set ..⟩
        | file _ | symlink _ | special => cases hunlinked.isDirectory.2
  · rintro _ ⟨entries, rfl⟩
    exact hpart entries
  · rintro _ ⟨entries, rfl⟩
    simpa [perform, FileSystem.removeDirAll] using hnext

/-- A recursive removal of something that is not a directory is atomic. -/
theorem safe_remove_dir_all_atomic {location : Location}
    {next : Except IoError Unit → Helper α}
    (hother : ∀ entries, fs location ≠ some (.directory entries)) (hinv : inv fs)
    (hnext : (machine host).Safe inv ok err (next (fs.removeDirAll location).1)
      (fs.removeDirAll location).2) :
    (machine host).Safe inv ok err (.call (.removeDirAll location) next) fs := by
  refine Machine.Safe.call ?_ hinv hnext
  intro s' hstep
  cases hstep with
  | removeDirAll _ _ node node' hnode hunlinked =>
      cases node with
      | directory entries => exact hother entries hnode
      | file _ | symlink _ | special => cases hunlinked.isDirectory.1

/-- An extraction into a directory: any directory can be left in its place. -/
theorem safe_extract {archive target : Location} {entries : List (OsString × Node)}
    {next : Except String Unit → Helper α}
    (hdir : fs target = some (.directory entries))
    (hpart : ∀ entries, inv (fs.set target (some (.directory entries))))
    (hnext : ∀ entries, (machine host).Safe inv ok err
      (next ((fs.set target (some (.directory entries))).extract host archive target).1)
      ((fs.set target (some (.directory entries))).extract host archive target).2) :
    (machine host).Safe inv ok err (.call (.extract archive target) next) fs := by
  refine Machine.Safe.call_partway
    (fun s => ∃ entries, s = fs.set target (some (.directory entries)))
    ⟨entries, by rw [← hdir, FileSystem.set_self]⟩ ?_ ?_ ?_
  · rintro _ s' ⟨entries, rfl⟩ hstep
    cases hstep with
    | extract _ _ _ before after _ => exact ⟨after, FileSystem.set_set ..⟩
  · rintro _ ⟨entries, rfl⟩
    exact hpart entries
  · rintro _ ⟨entries, rfl⟩
    exact hnext entries

/-- A write to a file: any prefix can be left in its place. -/
theorem safe_write_all {location : Location} {bytes before : List UInt8}
    {next : Except IoError Unit → Helper α}
    (hfile : fs location = some (.file before))
    (hpart : ∀ written, inv (fs.set location (some (.file written))))
    (hnext : (machine host).Safe inv ok err (next (.ok ()))
      (fs.set location (some (.file bytes)))) :
    (machine host).Safe inv ok err (.call (.writeAll location bytes) next) fs := by
  refine Machine.Safe.call_partway
    (fun s => ∃ written, s = fs.set location (some (.file written)))
    ⟨before, by rw [← hfile, FileSystem.set_self]⟩ ?_ ?_ ?_
  · rintro _ s' ⟨written, rfl⟩ hstep
    cases hstep with
    | writeAll _ _ written' _ _ _ _ => exact ⟨written', FileSystem.set_set ..⟩
  · rintro _ ⟨written, rfl⟩
    exact hpart written
  · rintro _ ⟨written, rfl⟩
    simpa [perform, FileSystem.writeAll] using hnext

end Rules

/-! ## Parts that only read -/

/-- The operations that leave the files alone. -/
def Call.reads : Call → Bool
  | .lookup _ | .processExists _ _ | .spawn _ => true
  | _ => false

/-- The program makes only such operations. -/
abbrev Reads {α : Type} (p : Helper α) : Prop := p.Uses fun call : Call => call.reads = true

/-- A program that only reads never changes anything. -/
theorem Reads.avoids {α : Type} {p : Helper α} (hp : Reads p) {target : Call}
    (htarget : target.reads = false) : p.Avoids target :=
  Program.Uses.mono hp fun (call : Call) hcall => by
    rintro rfl
    simp [htarget] at hcall

/-- A program that only reads leaves the files as they are. -/
theorem Reads.safe {α : Type} {host : Host} {inv : FileSystem → Prop} {p : Helper α}
    {fs : FileSystem} (hp : Reads p) (hinv : inv fs) :
    (machine host).Safe inv (fun _ s => s = fs) (fun _ s => s = fs) p fs := by
  induction p with
  | done value => exact ⟨hinv, rfl⟩
  | fail error => exact ⟨hinv, rfl⟩
  | call call next ih =>
      obtain ⟨hcall, hnext⟩ := hp
      cases call with
      | lookup path => exact safe_lookup.mpr ⟨hinv, ih _ (hnext _)⟩
      | processExists pid poll => exact safe_process_exists.mpr ⟨hinv, ih _ (hnext _)⟩
      | spawn program => exact safe_spawn.mpr ⟨hinv, ih _ (hnext _)⟩
      | rename _ _ | createDir _ | removeDirAll _ | removeFile _ | createNew _ | writeAll _ _
      | extract _ _ => cases hcall

end PamDesktop.Updater
