import PamDesktop.Updater.Apply

/-!
# The stages of a swap, and what each part of the helper does to them

A swap of a bundle `old` for its replacement `new` goes through five stages, told apart by the
journal and by what the bundle slot and the backup slot hold. The lemmas below are one for each
function of the helper: the states its run goes through, the state it ends in, and a condition
that fails whenever it reports an error. Read `AtStage` first; `reconcile_safe` and `install_safe`
sum the module up.
-/

namespace PamDesktop.Updater

open Foundations Protocol

/-- The stages of a swap. `committed` is `settled` for the new bundle, accepted in its place and with
the old one kept. -/
inductive SwapStage where
  | settled
  | journaled
  | vacated
  | installed
  | committed
deriving DecidableEq

/-- The journal of a swap to the archive with this digest. -/
def journal (host : Host) (sha256 : String) : Node :=
  .file (host.encodeTransaction ⟨1, sha256⟩)

/-- The journal that the helper writes for this digest reads back and is short enough. -/
structure Journals (host : Host) (sha256 : String) : Prop where
  decode_encode : host.decodeTransaction (host.encodeTransaction ⟨1, sha256⟩) = .ok ⟨1, sha256⟩
  bounded : (host.encodeTransaction ⟨1, sha256⟩).length ≤ maxTransactionBytes

/-- `verify_replacement` accepts the node at the path. -/
def Accepted (host : Host) (path : Path) (node : Node) : Prop :=
  verifyReplacement host (path.fileName host) (path.display host) (some node) = .ok ()

/-- The swap of `old` for `new` in the bundle called `name` is at the given stage. -/
def AtStage (host : Host) (name : OsString) (sha256 : String) (old new : Node) :
    SwapStage → FileSystem → Prop
  | .settled, fs => fs (.transaction name) = none ∧ fs (.bundle name) = some old
  | .journaled, fs => fs (.transaction name) = some (journal host sha256) ∧
      fs (.bundle name) = some old ∧ Node.present (fs (.previous name)) = false
  | .vacated, fs => fs (.transaction name) = some (journal host sha256) ∧
      fs (.bundle name) = none ∧ fs (.previous name) = some old
  | .installed, fs => fs (.transaction name) = some (journal host sha256) ∧
      fs (.bundle name) = some new ∧ fs (.previous name) = some old
  | .committed, fs => fs (.transaction name) = none ∧ fs (.bundle name) = some new ∧
      fs (.previous name) = some old ∧ Accepted host (.at (.bundle name)) new

/-- Whether the path names a macOS application. -/
def Path.isApplication (host : Host) (path : Path) : Prop :=
  extension (path.fileName host) = some (osString "app")

/-- A backup slot is never taken for a macOS application, whatever it holds. -/
theorem previous_not_application (host : Host) (name : OsString) :
    ¬ (Path.at (.previous name)).isApplication host := by
  have hname : (Path.at (.previous name)).fileName host =
      (osString ("." ++ toStringLossy name)) ++ 46 :: osString "previous" := by
    rw [Path.fileName, Location.fileName, os_string_append]
    congr 1
  have hdot : osString ("." ++ toStringLossy name) ≠ [] := by
    rw [os_string_append]
    have hfirst : osString "." = [46] := by decide +kernel
    simp [hfirst]
  rw [Path.isApplication, hname, extension_append hdot (by decide +kernel) (by decide +kernel)]
  decide +kernel

/-- Between paths that do not name macOS applications, acceptance does not depend on the path. -/
theorem Accepted.move {host : Host} {path path' : Path} {node : Node}
    (h : Accepted host path node) (hpath : ¬ path.isApplication host)
    (hpath' : ¬ path'.isApplication host) : Accepted host path' node := by
  unfold Accepted at h ⊢
  rw [verify_replacement_plain _ _ hpath] at h
  rw [verify_replacement_plain _ _ hpath']
  exact verify_bundle_root _ h

/-- A slot that a recursive removal can clear: it holds a directory or nothing. -/
def Clearable (node : Option Node) : Prop :=
  node = none ∨ ∃ entries, node = some (.directory entries)

/-- A slot in which a journal can be staged: it holds a file or nothing. -/
def Stageable (node : Option Node) : Prop :=
  node = none ∨ ∃ bytes, node = some (.file bytes)

/-- Whether a location is one of those of this bundle and this stage. -/
def Location.Belongs (name stage : OsString) : Location → Prop
  | .bundle n | .previous n | .failed n | .transaction n | .transactionStaging n _ => n = name
  | .archive s | .expanded s => s = stage

/-- What may lie in a slot for the helper to be able to reuse it. -/
def Location.Fits : Location → Option Node → Prop
  | .previous _, node | .failed _, node | .expanded _, node => Clearable node
  | .transactionStaging _ _, node => Stageable node
  | _, _ => True

/-- Every slot of the update can be reused. -/
def Tidy (name stage : OsString) (fs : FileSystem) : Prop :=
  ∀ location : Location, location.Belongs name stage → location.Fits (fs location)

/-- What a helper may do to a file system, apart from the stages: only locations of its own
bundle and stage change, they stay reusable, and the archive is at most removed. -/
structure Own (name stage : OsString) (before after : FileSystem) : Prop where
  tidy : Tidy name stage before → Tidy name stage after
  archive : after (.archive stage) = before (.archive stage) ∨ after (.archive stage) = none
  frame : ∀ location : Location, ¬ location.Belongs name stage →
    after location = before location

/-- What holds of every state that a run of the helper goes through: the swap is at some stage,
and apart from that the helper has only used its own locations. -/
def InSwap (host : Host) (name stage : OsString) (sha256 : String) (old new : Node)
    (start fs : FileSystem) : Prop :=
  (∃ swapStage, AtStage host name sha256 old new swapStage fs) ∧ Own name stage start fs

variable {host : Host} {name stage : OsString} {sha256 : String} {old new : Node}
  {inv : FileSystem → Prop} {start fs : FileSystem}

/-- A stage is decided by the journal, the bundle slot and the backup slot. -/
theorem AtStage.congr {swapStage : SwapStage} {fs' : FileSystem}
    (h : AtStage host name sha256 old new swapStage fs)
    (htransaction : fs' (.transaction name) = fs (.transaction name))
    (hbundle : fs' (.bundle name) = fs (.bundle name))
    (hprevious : fs' (.previous name) = fs (.previous name)) :
    AtStage host name sha256 old new swapStage fs' := by
  cases swapStage <;> simpa only [AtStage, htransaction, hbundle, hprevious] using h

theorem Own.refl (fs : FileSystem) : Own name stage fs fs :=
  ⟨id, .inl rfl, fun _ _ => rfl⟩

theorem Own.trans {first second third : FileSystem} (h : Own name stage first second)
    (h' : Own name stage second third) : Own name stage first third where
  tidy := h'.tidy ∘ h.tidy
  archive := by
    rcases h'.archive with heq | hnone
    · rw [heq]
      exact h.archive
    · exact .inr hnone
  frame location hl := (h'.frame location hl).trans (h.frame location hl)

/-- Setting a location of the update to something that fits it. -/
theorem Own.set {before after : FileSystem} (h : Own name stage before after)
    (location : Location) {node : Option Node} (hown : location.Belongs name stage)
    (hfits : Tidy name stage before → location.Fits node)
    (harchive : location = .archive stage → node = none) :
    Own name stage before (after.set location node) where
  tidy ht other hother := by
    by_cases heq : other = location
    · subst heq
      simpa using hfits ht
    · rw [FileSystem.set_of_ne _ _ heq]
      exact h.tidy ht other hother
  archive := by
    by_cases heq : Location.archive stage = location
    · exact .inr (by rw [← heq, FileSystem.set_same, harchive heq.symm])
    · rw [FileSystem.set_of_ne _ _ heq]
      exact h.archive
  frame other hother := by
    have hne : other ≠ location := fun heq => hother (heq ▸ hown)
    rw [FileSystem.set_of_ne _ _ hne, h.frame other hother]

/-- A state at a stage of the swap that only own locations led to. -/
theorem AtStage.in_swap {swapStage : SwapStage}
    (h : AtStage host name sha256 old new swapStage fs) (hown : Own name stage start fs) :
    InSwap host name stage sha256 old new start fs :=
  ⟨⟨swapStage, h⟩, hown⟩

/-- A node that is a directory, spelled out. -/
theorem is_directory_iff {node : Node} :
    node.isDirectory = true ↔ ∃ entries, node = .directory entries := by
  cases node <;> simp [Node.isDirectory]

theorem Clearable.of_directory {node : Node} (h : node.isDirectory = true) :
    Clearable (some node) := by
  obtain ⟨entries, rfl⟩ := is_directory_iff.mp h
  exact .inr ⟨entries, rfl⟩

/-! ## From one stage to the next

The moves of recovery, as changes of the file system. -/

/-- The file system after the backup has come back to the bundle slot. -/
def restored (name : OsString) (old : Node) (fs : FileSystem) : FileSystem :=
  (fs.set (.previous name) none).set (.bundle name) (some old)

/-- The file system after a refused replacement has been put aside. -/
def quarantined (name : OsString) (new : Node) (fs : FileSystem) : FileSystem :=
  (fs.set (.bundle name) none).set (.failed name) (some new)

/-- What the quarantine slot held before does not matter. -/
theorem quarantined_of_cleared (node : Option Node) :
    ((fs.set (.failed name) node).set (.bundle name) none).set (.failed name) (some new) =
      quarantined name new fs := by
  rw [fs.set_comm (by simp : Location.failed name ≠ .bundle name), FileSystem.set_set]
  rfl

/-- Once the backup is back, the swap has not begun. -/
theorem AtStage.restored (h : AtStage host name sha256 old new .vacated fs) :
    AtStage host name sha256 old new .journaled (restored name old fs) := by
  refine ⟨?_, FileSystem.set_same .., ?_⟩
  · simpa [Updater.restored] using h.1
  · simp [Updater.restored, Node.present]

/-- The same where the replacement had taken the slot. -/
theorem AtStage.reverted (h : AtStage host name sha256 old new .installed fs) :
    AtStage host name sha256 old new .journaled (Updater.restored name old fs) := by
  refine ⟨?_, FileSystem.set_same .., ?_⟩
  · simpa [Updater.restored] using h.1
  · simp [Updater.restored, Node.present]

/-- Once a refused replacement is aside, the bundle slot is free again. -/
theorem AtStage.quarantined (h : AtStage host name sha256 old new .installed fs) :
    AtStage host name sha256 old new .vacated (quarantined name new fs) := by
  refine ⟨?_, ?_, ?_⟩
  · simpa [Updater.quarantined] using h.1
  · simp [Updater.quarantined]
  · simpa [Updater.quarantined] using h.2.2

/-- Without its journal, a swap that has not begun is nothing. -/
theorem AtStage.settled (h : AtStage host name sha256 old new .journaled fs) :
    AtStage host name sha256 old new .settled (fs.set (.transaction name) none) :=
  ⟨FileSystem.set_same .., by simpa using h.2.1⟩

/-- Without its journal, a swap to an accepted bundle is committed. -/
theorem AtStage.committed (h : AtStage host name sha256 old new .installed fs)
    (haccepted : Accepted host (.at (.bundle name)) new) :
    AtStage host name sha256 old new .committed (fs.set (.transaction name) none) :=
  ⟨FileSystem.set_same .., by simpa using h.2.1, by simpa using h.2.2, haccepted⟩

theorem Own.restored (h : Own name stage start fs) :
    Own name stage start (restored name old fs) :=
  (h.set (.previous name) rfl (fun _ => .inl rfl) (fun heq => nomatch heq)).set
    (.bundle name) rfl (fun _ => trivial) (fun heq => nomatch heq)

theorem Own.quarantined (h : Own name stage start fs) (hnew : new.isDirectory = true) :
    Own name stage start (quarantined name new fs) :=
  (h.set (.bundle name) rfl (fun _ => trivial) (fun heq => nomatch heq)).set
    (.failed name) rfl (fun _ => .of_directory hnew) (fun heq => nomatch heq)

theorem Own.unjournaled (h : Own name stage start fs) :
    Own name stage start (fs.set (.transaction name) none) :=
  h.set _ rfl (fun _ => trivial) (fun heq => nomatch heq)

/-! ## Reading and clearing -/

/-- Without a journal nothing is pending. -/
theorem read_update_transaction_none {err : String → FileSystem → Prop}
    (h : fs (.transaction name) = none) (hinv : inv fs) :
    (machine host).Safe inv (fun pending s => pending = false ∧ s = fs) err
      (readUpdateTransaction host name sha256) fs := by
  simp [readUpdateTransaction, lookup, FileSystem.lookup, h, hinv]

/-- The journal that the helper itself wrote is read as pending. -/
theorem read_update_transaction_journal {err : String → FileSystem → Prop}
    (hjournal : Journals host sha256)
    (h : fs (.transaction name) = some (journal host sha256)) (hinv : inv fs) :
    (machine host).Safe inv (fun pending s => pending = true ∧ s = fs) err
      (readUpdateTransaction host name sha256) fs := by
  have hbound := Nat.not_lt.mpr hjournal.bounded
  simp [readUpdateTransaction, lookup, FileSystem.lookup, h, hinv, journal, hbound, readFile,
    followed, hjournal.decode_encode]

/-- A journal that is not the one of this archive: unreadable, too long, or bound to another. -/
def Foreign (host : Host) (sha256 : String) (node : Node) : Prop :=
  ∀ bytes, node = .file bytes → bytes.length ≤ maxTransactionBytes →
    host.decodeTransaction bytes ≠ .ok ⟨1, sha256⟩

/-- A foreign journal ends the run. -/
theorem read_update_transaction_foreign {node : Node} (h : fs (.transaction name) = some node)
    (hforeign : Foreign host sha256 node) (hinv : inv fs) :
    (machine host).Safe inv (fun _ _ => False) (fun _ _ => True)
      (readUpdateTransaction host name sha256) fs := by
  cases node with
  | directory _ | symlink _ | special =>
      simp [readUpdateTransaction, lookup, FileSystem.lookup, h, hinv, bail]
  | file bytes =>
      by_cases hbound : maxTransactionBytes < bytes.length
      · simp [readUpdateTransaction, lookup, FileSystem.lookup, h, hinv, bail, hbound]
      · have hother := hforeign bytes rfl (Nat.not_lt.mp hbound)
        cases hdecode : host.decodeTransaction bytes with
        | error error =>
            simp [readUpdateTransaction, lookup, FileSystem.lookup, h, hinv, bail, hbound, readFile,
              followed, hdecode]
        | ok transaction =>
            have hmismatch : transaction.schemaVersion ≠ 1 ∨
                transaction.archiveSha256 ≠ sha256 := by
              by_contra hmatch
              obtain ⟨version, digest⟩ := transaction
              obtain ⟨rfl, rfl⟩ : version = 1 ∧ digest = sha256 := by
                simpa [not_or] using hmatch
              exact hother hdecode
            simp [readUpdateTransaction, lookup, FileSystem.lookup, h, hinv, bail, hbound, readFile,
              followed, hdecode, hmismatch]

/-- `scoped_directory_exists` on a slot whose contents are known to be a directory or nothing. -/
theorem scoped_directory_exists_safe (location : Location) (label : String) (hinv : inv fs) :
    (machine host).Safe inv
      (fun found s => Clearable (fs location) ∧ found = (fs location).isSome ∧ s = fs)
      (fun _ s => ¬ Clearable (fs location) ∧ s = fs)
      (scopedDirectoryExists location label) fs := by
  cases hnode : fs location with
  | none => simp [scopedDirectoryExists, lookup, FileSystem.lookup, hnode, hinv, Clearable]
  | some node =>
      cases node <;>
        simp [scopedDirectoryExists, lookup, FileSystem.lookup, hnode, hinv, bail, Clearable]

/-- `verify_replacement` accepts what it is given or ends the run. -/
theorem require_verified_safe (path : Path) {node : Node} (message : String)
    (h : fs.lookup path = some node) (hinv : inv fs) :
    (machine host).Safe inv (fun _ s => Accepted host path node ∧ s = fs)
      (fun _ s => ¬ Accepted host path node ∧ s = fs) (requireVerified host path message) fs := by
  cases hverify :
      verifyReplacement host (path.fileName host) (path.display host) (some node) with
  | ok => simp [requireVerified, verifyAt, lookup, h, hverify, hinv, Accepted]
  | error error => simp [requireVerified, verifyAt, lookup, h, hverify, hinv, Accepted, bail]

/-- Clearing a slot touches nothing else, and fails only on a slot that cannot be cleared. A
dangling link survives it, because `exists` follows links. -/
theorem clear_slot_safe (location : Location) (label : String) (hinv : inv fs)
    (hclearing : ∀ node, Clearable node → inv (fs.set location node)) :
    (machine host).Safe inv
      (fun _ s => ∃ node, Node.present node = false ∧ (Clearable (fs location) ↔ node = none) ∧
        s = fs.set location node)
      (fun _ _ => ¬ Clearable (fs location)) (clearSlot location label) fs := by
  cases hnode : fs location with
  | none =>
      have hself : fs = fs.set location none := by rw [← hnode, FileSystem.set_self]
      simpa [clearSlot, lookup, FileSystem.lookup, hnode, Node.present, hinv] using
        ⟨none, rfl, ⟨fun _ => rfl, fun _ => .inl rfl⟩, hself⟩
  | some node =>
      cases node with
      | file bytes =>
          simp [clearSlot, removeScopedDirectory, lookup, FileSystem.lookup, hnode, Node.present,
            hinv, bail, Clearable]
      | special =>
          simp [clearSlot, removeScopedDirectory, lookup, FileSystem.lookup, hnode, Node.present,
            hinv, bail, Clearable]
      | symlink target =>
          cases target with
          | none =>
              have hself : fs = fs.set location (some (.symlink none)) := by
                rw [← hnode, FileSystem.set_self]
              simpa [clearSlot, lookup, FileSystem.lookup, hnode, Node.present, hinv] using
                ⟨some (.symlink none), rfl, by simp [Clearable], hself⟩
          | some target =>
              simp [clearSlot, removeScopedDirectory, lookup, FileSystem.lookup, hnode,
                Node.present, hinv, bail, Clearable]
      | directory entries =>
          simp only [clearSlot, removeScopedDirectory, removeDirAll, lookup, FileSystem.lookup,
            hnode, Node.present, Program.orFail, Program.bind_eq, Program.call_bind,
            Program.done_bind, ite_true, safe_lookup]
          refine ⟨hinv, hinv, safe_remove_dir_all hnode
            (fun entries => hclearing _ (.inr ⟨entries, rfl⟩)) ?_⟩
          exact ⟨hclearing _ (.inl rfl), none, rfl, ⟨fun _ => rfl, fun _ => .inr ⟨entries, rfl⟩⟩, rfl⟩

/-! ## Reconciliation

One lemma for each stage in which a killed helper can leave a swap. -/

/-- Nothing pending and a bundle in place: the helper goes on. -/
theorem reconcile_settled (hold : old.isDirectory = true)
    (h : AtStage host name sha256 old new .settled fs) (hinv : inv fs) :
    (machine host).Safe inv (fun outcome s => outcome = .ready ∧ s = fs) (fun _ _ => False)
      (reconcileInterruptedUpdate host name sha256) fs := by
  obtain ⟨entries, rfl⟩ := is_directory_iff.mp hold
  refine (read_update_transaction_none h.1 hinv).bind ?_
  rintro pending s - ⟨rfl, rfl⟩
  simp [lookup, FileSystem.lookup, h.2, Node.isDir, hinv]

/-- A pending journal: reconciliation looks at the two slots next. -/
theorem reconcile_pending {ok : RecoveryOutcome → FileSystem → Prop}
    {err : String → FileSystem → Prop} (hjournal : Journals host sha256)
    (htransaction : fs (.transaction name) = some (journal host sha256)) (hinv : inv fs)
    (hbundle : Clearable (fs (.bundle name)))
    (hprevious : ¬ Clearable (fs (.previous name)) → ∀ error, err error fs)
    (hnext : Clearable (fs (.previous name)) → (machine host).Safe inv ok err
      (match (fs (.bundle name)).isSome, (fs (.previous name)).isSome with
        | true, true => reconcileBoth host name
        | false, true => reconcileBackup host name
        | true, false => reconcileBundle host name
        | false, false =>
            bail ("installed bundle and its recovery backup are both missing; " ++
              "refusing destructive recovery")) fs) :
    (machine host).Safe inv ok err (reconcileInterruptedUpdate host name sha256) fs := by
  refine (read_update_transaction_journal hjournal htransaction hinv).bind ?_
  rintro pending s - ⟨rfl, rfl⟩
  refine (scoped_directory_exists_safe (.bundle name) _ hinv).seq
    (fun _ _ hs => absurd hbundle hs.1) ?_
  rintro _ s ⟨-, rfl, rfl⟩
  refine (scoped_directory_exists_safe (.previous name) _ hinv).seq
    (fun error _ hs => hs.2 ▸ hprevious hs.1 error) ?_
  rintro _ s ⟨hclear, rfl, rfl⟩
  exact hnext hclear

/-- A journal without a swap: it is removed, provided the bundle still verifies. -/
theorem reconcile_journaled (hjournal : Journals host sha256) (hold : old.isDirectory = true)
    (h : AtStage host name sha256 old new .journaled fs) (hinv : inv fs)
    (hdone : inv (fs.set (.transaction name) none)) :
    (machine host).Safe inv
      (fun outcome s => outcome = .ready ∧ Accepted host (.at (.bundle name)) old ∧
        s = fs.set (.transaction name) none)
      (fun _ _ => ¬ (Clearable (fs (.previous name)) ∧ Accepted host (.at (.bundle name)) old))
      (reconcileInterruptedUpdate host name sha256) fs := by
  obtain ⟨htransaction, hbundle, hprevious⟩ := h
  refine reconcile_pending hjournal htransaction hinv (hbundle ▸ .of_directory hold)
    (fun hclear _ hok => hclear hok.1) fun hclear => ?_
  have hnone : fs (.previous name) = none := by
    rcases hclear with hnone | ⟨entries, hdir⟩
    · exact hnone
    · simp [hdir, Node.present] at hprevious
  simp only [hbundle, hnone, Option.isSome_some, Option.isSome_none]
  refine (require_verified_safe (.at (.bundle name)) _ hbundle hinv).seq
    (fun _ _ hs hok => hs.1 hok.2) ?_
  rintro _ s ⟨haccepted, rfl⟩
  exact safe_remove_file_ok htransaction hinv ⟨hdone, rfl, haccepted, rfl⟩

/-- A vacated bundle slot: the backup comes back, provided it verifies as a backup. -/
theorem reconcile_vacated (hjournal : Journals host sha256) (hold : old.isDirectory = true)
    (h : AtStage host name sha256 old new .vacated fs) (hinv : inv fs)
    (hrestored : inv (restored name old fs))
    (hdone : inv ((restored name old fs).set (.transaction name) none)) :
    (machine host).Safe inv
      (fun outcome s => outcome = .ready ∧ Accepted host (.at (.previous name)) old ∧
        s = (restored name old fs).set (.transaction name) none)
      (fun _ _ => ¬ Accepted host (.at (.previous name)) old)
      (reconcileInterruptedUpdate host name sha256) fs := by
  obtain ⟨htransaction, hbundle, hprevious⟩ := h
  refine reconcile_pending hjournal htransaction hinv (.inl hbundle)
    (fun hclear _ _ => hclear (hprevious ▸ .of_directory hold)) fun _ => ?_
  simp only [hbundle, hprevious, Option.isSome_some, Option.isSome_none]
  refine (require_verified_safe (.at (.previous name)) _ hprevious hinv).seq (fun _ _ hs => hs.1) ?_
  rintro _ s ⟨haccepted, rfl⟩
  have hmove := s.rename_free (.at (.previous name)) (.bundle name) hprevious hbundle
  have hpending : restored name old s (.transaction name) = some (journal host sha256) := by
    simpa [restored] using htransaction
  exact safe_rename_ok hmove hinv (safe_remove_file_ok hpending hrestored
    ⟨hdone, rfl, haccepted, rfl⟩)

/-- A finished swap whose journal is left: the journal goes, and the update counts as installed,
provided the new bundle verifies in place. -/
theorem reconcile_installed (hjournal : Journals host sha256) (hold : old.isDirectory = true)
    (hnew : new.isDirectory = true) (h : AtStage host name sha256 old new .installed fs)
    (haccepted : Accepted host (.at (.bundle name)) new) (hinv : inv fs)
    (hdone : inv (fs.set (.transaction name) none)) :
    (machine host).Safe inv
      (fun outcome s => outcome = .alreadyInstalled ∧ s = fs.set (.transaction name) none)
      (fun _ _ => False) (reconcileInterruptedUpdate host name sha256) fs := by
  obtain ⟨htransaction, hbundle, hprevious⟩ := h
  refine reconcile_pending hjournal htransaction hinv (hbundle ▸ .of_directory hnew)
    (fun hclear => absurd (hprevious ▸ .of_directory hold) hclear) fun _ => ?_
  simp only [hbundle, hprevious, Option.isSome_some, reconcileBoth, verifyAt, lookup,
    Program.bind_eq, Program.call_bind, Program.done_bind, safe_lookup, FileSystem.lookup,
    Program.pure_eq]
  unfold Accepted at haccepted
  rw [haccepted]
  exact ⟨hinv, safe_remove_file_ok htransaction hinv ⟨hdone, rfl, rfl⟩⟩

/-- A finished swap whose bundle does not verify: it is put aside and the backup comes back,
provided that verifies as a backup and the quarantine slot can be cleared. -/
theorem reconcile_refused (hjournal : Journals host sha256) (hold : old.isDirectory = true)
    (hnew : new.isDirectory = true) (h : AtStage host name sha256 old new .installed fs)
    (hrefused : ¬ Accepted host (.at (.bundle name)) new) (hinv : inv fs)
    (hclearing : ∀ node, (Clearable (fs (.failed name)) → Clearable node) →
      inv (fs.set (.failed name) node))
    (hmoved : inv (quarantined name new fs))
    (hrestored : inv (restored name old (quarantined name new fs)))
    (hdone : inv ((restored name old (quarantined name new fs)).set (.transaction name) none)) :
    (machine host).Safe inv
      (fun outcome s => outcome = .ready ∧ Accepted host (.at (.previous name)) old ∧
        Clearable (fs (.failed name)) ∧
        s = (restored name old (quarantined name new fs)).set (.transaction name) none)
      (fun _ _ => ¬ (Accepted host (.at (.previous name)) old ∧ Clearable (fs (.failed name))))
      (reconcileInterruptedUpdate host name sha256) fs := by
  obtain ⟨entries, rfl⟩ := is_directory_iff.mp hnew
  obtain ⟨htransaction, hbundle, hprevious⟩ := h
  refine reconcile_pending hjournal htransaction hinv (hbundle ▸ .of_directory hnew)
    (fun hclear => absurd (hprevious ▸ .of_directory hold) hclear) fun _ => ?_
  simp only [hbundle, hprevious, Option.isSome_some, reconcileBoth, verifyAt, lookup,
    Program.bind_eq, Program.call_bind, Program.done_bind, safe_lookup, FileSystem.lookup,
    Program.pure_eq]
  refine ⟨hinv, ?_⟩
  cases hverify : verifyReplacement host ((Path.at (.bundle name)).fileName host)
      ((Path.at (.bundle name)).display host) (some (.directory entries)) with
  | ok => exact absurd hverify hrefused
  | error error =>
      refine (require_verified_safe (.at (.previous name)) _ hprevious hinv).seq
        (fun _ _ hs hok => hs.1 hok.1) ?_
      rintro _ s ⟨haccepted, rfl⟩
      refine (clear_slot_safe (.failed name) _ hinv fun node hnode => hclearing node fun _ => hnode).seq
        (fun _ _ hs hok => hs hok.2) ?_
      rintro _ _ ⟨node, habsent, hgone, rfl⟩
      have hinv' := hclearing node fun hclear => .inl (hgone.mp hclear)
      have hsource : (s.set (.failed name) node).lookup (.at (.bundle name)) =
          some (.directory entries) := by
        simpa [FileSystem.lookup] using hbundle
      by_cases hnone : node = none
      · have haside := FileSystem.rename_free _ (.at (.bundle name)) (.failed name) hsource
          (by simp [hnone])
        rw [FileSystem.detach, quarantined_of_cleared] at haside
        have hback := (quarantined name (.directory entries) s).rename_free (.at (.previous name))
          (.bundle name) (by simpa [quarantined, FileSystem.lookup] using hprevious)
          (by simp [quarantined])
        have hpending : restored name old (quarantined name (.directory entries) s)
            (.transaction name) = some (journal host sha256) := by
          simpa [restored, quarantined] using htransaction
        exact safe_rename_ok haside hinv' (safe_rename_ok hback hmoved
          (safe_remove_file_ok hpending hrestored
            ⟨hdone, rfl, haccepted, hgone.mpr hnone, rfl⟩))
      · have hblocked := FileSystem.rename_onto_dangling _ _ (.failed name) hsource
          (by simpa using habsent) (by simpa using hnone)
        exact safe_rename_refused hblocked hinv' fun hok => hnone (hgone.mp hok.2)

/-- Reconciliation from any stage before the commit: either nothing is pending any more and the
old bundle is in its slot, or the new one is and the swap is committed. -/
theorem reconcile_safe {swapStage : SwapStage} (hjournal : Journals host sha256)
    (hold : old.isDirectory = true) (hnew : new.isDirectory = true)
    (h : AtStage host name sha256 old new swapStage fs) (hstage : swapStage ≠ .committed)
    (hown : Own name stage start fs) :
    (machine host).Safe (InSwap host name stage sha256 old new start)
      (fun outcome s => Own name stage start s ∧ s (.archive stage) = fs (.archive stage) ∧
        (outcome = .ready ∧ AtStage host name sha256 old new .settled s ∨
          outcome = .alreadyInstalled ∧ AtStage host name sha256 old new .committed s))
      (fun _ _ => ¬ (Clearable (fs (.previous name)) ∧ Clearable (fs (.failed name)) ∧
        Accepted host (.at (.bundle name)) old ∧ Accepted host (.at (.previous name)) old))
      (reconcileInterruptedUpdate host name sha256) fs := by
  have hinv := h.in_swap hown
  cases swapStage with
  | settled =>
      refine (reconcile_settled hold h hinv).mono (fun _ => id) ?_ (fun _ _ _ => False.elim)
      rintro outcome s - ⟨rfl, rfl⟩
      exact ⟨hown, rfl, .inl ⟨rfl, h⟩⟩
  | journaled =>
      have hsettled := h.settled
      refine (reconcile_journaled hjournal hold h hinv (hsettled.in_swap hown.unjournaled)).mono
        (fun _ => id) ?_ (fun _ _ _ hs hok => hs ⟨hok.1, hok.2.2.1⟩)
      rintro outcome s - ⟨rfl, -, rfl⟩
      exact ⟨hown.unjournaled, by simp, .inl ⟨rfl, hsettled⟩⟩
  | vacated =>
      have hback := h.restored
      have hsettled := hback.settled
      refine (reconcile_vacated hjournal hold h hinv (hback.in_swap hown.restored)
        (hsettled.in_swap hown.restored.unjournaled)).mono (fun _ => id) ?_
        (fun _ _ _ hs hok => hs hok.2.2.2)
      rintro outcome s - ⟨rfl, -, rfl⟩
      exact ⟨hown.restored.unjournaled, by simp [restored], .inl ⟨rfl, hsettled⟩⟩
  | installed =>
      by_cases haccepted : Accepted host (.at (.bundle name)) new
      · have hcommitted := h.committed haccepted
        refine (reconcile_installed hjournal hold hnew h haccepted hinv
          (hcommitted.in_swap hown.unjournaled)).mono (fun _ => id) ?_ (fun _ _ _ => False.elim)
        rintro outcome s - ⟨rfl, rfl⟩
        exact ⟨hown.unjournaled, by simp, .inr ⟨rfl, hcommitted⟩⟩
      · have haside := h.quarantined
        have hback := haside.restored
        have hsettled := hback.settled
        have hmovedOwn := hown.quarantined hnew
        refine (reconcile_refused hjournal hold hnew h haccepted hinv ?_
          (haside.in_swap hmovedOwn) (hback.in_swap hmovedOwn.restored)
          (hsettled.in_swap hmovedOwn.restored.unjournaled)).mono (fun _ => id) ?_
          (fun _ _ _ hs hok => hs ⟨hok.2.2.2, hok.2.1⟩)
        · intro node hnode
          refine (h.congr (by simp) (by simp) (by simp)).in_swap
            (hown.set _ rfl (fun ht => hnode (hown.tidy ht (.failed name) rfl))
              (fun heq => nomatch heq))
        · rintro outcome s - ⟨rfl, -, -, rfl⟩
          exact ⟨hmovedOwn.restored.unjournaled, by simp [restored, quarantined], .inl ⟨rfl, hsettled⟩⟩
  | committed => exact absurd rfl hstage

end PamDesktop.Updater
