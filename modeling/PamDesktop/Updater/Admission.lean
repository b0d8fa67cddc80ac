import PamDesktop.Updater.CrashSafety
import PamDesktop.Updater.Footprint

/-!
# What the helper moves away and what it can bring back

The forward path moves any bundle directory to the backup slot; recovery brings it back only if
verification accepts it there. This module follows a run of `apply` from an arbitrary file system
to the rename that vacates the bundle slot, and then gives the exact condition under which every
kill after that rename is repaired by `reconcileInterruptedUpdate`.
-/

namespace PamDesktop.Updater

open Foundations Protocol

variable {host : Host} {name stage root : OsString} {sha256 : String} {old new : Node}
  {fs : FileSystem} {α : Type}

/-! ## Results from an arbitrary file system -/

/-- An accepted target is a directory or is not there. -/
theorem resolve_bundle_target_result (fs : FileSystem) (name : OsString) :
    (machine host).Safe (fun _ => True) (fun _ s => s = fs ∧ Clearable (fs (.bundle name)))
      (fun _ _ => True) (resolveBundleTarget name) fs := by
  cases hnode : fs (.bundle name) with
  | none => simp [resolveBundleTarget, lookup, FileSystem.lookup, hnode, Clearable]
  | some node =>
      cases node <;>
        simp [resolveBundleTarget, lookup, FileSystem.lookup, hnode, Clearable, bail]

/-- A journal that is read as absent is absent. -/
theorem read_update_transaction_result (fs : FileSystem) :
    (machine host).Safe (fun _ => True)
      (fun pending s => s = fs ∧ (pending = false → fs (.transaction name) = none))
      (fun _ _ => True) (readUpdateTransaction host name sha256) fs := by
  cases hnode : fs (.transaction name) with
  | none => simp [readUpdateTransaction, lookup, FileSystem.lookup, hnode]
  | some node =>
      cases node with
      | directory _ | symlink _ | special =>
          simp [readUpdateTransaction, lookup, FileSystem.lookup, hnode, bail]
      | file bytes =>
          by_cases hbound : maxTransactionBytes < bytes.length
          · simp [readUpdateTransaction, lookup, FileSystem.lookup, hnode, hbound, bail]
          · cases hdecode : host.decodeTransaction bytes with
            | error error =>
                simp [readUpdateTransaction, lookup, FileSystem.lookup, hnode, hbound, bail,
                  readFile, followed, hdecode]
            | ok transaction =>
                by_cases hmatch : transaction.schemaVersion ≠ 1 ∨
                    transaction.archiveSha256 ≠ sha256
                · simp [readUpdateTransaction, lookup, FileSystem.lookup, hnode, hbound, bail,
                    readFile, followed, hdecode, hmatch]
                · simp [readUpdateTransaction, lookup, FileSystem.lookup, hnode, hbound, bail,
                    readFile, followed, hdecode, hmatch]

/-- The last moves of a recovery: the journal goes, and the bundle directory stays. -/
theorem finish_recovery_result {message : IoError → String} {entries : List (OsString × Node)}
    (hbundle : fs (.bundle name) = some (.directory entries)) :
    (machine host).Safe (fun _ => True)
      (fun outcome s => outcome = RecoveryOutcome.ready →
        s (.transaction name) = none ∧ ∃ entries, s (.bundle name) = some (.directory entries))
      (fun _ _ => True)
      (((removeFile (.transaction name)).orFail message).bind fun _ => .done .ready) fs := by
  refine safe_remove_file_either trivial (fun _ => trivial) ⟨trivial, fun _ => ?_⟩
  exact ⟨FileSystem.set_same .., entries, by simpa using hbundle⟩

/-- The backup comes back and is a bundle directory. -/
theorem restore_backup_result {message message' : IoError → String}
    {entries : List (OsString × Node)}
    (hprevious : fs (.previous name) = some (.directory entries)) :
    (machine host).Safe (fun _ => True)
      (fun outcome s => outcome = RecoveryOutcome.ready →
        s (.transaction name) = none ∧ ∃ entries, s (.bundle name) = some (.directory entries))
      (fun _ _ => True)
      (((rename (.at (.previous name)) (.bundle name)).orFail message).bind fun _ =>
        ((removeFile (.transaction name)).orFail message').bind fun _ => .done .ready) fs :=
  safe_rename_either hprevious trivial (fun _ => trivial)
    (finish_recovery_result (FileSystem.set_same ..))

/-- Whatever a run recovers from, when it goes on there is a bundle directory and no journal. -/
theorem reconcile_result (hbundle : Clearable (fs (.bundle name))) :
    (machine host).Safe (fun _ => True)
      (fun outcome s => outcome = .ready →
        s (.transaction name) = none ∧ ∃ entries, s (.bundle name) = some (.directory entries))
      (fun _ _ => True) (reconcileInterruptedUpdate host name sha256) fs := by
  refine (read_update_transaction_result fs).bind ?_
  rintro pending s - ⟨rfl, habsent⟩
  cases pending with
  | false =>
      rcases hbundle with hnone | ⟨entries, hentries⟩
      · simp [lookup, FileSystem.lookup, hnone, Node.isDir, bail]
      · simp [lookup, FileSystem.lookup, hentries, Node.isDir, habsent]
  | true =>
      refine (scoped_directory_exists_safe (.bundle name) _ trivial).seq (fun _ _ _ => trivial) ?_
      rintro _ s ⟨-, rfl, rfl⟩
      refine (scoped_directory_exists_safe (.previous name) _ trivial).seq (fun _ _ _ => trivial) ?_
      rintro _ s ⟨hprevious, rfl, rfl⟩
      rcases hbundle with hbundle | ⟨entries, hbundle⟩ <;>
        rcases hprevious with hprevious | ⟨backup, hprevious⟩ <;>
        simp only [hbundle, hprevious, Option.isSome_none, Option.isSome_some]
      · simp [bail]
      · refine (require_verified_safe (.at (.previous name)) _ hprevious trivial).seq (fun _ _ _ => trivial) ?_
        rintro _ s ⟨-, rfl⟩
        exact restore_backup_result hprevious
      · refine (require_verified_safe (.at (.bundle name)) _ hbundle trivial).seq (fun _ _ _ => trivial) ?_
        rintro _ s ⟨-, rfl⟩
        exact finish_recovery_result hbundle
      · simp only [reconcileBoth, verifyAt, lookup, Program.bind_eq, Program.call_bind,
          Program.done_bind, Program.pure_eq, safe_lookup, true_and]
        split
        · refine safe_remove_file_either trivial (fun _ => trivial) ⟨trivial, fun h => ?_⟩
          cases h
        · refine (require_verified_safe (.at (.previous name)) _ hprevious trivial).seq (fun _ _ _ => trivial) ?_
          rintro _ s ⟨-, rfl⟩
          refine (clear_slot_safe (.failed name) _ trivial fun _ _ => trivial).seq
            (fun _ _ _ => trivial) ?_
          rintro _ _ ⟨node, -, -, rfl⟩
          have hsource : (s.set (.failed name) node).lookup (.at (.bundle name)) =
              some (.directory entries) := by simpa [FileSystem.lookup] using hbundle
          have hkept : (((s.set (.failed name) node).detach (.at (.bundle name))).set (.failed name)
              (some (.directory entries))) (.previous name) = some (.directory backup) := by
            simpa [FileSystem.detach] using hprevious
          exact safe_rename_either hsource trivial (fun _ => trivial) (restore_backup_result hkept)

/-- A single root that is found is a directory. -/
theorem single_extracted_root_result (fs : FileSystem) :
    (machine host).Safe (fun _ => True)
      (fun path s => s = fs ∧ ∃ root entries, path = .entry (.expanded stage) root ∧
        fs (.expanded stage) = some (.directory [(root, .directory entries)]))
      (fun _ _ => True) (singleExtractedRoot stage) fs := by
  simp only [singleExtractedRoot, lookup, Program.bind_eq, Program.call_bind, Program.done_bind,
    safe_lookup, FileSystem.lookup, true_and]
  split
  · rename_i root entries hfound
    exact ⟨trivial, rfl, root, entries, rfl, hfound⟩
  all_goals exact ⟨trivial, trivial⟩

/-- An extraction that is accepted has put one directory into the stage. -/
theorem expand_replacement_result (fs : FileSystem) :
    (machine host).Safe (fun _ => True)
      (fun replacement s => ∃ root new, new.isDirectory = true ∧
        replacement = .entry (.expanded stage) root ∧ Accepted host replacement new ∧
        s = unpacked stage root new fs)
      (fun _ _ => True) (expandReplacement host stage) fs := by
  unfold expandReplacement
  simp only [Program.bind_eq, Program.pure_eq]
  refine reset_expanded_safe trivial (fun _ _ => trivial) (fun _ _ _ => trivial) fun node _ => ?_
  cases node with
  | some node => simp [createDir, Program.orFail, FileSystem.createDir]
  | none =>
      simp only [createDir, Program.orFail, FileSystem.createDir, Program.call_bind,
        Program.done_bind, safe_create_dir, FileSystem.set_same, FileSystem.set_set, extractArchive]
      refine ⟨trivial, safe_extract (FileSystem.set_same ..) (fun _ => trivial) fun written => ?_⟩
      rw [FileSystem.set_set]
      cases hread : readFile (fs (.archive stage)) with
      | error error => simp [FileSystem.extract, hread]
      | ok bytes =>
          cases hextract : host.extract bytes with
          | error error => simp [FileSystem.extract, hread, hextract]
          | ok entries =>
              simp only [FileSystem.extract, FileSystem.set_of_ne _ _
                (show Location.archive stage ≠ .expanded stage by simp), hread, hextract,
                FileSystem.set_set, Program.done_bind]
              refine (single_extracted_root_result _).bind ?_
              rintro path s - ⟨rfl, root, inner, rfl, hroot⟩
              obtain rfl : entries = [(root, .directory inner)] := by simpa using hroot
              have hfound : (unpacked stage root (.directory inner) fs).lookup
                  (.entry (.expanded stage) root) = some (.directory inner) := by
                simp [unpacked, FileSystem.lookup, Node.entry]
              refine (require_verified_safe _ _ hfound trivial).seq (fun _ _ _ => trivial) ?_
              rintro _ s ⟨haccepted, rfl⟩
              exact ⟨trivial, root, .directory inner, rfl, rfl, haccepted, rfl⟩

/-- A slot that has been cleared is free, or holds a dangling link. -/
theorem clear_slot_result (location : Location) (label : String) (fs : FileSystem) :
    (machine host).Safe (fun _ => True)
      (fun _ s => ∃ node, Node.present node = false ∧ s = fs.set location node) (fun _ _ => True)
      (clearSlot location label) fs := by
  refine (clear_slot_safe location label trivial fun _ _ => trivial).mono (fun _ => id) ?_
    (fun _ _ _ _ => trivial)
  rintro _ s - ⟨node, habsent, -, rfl⟩
  exact ⟨node, habsent, rfl⟩

/-! ## The rename that vacates the bundle slot -/

/-- What is left of a run once the bundle has been moved away. -/
def afterMove (host : Host) (options : ApplyOptions) (replacement : Path) : Helper Unit := do
  installReplacement host options.bundle replacement
  (removeFile (.transaction options.bundle)).orFail fun error =>
    "update installed but transaction cleanup failed: " ++ error.text
  cleanupUpdateStage options.archive
  relaunch host options.bundle options.launcher

/-- The bundle is moved away only once. -/
theorem after_move_quiet (host : Host) (options : ApplyOptions) (replacement : Path) :
    Quiet (fun _ => True) options.bundle (afterMove host options replacement) := by
  refine Program.Uses.bind (install_replacement_quiet (fun _ _ => trivial) trivial) fun _ => ?_
  refine Program.Uses.bind (Program.Uses.orFail (remove_file_quiet trivial)) fun _ => ?_
  exact Program.Uses.bind (cleanup_update_stage_quiet.mono fun _ _ => trivial)
    fun _ => relaunch_quiet

/-- What a run has established when it is about to move the bundle away: the journal is written,
an accepted replacement lies in the stage, and the slots it will use have been cleared. -/
structure AboutToMove (host : Host) (options : ApplyOptions) (root : OsString) (old new : Node)
    (fs : FileSystem) : Prop where
  old_directory : old.isDirectory = true
  new_directory : new.isDirectory = true
  journaled : AtStage host options.bundle options.sha256 old new .journaled fs
  unpacked : fs (.expanded options.archive) = some (.directory [(root, new)])
  accepted : Accepted host (.entry (.expanded options.archive) root) new
  failed : Node.present (fs (.failed options.bundle)) = false

/-- A part that only reads ends where it started. -/
theorem Reads.reaches_done {β : Type} {p : Helper β} (hp : Reads p) {fs fs' : FileSystem}
    {value : β} (h : (machine host).Reaches (p, fs) (.done value, fs')) : fs' = fs := by
  have hsafe : (machine host).Safe (fun _ => True) (fun _ s => s = fs) (fun _ s => s = fs) p fs :=
    hp.safe trivial
  exact hsafe.of_done h

/-- Every run that is about to move a bundle away has passed through the whole preparation. -/
theorem reaches_move {pid : Nat} {options : ApplyOptions} {start before : FileSystem}
    {next : Except IoError Unit → Helper Unit}
    (h : (machine host).Reaches (apply host pid options, start)
      (.call (.rename (.at (.bundle options.bundle)) (.previous options.bundle)) next, before)) :
    ∃ root old new, AboutToMove host options root old new before ∧
      next (.ok ()) = afterMove host options (.entry (.expanded options.archive) root) := by
  have havoid {β : Type} {p : Helper β} (hp : Reads p) : p.Avoids (moveAway options.bundle) :=
    hp.avoids rfl
  have hquiet {β : Type} {p : Helper β} (hp : Quiet (fun _ => True) options.bundle p) :
      p.Avoids (moveAway options.bundle) := hp.avoids
  unfold apply install at h
  simp only [Program.bind_eq, Program.bind_assoc] at h
  -- the checks at the start
  obtain ⟨_, fs₁, hdone₁, h₁⟩ :=
    Machine.reaches_call_bind (havoid (resolve_bundle_target_reads _)) h
  obtain ⟨rfl, hbundle⟩ := (resolve_bundle_target_result start options.bundle).of_done hdone₁
  obtain ⟨_, fs₂, hdone₂, h₂⟩ := Machine.reaches_call_bind (havoid (resolve_archive_reads _)) h₁
  obtain rfl := (resolve_archive_reads _).reaches_done hdone₂
  obtain ⟨_, fs₃, hdone₃, h₃⟩ :=
    Machine.reaches_call_bind (havoid (verify_archive_hash_reads ..)) h₂
  obtain rfl := (verify_archive_hash_reads ..).reaches_done hdone₃
  obtain ⟨_, fs₄, hdone₄, h₄⟩ := Machine.reaches_call_bind (havoid (poll_parent_reads ..)) h₃
  obtain rfl := (poll_parent_reads ..).reaches_done hdone₄
  -- the recovery of an earlier run
  obtain ⟨outcome, fs₅, hdone₅, h₅⟩ :=
    Machine.reaches_call_bind reconcile_quiet.avoids h₄
  have hready := (reconcile_result hbundle).of_done hdone₅
  cases outcome with
  | alreadyInstalled =>
      have hnever := h₅.uses (Program.Uses.bind cleanup_update_stage_quiet.avoids
        fun _ => hquiet relaunch_quiet)
      exact absurd rfl hnever.1
  | ready =>
      obtain ⟨htransaction, entries, hold⟩ := hready rfl
      unfold swap at h₅
      simp only [Program.bind_eq, Program.bind_assoc] at h₅
      -- the extraction and the slots
      obtain ⟨_, fs₆, hdone₆, h₆⟩ :=
        Machine.reaches_call_bind expand_replacement_quiet.avoids h₅
      obtain ⟨root, new, hnew, rfl, haccepted, rfl⟩ := (expand_replacement_result fs₅).of_done hdone₆
      obtain ⟨_, fs₇, hdone₇, h₇⟩ :=
        Machine.reaches_call_bind (hquiet (clear_slot_quiet trivial)) h₆
      obtain ⟨backup, hbackup, rfl⟩ := (clear_slot_result _ _ _).of_done hdone₇
      obtain ⟨_, fs₈, hdone₈, h₈⟩ :=
        Machine.reaches_call_bind (hquiet (clear_slot_quiet trivial)) h₇
      obtain ⟨quarantine, hquarantine, rfl⟩ := (clear_slot_result _ _ _).of_done hdone₈
      -- the journal
      obtain ⟨_, fs₉, hdone₉, h₉⟩ :=
        Machine.reaches_call_bind write_update_transaction_quiet.avoids h₈
      have hsettled : AtStage host options.bundle options.sha256 (.directory entries) new .settled
          (((unpacked options.archive root new fs₅).set (.previous options.bundle) backup).set
            (.failed options.bundle) quarantine) := by
        refine ⟨?_, ?_⟩
        · simpa [unpacked] using htransaction
        · simpa [unpacked] using hold
      have hwrite : (machine host).Safe (fun _ => True) _ _
          (writeUpdateTransaction host pid options.bundle options.sha256) _ :=
        write_update_transaction_safe hsettled.1 trivial (fun _ _ => trivial) trivial
      obtain rfl := hwrite.of_done hdone₉
      have hjournaled := hsettled.published pid (by simpa using hbackup)
      have hatomic (s s' : FileSystem) : ¬ Partway (moveAway options.bundle) s s' := by
        intro hmid
        cases hmid
      have hfirst := fun hrest => Machine.reaches_first_call hatomic hrest h₉
      obtain ⟨rfl, rfl⟩ := hfirst fun reply => by
        cases reply with
        | error error => trivial
        | ok =>
            exact (after_move_quiet host options _).avoids
      refine ⟨root, .directory entries, new, ⟨rfl, hnew, hjournaled, ?_, haccepted, ?_⟩, rfl⟩
      · simp [published, unpacked]
      · simpa [published] using hquarantine

/-! ## What recovery makes of a run that was killed later -/

/-- Recovery succeeds and leaves a directory in the bundle slot. -/
def Recovers (host : Host) (name : OsString) (sha256 : String) (fs : FileSystem) : Prop :=
  ∃ outcome fs', (machine host).run (reconcileInterruptedUpdate host name sha256) fs =
      (.ok outcome, fs') ∧ ∃ entries, fs' (.bundle name) = some (.directory entries)

/-- `Recovers` from a specification of recovery that rules errors out. -/
theorem recovers_of_safe {ok : RecoveryOutcome → FileSystem → Prop}
    {err : String → FileSystem → Prop}
    (h : (machine host).Safe (fun _ => True) ok err
      (reconcileInterruptedUpdate host name sha256) fs)
    (herr : ∀ error s, ¬ err error s)
    (hok : ∀ outcome s, ok outcome s → ∃ node, s (.bundle name) = some node ∧
      node.isDirectory = true) : Recovers host name sha256 fs := by
  have hend := h.of_run.2
  rcases hrun : (machine host).run (reconcileInterruptedUpdate host name sha256) fs with
    ⟨result, fs'⟩
  rw [hrun] at hend
  cases result with
  | error error => exact absurd hend (herr _ _)
  | ok outcome =>
      obtain ⟨node, hnode, hdir⟩ := hok _ _ hend
      obtain ⟨entries, rfl⟩ := is_directory_iff.mp hdir
      exact ⟨outcome, fs', hrun, entries, hnode⟩

/-- A recovery that succeeds meets its specification. -/
theorem Recovers.result {ok : RecoveryOutcome → FileSystem → Prop}
    {err : String → FileSystem → Prop} (h : Recovers host name sha256 fs)
    (hsafe : (machine host).Safe (fun _ => True) ok err
      (reconcileInterruptedUpdate host name sha256) fs) : ∃ outcome s, ok outcome s := by
  obtain ⟨outcome, fs', hrun, -⟩ := h
  have hend := hsafe.of_run.2
  rw [hrun] at hend
  exact ⟨outcome, fs', hend⟩

theorem AtStage.recovers_settled (h : AtStage host name sha256 old new .settled fs)
    (hold : old.isDirectory = true) : Recovers host name sha256 fs :=
  recovers_of_safe (reconcile_settled hold h trivial) (fun _ _ => id) fun _ _ hs =>
    ⟨old, hs.2 ▸ h.2, hold⟩

theorem AtStage.recovers_committed (h : AtStage host name sha256 old new .committed fs)
    (hnew : new.isDirectory = true) : Recovers host name sha256 fs :=
  h.settled_again.recovers_settled hnew

theorem AtStage.recovers_journaled (h : AtStage host name sha256 old new .journaled fs)
    (hjournal : Journals host sha256) (hold : old.isDirectory = true)
    (hprevious : fs (.previous name) = none) (haccepted : Accepted host (.at (.bundle name)) old) :
    Recovers host name sha256 fs :=
  recovers_of_safe (reconcile_journaled hjournal hold h trivial trivial)
    (fun _ _ hs => hs ⟨.inl hprevious, haccepted⟩) fun _ s hs =>
      ⟨old, by simpa [hs.2.2] using h.2.1, hold⟩

theorem AtStage.recovers_vacated (h : AtStage host name sha256 old new .vacated fs)
    (hjournal : Journals host sha256) (hold : old.isDirectory = true)
    (haccepted : Accepted host (.at (.previous name)) old) : Recovers host name sha256 fs :=
  recovers_of_safe (reconcile_vacated hjournal hold h trivial trivial trivial)
    (fun _ _ hs => hs haccepted) fun _ s hs => ⟨old, by simp [hs.2.2, Updater.restored], hold⟩

theorem AtStage.recovers_installed (h : AtStage host name sha256 old new .installed fs)
    (hjournal : Journals host sha256) (hold : old.isDirectory = true)
    (hnew : new.isDirectory = true) (hprevious : Accepted host (.at (.previous name)) old)
    (hbundle : Accepted host (.at (.bundle name)) new ∨ fs (.failed name) = none) :
    Recovers host name sha256 fs := by
  by_cases haccepted : Accepted host (.at (.bundle name)) new
  · exact recovers_of_safe (reconcile_installed hjournal hold hnew h haccepted trivial trivial)
      (fun _ _ => id) fun _ s hs => ⟨new, by simpa [hs.2] using h.2.1, hnew⟩
  · have hfailed := hbundle.resolve_left haccepted
    exact recovers_of_safe (reconcile_refused hjournal hold hnew h haccepted trivial
        (fun _ _ => trivial) trivial trivial trivial)
      (fun _ _ hs => hs ⟨hprevious, .inl hfailed⟩) fun _ s hs =>
        ⟨old, by simp [hs.2.2.2, Updater.restored], hold⟩

/-- The condition under which a bundle that was moved away comes back from any kill: it is accepted
in the backup slot, and either the replacement is accepted in the bundle slot, or the old bundle is
and the quarantine slot is free for the refused replacement. -/
def ComesBack (host : Host) (name : OsString) (old new : Node) (before : FileSystem) : Prop :=
  Accepted host (.at (.previous name)) old ∧
    (Accepted host (.at (.bundle name)) new ∨
      Accepted host (.at (.bundle name)) old ∧ before (.failed name) = none)

/-- Under that condition every state after the move recovers. -/
theorem after_move_safe {options : ApplyOptions} (hjournal : Journals host options.sha256)
    (hold : old.isDirectory = true) (hnew : new.isDirectory = true)
    (h : AtStage host options.bundle options.sha256 old new .vacated fs)
    (hexpanded : fs (.expanded options.archive) = some (.directory [(root, new)]))
    (hback : ComesBack host options.bundle old new fs) :
    (machine host).Safe (Recovers host options.bundle options.sha256) (fun _ _ => True)
      (fun _ _ => True) (afterMove host options (.entry (.expanded options.archive) root)) fs := by
  obtain ⟨hprevious, hbundle⟩ := hback
  have hat := h.installed options.archive
  have hfailed : installed options.bundle options.archive new fs (.failed options.bundle) =
      fs (.failed options.bundle) := by simp [installed]
  have hinstalled := hat.recovers_installed hjournal hold hnew hprevious
    (hbundle.imp_right fun hrest => hfailed.trans hrest.2)
  refine (install_replacement_rule h hexpanded (h.recovers_vacated hjournal hold hprevious)
    hinstalled (fun hrefused => ?_) fun error hrefused hmove => ?_).seq (fun _ _ _ => trivial) ?_
  · have haccepted := (hbundle.resolve_left hrefused).1
    refine ⟨hat.quarantined.recovers_vacated hjournal hold hprevious,
      hat.quarantined.restored.recovers_journaled hjournal hold ?_ haccepted,
      hat.quarantined.restored.settled.recovers_settled hold⟩
    simp [restored]
  · have hfree := (hbundle.resolve_left hrefused).2
    have hfreeMove := FileSystem.rename_free (installed options.bundle options.archive new fs)
      (.at (.bundle options.bundle)) (.failed options.bundle) hat.2.1 (hfailed.trans hfree)
    rw [hfreeMove] at hmove
    cases hmove
  · rintro _ s ⟨haccepted, rfl⟩
    have hcommitted := hat.committed haccepted
    refine safe_remove_file_ok hat.1 hinstalled ?_
    refine ((cleanup_update_stage_rule (hcommitted.recovers_committed hnew)
      fun node _ => ⟨?_, ?_⟩).mono (fun _ => id) (fun _ _ _ => id)
        fun _ _ _ _ => trivial).bind fun _ s hs _ => ?_
    · exact (hcommitted.set _ _ (by simp) (by simp) (by simp)).recovers_committed hnew
    · exact ((hcommitted.set _ _ (by simp) (by simp) (by simp)).set _ _ (by simp) (by simp)
        (by simp)).recovers_committed hnew
    · exact (relaunch_safe options.launcher hs).mono (fun _ => id) (fun _ _ _ _ => trivial)
        fun _ _ _ _ => trivial

/-- The first step after the move puts the replacement into the bundle slot. -/
theorem after_move_places {options : ApplyOptions}
    (h : AtStage host options.bundle options.sha256 old new .vacated fs)
    (hexpanded : fs (.expanded options.archive) = some (.directory [(root, new)])) :
    (machine host).Leaves (afterMove host options (.entry (.expanded options.archive) root)) fs
      (installed options.bundle options.archive new fs) := by
  have hsteps : (machine host).Leaves _ fs _ := Machine.leaves_run_steps 1
    (afterMove host options (.entry (.expanded options.archive) root)) fs
  simpa [Machine.runSteps, afterMove, installReplacement, rename, perform,
    rename_replacement h hexpanded] using hsteps

/-- A refused replacement is put aside where that is possible, and then the old bundle comes back
while the journal is still there. -/
theorem after_move_rolls_back {options : ApplyOptions}
    (h : AtStage host options.bundle options.sha256 old new .vacated fs)
    (hexpanded : fs (.expanded options.archive) = some (.directory [(root, new)]))
    (hrefused : ¬ Accepted host (.at (.bundle options.bundle)) new)
    (hfailed : fs (.failed options.bundle) = none) :
    (machine host).Leaves (afterMove host options (.entry (.expanded options.archive) root)) fs
      (restored options.bundle old (quarantined options.bundle new
        (installed options.bundle options.archive new fs))) := by
  have hat := h.installed options.archive
  have hlookup : (installed options.bundle options.archive new fs).lookup
      (.at (.bundle options.bundle)) = some new := hat.2.1
  have haside := FileSystem.rename_free _ _ (.failed options.bundle) hlookup
    (by simpa [installed] using hfailed)
  have hback := FileSystem.rename_free
    (quarantined options.bundle new (installed options.bundle options.archive new fs))
    (.at (.previous options.bundle)) (.bundle options.bundle) hat.quarantined.2.2
    hat.quarantined.2.1
  change _ = (_, quarantined options.bundle new (installed options.bundle options.archive new fs))
    at haside
  change _ = (_, restored options.bundle old (quarantined options.bundle new
    (installed options.bundle options.archive new fs))) at hback
  cases hverify : verifyReplacement host ((Path.at (.bundle options.bundle)).fileName host)
      ((Path.at (.bundle options.bundle)).display host) (some new) with
  | ok => exact absurd hverify hrefused
  | error error =>
      have hsteps : (machine host).Leaves _ fs _ := Machine.leaves_run_steps 4
        (afterMove host options (.entry (.expanded options.archive) root)) fs
      simpa [Machine.runSteps, afterMove, installReplacement, rollBack, rename, verifyAt, lookup,
        perform, rename_replacement h hexpanded, hlookup, hverify, haside, hback] using hsteps

/-- For every bundle that a run moves away: whenever the run is killed after that, recovery puts a
directory back into the bundle slot, if and only if the condition holds at the move. -/
theorem moved_bundle_comes_back_iff {pid : Nat} {options : ApplyOptions}
    {start before after : FileSystem} {next : Except IoError Unit → Helper Unit}
    (hjournal : Journals host options.sha256)
    (hreach : (machine host).Reaches (apply host pid options, start)
      (.call (.rename (.at (.bundle options.bundle)) (.previous options.bundle)) next, before))
    (hmoved : before.rename (.at (.bundle options.bundle)) (.previous options.bundle) =
      (.ok (), after)) :
    ∃ root old new, before (.bundle options.bundle) = some old ∧
      before (.expanded options.archive) = some (.directory [(root, new)]) ∧
      ((∀ rest killed, (machine host).Reaches (next (.ok ()), after) (rest, killed) →
        Recovers host options.bundle options.sha256 killed) ↔
          ComesBack host options.bundle old new before) := by
  obtain ⟨root, old, new, habout, hnext⟩ := reaches_move hreach
  refine ⟨root, old, new, habout.journaled.2.1, habout.unpacked, ?_⟩
  have hafter : after = vacated options.bundle old before := by
    rcases before.rename_cases (.at (.bundle options.bundle)) (.previous options.bundle)
      habout.journaled.2.1 with ⟨error, hmove⟩ | hmove
    · rw [hmove] at hmoved
      cases hmoved
    · rw [hmove] at hmoved
      exact (Prod.mk.inj hmoved).2.symm
  subst hafter
  have hvacated := habout.journaled.vacated
  have hexpanded : vacated options.bundle old before (.expanded options.archive) =
      some (.directory [(root, new)]) := by simpa [vacated] using habout.unpacked
  have hfailed : vacated options.bundle old before (.failed options.bundle) =
      before (.failed options.bundle) := by simp [vacated]
  rw [hnext]
  constructor
  · intro hall
    have hat := hvacated.installed options.archive
    -- a kill right after the move
    obtain ⟨-, -, -, hprevious, -⟩ := (hall _ _ .refl).result
      (reconcile_vacated hjournal habout.old_directory hvacated trivial trivial trivial)
    refine ⟨hprevious, ?_⟩
    by_cases haccepted : Accepted host (.at (.bundle options.bundle)) new
    · exact .inl haccepted
    -- a kill while the refused replacement is in place
    obtain ⟨rest, hplaced⟩ := after_move_places hvacated hexpanded
    obtain ⟨-, -, -, -, hclear, -⟩ := (hall _ _ hplaced).result
      (reconcile_refused hjournal habout.old_directory habout.new_directory hat haccepted trivial
        (fun _ _ => trivial) trivial trivial trivial)
    have hfree : before (.failed options.bundle) = none := by
      rcases hclear with hnone | ⟨entries, hentries⟩
      · simpa [installed, vacated] using hnone
      · have hpresent := habout.failed
        rw [← hfailed, show vacated options.bundle old before (.failed options.bundle) =
          some (.directory entries) by simpa [installed] using hentries] at hpresent
        simp [Node.present] at hpresent
    -- a kill after the replacement has been put aside again
    obtain ⟨rest', hrolled⟩ :=
      after_move_rolls_back hvacated hexpanded haccepted (hfailed.trans hfree)
    obtain ⟨-, -, -, hbundle, -⟩ := (hall _ _ hrolled).result
      (reconcile_journaled hjournal habout.old_directory hat.quarantined.restored trivial trivial)
    exact .inr ⟨hbundle, hfree⟩
  · intro hback rest killed hrun
    refine (after_move_safe hjournal habout.old_directory habout.new_directory hvacated hexpanded
      ?_).of_leaves ⟨rest, hrun⟩
    simpa only [ComesBack, hfailed] using hback

/-- Whether a program is about to move the bundle away. -/
def movesAway (name : OsString) : Helper Unit → Bool
  | .call (.rename (.at (.bundle source)) (.previous target)) _ =>
      decide (source = name ∧ target = name)
  | _ => false

theorem moves_away_call {p : Helper Unit} (h : movesAway name p = true) :
    ∃ next, p = .call (.rename (.at (.bundle name)) (.previous name)) next := by
  unfold movesAway at h
  split at h
  · obtain ⟨rfl, rfl⟩ := of_decide_eq_true h
    exact ⟨_, rfl⟩
  · cases h

/-- The update of `notes` from a given bundle, just before it moves that bundle away. -/
def notesBefore (bundle : Node) : Helper Unit × FileSystem :=
  (machine (notesHost .linux)).runSteps 18 (apply (notesHost .linux) 7 notesOptions,
    notesStart (osString "notes") bundle notesArchive)

/-- The result of that move. -/
def notesMove (bundle : Node) : Except IoError Unit × FileSystem :=
  (notesBefore bundle).2.rename (.at (.bundle notesOptions.bundle)) (.previous notesOptions.bundle)

/-- A version of Notes that has written a log file into its own directory. -/
def loggedBundle : Node :=
  .directory [(osString "manifest.json", .file (notesManifest "1.0.0")),
    (osString "app.log", .file [])]

/-- Both bundles reach the move, and recovery refuses the one with the log file. -/
theorem notes_moves_evaluated :
    (movesAway notesOptions.bundle (notesBefore (notesBundle "1.0.0")).1 = true ∧
      (notesMove (notesBundle "1.0.0")).1 = .ok ()) ∧
    (movesAway notesOptions.bundle (notesBefore loggedBundle).1 = true ∧
      (notesMove loggedBundle).1 = .ok ()) ∧
    ((machine (notesHost .linux)).run (reconcileInterruptedUpdate (notesHost .linux)
      notesOptions.bundle notesOptions.sha256) (notesMove loggedBundle).2).1.isOk = false := by
  decide +kernel

theorem notes_about_to_move (bundle : Node)
    (hcall : movesAway notesOptions.bundle (notesBefore bundle).1 = true)
    (hmoved : (notesMove bundle).1 = .ok ()) :
    ∃ next, (machine (notesHost .linux)).Reaches
        (apply (notesHost .linux) 7 notesOptions,
          notesStart (osString "notes") bundle notesArchive)
        (.call (.rename (.at (.bundle notesOptions.bundle)) (.previous notesOptions.bundle)) next,
          (notesBefore bundle).2) ∧
      (notesBefore bundle).2.rename (.at (.bundle notesOptions.bundle))
        (.previous notesOptions.bundle) = (.ok (), (notesMove bundle).2) := by
  obtain ⟨next, hnext⟩ := moves_away_call hcall
  refine ⟨next, ?_, ?_⟩
  · rw [← hnext]
    exact Machine.reaches_of_run_steps (by rw [notesBefore])
  · rw [← hmoved]
    rfl

/-- The bundle of `notes` comes back from every kill. -/
theorem notes_comes_back : ∃ next,
    (machine (notesHost .linux)).Reaches
      (apply (notesHost .linux) 7 notesOptions,
        notesStart (osString "notes") (notesBundle "1.0.0") notesArchive)
      (.call (.rename (.at (.bundle notesOptions.bundle)) (.previous notesOptions.bundle)) next,
        (notesBefore (notesBundle "1.0.0")).2) ∧
    ∃ root old new, (notesBefore (notesBundle "1.0.0")).2 (.bundle notesOptions.bundle) = some old ∧
      (notesBefore (notesBundle "1.0.0")).2 (.expanded notesOptions.archive) =
        some (.directory [(root, new)]) ∧
      ((∀ rest killed, (machine (notesHost .linux)).Reaches
          (next (.ok ()), (notesMove (notesBundle "1.0.0")).2) (rest, killed) →
        Recovers (notesHost .linux) notesOptions.bundle notesOptions.sha256 killed) ↔
          ComesBack (notesHost .linux) notesOptions.bundle old new
            (notesBefore (notesBundle "1.0.0")).2) := by
  obtain ⟨next, hreach, hmoved⟩ :=
    notes_about_to_move _ notes_moves_evaluated.1.1 notes_moves_evaluated.1.2
  exact ⟨next, hreach, @moved_bundle_comes_back_iff (notesHost .linux) 7 notesOptions _ _ _ next
    notes_journals hreach hmoved⟩

/-- It is moved away like any other bundle, and recovery refuses it as the backup. -/
theorem logged_bundle_does_not_come_back : ∃ next,
    (machine (notesHost .linux)).Reaches
      (apply (notesHost .linux) 7 notesOptions,
        notesStart (osString "notes") loggedBundle notesArchive)
      (.call (.rename (.at (.bundle notesOptions.bundle)) (.previous notesOptions.bundle)) next,
        (notesBefore loggedBundle).2) ∧
    (notesBefore loggedBundle).2.rename (.at (.bundle notesOptions.bundle))
      (.previous notesOptions.bundle) = (.ok (), (notesMove loggedBundle).2) ∧
    ¬ Recovers (notesHost .linux) notesOptions.bundle notesOptions.sha256 (notesMove loggedBundle).2 := by
  obtain ⟨next, hreach, hmoved⟩ :=
    notes_about_to_move _ notes_moves_evaluated.2.1.1 notes_moves_evaluated.2.1.2
  refine ⟨next, hreach, hmoved, ?_⟩
  rintro ⟨outcome, fs', hrun, -⟩
  have hrefused := notes_moves_evaluated.2.2
  rw [hrun] at hrefused
  cases hrefused

end PamDesktop.Updater
