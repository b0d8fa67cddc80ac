import PamDesktop.Updater.Recovery

/-!
# One run of the helper

The forward half of the helper in the terms of `Recovery`: extraction, the journal, the swap and
the clean-up, and from them `install_safe`. Whatever stage before the commit a run starts in, every
state it goes through is at a stage of the swap, and a run that succeeds has committed.
-/

namespace PamDesktop.Updater

open Foundations Protocol

/-- The archive in the stage can be read and unpacks to one directory, `new`. -/
def Unpacks (host : Host) (stage root : OsString) (new : Node) (fs : FileSystem) : Prop :=
  ∃ bytes, readFile (fs (.archive stage)) = .ok bytes ∧ host.extract bytes = .ok [(root, new)]

theorem Unpacks.not_directory {host : Host} {stage root : OsString} {new : Node} {fs : FileSystem}
    (h : Unpacks host stage root new fs) (entries : List (OsString × Node)) :
    fs (.archive stage) ≠ some (.directory entries) := by
  obtain ⟨bytes, hread, -⟩ := h
  intro hdir
  simp [hdir, readFile, followed] at hread

/-- The archive in the stage hashes to the digest. -/
def Hashes (host : Host) (stage : OsString) (sha256 : String) (fs : FileSystem) : Prop :=
  ∃ bytes, readFile (fs (.archive stage)) = .ok bytes ∧ host.sha256 bytes = sha256

/-- The polls see the parent exit before the timeout. -/
def ParentExits (host : Host) (pid : Nat) : Prop :=
  ∃ last < parentExitPolls, host.processExists pid last = .ok false ∧
    ∀ poll < last, host.processExists pid poll = .ok true

variable {host : Host} {name stage root : OsString} {sha256 : String} {old new : Node}
  {inv : FileSystem → Prop} {start fs : FileSystem} {swapStage : SwapStage} {α : Type}

/-- Setting a location outside the swap proper keeps the stage. -/
theorem AtStage.set (h : AtStage host name sha256 old new swapStage fs) (location : Location)
    (node : Option Node) (htransaction : location ≠ .transaction name)
    (hbundle : location ≠ .bundle name) (hprevious : location ≠ .previous name) :
    AtStage host name sha256 old new swapStage (fs.set location node) :=
  h.congr (FileSystem.set_of_ne _ _ htransaction.symm) (FileSystem.set_of_ne _ _ hbundle.symm)
    (FileSystem.set_of_ne _ _ hprevious.symm)

/-! ## Waiting and extracting -/

/-- Polling looks at the process table only. -/
theorem poll_parent_safe (pid : Nat) (hinv : inv fs) (polls poll : Nat) :
    (machine host).Safe inv (fun _ s => s = fs)
      (fun _ _ => ¬ ∃ last, poll ≤ last ∧ last < poll + polls ∧
        host.processExists pid last = .ok false ∧
        ∀ earlier, poll ≤ earlier → earlier < last → host.processExists pid earlier = .ok true)
      (pollParent pid polls poll) fs := by
  induction polls generalizing poll with
  | zero =>
      refine ⟨hinv, ?_⟩
      rintro ⟨last, hle, hlt, _⟩
      omega
  | succ polls ih =>
      simp only [pollParent, safe_process_exists]
      refine ⟨hinv, ?_⟩
      cases hpoll : host.processExists pid poll with
      | error error =>
          refine ⟨hinv, ?_⟩
          rintro ⟨last, hle, -, hlast, hbefore⟩
          rcases Nat.eq_or_lt_of_le hle with rfl | hlt
          · simp [hpoll] at hlast
          · simpa [hpoll] using hbefore poll (Nat.le_refl _) hlt
      | ok running =>
          cases running with
          | false => exact ⟨hinv, rfl⟩
          | true =>
              refine (ih (poll + 1)).mono (fun _ => id) (fun _ _ _ => id) fun _ _ _ hnever => ?_
              rintro ⟨last, hle, hlt, hlast, hbefore⟩
              have hne : poll ≠ last := by
                rintro rfl
                simp [hpoll] at hlast
              exact hnever ⟨last, by omega, by omega, hlast,
                fun earlier hge => hbefore earlier (by omega)⟩

/-- Waiting for the parent changes nothing. -/
theorem wait_for_parent_safe (pid : Nat) (hinv : inv fs) :
    (machine host).Safe inv (fun _ s => s = fs) (fun _ _ => ¬ ParentExits host pid)
      (waitForParent pid) fs := by
  refine (poll_parent_safe pid hinv parentExitPolls 0).mono (fun _ => id) (fun _ _ _ => id) ?_
  rintro _ _ _ hnever ⟨last, hlt, hlast, hbefore⟩
  exact hnever ⟨last, Nat.zero_le _, by omega, hlast, fun earlier _ => hbefore earlier⟩

/-- The reset of the extraction directory: the directory goes, or a link that resolves; a dangling
link survives, because `exists` follows links. -/
theorem reset_expanded_safe {message : IoError → String} {next : Unit → Helper α}
    {ok : α → FileSystem → Prop} {err : String → FileSystem → Prop} (hinv : inv fs)
    (hset : ∀ node, (Clearable (fs (.expanded stage)) → Clearable node) →
      inv (fs.set (.expanded stage) node))
    (herr : ¬ Clearable (fs (.expanded stage)) → ∀ error s, err error s)
    (hnext : ∀ node, (Clearable (fs (.expanded stage)) → node = none) →
      (machine host).Safe inv ok err (next ()) (fs.set (.expanded stage) node)) :
    (machine host).Safe inv ok err
      ((lookup (.at (.expanded stage))).bind fun found =>
        if Node.present found then ((removeDirAll (.expanded stage)).orFail message).bind next
        else next ()) fs := by
  have hkept (h : Clearable (fs (.expanded stage)) → fs (.expanded stage) = none) :
      (machine host).Safe inv ok err (next ()) fs := by
    simpa using hnext (fs (.expanded stage)) h
  have hother (node : Node) (hnode : fs (.expanded stage) = some node)
      (hdir : node.isDirectory = false) : ¬ Clearable (fs (.expanded stage)) := by
    rintro (hnone | ⟨entries, hentries⟩)
    · simp [hnode] at hnone
    · obtain rfl : node = .directory entries := by simpa [hnode] using hentries
      simp [Node.isDirectory] at hdir
  cases hnode : fs (.expanded stage) with
  | none => simpa [lookup, FileSystem.lookup, hnode, Node.present, hinv] using hkept fun _ => hnode
  | some node =>
      cases node with
      | file bytes =>
          have hfail := herr (hother _ hnode rfl)
          simp only [lookup, removeDirAll, FileSystem.lookup, hnode, Node.present, Program.orFail,
            Program.call_bind, Program.done_bind, ite_true, safe_lookup]
          refine ⟨hinv, safe_remove_dir_all_atomic (by simp [hnode]) hinv ?_⟩
          simp [FileSystem.removeDirAll, hnode, hinv, hfail]
      | special =>
          have hfail := herr (hother _ hnode rfl)
          simp only [lookup, removeDirAll, FileSystem.lookup, hnode, Node.present, Program.orFail,
            Program.call_bind, Program.done_bind, ite_true, safe_lookup]
          refine ⟨hinv, safe_remove_dir_all_atomic (by simp [hnode]) hinv ?_⟩
          simp [FileSystem.removeDirAll, hnode, hinv, hfail]
      | symlink target =>
          cases target with
          | none =>
              simpa [lookup, FileSystem.lookup, hnode, Node.present, hinv] using
                hkept fun hclear => absurd hclear (hother _ hnode rfl)
          | some target =>
              have hgone := hnext none fun _ => rfl
              simp only [lookup, removeDirAll, FileSystem.lookup, hnode, Node.present,
                Program.orFail, Program.call_bind, Program.done_bind, ite_true, safe_lookup,
                Option.isSome_some]
              refine ⟨hinv, safe_remove_dir_all_atomic (by simp [hnode]) hinv ?_⟩
              simpa [FileSystem.removeDirAll, hnode] using hgone
      | directory entries =>
          have hgone := hnext none fun _ => rfl
          simp only [lookup, removeDirAll, FileSystem.lookup, hnode, Node.present, Program.orFail,
            Program.call_bind, Program.done_bind, ite_true, safe_lookup]
          exact ⟨hinv, safe_remove_dir_all hnode
            (fun entries => hset _ fun _ => .inr ⟨entries, rfl⟩) hgone⟩

/-- The replacement that comes out of the extraction, where it was unpacked. -/
def unpacked (stage root : OsString) (new : Node) (fs : FileSystem) : FileSystem :=
  fs.set (.expanded stage) (some (.directory [(root, new)]))

/-- A completed extraction puts the contents of the archive in place of what was there. -/
theorem extract_unpacked (hunpacks : Unpacks host stage root new fs) (node : Option Node) :
    (fs.set (.expanded stage) node).extract host (.archive stage) (.expanded stage) =
      (.ok (), unpacked stage root new fs) := by
  obtain ⟨bytes, hread, hextract⟩ := hunpacks
  simp [FileSystem.extract, hread, hextract, unpacked]

/-- The single root of an extraction that has one. -/
theorem single_extracted_root_safe {err : String → FileSystem → Prop}
    {entries : List (OsString × Node)} (hinv : inv fs)
    (h : fs (.expanded stage) = some (.directory [(root, .directory entries)])) :
    (machine host).Safe inv (fun path s => path = .entry (.expanded stage) root ∧ s = fs) err
      (singleExtractedRoot stage) fs := by
  simp [singleExtractedRoot, lookup, FileSystem.lookup, h, hinv]

/-- The extraction step: it ends with the one directory of the archive, accepted, in the stage. -/
theorem expand_replacement_safe (hinv : inv fs) (hunpacks : Unpacks host stage root new fs)
    (hnew : new.isDirectory = true)
    (hset : ∀ node, (Clearable (fs (.expanded stage)) → Clearable node) →
      inv (fs.set (.expanded stage) node)) :
    (machine host).Safe inv
      (fun replacement s => replacement = .entry (.expanded stage) root ∧
        Accepted host replacement new ∧ s = unpacked stage root new fs)
      (fun _ _ => ¬ (Clearable (fs (.expanded stage)) ∧
        Accepted host (.entry (.expanded stage) root) new))
      (expandReplacement host stage) fs := by
  have hdir (entries : List (OsString × Node)) :
      inv (fs.set (.expanded stage) (some (.directory entries))) :=
    hset _ fun _ => .inr ⟨entries, rfl⟩
  unfold expandReplacement
  simp only [Program.bind_eq, Program.pure_eq]
  refine reset_expanded_safe hinv hset (fun hclear _ _ hok => hclear hok.1) fun node hgone => ?_
  have hinv' := hset node fun hclear => .inl (hgone hclear)
  cases node with
  | some node =>
      have hclear : ¬ Clearable (fs (.expanded stage)) := fun hclear => nomatch hgone hclear
      simp [createDir, Program.orFail, FileSystem.createDir, hinv', hclear]
  | none =>
      simp only [createDir, Program.orFail, FileSystem.createDir, Program.call_bind,
        Program.done_bind, safe_create_dir, FileSystem.set_same, FileSystem.set_set, extractArchive]
      refine ⟨hinv', safe_extract (FileSystem.set_same ..) (by simpa using hdir) fun written => ?_⟩
      rw [FileSystem.set_set, extract_unpacked hunpacks, Program.done_bind]
      obtain ⟨entries, rfl⟩ := is_directory_iff.mp hnew
      refine (single_extracted_root_safe (hdir _) (FileSystem.set_same ..)).bind ?_
      rintro path s hinvs ⟨rfl, rfl⟩
      refine (require_verified_safe _ "" ?_ hinvs).seq (fun _ _ hs hok => hs.1 hok.2) ?_
      · simp [FileSystem.lookup, Node.entry]
      · rintro _ s ⟨haccepted, rfl⟩
        exact ⟨hinvs, rfl, haccepted, rfl⟩

/-! ## The journal -/

/-- The file system once the journal has been published from its staging file. -/
def published (host : Host) (pid : Nat) (name : OsString) (sha256 : String) (fs : FileSystem) :
    FileSystem :=
  (fs.set (.transactionStaging name pid) none).set (.transaction name) (some (journal host sha256))

/-- Staging and publishing the journal where nothing is staged. -/
theorem publish_transaction_safe {pid : Nat} (hstaging : fs (.transactionStaging name pid) = none)
    (htransaction : fs (.transaction name) = none) (hinv : inv fs)
    (hset : ∀ bytes, inv (fs.set (.transactionStaging name pid) (some (.file bytes))))
    (hpublished : inv (published host pid name sha256 fs)) :
    (machine host).Safe inv (fun _ s => s = published host pid name sha256 fs) (fun _ _ => False)
      (publishTransaction host pid name sha256) fs := by
  unfold publishTransaction
  simp only [createNew, writeAll, Program.orFail, Program.bind_eq, Program.call_bind,
    Program.done_bind, safe_create_new, FileSystem.createNew, hstaging]
  refine ⟨hinv, safe_write_all (FileSystem.set_same ..) (by simpa using hset) ?_⟩
  have hstaged : (fs.set (.transactionStaging name pid) (some (journal host sha256))).lookup
      (.at (.transactionStaging name pid)) = some (journal host sha256) := FileSystem.set_same ..
  have hmove := FileSystem.rename_free _ (.at (.transactionStaging name pid)) (.transaction name)
    hstaged (by simpa using htransaction)
  rw [FileSystem.detach, FileSystem.set_set] at hmove
  rw [FileSystem.set_set]
  exact safe_rename_last hmove (hset _) hpublished rfl

/-- A refused creation of the staging file. -/
theorem publish_transaction_blocked {pid : Nat}
    (hstaging : fs (.transactionStaging name pid) ≠ none) (hinv : inv fs) :
    (machine host).Safe inv (fun _ _ => False) (fun _ s => s = fs)
      (publishTransaction host pid name sha256) fs := by
  obtain ⟨node, hnode⟩ := Option.ne_none_iff_exists'.mp hstaging
  simp [publishTransaction, createNew, Program.orFail, FileSystem.createNew, hnode, hinv]

/-- Writing the journal of a swap that has none yet. -/
theorem write_update_transaction_safe {pid : Nat} (htransaction : fs (.transaction name) = none)
    (hinv : inv fs)
    (hset : ∀ node, (Stageable (fs (.transactionStaging name pid)) → Stageable node) →
      inv (fs.set (.transactionStaging name pid) node))
    (hpublished : inv (published host pid name sha256 fs)) :
    (machine host).Safe inv (fun _ s => s = published host pid name sha256 fs)
      (fun _ _ => ¬ Stageable (fs (.transactionStaging name pid)))
      (writeUpdateTransaction host pid name sha256) fs := by
  have hcleared := hset none fun _ => .inl rfl
  -- everything after the staging file of an earlier run has been removed
  have hwrite : (machine host).Safe inv (fun _ s => s = published host pid name sha256 fs)
      (fun _ _ => ¬ Stageable (fs (.transactionStaging name pid)))
      ((publishTransaction host pid name sha256).attempt.bind fun result =>
        (removeFile (.transactionStaging name pid)).bind fun _ => check result)
      (fs.set (.transactionStaging name pid) none) := by
    refine (publish_transaction_safe (FileSystem.set_same ..) (by simpa using htransaction) hcleared
      (fun bytes => ?_) ?_).attempt.bind ?_
    · simpa using hset (some (.file bytes)) fun _ => .inr ⟨bytes, rfl⟩
    · simpa [published] using hpublished
    · rintro result s hinvs hs
      cases result with
      | error error => exact hs.elim
      | ok =>
        obtain rfl : s = published host pid name sha256 fs := by simpa [published] using hs
        have hgone : published host pid name sha256 fs (.transactionStaging name pid) = none := by
          simp [published]
        simp [removeFile, FileSystem.removeFile, hgone, check, Program.ofExcept, hinvs]
  unfold writeUpdateTransaction
  simp only [Program.bind_eq]
  cases hnode : fs (.transactionStaging name pid) with
  | none =>
      have hself : fs.set (.transactionStaging name pid) none = fs := by
        rw [← hnode, FileSystem.set_self]
      rw [hself, hnode] at hwrite
      simpa [lookup, FileSystem.lookup, hnode, Node.present, hinv] using hwrite
  | some node =>
      rw [hnode] at hwrite
      cases node with
      | file bytes =>
          simpa [lookup, removeFile, Program.orFail, FileSystem.lookup, FileSystem.removeFile,
            hnode, Node.present, hinv] using hwrite
      | special =>
          simpa [lookup, removeFile, Program.orFail, FileSystem.lookup, FileSystem.removeFile,
            hnode, Node.present, hinv] using hwrite
      | directory entries =>
          simp [lookup, removeFile, Program.orFail, FileSystem.lookup, FileSystem.removeFile,
            hnode, Node.present, hinv, Stageable]
      | symlink target =>
          cases target with
          | some target =>
              simpa [lookup, removeFile, Program.orFail, FileSystem.lookup, FileSystem.removeFile,
                hnode, Node.present, hinv] using hwrite
          | none =>
              simp only [lookup, FileSystem.lookup, hnode, Node.present, Program.call_bind,
                Program.done_bind, safe_lookup, Option.isSome_none, Bool.false_eq_true, ite_false]
              refine ⟨hinv, (publish_transaction_blocked (by simp [hnode]) hinv).attempt.bind ?_⟩
              rintro result s hinvs hs
              cases result with
              | ok => exact hs.elim
              | error error =>
                  obtain rfl : s = fs := hs
                  simp [removeFile, FileSystem.removeFile, hnode, check, Program.ofExcept, hinv,
                    hcleared, Stageable]

/-! ## The swap -/

/-- Putting the backup back into a free bundle slot ends the run with an error, and the swap has
not begun again. -/
theorem roll_back_vacated {succeeded : String} {failed : IoError → String}
    {ok : Unit → FileSystem → Prop} {err : String → FileSystem → Prop}
    (h : AtStage host name sha256 old new .vacated fs) (hinv : inv fs)
    (hrestored : inv (restored name old fs))
    (hdone : inv ((restored name old fs).set (.transaction name) none))
    (herr : ∀ error s, err error s) :
    (machine host).Safe inv ok err (rollBack name succeeded failed) fs := by
  obtain ⟨htransaction, -, -⟩ := h.restored
  have hmove := fs.rename_free (.at (.previous name)) (.bundle name) h.2.2 h.2.1
  have hremove : (restored name old fs).removeFile (.transaction name) =
      (.ok (), (restored name old fs).set (.transaction name) none) := by
    simp [FileSystem.removeFile, htransaction, journal]
  rw [FileSystem.detach] at hmove
  change fs.rename _ _ = (.ok (), restored name old fs) at hmove
  simp [rollBack, rename, removeFile, bail, hmove, hremove, hinv, hrestored, hdone, herr]

/-- Putting the backup back when the refused bundle could not be moved aside. -/
theorem roll_back_installed {succeeded : String} {failed : IoError → String}
    {ok : Unit → FileSystem → Prop} {err : String → FileSystem → Prop}
    (h : AtStage host name sha256 old new .installed fs) (hinv : inv fs)
    (hrestored : inv (restored name old fs))
    (hdone : inv ((restored name old fs).set (.transaction name) none))
    (herr : ∀ error s, err error s) :
    (machine host).Safe inv ok err (rollBack name succeeded failed) fs := by
  rcases fs.rename_cases (.at (.previous name)) (.bundle name) h.2.2 with ⟨error, hmove⟩ | hmove
  · simp [rollBack, rename, bail, hmove, hinv, herr]
  · have htransaction : restored name old fs (.transaction name) = some (journal host sha256) := by
      simpa [restored] using h.1
    have hremove : (restored name old fs).removeFile (.transaction name) =
        (.ok (), (restored name old fs).set (.transaction name) none) := by
      simp [FileSystem.removeFile, htransaction, journal]
    change fs.rename _ _ = (.ok (), restored name old fs) at hmove
    simp [rollBack, rename, removeFile, bail, hmove, hremove, hinv, hrestored, hdone, herr]

/-- The file system once the replacement has been moved from the stage to the bundle slot. -/
def installed (name stage : OsString) (new : Node) (fs : FileSystem) : FileSystem :=
  (fs.set (.expanded stage) (some (.directory []))).set (.bundle name) (some new)

/-- A vacated bundle slot takes the replacement. -/
theorem AtStage.installed (h : AtStage host name sha256 old new .vacated fs) (stage : OsString) :
    AtStage host name sha256 old new .installed (installed name stage new fs) := by
  refine ⟨?_, FileSystem.set_same .., ?_⟩
  · simpa [Updater.installed] using h.1
  · simpa [Updater.installed] using h.2.2

theorem Own.installed (h : Own name stage start fs) (new : Node) :
    Own name stage start (installed name stage new fs) :=
  (h.set (.expanded stage) rfl (fun _ => .inr ⟨[], rfl⟩) (fun heq => nomatch heq)).set
    (.bundle name) rfl (fun _ => trivial) (fun heq => nomatch heq)

/-- The move of the replacement goes through, because the bundle slot is free. -/
theorem rename_replacement (h : AtStage host name sha256 old new .vacated fs)
    (hexpanded : fs (.expanded stage) = some (.directory [(root, new)])) :
    fs.rename (.entry (.expanded stage) root) (.bundle name) =
      (.ok (), installed name stage new fs) := by
  have hsource : fs.lookup (.entry (.expanded stage) root) = some new := by
    simp [FileSystem.lookup, hexpanded, Node.entry]
  rw [fs.rename_free _ _ hsource h.2.1]
  simp [FileSystem.detach, hexpanded, installed]

/-- Moving the replacement in: it ends with the new bundle in place and accepted. If the bundle is
refused there, it is put aside and the old one comes back, or, where it cannot be put aside, the
old one comes back only over an empty directory. -/
theorem install_replacement_rule (h : AtStage host name sha256 old new .vacated fs)
    (hexpanded : fs (.expanded stage) = some (.directory [(root, new)])) (hinv : inv fs)
    (hinstalled : inv (installed name stage new fs))
    (haside : ¬ Accepted host (.at (.bundle name)) new →
      inv (quarantined name new (installed name stage new fs)) ∧
      inv (restored name old (quarantined name new (installed name stage new fs))) ∧
      inv ((restored name old (quarantined name new (installed name stage new fs))).set
        (.transaction name) none))
    (hkept : ∀ error, ¬ Accepted host (.at (.bundle name)) new →
      ((installed name stage new fs).rename (.at (.bundle name)) (.failed name)).1 = .error error →
      inv (restored name old (installed name stage new fs)) ∧
      inv ((restored name old (installed name stage new fs)).set (.transaction name) none)) :
    (machine host).Safe inv
      (fun _ s => Accepted host (.at (.bundle name)) new ∧ s = installed name stage new fs)
      (fun _ _ => ¬ Accepted host (.at (.bundle name)) new)
      (installReplacement host name (.entry (.expanded stage) root)) fs := by
  have hat := h.installed stage
  unfold installReplacement
  simp only [rename, verifyAt, lookup, Program.bind_eq, Program.call_bind, Program.done_bind,
    Program.pure_eq, safe_rename, safe_lookup, rename_replacement h hexpanded]
  refine ⟨hinv, hinstalled, ?_⟩
  have hlookup : (installed name stage new fs).lookup (.at (.bundle name)) = some new := hat.2.1
  rw [hlookup]
  cases hverify : verifyReplacement host ((Path.at (.bundle name)).fileName host)
      ((Path.at (.bundle name)).display host) (some new) with
  | ok => exact ⟨hinstalled, hverify, rfl⟩
  | error error =>
      have hrefused : ¬ Accepted host (.at (.bundle name)) new := by
        intro haccepted
        rw [Accepted, hverify] at haccepted
        cases haccepted
      simp only [safe_rename]
      refine ⟨hinstalled, ?_⟩
      rcases (installed name stage new fs).rename_cases (.at (.bundle name)) (.failed name)
        hlookup with ⟨reason, hmove⟩ | hmove
      · obtain ⟨hback, hdone⟩ := hkept reason hrefused (by rw [hmove])
        rw [hmove]
        exact roll_back_installed hat hinstalled hback hdone fun _ _ => hrefused
      · obtain ⟨hmoved, hback, hdone⟩ := haside hrefused
        change _ = (_, quarantined name new (installed name stage new fs)) at hmove
        rw [hmove]
        exact roll_back_vacated hat.quarantined hmoved hback hdone fun _ _ => hrefused

/-- The same in the terms of the swap: every state on the way is at one of its stages. -/
theorem install_replacement_safe (hnew : new.isDirectory = true)
    (h : AtStage host name sha256 old new .vacated fs) (hown : Own name stage start fs)
    (hexpanded : fs (.expanded stage) = some (.directory [(root, new)])) :
    (machine host).Safe (InSwap host name stage sha256 old new start)
      (fun _ s => Accepted host (.at (.bundle name)) new ∧ s = installed name stage new fs)
      (fun _ _ => ¬ Accepted host (.at (.bundle name)) new)
      (installReplacement host name (.entry (.expanded stage) root)) fs := by
  have hat := h.installed stage
  have hatOwn := hown.installed new
  have haside := hat.quarantined
  have hasideOwn := hatOwn.quarantined hnew
  refine install_replacement_rule h hexpanded (h.in_swap hown) (hat.in_swap hatOwn)
    (fun _ => ⟨haside.in_swap hasideOwn, ?_, ?_⟩) (fun _ _ _ => ⟨?_, ?_⟩)
  · exact haside.restored.in_swap hasideOwn.restored
  · exact haside.restored.settled.in_swap hasideOwn.restored.unjournaled
  · exact hat.reverted.in_swap hatOwn.restored
  · exact hat.reverted.settled.in_swap hatOwn.restored.unjournaled

/-! ## Whole runs -/

/-- Removing the archive at the end of a run, unless it is a directory. -/
theorem remove_archive_safe {message : IoError → String} (hinv : inv fs)
    (hgone : inv (fs.set (.archive stage) none)) :
    (machine host).Safe inv (fun _ s => s = fs ∨ s = fs.set (.archive stage) none)
      (fun _ _ => ∃ entries, fs (.archive stage) = some (.directory entries))
      (do
        if Node.present (← lookup (.at (.archive stage))) then
          (removeFile (.archive stage)).orFail message
        else pure ()) fs := by
  cases hnode : fs (.archive stage) with
  | none => simp [lookup, FileSystem.lookup, hnode, Node.present, hinv]
  | some node =>
      cases node with
      | file _ | special | directory _ =>
          simp [lookup, removeFile, Program.orFail, FileSystem.lookup, FileSystem.removeFile, hnode,
            Node.present, hinv, hgone]
      | symlink target =>
          cases target <;>
            simp [lookup, removeFile, Program.orFail, FileSystem.lookup, FileSystem.removeFile,
              hnode, Node.present, hinv, hgone]

/-- Cleaning the stage up touches the extraction directory and the archive. -/
theorem cleanup_update_stage_rule (hinv : inv fs)
    (hset : ∀ node, (Clearable (fs (.expanded stage)) → Clearable node) →
      inv (fs.set (.expanded stage) node) ∧
        inv ((fs.set (.expanded stage) node).set (.archive stage) none)) :
    (machine host).Safe inv (fun _ _ => True)
      (fun _ _ => ¬ (Clearable (fs (.expanded stage)) ∧
        ∀ entries, fs (.archive stage) ≠ some (.directory entries)))
      (cleanupUpdateStage stage) fs := by
  refine (clear_slot_safe (.expanded stage) _ hinv fun node hnode =>
    (hset node fun _ => hnode).1).seq (fun _ _ hs hok => hs hok.1) ?_
  rintro _ s ⟨node, -, hgone, rfl⟩
  obtain ⟨hcleared, hremoved⟩ := hset node fun hclear => .inl (hgone.mp hclear)
  refine (remove_archive_safe hcleared hremoved).mono (fun _ => id) (fun _ _ _ _ => trivial) ?_
  rintro _ s - ⟨entries, hentries⟩ ⟨-, hfile⟩
  exact hfile entries (by simpa using hentries)

/-- Cleaning the stage up after a commit keeps it a commit. -/
theorem cleanup_update_stage_safe (h : AtStage host name sha256 old new .committed fs)
    (hown : Own name stage start fs) :
    (machine host).Safe
      (fun s => AtStage host name sha256 old new .committed s ∧ Own name stage start s)
      (fun _ _ => True)
      (fun _ _ => ¬ (Clearable (fs (.expanded stage)) ∧
        ∀ entries, fs (.archive stage) ≠ some (.directory entries)))
      (cleanupUpdateStage stage) fs := by
  refine cleanup_update_stage_rule ⟨h, hown⟩ fun node hnode => ?_
  have hcleared := h.set (.expanded stage) node (by simp) (by simp) (by simp)
  have hclearedOwn : Own name stage start (fs.set (.expanded stage) node) :=
    hown.set _ rfl (fun ht => hnode (hown.tidy ht (.expanded stage) rfl)) (fun heq => nomatch heq)
  exact ⟨⟨hcleared, hclearedOwn⟩, hcleared.set (.archive stage) none (by simp) (by simp) (by simp),
    hclearedOwn.set (.archive stage) rfl (fun _ => trivial) fun _ => rfl⟩

/-- What a swap asks of the slots it reuses and of the replacement. -/
structure Swappable (host : Host) (pid : Nat) (name stage root : OsString) (new : Node)
    (fs : FileSystem) : Prop where
  expanded : Clearable (fs (.expanded stage))
  previous : Clearable (fs (.previous name))
  failed : Clearable (fs (.failed name))
  staging : Stageable (fs (.transactionStaging name pid))
  unpacked : Accepted host (.entry (.expanded stage) root) new
  installed : Accepted host (.at (.bundle name)) new

/-- The file system once the bundle has been moved to the backup slot. -/
def vacated (name : OsString) (old : Node) (fs : FileSystem) : FileSystem :=
  (fs.set (.bundle name) none).set (.previous name) (some old)

/-- A journaled swap whose bundle has moved. -/
theorem AtStage.vacated (h : AtStage host name sha256 old new .journaled fs) :
    AtStage host name sha256 old new .vacated (vacated name old fs) := by
  refine ⟨?_, ?_, FileSystem.set_same ..⟩
  · simpa [Updater.vacated] using h.1
  · simp [Updater.vacated]

theorem Own.vacated (h : Own name stage start fs) (hold : old.isDirectory = true) :
    Own name stage start (vacated name old fs) :=
  (h.set (.bundle name) rfl (fun _ => trivial) (fun heq => nomatch heq)).set
    (.previous name) rfl (fun _ => .of_directory hold) (fun heq => nomatch heq)

/-- The second half of the swap, from the published journal on. -/
theorem swap_published_safe {message message' : IoError → String} (hold : old.isDirectory = true)
    (hnew : new.isDirectory = true) (h : AtStage host name sha256 old new .journaled fs)
    (hown : Own name stage start fs)
    (hexpanded : fs (.expanded stage) = some (.directory [(root, new)])) :
    (machine host).Safe (InSwap host name stage sha256 old new start)
      (fun _ s => AtStage host name sha256 old new .committed s ∧ Own name stage start s ∧
        Clearable (s (.expanded stage)) ∧ s (.archive stage) = fs (.archive stage))
      (fun _ _ => ¬ (fs (.previous name) = none ∧ Accepted host (.at (.bundle name)) new))
      (((rename (.at (.bundle name)) (.previous name)).orFail message).bind fun _ =>
        (installReplacement host name (.entry (.expanded stage) root)).bind fun _ =>
          (removeFile (.transaction name)).orFail message') fs := by
  have hinv := h.in_swap hown
  by_cases hfree : fs (.previous name) = none
  · have hmove := fs.rename_free (.at (.bundle name)) (.previous name) h.2.1 hfree
    have hvacated := h.vacated
    have hvacatedOwn := hown.vacated hold
    change _ = (_, vacated name old fs) at hmove
    refine safe_rename_ok hmove hinv ?_
    refine (install_replacement_safe hnew hvacated hvacatedOwn
      (by simpa [vacated] using hexpanded)).seq (fun _ _ hs hok => hs hok.2) ?_
    rintro _ s ⟨haccepted, rfl⟩
    have hinstalled := hvacated.installed stage
    have hinstalledOwn := hvacatedOwn.installed new
    have hcommitted := hinstalled.committed haccepted
    refine safe_remove_file_last hinstalled.1 (hinstalled.in_swap hinstalledOwn)
      (hcommitted.in_swap hinstalledOwn.unjournaled)
      ⟨hcommitted, hinstalledOwn.unjournaled, ?_, ?_⟩
    · exact .inr ⟨[], by simp [installed]⟩
    · simp [installed, vacated]
  · obtain ⟨entries, rfl⟩ := is_directory_iff.mp hold
    have hblocked := fs.rename_onto_dangling (.at (.bundle name)) (.previous name) h.2.1 h.2.2 hfree
    exact safe_rename_refused hblocked hinv fun hok => hfree hok.1

/-- A settled bundle whose backup slot is free, once the journal has been published. -/
theorem AtStage.published (h : AtStage host name sha256 old new .settled fs) (pid : Nat)
    (hprevious : Node.present (fs (.previous name)) = false) :
    AtStage host name sha256 old new .journaled (published host pid name sha256 fs) := by
  refine ⟨FileSystem.set_same .., ?_, ?_⟩
  · simpa [Updater.published] using h.2
  · simpa [Updater.published] using hprevious

theorem Own.published (h : Own name stage start fs) (host : Host) (pid : Nat) (sha256 : String) :
    Own name stage start (published host pid name sha256 fs) :=
  (h.set (.transactionStaging name pid) rfl (fun _ => .inl rfl) (fun heq => nomatch heq)).set
    (.transaction name) rfl (fun _ => trivial) (fun heq => nomatch heq)

/-- A swap from a settled bundle: it ends committed. -/
theorem swap_safe {pid : Nat} {options : ApplyOptions} (hold : old.isDirectory = true)
    (hnew : new.isDirectory = true)
    (h : AtStage host options.bundle options.sha256 old new .settled fs)
    (hown : Own options.bundle options.archive start fs)
    (hunpacks : Unpacks host options.archive root new fs) :
    (machine host).Safe (InSwap host options.bundle options.archive options.sha256 old new start)
      (fun _ s => AtStage host options.bundle options.sha256 old new .committed s ∧
        Own options.bundle options.archive start s ∧ Clearable (s (.expanded options.archive)) ∧
        s (.archive options.archive) = fs (.archive options.archive))
      (fun _ _ => ¬ Swappable host pid options.bundle options.archive root new fs)
      (swap host pid options) fs := by
  have hdone (s : FileSystem) (hs : AtStage host options.bundle options.sha256 old new .settled s)
      (location : Location) (node : Option Node) (htransaction : location ≠ .transaction _)
      (hbundle : location ≠ .bundle _) :
      AtStage host options.bundle options.sha256 old new .settled (s.set location node) :=
    ⟨by rw [FileSystem.set_of_ne _ _ htransaction.symm, hs.1],
      by rw [FileSystem.set_of_ne _ _ hbundle.symm, hs.2]⟩
  unfold swap
  simp only [Program.bind_eq]
  -- the extraction
  refine (expand_replacement_safe (h.in_swap hown) hunpacks hnew fun node hnode => ?_).seq
    (fun _ _ hs hok => hs ⟨hok.expanded, hok.unpacked⟩) ?_
  · exact (hdone fs h _ _ (by simp) (by simp)).in_swap
      (hown.set (.expanded options.archive) rfl
        (fun ht => hnode (hown.tidy ht (.expanded options.archive) rfl)) (fun heq => nomatch heq))
  rintro _ s₁ ⟨rfl, -, rfl⟩
  have hunpacked : AtStage host options.bundle options.sha256 old new .settled
      (unpacked options.archive root new fs) := hdone fs h _ _ (by simp) (by simp)
  have hunpackedOwn : Own options.bundle options.archive start
      (unpacked options.archive root new fs) :=
    hown.set (.expanded options.archive) rfl (fun _ => .inr ⟨_, rfl⟩) (fun heq => nomatch heq)
  -- the backup of an earlier update
  refine (clear_slot_safe (.previous options.bundle) _ (hunpacked.in_swap hunpackedOwn)
    fun node hnode => ?_).seq (fun _ _ hs hok => hs (by simpa [unpacked] using hok.previous)) ?_
  · exact (hdone _ hunpacked _ _ (by simp) (by simp)).in_swap
      (hunpackedOwn.set (.previous options.bundle) rfl (fun _ => hnode) (fun heq => nomatch heq))
  rintro _ s₂ ⟨backup, habsent, hprevious, rfl⟩
  have hcleared := hdone _ hunpacked (.previous options.bundle) backup (by simp) (by simp)
  have hclearedOwn : Own options.bundle options.archive start
      ((unpacked options.archive root new fs).set (.previous options.bundle) backup) :=
    hunpackedOwn.set (.previous options.bundle) rfl
      (fun ht => .inl (hprevious.mp (hunpackedOwn.tidy ht (.previous options.bundle) rfl)))
      (fun heq => nomatch heq)
  -- the quarantine of an earlier update
  refine (clear_slot_safe (.failed options.bundle) _ (hcleared.in_swap hclearedOwn)
    fun node hnode => ?_).seq (fun _ _ hs hok => hs (by simpa [unpacked] using hok.failed)) ?_
  · exact (hdone _ hcleared _ _ (by simp) (by simp)).in_swap
      (hclearedOwn.set (.failed options.bundle) rfl (fun _ => hnode) (fun heq => nomatch heq))
  rintro _ s₃ ⟨quarantine, -, hfailed, rfl⟩
  have hfree := hdone _ hcleared (.failed options.bundle) quarantine (by simp) (by simp)
  have hfreeOwn := hclearedOwn.set (.failed options.bundle) rfl
    (fun ht => .inl (hfailed.mp (hclearedOwn.tidy ht (.failed options.bundle) rfl)))
    (fun heq => nomatch heq)
  -- the journal
  refine (write_update_transaction_safe hfree.1 (hfree.in_swap hfreeOwn) (fun node hnode => ?_)
    ?_).seq (fun _ _ hs hok => hs (by simpa [unpacked] using hok.staging)) ?_
  · exact (hdone _ hfree _ _ (by simp) (by simp)).in_swap
      (hfreeOwn.set (.transactionStaging options.bundle pid) rfl
        (fun ht => hnode (hfreeOwn.tidy ht (.transactionStaging options.bundle pid) rfl))
        (fun heq => nomatch heq))
  · exact (hfree.published pid (by simpa using habsent)).in_swap
      (hfreeOwn.published host pid options.sha256)
  rintro _ s₄ rfl
  refine (swap_published_safe hold hnew (hfree.published pid (by simpa using habsent))
    (hfreeOwn.published host pid options.sha256) ?_).mono (fun _ => id) ?_ ?_
  · simp [published, unpacked]
  · rintro _ s - ⟨hcommitted, hcommittedOwn, hexpanded, harchive⟩
    exact ⟨hcommitted, hcommittedOwn, hexpanded, by simpa [published, unpacked] using harchive⟩
  · rintro _ s - hs hok
    refine hs ⟨?_, hok.installed⟩
    have hclear : Clearable (unpacked options.archive root new fs (.previous options.bundle)) := by
      simpa [unpacked] using hok.previous
    simpa [published] using hprevious.mp hclear

/-- Under what conditions on its start an update gets through, however often it is interrupted:
its slots can be reused, the archive is the expected one, and verification accepts the replacement
where it is unpacked and both bundles wherever a run can come to verify them. -/
structure Recoverable (host : Host) (name stage root : OsString) (sha256 : String) (old new : Node)
    (start : FileSystem) : Prop where
  tidy : Tidy name stage start
  hashes : Hashes host stage sha256 start
  unpacked : Accepted host (.entry (.expanded stage) root) new
  installed : Accepted host (.at (.bundle name)) new
  resumed : Accepted host (.at (.bundle name)) old
  recovered : Accepted host (.at (.previous name)) old

/-- The bundle slot holds a directory or nothing at every stage. -/
theorem AtStage.clearable (h : AtStage host name sha256 old new swapStage fs)
    (hold : old.isDirectory = true) (hnew : new.isDirectory = true) :
    Clearable (fs (.bundle name)) := by
  cases swapStage with
  | settled => exact h.2 ▸ .of_directory hold
  | journaled => exact h.2.1 ▸ .of_directory hold
  | vacated => exact .inl h.2.1
  | installed | committed => exact h.2.1 ▸ .of_directory hnew

/-- The bundle slot of a swap passes for an update target. -/
theorem resolve_bundle_target_safe {err : String → FileSystem → Prop} (hinv : inv fs)
    (hbundle : Clearable (fs (.bundle name))) :
    (machine host).Safe inv (fun _ s => s = fs) err (resolveBundleTarget name) fs := by
  rcases hbundle with hnode | ⟨entries, hnode⟩ <;>
    simp [resolveBundleTarget, lookup, FileSystem.lookup, hnode, hinv]

/-- The checks at the start of a run, on an archive that is there: they change nothing. -/
theorem checks_safe {options : ApplyOptions} {next : Unit → Helper α} {ok : α → FileSystem → Prop}
    {err : String → FileSystem → Prop} (hinv : inv fs)
    (hbundle : Clearable (fs (.bundle options.bundle)))
    (hunpacks : Unpacks host options.archive root new fs)
    (herr : ¬ (Hashes host options.archive options.sha256 fs ∧ ParentExits host options.parentPid) →
      ∀ error s, err error s)
    (hnext : (machine host).Safe inv ok err (next ()) fs) :
    (machine host).Safe inv ok err
      ((resolveBundleTarget options.bundle).bind fun _ => (resolveArchive options.archive).bind fun _ =>
        (verifyArchiveHash host options.archive options.sha256).bind fun _ =>
          (waitForParent options.parentPid).bind next) fs := by
  obtain ⟨bytes, hread, -⟩ := hunpacks
  have harchive : (machine host).Safe inv (fun _ s => s = fs) err
      (resolveArchive options.archive) fs := by
    cases hnode : followed (fs (.archive options.archive)) with
    | none => simp [readFile, hnode] at hread
    | some node => simp [resolveArchive, lookup, FileSystem.lookup, hnode, hinv]
  have hhash : (machine host).Safe inv (fun _ s => s = fs)
      (fun _ _ => ¬ Hashes host options.archive options.sha256 fs)
      (verifyArchiveHash host options.archive options.sha256) fs := by
    have hdigest : Hashes host options.archive options.sha256 fs →
        host.sha256 bytes = options.sha256 := by
      rintro ⟨bytes', hread', hsha⟩
      obtain rfl : bytes = bytes' := by simpa [hread] using hread'
      exact hsha
    by_cases hsha : host.sha256 bytes = options.sha256
    · simp [verifyArchiveHash, lookup, FileSystem.lookup, hread, verifyFileHash, hsha, check,
        Program.ofExcept, hinv]
    · have hnot : ¬ Hashes host options.archive options.sha256 fs := fun h => hsha (hdigest h)
      simp [verifyArchiveHash, lookup, FileSystem.lookup, hread, verifyFileHash, hsha, check,
        Program.ofExcept, hinv, hnot]
  refine (resolve_bundle_target_safe hinv hbundle).bind ?_
  rintro _ s - rfl
  refine harchive.bind ?_
  rintro _ s - rfl
  refine hhash.seq (fun error s hs => herr (fun hok => hs hok.1) error s) ?_
  rintro _ s rfl
  refine (wait_for_parent_safe options.parentPid hinv).seq
    (fun error s hs => herr (fun hok => hs hok.2) error s) ?_
  rintro _ s rfl
  exact hnext

/-- A run from any stage before the commit: it only goes through stages of the swap, and if it
succeeds the swap is committed. -/
theorem install_safe (pid : Nat) {options : ApplyOptions}
    (hjournal : Journals host options.sha256) (hold : old.isDirectory = true)
    (hnew : new.isDirectory = true)
    (h : AtStage host options.bundle options.sha256 old new swapStage fs)
    (hstage : swapStage ≠ .committed) (hown : Own options.bundle options.archive start fs)
    (hunpacks : Unpacks host options.archive root new start) :
    (machine host).Safe (InSwap host options.bundle options.archive options.sha256 old new start)
      (fun _ s => AtStage host options.bundle options.sha256 old new .committed s)
      (fun _ _ => ¬ (fs (.archive options.archive) ≠ none ∧ ParentExits host options.parentPid ∧
        Recoverable host options.bundle options.archive root options.sha256 old new start))
      (install host pid options) fs := by
  have hinv := h.in_swap hown
  have hbundle := h.clearable hold hnew
  unfold install
  simp only [Program.bind_eq]
  rcases hown.archive with hkept | hremoved
  · have hunpacked : Unpacks host options.archive root new fs := by
      rw [Unpacks, hkept]
      exact hunpacks
    refine checks_safe hinv hbundle hunpacked ?_ ?_
    · rintro hnot error s ⟨-, hparent, hrecover⟩
      refine hnot ⟨?_, hparent⟩
      rw [Hashes, hkept]
      exact hrecover.hashes
    refine (reconcile_safe hjournal hold hnew h hstage hown).seq ?_ ?_
    · rintro error s hs ⟨-, -, hrecover⟩
      have htidy := hown.tidy hrecover.tidy
      exact hs ⟨htidy (.previous options.bundle) rfl, htidy (.failed options.bundle) rfl,
        hrecover.resumed, hrecover.recovered⟩
    rintro outcome s ⟨hsown, hsarchive, ⟨rfl, hsettled⟩ | ⟨rfl, hcommitted⟩⟩
    · have hunpacked' : Unpacks host options.archive root new s := by
        rw [Unpacks, hsarchive]
        exact hunpacked
      refine (swap_safe hold hnew hsettled hsown hunpacked').seq ?_ ?_
      · rintro error s' hs ⟨-, -, hrecover⟩
        have htidy := hsown.tidy hrecover.tidy
        exact hs ⟨htidy (.expanded options.archive) rfl, htidy (.previous options.bundle) rfl,
          htidy (.failed options.bundle) rfl, htidy (.transactionStaging options.bundle pid) rfl,
          hrecover.unpacked, hrecover.installed⟩
      · rintro _ s' ⟨hcommitted, hsown', hexpanded, harchive⟩
        refine (cleanup_update_stage_safe hcommitted hsown').mono (fun _ hs => hs.1.in_swap hs.2)
          (fun _ _ hs _ => hs.1) ?_
        rintro _ _ - hs -
        refine hs ⟨hexpanded, ?_⟩
        rw [harchive]
        exact hunpacked'.not_directory
    · refine (cleanup_update_stage_safe hcommitted hsown).mono (fun _ hs => hs.1.in_swap hs.2)
        (fun _ _ hs _ => hs.1) ?_
      rintro _ _ - hs ⟨-, -, hrecover⟩
      refine hs ⟨hsown.tidy hrecover.tidy (.expanded options.archive) rfl, ?_⟩
      rw [hsarchive]
      exact hunpacked.not_directory
  · -- without its archive a run stops before it has changed anything
    refine (resolve_bundle_target_safe hinv hbundle).bind ?_
    rintro _ s - rfl
    simp [resolveArchive, lookup, FileSystem.lookup, hremoved, followed, bail, hinv]

/-- The relaunch does not touch the files. -/
theorem relaunch_safe (launcher : Option String) (hinv : inv fs) :
    (machine host).Safe inv (fun _ s => s = fs) (fun _ s => s = fs)
      (relaunch host name launcher) fs := by
  cases launcher with
  | none => exact ⟨hinv, rfl⟩
  | some launcher =>
      cases hpath : validateRelativePath host launcher "update relaunch path" with
      | error error => simp [relaunch, hpath, check, Program.ofExcept, hinv]
      | ok components =>
          cases hspawn : host.spawn ((Location.bundle name).display host ++ "/" ++ launcher) <;>
            simp [relaunch, hpath, check, Program.ofExcept, Program.orFail, hspawn, hinv]

/-- `install_safe` for the whole of `apply`. -/
theorem apply_safe (pid : Nat) {options : ApplyOptions}
    (hjournal : Journals host options.sha256) (hold : old.isDirectory = true)
    (hnew : new.isDirectory = true)
    (h : AtStage host options.bundle options.sha256 old new swapStage fs)
    (hstage : swapStage ≠ .committed) (hown : Own options.bundle options.archive start fs)
    (hunpacks : Unpacks host options.archive root new start) :
    (machine host).Safe (InSwap host options.bundle options.archive options.sha256 old new start)
      (fun _ s => AtStage host options.bundle options.sha256 old new .committed s)
      (fun _ _ => True) (apply host pid options) fs := by
  have hinstall := install_safe pid hjournal hold hnew h hstage hown hunpacks
  refine (hinstall.mono (fun _ => id) (fun _ _ _ => id) (fun _ _ _ _ => trivial)).bind ?_
  intro _ s hinv hcommitted
  refine (relaunch_safe options.launcher hinv).mono (fun _ => id) ?_ (fun _ _ _ _ => trivial)
  rintro _ s - rfl
  exact hcommitted

/-- The checks at the start of a run only read. -/
theorem resolve_bundle_target_reads (name : OsString) : Reads (resolveBundleTarget name) := by
  refine ⟨rfl, fun reply => ?_⟩
  simp only [Program.done_bind]
  split <;> trivial

theorem resolve_archive_reads (stage : OsString) : Reads (resolveArchive stage) := by
  refine ⟨rfl, fun reply => ?_⟩
  simp only [Program.done_bind]
  split <;> trivial

theorem verify_archive_hash_reads (host : Host) (stage : OsString) (sha256 : String) :
    Reads (verifyArchiveHash host stage sha256) := by
  refine ⟨rfl, fun reply => ?_⟩
  simp only [Program.done_bind]
  split
  · simp only [check, verifyFileHash]
    split <;> trivial
  · trivial
  · trivial

theorem poll_parent_reads (pid polls poll : Nat) : Reads (pollParent pid polls poll) := by
  induction polls generalizing poll with
  | zero => trivial
  | succ polls ih =>
      refine ⟨rfl, fun reply => ?_⟩
      match reply with
      | .ok false => trivial
      | .ok true => exact ih (poll + 1)
      | .error error => trivial

/-- A journal of another archive blocks a run before it has changed anything. -/
theorem apply_blocked (inv : FileSystem → Prop) (pid : Nat) {options : ApplyOptions} {node : Node}
    (h : fs (.transaction options.bundle) = some node)
    (hforeign : Foreign host options.sha256 node) (hinv : inv fs) :
    (machine host).Safe inv (fun _ _ => False) (fun _ _ => True) (apply host pid options) fs := by
  have hread {β : Type} {p : Helper β} (hp : Reads p) :
      (machine host).Safe inv (fun _ s => s = fs) (fun _ _ => True) p fs :=
    (hp.safe hinv).mono (fun _ => id) (fun _ _ _ => id) fun _ _ _ _ => trivial
  unfold apply install
  simp only [Program.bind_eq, Program.bind_assoc]
  refine (hread (resolve_bundle_target_reads _)).bind ?_
  rintro _ s - rfl
  refine (hread (resolve_archive_reads _)).bind ?_
  rintro _ s - rfl
  refine (hread (verify_archive_hash_reads ..)).bind ?_
  rintro _ s - rfl
  refine (hread (poll_parent_reads ..)).bind ?_
  rintro _ s - rfl
  unfold reconcileInterruptedUpdate
  simp only [Program.bind_eq, Program.bind_assoc]
  refine (read_update_transaction_foreign h hforeign hinv).bind ?_
  exact fun _ _ _ => False.elim

end PamDesktop.Updater
