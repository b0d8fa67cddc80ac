import PamDesktop.Foundations.Footprint
import PamDesktop.Updater.Installation

/-!
# The operations each part of a helper makes

Every operation touches the locations it names, and the machine is local in that sense. A helper
touches only the slots of its bundle and the contents of its stage; the extraction and the
clean-up touch only the stage. Of all its parts only `swap` itself makes the rename that vacates the
bundle slot: the other ones are `Quiet`, and there is one lemma about each of them.
-/

namespace PamDesktop.Updater

open Foundations Protocol

/-- The location that a path lies at or in. -/
def Path.location : Path → Location
  | .at location => location
  | .entry directory _ => directory

/-- The locations that an operation reads or changes. -/
def Call.Touches : Call → Location → Prop
  | .lookup path, location => location = path.location
  | .rename source target, location => location = source.location ∨ location = target
  | .createDir target, location | .removeDirAll target, location | .removeFile target, location
  | .createNew target, location | .writeAll target _, location => location = target
  | .extract archive target, location => location = archive ∨ location = target
  | .processExists _ _, _ | .spawn _, _ => False

variable {host : Host} {name stage : OsString} {sha256 : String} {part : Location → Prop}
  {fs fs' : FileSystem}

namespace FileSystem

/-- What a path holds is decided by its location. -/
theorem lookup_congr {path : Path} (h : fs path.location = fs' path.location) :
    fs.lookup path = fs'.lookup path := by
  cases path with
  | «at» location => exact h
  | entry directory name =>
      change (fs directory).bind _ = (fs' directory).bind _
      rw [show fs directory = fs' directory from h]

/-- Detaching a path changes only its location. -/
theorem detach_of_ne {path : Path} {location : Location} (h : location ≠ path.location) :
    fs.detach path location = fs location := by
  cases path with
  | «at» target => exact set_of_ne _ _ h
  | entry directory name =>
      have hne : location ≠ directory := h
      cases hnode : fs directory with
      | none => simp [detach, hnode]
      | some node => cases node <;> simp [detach, hnode, hne]

theorem detach_agree {path : Path} (hpath : part path.location) (h : AgreeOn part fs fs') :
    AgreeOn part (fs.detach path) (fs'.detach path) := by
  cases path with
  | «at» location => exact h.update location none
  | entry directory name =>
      have hsame : fs directory = fs' directory := h directory hpath
      simp only [detach, hsame]
      split
      · exact h.update directory _
      · exact h

theorem rename_agree {source : Path} {target : Location} (hsource : part source.location)
    (htarget : part target) (h : AgreeOn part fs fs') :
    (fs.rename source target).1 = (fs'.rename source target).1 ∧
      AgreeOn part (fs.rename source target).2 (fs'.rename source target).2 := by
  unfold rename
  rw [lookup_congr (h source.location hsource), h target htarget]
  split
  · exact ⟨rfl, h⟩
  · split
    · exact ⟨rfl, h⟩
    · exact ⟨rfl, (detach_agree hsource h).update target _⟩

theorem rename_of_ne {source : Path} {target location : Location}
    (hsource : location ≠ source.location) (htarget : location ≠ target) :
    (fs.rename source target).2 location = fs location := by
  unfold rename
  split
  · rfl
  · split
    · rfl
    · exact (set_of_ne _ _ htarget).trans (detach_of_ne hsource)

end FileSystem

/-- A completed operation answers from, and changes, only what it touches. -/
theorem perform_agree (call : Call) (hcall : ∀ location, call.Touches location → part location)
    (h : AgreeOn part fs fs') : (perform host call fs).1 = (perform host call fs').1 ∧
      AgreeOn part (perform host call fs).2 (perform host call fs').2 := by
  cases call with
  | lookup path => exact ⟨FileSystem.lookup_congr (h _ (hcall _ rfl)), h⟩
  | rename source target =>
      exact FileSystem.rename_agree (hcall _ (.inl rfl)) (hcall _ (.inr rfl)) h
  | processExists pid poll => exact ⟨rfl, h⟩
  | spawn program => exact ⟨rfl, h⟩
  | createDir location =>
      simp only [perform, FileSystem.createDir, h location (hcall location rfl)]
      split
      · exact ⟨rfl, h.update location _⟩
      · exact ⟨rfl, h⟩
  | removeDirAll location =>
      simp only [perform, FileSystem.removeDirAll, h location (hcall location rfl)]
      split
      · exact ⟨rfl, h⟩
      · exact ⟨rfl, h.update location _⟩
      · exact ⟨rfl, h.update location _⟩
      · exact ⟨rfl, h⟩
  | removeFile location =>
      simp only [perform, FileSystem.removeFile, h location (hcall location rfl)]
      split
      · exact ⟨rfl, h⟩
      · exact ⟨rfl, h⟩
      · exact ⟨rfl, h.update location _⟩
  | createNew location =>
      simp only [perform, FileSystem.createNew, h location (hcall location rfl)]
      split
      · exact ⟨rfl, h.update location _⟩
      · exact ⟨rfl, h⟩
  | writeAll location bytes =>
      simp only [perform, FileSystem.writeAll, h location (hcall location rfl)]
      split
      · exact ⟨rfl, h.update location _⟩
      · exact ⟨rfl, h⟩
  | extract archive target =>
      simp only [perform, FileSystem.extract, h archive (hcall archive (.inl rfl))]
      split
      · exact ⟨rfl, h⟩
      · split
        · exact ⟨rfl, h⟩
        · exact ⟨rfl, h.update target _⟩

/-- A completed operation changes nothing that it does not touch. -/
theorem perform_frame (call : Call) {location : Location} (h : ¬ call.Touches location) :
    (perform host call fs).2 location = fs location := by
  cases call with
  | lookup path => rfl
  | processExists pid poll => rfl
  | spawn program => rfl
  | rename source target =>
      exact FileSystem.rename_of_ne (fun heq => h (.inl heq)) fun heq => h (.inr heq)
  | createDir target =>
      simp only [perform, FileSystem.createDir]
      split
      · exact FileSystem.set_of_ne _ _ h
      · rfl
  | removeDirAll target =>
      simp only [perform, FileSystem.removeDirAll]
      split
      · rfl
      · exact FileSystem.set_of_ne _ _ h
      · exact FileSystem.set_of_ne _ _ h
      · rfl
  | removeFile target =>
      simp only [perform, FileSystem.removeFile]
      split
      · rfl
      · rfl
      · exact FileSystem.set_of_ne _ _ h
  | createNew target =>
      simp only [perform, FileSystem.createNew]
      split
      · exact FileSystem.set_of_ne _ _ h
      · rfl
  | writeAll target bytes =>
      simp only [perform, FileSystem.writeAll]
      split
      · exact FileSystem.set_of_ne _ _ h
      · rfl
  | extract archive target =>
      simp only [perform, FileSystem.extract]
      split
      · rfl
      · split
        · rfl
        · exact FileSystem.set_of_ne _ _ fun heq => h (.inr heq)

/-- The file operations depend on and change only the locations they touch. -/
theorem machine_local (host : Host) : (machine host).Local Call.Touches where
  reply _ call _ _ hcall h := (perform_agree call hcall h).1
  effect _ call _ _ hcall h := (perform_agree call hcall h).2
  frame call _ _ h := perform_frame call h
  partway_effect part call s s' t hcall h hmid := by
    cases hmid with
    | removeDirAll location _ node node' hnode hunlinked =>
        exact ⟨_, .removeDirAll location s' node node'
          ((h location (hcall location rfl)).symm.trans hnode) hunlinked, h.update location _⟩
    | extract archive target _ before after hbefore =>
        exact ⟨_, .extract archive target s' before after
          ((h target (hcall target (.inr rfl))).symm.trans hbefore), h.update target _⟩
    | writeAll location bytes written before _ hbefore hprefix =>
        exact ⟨_, .writeAll location bytes written before s'
          ((h location (hcall location rfl)).symm.trans hbefore) hprefix, h.update location _⟩
  partway_frame call s t location hmid h := by
    cases hmid with
    | removeDirAll target _ node node' _ _ => exact FileSystem.set_of_ne _ _ h
    | extract archive target _ before after _ =>
        exact FileSystem.set_of_ne _ _ fun heq => h (.inr heq)
    | writeAll target bytes written before _ _ _ => exact FileSystem.set_of_ne _ _ h

/-! ## Quiet parts -/

/-- The call that moves the bundle to its backup slot. -/
def moveAway (name : OsString) : Call := .rename (.at (.bundle name)) (.previous name)

/-- The locations beside the bundle called `name`. -/
def Location.Beside (name : OsString) : Location → Prop
  | .bundle n | .previous n | .failed n | .transaction n | .transactionStaging n _ => n = name
  | .archive _ | .expanded _ => False

/-- The locations inside the update stage called `stage`. -/
def Location.Inside (stage : OsString) : Location → Prop
  | .archive s | .expanded s => s = stage
  | .bundle _ | .previous _ | .failed _ | .transaction _ | .transactionStaging _ _ => False

/-- The program touches only a part of the locations, and does not move the bundle away. -/
abbrev Quiet {α : Type} (part : Location → Prop) (name : OsString) (p : Helper α) : Prop :=
  p.Uses fun call : Call =>
    (∀ location, call.Touches location → part location) ∧ call ≠ moveAway name

section Quiet

open Program

variable {α : Type} {part part' : Location → Prop} {location : Location} {label : String}

theorem Quiet.within {p : Helper α} (hp : Quiet part name p) : Within Call.Touches part p :=
  Program.Uses.mono hp fun _ h => h.1

theorem Quiet.avoids {p : Helper α} (hp : Quiet part name p) : p.Avoids (moveAway name) :=
  Program.Uses.mono hp fun _ h => h.2

theorem Quiet.mono {p : Helper α} (hp : Quiet part name p)
    (h : ∀ location, part location → part' location) : Quiet part' name p :=
  Program.Uses.mono hp fun _ hcall => ⟨fun location hl => h location (hcall.1 location hl), hcall.2⟩

theorem lookup_quiet {path : Path} (h : part path.location) : Quiet part name (lookup path) :=
  ⟨⟨fun _ heq => heq ▸ h, by simp [moveAway]⟩, fun _ => trivial⟩

theorem create_dir_quiet (h : part location) : Quiet part name (createDir location) :=
  ⟨⟨fun _ heq => heq ▸ h, by simp [moveAway]⟩, fun _ => trivial⟩

theorem remove_dir_all_quiet (h : part location) : Quiet part name (removeDirAll location) :=
  ⟨⟨fun _ heq => heq ▸ h, by simp [moveAway]⟩, fun _ => trivial⟩

theorem remove_file_quiet (h : part location) : Quiet part name (removeFile location) :=
  ⟨⟨fun _ heq => heq ▸ h, by simp [moveAway]⟩, fun _ => trivial⟩

theorem create_new_quiet (h : part location) : Quiet part name (createNew location) :=
  ⟨⟨fun _ heq => heq ▸ h, by simp [moveAway]⟩, fun _ => trivial⟩

theorem write_all_quiet {bytes : List UInt8} (h : part location) :
    Quiet part name (writeAll location bytes) :=
  ⟨⟨fun _ heq => heq ▸ h, by simp [moveAway]⟩, fun _ => trivial⟩

theorem rename_quiet {source : Path} (hsource : part source.location) (htarget : part location)
    (hother : (source, location) ≠ (.at (.bundle name), .previous name)) :
    Quiet part name (rename source location) := by
  refine ⟨⟨?_, by simpa [moveAway] using hother⟩, fun _ => trivial⟩
  rintro _ (rfl | rfl)
  · exact hsource
  · exact htarget

theorem extract_archive_quiet {archive : Location} (harchive : part archive)
    (htarget : part location) : Quiet part name (extractArchive archive location) := by
  refine Program.Uses.orFail ⟨⟨?_, by simp [moveAway]⟩, fun _ => trivial⟩
  rintro _ (rfl | rfl)
  · exact harchive
  · exact htarget

theorem verify_at_quiet {path : Path} (h : part path.location) :
    Quiet part name (verifyAt host path) :=
  Uses.bind (lookup_quiet h) fun _ => trivial

theorem require_verified_quiet {path : Path} {message : String} (h : part path.location) :
    Quiet part name (requireVerified host path message) := by
  refine Uses.bind (verify_at_quiet h) fun result => ?_
  cases result <;> trivial

theorem scoped_directory_exists_quiet (h : part location) :
    Quiet part name (scopedDirectoryExists location label) := by
  refine Uses.bind (lookup_quiet h) fun node => ?_
  split <;> trivial

theorem remove_scoped_directory_quiet (h : part location) :
    Quiet part name (removeScopedDirectory location label) := by
  refine Uses.bind (lookup_quiet h) fun node => ?_
  split
  · exact Uses.orFail (remove_dir_all_quiet h)
  · trivial
  · trivial

theorem clear_slot_quiet (h : part location) : Quiet part name (clearSlot location label) := by
  refine Uses.bind (lookup_quiet h) fun node => ?_
  split
  · exact remove_scoped_directory_quiet h
  · trivial

theorem read_update_transaction_quiet :
    Quiet (Location.Beside name) name (readUpdateTransaction host name sha256) := by
  refine Uses.bind (lookup_quiet rfl) fun node => ?_
  split
  · trivial
  · split
    · trivial
    · refine Uses.bind (lookup_quiet rfl) fun node => ?_
      split
      · trivial
      · split
        · trivial
        · split <;> trivial
  · trivial

/-- The recovery keeps to the slots of its bundle. -/
theorem reconcile_quiet :
    Quiet (Location.Beside name) name (reconcileInterruptedUpdate host name sha256) := by
  have hfinish (outcome : RecoveryOutcome) (message : IoError → String) :
      Quiet (Location.Beside name) name (((removeFile (.transaction name)).orFail message).bind
        fun _ => .done outcome) :=
    Uses.bind (Uses.orFail (remove_file_quiet rfl)) fun _ => trivial
  have hrestore (message message' : IoError → String) :
      Quiet (Location.Beside name) name
        (((rename (.at (.previous name)) (.bundle name)).orFail message).bind fun _ =>
          ((removeFile (.transaction name)).orFail message').bind fun _ =>
            .done RecoveryOutcome.ready) :=
    Uses.bind (Uses.orFail (rename_quiet rfl rfl (by simp))) fun _ => hfinish _ _
  refine Uses.bind read_update_transaction_quiet fun pending => ?_
  cases pending with
  | false =>
      refine Uses.bind (lookup_quiet rfl) fun node => ?_
      split <;> trivial
  | true =>
      refine Uses.bind (scoped_directory_exists_quiet rfl) fun bundle => ?_
      refine Uses.bind (scoped_directory_exists_quiet rfl) fun backup => ?_
      cases bundle <;> cases backup
      · trivial
      · exact Uses.bind (require_verified_quiet rfl) fun _ => hrestore _ _
      · exact Uses.bind (require_verified_quiet rfl) fun _ => hfinish _ _
      · refine Uses.bind (verify_at_quiet rfl) fun result => ?_
        cases result with
        | ok => exact hfinish _ _
        | error error =>
            exact Uses.bind (require_verified_quiet rfl) fun _ =>
              Uses.bind (clear_slot_quiet rfl) fun _ =>
                Uses.bind (Uses.orFail (rename_quiet rfl rfl (by simp))) fun _ => hrestore _ _

/-- The single root that is extracted lies in the stage. -/
theorem single_extracted_root_returns :
    (singleExtractedRoot stage).Returns fun path => path.location = .expanded stage := by
  intro reply
  simp only [Program.done_bind]
  split <;> trivial

/-- The extraction keeps to its stage. -/
theorem expand_replacement_quiet :
    Quiet (Location.Inside stage) name (expandReplacement host stage) := by
  have hrest : Quiet (Location.Inside stage) name
      (((createDir (.expanded stage)).orFail fun error =>
          "cannot create update extraction directory: " ++ error.text).bind fun _ =>
        (extractArchive (.archive stage) (.expanded stage)).bind fun _ =>
          (singleExtractedRoot stage).bind fun replacement =>
            (requireVerified host replacement "").bind fun _ => Program.done replacement) := by
    refine Uses.bind (Uses.orFail (create_dir_quiet rfl)) fun _ => ?_
    refine Uses.bind (extract_archive_quiet rfl rfl) fun _ => ?_
    refine Uses.bind_returned ?_ single_extracted_root_returns fun path hpath => ?_
    · refine Uses.bind (lookup_quiet rfl) fun node => ?_
      split <;> trivial
    · refine Uses.bind (require_verified_quiet ?_) fun _ => trivial
      rw [hpath]
      rfl
  refine Uses.bind (lookup_quiet rfl) fun node => ?_
  split
  · exact Uses.bind (Uses.orFail (remove_dir_all_quiet rfl)) fun _ => hrest
  · exact hrest

/-- So does the replacement that an extraction ends with. -/
theorem expand_replacement_returns :
    (expandReplacement host stage).Returns fun path => path.location = .expanded stage := by
  refine returns_bind fun node => ?_
  split
  · refine returns_bind fun _ => returns_bind fun _ => returns_bind fun _ => ?_
    exact Returns.bind single_extracted_root_returns fun _ hpath => returns_bind fun _ => hpath
  · refine returns_bind fun _ => returns_bind fun _ => ?_
    exact Returns.bind single_extracted_root_returns fun _ hpath => returns_bind fun _ => hpath

theorem write_update_transaction_quiet {pid : Nat} :
    Quiet (Location.Beside name) name (writeUpdateTransaction host pid name sha256) := by
  have hrest : Quiet (Location.Beside name) name
      ((publishTransaction host pid name sha256).attempt.bind fun result =>
        (removeFile (.transactionStaging name pid)).bind fun _ => check result) := by
    refine Uses.bind (Uses.attempt ?_) fun result =>
      Uses.bind (remove_file_quiet rfl) fun _ => uses_of_except result
    refine Uses.bind (Uses.orFail (create_new_quiet rfl)) fun _ => ?_
    refine Uses.bind (Uses.orFail (write_all_quiet rfl)) fun _ => ?_
    exact Uses.orFail (rename_quiet rfl rfl (by simp))
  refine Uses.bind (lookup_quiet rfl) fun node => ?_
  split
  · exact Uses.bind (Uses.orFail (remove_file_quiet rfl)) fun _ => hrest
  · exact hrest

theorem roll_back_quiet {succeeded : String} {failed : IoError → String} :
    Quiet (Location.Beside name) name (rollBack name succeeded failed) := by
  refine Uses.bind (rename_quiet rfl rfl (by simp)) fun result => ?_
  cases result with
  | ok => exact Uses.bind (remove_file_quiet rfl) fun _ => trivial
  | error error => trivial

theorem install_replacement_quiet {replacement : Path} (hslots : ∀ location : Location,
    location.Beside name → part location) (hreplacement : part replacement.location) :
    Quiet part name (installReplacement host name replacement) := by
  refine Uses.bind (rename_quiet hreplacement (hslots _ rfl) (by simp)) fun result => ?_
  cases result with
  | error error => exact roll_back_quiet.mono hslots
  | ok =>
      refine Uses.bind (verify_at_quiet (hslots _ rfl)) fun result => ?_
      cases result with
      | ok => trivial
      | error error =>
          exact Uses.bind (rename_quiet (hslots _ rfl) (hslots _ rfl) (by simp)) fun _ =>
            roll_back_quiet.mono hslots

/-- The clean-up keeps to its stage. -/
theorem cleanup_update_stage_quiet :
    Quiet (Location.Inside stage) name (cleanupUpdateStage stage) := by
  refine Uses.bind (clear_slot_quiet rfl) fun _ => ?_
  refine Uses.bind (lookup_quiet rfl) fun node => ?_
  split
  · exact Uses.orFail (remove_file_quiet rfl)
  · trivial

/-- The relaunch touches nothing. -/
theorem relaunch_quiet {bundle : OsString} {launcher : Option String} :
    Quiet part name (relaunch host bundle launcher) := by
  cases launcher with
  | none => trivial
  | some launcher =>
      refine Uses.bind (uses_of_except _) fun _ => Uses.orFail ?_
      exact ⟨⟨fun _ => False.elim, by simp [moveAway]⟩, fun _ => trivial⟩

end Quiet

end PamDesktop.Updater
