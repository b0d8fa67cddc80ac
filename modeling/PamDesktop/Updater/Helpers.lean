import PamDesktop.Foundations.Exclusion
import PamDesktop.Updater.CrashSafety
import PamDesktop.Updater.Footprint

/-!
# Helpers that run at the same time

Host processes of one application can each start a helper, with a stage of its own but for the
same bundle. Nothing keeps the helpers apart. `helpers_lose_bundle` is an interleaving of two of
them that removes both bundles; `helpers_keep_bundle` says that none does so when they enter the
recovery and the swap one at a time. Read `helper` first.
-/

namespace PamDesktop.Updater

open Foundations Protocol

/-- `apply` in three parts: the checks, the part that uses the slots of the bundle, and the
clean-up of the stage with the relaunch. -/
def helper (host : Host) (pid : Nat) (options : ApplyOptions) : Sectioned files String where
  entry := do
    resolveBundleTarget options.bundle
    resolveArchive options.archive
    verifyArchiveHash host options.archive options.sha256
    waitForParent options.parentPid
  critical := do
    match ← reconcileInterruptedUpdate host options.bundle options.sha256 with
    | .alreadyInstalled => pure ()
    | .ready => swap host pid options
  exit := do
    cleanupUpdateStage options.archive
    relaunch host options.bundle options.launcher

/-- The three parts are the whole of `apply`. -/
theorem helper_program (host : Host) (pid : Nat) (options : ApplyOptions) :
    (helper host pid options).program = apply host pid options := by
  simp only [Sectioned.program, helper, apply, install, Program.bind_eq, Program.bind_assoc]
  congr 1
  funext _
  congr 1
  funext _
  congr 1
  funext _
  congr 1
  funext _
  congr 1
  funext outcome
  cases outcome <;> simp [Program.bind_assoc]

variable {ι : Type} {host : Host} {name stage root : OsString} {sha256 : String} {old new : Node}
  {pid : Nat} {options : ApplyOptions} {start fs fs' : FileSystem}

/-- Helpers that run as a pool are interleaved runs of `apply`. -/
theorem helpers_interleave [DecidableEq ι] {pids : ι → Nat} {options : ι → ApplyOptions}
    {admits : Pool ι files String FileSystem → ι → Prop} {pool : Pool ι files String FileSystem}
    (hruns : Pool.Runs (machine host) (fun i => helper host (pids i) (options i)) admits
      (Pool.start (fun i => helper host (pids i) (options i)) start) pool) :
    ∃ rest, Relation.ReflTransGen (Interleaving (machine host))
      (fun i => apply host (pids i) (options i), start) (rest, pool.state) := by
  obtain ⟨rest, hinterleaved, -⟩ := hruns.interleaves
  simp only [helper_program] at hinterleaved
  exact ⟨rest, hinterleaved⟩

/-- Interleaved runs of `apply` are those of the pool that lets its helpers in at any time. -/
theorem helpers_of_interleaving [DecidableEq ι] {pids : ι → Nat} {options : ι → ApplyOptions}
    {rest : ι → Helper Unit} (hruns : Relation.ReflTransGen (Interleaving (machine host))
      (fun i => apply host (pids i) (options i), start) (rest, fs)) :
    ∃ pool, Pool.Runs (machine host) (fun i => helper host (pids i) (options i))
      (fun _ _ => True) (Pool.start (fun i => helper host (pids i) (options i)) start) pool ∧
        pool.state = fs := by
  simp only [← helper_program] at hruns
  obtain ⟨pool, hpool, hstate, -⟩ := Pool.runs_of_interleaving hruns
  exact ⟨pool, hpool, hstate⟩

/-! ## The parts of a helper -/

theorem observes_of_reads {call : Call} (h : call.reads = true) :
    (machine host).Observes call := by
  intro s
  cases call with
  | lookup path | processExists pid poll | spawn program =>
      refine ⟨rfl, fun s' hmid => ?_⟩
      cases hmid
  | rename _ _ | createDir _ | removeDirAll _ | removeFile _ | createNew _ | writeAll _ _
  | extract _ _ => cases h

theorem helper_entry_observes : (helper host pid options).entry.Uses (machine host).Observes := by
  refine Program.Uses.mono (Program.Uses.bind (resolve_bundle_target_reads _) fun _ => ?_)
    fun _ => observes_of_reads
  refine Program.Uses.bind (resolve_archive_reads _) fun _ => ?_
  exact Program.Uses.bind (verify_archive_hash_reads ..) fun _ => poll_parent_reads ..

/-- The swap keeps to the slots of its bundle and to its stage. -/
theorem swap_within : Within Call.Touches
    (fun location => location.Beside options.bundle ∨ location.Inside options.archive)
    (swap host pid options) := by
  have hquiet {α : Type} {p : Helper α}
      (hp : Quiet (fun location => location.Beside options.bundle ∨ location.Inside options.archive)
        options.bundle p) := hp.within
  refine Program.Uses.bind_returned (hquiet (expand_replacement_quiet.mono fun _ => .inr))
    expand_replacement_returns fun replacement hreplacement => ?_
  refine Program.Uses.bind (hquiet (clear_slot_quiet (.inl rfl))) fun _ => ?_
  refine Program.Uses.bind (hquiet (clear_slot_quiet (.inl rfl))) fun _ => ?_
  refine Program.Uses.bind (hquiet (write_update_transaction_quiet.mono fun _ => .inl)) fun _ => ?_
  refine Program.Uses.bind (Program.Uses.orFail ⟨?_, fun _ => trivial⟩) fun _ => ?_
  · rintro _ (rfl | rfl)
    · exact .inl rfl
    · exact .inl rfl
  have hlocation : replacement.location.Inside options.archive := by
    rw [hreplacement]
    rfl
  refine Program.Uses.bind (hquiet (install_replacement_quiet (fun _ => .inl) (.inr hlocation)))
    fun _ => ?_
  exact Program.Uses.orFail (hquiet (remove_file_quiet (.inl rfl)))

theorem helper_critical_within : Within Call.Touches
    (fun location => location.Beside options.bundle ∨ location.Inside options.archive)
    (helper host pid options).critical := by
  refine Program.Uses.bind (Within.mono reconcile_quiet.within fun _ => .inl) fun outcome => ?_
  cases outcome with
  | ready => exact swap_within
  | alreadyInstalled => trivial

theorem helper_exit_within : Within Call.Touches (Location.Inside options.archive)
    (helper host pid options).exit := by
  have hquiet : Quiet (Location.Inside options.archive) options.bundle
      (helper host pid options).exit :=
    Program.Uses.bind cleanup_update_stage_quiet fun _ => relaunch_quiet
  exact hquiet.within

/-! ## What the helpers share -/

/-- The slots of the bundle are those of a swap of some accepted bundle, at some stage. -/
def Kept (host : Host) (name : OsString) (sha256 : String) (fs : FileSystem) : Prop :=
  ∃ old new swapStage, AtStage host name sha256 old new swapStage fs ∧
    Accepted host (.at (.bundle name)) old ∧ old.isDirectory = true ∧ new.isDirectory = true

/-- The archive in a stage unpacks to one directory. -/
def Ready (host : Host) (stage : OsString) (fs : FileSystem) : Prop :=
  ∃ root new, Unpacks host stage root new fs ∧ new.isDirectory = true

theorem Kept.has_bundle (h : Kept host name sha256 fs) : HasBundle host name fs := by
  obtain ⟨old, new, swapStage, hat, haccepted, -, -⟩ := h
  exact hat.has_bundle haccepted

theorem kept_decided : DecidedBy (Location.Beside name) (Kept host name sha256) := by
  intro fs fs' hagree h
  obtain ⟨old, new, swapStage, hat, hrest⟩ := h
  refine ⟨old, new, swapStage, hat.congr ?_ ?_ ?_, hrest⟩
  · exact (hagree (.transaction name) rfl).symm
  · exact (hagree (.bundle name) rfl).symm
  · exact (hagree (.previous name) rfl).symm

theorem ready_decided : DecidedBy (Location.Inside stage) (Ready host stage) := by
  intro fs fs' hagree h
  obtain ⟨root, new, hunpacks, hnew⟩ := h
  refine ⟨root, new, ?_, hnew⟩
  rw [Unpacks, ← hagree (.archive stage) rfl]
  exact hunpacks

theorem InSwap.kept (h : InSwap host name stage sha256 old new start fs)
    (hold : Accepted host (.at (.bundle name)) old) (holdDirectory : old.isDirectory = true)
    (hnew : new.isDirectory = true) : Kept host name sha256 fs := by
  obtain ⟨⟨swapStage, hat⟩, -⟩ := h
  exact ⟨old, new, swapStage, hat, hold, holdDirectory, hnew⟩

/-- A swap from a settled bundle, whatever it is, keeps the slots. -/
theorem swap_keeps (hat : AtStage host options.bundle options.sha256 old new .settled fs)
    (hold : Accepted host (.at (.bundle options.bundle)) old) (holdDirectory : old.isDirectory = true)
    (hready : Ready host options.archive fs) :
    (machine host).Safe (Kept host options.bundle options.sha256) (fun _ _ => True)
      (fun _ _ => True) (swap host pid options) fs := by
  obtain ⟨root, replacement, hunpacks, hreplacement⟩ := hready
  have hsettled : AtStage host options.bundle options.sha256 old replacement .settled fs := hat
  exact (swap_safe holdDirectory hreplacement hsettled (Own.refl fs) hunpacks).mono
    (fun _ hs => hs.kept hold holdDirectory hreplacement) (fun _ _ _ _ => trivial)
    (fun _ _ _ _ => trivial)

/-- The critical part of a helper keeps the slots, whatever swap it finds them in. -/
theorem helper_keeps (hjournal : Journals host options.sha256)
    (hkept : Kept host options.bundle options.sha256 fs) (hready : Ready host options.archive fs) :
    (machine host).Safe (Kept host options.bundle options.sha256) (fun _ _ => True)
      (fun _ _ => True) (helper host pid options).critical fs := by
  obtain ⟨old, new, swapStage, hat, hold, holdDirectory, hnewDirectory⟩ := hkept
  -- a committed swap is a settled bundle of its own
  have hbefore : ∃ present other swapStage, swapStage ≠ .committed ∧
      AtStage host options.bundle options.sha256 present other swapStage fs ∧
      Accepted host (.at (.bundle options.bundle)) present ∧ present.isDirectory = true ∧
      other.isDirectory = true := by
    by_cases hcommitted : swapStage = .committed
    · subst hcommitted
      exact ⟨new, new, .settled, by simp, hat.settled_again, hat.2.2.2, hnewDirectory,
        hnewDirectory⟩
    · exact ⟨old, new, swapStage, hcommitted, hat, hold, holdDirectory, hnewDirectory⟩
  obtain ⟨present, other, swapStage, hstage, hat, hpresent, hdirectory, hother⟩ := hbefore
  have hown : Own options.bundle options.archive fs fs := Own.refl fs
  refine Machine.Safe.bind ((reconcile_safe hjournal hdirectory hother hat hstage hown).mono
    (fun _ hs => hs.kept hpresent hdirectory hother) (fun _ _ _ => id) fun _ _ _ _ => trivial) ?_
  intro outcome s hinv hs
  obtain ⟨-, harchive, ⟨rfl, hsettled⟩ | ⟨rfl, -⟩⟩ := hs
  · refine swap_keeps hsettled hpresent hdirectory ?_
    obtain ⟨root, replacement, hunpacks, hreplacement⟩ := hready
    refine ⟨root, replacement, ?_, hreplacement⟩
    rw [Unpacks, harchive]
    exact hunpacks
  · exact ⟨hinv, trivial⟩

/-- Helpers of one bundle and one digest with stages of their own take turns on the slots. -/
theorem helpers_take_turns {pids : ι → Nat} {options : ι → ApplyOptions}
    (hjournal : Journals host sha256) (hname : ∀ i, (options i).bundle = name)
    (hdigest : ∀ i, (options i).sha256 = sha256)
    (hstages : Function.Injective fun i => (options i).archive) :
    TakesTurns (machine host) Call.Touches (fun i => helper host (pids i) (options i))
      (Location.Beside name) (fun i => Location.Inside (options i).archive)
      (Kept host name sha256) (fun i => Ready host (options i).archive) where
  entry _ := helper_entry_observes
  critical i := by
    rw [← hname i]
    exact helper_critical_within
  exit _ := helper_exit_within
  apart i j hne location hown hother := by
    cases location with
    | archive s | expanded s => exact hne (hstages (hown.symm.trans hother))
    | _ => exact hown
  unshared i location hown hshared := by
    cases location with
    | archive s | expanded s => exact hshared
    | _ => exact hown
  inv_shared := kept_decided
  ready_own _ := ready_decided
  keeps i fs hkept hready := by
    rw [← hname i, ← hdigest i] at hkept ⊢
    exact helper_keeps (hdigest i ▸ hjournal) hkept hready

/-- Helpers that run at the same time, each killed at any point or not, never lose both bundles,
provided that each of them begins its recovery while no other is between the start of its recovery
and the end of its swap. -/
theorem helpers_keep_bundle [DecidableEq ι] [Nonempty ι] {pids : ι → Nat}
    {options : ι → ApplyOptions} {roots : ι → OsString} {news : ι → Node}
    {pool : Pool ι files String FileSystem} (hjournal : Journals host sha256)
    (hname : ∀ i, (options i).bundle = name) (hdigest : ∀ i, (options i).sha256 = sha256)
    (hstages : Function.Injective fun i => (options i).archive)
    (hstaged : ∀ i, Staged host name (options i).archive (roots i) sha256 old (news i) start)
    (hruns : Pool.Runs (machine host) (fun i => helper host (pids i) (options i)) Pool.Alone
      (Pool.start (fun i => helper host (pids i) (options i)) start) pool) :
    HasBundle host name pool.state := by
  have hturns : TakesTurns (machine host) Call.Touches (fun i => helper host (pids i) (options i))
      _ _ _ _ := helpers_take_turns hjournal hname hdigest hstages
  have hkept : Kept host name sha256 start := by
    obtain ⟨i⟩ := ‹Nonempty ι›
    have hi := hstaged i
    exact ⟨old, news i, .settled, ⟨hi.transaction, hi.bundle⟩, hi.bundleAccepted,
      hi.bundleDirectory, hi.newDirectory⟩
  have hready (i : ι) : Ready host (options i).archive start :=
    ⟨roots i, news i, (hstaged i).unpacks, (hstaged i).newDirectory⟩
  exact (hturns.invariant (machine_local host) hkept hready hruns).has_bundle

/-! ## Two helpers for Notes -/

/-- The stage of the second helper. -/
def notesSecondOptions : ApplyOptions := ⟨2, osString "notes", osString "second", notesDigest, none⟩

/-- The two helpers, started by the hosts 1 and 2. -/
def notesHelpers : Bool → ApplyOptions
  | false => notesOptions
  | true => notesSecondOptions

/-- Their process ids. -/
def notesPids : Bool → Nat
  | false => 7
  | true => 8

/-- Version 1.0.0 of `notes` with 1.0.1 in two stages. -/
def notesTwoStages : FileSystem :=
  (notesStart (osString "notes") (notesBundle "1.0.0") notesArchive).set
    (.archive (osString "second")) (some (.file notesArchive))

/-- The two helpers in their three parts. -/
def notesPrograms (second : Bool) : Sectioned files String :=
  helper (notesHost .linux) (notesPids second) (notesHelpers second)

/-- The first helper has made its checks. -/
def notesChecked : FileSystem :=
  ((machine (notesHost .linux)).run (notesPrograms false).entry notesTwoStages).2

/-- It goes on until the bundle is in the backup slot. -/
def notesVacated : Helper Unit × FileSystem :=
  (machine (notesHost .linux)).runSteps 15 ((notesPrograms false).critical, notesChecked)

/-- The second helper has unpacked its archive. -/
def notesUnpacked : Helper Unit × FileSystem :=
  (machine (notesHost .linux)).runSteps 11
    (apply (notesHost .linux) 8 notesSecondOptions, notesTwoStages)

/-- Then the first has moved the bundle to the backup slot. -/
def notesMoved : Helper Unit × FileSystem :=
  (machine (notesHost .linux)).runSteps 19
    (apply (notesHost .linux) 7 notesOptions, notesUnpacked.2)

/-- Then the second clears the backup slot. -/
def notesLost : Helper Unit × FileSystem :=
  (machine (notesHost .linux)).runSteps 3 (notesUnpacked.1, notesMoved.2)

/-- What the two helpers evaluate to, alone and interleaved. -/
theorem notes_helpers_evaluated :
    osString "stage" ≠ osString "second" ∧
    verifyReplacement (notesHost .linux)
        ((Path.entry (.expanded (osString "second")) (osString "notes")).fileName (notesHost .linux))
        ((Path.entry (.expanded (osString "second")) (osString "notes")).display (notesHost .linux))
        (some (notesBundle "1.0.1")) = .ok () ∧
    (((machine (notesHost .linux)).run (notesPrograms false).entry notesTwoStages).1 = .ok () ∧
      (notesVacated.2 (.bundle (osString "notes"))).isSome = false) ∧
    (notesLost.2 (.bundle (osString "notes"))).isSome = false ∧
      (notesLost.2 (.previous (osString "notes"))).isSome = false := by
  decide +kernel

theorem notes_stages_differ : Function.Injective fun second => (notesHelpers second).archive := by
  obtain ⟨hdiffer, -⟩ := notes_helpers_evaluated
  intro first second heq
  cases first <;> cases second
  · rfl
  · exact absurd heq hdiffer
  · exact absurd heq.symm hdiffer
  · rfl

theorem notes_both_staged (second : Bool) : Staged (notesHost .linux) (osString "notes")
    (notesHelpers second).archive (osString "notes") notesDigest (notesBundle "1.0.0")
    (notesBundle "1.0.1") notesTwoStages := by
  obtain ⟨hdiffer, haccepted, -⟩ := notes_helpers_evaluated
  have hfiles : readFile (notesTwoStages (.archive (notesHelpers second).archive)) =
      .ok notesArchive := by
    cases second with
    | true => simp [notesHelpers, notesSecondOptions, notesTwoStages, readFile, followed]
    | false =>
        simp [notesHelpers, notesOptions, notesTwoStages, notesStart, readFile, followed, hdiffer]
  refine ⟨by simp [notesTwoStages, notesStart], rfl, notes_staged.bundleAccepted,
    by simp [notesTwoStages, notesStart], ⟨_, hfiles, notes_evaluated.1.2.2⟩,
    ⟨_, hfiles, notes_extract⟩, rfl, ?_⟩
  cases second with
  | false => exact notes_staged.newAccepted
  | true => exact haccepted

/-- The first helper is killed while the bundle is in the backup slot, and the second has not begun
its recovery: the bundle is still there. -/
theorem notes_helpers_keep_bundle :
    notesVacated.2 (.bundle (osString "notes")) = none ∧
      HasBundle (notesHost .linux) (osString "notes") notesVacated.2 := by
  obtain ⟨-, -, ⟨hchecked, hnone⟩, -⟩ := notes_helpers_evaluated
  have hwait : (machine (notesHost .linux)).Reaches ((notesPrograms false).entry, notesTwoStages)
      (.done (), notesChecked) := by
    have hrun := Machine.reaches_run (M := machine (notesHost .linux))
      (notesPrograms false).entry notesTwoStages
    rw [hchecked] at hrun
    exact hrun
  have hwork : (machine (notesHost .linux)).Reaches ((notesPrograms false).critical, notesChecked)
      (notesVacated.1, notesVacated.2) := Machine.reaches_of_run_steps (by rw [notesVacated])
  have hruns : Pool.Runs (machine (notesHost .linux)) notesPrograms Pool.Alone
      (Pool.start notesPrograms notesTwoStages)
      ((Pool.start notesPrograms notesTwoStages).goto false (.inside notesVacated.1)
        notesVacated.2) :=
    Pool.runs_inside (fun _ _ _ heq => nomatch heq) rfl hwait hwork
  have hkept := helpers_keep_bundle notes_journals (fun second => by cases second <;> rfl)
    (fun second => by cases second <;> rfl) notes_stages_differ notes_both_staged
    (hruns.tail (.stop false))
  rw [Pool.goto_state, Pool.goto_state] at hkept
  exact ⟨by simpa using hnone, hkept⟩

/-- Two helpers that are both past their recovery lose the application: the second clears the backup
slot just after the first has moved the bundle there. -/
theorem helpers_lose_bundle : (Function.Injective fun second => (notesHelpers second).archive) ∧
    (∀ second, Staged (notesHost .linux) (osString "notes") (notesHelpers second).archive
      (osString "notes") notesDigest (notesBundle "1.0.0") (notesBundle "1.0.1") notesTwoStages) ∧
    ∃ rest fs, Relation.ReflTransGen (Interleaving (machine (notesHost .linux)))
        (fun second => apply (notesHost .linux) (notesPids second) (notesHelpers second),
          notesTwoStages) (rest, fs) ∧
      ¬ HasBundle (notesHost .linux) (osString "notes") fs := by
  refine ⟨notes_stages_differ, notes_both_staged, ?_, notesLost.2, ?_, ?_⟩
  · exact Function.update (Function.update (Function.update (fun second =>
      apply (notesHost .linux) (notesPids second) (notesHelpers second)) true notesUnpacked.1)
      false notesMoved.1) true notesLost.1
  · have hunpacked : (machine (notesHost .linux)).Reaches
        (apply (notesHost .linux) 8 notesSecondOptions, notesTwoStages)
        (notesUnpacked.1, notesUnpacked.2) := Machine.reaches_of_run_steps (by rw [notesUnpacked])
    have hmoved : (machine (notesHost .linux)).Reaches
        (apply (notesHost .linux) 7 notesOptions, notesUnpacked.2)
        (notesMoved.1, notesMoved.2) := Machine.reaches_of_run_steps (by rw [notesMoved])
    have hlost : (machine (notesHost .linux)).Reaches (notesUnpacked.1, notesMoved.2)
        (notesLost.1, notesLost.2) := Machine.reaches_of_run_steps (by rw [notesLost])
    refine (interleaving_of_reaches (i := true) hunpacked).trans ?_
    refine (interleaving_of_reaches (i := false) hmoved).trans ?_
    refine interleaving_of_reaches ?_
    rw [Function.update_of_ne (by decide), Function.update_self]
    exact hlost
  · obtain ⟨-, -, -, hbundle, hprevious⟩ := notes_helpers_evaluated
    intro h
    obtain ⟨node, -, hnode | hnode⟩ := h
    · rw [hnode] at hbundle
      cases hbundle
    · rw [hnode] at hprevious
      cases hprevious

end PamDesktop.Updater
