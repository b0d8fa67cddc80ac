import PamDesktop.Updater.Session

/-!
# Automatic updates, start after start

Under the automatic policy every start of the application checks the feed, and downloads and
installs what it selects. The helper is only told an archive and a digest, so what is installed is
the release that was selected as long as the archive carries it. Then an unchanged feed is installed
at most once.
-/

namespace PamDesktop.Updater

open Foundations Protocol

/-- `start_update_policy`, on the outcome of its check: the candidate it goes on to download and
install. -/
def startUpdatePolicy (config : Option UpdateConfig)
    (check : UpdateConfig → Except UpdateError (Option Candidate)) : Option Candidate :=
  match config with
  | none => none
  | some config =>
      if config.policy = .manual then none
      else
        match check config with
        | .ok (some candidate) => if config.policy = .automatic then some candidate else none
        | .ok none => none
        | .error _ => none

/-- The application that the manifest of a bundle declares. -/
def bundleApplication (host : Host) (name : OsString) (node : Node) : Option ApplicationManifest :=
  match readBundleManifest host (bundleRoot name (some node)) with
  | .ok manifest => some manifest.application
  | .error _ => none

/-- The bundle has the application identifier and the version that the release names. -/
def Carries (host : Host) (name : OsString) (release : UpdateRelease) (node : Node) : Prop :=
  ∃ application, bundleApplication host name node = some application ∧
    application.identifier = release.applicationId ∧ application.version = release.version

/-- The archive unpacks to one directory, a bundle that carries the release. -/
def ArchiveCarries (host : Host) (name : OsString) (release : UpdateRelease)
    (bytes : List UInt8) : Prop :=
  ∃ root new, host.extract bytes = .ok [(root, new)] ∧ new.isDirectory = true ∧
    Carries host name release new

/-- An application as it is published: its bundle's name, the feed it fetches, and the manifest
that the host gets from the worker when it is started from a bundle. -/
structure Publication where
  host : Host
  tools : FeedTools
  name : OsString
  feed : List UInt8
  bootstrap : Node → ApplicationManifest

/-- The packager writes the manifest of the application into the bundle. -/
def Packaged (publication : Publication) : Prop :=
  ∀ node application, bundleApplication publication.host publication.name node = some application →
    (publication.bootstrap node).version = application.version

/-- A start selects the candidate: the host runs from the bundle in its slot and fetches the
feed. -/
def Selects (publication : Publication) (fs : FileSystem) (candidate : Candidate) : Prop :=
  ∃ node, fs (.bundle publication.name) = some node ∧
    startUpdatePolicy (publication.bootstrap node).updates
      (fun config => checkInner publication.host.toBuild publication.tools
        (publication.bootstrap node).identifier (publication.bootstrap node).version config
        (.ok publication.feed)) = some candidate

/-- A start goes on to launch the helper: what it selected has been downloaded to the stage. -/
structure Launches (publication : Publication) (admitted : List UInt8 → Prop) (fs : FileSystem)
    (options : ApplyOptions) : Prop where
  bundle : options.bundle = publication.name
  selected : ∃ candidate response bytes, Selects publication fs candidate ∧
    downloadInner publication.host candidate response = .ok bytes ∧
    fs (.archive options.archive) = some (.file bytes) ∧ admitted bytes ∧
    options.sha256 = candidate.artifact.sha256

/-- Whether a location is inside an update stage. -/
def Location.inStage : Location → Prop
  | .archive _ | .expanded _ => True
  | _ => False

/-- Starts of the application one after another, with the number of installations that succeeded.
A start that installs nothing may leave stages behind, and the helper may be killed. -/
inductive Starts (publication : Publication) (admitted : List UInt8 → Prop) (start : FileSystem) :
    FileSystem → Nat → Prop where
  | none : Starts publication admitted start start 0
  | idle {fs fs' installs} : Starts publication admitted start fs installs →
      (∀ location : Location, ¬ location.inStage → fs' location = fs location) →
      Starts publication admitted start fs' installs
  | interrupted {fs fs' installs pid options} : Starts publication admitted start fs installs →
      Launches publication admitted fs options →
      (machine publication.host).Leaves (apply publication.host pid options) fs fs' →
      Starts publication admitted start fs' installs
  | installed {fs fs' installs pid options} : Starts publication admitted start fs installs →
      Launches publication admitted fs options →
      (machine publication.host).run (apply publication.host pid options) fs = (.ok (), fs') →
      Starts publication admitted start fs' (installs + 1)

/-- The artifact of a release for this build. -/
def IsSelected (build : Build) (release : UpdateRelease) (artifact : UpdateArtifact) : Prop :=
  ∃ platform, currentPlatform build.operatingSystem = some platform ∧
    selectArtifact build platform release = some artifact

theorem IsSelected.unique {build : Build} {release : UpdateRelease}
    {artifact artifact' : UpdateArtifact} (h : IsSelected build release artifact)
    (h' : IsSelected build release artifact') : artifact = artifact' := by
  obtain ⟨platform, hplatform, hselect⟩ := h
  obtain ⟨platform', hplatform', hselect'⟩ := h'
  obtain rfl := Option.some.inj (hplatform.symm.trans hplatform')
  exact Option.some.inj (hselect.symm.trans hselect')

theorem IsSelected.mem {build : Build} {release : UpdateRelease} {artifact : UpdateArtifact}
    (h : IsSelected build release artifact) : artifact ∈ release.artifacts := by
  obtain ⟨platform, -, hselect⟩ := h
  exact List.mem_of_find?_eq_some hselect

/-- The policy goes on with what the check selected. -/
theorem start_update_policy_some {config : Option UpdateConfig}
    {check : UpdateConfig → Except UpdateError (Option Candidate)} {candidate : Candidate}
    (h : startUpdatePolicy config check = some candidate) :
    ∃ config', check config' = .ok (some candidate) := by
  unfold startUpdatePolicy at h
  split at h
  · cases h
  · rename_i config
    split at h
    · cases h
    · split at h
      · rename_i selected hcheck
        split at h
        · obtain rfl := Option.some.inj h
          exact ⟨config, hcheck⟩
        · cases h
      · cases h
      · cases h

variable {publication : Publication} {signed : SignedUpdateRelease} {start fs fs' : FileSystem}
  {candidate : Candidate} {admitted : List UInt8 → Prop} {options : ApplyOptions}

/-- What a start selects is newer than the bundle it runs from, and it is the artifact of the feed
for this build. -/
theorem Selects.newer (h : Selects publication fs candidate)
    (hfeed : publication.tools.parseFeed publication.feed = .ok signed) :
    IsSelected publication.host.toBuild signed.release candidate.artifact ∧
      ∃ node, fs (.bundle publication.name) = some node ∧
        versionIsNewer signed.release.version (publication.bootstrap node).version = true := by
  obtain ⟨node, hnode, hpolicy⟩ := h
  obtain ⟨config, hcheck⟩ := start_update_policy_some hpolicy
  obtain ⟨bytes, feed, hbytes, hparse, -, -, -, hnewer, -, hselected⟩ := check_inner_selects hcheck
  obtain rfl := Except.ok.inj hbytes
  obtain rfl : signed = feed := Except.ok.inj (hfeed.symm.trans hparse)
  exact ⟨hselected, node, hnode, hnewer⟩

/-- A bundle that carries the release selects nothing. -/
theorem Selects.not_carried (h : Selects publication fs candidate)
    (hfeed : publication.tools.parseFeed publication.feed = .ok signed)
    (hpackaged : Packaged publication) {node : Node}
    (hnode : fs (.bundle publication.name) = some node) :
    ¬ Carries publication.host publication.name signed.release node := by
  rintro ⟨application, hdeclared, -, hversion⟩
  obtain ⟨-, node', hnode', hnewer⟩ := h.newer hfeed
  obtain rfl : node = node' := Option.some.inj (hnode.symm.trans hnode')
  rw [hpackaged node application hdeclared, hversion, version_not_newer_than_itself] at hnewer
  cases hnewer

/-- Before the first installation: a swap to the artifact of the feed is at some stage, and the
bundle it puts in the slot carries the release. -/
def Before (publication : Publication) (release : UpdateRelease) (fs : FileSystem) : Prop :=
  ∀ artifact, IsSelected publication.host.toBuild release artifact →
    ∃ present pending, ∃ swapStage ≠ .committed, present.isDirectory = true ∧
      (swapStage = .installed → Carries publication.host publication.name release pending) ∧
      AtStage publication.host publication.name artifact.sha256 present pending swapStage fs

/-- After it: the bundle in the slot carries the release. -/
def Installed (publication : Publication) (release : UpdateRelease) (fs : FileSystem) : Prop :=
  ∃ node, fs (.bundle publication.name) = some node ∧
    Carries publication.host publication.name release node

/-- A stage of the swap to a bundle that carries the release. -/
theorem before_of_stage {release : UpdateRelease} {artifact : UpdateArtifact} {present new : Node}
    {swapStage : SwapStage} (hselected : IsSelected publication.host.toBuild release artifact)
    (hpresent : present.isDirectory = true) (hnew : new.isDirectory = true)
    (hcarries : Carries publication.host publication.name release new)
    (h : AtStage publication.host publication.name artifact.sha256 present new swapStage fs) :
    Before publication release fs := by
  intro artifact' hselected'
  obtain rfl := hselected.unique hselected'
  by_cases hcommitted : swapStage = .committed
  · subst hcommitted
    exact ⟨new, new, .settled, by simp, hnew, fun _ => hcarries, h.settled_again⟩
  · exact ⟨present, new, swapStage, hcommitted, hpresent, fun _ => hcarries, h⟩

/-- A helper that a start launches swaps the bundle in the slot for one that carries the release. -/
theorem Launches.safe (h : Launches publication
      (ArchiveCarries publication.host publication.name signed.release) fs options)
    (hfeed : publication.tools.parseFeed publication.feed = .ok signed)
    (hpackaged : Packaged publication)
    (hjournal : ∀ artifact ∈ signed.release.artifacts, Journals publication.host artifact.sha256)
    (hbefore : Before publication signed.release fs) (pid : Nat) :
    (machine publication.host).Safe (Before publication signed.release)
      (fun _ s => Installed publication signed.release s) (fun _ _ => True)
      (apply publication.host pid options) fs := by
  obtain ⟨candidate, response, bytes, hselects, -, harchive, hadmitted, hdigest⟩ := h.selected
  obtain ⟨root, new, hextract, hnew, hcarries⟩ := hadmitted
  obtain ⟨hselected, node, hnode, -⟩ := hselects.newer hfeed
  obtain ⟨present, pending, swapStage, hstage, hpresent, hpending, hat⟩ :=
    hbefore candidate.artifact hselected
  have hname := h.bundle
  -- the application runs, so its bundle is in the slot, and it is not the release yet
  have hstart : AtStage publication.host publication.name candidate.artifact.sha256 present new
      swapStage fs := by
    cases swapStage with
    | settled => exact hat
    | journaled => exact hat
    | vacated =>
        rw [hat.2.1] at hnode
        cases hnode
    | installed => exact absurd (hpending rfl) (hselects.not_carried hfeed hpackaged hat.2.1)
    | committed => exact absurd rfl hstage
  have hunpacks : Unpacks publication.host options.archive root new fs :=
    ⟨bytes, by rw [harchive]; rfl, hextract⟩
  have hjournals := hjournal _ hselected.mem
  rw [← hdigest] at hjournals
  rw [← hname, ← hdigest] at hstart
  refine (apply_safe pid hjournals hpresent hnew hstart hstage (Own.refl fs) hunpacks).mono ?_ ?_
    (fun _ _ _ _ => trivial)
  · rintro s ⟨⟨swapStage', hat'⟩, -⟩
    rw [hname, hdigest] at hat'
    exact before_of_stage hselected hpresent hnew hcarries hat'
  · rintro _ s - hcommitted
    exact ⟨new, hname ▸ hcommitted.2.1, hcarries⟩

/-- What holds after any number of starts. -/
theorem starts_install_once
    (hfeed : publication.tools.parseFeed publication.feed = .ok signed)
    (hpackaged : Packaged publication)
    (hjournal : ∀ artifact ∈ signed.release.artifacts, Journals publication.host artifact.sha256)
    (hbefore : Before publication signed.release start) {installs : Nat}
    (hstarts : Starts publication
      (ArchiveCarries publication.host publication.name signed.release) start fs installs) :
    (installs = 0 ∧ Before publication signed.release fs) ∨
      (installs = 1 ∧ Installed publication signed.release fs) := by
  induction hstarts with
  | none => exact .inl ⟨rfl, hbefore⟩
  | idle _ hsame ih =>
      have htransaction := hsame (.transaction publication.name) id
      have hbundle := hsame (.bundle publication.name) id
      have hprevious := hsame (.previous publication.name) id
      rcases ih with ⟨hnone, hwaiting⟩ | ⟨hone, node, hnode, hcarries⟩
      · refine .inl ⟨hnone, fun artifact hselected => ?_⟩
        obtain ⟨present, pending, swapStage, hstage, hpresent, hpending, hat⟩ :=
          hwaiting artifact hselected
        exact ⟨present, pending, swapStage, hstage, hpresent, hpending,
          hat.congr htransaction hbundle hprevious⟩
      · exact .inr ⟨hone, node, hbundle.trans hnode, hcarries⟩
  | interrupted _ hlaunches hleaves ih =>
      rcases ih with ⟨hnone, hwaiting⟩ | ⟨-, node, hnode, hcarries⟩
      · exact .inl ⟨hnone,
          (hlaunches.safe hfeed hpackaged hjournal hwaiting _).of_leaves hleaves⟩
      · obtain ⟨candidate, -, -, hselects, -⟩ := hlaunches.selected
        exact absurd hcarries (hselects.not_carried hfeed hpackaged hnode)
  | @installed fs fs' installs pid options _ hlaunches hrun ih =>
      rcases ih with ⟨hnone, hwaiting⟩ | ⟨-, node, hnode, hcarries⟩
      · have hend := (hlaunches.safe hfeed hpackaged hjournal hwaiting pid).of_run.2
        simp only [hrun] at hend
        exact .inr ⟨by rw [hnone], hend⟩
      · obtain ⟨candidate, -, -, hselects, -⟩ := hlaunches.selected
        exact absurd hcarries (hselects.not_carried hfeed hpackaged hnode)

/-- If the archives of a release carry it, what the helper installs is the release that was
selected, however often it is interrupted, and any number of starts with an unchanged feed installs
at most one update. -/
theorem selected_release_installed_once
    (hfeed : publication.tools.parseFeed publication.feed = .ok signed)
    (hpackaged : Packaged publication)
    (hjournal : ∀ artifact ∈ signed.release.artifacts, Journals publication.host artifact.sha256)
    {old : Node} (hold : old.isDirectory = true)
    (hbundle : start (.bundle publication.name) = some old)
    (htransaction : start (.transaction publication.name) = none) :
    (∀ applicationId currentVersion config candidate bytes stage,
      checkInner publication.host.toBuild publication.tools applicationId currentVersion config
        (.ok publication.feed) = .ok (some candidate) →
      ArchiveCarries publication.host publication.name signed.release bytes →
      start (.archive stage) = some (.file bytes) →
      ∀ fs, Attempts publication.host publication.name stage candidate.artifact.sha256
          (fun _ => True) start fs →
        ∀ pid options fs', options.bundle = publication.name → options.archive = stage →
          options.sha256 = candidate.artifact.sha256 →
          (machine publication.host).run (apply publication.host pid options) fs = (.ok (), fs') →
          Installed publication signed.release fs') ∧
    ∀ fs installs, Starts publication
        (ArchiveCarries publication.host publication.name signed.release) start fs installs →
      installs ≤ 1 ∧ (0 < installs → Installed publication signed.release fs) := by
  constructor
  · rintro applicationId currentVersion config candidate bytes stage hcheck
      ⟨root, new, hextract, hnew, hcarries⟩ harchive fs hruns pid options fs' hname rfl hdigest hrun
    obtain ⟨feedBytes, feed, hbytes, hparse, -, -, -, -, -, hselected⟩ := check_inner_selects hcheck
    obtain rfl := Except.ok.inj hbytes
    obtain rfl : signed = feed := Except.ok.inj (hfeed.symm.trans hparse)
    have hjournals := hjournal _ (IsSelected.mem hselected)
    have hunpacks : Unpacks publication.host options.archive root new start :=
      ⟨bytes, by rw [harchive]; rfl, hextract⟩
    obtain ⟨present, hpresent, hswap⟩ :=
      attempts_in_swap hjournals hold hnew hunpacks ⟨htransaction, hbundle⟩ hruns
    obtain ⟨from_, hfrom, hown, swapStage, hstage, hat⟩ := hswap.before_commit
    have hfromDirectory : from_.isDirectory = true := by
      rcases hfrom with rfl | rfl
      · rcases hpresent with rfl | rfl
        · exact hold
        · exact hnew
      · exact hnew
    rw [← hdigest] at hjournals
    rw [← hname, ← hdigest] at hat
    rw [← hname] at hown
    have hend := (apply_safe pid hjournals hfromDirectory hnew hat hstage hown hunpacks).of_run.2
    simp only [hrun] at hend
    exact ⟨new, hname ▸ hend.2.1, hcarries⟩
  · intro fs installs hstarts
    have hbefore : Before publication signed.release start := fun artifact _ =>
      ⟨old, old, .settled, by simp, hold, fun h => (nomatch h), htransaction, hbundle⟩
    rcases starts_install_once hfeed hpackaged hjournal hbefore hstarts with
      ⟨rfl, -⟩ | ⟨rfl, hinstalled⟩
    · exact ⟨Nat.zero_le _, fun hpositive => absurd hpositive (Nat.lt_irrefl 0)⟩
    · exact ⟨Nat.le_refl _, fun _ => hinstalled⟩

/-- Notes on Linux, with the feed of a version. -/
def notesPublication (version : String) : Publication where
  host := notesHost .linux
  tools := notesTools
  name := osString "notes"
  feed := notesFeed version
  bootstrap node :=
    (bundleApplication (notesHost .linux) (osString "notes") node).getD (notesApplication "1.0.0")

/-- The file system after the helper of a first start of Notes. -/
def notesUpdated : FileSystem :=
  ((machine (notesHost .linux)).run (apply (notesHost .linux) 7 notesOptions)
    (notesStart (osString "notes") (notesBundle "1.0.0") notesArchive)).2

/-- The run that ends there. -/
theorem notes_updated_run {result : Except String Unit}
    (h : ((machine (notesHost .linux)).run (apply (notesHost .linux) 7 notesOptions)
      (notesStart (osString "notes") (notesBundle "1.0.0") notesArchive)).1 = result) :
    (machine (notesHost .linux)).run (apply (notesHost .linux) 7 notesOptions)
      (notesStart (osString "notes") (notesBundle "1.0.0") notesArchive) =
        (result, notesUpdated) := by
  rw [notesUpdated]
  exact Machine.run_of_result h

theorem notes_packaged (version : String) : Packaged (notesPublication version) := by
  intro node application hdeclared
  have hdeclared : bundleApplication (notesHost .linux) (osString "notes") node =
    some application := hdeclared
  simp only [notesPublication, hdeclared, Option.getD_some]

/-- The next start with the archive in another stage. -/
def notesAgain : FileSystem :=
  notesUpdated.set (.archive (osString "again")) (some (.file notesArchive))

def notesAgainOptions : ApplyOptions :=
  ⟨2, osString "notes", osString "again", notesDigest, none⟩

/-- Whether a start with the feed of a version selects the candidate of that version. -/
def notesSelects (version : String) (fs : FileSystem) : Bool :=
  (fs (.bundle (osString "notes"))).any fun node =>
    startUpdatePolicy ((notesPublication version).bootstrap node).updates (fun config =>
      checkInner (notesHost .linux).toBuild notesTools
        ((notesPublication version).bootstrap node).identifier
        ((notesPublication version).bootstrap node).version config (.ok (notesFeed version))) =
      some (notesCandidate version)

/-- What the starts of Notes evaluate to: with the feed of 1.0.1, and twice with that of 1.0.2. -/
theorem notes_starts_evaluated :
    (bundleApplication (notesHost .linux) (osString "notes") (notesBundle "1.0.1") =
        some (notesApplication "1.0.1") ∧
      notesSelects "1.0.1" (notesStart (osString "notes") (notesBundle "1.0.0") notesArchive) =
        true ∧
      downloadInner (notesHost .linux) (notesCandidate "1.0.1") ⟨some 345, [.ok notesArchive]⟩ =
        .ok notesArchive ∧
      notesDigest = notesReleaseDigest "1.0.1" ∧
      ((machine (notesHost .linux)).run (apply (notesHost .linux) 7 notesOptions)
        (notesStart (osString "notes") (notesBundle "1.0.0") notesArchive)).1 = .ok () ∧
      (notesPublication "1.0.1").tools.parseFeed (notesPublication "1.0.1").feed =
        .ok ⟨notesRelease "1.0.1", notesSignature "1.0.1"⟩) ∧
    (notesSelects "1.0.2" (notesStart (osString "notes") (notesBundle "1.0.0") notesArchive) =
        true ∧
      downloadInner (notesHost .linux) (notesCandidate "1.0.2") ⟨some 345, [.ok notesArchive]⟩ =
        .ok notesArchive ∧
      notesDigest = notesReleaseDigest "1.0.2") ∧
    notesSelects "1.0.2" notesAgain = true ∧
      ((machine (notesHost .linux)).run (apply (notesHost .linux) 8 notesAgainOptions)
        notesAgain).1 = .ok () ∧
      (((machine (notesHost .linux)).run (apply (notesHost .linux) 8 notesAgainOptions)
        notesAgain).2 (.bundle (osString "notes"))).any (fun node =>
          (bundleApplication (notesHost .linux) (osString "notes") node).any
            (·.version = "1.0.1")) = true := by
  decide +kernel

/-- A start with either feed launches the helper with the archive of 1.0.1. -/
theorem notes_launches {version : String} {fs : FileSystem} {options : ApplyOptions}
    (hselects : notesSelects version fs = true)
    (hdownload : downloadInner (notesHost .linux) (notesCandidate version)
      ⟨some 345, [.ok notesArchive]⟩ = .ok notesArchive)
    (hbundle : options.bundle = osString "notes")
    (harchive : fs (.archive options.archive) = some (.file notesArchive))
    (hdigest : options.sha256 = notesReleaseDigest version) (hadmitted : admitted notesArchive) :
    Launches (notesPublication version) admitted fs options := by
  obtain ⟨node, hnode, hpolicy⟩ := (Option.any_eq_true _ _).mp hselects
  exact ⟨hbundle, notesCandidate version, _, notesArchive,
    ⟨node, hnode, of_decide_eq_true hpolicy⟩, hdownload, harchive, hadmitted, hdigest⟩

/-- One start installs 1.0.1. -/
theorem notes_release_installed :
    Installed (notesPublication "1.0.1") (notesRelease "1.0.1") notesUpdated := by
  obtain ⟨hdeclared, hselects, hdownload, hdigest, hrun, hparse⟩ := notes_starts_evaluated.1
  have hcarries : ArchiveCarries (notesHost .linux) (osString "notes") (notesRelease "1.0.1")
      notesArchive :=
    ⟨osString "notes", notesBundle "1.0.1", notes_extract, rfl, notesApplication "1.0.1",
      hdeclared, rfl, rfl⟩
  have hlaunches : Launches (notesPublication "1.0.1")
      (ArchiveCarries (notesHost .linux) (osString "notes") (notesRelease "1.0.1"))
      (notesStart (osString "notes") (notesBundle "1.0.0") notesArchive) notesOptions :=
    notes_launches hselects hdownload rfl (by simp [notesStart, notesOptions]) hdigest hcarries
  have hjournal : ∀ artifact ∈ (notesRelease "1.0.1").artifacts,
      Journals (notesHost .linux) artifact.sha256 := by
    intro artifact hmem
    obtain rfl := List.mem_singleton.mp hmem
    exact notes_journals
  have hstarts : Starts (notesPublication "1.0.1")
      (ArchiveCarries (notesHost .linux) (osString "notes") (notesRelease "1.0.1"))
      (notesStart (osString "notes") (notesBundle "1.0.0") notesArchive) notesUpdated 1 :=
    .installed .none hlaunches (notes_updated_run hrun)
  exact ((@selected_release_installed_once (notesPublication "1.0.1")
    ⟨notesRelease "1.0.1", notesSignature "1.0.1"⟩ _ hparse (notes_packaged "1.0.1") hjournal _
    notes_staged.bundleDirectory notes_staged.bundle notes_staged.transaction).2 _ 1 hstarts).2
    Nat.one_pos

/-- The release 1.0.2 has the archive of 1.0.1: every installation succeeds, 1.0.2 is never
installed, and every start installs again. -/
theorem mislabelled_release_reinstalled :
    ∃ fs, Starts (notesPublication "1.0.2") (fun _ => True)
        (notesStart (osString "notes") (notesBundle "1.0.0") notesArchive) fs 2 ∧
      ¬ Installed (notesPublication "1.0.2") (notesRelease "1.0.2") fs := by
  obtain ⟨⟨-, -, -, -, hfirst_run, -⟩, ⟨hselects, hdownload, hdigest⟩, hagain, hsecond_run, hother⟩ :=
    notes_starts_evaluated
  have hfirst : Launches (notesPublication "1.0.2") (fun _ => True)
      (notesStart (osString "notes") (notesBundle "1.0.0") notesArchive) notesOptions :=
    notes_launches hselects hdownload rfl (by simp [notesStart, notesOptions]) hdigest trivial
  have hsecond : Launches (notesPublication "1.0.2") (fun _ => True) notesAgain
      notesAgainOptions :=
    notes_launches hagain hdownload rfl (by simp [notesAgain, notesAgainOptions]) hdigest trivial
  have hstarts : Starts (notesPublication "1.0.2") (fun _ => True)
      (notesStart (osString "notes") (notesBundle "1.0.0") notesArchive)
      ((machine (notesHost .linux)).run (apply (notesHost .linux) 8 notesAgainOptions)
        notesAgain).2 2 := by
    refine .installed (.idle (.installed .none hfirst (notes_updated_run hfirst_run))
      fun location houtside => ?_) hsecond (Machine.run_of_result hsecond_run)
    have hne : location ≠ .archive (osString "again") := by
      rintro rfl
      exact houtside trivial
    exact FileSystem.set_of_ne _ _ hne
  refine ⟨_, hstarts, ?_⟩
  rintro ⟨node, hnode, application, hdeclared, -, hversion⟩
  obtain ⟨node', hnode', hdeclared'⟩ := (Option.any_eq_true _ _).mp hother
  obtain rfl : node' = node := Option.some.inj (hnode'.symm.trans hnode)
  obtain ⟨application', happlication', hversion'⟩ := (Option.any_eq_true _ _).mp hdeclared'
  obtain rfl : application' = application := Option.some.inj (happlication'.symm.trans hdeclared)
  have hnamed : "1.0.1" = "1.0.2" := (of_decide_eq_true hversion').symm.trans hversion
  exact absurd hnamed (by decide)

end PamDesktop.Updater
